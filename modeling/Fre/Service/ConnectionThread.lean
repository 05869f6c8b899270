import Fre.Service.Connection

/-!
# The thread of a connection

Every connection is served by a thread of its own, and the threads share the
pipeline and its router.  This module has `handle_connection` as a sequence of
accesses to what is shared, so that threads can be interleaved; a thread that
runs alone does what the handler does.
-/

namespace Fre
namespace Service
namespace ConnectionThread

open Foundation Handlers Pipeline Sharding
open Connection (Environment Impl)

/-- A response. -/
inductive Response
  | http (status : Nat) (reason contentType body : String)
  | notOwner (hint : String)
  deriving DecidableEq, Repr

namespace Response

/-- What is written to the socket. -/
def text : Response → String
  | http status reason contentType body =>
      Connection.httpResponse status reason contentType body
  | notOwner hint => Connection.notOwnerResponse hint

/-- The event was accepted. -/
def accepted : Response := .http 202 "Accepted" "text/plain" ""

/-- The answer to an event that `submit` has refused. -/
def refused (error : Connection.Error) : Response :=
  .http 503 "Service Unavailable" "text/plain" error.message

/-- A document. -/
def document (body : String) : Response := .http 200 "OK" "application/json" body

end Response

/-- Where a thread stands: before the request is read; in `submit`, before
`state_` is loaded, before a token is taken, before `in_flight` is raised and
before it is lowered again, before `cells_for`, `co_spawn` and `release`; in a
request to drain, before the flag is cleared, before `state_` is stored and
before the pool is stopped; before a response is written; and after that. -/
inductive Position
  | reading (text : List Char)
  | submitting (event : Event)
  | consuming (event : Event)
  | entering (event : Event)
  | undoing (event : Event)
  | placing (event : Event)
  | spawning (event : Event)
  | releasing (event : Event)
  | clearing
  | draining
  | stopping
  | answering (response : Response)
  | closed (response : Option Response)

/-! ### Reading the request -/

/-- What follows the body of `POST /events`; none when it does not return. -/
def afterEvents (environment : Environment) (impl : Impl) (body : String) :
    Option Position :=
  match environment.parse body with
  | .error (.parseError what) =>
      some (.answering (.http 400 "Bad Request" "text/plain" what))
  | .error .other => some (.closed none)
  | .ok json =>
      match Connection.stringValue json "tenant_id" "",
        Connection.stringValue json "entity_id" "",
        Connection.stringValue json "event_type" "event" with
      | .ok tenantId, .ok entityId, .ok eventType =>
          match impl.owns tenantId with
          | none => none
          | some true => some (.submitting { tenantId, entityId, eventType })
          | some false =>
              (impl.redirectHint tenantId).map fun hint =>
                .answering (.notOwner hint)
      | _, _, _ => some (.closed none)

/-- What follows a document that could be written out, or not. -/
def afterDump (dumped : Except Connection.Exception String) : Position :=
  match dumped with
  | .ok body => .answering (.document body)
  | .error _ => .closed none

/-- What follows a request. -/
def afterRequest (environment : Environment) (impl : Impl)
    (request : HttpRequest) : Option Position :=
  if request.method = "POST" ∧ request.path = "/events" then
    afterEvents environment impl request.body
  else if request.method = "GET" ∧ request.path = "/topology" then
    some (.answering (.document
      (match impl.fleetRouter with
      | some config => Connection.topologyJson config
      | none => "\x7b\"fleet_routing\":\"disabled\"\x7d")))
  else if request.method = "GET" ∧ request.path = "/health" then
    some (afterDump (environment.dump (Connection.health impl)))
  else if request.method = "POST" ∧ request.path = "/pipeline/drain" then
    some .clearing
  else some (.answering (.http 404 "Not Found" "text/plain" "not found"))

/-- What follows the text of the client. -/
def afterText (environment : Environment) (impl : Impl) (text : List Char) :
    Option Position :=
  match Lines.readUntil Connection.headEnd text with
  | none => some (.closed none)
  | some (rawHeaders, rest) =>
      match HttpRequest.parseRequest rawHeaders with
      | .error _ => some (.closed none)
      | .ok none =>
          some (.answering (.http 400 "Bad Request" "text/plain" "bad request"))
      | .ok (some request) =>
          afterRequest environment impl (Connection.withBody request rest)

/-! ### One access -/

/-- The pipeline has dereferenced its router. -/
def useRouter (impl : Impl) : Impl :=
  { impl with harness.pipeline := impl.harness.pipeline.use .router }

/-- `submit` loads `state_`. -/
def loadState (impl : Impl) (event : Event) : Position :=
  if impl.harness.pipeline.state = .running then .consuming event
  else
    .answering (.refused (.pipeline
      ⟨.notRunning, "pipeline must be running to submit events"⟩))

/-- `try_acquire` up to the answer of the bucket. -/
def consume (environment : Environment) (impl : Impl) (event : Event) :
    Option (Impl × Position) :=
  (impl.router.getOrCreateTenant event.tenantId environment.createdNs).map
    fun (tenant, router) =>
      let consumed := tenant.bucket.tryConsume environment.nowNs
      ({ useRouter impl with
          router :=
            router.setTenant event.tenantId { tenant with bucket := consumed.2 } },
        if consumed.1 then .entering event
        else .answering (.refused (.rateLimit ⟨.exhausted, event.tenantId⟩)))

/-- `try_acquire` raises `in_flight` and compares what it was with the cap. -/
def enter (impl : Impl) (event : Event) : Option (Impl × Position) :=
  (impl.router.tenants.lookup event.tenantId).map fun tenant =>
    ({ impl with
        router := impl.router.setTenant event.tenantId
          { tenant with inFlight := tenant.inFlight + 1 } },
      if tenant.inFlight ≥ tenant.maxConcurrent then .undoing event
      else .placing event)

/-- `try_acquire` lowers `in_flight` again. -/
def undo (impl : Impl) (event : Event) : Option (Impl × Position) :=
  (impl.router.tenants.lookup event.tenantId).map fun tenant =>
    ({ impl with
        router := impl.router.setTenant event.tenantId tenant.release },
      .answering (.refused
        (.rateLimit ⟨.concurrencyCapReached, event.tenantId⟩)))

/-- `cells_for`, and the first of its strands. -/
def place (environment : Environment) (impl : Impl) (event : Event) :
    Option (Impl × Position) := do
  let (tenant, router) ←
    impl.router.getOrCreateTenant event.tenantId environment.createdNs
  let strands ← Dispatch.cellPtrs router tenant.cellIndices
  let _ ← strands.head?
  return ({ useRouter impl with router }, .spawning event)

/-- `co_spawn`. -/
def spawn (impl : Impl) : Impl :=
  { impl with harness.pipeline.pending := impl.harness.pipeline.pending + 1 }

/-- `release`. -/
def release (impl : Impl) (event : Event) : Impl :=
  match impl.router.tenants.lookup event.tenantId with
  | some tenant =>
      { useRouter impl with
        router := impl.router.setTenant event.tenantId tenant.release }
  | none => useRouter impl

/-- The next access of a thread; none when it is closed, or blocked for good. -/
def advance (environment : Environment) (impl : Impl) :
    Position → Option (Impl × Position)
  | .reading text =>
      (afterText environment impl text).map fun position => (impl, position)
  | .submitting event => some (impl, loadState impl event)
  | .consuming event => consume environment impl event
  | .entering event => enter impl event
  | .undoing event => undo impl event
  | .placing event => place environment impl event
  | .spawning event => some (spawn impl, .releasing event)
  | .releasing event =>
      some (release impl event, .answering .accepted)
  | .clearing => some ({ impl with harness.running := false }, .draining)
  | .draining =>
      some ({ impl with harness.pipeline.state := .draining }, .stopping)
  | .stopping =>
      if environment.poolJoins then
        some
          ({ impl with
              harness.pipeline := LifecycleCalls.drain impl.harness.pipeline },
            afterDump (environment.dump Connection.drained))
      else none
  | .answering response => some (impl, .closed (some response))
  | .closed _ => none

/-! ### What one access changes -/

/-- The event that the thread submits. -/
def Position.event : Position → Option Event
  | .submitting event | .consuming event | .entering event | .undoing event
  | .placing event | .spawning event | .releasing event => some event
  | .reading _ | .clearing | .draining | .stopping | .answering _
  | .closed _ => none

/-- What no access changes: the fleet, the configuration of the router, and the
tenants other than the one of the event. -/
structure Access (impl : Impl) (position : Position) (next : Impl)
    (after : Position) : Prop where
  fleet : next.fleetRouter = impl.fleetRouter
  config : next.router =
    { impl.router with tenants := next.router.tenants }
  others : ∀ tenantId,
    (∀ event, position.event = some event → event.tenantId ≠ tenantId) →
      next.router.tenants.lookup tenantId =
        impl.router.tenants.lookup tenantId
  event : ∀ event, after.event = some event →
    position.event = some event ∨ impl.owns event.tenantId = some true

/-- An access that does not touch the router. -/
theorem Access.ofRouter
    {impl next : Impl}
    {position after : Position}
    (sameFleet : next.fleetRouter = impl.fleetRouter)
    (sameRouter : next.router = impl.router)
    (sameEvent : ∀ event, after.event = some event →
      position.event = some event ∨ impl.owns event.tenantId = some true) :
    Access impl position next after where
  fleet := sameFleet
  config := by rw [sameRouter]
  others := fun _ _ => by rw [sameRouter]
  event := sameEvent

theorem lookup_setTenant
    (router : TenantRouter)
    (tenantId : String)
    (tenant : TenantState) :
    (router.setTenant tenantId tenant).tenants.lookup tenantId =
      some tenant := by
  simp [TenantRouter.setTenant]

theorem lookup_setTenant_of_ne
    {tenantId other : String}
    (different : tenantId ≠ other)
    (router : TenantRouter)
    (tenant : TenantState) :
    (router.setTenant tenantId tenant).tenants.lookup other =
      router.tenants.lookup other := by
  simp [TenantRouter.setTenant, AList.lookup_insert_ne different.symm]

/-- A tenant that was looked up or created: it is in the table, nothing else
has changed, and it has no slot if it is new. -/
theorem getOrCreateTenant_spec
    {router next : TenantRouter}
    {tenantId : String}
    {createdNs : UInt64}
    {tenant : TenantState}
    (found : router.getOrCreateTenant tenantId createdNs =
      some (tenant, next)) :
    next = { router with tenants := next.tenants } ∧
      next.tenants.lookup tenantId = some tenant ∧
      (∀ other, tenantId ≠ other →
        next.tenants.lookup other = router.tenants.lookup other) ∧
      (router.tenants.lookup tenantId = some tenant ∨
        router.tenants.lookup tenantId = none ∧ tenant.inFlight = 0 ∧
          tenant.maxConcurrent = router.rateCfg.maxConcurrent) := by
  unfold TenantRouter.getOrCreateTenant at found
  split at found
  next state present =>
    cases found
    exact ⟨rfl, present, fun _ _ => rfl, .inl present⟩
  next absent =>
    obtain ⟨state, created, same⟩ := Option.map_eq_some_iff.mp found
    cases same
    obtain ⟨cells, -, rfl⟩ := Option.map_eq_some_iff.mp created
    exact ⟨rfl, lookup_setTenant _ _ _,
      fun other different => lookup_setTenant_of_ne different _ _,
      .inr ⟨absent, rfl, rfl⟩⟩

/-- An access to the entry of the tenant of the event. -/
theorem Access.ofTenant
    {impl next : Impl}
    {position after : Position}
    {event : Event}
    (isEvent : position.event = some event)
    (sameFleet : next.fleetRouter = impl.fleetRouter)
    (config : next.router =
      { impl.router with tenants := next.router.tenants })
    (others : ∀ other, event.tenantId ≠ other →
      next.router.tenants.lookup other = impl.router.tenants.lookup other)
    (sameEvent : ∀ other, after.event = some other → other = event) :
    Access impl position next after where
  fleet := sameFleet
  config := config
  others := fun tenantId different => others tenantId (different event isEvent)
  event := fun other isOther =>
    .inl (by rw [isEvent, sameEvent other isOther])

/-- What a thread has come to when it has read its request: nothing is accepted
yet, and only an event of an own tenant is submitted. -/
inductive Opened (impl : Impl) : Position → Prop
  | submitting {event : Event} :
      impl.owns event.tenantId = some true → Opened impl (.submitting event)
  | clearing : Opened impl .clearing
  | answering {response : Response} :
      response ≠ .accepted → Opened impl (.answering response)
  | closed : Opened impl (.closed none)

theorem opened_afterDump
    (impl : Impl)
    (dumped : Except Connection.Exception String) :
    Opened impl (afterDump dumped) := by
  cases dumped with
  | ok body => exact .answering (by simp [Response.document, Response.accepted])
  | error _ => exact .closed

theorem opened_of_afterEvents
    {environment : Environment}
    {impl : Impl}
    {body : String}
    {position : Position}
    (read : afterEvents environment impl body = some position) :
    Opened impl position := by
  unfold afterEvents at read
  split at read
  · cases read
    exact .answering (by simp [Response.accepted])
  · cases read
    exact .closed
  · split at read
    next tenantId entityId eventType _ _ _ =>
      split at read
      next => cases read
      next owned =>
        cases read
        exact .submitting owned
      next =>
        obtain ⟨hint, -, rfl⟩ := Option.map_eq_some_iff.mp read
        exact .answering (by simp [Response.accepted])
    next =>
      cases read
      exact .closed

theorem opened_of_afterText
    {environment : Environment}
    {impl : Impl}
    {text : List Char}
    {position : Position}
    (read : afterText environment impl text = some position) :
    Opened impl position := by
  unfold afterText at read
  split at read
  next =>
    cases read
    exact .closed
  next rawHeaders rest _ =>
    split at read
    next =>
      cases read
      exact .closed
    next =>
      cases read
      exact .answering (by simp [Response.accepted])
    next request _ =>
      unfold afterRequest at read
      split at read
      · exact opened_of_afterEvents read
      · split at read
        · cases read
          exact .answering (by simp [Response.document, Response.accepted])
        · split at read
          · cases read
            exact opened_afterDump impl _
          · split at read
            · cases read
              exact .clearing
            · cases read
              exact .answering (by simp [Response.accepted])

/-- The event of a thread that goes on is the one it had, or one of an own
tenant that was just read. -/
theorem Opened.event
    {impl : Impl}
    {position : Position}
    {event : Event}
    (opened : Opened impl position)
    (isEvent : position.event = some event) :
    impl.owns event.tenantId = some true := by
  cases opened with
  | submitting owned =>
      cases isEvent
      exact owned
  | clearing => cases isEvent
  | answering _ => cases isEvent
  | closed => cases isEvent

/-- An entry is written, and the configuration stays. -/
theorem config_setTenant
    {router next : TenantRouter}
    (config : next = { router with tenants := next.tenants })
    (tenantId : String)
    (tenant : TenantState) :
    next.setTenant tenantId tenant =
      { router with tenants := (next.setTenant tenantId tenant).tenants } := by
  rw [config]
  rfl

theorem access_of_advance
    {environment : Environment}
    {impl next : Impl}
    {position after : Position}
    (advanced : advance environment impl position = some (next, after)) :
    Access impl position next after := by
  cases position with
  | reading text =>
      simp only [advance, Option.map_eq_some_iff, Prod.mk.injEq] at advanced
      obtain ⟨opened, read, rfl, rfl⟩ := advanced
      exact .ofRouter rfl rfl fun event isEvent =>
        .inr ((opened_of_afterText read).event isEvent)
  | submitting event =>
      simp only [advance, Option.some.injEq, Prod.mk.injEq] at advanced
      obtain ⟨rfl, rfl⟩ := advanced
      refine .ofRouter rfl rfl fun other isOther => .inl ?_
      unfold loadState at isOther
      split at isOther
      · exact isOther
      · cases isOther
  | consuming event =>
      simp only [advance, consume, Option.map_eq_some_iff, Prod.exists,
        Prod.mk.injEq] at advanced
      obtain ⟨tenant, router, found, rfl, rfl⟩ := advanced
      obtain ⟨config, -, others, -⟩ := getOrCreateTenant_spec found
      refine .ofTenant rfl rfl (config_setTenant config _ _) ?_ ?_
      · intro other different
        exact (lookup_setTenant_of_ne different _ _).trans
          (others other different)
      · intro other isOther
        split at isOther <;> cases isOther
        rfl
  | entering event =>
      simp only [advance, enter, Option.map_eq_some_iff, Prod.mk.injEq]
        at advanced
      obtain ⟨tenant, -, rfl, rfl⟩ := advanced
      refine .ofTenant rfl rfl rfl ?_ ?_
      · exact fun other different => lookup_setTenant_of_ne different _ _
      · intro other isOther
        split at isOther <;> cases isOther <;> rfl
  | undoing event =>
      simp only [advance, undo, Option.map_eq_some_iff, Prod.mk.injEq]
        at advanced
      obtain ⟨tenant, -, rfl, rfl⟩ := advanced
      refine .ofTenant rfl rfl rfl ?_ nofun
      exact fun other different => lookup_setTenant_of_ne different _ _
  | placing event =>
      simp only [advance, place, Option.bind_eq_bind, Option.bind_eq_some_iff,
        Option.pure_def, Option.some.injEq, Prod.exists, Prod.mk.injEq]
        at advanced
      obtain ⟨tenant, router, found, -, -, -, -, rfl, rfl⟩ := advanced
      obtain ⟨config, -, others, -⟩ := getOrCreateTenant_spec found
      refine .ofTenant rfl rfl config others ?_
      intro other isOther
      cases isOther
      rfl
  | spawning event =>
      simp only [advance, Option.some.injEq, Prod.mk.injEq] at advanced
      obtain ⟨rfl, rfl⟩ := advanced
      exact .ofRouter rfl rfl fun other isOther => .inl isOther
  | releasing event =>
      simp only [advance, Option.some.injEq, Prod.mk.injEq] at advanced
      obtain ⟨rfl, rfl⟩ := advanced
      unfold release
      split
      next tenant _ =>
        refine .ofTenant rfl rfl rfl ?_ nofun
        exact fun other different => lookup_setTenant_of_ne different _ _
      next => exact .ofRouter rfl rfl nofun
  | clearing =>
      cases advanced
      exact .ofRouter rfl rfl nofun
  | draining =>
      cases advanced
      exact .ofRouter rfl rfl nofun
  | stopping =>
      simp only [advance, Option.ite_none_right_eq_some, Option.some.injEq,
        Prod.mk.injEq] at advanced
      obtain ⟨-, rfl, rfl⟩ := advanced
      refine .ofRouter rfl rfl fun other isOther => ?_
      exact .inr ((opened_afterDump impl _).event isOther)
  | answering response =>
      cases advanced
      exact .ofRouter rfl rfl nofun
  | closed response => cases advanced

/-! ### Slots -/

/-- The counter `in_flight` of a tenant, zero as long as it has no state. -/
def slots (router : TenantRouter) (tenantId : String) : Int :=
  match router.tenants.lookup tenantId with
  | some tenant => tenant.inFlight.toInt
  | none => 0

/-- The tenants in the table have the cap of the configuration. -/
def Capped (router : TenantRouter) : Prop :=
  ∀ tenantId tenant, router.tenants.lookup tenantId = some tenant →
    tenant.maxConcurrent = router.rateCfg.maxConcurrent

/-- The thread is counted by `in_flight` of the tenant. -/
def Position.counted (tenantId : String) : Position → Bool
  | .undoing event | .placing event | .spawning event | .releasing event =>
      event.tenantId = tenantId
  | _ => false

/-- The thread has a slot of the tenant. -/
def Position.granted (tenantId : String) : Position → Bool
  | .placing event | .spawning event | .releasing event =>
      event.tenantId = tenantId
  | _ => false

theorem slots_setTenant
    (router : TenantRouter)
    (tenantId other : String)
    (tenant : TenantState) :
    slots (router.setTenant tenantId tenant) other =
      if tenantId = other then tenant.inFlight.toInt
      else slots router other := by
  split
  next same =>
    subst same
    rw [slots, lookup_setTenant]
  next different => rw [slots, lookup_setTenant_of_ne different, slots]

/-- The counter of a tenant in the table. -/
theorem slots_of_lookup
    {router : TenantRouter}
    {tenantId : String}
    {tenant : TenantState}
    (present : router.tenants.lookup tenantId = some tenant) :
    slots router tenantId = tenant.inFlight.toInt := by
  rw [slots, present]

/-- Looking up a tenant takes no slot. -/
theorem slots_getOrCreateTenant
    {router next : TenantRouter}
    {tenantId : String}
    {createdNs : UInt64}
    {tenant : TenantState}
    (found : router.getOrCreateTenant tenantId createdNs =
      some (tenant, next))
    (other : String) :
    slots next other = slots router other ∧
      tenant.inFlight.toInt = slots router tenantId := by
  obtain ⟨-, present, others, before⟩ := getOrCreateTenant_spec found
  have own : tenant.inFlight.toInt = slots router tenantId := by
    unfold slots
    rcases before with before | ⟨before, noSlot, -⟩
    · rw [before]
    · rw [before, noSlot]
      rfl
  refine ⟨?_, own⟩
  by_cases same : tenantId = other
  · subst same
    rw [← own, slots, present]
  · rw [slots, others other same, slots]

theorem Capped.setTenant
    {router : TenantRouter}
    {tenantId : String}
    {tenant : TenantState}
    (capped : Capped router)
    (own : tenant.maxConcurrent = router.rateCfg.maxConcurrent) :
    Capped (router.setTenant tenantId tenant) := by
  intro other state present
  by_cases same : tenantId = other
  · subst same
    rw [lookup_setTenant, Option.some_inj] at present
    exact present ▸ own
  · rw [lookup_setTenant_of_ne same] at present
    exact capped other state present

theorem Capped.getOrCreateTenant
    {router next : TenantRouter}
    {tenantId : String}
    {createdNs : UInt64}
    {tenant : TenantState}
    (capped : Capped router)
    (found : router.getOrCreateTenant tenantId createdNs =
      some (tenant, next)) :
    Capped next ∧ tenant.maxConcurrent = next.rateCfg.maxConcurrent := by
  obtain ⟨config, present, others, before⟩ := getOrCreateTenant_spec found
  have sameRate : next.rateCfg = router.rateCfg := by rw [config]
  have own : tenant.maxConcurrent = next.rateCfg.maxConcurrent := by
    rw [sameRate]
    rcases before with before | ⟨-, -, cap⟩
    · exact capped tenantId tenant before
    · exact cap
  refine ⟨fun other state found => ?_, own⟩
  by_cases same : tenantId = other
  · subst same
    rw [present, Option.some_inj] at found
    exact found ▸ own
  · rw [others other same] at found
    rw [sameRate]
    exact capped other state found

/-- An access moves the counter by what the thread is counted for, gives a slot
only below the cap, and leaves the cap alone. -/
structure SlotAccess (tenantId : String) (impl : Impl) (position : Position)
    (next : Impl) (after : Position) : Prop where
  moves : slots next.router tenantId + (position.counted tenantId).toNat =
    slots impl.router tenantId + (after.counted tenantId).toNat
  belowCap : after.granted tenantId = true →
    position.granted tenantId = true ∨
      slots impl.router tenantId < impl.router.rateCfg.maxConcurrent.toInt
  capped : Capped next.router

section SlotAccess

variable {environment : Environment}
variable {impl next : Impl}
variable {position after : Position}
variable {event : Event}
variable {tenantId : String}
variable {tenant : TenantState}

/-- An access that leaves the counters alone, of a thread that is counted as
before. -/
theorem SlotAccess.ofSame
    (sameSlots : slots next.router tenantId = slots impl.router tenantId)
    (sameCounted : after.counted tenantId = position.counted tenantId)
    (sameGranted : after.granted tenantId = true →
      position.granted tenantId = true)
    (capped : Capped next.router) :
    SlotAccess tenantId impl position next after where
  moves := by rw [sameSlots, sameCounted]
  belowCap := fun granted => .inl (sameGranted granted)
  capped := capped

/-- The access that raises the counter. -/
theorem slotAccess_enter
    (capped : Capped impl.router)
    (present : impl.router.tenants.lookup event.tenantId = some tenant)
    (isNext : next.router = impl.router.setTenant event.tenantId
      { tenant with inFlight := tenant.inFlight + 1 })
    (isAfter : after = if tenant.inFlight ≥ tenant.maxConcurrent
      then .undoing event else .placing event)
    (low : 0 ≤ slots impl.router tenantId)
    (high : slots impl.router tenantId + (after.counted tenantId).toNat <
      2 ^ 31) :
    SlotAccess tenantId impl (.entering event) next after := by
  have one : (1 : Int32).toInt = 1 := rfl
  have ownSlots := slots_of_lookup present
  have ownCap := capped event.tenantId tenant present
  have counted : after.counted tenantId =
      decide (event.tenantId = tenantId) := by
    rw [isAfter]
    split <;> rfl
  rw [counted] at high
  refine ⟨?_, ?_, isNext ▸ capped.setTenant ownCap⟩
  · rw [counted, isNext, slots_setTenant]
    by_cases own : event.tenantId = tenantId
    · subst own
      rw [decide_eq_true rfl, Bool.toNat_true] at high
      rw [if_pos rfl, decide_eq_true rfl, Int32.toInt_add, one, ownSlots,
        FixedWidth.bmod_two_pow_32 (by omega) (by omega)]
      simp [Position.counted]
    · rw [if_neg own, decide_eq_false own]
      rfl
  · intro granted
    rw [isAfter] at granted
    split at granted
    next => cases granted
    next below =>
      have own : event.tenantId = tenantId := of_decide_eq_true granted
      subst own
      refine .inr ?_
      rw [ownSlots, ← ownCap, ← Int32.lt_iff_toInt_lt]
      rwa [ge_iff_le, Int32.not_le] at below

/-- The access that lowers the counter. -/
theorem slotAccess_lower
    (capped : Capped impl.router)
    (present : impl.router.tenants.lookup event.tenantId = some tenant)
    (isNext : next.router =
      impl.router.setTenant event.tenantId tenant.release)
    (counted : position.counted tenantId =
      decide (event.tenantId = tenantId))
    (low : ((position.counted tenantId).toNat : Int) ≤
      slots impl.router tenantId)
    (response : Response) :
    SlotAccess tenantId impl position next (.answering response) := by
  have one : (1 : Int32).toInt = 1 := rfl
  have ownSlots := slots_of_lookup present
  have ownCap := capped event.tenantId tenant present
  have bound := tenant.inFlight.toInt_lt
  rw [counted] at low
  refine ⟨?_, nofun, isNext ▸ capped.setTenant ownCap⟩
  rw [counted, isNext, slots_setTenant]
  by_cases own : event.tenantId = tenantId
  · subst own
    rw [decide_eq_true rfl, Bool.toNat_true] at low
    rw [if_pos rfl, decide_eq_true rfl, TenantState.release, Int32.toInt_sub, one,
      ownSlots, FixedWidth.bmod_two_pow_32 (by omega) (by omega)]
    rw [Bool.toNat_true]
    simp [Position.counted]
  · rw [if_neg own, decide_eq_false own]
    rfl

end SlotAccess

theorem slotAccess_of_advance
    {environment : Environment}
    {impl next : Impl}
    {position after : Position}
    {tenantId : String}
    (capped : Capped impl.router)
    (low : ((position.counted tenantId).toNat : Int) ≤
      slots impl.router tenantId)
    (high : slots impl.router tenantId + (after.counted tenantId).toNat -
      (position.counted tenantId).toNat < 2 ^ 31)
    (advanced : advance environment impl position = some (next, after)) :
    SlotAccess tenantId impl position next after := by
  cases position with
  | reading text =>
      simp only [advance, Option.map_eq_some_iff, Prod.mk.injEq] at advanced
      obtain ⟨opened, read, rfl, rfl⟩ := advanced
      have opened := opened_of_afterText read
      refine .ofSame rfl ?_ ?_ capped
      · cases opened <;> rfl
      · cases opened <;> nofun
  | submitting event =>
      simp only [advance, Option.some.injEq, Prod.mk.injEq] at advanced
      obtain ⟨rfl, rfl⟩ := advanced
      unfold loadState
      split
      · exact .ofSame rfl rfl nofun capped
      · exact .ofSame rfl rfl nofun capped
  | consuming event =>
      simp only [advance, consume, Option.map_eq_some_iff, Prod.exists,
        Prod.mk.injEq] at advanced
      obtain ⟨tenant, router, found, rfl, rfl⟩ := advanced
      obtain ⟨sameSlots, ownSlots⟩ := slots_getOrCreateTenant found tenantId
      obtain ⟨foundCapped, own⟩ := capped.getOrCreateTenant found
      refine .ofSame ?_ ?_ ?_ (foundCapped.setTenant own)
      · dsimp only
        rw [slots_setTenant]
        split
        next isOwn => rw [← isOwn, ← ownSlots]
        next => exact sameSlots
      · split <;> rfl
      · split <;> nofun
  | entering event =>
      simp only [advance, enter, Option.map_eq_some_iff, Prod.mk.injEq]
        at advanced
      obtain ⟨tenant, present, rfl, rfl⟩ := advanced
      exact slotAccess_enter capped present rfl rfl low
        (by simpa [Position.counted] using high)
  | undoing event =>
      simp only [advance, undo, Option.map_eq_some_iff, Prod.mk.injEq]
        at advanced
      obtain ⟨tenant, present, rfl, rfl⟩ := advanced
      exact slotAccess_lower capped present rfl rfl low _
  | placing event =>
      simp only [advance, place, Option.bind_eq_bind, Option.bind_eq_some_iff,
        Option.pure_def, Option.some.injEq, Prod.exists, Prod.mk.injEq]
        at advanced
      obtain ⟨tenant, router, found, -, -, -, -, rfl, rfl⟩ := advanced
      exact .ofSame (slots_getOrCreateTenant found tenantId).1 rfl id
        (capped.getOrCreateTenant found).1
  | spawning event =>
      simp only [advance, Option.some.injEq, Prod.mk.injEq] at advanced
      obtain ⟨rfl, rfl⟩ := advanced
      exact .ofSame rfl rfl id capped
  | releasing event =>
      simp only [advance, Option.some.injEq, Prod.mk.injEq] at advanced
      obtain ⟨rfl, rfl⟩ := advanced
      unfold release
      split
      next tenant present =>
        exact slotAccess_lower capped present rfl rfl low _
      next absent =>
        have notOwn : event.tenantId ≠ tenantId := by
          rintro rfl
          simp [Position.counted, slots, absent] at low
        have notCounted :
            (Position.releasing event).counted tenantId = false :=
          decide_eq_false notOwn
        exact .ofSame rfl notCounted.symm nofun capped
  | clearing =>
      cases advanced
      exact .ofSame rfl rfl nofun capped
  | draining =>
      cases advanced
      exact .ofSame rfl rfl nofun capped
  | stopping =>
      simp only [advance, Option.ite_none_right_eq_some, Option.some.injEq,
        Prod.mk.injEq] at advanced
      obtain ⟨-, rfl, rfl⟩ := advanced
      cases environment.dump Connection.drained with
      | ok body => exact .ofSame rfl rfl nofun capped
      | error _ => exact .ofSame rfl rfl nofun capped
  | answering response =>
      cases advanced
      exact .ofSame rfl rfl nofun capped
  | closed response => cases advanced

/-! ### Accepted events -/

/-- The event of the thread was spawned: the thread will answer, or has
answered, that it was accepted. -/
def Position.accepted : Position → Bool
  | .releasing _ => true
  | .answering response => response = .accepted
  | .closed (some response) => response = .accepted
  | _ => false

@[simp] theorem pending_use
    (component : LifecycleCalls.Component)
    (pipeline : LifecycleCalls.Impl) :
    (pipeline.use component).pending = pipeline.pending := by
  unfold LifecycleCalls.Impl.use
  split <;> rfl

/-- An access to the router spawns nothing. -/
theorem pending_useRouter (impl : Impl) :
    (useRouter impl).harness.pipeline.pending =
      impl.harness.pipeline.pending :=
  pending_use _ _

theorem Opened.not_accepted
    {impl : Impl}
    {position : Position}
    (opened : Opened impl position) :
    position.accepted = false := by
  cases opened with
  | submitting _ => rfl
  | clearing => rfl
  | answering notAccepted => exact decide_eq_false notAccepted
  | closed => rfl

theorem refused_ne_accepted (error : Connection.Error) :
    Response.refused error ≠ .accepted := by
  simp [Response.refused, Response.accepted]

/-- An access spawns an event exactly when it makes the thread accept it, unless
it stops the pool. -/
theorem pending_of_advance
    {environment : Environment}
    {impl next : Impl}
    {position after : Position}
    (notStopping : position ≠ .stopping)
    (advanced : advance environment impl position = some (next, after)) :
    next.harness.pipeline.pending + position.accepted.toNat =
      impl.harness.pipeline.pending + after.accepted.toNat := by
  cases position with
  | reading text =>
      simp only [advance, Option.map_eq_some_iff, Prod.mk.injEq] at advanced
      obtain ⟨opened, read, rfl, rfl⟩ := advanced
      rw [(opened_of_afterText read).not_accepted]
      rfl
  | submitting event =>
      simp only [advance, Option.some.injEq, Prod.mk.injEq] at advanced
      obtain ⟨rfl, rfl⟩ := advanced
      unfold loadState
      split
      · rfl
      · simp [Position.accepted, refused_ne_accepted]
  | consuming event =>
      simp only [advance, consume, Option.map_eq_some_iff, Prod.exists,
        Prod.mk.injEq] at advanced
      obtain ⟨tenant, router, found, rfl, rfl⟩ := advanced
      dsimp only
      rw [pending_useRouter]
      split
      · rfl
      · simp [Position.accepted, refused_ne_accepted]
  | entering event =>
      simp only [advance, enter, Option.map_eq_some_iff, Prod.mk.injEq]
        at advanced
      obtain ⟨tenant, present, rfl, rfl⟩ := advanced
      split <;> rfl
  | undoing event =>
      simp only [advance, undo, Option.map_eq_some_iff, Prod.mk.injEq]
        at advanced
      obtain ⟨tenant, present, rfl, rfl⟩ := advanced
      simp [Position.accepted, refused_ne_accepted]
  | placing event =>
      simp only [advance, place, Option.bind_eq_bind, Option.bind_eq_some_iff,
        Option.pure_def, Option.some.injEq, Prod.exists, Prod.mk.injEq]
        at advanced
      obtain ⟨tenant, router, found, -, -, -, -, rfl, rfl⟩ := advanced
      exact congrArg (· + 0) (pending_useRouter impl)
  | spawning event =>
      simp only [advance, Option.some.injEq, Prod.mk.injEq] at advanced
      obtain ⟨rfl, rfl⟩ := advanced
      rfl
  | releasing event =>
      simp only [advance, Option.some.injEq, Prod.mk.injEq] at advanced
      obtain ⟨rfl, rfl⟩ := advanced
      unfold release
      split
      · simp [Position.accepted, pending_useRouter]
      · simp [Position.accepted, pending_useRouter]
  | clearing =>
      cases advanced
      rfl
  | draining =>
      cases advanced
      rfl
  | stopping => exact absurd rfl notStopping
  | answering response =>
      cases advanced
      rfl
  | closed response => cases advanced

/-- An accepted event stays so. -/
theorem accepted_of_advance
    {environment : Environment}
    {impl next : Impl}
    {position after : Position}
    (accepted : position.accepted = true)
    (advanced : advance environment impl position = some (next, after)) :
    after.accepted = true := by
  cases position with
  | releasing event =>
      cases advanced
      rfl
  | answering response =>
      cases advanced
      exact accepted
  | closed response => cases advanced
  | _ => cases accepted

/-! ### A thread that runs alone -/

/-- A thread that runs alone from a position comes to its end in a session. -/
inductive Finishes (environment : Environment) :
    Impl → Position → Session Impl String → Prop
  | closed (impl : Impl) (response : Option Response) :
      Finishes environment impl (.closed response)
        ⟨impl, (response.map Response.text).toList⟩
  | step {impl next : Impl} {position after : Position}
      {session : Session Impl String} :
      advance environment impl position = some (next, after) →
      Finishes environment next after session →
        Finishes environment impl position session

/-- A thread that runs alone comes to an end that is as asked for. -/
def Comes (environment : Environment) (impl : Impl) (position : Position)
    (holds : Session Impl String → Prop) : Prop :=
  ∃ session, Finishes environment impl position session ∧ holds session

section Alone

variable {environment : Environment}
variable {impl : Impl}
variable {event : Event}
variable {holds : Session Impl String → Prop}

@[simp] theorem comes_closed (response : Option Response) :
    Comes environment impl (.closed response) holds ↔
      holds ⟨impl, (response.map Response.text).toList⟩ := by
  constructor
  · rintro ⟨session, finishes, ended⟩
    cases finishes with
    | closed => exact ended
    | step advanced _ => simp [advance] at advanced
  · exact fun ended => ⟨_, .closed impl response, ended⟩

/-- A thread that is not closed goes on with its next access. -/
theorem comes_iff
    {position : Position}
    (notClosed : ∀ response, position ≠ .closed response) :
    Comes environment impl position holds ↔
      ∃ next after, advance environment impl position = some (next, after) ∧
        Comes environment next after holds := by
  constructor
  · rintro ⟨session, finishes, ended⟩
    cases finishes with
    | closed _ response => exact absurd rfl (notClosed response)
    | step advanced finishes => exact ⟨_, _, advanced, session, finishes, ended⟩
  · rintro ⟨next, after, advanced, session, finishes, ended⟩
    exact ⟨session, .step advanced finishes, ended⟩

@[simp] theorem comes_answering (response : Response) :
    Comes environment impl (.answering response) holds ↔
      holds ⟨impl, [response.text]⟩ := by
  rw [comes_iff (by nofun)]
  simp [advance]

theorem comes_afterDump (dumped : Except Connection.Exception String) :
    Comes environment impl (afterDump dumped) holds ↔
      (∃ body, dumped = .ok body ∧
        holds ⟨impl, [(Response.document body).text]⟩) ∨
        ∃ exception, dumped = .error exception ∧ holds ⟨impl, []⟩ := by
  cases dumped with
  | ok body => simp [afterDump]
  | error exception => simp [afterDump]

@[simp] theorem comes_releasing :
    Comes environment impl (.releasing event) holds ↔
      holds ⟨release impl event, [Response.accepted.text]⟩ := by
  rw [comes_iff (by nofun)]
  simp [advance]

@[simp] theorem comes_spawning :
    Comes environment impl (.spawning event) holds ↔
      holds ⟨release (spawn impl) event, [Response.accepted.text]⟩ := by
  rw [comes_iff (by nofun)]
  simp [advance]

theorem comes_placing_iff :
    Comes environment impl (.placing event) holds ↔
      ∃ tenant router,
        impl.router.getOrCreateTenant event.tenantId environment.createdNs =
          some (tenant, router) ∧
        (∃ strand others,
          Dispatch.cellPtrs router tenant.cellIndices =
            some (strand :: others)) ∧
        holds ⟨release (spawn { useRouter impl with router }) event,
          [Response.accepted.text]⟩ := by
  rw [comes_iff (by nofun)]
  simp only [advance, place, Option.bind_eq_bind, Option.bind_eq_some_iff,
    Option.pure_def, Option.some.injEq, Prod.exists, Prod.mk.injEq,
    List.head?_eq_some_iff]
  constructor
  · rintro ⟨_, _, ⟨tenant, router, found, _, cells, strand, ⟨others, rfl⟩, rfl,
      rfl⟩, ended⟩
    exact ⟨tenant, router, found, ⟨strand, others, cells⟩,
      comes_spawning.mp ended⟩
  · rintro ⟨tenant, router, found, ⟨strand, others, cells⟩, ended⟩
    exact ⟨_, _, ⟨tenant, router, found, _, cells, strand, ⟨others, rfl⟩, rfl,
      rfl⟩, comes_spawning.mpr ended⟩

/-- The service after a call of `submit` whose token and slot were granted or
refused. -/
def submitted (impl : Impl) (granted : Bool) (router : TenantRouter)
    (tenantId : String) (tenant : TenantState) : Impl :=
  { impl with
    harness := Harness.handleConnection impl.harness (.events granted)
    router := router.setTenant tenantId tenant }

theorem setTenant_setTenant
    (router : TenantRouter)
    (tenantId : String)
    (first second : TenantState) :
    (router.setTenant tenantId first).setTenant tenantId second =
      router.setTenant tenantId second := by
  simp [TenantRouter.setTenant]

/-- `submit` of a running pipeline comes to an end when the tenant is found and,
if the event is granted, has a strand. -/
theorem comes_consuming_iff
    (running : impl.harness.pipeline.state = .running) :
    Comes environment impl (.consuming event) holds ↔
      ∃ tenant router,
        impl.router.getOrCreateTenant event.tenantId environment.createdNs =
          some (tenant, router) ∧
        match tenant.tryAcquire event.tenantId environment.nowNs with
        | (.error error, tenant) =>
            holds ⟨submitted impl false router event.tenantId tenant,
              [(Response.refused (.rateLimit error)).text]⟩
        | (.ok _, tenant) =>
            (∃ strand others,
              Dispatch.cellPtrs router tenant.cellIndices =
                some (strand :: others)) ∧
            holds ⟨submitted impl true router event.tenantId tenant.release,
              [Response.accepted.text]⟩ := by
  have refused :
      Harness.handleConnection impl.harness (.events false) =
        { impl.harness with
          pipeline := impl.harness.pipeline.use .router } := by
    simp [Harness.handleConnection, LifecycleCalls.submit, running]
  have accepted :
      Harness.handleConnection impl.harness (.events true) =
        { impl.harness with
          pipeline :=
            ({ (impl.harness.pipeline.use .router).use .router with
                pending :=
                  ((impl.harness.pipeline.use .router).use .router).pending +
                    1 }).use .router } := by
    simp [Harness.handleConnection, LifecycleCalls.submit, running]
  rw [comes_iff (by nofun), advance, consume]
  cases found : impl.router.getOrCreateTenant event.tenantId
      environment.createdNs with
  | none => simp
  | some created =>
      obtain ⟨tenant, router⟩ := created
      simp only [Option.map_some, Option.some.injEq, Prod.mk.injEq,
        existsAndEq, true_and, TenantState.tryAcquire]
      cases consumed : tenant.bucket.tryConsume environment.nowNs with
      | mk granted bucket =>
          cases granted with
          | false =>
              simp [submitted, refused, useRouter]
          | true =>
              rw [if_pos rfl, comes_iff (by nofun), advance, enter]
              simp only [lookup_setTenant, setTenant_setTenant, Option.map_some,
                Option.some.injEq, Prod.mk.injEq, existsAndEq, true_and,
                Bool.not_true, Bool.false_eq_true, if_false]
              split
              next full =>
                rw [comes_iff (by nofun), advance, undo]
                simp [lookup_setTenant, setTenant_setTenant, submitted, refused,
                  useRouter, TenantState.release]
              next free =>
                rw [comes_placing_iff]
                simp [Connection.getOrCreateTenant_setTenant, release, spawn,
                  lookup_setTenant, setTenant_setTenant, submitted, accepted,
                  useRouter, Connection.cellPtrs_setTenant]

/-- The answer to an event that was submitted. -/
def Response.ofSubmit : Except Connection.Error Unit → Response
  | .ok _ => .accepted
  | .error error => .refused error

/-- `submit`, and the answer to the event. -/
theorem ends_submit_iff_comes
    (thrown : Connection.Exception → Session Impl String → Prop) :
    Ends (Connection.submit environment event) ⟨impl, []⟩
        (fun result after => holds
          ⟨after.state, after.written ++ [(Response.ofSubmit result).text]⟩)
        thrown ↔
      Comes environment impl (.submitting event) holds := by
  rw [comes_iff (by nofun)]
  simp only [advance, loadState, Option.some.injEq, Prod.mk.injEq, existsAndEq,
    true_and]
  unfold Connection.submit
  simp only [ends_bind, ends_getState]
  by_cases running : impl.harness.pipeline.state = .running
  · rw [if_pos running, comes_consuming_iff running]
    simp only [running, ne_eq, not_true_eq_false, if_false, ends_bind,
      ends_ofOption]
    rw [Prod.exists]
    refine exists_congr fun tenant => exists_congr fun router =>
      and_congr_right fun found => ?_
    cases acquire : tenant.tryAcquire event.tenantId environment.nowNs with
    | mk result tenant =>
        cases result with
        | error error =>
            simp only [ends_bind, ends_setState, ends_pure]
            rfl
        | ok _ =>
            simp only [ends_bind, ends_setState, ends_pure, ends_ofOption,
              Connection.getOrCreateTenant_setTenant, setTenant_setTenant,
              Connection.cellPtrs_setTenant, Option.some.injEq, existsAndEq,
              true_and, List.head?_eq_some_iff]
            constructor
            · rintro ⟨strand, others, cells, ended⟩
              exact ⟨⟨strand, others, cells⟩, ended⟩
            · rintro ⟨⟨strand, others, cells⟩, ended⟩
              exact ⟨strand, others, cells, ended⟩
  · simp [running, Response.ofSubmit]

/-- The gate of the fleet and `submit`. -/
theorem ends_answerEvent_iff_comes
    {thrown : Connection.Exception → Session Impl String → Prop} :
    Ends (Connection.answerEvent environment event) ⟨impl, []⟩
        (fun _ after => holds after) thrown ↔
      (impl.owns event.tenantId = some true ∧
        Comes environment impl (.submitting event) holds) ∨
      impl.owns event.tenantId = some false ∧
        ∃ hint, impl.redirectHint event.tenantId = some hint ∧
          holds ⟨impl, [(Response.notOwner hint).text]⟩ := by
  simp only [Connection.answerEvent, ends_bind, ends_getState, ends_ofOption]
  cases owned : impl.owns event.tenantId with
  | none => simp
  | some isOwner =>
      cases isOwner with
      | false =>
          simp [Response.text]
      | true =>
          simp only [Option.some.injEq, existsAndEq, true_and, Bool.not_true,
            Bool.true_eq_false, Bool.false_eq_true, if_false, false_and, or_false,
            ends_bind]
          rw [← ends_submit_iff_comes thrown]
          apply iff_of_eq
          apply congrArg fun returned => Ends _ _ returned thrown
          funext result after
          cases result <;> rfl

theorem drain_draining (pipeline : LifecycleCalls.Impl) :
    LifecycleCalls.drain { pipeline with state := .draining } =
      LifecycleCalls.drain pipeline := by
  unfold LifecycleCalls.drain LifecycleCalls.Impl.use
  split <;> rfl

/-- The requests to drain. -/
theorem ends_postDrain_iff_comes :
    Ends (Connection.postDrain environment) ⟨impl, []⟩
        (fun _ after => holds after) (fun _ after => holds after) ↔
      Comes environment impl .clearing holds := by
  rw [comes_iff (by nofun)]
  simp only [advance, Option.some.injEq, Prod.mk.injEq, existsAndEq, true_and]
  rw [comes_iff (by nofun)]
  simp only [advance, Option.some.injEq, Prod.mk.injEq, existsAndEq, true_and]
  rw [comes_iff (by nofun)]
  simp only [Connection.postDrain, ends_bind, ends_getState, ends_setState,
    ends_ofOption, ends_ofExcept, advance]
  cases environment.poolJoins with
  | false => simp
  | true =>
      simp only [if_true, Option.some.injEq, Prod.mk.injEq, existsAndEq,
        true_and, comes_afterDump, drain_draining, exists_const, ends_write]
      rfl

/-- What is thrown while a string is read ends the connection. -/
theorem ends_stringValue_iff
    {json : Json}
    {key default : String}
    {returned : String → Session Impl String → Prop} :
    Ends (ofExcept (Connection.stringValue json key default)) ⟨impl, []⟩
        returned
        (fun exception after =>
          Ends (Connection.catchParseError exception) after
            (fun _ after => holds after) (fun _ after => holds after)) ↔
      match Connection.stringValue json key default with
      | .ok text => returned text ⟨impl, []⟩
      | .error _ => holds ⟨impl, []⟩ := by
  rw [ends_ofExcept]
  cases read : Connection.stringValue json key default with
  | ok text => simp
  | error exception =>
      rw [Connection.stringValue_error read]
      simp [Connection.catchParseError]

/-- `POST /events`. -/
theorem ends_postEvents_iff_comes (body : String) :
    Ends (Connection.postEvents environment body) ⟨impl, []⟩
        (fun _ after => holds after) (fun _ after => holds after) ↔
      ∃ position, afterEvents environment impl body = some position ∧
        Comes environment impl position holds := by
  unfold Connection.postEvents afterEvents
  simp only [ends_tryCatch, ends_bind]
  rw [ends_ofExcept]
  cases parsed : environment.parse body with
  | error exception =>
      cases exception with
      | parseError what =>
          simp [Connection.catchParseError, Response.text]
      | other => simp [Connection.catchParseError]
  | ok json =>
      simp only [Except.ok.injEq, reduceCtorEq, false_and, exists_false,
        or_false, existsAndEq, true_and, ends_stringValue_iff]
      cases Connection.stringValue json "tenant_id" "" with
      | error _ => simp
      | ok tenantId =>
          cases Connection.stringValue json "entity_id" "" with
          | error _ => simp
          | ok entityId =>
              cases Connection.stringValue json "event_type" "event" with
              | error _ => simp
              | ok eventType =>
                  simp only [ends_answerEvent_iff_comes]
                  cases impl.owns tenantId with
                  | none => simp
                  | some isOwner => cases isOwner <;> simp

/-- The answer to a request. -/
theorem ends_dispatch_iff_comes (request : HttpRequest) :
    Ends (Connection.dispatch environment request) ⟨impl, []⟩
        (fun _ after => holds after) (fun _ after => holds after) ↔
      ∃ position, afterRequest environment impl request = some position ∧
        Comes environment impl position holds := by
  unfold Connection.dispatch afterRequest
  split
  · exact ends_postEvents_iff_comes request.body
  · split
    · simp only [Connection.getTopology, ends_bind, ends_getState, ends_write,
        Option.some.injEq, existsAndEq, true_and, comes_answering]
      rfl
    · split
      · simp only [Connection.getHealth, ends_bind, ends_getState,
          ends_ofExcept, ends_write, Option.some.injEq, existsAndEq, true_and,
          comes_afterDump]
        rfl
      · split
        · simp [ends_postDrain_iff_comes]
        · simp [Response.text]

/-- However a connection ends when nothing else runs, its thread comes to the
same end, and the other way round. -/
theorem ends_handleConnection_iff_comes (text : List Char) :
    Ends (Connection.handleConnection environment text) ⟨impl, []⟩
        (fun _ after => holds after) (fun _ _ => False) ↔
      Comes environment impl (.reading text) holds := by
  rw [comes_iff (by nofun)]
  simp only [advance, Option.map_eq_some_iff, Prod.mk.injEq, existsAndEq,
    and_true]
  unfold Connection.handleConnection afterText
  simp only [ends_tryCatch, ends_pure]
  cases Lines.readUntil Connection.headEnd text with
  | none => simp
  | some arrived =>
      obtain ⟨rawHeaders, rest⟩ := arrived
      unfold Connection.answerRequest
      rw [ends_bind, ends_ofExcept]
      cases parsed : HttpRequest.parseRequest rawHeaders with
      | error failure => simp [Except.mapError, parsed]
      | ok described =>
          cases described with
          | none => simp [Except.mapError, parsed, Response.text]
          | some request =>
              simp [Except.mapError, parsed, ends_dispatch_iff_comes]

end Alone

/-- The thread of a connection that runs alone does what `handle_connection`
does: the one returns exactly when the other comes to its end, with the same
state of the service and the same responses. -/
theorem handleConnection_returns_iff_finishes
    (environment : Environment)
    (impl : Impl)
    (text : List Char)
    (session : Session Impl String) :
    (Connection.handleConnection environment text).run.run ⟨impl, []⟩ =
        some (.ok (), session) ↔
      Finishes environment impl (.reading text) session := by
  have same : Ends (Connection.handleConnection environment text) ⟨impl, []⟩
        (fun _ after => after = session) (fun _ _ => False) ↔
      Comes environment impl (.reading text) fun ended => ended = session :=
    ends_handleConnection_iff_comes text
  unfold Ends Comes at same
  cases ran : (Connection.handleConnection environment text).run.run
      ⟨impl, []⟩ with
  | none => simpa [ran] using same
  | some ended =>
      obtain ⟨result, after⟩ := ended
      cases result with
      | ok value => simpa [ran] using same
      | error exception => simpa [ran] using same

end ConnectionThread
end Service
end Fre
