import Fre.Foundation.Machine
import Fre.Foundation.Threads
import Fre.Service.ConnectionThread

/-!
# The service program

The main thread of `fre-service` starts the harness, waits until it is no longer
running and destroys it; the thread of the listener starts a thread for each
connection; the pool runs what the connections have spawned.  Here all of them
are interleaved, one access to what they share after the other.
-/

namespace Fre
namespace Service
namespace Program

open Foundation Pipeline Sharding ConnectionThread
open Connection (Environment Impl)

/-- Where the main thread stands: before `start`, in `run`, before the thread of
the listener is joined, before the pool is stopped, and at its end. -/
inductive MainPosition
  | starting
  | serving
  | joining
  | draining
  | exited
  deriving DecidableEq, Repr

/-- Where the thread of the listener stands: not started, before `running` is
loaded, in `accept`, and at its end. -/
inductive ListenerPosition
  | absent
  | checking
  | accepting
  | ended
  deriving DecidableEq, Repr

/-- The program: what is shared, its threads, whether the pool was stopped, and
the number of events that have been run. -/
structure State where
  impl : Impl
  main : MainPosition := .starting
  listener : ListenerPosition := .absent
  connections : List Position := []
  poolStopped : Bool := false
  ran : Nat := 0

/-- A step of the main thread, of the listener, of a connection, or of the
pool. -/
inductive Action
  | start (outcome : Harness.ListenOutcome)
  | leave
  | join
  | exit
  | check
  | accept (text : List Char)
  | wake
  | advance (connection : Nat) (environment : Environment)
  | runEvent

/-- The router that `start` creates. -/
def startRouter (hash : String → UInt64) (fuel : Nat)
    (config : PipelineConfig) : TenantRouter :=
  .create hash fuel config.sharding config.rateLimit

/-- The program before its first step. -/
def initial (hash : String → UInt64) (fuel : Nat) (config : PipelineConfig)
    (fleetRouter : Option FleetConfig) : State where
  impl :=
    { harness := {}
      router := startRouter hash fuel config
      pipelineId := config.pipelineId
      fleetRouter }

namespace State

/-- The state with the harness replaced. -/
def withHarness (state : State) (harness : Harness.ServiceHarness) : State :=
  { state with impl := { state.impl with harness } }

end State

/-- The position of a connection stops the pool with its next access. -/
def stopsPool : Position → Bool
  | .stopping => true
  | _ => false

/-- One step. -/
def step (config : PipelineConfig) (state : State) (action : Action) :
    Option State :=
  let harness := state.impl.harness
  match action with
  | .start outcome =>
      if state.main = .starting then
        let (started, harness) := Harness.start config outcome harness
        some { state.withHarness harness with
          main := .serving
          listener := if started then .checking else .absent }
      else none
  | .leave =>
      if state.main = .serving ∧ harness.running = false then
        some { state.withHarness
            { harness with running := false, acceptorOpen := false } with
          main := .joining }
      else none
  | .join =>
      if state.main = .joining ∧
          (state.listener = .absent ∨ state.listener = .ended) then
        some { state.withHarness
            { harness with ioThread := false, pipeline.state := .draining } with
          main := .draining }
      else none
  | .exit =>
      if state.main = .draining then
        some { state.withHarness
            { harness with
              pipeline := LifecycleCalls.drain harness.pipeline
              destroyed := true } with
          main := .exited
          poolStopped := true }
      else none
  | .check =>
      if state.main ≠ .exited ∧ state.listener = .checking then
        some { state with
          listener := if harness.running then .accepting else .ended }
      else none
  | .accept text =>
      if state.listener = .accepting ∧ harness.acceptorOpen = true then
        some { state with
          listener := .checking
          connections := state.connections ++ [.reading text] }
      else none
  | .wake =>
      if state.listener = .accepting ∧ harness.acceptorOpen = false then
        some { state with listener := .ended }
      else none
  | .advance connection environment =>
      if state.main = .exited then none
      else
        (state.connections[connection]?).bind fun position =>
          (ConnectionThread.advance environment state.impl position).map
            fun (impl, after) =>
              { state with
                impl
                connections := state.connections.set connection after
                poolStopped := state.poolStopped || stopsPool position }
  | .runEvent =>
      if state.poolStopped = false ∧ harness.pipeline.pending ≠ 0 then
        some { state.withHarness
            { harness with
              pipeline := LifecycleCalls.runEvent harness.pipeline } with
          ran := state.ran + 1 }
      else none

/-- What a step has done. -/
inductive Stepped (config : PipelineConfig) (state : State) :
    Action → State → Prop
  | main {action : Action} {next : State} :
      next.connections = state.connections →
      next.impl.router = state.impl.router →
      next.impl.fleetRouter = state.impl.fleetRouter →
      next.ran = state.ran →
      (next.impl.harness.pipeline.pending = state.impl.harness.pipeline.pending ∧
          next.poolStopped = state.poolStopped) ∨
        (next.impl.harness.pipeline.pending = 0 ∧ next.poolStopped = true) →
        Stepped config state action next
  | accepted {text : List Char} {listener : ListenerPosition} :
        Stepped config state (.accept text)
          { state with
            listener
            connections := state.connections ++ [.reading text] }
  | advanced {connection : Nat} {environment : Environment} {impl : Impl}
      {position after : Position} :
      state.connections[connection]? = some position →
      ConnectionThread.advance environment state.impl position =
        some (impl, after) →
        Stepped config state (.advance connection environment)
          { state with
            impl
            connections := state.connections.set connection after
            poolStopped := state.poolStopped || stopsPool position }
  | ranEvent {next : State} :
      state.poolStopped = false →
      next.poolStopped = false →
      next.connections = state.connections →
      next.impl.router = state.impl.router →
      next.impl.fleetRouter = state.impl.fleetRouter →
      next.ran = state.ran + 1 →
      next.impl.harness.pipeline.pending + 1 =
        state.impl.harness.pipeline.pending →
        Stepped config state .runEvent next

theorem pending_runEvent (pipeline : LifecycleCalls.Impl) :
    (LifecycleCalls.runEvent pipeline).pending = pipeline.pending - 1 := by
  simp [LifecycleCalls.runEvent]

theorem pending_start
    (config : PipelineConfig)
    (outcome : Harness.ListenOutcome)
    (harness : Harness.ServiceHarness) :
    (Harness.start config outcome harness).2.pipeline.pending =
      harness.pipeline.pending := by
  rw [Harness.start_pipeline]
  unfold LifecycleCalls.start
  split <;> rfl

theorem stepped_of_step
    {config : PipelineConfig}
    {state next : State}
    {action : Action}
    (stepped : step config state action = some next) :
    Stepped config state action next := by
  cases action with
  | start outcome =>
      simp only [step, Option.ite_none_right_eq_some, Option.some.injEq]
        at stepped
      obtain ⟨-, rfl⟩ := stepped
      exact .main rfl rfl rfl rfl (.inl ⟨pending_start _ _ _, rfl⟩)
  | leave =>
      simp only [step, Option.ite_none_right_eq_some, Option.some.injEq]
        at stepped
      obtain ⟨-, rfl⟩ := stepped
      exact .main rfl rfl rfl rfl (.inl ⟨rfl, rfl⟩)
  | join =>
      simp only [step, Option.ite_none_right_eq_some, Option.some.injEq]
        at stepped
      obtain ⟨-, rfl⟩ := stepped
      exact .main rfl rfl rfl rfl (.inl ⟨rfl, rfl⟩)
  | exit =>
      simp only [step, Option.ite_none_right_eq_some, Option.some.injEq]
        at stepped
      obtain ⟨-, rfl⟩ := stepped
      exact .main rfl rfl rfl rfl (.inr ⟨rfl, rfl⟩)
  | check =>
      simp only [step, Option.ite_none_right_eq_some, Option.some.injEq]
        at stepped
      obtain ⟨-, rfl⟩ := stepped
      exact .main rfl rfl rfl rfl (.inl ⟨rfl, rfl⟩)
  | accept text =>
      simp only [step, Option.ite_none_right_eq_some, Option.some.injEq]
        at stepped
      obtain ⟨-, rfl⟩ := stepped
      exact .accepted
  | wake =>
      simp only [step, Option.ite_none_right_eq_some, Option.some.injEq]
        at stepped
      obtain ⟨-, rfl⟩ := stepped
      exact .main rfl rfl rfl rfl (.inl ⟨rfl, rfl⟩)
  | advance connection environment =>
      simp only [step, Option.ite_none_left_eq_some, Option.bind_eq_some_iff,
        Option.map_eq_some_iff] at stepped
      obtain ⟨-, position, present, ⟨impl, after⟩, advanced, rfl⟩ := stepped
      exact .advanced present advanced
  | runEvent =>
      simp only [step, Option.ite_none_right_eq_some, Option.some.injEq]
        at stepped
      obtain ⟨⟨notStopped, pending⟩, rfl⟩ := stepped
      refine .ranEvent notStopped notStopped rfl rfl rfl rfl ?_
      change (LifecycleCalls.runEvent _).pending + 1 = _
      rw [pending_runEvent]
      omega

/-! ### Slots -/

/-- Number of connections that `in_flight` of a tenant counts. -/
def counted (state : State) (tenantId : String) : Nat :=
  state.connections.countP (Position.counted tenantId)

/-- Number of connections with a slot of a tenant. -/
def granted (state : State) (tenantId : String) : Nat :=
  state.connections.countP (Position.granted tenantId)

/-- Number of connections whose event was spawned. -/
def accepted (state : State) : Nat :=
  state.connections.countP Position.accepted

/-- Every counter is the number of connections that it counts, and no tenant has
more slots than the cap. -/
structure SlotsExact (config : PipelineConfig) (state : State) : Prop where
  configured : state.impl.router.rateCfg = config.rateLimit
  capped : Capped state.impl.router
  exact : ∀ tenantId,
    slots state.impl.router tenantId = counted state tenantId
  belowCap : ∀ tenantId, (granted state tenantId : Int) ≤
    max 0 config.rateLimit.maxConcurrent.toInt

/-- A slot is counted. -/
theorem granted_le_counted (state : State) (tenantId : String) :
    granted state tenantId ≤ counted state tenantId := by
  refine List.countP_mono_left fun position _ isGranted => ?_
  cases position <;> first | exact isGranted | cases isGranted

theorem SlotsExact.of_eq
    {config : PipelineConfig}
    {state next : State}
    (exactly : SlotsExact config state)
    (sameConnections : next.connections = state.connections)
    (sameRouter : next.impl.router = state.impl.router) :
    SlotsExact config next where
  configured := sameRouter ▸ exactly.configured
  capped := sameRouter ▸ exactly.capped
  exact := by
    intro tenantId
    rw [counted, sameConnections, sameRouter]
    exact exactly.exact tenantId
  belowCap := by
    intro tenantId
    rw [granted, sameConnections]
    exact exactly.belowCap tenantId

/-- The access of one connection. -/
theorem SlotsExact.advance
    {config : PipelineConfig}
    {state : State}
    {connection : Nat}
    {environment : Environment}
    {impl : Impl}
    {position after : Position}
    {poolStopped : Bool}
    (exactly : SlotsExact config state)
    (few : state.connections.length < 2 ^ 31)
    (present : state.connections[connection]? = some position)
    (advanced : ConnectionThread.advance environment state.impl position =
      some (impl, after)) :
    SlotsExact config
      { state with
        impl
        connections := state.connections.set connection after
        poolStopped } := by
  have access : ∀ tenantId,
      SlotAccess tenantId state.impl position impl after := by
    intro tenantId
    have moved := Threads.countP_set_add (Position.counted tenantId) present after
    have atMost : (state.connections.set connection after).countP
        (Position.counted tenantId) ≤ state.connections.length := by
      simpa using List.countP_le_length
        (l := state.connections.set connection after)
        (p := Position.counted tenantId)
    have isExact := exactly.exact tenantId
    unfold counted at isExact
    have member : position ∈ state.connections := List.mem_of_getElem? present
    have low : (position.counted tenantId).toNat ≤
        state.connections.countP (Position.counted tenantId) := by
      cases own : position.counted tenantId with
      | false => exact Nat.zero_le _
      | true => exact List.countP_pos_iff.mpr ⟨position, member, own⟩
    exact slotAccess_of_advance exactly.capped (by omega) (by omega) advanced
  have sameRate : impl.router.rateCfg = state.impl.router.rateCfg := by
    rw [(access_of_advance advanced).config]
  constructor
  · exact sameRate.trans exactly.configured
  · exact (access "").capped
  · intro tenantId
    have moved := Threads.countP_set_add (Position.counted tenantId) present after
    have moves := (access tenantId).moves
    have isExact := exactly.exact tenantId
    unfold counted at isExact ⊢
    dsimp only
    omega
  · intro tenantId
    have moved := Threads.countP_set_add (Position.granted tenantId) present after
    have below := exactly.belowCap tenantId
    have isExact := exactly.exact tenantId
    have atMost := granted_le_counted state tenantId
    unfold granted at below atMost ⊢
    dsimp only
    cases own : after.granted tenantId with
    | false =>
        rw [own, Bool.toNat_false] at moved
        omega
    | true =>
        rw [own, Bool.toNat_true] at moved
        rcases (access tenantId).belowCap own with before | free
        · rw [before, Bool.toNat_true] at moved
          omega
        · rw [exactly.configured] at free
          omega

/-- Every step with few connections keeps the slots exact. -/
theorem slotsExact_of_step
    {config : PipelineConfig}
    {state next : State}
    {action : Action}
    (exactly : SlotsExact config state)
    (few : next.connections.length < 2 ^ 31)
    (stepped : step config state action = some next) :
    SlotsExact config next := by
  cases stepped_of_step stepped with
  | main sameConnections sameRouter _ _ _ =>
      exact exactly.of_eq sameConnections sameRouter
  | accepted =>
      refine ⟨exactly.configured, exactly.capped, ?_, ?_⟩
      · intro tenantId
        simpa [counted, Position.counted] using exactly.exact tenantId
      · intro tenantId
        simpa [granted, Position.granted] using exactly.belowCap tenantId
  | advanced present advanced =>
      rw [List.length_set] at few
      exact exactly.advance few present advanced
  | ranEvent _ _ sameConnections sameRouter _ _ _ =>
      exact exactly.of_eq sameConnections sameRouter

/-! ### Accepted events -/

/-- As many events as were accepted have been run or are pending, until the pool
is stopped, and never more. -/
structure EventsKept (state : State) : Prop where
  atMost : state.ran + state.impl.harness.pipeline.pending ≤ accepted state
  exact : state.poolStopped = false →
    state.ran + state.impl.harness.pipeline.pending = accepted state

theorem eventsKept_of_step
    {config : PipelineConfig}
    {state next : State}
    {action : Action}
    (kept : EventsKept state)
    (stepped : step config state action = some next) :
    EventsKept next := by
  have atMost := kept.atMost
  have isExact := kept.exact
  unfold accepted at atMost isExact
  cases stepped_of_step stepped with
  | main sameConnections _ _ sameRan effect =>
      rcases effect with ⟨samePending, sameStopped⟩ | ⟨nonePending, stopped⟩
      · constructor
        · rw [accepted, sameConnections, sameRan, samePending]
          exact atMost
        · rw [accepted, sameConnections, sameRan, samePending, sameStopped]
          exact isExact
      · constructor
        · rw [accepted, sameConnections, sameRan, nonePending]
          omega
        · intro notStopped
          rw [stopped] at notStopped
          cases notStopped
  | accepted =>
      constructor
      · simpa [accepted, Position.accepted] using atMost
      · simpa [accepted, Position.accepted] using isExact
  | @advanced connection environment impl position after present advanced =>
      have moved := Threads.countP_set_add Position.accepted present after
      by_cases stopping : position = .stopping
      · subst stopping
        simp only [ConnectionThread.advance, Option.ite_none_right_eq_some,
          Option.some.injEq, Prod.mk.injEq] at advanced
        obtain ⟨-, rfl, rfl⟩ := advanced
        have before : Position.stopping.accepted = false := rfl
        rw [(opened_afterDump state.impl _).not_accepted, before] at moved
        constructor
        · dsimp only [accepted, LifecycleCalls.drain]
          omega
        · simp [stopsPool]
      · have same := pending_of_advance stopping advanced
        constructor
        · dsimp only [accepted]
          omega
        · intro notStopped
          have notStopped := (Bool.or_eq_false_iff.mp notStopped).1
          have isExact := isExact notStopped
          dsimp only [accepted]
          omega
  | ranEvent notStopped _ sameConnections _ _ oneMore oneLess =>
      constructor
      · rw [accepted, sameConnections, oneMore]
        omega
      · intro _
        rw [accepted, sameConnections, oneMore, ← isExact notStopped]
        omega

/-- An access of the connection makes one more event pending. -/
def spawns (connection : Nat) (state : State) : Action → State → Bool
  | .advance other _, next =>
      other = connection ∧
        next.impl.harness.pipeline.pending =
          state.impl.harness.pipeline.pending + 1
  | _, _ => false

/-- How often the connection gives an event to the pool in a run. -/
def spawned (config : PipelineConfig) (connection : Nat) :
    State → List Action → Nat :=
  Machine.countSteps (step config) (spawns connection)

/-- One, if the event of the connection was accepted. -/
def acceptedAt (connection : Nat) (state : State) : Nat :=
  (state.connections[connection]?.any Position.accepted).toNat

theorem acceptedAt_of_getElem?
    {connection : Nat}
    {state : State}
    {position : Position}
    (present : state.connections[connection]? = some position) :
    acceptedAt connection state = position.accepted.toNat := by
  rw [acceptedAt, present]
  rfl

/-- The pending events go up with the access of one connection only. -/
theorem spawns_eq_false
    {connection : Nat}
    {state next : State}
    {action : Action}
    (notMore : next.impl.harness.pipeline.pending ≠
      state.impl.harness.pipeline.pending + 1) :
    spawns connection state action next = false := by
  cases action with
  | advance other environment => exact decide_eq_false fun both => notMore both.2
  | _ => rfl

/-- An event is accepted with the access that spawns it. -/
theorem acceptedAt_of_step
    {config : PipelineConfig}
    (connection : Nat)
    {state next : State}
    {action : Action}
    (stepped : step config state action = some next) :
    acceptedAt connection next =
      acceptedAt connection state + (spawns connection state action next).toNat := by
  cases stepped_of_step stepped with
  | main sameConnections _ _ _ effect =>
      rw [spawns_eq_false (by omega), acceptedAt, acceptedAt, sameConnections]
      rfl
  | accepted =>
      refine congrArg Bool.toNat ?_
      rw [List.getElem?_append, List.getElem?_singleton]
      split
      next => rfl
      next outside =>
        rw [List.getElem?_eq_none (Nat.le_of_not_lt outside)]
        split <;> rfl
  | @advanced other environment impl position after present advanced =>
      by_cases own : other = connection
      · subst own
        obtain ⟨inRange, -⟩ := List.getElem?_eq_some_iff.mp present
        rw [acceptedAt_of_getElem? (List.getElem?_set_self inRange),
          acceptedAt_of_getElem? present]
        by_cases stopping : position = .stopping
        · subst stopping
          simp only [ConnectionThread.advance, Option.ite_none_right_eq_some,
            Option.some.injEq, Prod.mk.injEq] at advanced
          obtain ⟨-, rfl, rfl⟩ := advanced
          rw [(opened_afterDump state.impl _).not_accepted, spawns_eq_false]
          · rfl
          · exact Nat.succ_ne_zero _ ∘ Eq.symm
        · have same := pending_of_advance stopping advanced
          have stays := fun accepted => accepted_of_advance accepted advanced
          simp only [spawns, true_and]
          cases before : position.accepted with
          | true =>
              rw [before, stays before] at same
              rw [stays before, decide_eq_false (by omega)]
              rfl
          | false =>
              rw [before, Bool.toNat_false, Nat.add_zero] at same
              rw [same]
              cases after.accepted with
              | true => simp
              | false => simp
      · have otherwise : spawns connection state (.advance other environment)
            { state with
              impl
              connections := state.connections.set other after
              poolStopped := state.poolStopped || stopsPool position } = false :=
          decide_eq_false fun both => own both.1
        rw [otherwise, acceptedAt, acceptedAt, List.getElem?_set_ne own]
        rfl
  | ranEvent _ _ sameConnections =>
      rw [acceptedAt, acceptedAt, sameConnections]
      rfl

/-! ### Runs -/

theorem length_le_of_step
    {config : PipelineConfig}
    {state next : State}
    {action : Action}
    (stepped : step config state action = some next) :
    state.connections.length ≤ next.connections.length := by
  cases stepped_of_step stepped with
  | main sameConnections => rw [sameConnections]
  | accepted => simp
  | advanced => simp
  | ranEvent _ _ sameConnections => rw [sameConnections]

section Runs

variable {config : PipelineConfig}
variable {hash : String → UInt64}
variable {fuel : Nat}
variable {fleetRouter : Option FleetConfig}
variable {actions : List Action}
variable {final : State}

theorem slotsExact_initial :
    SlotsExact config (initial hash fuel config fleetRouter) where
  configured := rfl
  capped := nofun
  exact := fun _ => rfl
  belowCap := fun _ => le_max_left _ _

theorem slotsExact_of_run
    (ran : Machine.run (step config) (initial hash fuel config fleetRouter)
      actions = some final)
    (few : final.connections.length < 2 ^ 31) :
    SlotsExact config final := by
  have preserved : ∀ (state : State) (action : Action) (next : State),
      (state.connections.length < 2 ^ 31 → SlotsExact config state) →
      step config state action = some next →
      next.connections.length < 2 ^ 31 → SlotsExact config next := by
    intro state action next exactly stepped few
    have shorter := length_le_of_step stepped
    exact slotsExact_of_step (exactly (by omega)) few stepped
  exact Machine.invariant_of_run preserved (fun _ => slotsExact_initial) ran few

/-- The connection has given an event to the pool once if its event was accepted,
and never otherwise. -/
theorem spawned_eq_acceptedAt
    (ran : Machine.run (step config) (initial hash fuel config fleetRouter)
      actions = some final)
    (connection : Nat) :
    spawned config connection (initial hash fuel config fleetRouter) actions =
      acceptedAt connection final := by
  have counted := Machine.eq_add_countSteps
    (fun _ _ _ => acceptedAt_of_step connection) ran
  have start : acceptedAt connection (initial hash fuel config fleetRouter) = 0 :=
    rfl
  rw [counted, start, Nat.zero_add]
  rfl

theorem eventsKept_of_run
    (ran : Machine.run (step config) (initial hash fuel config fleetRouter)
      actions = some final) :
    EventsKept final :=
  Machine.invariant_of_run (fun _ _ _ => eventsKept_of_step)
    ⟨le_rfl, fun _ => rfl⟩ ran

/-- However the main thread, the listener, the connections and the pool are
interleaved, no tenant has more slots than the cap; its counter is the number of
connections that have raised it and not yet lowered it, so that every slot comes
back; and the number of events run and the number of those pending add up to the
number of those accepted, until the pool is stopped, and never to more. -/
theorem slots_and_events_kept
    (ran : Machine.run (step config) (initial hash fuel config fleetRouter)
      actions = some final)
    (few : final.connections.length < 2 ^ 31) :
    (∀ tenantId,
      slots final.impl.router tenantId = counted final tenantId ∧
        (granted final tenantId : Int) ≤
          max 0 config.rateLimit.maxConcurrent.toInt) ∧
      final.ran + final.impl.harness.pipeline.pending ≤ accepted final ∧
      (final.poolStopped = false →
        final.ran + final.impl.harness.pipeline.pending = accepted final) := by
  have exactly := slotsExact_of_run ran few
  have kept := eventsKept_of_run ran
  exact ⟨fun tenantId => ⟨exactly.exact tenantId, exactly.belowCap tenantId⟩,
    kept.atMost, kept.exact⟩

end Runs

/-- A pipeline with one slot for each tenant. -/
def oneSlot : PipelineConfig where
  rateLimit := { maxConcurrent := 1 }

/-- The text of a client that posts an event. -/
def eventText : List Char :=
  Connection.eventHead ++ Connection.eventBody.toList

/-- Two connections of one tenant; the second one raises the counter while the
first has the slot. -/
def twoAtOnce : List Action :=
  [.start {}, .check, .accept eventText, .check, .accept eventText] ++
    [0, 0, 0, 0, 1, 1, 1, 1, 0, 0].map fun connection =>
      .advance connection Connection.eventEnvironment

/-- The run of these steps. -/
def twoAtOnceRun := Machine.run (step oneSlot)
  (initial (fun _ => 0) 8 oneSlot none) twoAtOnce

theorem twoAtOnce_connects :
    twoAtOnceRun.any (fun final =>
      final.connections.length = 2 ∧ final.poolStopped = false ∧
        counted final "t1" = 2 ∧ accepted final = 1) = true := by
  decide +kernel

/-- The counter is two, the slot is one, and one event is accepted. -/
theorem slots_and_events_kept_twoAtOnce :
    ∃ final, twoAtOnceRun = some final ∧
      slots final.impl.router "t1" = 2 ∧ granted final "t1" ≤ 1 ∧
      final.ran + final.impl.harness.pipeline.pending = 1 := by
  obtain ⟨final, ran, reached⟩ :=
    (Option.any_eq_true _ _).mp twoAtOnce_connects
  obtain ⟨two, notStopped, counted, accepted⟩ := of_decide_eq_true reached
  obtain ⟨exactly, -, kept⟩ := slots_and_events_kept ran (by omega)
  obtain ⟨isCounted, belowCap⟩ := exactly "t1"
  refine ⟨final, ran, ?_, ?_, ?_⟩
  · rw [isCounted, counted]
    rfl
  · exact Int.ofNat_le.mp belowCap
  · rw [kept notStopped, accepted]

end Program
end Service
end Fre
