import Fre.Foundation.Machine
import Fre.Foundation.Strands
import Fre.Foundation.Threads
import Fre.Sharding.TenantRouter

/-!
# The order of the events of a tenant

Any number of `submit` and `submit_sync` calls on a running pipeline and the
strands that run their coroutines.  A call spawns on the first cell of its
tenant, so all events of a tenant share a strand.  The number of an event is
drawn when its coroutine runs, from a counter that all strands share.
-/

namespace Fre
namespace Pipeline
namespace TenantOrder

open Foundation Sharding

/-- Where a submission stands, from the rate limiter on. -/
inductive CallPc
  | tryAcquire
  | cellsFor
  | coSpawn (cell : UInt32)
  | spawned
  | rejected
  deriving DecidableEq

/-- A submission. -/
structure Call where
  tenant : String
  sync : Bool
  pc : CallPc := .tryAcquire
  deriving DecidableEq

/-- A coroutine as it is posted: the call that spawned it, and its cell. -/
structure Posting where
  call : Nat
  tenant : String
  sync : Bool
  cell : UInt32
  deriving DecidableEq

/-- The coroutine of a call on a cell. -/
def Call.posting (call : Call) (index : Nat) (cell : UInt32) : Posting where
  call := index
  tenant := call.tenant
  sync := call.sync
  cell := cell

/-- The router, the strands of its cells, `next_event_id_`, and the numbers
drawn so far. -/
structure System where
  router : TenantRouter
  strands : Strands UInt32 Posting := {}
  nextEventId : UInt64 := 1
  drawn : List (Posting × UInt64) := []
  calls : List Call := []

/-- A step of one call, with the clock reading that a new tenant would get. -/
inductive CallAction
  | tryAcquire (createdNs : UInt64) (granted : Bool)
  | cellsFor (createdNs : UInt64)
  | coSpawn

/-- What can happen next. -/
inductive Action
  | submit (tenant : String) (sync : Bool)
  | call (index : Nat) (action : CallAction)
  | meter (tenant : String) (bucket : TokenBucket) (inFlight : Int32)
  | run (cell : UInt32)
  | emit (cell : UInt32)
  | finish (cell : UInt32)

/-- A pipeline that has just been started. -/
def initial
    (hash : String → UInt64)
    (fuel : Nat)
    (shardCfg : ShardingConfig)
    (rateCfg : RateLimitConfig) : System where
  router := .create hash fuel shardCfg rateCfg

namespace System

/-- Replace a call. -/
def put (system : System) (index : Nat) (call : Call) : System :=
  { system with calls := system.calls.set index call }

end System

/-- One step of a call.  Both `try_acquire` and `cells_for` find or create the
tenant under the mutex of the table; a tenant without a cell cannot be spawned
for. -/
def callStep (system : System) (index : Nat) (call : Call) :
    CallAction → Option System
  | .tryAcquire createdNs granted =>
      if call.pc = .tryAcquire then
        (system.router.getOrCreateTenant call.tenant createdNs).map fun found =>
          { system.put index { call with
              pc := if granted then .cellsFor else .rejected } with
            router := found.2 }
      else none
  | .cellsFor createdNs =>
      if call.pc = .cellsFor then
        (system.router.getOrCreateTenant call.tenant createdNs).bind
          fun found =>
            found.1.cellIndices.head?.map fun cell =>
              { system.put index { call with pc := .coSpawn cell } with
                router := found.2 }
      else none
  | .coSpawn =>
      match call.pc with
      | .coSpawn cell =>
          some { system.put index { call with pc := .spawned } with
            strands := system.strands.post cell (call.posting index cell) }
      | _ => none

/-- One step of some party.  The token bucket and the slot counter of a tenant
change at any time, and whether a call is granted is an input.  Only a
synchronous event may end without an emission. -/
def step (system : System) : Action → Option System
  | .submit tenant sync =>
      some { system with calls := system.calls ++ [{ tenant, sync }] }
  | .call index action =>
      match system.calls[index]? with
      | none => none
      | some call => callStep system index call action
  | .meter tenant bucket inFlight =>
      (system.router.tenants.lookup tenant).map fun state =>
        { system with
          router := system.router.setTenant tenant
            { state with bucket, inFlight } }
  | .run cell =>
      (system.strands.take cell).map fun taken =>
        { system with
          strands := taken.2
          nextEventId := system.nextEventId + 1
          drawn := system.drawn ++ [(taken.1, system.nextEventId)] }
  | .emit cell =>
      (system.strands.mark cell).map fun strands => { system with strands }
  | .finish cell =>
      match system.strands.running cell with
      | some (posting, emitted) =>
          if emitted || posting.sync then
            some { system with strands := system.strands.finish cell }
          else none
      | none => none

/-! ### What the order should be -/

/-- What a log says about one tenant. -/
def ofTenant (tenant : String) (log : List Posting) : List Posting :=
  log.filter fun posting => posting.tenant = tenant

/-- The numbers that the events of one tenant have drawn, in order. -/
def numbersOf (tenant : String) (drawn : List (Posting × UInt64)) :
    List UInt64 :=
  (drawn.filter fun number => number.1.tenant = tenant).map Prod.snd

/-- The events of a tenant are processed in the order of their `co_spawn` calls
and emitted in that order, each at most once; their numbers increase, and no
number is drawn twice. -/
structure InOrder (system : System) : Prop where
  processed : ∀ tenant, ofTenant tenant system.strands.begun <+:
    ofTenant tenant system.strands.posted
  emitted : ∀ tenant, (ofTenant tenant system.strands.marked).Sublist
    (ofTenant tenant system.strands.begun)
  once : (system.strands.posted.map Posting.call).Nodup
  numbered : system.drawn.map Prod.fst = system.strands.begun
  increasing : ∀ tenant, (numbersOf tenant system.drawn).Pairwise (· < ·)
  unique : (system.drawn.map Prod.snd).Nodup

/-! ### The first cell of a tenant -/

/-- The first cell of a tenant that is in the table. -/
def cellOf (router : TenantRouter) (tenant : String) : Option UInt32 :=
  (router.tenants.lookup tenant).bind fun state => state.cellIndices.head?

/-- Tenants that have a cell keep it. -/
def KeepsCells (router next : TenantRouter) : Prop :=
  ∀ tenant cell, cellOf router tenant = some cell →
    cellOf next tenant = some cell

theorem KeepsCells.refl (router : TenantRouter) : KeepsCells router router :=
  fun _ _ => id

theorem cellOf_setTenant_self
    (router : TenantRouter)
    (tenant : String)
    (state : TenantState) :
    cellOf (router.setTenant tenant state) tenant =
      state.cellIndices.head? := by
  unfold cellOf TenantRouter.setTenant
  rw [AList.lookup_insert, Option.bind_some]

theorem cellOf_setTenant_of_ne
    {tenant other : String}
    (different : other ≠ tenant)
    (router : TenantRouter)
    (state : TenantState) :
    cellOf (router.setTenant tenant state) other = cellOf router other := by
  unfold cellOf TenantRouter.setTenant
  rw [AList.lookup_insert_ne different]

/-- Finding or creating a tenant gives its first cell and moves nobody. -/
theorem getOrCreateTenant_keepsCells
    {router : TenantRouter}
    {tenant : String}
    {createdNs : UInt64}
    {found : TenantState × TenantRouter}
    (created : router.getOrCreateTenant tenant createdNs = some found) :
    cellOf found.2 tenant = found.1.cellIndices.head? ∧
      KeepsCells router found.2 := by
  unfold TenantRouter.getOrCreateTenant at created
  split at created
  next state present =>
    cases created
    refine ⟨?_, .refl router⟩
    rw [cellOf, present, Option.bind_some]
  next absent =>
    obtain ⟨state, -, rfl⟩ := Option.map_eq_some_iff.mp created
    refine ⟨cellOf_setTenant_self router tenant state, ?_⟩
    intro other cell has
    have different : other ≠ tenant := by
      rintro rfl
      simp [cellOf, absent] at has
    rw [cellOf_setTenant_of_ne different]
    exact has

/-- The meters of a tenant do not move it. -/
theorem setTenant_keepsCells
    {router : TenantRouter}
    {tenant : String}
    {state : TenantState}
    (present : router.tenants.lookup tenant = some state)
    (bucket : TokenBucket)
    (inFlight : Int32) :
    KeepsCells router
      (router.setTenant tenant { state with bucket, inFlight }) := by
  intro other cell has
  by_cases same : other = tenant
  · subst same
    rw [cellOf, present, Option.bind_some] at has
    rw [cellOf_setTenant_self]
    exact has
  · rw [cellOf_setTenant_of_ne same]
    exact has

/-! ### The invariant -/

/-- The numbers drawn by the first `count` events. -/
def firstNumbers (count : Nat) : List UInt64 :=
  (List.range count).map fun index => UInt64.ofNat (index + 1)

theorem firstNumbers_succ (count : Nat) :
    firstNumbers (count + 1) =
      firstNumbers count ++ [UInt64.ofNat (count + 1)] := by
  simp [firstNumbers, List.range_succ]

/-- As long as the counter does not wrap, the numbers increase. -/
theorem firstNumbers_increasing
    {count : Nat}
    (below : count < 2 ^ 64) :
    (firstNumbers count).Pairwise (· < ·) := by
  unfold firstNumbers
  rw [List.pairwise_map]
  refine List.Pairwise.imp_of_mem ?_ List.pairwise_lt_range
  intro earlier later _ member less
  have bound := List.mem_range.mp member
  have size : UInt64.size = 2 ^ 64 := rfl
  rw [UInt64.lt_iff_toNat_lt, UInt64.toNat_ofNat_of_lt' (by omega),
    UInt64.toNat_ofNat_of_lt' (by omega)]
  omega

/-- What every step keeps. -/
structure Kept (system : System) : Prop where
  ordered : system.strands.Ordered Posting.cell
  assigned : ∀ posting ∈ system.strands.posted,
    cellOf system.router posting.tenant = some posting.cell
  chosen : ∀ call ∈ system.calls, ∀ cell, call.pc = .coSpawn cell →
    cellOf system.router call.tenant = some cell
  spawned : ∀ posting ∈ system.strands.posted,
    ∃ call, system.calls[posting.call]? = some call ∧ call.pc = .spawned
  once : (system.strands.posted.map Posting.call).Nodup
  numbered : system.drawn.map Prod.fst = system.strands.begun
  numbers : system.drawn.map Prod.snd = firstNumbers system.drawn.length
  next : system.nextEventId = UInt64.ofNat (system.drawn.length + 1)

theorem kept_initial
    (hash : String → UInt64)
    (fuel : Nat)
    (shardCfg : ShardingConfig)
    (rateCfg : RateLimitConfig) :
    Kept (initial hash fuel shardCfg rateCfg) := by
  refine ⟨Strands.ordered_empty _, ?_, ?_, ?_, ?_, rfl, rfl, rfl⟩ <;>
    simp [initial]

/-- The events of a tenant share the strand of its first cell. -/
theorem Kept.shared
    {system : System}
    (kept : Kept system)
    (tenant : String) :
    ∀ posting ∈ system.strands.posted, decide (posting.tenant = tenant) = true →
      posting.cell = (cellOf system.router tenant).getD 0 := by
  intro posting member own
  have same : posting.tenant = tenant := of_decide_eq_true own
  rw [← same, kept.assigned posting member, Option.getD_some]

theorem Kept.inOrder
    {system : System}
    (kept : Kept system)
    (below : system.drawn.length < 2 ^ 64) :
    InOrder system := by
  have increasing : (system.drawn.map Prod.snd).Pairwise (· < ·) := by
    rw [kept.numbers]
    exact firstNumbers_increasing below
  refine ⟨?_, ?_, kept.once, kept.numbered, ?_, ?_⟩
  · intro tenant
    exact kept.ordered.begun_inOrder (kept.shared tenant)
  · intro tenant
    exact kept.ordered.marked_inOrder (kept.shared tenant)
  · intro tenant
    exact increasing.sublist (List.filter_sublist.map Prod.snd)
  · exact increasing.imp fun less => UInt64.ne_of_lt less

/-- A step that moves a call before its spawn and keeps the cells of all
tenants. -/
theorem Kept.moveCall
    {system : System}
    {index : Nat}
    {call : Call}
    {router : TenantRouter}
    (kept : Kept system)
    (present : system.calls[index]? = some call)
    (notSpawned : call.pc ≠ .spawned)
    (keepsCells : KeepsCells system.router router)
    (pc : CallPc)
    (chosen : ∀ cell, pc = .coSpawn cell →
      cellOf router call.tenant = some cell) :
    Kept { system.put index { call with pc } with router } := by
  refine ⟨kept.ordered, ?_, ?_, ?_, kept.once, kept.numbered, kept.numbers,
    kept.next⟩
  · intro posting member
    exact keepsCells _ _ (kept.assigned posting member)
  · refine Threads.forall_mem_set ?_ chosen
    intro other member cell atSpawn
    exact keepsCells _ _ (kept.chosen other member cell atSpawn)
  · intro posting member
    obtain ⟨other, found, isSpawned⟩ := kept.spawned posting member
    have different : index ≠ posting.call := by
      rintro rfl
      rw [present, Option.some_inj] at found
      exact notSpawned (found ▸ isSpawned)
    refine ⟨other, ?_, isSpawned⟩
    dsimp only [System.put]
    rw [List.getElem?_set_ne different]
    exact found

/-- A step that posts the coroutine of a call. -/
theorem Kept.spawn
    {system : System}
    {index : Nat}
    {call : Call}
    {cell : UInt32}
    (kept : Kept system)
    (present : system.calls[index]? = some call)
    (atSpawn : call.pc = .coSpawn cell) :
    Kept { system.put index { call with pc := .spawned } with
      strands := system.strands.post cell (call.posting index cell) } := by
  have member : call ∈ system.calls := List.mem_of_getElem? present
  have cellChosen := kept.chosen call member cell atSpawn
  have fresh : ∀ posting ∈ system.strands.posted, posting.call ≠ index := by
    rintro posting posted rfl
    obtain ⟨other, found, isSpawned⟩ := kept.spawned posting posted
    rw [present, Option.some_inj] at found
    rw [← found, atSpawn] at isSpawned
    cases isSpawned
  have moved : (system.calls.set index { call with pc := .spawned })[index]? =
      some { call with pc := .spawned } := by
    obtain ⟨inRange, -⟩ := List.getElem?_eq_some_iff.mp present
    exact List.getElem?_set_self inRange
  refine ⟨?_, ?_, ?_, ?_, ?_, kept.numbered, kept.numbers, kept.next⟩
  · exact kept.ordered.post (call.posting index cell)
  · exact Threads.forall_mem_concat kept.assigned cellChosen
  · exact Threads.forall_mem_set kept.chosen (by simp)
  · refine Threads.forall_mem_concat ?_ ⟨_, moved, rfl⟩
    intro posting posted
    obtain ⟨other, found, isSpawned⟩ := kept.spawned posting posted
    refine ⟨other, ?_, isSpawned⟩
    dsimp only [System.put]
    rw [List.getElem?_set_ne (Ne.symm (fresh posting posted))]
    exact found
  · dsimp only [Strands.post]
    rw [List.map_append, List.map_singleton, List.nodup_append]
    refine ⟨kept.once, List.nodup_singleton _, ?_⟩
    intro number listed other own
    obtain ⟨posting, posted, rfl⟩ := List.mem_map.mp listed
    rw [List.mem_singleton.mp own]
    exact fresh posting posted

theorem Kept.callStep
    {system next : System}
    {index : Nat}
    {call : Call}
    {action : CallAction}
    (kept : Kept system)
    (present : system.calls[index]? = some call)
    (stepped : callStep system index call action = some next) :
    Kept next := by
  cases action with
  | tryAcquire createdNs granted =>
      simp only [TenantOrder.callStep] at stepped
      split at stepped
      next position =>
        obtain ⟨found, created, rfl⟩ := Option.map_eq_some_iff.mp stepped
        obtain ⟨-, keepsCells⟩ := getOrCreateTenant_keepsCells created
        refine kept.moveCall present (by simp [position]) keepsCells _ ?_
        intro cell
        split <;> simp
      next => cases stepped
  | cellsFor createdNs =>
      simp only [TenantOrder.callStep] at stepped
      split at stepped
      next position =>
        obtain ⟨found, created, chosen⟩ := Option.bind_eq_some_iff.mp stepped
        obtain ⟨cell, first, rfl⟩ := Option.map_eq_some_iff.mp chosen
        obtain ⟨ownCell, keepsCells⟩ := getOrCreateTenant_keepsCells created
        refine kept.moveCall present (by simp [position]) keepsCells _ ?_
        rintro other same
        cases same
        rw [ownCell, first]
      next => cases stepped
  | coSpawn =>
      simp only [TenantOrder.callStep] at stepped
      split at stepped
      next cell position =>
        cases stepped
        exact kept.spawn present position
      next => cases stepped

theorem kept_step
    (system : System)
    (action : Action)
    (next : System)
    (kept : Kept system)
    (stepped : step system action = some next) :
    Kept next := by
  cases action with
  | submit tenant sync =>
      cases stepped
      refine ⟨kept.ordered, kept.assigned, ?_, ?_, kept.once, kept.numbered,
        kept.numbers, kept.next⟩
      · exact Threads.forall_mem_concat kept.chosen (by simp)
      · intro posting member
        obtain ⟨call, found, isSpawned⟩ := kept.spawned posting member
        obtain ⟨inRange, -⟩ := List.getElem?_eq_some_iff.mp found
        refine ⟨call, ?_, isSpawned⟩
        rw [List.getElem?_append_left inRange]
        exact found
  | call index action =>
      simp only [step] at stepped
      split at stepped
      next => cases stepped
      next call present => exact kept.callStep present stepped
  | meter tenant bucket inFlight =>
      obtain ⟨state, present, rfl⟩ := Option.map_eq_some_iff.mp stepped
      have keepsCells := setTenant_keepsCells present bucket inFlight
      refine ⟨kept.ordered, ?_, ?_, kept.spawned, kept.once, kept.numbered,
        kept.numbers, kept.next⟩
      · intro posting member
        exact keepsCells _ _ (kept.assigned posting member)
      · intro call member cell atSpawn
        exact keepsCells _ _ (kept.chosen call member cell atSpawn)
  | run cell =>
      obtain ⟨⟨posting, strands⟩, taken, rfl⟩ :=
        Option.map_eq_some_iff.mp stepped
      have ordered := kept.ordered.take taken
      obtain ⟨-, rest, -, rfl⟩ := Strands.take_eq_some_iff.mp taken
      refine ⟨ordered, kept.assigned, kept.chosen, kept.spawned, kept.once,
        ?_, ?_, ?_⟩
      · simp [kept.numbered]
      · simp [kept.numbers, kept.next, firstNumbers_succ]
      · simp [kept.next, UInt64.ofNat_add]
  | emit cell =>
      obtain ⟨strands, done, rfl⟩ := Option.map_eq_some_iff.mp stepped
      have ordered := kept.ordered.mark done
      obtain ⟨posting, -, rfl⟩ := Strands.mark_eq_some_iff.mp done
      exact ⟨ordered, kept.assigned, kept.chosen, kept.spawned, kept.once,
        kept.numbered, kept.numbers, kept.next⟩
  | finish cell =>
      simp only [step] at stepped
      split at stepped
      next posting emitted isRunning =>
        split at stepped
        next =>
          cases stepped
          exact ⟨kept.ordered.finish cell, kept.assigned, kept.chosen,
            kept.spawned, kept.once, kept.numbered, kept.numbers, kept.next⟩
        next => cases stepped
      next => cases stepped

/-- The order of the events of a tenant.  In every state of every run without a
drain and without an exception, the events of each tenant are processed and
emitted in the order of their `co_spawn` calls, each at most once, their numbers
increase in that order, and no number is given to two events, as long as the
counter has not wrapped. -/
theorem events_in_order
    (hash : String → UInt64)
    (fuel : Nat)
    (shardCfg : ShardingConfig)
    (rateCfg : RateLimitConfig)
    (actions : List Action)
    (final : System)
    (ran : Machine.run step (initial hash fuel shardCfg rateCfg) actions =
      some final)
    (below : final.drawn.length < 2 ^ 64) :
    InOrder final := by
  have kept : Kept final :=
    Machine.invariant_of_run kept_step
      (kept_initial hash fuel shardCfg rateCfg) ran
  exact kept.inOrder below

/-- A submission up to its spawn. -/
def spawnSteps (index : Nat) (tenant : String) (sync : Bool) : List Action :=
  [.submit tenant sync, .call index (.tryAcquire 0 true),
    .call index (.cellsFor 0), .call index .coSpawn]

/-- Two events of one tenant and one of another, on two cells; the cells take
turns and the last event is given up by its caller. -/
def takingTurns : List Action :=
  spawnSteps 0 "acme" false ++ spawnSteps 1 "globex" false ++
    spawnSteps 2 "acme" true ++
    [.run 1, .run 0, .emit 0, .emit 1, .finish 1, .run 1, .finish 1]

/-- A hash under which the two tenants get different cells. -/
def twoCellHash (text : String) : UInt64 :=
  if text = "acme" then 0 else 1

/-- In that run three numbers are drawn, and the events are in order. -/
theorem events_in_order_takingTurns :
    ∃ final,
      Machine.run step
          (initial twoCellHash 64 { numCells := 2, cellsPerTenant := 1 } {})
          takingTurns = some final ∧
        final.drawn.length = 3 ∧ InOrder final := by
  refine ⟨_, (Option.some_get (by decide +kernel)).symm, by decide +kernel, ?_⟩
  exact events_in_order twoCellHash 64 { numCells := 2, cellsPerTenant := 1 } {}
    takingTurns _ (Option.some_get (by decide +kernel)).symm (by decide +kernel)

end TenantOrder
end Pipeline
end Fre
