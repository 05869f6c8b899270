import Fre.Pipeline.Lifecycle

/-!
# Drain and restart

Any number of `submit` and `submit_sync` calls while one party starts and drains
the pipeline, one call after the other, as often as it likes.  Every start
creates a router with a pool of its own, and `in_flight_` outlives them all.  A
coroutine that is queued when its pool is stopped never runs, and nothing takes
it back out of the counter.
-/

namespace Fre
namespace Pipeline
namespace Restarts

open Foundation Lifecycle

/-- Where a submission stands.  Between `cells_for` and `co_spawn` it keeps a
strand of the router that it asked. -/
inductive CallPc
  | stateCheck
  | tryAcquire
  | increment
  | cellsFor
  | coSpawn (router : Nat)
  | release
  | waiting
  | returned
  deriving DecidableEq

/-- Where its coroutine stands, and in the pool of which router it is queued. -/
inductive EventPc
  | notSpawned
  | queued (router : Nat)
  | running
  | completed
  deriving DecidableEq

/-- A submission with its coroutine. -/
structure Call where
  sync : Bool
  pc : CallPc := .stateCheck
  event : EventPc := .notSpawned
  deriving DecidableEq

/-- Where the party that starts and drains stands.  The flag says that some
submission was under way during the drain. -/
inductive ControlPc
  | idle
  | creating
  | created
  | waiting (overlapped : Bool)
  | waitEnded (overlapped : Bool)
  | poolStopped (overlapped : Bool)
  | poolJoined (overlapped : Bool)
  | drained (overlapped : Bool)
  deriving DecidableEq

/-- The shared state.  The routers are numbered in the order of their creation
and the last one is in use; before the first there is no pool that could run. -/
structure System where
  state : PipelineState := .stopped
  inFlight : Int := 0
  routers : Nat := 0
  poolStopped : Bool := true
  control : ControlPc := .idle
  calls : List Call := []
  deriving DecidableEq

/-- A step of one call or of its coroutine. -/
inductive CallAction
  | cancelEarly
  | acquire (granted : Bool)
  | advance
  | run
  | complete
  deriving DecidableEq

/-- What can happen next. -/
inductive Action
  | submit (sync : Bool)
  | call (index : Nat) (action : CallAction)
  | start
  | drain
  | drainTest (expired : Bool)
  | control
  deriving DecidableEq

namespace ControlPc

/-- No `start` and no `drain` is under way. -/
def free : ControlPc → Bool
  | .idle => true
  | .drained _ => true
  | _ => false

/-- A submission begins. -/
def overlap : ControlPc → ControlPc
  | .waiting _ => .waiting true
  | .waitEnded _ => .waitEnded true
  | .poolStopped _ => .poolStopped true
  | .poolJoined _ => .poolJoined true
  | control => control

end ControlPc

namespace System

/-- Replace a call. -/
def put (system : System) (index : Nat) (call : Call) : System :=
  { system with calls := system.calls.set index call }

end System

/-- The steps of `submit` and `submit_sync` that need no input.  A strand of a
router that has been destroyed cannot be spawned on. -/
def advanceCall (system : System) (index : Nat) (call : Call) :
    Option System :=
  match call.pc with
  | .stateCheck =>
      some (system.put index { call with
        pc := if system.state = .running then .tryAcquire else .returned })
  | .increment =>
      some { system.put index { call with pc := .cellsFor } with
        inFlight := system.inFlight + 1 }
  | .cellsFor =>
      some (system.put index { call with pc := .coSpawn system.routers })
  | .coSpawn router =>
      if router = system.routers then
        some (system.put index { call with
          pc := .release
          event := .queued router })
      else none
  | .release =>
      some (system.put index { call with
        pc := if call.sync then .waiting else .returned })
  | .waiting => some (system.put index { call with pc := .returned })
  | _ => none

/-- One step of a call or of its coroutine. -/
def callStep (system : System) (index : Nat) (call : Call) :
    CallAction → Option System
  | .cancelEarly =>
      if call.pc = .stateCheck && call.sync then
        some (system.put index { call with pc := .returned })
      else none
  | .acquire granted =>
      if call.pc = .tryAcquire then
        some (system.put index { call with
          pc := if granted then .increment else .returned })
      else none
  | .advance => advanceCall system index call
  | .run =>
      if call.event = .queued system.routers && !system.poolStopped then
        some (system.put index { call with event := .running })
      else none
  | .complete =>
      if call.event = .running then
        some { system.put index { call with event := .completed } with
          inFlight := system.inFlight - 1 }
      else none

/-- The steps of `start` after its exchange, and of `drain` after its wait.  The
join of the pool waits for the coroutines that run. -/
def controlStep (system : System) : Option System :=
  match system.control with
  | .creating =>
      some { system with
        routers := system.routers + 1
        poolStopped := false
        control := .created }
  | .created => some { system with state := .running, control := .idle }
  | .waitEnded overlapped =>
      if system.routers = 0 then none
      else
        some { system with
          poolStopped := true
          control := .poolStopped overlapped }
  | .poolStopped overlapped =>
      if system.calls.all fun call => call.event ≠ .running then
        some { system with control := .poolJoined overlapped }
      else none
  | .poolJoined overlapped =>
      some { system with state := .stopped, control := .drained overlapped }
  | _ => none

/-- One step of some party.  A `start` of a pipeline that is not stopped returns
an error and changes nothing. -/
def step (system : System) : Action → Option System
  | .submit sync =>
      some { system with
        calls := system.calls ++ [{ sync }]
        control := system.control.overlap }
  | .call index action =>
      match system.calls[index]? with
      | none => none
      | some call => callStep system index call action
  | .start =>
      if system.control.free then
        if system.state = .stopped then
          some { system with state := .starting, control := .creating }
        else some system
      else none
  | .drain =>
      if system.control.free then
        some { system with
          state := .draining
          control := .waiting (system.calls.any fun call =>
            call.pc ≠ .returned) }
      else none
  | .drainTest expired =>
      match system.control with
      | .waiting overlapped =>
          if system.inFlight = 0 || expired then
            some { system with control := .waitEnded overlapped }
          else some system
      | _ => none
  | .control => controlStep system

/-! ### What the counter should say -/

/-- The call is between its increment and its `co_spawn`. -/
def Call.spawning (call : Call) : Bool :=
  match call.pc with
  | .cellsFor => true
  | .coSpawn _ => true
  | _ => false

/-- The coroutine has been spawned and has not called `on_event_complete`. -/
def Call.pending (call : Call) : Bool :=
  match call.event with
  | .queued _ => true
  | .running => true
  | _ => false

/-- The coroutine has not called `on_event_complete` and can still do so. -/
def canRun (system : System) (call : Call) : Bool :=
  match call.event with
  | .queued router => router = system.routers && !system.poolStopped
  | .running => true
  | _ => false

/-- The counter is the number of coroutines that can still complete, unless some
call is on its way to `co_spawn`, and it is zero after a drain that no call
overlapped. -/
structure Accounted (system : System) : Prop where
  counter : (∀ call ∈ system.calls, call.spawning = false) →
    system.inFlight = system.calls.countP (canRun system)
  drained : system.control = .drained false → system.inFlight = 0

/-- No coroutine is thrown away: none is queued when `drain` stops the pool, and
none is spawned on a pool that is stopped. -/
def KeepsEvents (system : System) : Action → Prop
  | .control => ∀ overlapped, system.control = .waitEnded overlapped →
      ∀ call ∈ system.calls, call.event ≠ .queued system.routers
  | .call index .advance => ∀ call ∈ system.calls[index]?,
      call.pc = .coSpawn system.routers → system.poolStopped = false
  | _ => True

instance (system : System) : ∀ action, Decidable (KeepsEvents system action)
  | .control => inferInstanceAs (Decidable (∀ overlapped,
      system.control = .waitEnded overlapped →
        ∀ call ∈ system.calls, call.event ≠ .queued system.routers))
  | .call index .advance => inferInstanceAs (Decidable (
      ∀ call ∈ system.calls[index]?,
        call.pc = .coSpawn system.routers → system.poolStopped = false))
  | .call _ .cancelEarly => .isTrue trivial
  | .call _ (.acquire _) => .isTrue trivial
  | .call _ .run => .isTrue trivial
  | .call _ .complete => .isTrue trivial
  | .submit _ => .isTrue trivial
  | .start => .isTrue trivial
  | .drain => .isTrue trivial
  | .drainTest _ => .isTrue trivial

/-! ### The invariant -/

/-- The call is counted by `in_flight_`. -/
def Call.counted (call : Call) : Bool := call.spawning || call.pending

/-- The call has not come past its `co_spawn`. -/
def CallPc.early : CallPc → Bool
  | .release => false
  | .waiting => false
  | .returned => false
  | _ => true

/-- A coroutine that has been spawned belongs to a call past its `co_spawn`. -/
def Call.Consistent (call : Call) : Prop :=
  call.event = .notSpawned ∨ call.pc.early = false

theorem Call.Consistent.notSpawned
    {call : Call}
    (consistent : call.Consistent)
    (early : call.pc.early = true) :
    call.event = .notSpawned := by
  simpa [Call.Consistent, early] using consistent

/-- A call past its `co_spawn` is counted as long as its coroutine is
pending. -/
theorem Call.counted_of_late
    {call : Call}
    (late : call.pc.early = false) :
    call.counted = call.pending := by
  have notSpawning : call.spawning = false := by
    unfold Call.spawning
    split
    next position => simp [position, CallPc.early] at late
    next position => simp [position, CallPc.early] at late
    next => rfl
  rw [Call.counted, notSpawning, Bool.false_or]

/-- A call whose coroutine has been spawned is past its `co_spawn`. -/
theorem Call.Consistent.late
    {call : Call}
    (consistent : call.Consistent)
    (spawned : call.event ≠ .notSpawned) :
    call.pc.early = false :=
  consistent.resolve_left spawned

/-- There is no pool that could run a coroutine. -/
def ControlPc.stopped : ControlPc → Bool
  | .creating => true
  | .poolStopped _ => true
  | .poolJoined _ => true
  | .drained _ => true
  | _ => false

/-- The pool of the last router has been joined. -/
def ControlPc.joined : ControlPc → Bool
  | .poolJoined _ => true
  | .drained _ => true
  | _ => false

theorem ControlPc.stopped_of_joined
    {control : ControlPc}
    (joined : control.joined = true) :
    control.stopped = true := by
  cases control <;> first | rfl | exact joined

/-- A drain is under way that no call has overlapped. -/
def ControlPc.alone : ControlPc → Bool
  | .waiting overlapped => !overlapped
  | .waitEnded overlapped => !overlapped
  | .poolStopped overlapped => !overlapped
  | .poolJoined overlapped => !overlapped
  | _ => false

/-- What every run keeps in which no coroutine is thrown away. -/
structure Kept (system : System) : Prop where
  inFlight : system.inFlight = system.calls.countP Call.counted
  consistent : ∀ call ∈ system.calls, call.Consistent
  queued : ∀ call ∈ system.calls, ∀ router, call.event = .queued router →
    router = system.routers ∧ system.poolStopped = false
  stopped : system.control.stopped = true → system.poolStopped = true
  idle : system.control = .idle → system.state = .stopped →
    system.poolStopped = true
  joined : system.control.joined = true →
    ∀ call ∈ system.calls, call.event ≠ .running
  alone : system.control.alone = true →
    ∀ call ∈ system.calls, call.pc = .returned
  drained : ∀ overlapped, system.control = .drained overlapped →
    system.state = .stopped ∧
      (overlapped = false →
        ∀ call ∈ system.calls, call.pc = .stateCheck ∨ call.pc = .returned)

theorem kept_initial : Kept {} := by
  refine ⟨rfl, ?_, ?_, ?_, ?_, ?_, ?_, ?_⟩ <;> simp [ControlPc.stopped,
    ControlPc.joined, ControlPc.alone]

/-- The calls that a pool still has to run are those that are pending. -/
theorem Kept.canRun_eq
    {system : System}
    (kept : Kept system)
    (call : Call)
    (member : call ∈ system.calls) :
    canRun system call = call.pending := by
  unfold canRun Call.pending
  split
  next router isQueued =>
    obtain ⟨current, notStopped⟩ := kept.queued call member router isQueued
    simp [current, notStopped]
  next => rfl
  next => rfl

/-- Nothing is queued in a pool that is stopped. -/
theorem Kept.not_queued
    {system : System}
    (kept : Kept system)
    (stopped : system.poolStopped = true)
    (call : Call)
    (member : call ∈ system.calls)
    (router : Nat) :
    call.event ≠ .queued router := by
  intro isQueued
  have notStopped := (kept.queued call member router isQueued).2
  rw [stopped] at notStopped
  cases notStopped

/-- Nothing is pending once the pool has been joined. -/
theorem Kept.not_pending_of_joined
    {system : System}
    (kept : Kept system)
    (joined : system.control.joined = true)
    (call : Call)
    (member : call ∈ system.calls) :
    call.pending = false := by
  have stopped := kept.stopped (ControlPc.stopped_of_joined joined)
  unfold Call.pending
  split
  next router isQueued =>
    exact absurd isQueued (kept.not_queued stopped call member router)
  next isRunning => exact absurd isRunning (kept.joined joined call member)
  next => rfl

theorem Kept.accounted
    {system : System}
    (kept : Kept system) :
    Accounted system := by
  constructor
  · intro noneSpawning
    rw [kept.inFlight]
    congr 1
    apply List.countP_congr
    intro call member
    rw [kept.canRun_eq call member]
    simp [Call.counted, noneSpawning call member]
  · intro returned
    have positions := (kept.drained false returned).2 rfl
    rw [kept.inFlight, Int.natCast_eq_zero, List.countP_eq_zero]
    intro call member
    have joined : system.control.joined = true := by
      simp [returned, ControlPc.joined]
    have notPending := kept.not_pending_of_joined joined call member
    have notSpawning : call.spawning = false := by
      rcases positions call member with atCheck | atEnd
      · simp [Call.spawning, atCheck]
      · simp [Call.spawning, atEnd]
    simp [Call.counted, notSpawning, notPending]

/-- Replacing a call keeps the invariant when the counter moves with it. -/
theorem Kept.put
    {system : System}
    {index : Nat}
    {call : Call}
    (kept : Kept system)
    (present : system.calls[index]? = some call)
    (new : Call)
    (inFlight : Int)
    (consistent : new.Consistent)
    (moved : inFlight + call.counted.toNat =
      system.inFlight + new.counted.toNat)
    (queued : ∀ router, new.event = .queued router →
      router = system.routers ∧ system.poolStopped = false)
    (running : new.event = .running →
      call.event = .running ∨ system.poolStopped = false)
    (ended : call.pc = .returned → new.pc = .returned)
    (rejected : call.pc = .stateCheck → system.state = .stopped →
      new.pc = .returned) :
    Kept { system.put index new with inFlight := inFlight } := by
  have member : call ∈ system.calls := List.mem_of_getElem? present
  refine ⟨?_, ?_, ?_, kept.stopped, kept.idle, ?_, ?_, ?_⟩
  · have counted := Threads.countP_set_add Call.counted present new
    have before := kept.inFlight
    dsimp only [System.put]
    omega
  · exact Threads.forall_mem_set kept.consistent consistent
  · exact Threads.forall_mem_set kept.queued queued
  · intro joined
    apply Threads.forall_mem_set (kept.joined joined)
    intro isRunning
    rcases running isRunning with before | notStopped
    · exact kept.joined joined call member before
    · have stopped := kept.stopped (ControlPc.stopped_of_joined joined)
      exact absurd stopped (by simp [notStopped])
  · intro alone
    apply Threads.forall_mem_set (kept.alone alone)
    exact ended (kept.alone alone call member)
  · intro overlapped returned
    obtain ⟨isStopped, positions⟩ := kept.drained overlapped returned
    refine ⟨isStopped, fun apart => ?_⟩
    apply Threads.forall_mem_set (positions apart)
    rcases positions apart call member with atCheck | atEnd
    · exact Or.inr (rejected atCheck isStopped)
    · exact Or.inr (ended atEnd)

/-! ### The steps keep the invariant -/

/-- A step of a call that leaves its coroutine and the counter alone. -/
theorem Kept.moveCall
    {system : System}
    {index : Nat}
    {call : Call}
    (kept : Kept system)
    (present : system.calls[index]? = some call)
    (pc : CallPc)
    (consistent : ({ call with pc } : Call).Consistent)
    (sameCount : ({ call with pc } : Call).spawning = call.spawning)
    (notEnded : call.pc ≠ .returned)
    (rejected : call.pc = .stateCheck → system.state = .stopped →
      pc = .returned) :
    Kept (system.put index { call with pc }) := by
  have member : call ∈ system.calls := List.mem_of_getElem? present
  refine kept.put present { call with pc } system.inFlight consistent ?_
    (kept.queued call member) Or.inl ?_ rejected
  · have pending : ({ call with pc } : Call).pending = call.pending := rfl
    rw [Call.counted, Call.counted, sameCount, pending]
  · intro atEnd
    exact absurd atEnd notEnded

/-- A step of a coroutine with the counter following it. -/
theorem Kept.moveEvent
    {system : System}
    {index : Nat}
    {call : Call}
    (kept : Kept system)
    (present : system.calls[index]? = some call)
    (event : EventPc)
    (inFlight : Int)
    (spawned : call.event ≠ .notSpawned)
    (moved : inFlight + call.pending.toNat =
      system.inFlight + ({ call with event } : Call).pending.toNat)
    (queued : ∀ router, event ≠ .queued router)
    (running : event = .running → system.poolStopped = false) :
    Kept { system.put index { call with event } with inFlight } := by
  have late : call.pc.early = false :=
    (kept.consistent call (List.mem_of_getElem? present)).late spawned
  refine kept.put present { call with event } inFlight (Or.inr late) ?_ ?_
    (fun isRunning => Or.inr (running isRunning)) id ?_
  · have after : ({ call with event } : Call).counted =
        ({ call with event } : Call).pending :=
      Call.counted_of_late late
    rw [Call.counted_of_late late, after]
    exact moved
  · intro router isQueued
    exact absurd isQueued (queued router)
  · intro atCheck
    simp [atCheck, CallPc.early] at late

theorem Kept.advanceCall
    {system next : System}
    {index : Nat}
    {call : Call}
    (kept : Kept system)
    (present : system.calls[index]? = some call)
    (keepsEvents : KeepsEvents system (.call index .advance))
    (stepped : advanceCall system index call = some next) :
    Kept next := by
  have consistent := kept.consistent call (List.mem_of_getElem? present)
  unfold Restarts.advanceCall at stepped
  split at stepped
  next position =>
    cases stepped
    have notSpawned := consistent.notSpawned (by simp [position, CallPc.early])
    refine kept.moveCall present _ (Or.inl notSpawned) ?_
      (by simp [position]) ?_
    · split <;> simp [Call.spawning, position]
    · intro _ stopped
      simp [stopped]
  next position =>
    cases stepped
    have notSpawned := consistent.notSpawned (by simp [position, CallPc.early])
    refine kept.put present { call with pc := .cellsFor } _ (Or.inl notSpawned)
      ?_ ?_ ?_ ?_ ?_
    · simp [Call.counted, Call.spawning, Call.pending, position, notSpawned]
    · simp [notSpawned]
    · simp [notSpawned]
    · simp [position]
    · simp [position]
  next position =>
    cases stepped
    have notSpawned := consistent.notSpawned (by simp [position, CallPc.early])
    refine kept.moveCall present _ (Or.inl notSpawned) ?_
      (by simp [position]) ?_
    · simp [Call.spawning, position]
    · simp [position]
  next router position =>
    split at stepped
    next current =>
      cases stepped
      refine kept.put present
        { call with pc := .release, event := .queued router }
        system.inFlight (Or.inr rfl) ?_ ?_ ?_ ?_ ?_
      · simp [Call.counted, Call.spawning, Call.pending, position]
      · intro other same
        cases same
        exact ⟨current, keepsEvents call present (current ▸ position)⟩
      · simp
      · simp [position]
      · simp [position]
    next => cases stepped
  next position =>
    cases stepped
    refine kept.moveCall present _ (Or.inr ?_) ?_ (by simp [position]) ?_
    · split <;> simp [CallPc.early]
    · split <;> simp [Call.spawning, position]
    · simp [position]
  next position =>
    cases stepped
    refine kept.moveCall present _ (Or.inr rfl) ?_ (by simp [position]) ?_
    · simp [Call.spawning, position]
    · simp [position]
  next => cases stepped

theorem Kept.callStep
    {system next : System}
    {index : Nat}
    {call : Call}
    {action : CallAction}
    (kept : Kept system)
    (present : system.calls[index]? = some call)
    (keepsEvents : KeepsEvents system (.call index action))
    (stepped : callStep system index call action = some next) :
    Kept next := by
  have consistent := kept.consistent call (List.mem_of_getElem? present)
  cases action with
  | cancelEarly =>
      simp only [Restarts.callStep] at stepped
      split at stepped
      next enabled =>
        cases stepped
        have position : call.pc = .stateCheck := by
          simp only [Bool.and_eq_true, decide_eq_true_eq] at enabled
          exact enabled.1
        refine kept.moveCall present _ (Or.inr rfl) ?_ (by simp [position]) ?_
        · simp [Call.spawning, position]
        · simp
      next => cases stepped
  | acquire granted =>
      simp only [Restarts.callStep] at stepped
      split at stepped
      next position =>
        cases stepped
        have notSpawned :=
          consistent.notSpawned (by simp [position, CallPc.early])
        refine kept.moveCall present _ (Or.inl notSpawned) ?_
          (by simp [position]) ?_
        · split <;> simp [Call.spawning, position]
        · simp [position]
      next => cases stepped
  | advance => exact kept.advanceCall present keepsEvents stepped
  | run =>
      simp only [Restarts.callStep] at stepped
      split at stepped
      next enabled =>
        cases stepped
        simp only [Bool.and_eq_true, decide_eq_true_eq, Bool.not_eq_true']
          at enabled
        obtain ⟨isQueued, notStopped⟩ := enabled
        refine kept.moveEvent present .running system.inFlight ?_ ?_ ?_ ?_
        · simp [isQueued]
        · simp [Call.pending, isQueued]
        · simp
        · exact fun _ => notStopped
      next => cases stepped
  | complete =>
      simp only [Restarts.callStep] at stepped
      split at stepped
      next isRunning =>
        cases stepped
        refine kept.moveEvent present .completed _ ?_ ?_ ?_ ?_
        · simp [isRunning]
        · simp [Call.pending, isRunning]
        · simp
        · simp
      next => cases stepped

theorem Kept.submit
    {system : System}
    (kept : Kept system)
    (sync : Bool) :
    Kept { system with
      calls := system.calls ++ [{ sync }]
      control := system.control.overlap } := by
  refine ⟨?_, Threads.forall_mem_concat kept.consistent (Or.inl rfl),
    Threads.forall_mem_concat kept.queued (by simp), ?_, ?_, ?_, ?_, ?_⟩
  · simp [kept.inFlight, Call.counted, Call.spawning, Call.pending]
  · intro stopped
    apply kept.stopped
    revert stopped
    cases system.control <;> exact id
  · intro isIdle
    apply kept.idle
    revert isIdle
    cases system.control <;> simp [ControlPc.overlap]
  · intro joined
    refine Threads.forall_mem_concat (kept.joined ?_) (by simp)
    revert joined
    cases system.control <;> exact id
  · intro alone
    exfalso
    revert alone
    cases system.control <;> simp [ControlPc.overlap, ControlPc.alone]
  · intro overlapped returned
    have same : system.control = .drained overlapped := by
      revert returned
      cases system.control <;> simp [ControlPc.overlap]
    obtain ⟨isStopped, positions⟩ := kept.drained overlapped same
    refine ⟨isStopped, fun apart => ?_⟩
    exact Threads.forall_mem_concat (positions apart) (Or.inl rfl)

/-- The steps of `start` and `drain` leave the calls and the counter alone. -/
theorem Kept.move
    {system : System}
    (kept : Kept system)
    (state : PipelineState)
    (routers : Nat)
    (poolStopped : Bool)
    (control : ControlPc)
    (queued : ∀ call ∈ system.calls, ∀ router, call.event = .queued router →
      router = routers ∧ poolStopped = false)
    (stopped : control.stopped = true → poolStopped = true)
    (idle : control = .idle → state = .stopped → poolStopped = true)
    (joined : control.joined = true →
      ∀ call ∈ system.calls, call.event ≠ .running)
    (alone : control.alone = true → ∀ call ∈ system.calls, call.pc = .returned)
    (drained : ∀ overlapped, control = .drained overlapped →
      state = .stopped ∧
        (overlapped = false →
          ∀ call ∈ system.calls, call.pc = .stateCheck ∨ call.pc = .returned)) :
    Kept { system with state, routers, poolStopped, control } :=
  ⟨kept.inFlight, kept.consistent, queued, stopped, idle, joined, alone,
    drained⟩

theorem Kept.controlStep
    {system next : System}
    (kept : Kept system)
    (keepsEvents : KeepsEvents system .control)
    (stepped : controlStep system = some next) :
    Kept next := by
  unfold Restarts.controlStep at stepped
  split at stepped
  next position =>
    cases stepped
    have isStopped : system.poolStopped = true := by
      apply kept.stopped
      simp [position, ControlPc.stopped]
    refine kept.move _ _ _ _ ?_ ?_ ?_ ?_ ?_ ?_
    · intro call member router isQueued
      exact absurd isQueued (kept.not_queued isStopped call member router)
    all_goals simp [ControlPc.stopped, ControlPc.joined, ControlPc.alone]
  next position =>
    cases stepped
    refine kept.move _ _ _ _ kept.queued ?_ ?_ ?_ ?_ ?_ <;>
      simp [ControlPc.stopped, ControlPc.joined, ControlPc.alone]
  next overlapped position =>
    split at stepped
    next => cases stepped
    next =>
      cases stepped
      refine kept.move _ _ _ _ ?_ (fun _ => rfl) ?_ ?_ ?_ ?_
      · intro call member router isQueued
        have current := (kept.queued call member router isQueued).1
        exact absurd (current ▸ isQueued)
          (keepsEvents overlapped position call member)
      · simp
      · simp [ControlPc.joined]
      · intro alone
        apply kept.alone
        simpa [position, ControlPc.alone] using alone
      · simp
  next overlapped position =>
    split at stepped
    next ended =>
      cases stepped
      refine kept.move _ _ _ _ kept.queued ?_ ?_ ?_ ?_ ?_
      · intro _
        apply kept.stopped
        simp [position, ControlPc.stopped]
      · simp
      · intro _ call member
        simpa using List.all_eq_true.mp ended call member
      · intro alone
        apply kept.alone
        simpa [position, ControlPc.alone] using alone
      · simp
    next => cases stepped
  next overlapped position =>
    cases stepped
    refine kept.move _ _ _ _ kept.queued ?_ ?_ ?_ ?_ ?_
    · intro _
      apply kept.stopped
      simp [position, ControlPc.stopped]
    · simp
    · intro _
      apply kept.joined
      simp [position, ControlPc.joined]
    · simp [ControlPc.alone]
    · intro other returned
      rw [ControlPc.drained.injEq] at returned
      refine ⟨rfl, fun apart call member => Or.inr ?_⟩
      apply kept.alone _ call member
      simp [position, ControlPc.alone, returned, apart]
  next => cases stepped

theorem kept_step
    (system : System)
    (action : Action)
    (next : System)
    (kept : Kept system)
    (keepsEvents : KeepsEvents system action)
    (stepped : step system action = some next) :
    Kept next := by
  cases action with
  | submit sync =>
      cases stepped
      exact kept.submit sync
  | call index action =>
      simp only [step] at stepped
      split at stepped
      next => cases stepped
      next call present => exact kept.callStep present keepsEvents stepped
  | start =>
      simp only [step] at stepped
      split at stepped
      next isFree =>
        split at stepped
        next isStopped =>
          cases stepped
          refine kept.move _ _ _ _ kept.queued ?_ ?_ ?_ ?_ ?_
          · intro _
            cases position : system.control with
            | idle => exact kept.idle position isStopped
            | drained overlapped =>
                exact kept.stopped (by simp [position, ControlPc.stopped])
            | _ => simp [position, ControlPc.free] at isFree
          all_goals simp [ControlPc.joined, ControlPc.alone]
        next =>
          cases stepped
          exact kept
      next => cases stepped
  | drain =>
      simp only [step] at stepped
      split at stepped
      next isFree =>
        cases stepped
        refine kept.move _ _ _ _ kept.queued ?_ ?_ ?_ ?_ ?_
        · simp [ControlPc.stopped]
        · simp
        · simp [ControlPc.joined]
        · intro alone
          simpa [ControlPc.alone] using alone
        · simp
      next => cases stepped
  | drainTest expired =>
      simp only [step] at stepped
      split at stepped
      next overlapped position =>
        split at stepped
        next =>
          cases stepped
          refine kept.move _ _ _ _ kept.queued ?_ ?_ ?_ ?_ ?_
          · simp [ControlPc.stopped]
          · simp
          · simp [ControlPc.joined]
          · intro alone
            apply kept.alone
            simpa [position, ControlPc.alone] using alone
          · simp
        next =>
          cases stepped
          exact kept
      next => cases stepped
  | control => exact kept.controlStep keepsEvents stepped

/-- The accounting over restarts.  In every state of every run in which no
coroutine is thrown away, the counter is the number of coroutines that can still
complete unless some call is on its way to `co_spawn`, and it is zero after a
drain that no call overlapped. -/
theorem inFlight_accounted
    (actions : List Action)
    (final : System)
    (keepsEvents : Machine.RunMeets step KeepsEvents {} actions)
    (ran : Machine.run step {} actions = some final) :
    Accounted final := by
  have kept : Kept final :=
    Machine.invariant_of_run_of_meets kept_step kept_initial keepsEvents ran
  exact kept.accounted

/-- The steps of `start`. -/
def startSteps : List Action := [.start, .control, .control]

/-- The steps of a drain whose wait ends as given. -/
def drainSteps (expired : Bool) : List Action :=
  [.drain, .drainTest expired, .control, .control, .control]

/-- A submission that is accepted and returns. -/
def submitSteps (index : Nat) : List Action :=
  [.submit false, .call index .advance, .call index (.acquire true),
    .call index .advance, .call index .advance, .call index .advance,
    .call index .advance]

/-- Two lives of the pipeline; the first drain waits until the coroutine, which
runs when it begins, has completed. -/
def restarted : List Action :=
  startSteps ++ submitSteps 0 ++
    [.call 0 .run, .drain, .drainTest false, .call 0 .complete,
      .drainTest false, .control, .control, .control] ++
    startSteps ++ submitSteps 1 ++ [.call 1 .run, .call 1 .complete] ++
    drainSteps false

/-- After both lives the counter is zero again. -/
theorem inFlight_accounted_restarted :
    ∃ final, Machine.run step {} restarted = some final ∧
      final.control = .drained false ∧ final.inFlight = 0 := by
  refine ⟨_, (Option.some_get (by decide)).symm, by decide, ?_⟩
  exact (inFlight_accounted restarted _ (by decide)
    (Option.some_get (by decide)).symm).drained (by decide)

/-- The deadline passes while the coroutine is queued: the drain returns, no
call overlapped it, nothing can run, and the counter stays at one. -/
theorem drain_loses_queued_event :
    ∃ final,
      Machine.run step {} (startSteps ++ submitSteps 0 ++ drainSteps true) =
        some final ∧
      final.control = .drained false ∧
      (∀ call ∈ final.calls, call.spawning = false) ∧
      final.calls.countP (canRun final) = 0 ∧ final.inFlight = 1 ∧
      ¬ Accounted final := by
  refine ⟨_, (Option.some_get (by decide)).symm, by decide, by decide,
    by decide, by decide, ?_⟩
  intro accounted
  exact absurd (accounted.drained (by decide)) (by decide)

end Restarts
end Pipeline
end Fre
