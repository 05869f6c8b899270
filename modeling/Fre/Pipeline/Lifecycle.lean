import Fre.Foundation.Machine
import Fre.Foundation.Threads
import Fre.Sharding.Config

/-!
# Submissions, strands and drain

Any number of `submit` and `submit_sync` calls on a running pipeline, the
`run_event` coroutines they spawn, and one call of `drain`.  The steps are the
accesses to what they share: the pipeline state, the tenants' slot counters of
the router, `in_flight_`, the strands and the thread pool.  A strand runs its
coroutines one at a time in posting order, and none starts once the pool is
stopped and joined.
-/

namespace Fre
namespace Pipeline
namespace Lifecycle

open Foundation

/-- `PipelineState`. -/
inductive PipelineState
  | stopped
  | starting
  | running
  | draining
  deriving DecidableEq, Repr

/-- Where a submission stands. -/
inductive CallPc
  | stateCheck
  | consume
  | acquireSlot
  | rejectSlot
  | increment
  | coSpawn
  | release
  | succeeded
  | rejected
  deriving DecidableEq, Repr

/-- Where its coroutine stands; a dead one has ended with an exception. -/
inductive EventPc
  | notSpawned
  | queued
  | running
  | emitted
  | completed
  | dead
  deriving DecidableEq, Repr

/-- A submission with its coroutine, and how often `EmitStage::process` was
called for it. -/
structure Call where
  tenant : String
  sync : Bool
  pc : CallPc := .stateCheck
  event : EventPc := .notSpawned
  emits : Nat := 0
  deriving DecidableEq, Repr

/-- Where `drain` stands.  The flag says that the wait ended because
`in_flight_` was zero. -/
inductive DrainPc
  | notCalled
  | waiting
  | waitEnded (graceful : Bool)
  | poolStopped (graceful : Bool)
  | joined (graceful : Bool)
  | returned (graceful : Bool)
  deriving DecidableEq, Repr

/-- The strand of a tenant, by the index of its first cell, and the rate
limits. -/
structure Config where
  strandOf : String → Nat
  rateLimit : RateLimitConfig

/-- The shared state, the calls in order of invocation, and the coroutines in
posting order. -/
structure System where
  state : PipelineState := .running
  inFlight : Int := 0
  slots : String → Int32 := fun _ => 0
  poolJoined : Bool := false
  drain : DrainPc := .notCalled
  calls : List Call := []
  posted : List Nat := []

/-- A step of one call or of its coroutine. -/
inductive CallAction
  | consume (granted : Bool)
  | advance
  | start
  | emit
  | complete
  | fail
  deriving DecidableEq, Repr

/-- What can happen next. -/
inductive Action
  | submit (tenant : String) (sync : Bool)
  | call (index : Nat) (action : CallAction)
  | drain
  | drainTest (expired : Bool)
  deriving DecidableEq, Repr

/-- The coroutine is over. -/
def Call.ended (call : Call) : Bool :=
  call.event = .completed || call.event = .dead

/-- The call has passed its increment of `in_flight_`. -/
def Call.incremented (call : Call) : Bool :=
  call.pc = .coSpawn || call.pc = .release || call.pc = .succeeded

/-- The call is counted by `in_flight_`. -/
def Call.counted (call : Call) : Bool :=
  call.incremented && call.event ≠ .completed

/-- The call is counted by the slot counter of its tenant. -/
def Call.occupies (call : Call) : Bool :=
  call.pc = .rejectSlot || call.pc = .increment || call.pc = .coSpawn ||
    call.pc = .release

namespace System

/-- Every coroutine posted to the strand before this one is over. -/
def headOfStrand
    (config : Config)
    (system : System)
    (index : Nat)
    (call : Call) : Bool :=
  (system.posted.takeWhile fun other => other ≠ index).all fun other =>
    match system.calls[other]? with
    | some earlier =>
        config.strandOf earlier.tenant ≠ config.strandOf call.tenant ||
          earlier.ended
    | none => true

/-- Replace a call. -/
def put (system : System) (index : Nat) (call : Call) : System :=
  { system with calls := system.calls.set index call }

end System

/-- The steps of `submit`, and of `submit_sync` up to its wait.  A
`submit_sync` that is cancelled before its state check takes none of them. -/
def advanceCall
    (config : Config)
    (system : System)
    (index : Nat)
    (call : Call) : Option System :=
  match call.pc with
  | .stateCheck =>
      some (system.put index { call with
        pc := if system.state = .running then .consume else .rejected })
  | .acquireSlot =>
      let prev := system.slots call.tenant
      some { system.put index { call with
          pc :=
            if prev ≥ config.rateLimit.maxConcurrent then .rejectSlot
            else .increment } with
        slots := Function.update system.slots call.tenant (prev + 1) }
  | .rejectSlot =>
      some { system.put index { call with pc := .rejected } with
        slots := Function.update system.slots call.tenant
          (system.slots call.tenant - 1) }
  | .increment =>
      some { system.put index { call with pc := .coSpawn } with
        inFlight := system.inFlight + 1 }
  | .coSpawn =>
      some { system.put index { call with pc := .release, event := .queued }
        with posted := system.posted ++ [index] }
  | .release =>
      some { system.put index { call with pc := .succeeded } with
        slots := Function.update system.slots call.tenant
          (system.slots call.tenant - 1) }
  | _ => none

/-- One step of a call or its coroutine.  Only a synchronous event may complete
without an emission. -/
def callStep
    (config : Config)
    (system : System)
    (index : Nat)
    (call : Call) : CallAction → Option System
  | .consume granted =>
      if call.pc = .consume then
        some (system.put index { call with
          pc := if granted then .acquireSlot else .rejected })
      else none
  | .advance => advanceCall config system index call
  | .start =>
      if call.event = .queued && !system.poolJoined &&
          system.headOfStrand config index call then
        some (system.put index { call with event := .running })
      else none
  | .emit =>
      if call.event = .running then
        some (system.put index { call with
          event := .emitted
          emits := call.emits + 1 })
      else none
  | .complete =>
      if call.event = .emitted || (call.event = .running && call.sync) then
        some { system.put index { call with event := .completed } with
          inFlight := system.inFlight - 1 }
      else none
  | .fail =>
      if call.event = .running || call.event = .emitted then
        some (system.put index { call with event := .dead })
      else none

/-- The steps of `drain` around its wait.  The join of the pool waits for the
coroutines that run. -/
def drainStep (system : System) : Option System :=
  match system.drain with
  | .notCalled =>
      some { system with drain := .waiting, state := .draining }
  | .waiting => none
  | .waitEnded graceful =>
      some { system with drain := .poolStopped graceful }
  | .poolStopped graceful =>
      if system.calls.all fun call =>
          call.event ≠ .running && call.event ≠ .emitted then
        some { system with drain := .joined graceful, poolJoined := true }
      else none
  | .joined graceful =>
      some { system with drain := .returned graceful, state := .stopped }
  | .returned _ => none

/-- One step of some party. -/
def step (config : Config) (system : System) : Action → Option System
  | .submit tenant sync =>
      some { system with
        calls := system.calls ++ [{ tenant := tenant, sync := sync }] }
  | .call index action =>
      match system.calls[index]? with
      | none => none
      | some call => callStep config system index call action
  | .drain => drainStep system
  | .drainTest expired =>
      if system.drain = .waiting then
        if system.inFlight = 0 then
          some { system with drain := .waitEnded true }
        else if expired then some { system with drain := .waitEnded false }
        else some system
      else none

/-! ## What a step of a call does -/

/-- The position of a call, of its coroutine and the number of its emissions
fit together. -/
structure Call.Consistent (call : Call) : Prop where
  spawned : call.event ≠ .notSpawned ↔
    (call.pc = .release ∨ call.pc = .succeeded)
  emitted :
    match call.event with
    | .notSpawned => call.emits = 0
    | .queued => call.emits = 0
    | .running => call.emits = 0
    | .emitted => call.emits = 1
    | .completed => call.sync = false → call.emits = 1
    | .dead => True

/-- A new call. -/
theorem Call.consistent_new (tenant : String) (sync : Bool) :
    Call.Consistent { tenant := tenant, sync := sync } where
  spawned := by simp
  emitted := rfl

theorem Call.Consistent.incremented_of_spawned
    {call : Call}
    (consistent : call.Consistent)
    (spawned : call.event ≠ .notSpawned) :
    call.incremented = true := by
  rcases consistent.spawned.1 spawned with position | position
  · simp [Call.incremented, position]
  · simp [Call.incremented, position]

/-- What a step of a call or of its coroutine comes to: one call is replaced,
`in_flight_` keeps counting, the drain is untouched, only the increment makes a
call incremented, and a completed coroutine stays completed. -/
structure Replaces
    (system next : System)
    (index : Nat)
    (action : CallAction)
    (call new : Call) : Prop where
  calls : next.calls = system.calls.set index new
  drain : next.drain = system.drain
  inFlight : next.inFlight + call.counted.toNat =
    system.inFlight + new.counted.toNat
  consistent : new.Consistent
  tenant : new.tenant = call.tenant
  sync : new.sync = call.sync
  incremented : new.incremented = true →
    call.incremented = true ∨ (action = .advance ∧ call.pc = .increment)
  completed : call.event = .completed → new.event = .completed

theorem Call.Consistent.event_eq_notSpawned
    {call : Call}
    (consistent : call.Consistent)
    (notRelease : call.pc ≠ .release)
    (notSucceeded : call.pc ≠ .succeeded) :
    call.event = .notSpawned := by
  by_contra spawned
  rcases consistent.spawned.1 spawned with position | position
  · exact notRelease position
  · exact notSucceeded position

/-- Before the spawn a call may move to any position before the spawn. -/
theorem Call.Consistent.move
    {call : Call}
    (consistent : call.Consistent)
    (notSpawned : call.event = .notSpawned)
    {position : CallPc}
    (notRelease : position ≠ .release)
    (notSucceeded : position ≠ .succeeded) :
    Call.Consistent { call with pc := position } where
  spawned := by simp [notSpawned, notRelease, notSucceeded]
  emitted := consistent.emitted

/-- A move between two positions before the increment. -/
theorem Replaces.of_move
    {system next : System}
    {index : Nat}
    {action : CallAction}
    {call : Call}
    {position : CallPc}
    (consistent : call.Consistent)
    (before : call.incremented = false)
    (after : Call.incremented { call with pc := position } = false)
    (calls : next.calls = system.calls.set index { call with pc := position })
    (drain : next.drain = system.drain)
    (inFlight : next.inFlight = system.inFlight) :
    Replaces system next index action call { call with pc := position } where
  calls := calls
  drain := drain
  inFlight := by simp [Call.counted, before, after, inFlight]
  consistent := by
    simp only [Call.incremented, Bool.or_eq_false_iff, decide_eq_false_iff_not]
      at before after
    have notSpawned :=
      consistent.event_eq_notSpawned before.1.2 before.2
    exact consistent.move notSpawned after.1.2 after.2
  tenant := rfl
  sync := rfl
  incremented := fun impossible => by simp [after] at impossible
  completed := id

/-- A step of `submit` as a replacement. -/
theorem advanceCall_replaces
    {config : Config}
    {system next : System}
    {index : Nat}
    {call : Call}
    (consistent : call.Consistent)
    (stepped : advanceCall config system index call = some next) :
    ∃ new, Replaces system next index .advance call new := by
  unfold advanceCall at stepped
  split at stepped
  · next position =>
      rw [Option.some.injEq] at stepped
      subst stepped
      refine ⟨_, .of_move consistent ?_ ?_ rfl rfl rfl⟩
      · simp [Call.incremented, position]
      · split <;> simp [Call.incremented]
  · next position =>
      rw [Option.some.injEq] at stepped
      subst stepped
      refine ⟨_, .of_move consistent ?_ ?_ rfl rfl rfl⟩
      · simp [Call.incremented, position]
      · split <;> simp [Call.incremented]
  · next position =>
      cases stepped
      refine ⟨_, .of_move consistent ?_ ?_ rfl rfl rfl⟩
      · simp [Call.incremented, position]
      · simp [Call.incremented]
  · next position =>
      have notSpawned := consistent.event_eq_notSpawned
        (by simp [position]) (by simp [position])
      cases stepped
      refine ⟨_, rfl, rfl, ?_, ?_, rfl, rfl,
        fun _ => .inr ⟨rfl, position⟩, id⟩
      · simp [Call.counted, Call.incremented, position, notSpawned]
      · exact consistent.move notSpawned (by simp) (by simp)
  · next position =>
      have notSpawned := consistent.event_eq_notSpawned
        (by simp [position]) (by simp [position])
      have noEmission := consistent.emitted
      rw [notSpawned] at noEmission
      cases stepped
      refine ⟨_, rfl, rfl, ?_, ⟨by simp, noEmission⟩, rfl, rfl, ?_,
        by simp [notSpawned]⟩
      · simp [System.put, Call.counted, Call.incremented, position, notSpawned]
      · simp [Call.incremented, position]
  · next position =>
      have spawned := consistent.spawned.2 (.inl position)
      cases stepped
      refine ⟨_, rfl, rfl, ?_, ⟨by simp [spawned], consistent.emitted⟩, rfl,
        rfl, ?_, id⟩
      · simp [System.put, Call.counted, Call.incremented, position]
      · simp [Call.incremented, position]
  · cases stepped

/-- Every step of a call or of its coroutine as a replacement. -/
theorem callStep_replaces
    {config : Config}
    {system next : System}
    {index : Nat}
    {call : Call}
    {action : CallAction}
    (consistent : call.Consistent)
    (stepped : callStep config system index call action = some next) :
    ∃ new, Replaces system next index action call new := by
  have pcSame {event : EventPc} (spawned : call.event ≠ .notSpawned)
      (stillSpawned : event ≠ .notSpawned) :
      event ≠ .notSpawned ↔ (call.pc = .release ∨ call.pc = .succeeded) :=
    ⟨fun _ => consistent.spawned.1 spawned, fun _ => stillSpawned⟩
  have emitted := consistent.emitted
  cases action with
  | consume granted =>
      simp only [callStep] at stepped
      split at stepped
      · next position =>
          rw [Option.some.injEq] at stepped
          subst stepped
          refine ⟨_, .of_move consistent ?_ ?_ rfl rfl rfl⟩
          · simp [Call.incremented, position]
          · split <;> simp [Call.incremented]
      · cases stepped
  | advance => exact advanceCall_replaces consistent stepped
  | start =>
      simp only [callStep] at stepped
      split at stepped
      · next enabled =>
          simp only [Bool.and_eq_true, decide_eq_true_eq] at enabled
          have queued := enabled.1.1
          rw [queued] at emitted
          cases stepped
          refine ⟨_, rfl, rfl, ?_, ⟨?_, emitted⟩, rfl, rfl,
            fun old => .inl old, by simp [queued]⟩
          · simp [System.put, Call.counted, Call.incremented, queued]
          · exact pcSame (by simp [queued]) (by simp)
      · cases stepped
  | emit =>
      simp only [callStep] at stepped
      split at stepped
      · next running =>
          rw [running] at emitted
          cases stepped
          refine ⟨_, rfl, rfl, ?_, ⟨?_, ?_⟩, rfl, rfl,
            fun old => .inl old, by simp [running]⟩
          · simp [System.put, Call.counted, Call.incremented, running]
          · exact pcSame (by simp [running]) (by simp)
          · simp only at emitted ⊢
            omega
      · cases stepped
  | complete =>
      simp only [callStep] at stepped
      split at stepped
      · next enabled =>
          simp only [Bool.or_eq_true, Bool.and_eq_true, decide_eq_true_eq]
            at enabled
          have spawned : call.event ≠ .notSpawned := by
            rcases enabled with done | ⟨running, -⟩
            · simp [done]
            · simp [running]
          have notCompleted : call.event ≠ .completed := by
            rcases enabled with done | ⟨running, -⟩
            · simp [done]
            · simp [running]
          have incremented := consistent.incremented_of_spawned spawned
          cases stepped
          refine ⟨_, rfl, rfl, ?_, ⟨?_, ?_⟩, rfl, rfl, fun old => .inl old,
            fun _ => rfl⟩
          · simp [Call.counted, incremented, notCompleted]
          · exact pcSame spawned (by simp)
          · intro asynchronous
            rcases enabled with done | ⟨-, sync⟩
            · rw [done] at emitted
              exact emitted
            · rw [asynchronous] at sync
              cases sync
      · cases stepped
  | fail =>
      simp only [callStep] at stepped
      split at stepped
      · next enabled =>
          simp only [Bool.or_eq_true, decide_eq_true_eq] at enabled
          have spawned : call.event ≠ .notSpawned := by
            rcases enabled with running | done
            · simp [running]
            · simp [done]
          have notCompleted : call.event ≠ .completed := by
            rcases enabled with running | done
            · simp [running]
            · simp [done]
          cases stepped
          refine ⟨_, rfl, rfl, ?_, ⟨?_, trivial⟩, rfl, rfl,
            fun old => .inl old, fun done => absurd done notCompleted⟩
          · simp [System.put, Call.counted, Call.incremented, notCompleted]
          · exact pcSame spawned (by simp)
      · cases stepped

/-- Calls stay consistent. -/
theorem consistent_callStep
    {config : Config}
    {system next : System}
    {index : Nat}
    {call : Call}
    {action : CallAction}
    (consistent : ∀ call ∈ system.calls, call.Consistent)
    (present : system.calls[index]? = some call)
    (stepped : callStep config system index call action = some next) :
    ∀ call ∈ next.calls, call.Consistent := by
  obtain ⟨new, replaces⟩ := callStep_replaces
    (consistent call (List.mem_of_getElem? present)) stepped
  rw [replaces.calls]
  exact Threads.forall_mem_set consistent replaces.consistent

/-- A step of `drain` around its wait touches the pipeline state, its own
position and the pool. -/
theorem drainStep_frame
    {system next : System}
    (stepped : drainStep system = some next) :
    ∃ state drain poolJoined, next = { system with
      state := state
      drain := drain
      poolJoined := poolJoined } := by
  unfold drainStep at stepped
  split at stepped
  all_goals try split at stepped
  all_goals
    cases stepped
    try exact ⟨_, _, _, rfl⟩

/-- The test of the wait touches the position of `drain` only. -/
theorem drainTest_frame
    {config : Config}
    {system next : System}
    {expired : Bool}
    (stepped : step config system (.drainTest expired) = some next) :
    ∃ drain, next = { system with drain := drain } := by
  simp only [step] at stepped
  split at stepped
  · split at stepped
    · cases stepped
      exact ⟨_, rfl⟩
    · split at stepped
      · cases stepped
        exact ⟨_, rfl⟩
      · cases stepped
        exact ⟨_, rfl⟩
  · cases stepped

/-! ## What `in_flight_` counts -/

/-- The wait of `drain` has ended because `in_flight_` was zero. -/
def DrainPc.endedGracefully : DrainPc → Bool
  | .waitEnded graceful => graceful
  | .poolStopped graceful => graceful
  | .joined graceful => graceful
  | .returned graceful => graceful
  | _ => false

/-- `in_flight_` is the number of counted calls, and none is left after a
graceful wait. -/
structure Accounted (system : System) : Prop where
  consistent : ∀ call ∈ system.calls, call.Consistent
  inFlight : system.inFlight = (system.calls.countP Call.counted : Int)
  settled : system.drain.endedGracefully = true →
    ∀ call ∈ system.calls, call.counted = false

/-- `in_flight_` is not raised any more once the wait has ended
gracefully. -/
def NoLateIncrement (system : System) : Action → Prop
  | .call index .advance =>
      ∀ call ∈ system.calls[index]?, call.pc = .increment →
        system.drain.endedGracefully = false
  | _ => True

instance (system : System) : ∀ action, Decidable (NoLateIncrement system action)
  | .call index .advance =>
      inferInstanceAs (Decidable (∀ call ∈ system.calls[index]?,
        call.pc = .increment → system.drain.endedGracefully = false))
  | .call _ (.consume _) => .isTrue trivial
  | .call _ .start => .isTrue trivial
  | .call _ .emit => .isTrue trivial
  | .call _ .complete => .isTrue trivial
  | .call _ .fail => .isTrue trivial
  | .submit _ _ => .isTrue trivial
  | .drain => .isTrue trivial
  | .drainTest _ => .isTrue trivial

theorem accounted_initial : Accounted {} where
  consistent := by simp
  inFlight := rfl
  settled := by simp [DrainPc.endedGracefully]

/-- Once the wait has ended gracefully, no call becomes incremented. -/
theorem incremented_of_noLateIncrement
    {system next : System}
    {index : Nat}
    {action : CallAction}
    {call new : Call}
    (present : system.calls[index]? = some call)
    (replaces : Replaces system next index action call new)
    (noLateIncrement : NoLateIncrement system (.call index action))
    (ended : system.drain.endedGracefully = true)
    (incremented : new.incremented = true) :
    call.incremented = true := by
  rcases replaces.incremented incremented with before | ⟨rfl, position⟩
  · exact before
  · have notEnded := noLateIncrement call present position
    rw [ended] at notEnded
    cases notEnded

/-- A step of a call keeps the books. -/
theorem Accounted.callStep
    {config : Config}
    {system next : System}
    {index : Nat}
    {action : CallAction}
    (accounted : Accounted system)
    (noLateIncrement : NoLateIncrement system (.call index action))
    (stepped : step config system (.call index action) = some next) :
    Accounted next := by
  simp only [step] at stepped
  split at stepped
  · cases stepped
  · next call present =>
      have member : call ∈ system.calls := List.mem_of_getElem? present
      obtain ⟨new, replaces⟩ := callStep_replaces
        (accounted.consistent call member) stepped
      refine ⟨?_, ?_, ?_⟩
      · exact consistent_callStep accounted.consistent present stepped
      · have count := Threads.countP_set_add Call.counted present new
        have inFlight := replaces.inFlight
        have before := accounted.inFlight
        rw [replaces.calls]
        omega
      · intro ended
        rw [replaces.drain] at ended
        rw [replaces.calls]
        refine Threads.forall_mem_set (accounted.settled ended) ?_
        have callSettled := accounted.settled ended call member
        cases counted : new.counted with
        | false => rfl
        | true =>
            simp only [Call.counted, Bool.and_eq_true, decide_eq_true_eq]
              at counted
            have incremented := incremented_of_noLateIncrement present replaces
              noLateIncrement ended counted.1
            simp only [Call.counted, incremented, Bool.true_and,
              decide_eq_false_iff_not, not_not] at callSettled
            exact absurd (replaces.completed callSettled) counted.2

theorem Accounted.drainStep
    {system next : System}
    (accounted : Accounted system)
    (stepped : drainStep system = some next) :
    Accounted next := by
  unfold Lifecycle.drainStep at stepped
  split at stepped
  · cases stepped
    exact ⟨accounted.consistent, accounted.inFlight,
      by simp [DrainPc.endedGracefully]⟩
  · cases stepped
  · next graceful position =>
      cases stepped
      refine ⟨accounted.consistent, accounted.inFlight, fun ended => ?_⟩
      exact accounted.settled (by rw [position]; exact ended)
  · next graceful position =>
      split at stepped
      · cases stepped
        refine ⟨accounted.consistent, accounted.inFlight, fun ended => ?_⟩
        exact accounted.settled (by rw [position]; exact ended)
      · cases stepped
  · next graceful position =>
      cases stepped
      refine ⟨accounted.consistent, accounted.inFlight, fun ended => ?_⟩
      exact accounted.settled (by rw [position]; exact ended)
  · cases stepped

/-- The test of the wait: with `in_flight_` zero nothing is counted. -/
theorem Accounted.drainTest
    {config : Config}
    {system next : System}
    {expired : Bool}
    (accounted : Accounted system)
    (stepped : step config system (.drainTest expired) = some next) :
    Accounted next := by
  simp only [step] at stepped
  split at stepped
  · split at stepped
    · next nothing =>
        cases stepped
        refine ⟨accounted.consistent, accounted.inFlight, fun _ => ?_⟩
        have none : system.calls.countP Call.counted = 0 := by
          have count := accounted.inFlight
          omega
        intro call member
        rw [List.countP_eq_zero] at none
        exact Bool.eq_false_iff.2 (none call member)
    · split at stepped
      · cases stepped
        exact ⟨accounted.consistent, accounted.inFlight,
          by simp [DrainPc.endedGracefully]⟩
      · cases stepped
        exact accounted
  · cases stepped

theorem accounted_step
    {config : Config}
    (system : System)
    (action : Action)
    (next : System)
    (accounted : Accounted system)
    (noLateIncrement : NoLateIncrement system action)
    (stepped : step config system action = some next) :
    Accounted next := by
  cases action with
  | submit tenant sync =>
      cases stepped
      refine ⟨?_, ?_, ?_⟩
      · exact Threads.forall_mem_concat accounted.consistent
          (Call.consistent_new tenant sync)
      · rw [accounted.inFlight]
        simp [Call.counted, Call.incremented]
      · intro ended
        exact Threads.forall_mem_concat (accounted.settled ended) rfl
  | call index callAction => exact accounted.callStep noLateIncrement stepped
  | drain => exact accounted.drainStep stepped
  | drainTest expired => exact accounted.drainTest stepped

/-! ## A graceful drain -/

/-- A wait that has ended stays ended. -/
theorem endedGracefully_step
    {config : Config}
    {system next : System}
    {action : Action}
    (consistent : ∀ call ∈ system.calls, call.Consistent)
    (ended : system.drain.endedGracefully = true)
    (stepped : step config system action = some next) :
    next.drain.endedGracefully = true := by
  cases action with
  | submit tenant sync =>
      cases stepped
      exact ended
  | call index callAction =>
      simp only [step] at stepped
      split at stepped
      · cases stepped
      · next call present =>
          obtain ⟨new, replaces⟩ := callStep_replaces
            (consistent call (List.mem_of_getElem? present)) stepped
          rw [replaces.drain]
          exact ended
  | drain =>
      simp only [step, drainStep] at stepped
      split at stepped
      · next position =>
          rw [position] at ended
          cases ended
      · cases stepped
      · next graceful position =>
          cases stepped
          rw [position] at ended
          exact ended
      · next graceful position =>
          split at stepped
          · cases stepped
            rw [position] at ended
            exact ended
          · cases stepped
      · next graceful position =>
          cases stepped
          rw [position] at ended
          exact ended
      · cases stepped
  | drainTest expired =>
      simp only [step] at stepped
      split at stepped
      · next waiting =>
          rw [waiting] at ended
          cases ended
      · cases stepped

/-- After a graceful wait, the incremented calls are those of a fixed earlier
moment. -/
structure Frozen (moment system : System) : Prop where
  accounted : Accounted system
  ended : system.drain.endedGracefully = true
  incremented : ∀ (index : Nat) (call : Call),
    system.calls[index]? = some call → call.incremented = true →
      ∃ earlier, moment.calls[index]? = some earlier ∧
        earlier.incremented = true ∧ earlier.sync = call.sync

theorem frozen_step
    {config : Config}
    {moment : System}
    (system : System)
    (action : Action)
    (next : System)
    (frozen : Frozen moment system)
    (noLateIncrement : NoLateIncrement system action)
    (stepped : step config system action = some next) :
    Frozen moment next := by
  refine ⟨accounted_step system action next frozen.accounted noLateIncrement
    stepped, endedGracefully_step frozen.accounted.consistent frozen.ended
    stepped, ?_⟩
  intro index call present incremented
  cases action with
  | submit tenant sync =>
      cases stepped
      dsimp only at present
      rcases Threads.getElem?_concat_cases present with old | rfl
      · exact frozen.incremented index call old incremented
      · cases incremented
  | call other callAction =>
      simp only [step] at stepped
      split at stepped
      · cases stepped
      · next old oldPresent =>
          obtain ⟨new, replaces⟩ := callStep_replaces
            (frozen.accounted.consistent old
              (List.mem_of_getElem? oldPresent)) stepped
          rw [replaces.calls] at present
          rcases Threads.getElem?_set_cases present with ⟨rfl, rfl⟩ |
            ⟨-, kept⟩
          · obtain ⟨earlier, found, earlierIncremented, sameSync⟩ :=
              frozen.incremented index old oldPresent
                (incremented_of_noLateIncrement oldPresent replaces
                  noLateIncrement frozen.ended incremented)
            exact ⟨earlier, found, earlierIncremented,
              sameSync.trans replaces.sync.symm⟩
          · exact frozen.incremented index call kept incremented
  | drain =>
      obtain ⟨state, drain, poolJoined, rfl⟩ := drainStep_frame stepped
      exact frozen.incremented index call present incremented
  | drainTest expired =>
      obtain ⟨drain, rfl⟩ := drainTest_frame stepped
      exact frozen.incremented index call present incremented

/-- After a graceful wait the event of every incremented asynchronous call has
been emitted once. -/
theorem Accounted.emits_of_incremented
    {system : System}
    (accounted : Accounted system)
    (ended : system.drain.endedGracefully = true)
    {call : Call}
    (member : call ∈ system.calls)
    (incremented : call.incremented = true)
    (asynchronous : call.sync = false) :
    call.emits = 1 := by
  have settled := accounted.settled ended call member
  simp only [Call.counted, incremented, Bool.true_and,
    decide_eq_false_iff_not, not_not] at settled
  have emitted := (accounted.consistent call member).emitted
  rw [settled] at emitted
  exact emitted asynchronous

/-- No accepted event is lost by a graceful drain, as long as no call raises
`in_flight_` after the wait has ended.  Whenever `drain` has returned after a
wait that ended with `in_flight_` zero, every `submit` that has returned success
by then or later has had its event emitted exactly once when `drain`
returned. -/
theorem graceful_drain_emits
    (config : Config)
    (before after : List Action)
    (drained final : System)
    (noLateIncrement : Machine.RunMeets (step config) NoLateIncrement {}
      (before ++ after))
    (ranBefore : Machine.run (step config) {} before = some drained)
    (returned : drained.drain = .returned true)
    (ranAfter : Machine.run (step config) drained after = some final)
    (index : Nat)
    (call : Call)
    (present : final.calls[index]? = some call)
    (asynchronous : call.sync = false)
    (succeeded : call.pc = .succeeded) :
    call.emits = 1 ∧
      ∃ atReturn, drained.calls[index]? = some atReturn ∧
        atReturn.emits = 1 := by
  have ended : drained.drain.endedGracefully = true := by
    rw [returned]
    rfl
  have accounted : Accounted drained :=
    Machine.invariant_of_run_of_meets accounted_step accounted_initial
      noLateIncrement.of_append_left ranBefore
  have frozen : Frozen drained final :=
    Machine.invariant_of_run_of_meets frozen_step
      ⟨accounted, ended, fun _ call found incremented =>
        ⟨call, found, incremented, rfl⟩⟩
      (noLateIncrement.of_append ranBefore) ranAfter
  have incremented : call.incremented = true := by
    simp [Call.incremented, succeeded]
  refine ⟨frozen.accounted.emits_of_incremented frozen.ended
    (List.mem_of_getElem? present) incremented asynchronous, ?_⟩
  obtain ⟨atReturn, found, wasIncremented, sameSync⟩ :=
    frozen.incremented index call present incremented
  exact ⟨atReturn, found, accounted.emits_of_incremented ended
    (List.mem_of_getElem? found) wasIncremented
    (sameSync.trans asynchronous)⟩

/-- The steps of a `submit` whose state check has passed. -/
def restOfSubmit (index : Nat) : List Action :=
  [.call index (.consume true), .call index .advance, .call index .advance,
    .call index .advance, .call index .advance]

/-- The steps of its coroutine. -/
def runEvent (index : Nat) : List Action :=
  [.call index .start, .call index .emit, .call index .complete]

/-- The steps of a `drain` whose wait ends at once. -/
def gracefulDrain : List Action :=
  [.drain, .drainTest false, .drain, .drain, .drain]

/-- An event is submitted and run before the drain. -/
def submitThenDrain : List Action :=
  [.submit "acme" false, .call 0 .advance] ++ restOfSubmit 0 ++ runEvent 0 ++
    gracefulDrain

/-- The run `submitThenDrain` loses nothing. -/
theorem graceful_drain_emits_submitThenDrain :
    ∃ drained,
      Machine.run (step ⟨fun _ => 0, {}⟩) {} submitThenDrain = some drained ∧
        ∃ atReturn, drained.calls[0]? = some atReturn ∧
          atReturn.emits = 1 := by
  refine ⟨_, (Option.some_get (by decide)).symm, ?_⟩
  exact (graceful_drain_emits ⟨fun _ => 0, {}⟩ submitThenDrain [] _ _
    (by decide) (Option.some_get (by decide)).symm (by decide) rfl 0
    ⟨"acme", false, .succeeded, .completed, 1⟩ (by decide) rfl rfl).2

/-- The state check of a submission passes, then the whole drain runs, then
the submission goes on. -/
def drainInTheGap : List Action :=
  [.submit "acme" false, .call 0 .advance] ++ gracefulDrain ++ restOfSubmit 0

/-- The submission has returned success after a graceful drain, and its event
stands in the queue of a joined pool. -/
theorem accepted_event_lost :
    ∃ final,
      Machine.run (step ⟨fun _ => 0, {}⟩) {} drainInTheGap = some final ∧
        final.drain = .returned true ∧
        final.calls = [⟨"acme", false, .succeeded, .queued, 0⟩] ∧
        (step ⟨fun _ => 0, {}⟩ final (.call 0 .start)).isNone := by
  exact ⟨_, (Option.some_get (by decide)).symm, by decide, by decide,
    by decide⟩

end Lifecycle
end Pipeline
end Fre
