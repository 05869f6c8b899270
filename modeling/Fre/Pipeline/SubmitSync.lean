import Fre.Foundation.Machine
import Fre.Stage.EmitStage

/-!
# Synchronous submission

One call of `Pipeline::submit_sync` and the `run_event` coroutine it spawns
share a `SyncContext`: a mutex, two optionals and two flags.  This module has
both parties step by step.  A critical section of the coroutine is one step and
waits for the mutex; the caller keeps the mutex from the lock to its return,
except while it is blocked on the condition variable and after it has given up.
The deadline and the stop token are environment events that may happen at any
time, and the stages before the emission, the pipeline state and the rate
limiter are inputs.
-/

namespace Fre
namespace Pipeline
namespace SubmitSync

open Foundation Stage

/-- What the stages before the emission come to. -/
inductive Assembly
  | validationFailed
  | decided (decision : Decision)
  | threw
  deriving DecidableEq

/-- Where `submit_sync` stands.  The flag of the last states is
`cancelled_flag`. -/
inductive CallerPc
  | entry
  | stateCheck
  | acquire
  | spawn
  | release
  | lock
  | waitTest
  | waitBlocked
  | pollTest
  | pollClock
  | pollStop
  | pollBlocked
  | finished
  | expired (cancelledFlag : Bool)
  | lookDecision (cancelledFlag : Bool)
  | lastCheck (cancelledFlag : Bool)
  | returned (result : Except SubmitSyncError Decision)
  | dereferencedEmpty
  deriving DecidableEq

/-- Where `run_event` stands. -/
inductive CoroutinePc
  | notSpawned
  | queued
  | computing
  | validationExit
  | capturing (decision : Decision)
  | captured (decision : Decision)
  | emitting (decision : Decision) (emission : Emission)
  | settingDone
  | completing
  | finished
  | dead
  deriving DecidableEq

/-- Both parties, the shared context, the environment, and the record of what
the emission stage and its targets were given. -/
structure State where
  caller : CallerPc := .entry
  coroutine : CoroutinePc := .notSpawned
  decision : Option Decision := none
  error : Option SubmitSyncError := none
  cancelled : Bool := false
  done : Bool := false
  deadlinePassed : Bool := false
  stopRequested : Bool := false
  processCalls : List Decision := []
  delivered : List (Nat × Decision) := []

/-- `cancel.stop_possible()` and the configuration of the emission stage. -/
structure Config where
  stopPossible : Bool
  emit : EmitStageConfig

/-- What can happen next. -/
inductive Action
  | deadlinePasses
  | requestStop
  | checkState (running everStarted : Bool)
  | tryAcquire (granted : Bool)
  | wake (timedOut : Bool)
  | caller
  | finishStages (assembly : Assembly)
  | callTarget (outcome : TargetOutcome)
  | coroutine

/-- The caller owns the mutex. -/
def CallerPc.holdsMutex : CallerPc → Bool
  | .waitTest => true
  | .pollTest => true
  | .pollClock => true
  | .pollStop => true
  | .finished => true
  | .expired _ => true
  | .lookDecision _ => true
  | _ => false

/-- The steps of `submit_sync` that need no input. -/
def callerStep (config : Config) (state : State) : Option State :=
  match state.caller with
  | .entry =>
      some { state with
        caller :=
          if state.stopRequested then .returned (.error .cancelled)
          else .stateCheck }
  | .spawn => some { state with caller := .release, coroutine := .queued }
  | .release => some { state with caller := .lock }
  | .lock =>
      some { state with
        caller := if config.stopPossible then .pollTest else .waitTest }
  | .waitTest =>
      some { state with
        caller := if state.done then .finished else .waitBlocked }
  | .pollTest =>
      some { state with
        caller := if state.done then .finished else .pollClock }
  | .pollClock =>
      some { state with
        caller := if state.deadlinePassed then .expired false else .pollStop }
  | .pollStop =>
      some { state with
        caller := if state.stopRequested then .expired true else .pollBlocked }
  | .finished =>
      match state.error, state.decision with
      | some error, _ => some { state with caller := .returned (.error error) }
      | none, some decision =>
          some { state with caller := .returned (.ok decision) }
      | none, none => some { state with caller := .dereferencedEmpty }
  | .expired cancelledFlag =>
      some { state with
        caller := .lookDecision cancelledFlag
        cancelled := true }
  | .lookDecision cancelledFlag =>
      match state.decision with
      | some decision =>
          some { state with caller := .returned (.ok decision) }
      | none => some { state with caller := .lastCheck cancelledFlag }
  | .lastCheck cancelledFlag =>
      some { state with
        caller :=
          if cancelledFlag || state.stopRequested then
            .returned (.error .cancelled)
          else .returned (.error .timeout) }
  | _ => none

/-- A blocked caller wakes up with the mutex: the whole wait is over only at
the deadline, a slice of it at any time. -/
def wakeStep (state : State) (timedOut : Bool) : Option State :=
  match state.caller with
  | .waitBlocked =>
      if timedOut && !state.deadlinePassed then none
      else if state.done then some { state with caller := .finished }
      else if timedOut then some { state with caller := .expired false }
      else some state
  | .pollBlocked =>
      if state.done || timedOut then some { state with caller := .pollTest }
      else some state
  | _ => none

/-- The steps of `run_event` that need no input.  The critical sections wait
for the mutex. -/
def coroutineStep (config : Config) (state : State) : Option State :=
  match state.coroutine with
  | .queued => some { state with coroutine := .computing }
  | .validationExit =>
      if state.caller.holdsMutex then none
      else
        some { state with
          coroutine := .completing
          error := some .validationFailed
          done := true }
  | .capturing decision =>
      if state.caller.holdsMutex then none
      else if state.cancelled then some { state with coroutine := .completing }
      else
        some { state with
          coroutine := .captured decision
          decision := some decision }
  | .captured decision =>
      some { state with
        coroutine := .emitting decision {}
        processCalls := state.processCalls ++ [decision] }
  | .emitting _ emission =>
      if config.emit.targets ≤ emission.target then
        some { state with coroutine := .settingDone }
      else none
  | .settingDone =>
      if state.caller.holdsMutex then none
      else some { state with coroutine := .completing, done := true }
  | .completing => some { state with coroutine := .finished }
  | _ => none

/-- One step of one party or of the environment. -/
def step (config : Config) (state : State) : Action → Option State
  | .deadlinePasses => some { state with deadlinePassed := true }
  | .requestStop =>
      if config.stopPossible then some { state with stopRequested := true }
      else none
  | .checkState running everStarted =>
      match state.caller with
      | .stateCheck =>
          some { state with
            caller :=
              if running then .acquire
              else if everStarted then .returned (.error .pipelineUnavailable)
              else .returned (.error .notStarted) }
      | _ => none
  | .tryAcquire granted =>
      match state.caller with
      | .acquire =>
          some { state with
            caller :=
              if granted then .spawn else .returned (.error .rateLimited) }
      | _ => none
  | .wake timedOut => wakeStep state timedOut
  | .caller => callerStep config state
  | .finishStages assembly =>
      match state.coroutine with
      | .computing =>
          some { state with
            coroutine :=
              match assembly with
              | .validationFailed => .validationExit
              | .decided decision => .capturing decision
              | .threw => .dead }
      | _ => none
  | .callTarget outcome =>
      match state.coroutine with
      | .emitting decision emission =>
          if emission.target < config.emit.targets then
            some { state with
              coroutine :=
                match emission.afterCall config.emit outcome with
                | some after => .emitting decision after
                | none => .dead
              delivered :=
                if outcome = .delivered then
                  state.delivered ++ [(emission.target, decision)]
                else state.delivered }
          else none
      | _ => none
  | .coroutine => coroutineStep config state

/-! ## The agreement of the two parties -/

/-- The coroutine has written nothing. -/
def State.Untouched (state : State) : Prop :=
  state.decision = none ∧ state.error = none ∧ state.done = false ∧
    state.processCalls = []

/-- The coroutine has captured a decision and made these calls of the emission
stage. -/
def State.Holding
    (state : State)
    (decision : Decision)
    (calls : List Decision)
    (done : Bool) : Prop :=
  state.decision = some decision ∧ state.error = none ∧ state.done = done ∧
    state.processCalls = calls

/-- The coroutine is over without a decision: after a validation error, or
because the caller had given up. -/
def State.WithoutDecision (state : State) : Prop :=
  state.decision = none ∧ state.processCalls = [] ∧
    ((state.error.isSome ∧ state.done = true) ∨
      (state.error = none ∧ state.done = false))

/-- What the position of the coroutine says about the context. -/
def CoroutineFacts (state : State) : Prop :=
  match state.coroutine with
  | .notSpawned => state.Untouched
  | .queued => state.Untouched
  | .computing => state.Untouched
  | .validationExit => state.Untouched
  | .capturing _ => state.Untouched
  | .captured decision => state.Holding decision [] false
  | .emitting decision _ => state.Holding decision [decision] false
  | .settingDone => ∃ decision, state.Holding decision [decision] false
  | .completing =>
      (∃ decision, state.Holding decision [decision] true) ∨
        state.WithoutDecision
  | .finished =>
      (∃ decision, state.Holding decision [decision] true) ∨
        state.WithoutDecision
  | .dead =>
      state.Untouched ∨ ∃ decision, state.Holding decision [decision] false

/-- What the position of the caller says about the context. -/
def CallerFacts (state : State) : Prop :=
  match state.caller with
  | .entry => state.coroutine = .notSpawned
  | .stateCheck => state.coroutine = .notSpawned
  | .acquire => state.coroutine = .notSpawned
  | .spawn => state.coroutine = .notSpawned
  | .finished => state.done = true
  | .lookDecision _ => state.cancelled = true
  | .lastCheck _ => state.cancelled = true ∧ state.decision = none
  | .returned (.ok decision) => state.decision = some decision
  | .returned (.error _) =>
      state.decision = none ∧
        (state.coroutine = .notSpawned ∨ state.cancelled = true ∨
          state.error.isSome)
  | .dereferencedEmpty => False
  | _ => True

/-- The invariant of the two parties. -/
structure Agreement (state : State) : Prop where
  coroutineFacts : CoroutineFacts state
  callerFacts : CallerFacts state

theorem agreement_initial : Agreement {} where
  coroutineFacts := ⟨rfl, rfl, rfl, rfl⟩
  callerFacts := rfl

/-- The four situations of the context. -/
theorem CoroutineFacts.situation
    {state : State}
    (facts : CoroutineFacts state) :
    state.Untouched ∨
      (∃ decision, state.coroutine = .captured decision ∧
        state.Holding decision [] false) ∨
      (∃ decision done, state.Holding decision [decision] done) ∨
      state.WithoutDecision := by
  unfold CoroutineFacts at facts
  split at facts
  · exact .inl facts
  · exact .inl facts
  · exact .inl facts
  · exact .inl facts
  · exact .inl facts
  · next decision position => exact .inr (.inl ⟨decision, position, facts⟩)
  · next decision emission position =>
      exact .inr (.inr (.inl ⟨decision, false, facts⟩))
  · obtain ⟨decision, held⟩ := facts
    exact .inr (.inr (.inl ⟨decision, false, held⟩))
  · exact .inr (.inr (facts.imp (fun ⟨decision, held⟩ =>
      ⟨decision, true, held⟩) id))
  · exact .inr (.inr (facts.imp (fun ⟨decision, held⟩ =>
      ⟨decision, true, held⟩) id))
  · rcases facts with nothing | ⟨decision, held⟩
    · exact .inl nothing
    · exact .inr (.inr (.inl ⟨decision, false, held⟩))

/-- Once `done` is set there is an error or a decision to return. -/
theorem CoroutineFacts.of_done
    {state : State}
    (facts : CoroutineFacts state)
    (done : state.done = true) :
    (∃ decision, state.Holding decision [decision] true) ∨
      (state.decision = none ∧ state.processCalls = [] ∧
        state.error.isSome) := by
  have contradiction (notDone : state.done = false) : False := by
    rw [done] at notDone
    cases notDone
  rcases facts.situation with ⟨-, -, notDone, -⟩ |
    ⟨decision, -, -, -, notDone, -⟩ |
    ⟨decision, flag, present, noError, sameFlag, calls⟩ |
    ⟨noDecision, noCalls, ⟨failed, -⟩ | ⟨-, notDone⟩⟩
  · exact (contradiction notDone).elim
  · exact (contradiction notDone).elim
  · exact .inl ⟨decision, present, noError, done, calls⟩
  · exact .inr ⟨noDecision, noCalls, failed⟩
  · exact (contradiction notDone).elim

/-- Only the position of the caller changes. -/
theorem Agreement.move
    {state : State}
    (agreement : Agreement state)
    {position : CallerPc}
    (facts : CallerFacts { state with caller := position }) :
    Agreement { state with caller := position } :=
  ⟨agreement.coroutineFacts, facts⟩

/-- Before the spawn, any error may be returned. -/
theorem Agreement.refuse
    {state : State}
    (agreement : Agreement state)
    (notSpawned : state.coroutine = .notSpawned)
    (error : SubmitSyncError) :
    Agreement { state with caller := .returned (.error error) } := by
  have untouched : state.Untouched := by
    have facts := agreement.coroutineFacts
    rw [CoroutineFacts, notSpawned] at facts
    exact facts
  apply agreement.move
  exact ⟨untouched.1, .inl notSpawned⟩

/-- The caller that finds `done` set returns the error or the decision. -/
theorem Agreement.finish
    {config : Config}
    {state next : State}
    (agreement : Agreement state)
    (position : state.caller = .finished)
    (stepped : callerStep config state = some next) :
    Agreement next := by
  have done : state.done = true := by
    have facts := agreement.callerFacts
    rw [CallerFacts, position] at facts
    exact facts
  have toReturn := agreement.coroutineFacts.of_done done
  simp only [callerStep, position] at stepped
  split at stepped
  · next error failed =>
      cases stepped
      apply agreement.move
      rcases toReturn with ⟨decision, -, noError, -, -⟩ | ⟨noDecision, -, some⟩
      · rw [failed] at noError
        cases noError
      · exact ⟨noDecision, .inr (.inr some)⟩
  · next decision noError present =>
      cases stepped
      apply agreement.move
      exact present
  · next noError absent =>
      rcases toReturn with ⟨decision, present, -, -, -⟩ | ⟨-, -, failed⟩
      · rw [absent] at present
        cases present
      · rw [noError] at failed
        cases failed

/-- A step of the caller without input keeps the agreement. -/
theorem Agreement.callerStep
    {config : Config}
    {state next : State}
    (agreement : Agreement state)
    (stepped : callerStep config state = some next) :
    Agreement next := by
  have facts := agreement.callerFacts
  cases position : state.caller with
  | entry =>
      simp only [CallerFacts, position] at facts
      simp only [SubmitSync.callerStep, position, Option.some.injEq] at stepped
      subst stepped
      split
      · exact agreement.refuse facts .cancelled
      · apply agreement.move
        exact facts
  | spawn =>
      simp only [CallerFacts, position] at facts
      simp only [SubmitSync.callerStep, position, Option.some.injEq] at stepped
      subst stepped
      have untouched := agreement.coroutineFacts
      rw [CoroutineFacts, facts] at untouched
      exact ⟨untouched, trivial⟩
  | release =>
      simp only [SubmitSync.callerStep, position, Option.some.injEq] at stepped
      subst stepped
      apply agreement.move
      exact trivial
  | lock =>
      simp only [SubmitSync.callerStep, position, Option.some.injEq] at stepped
      subst stepped
      split
      · apply agreement.move
        exact trivial
      · apply agreement.move
        exact trivial
  | waitTest =>
      simp only [SubmitSync.callerStep, position, Option.some.injEq] at stepped
      subst stepped
      split
      · next done =>
          apply agreement.move
          exact done
      · apply agreement.move
        exact trivial
  | pollTest =>
      simp only [SubmitSync.callerStep, position, Option.some.injEq] at stepped
      subst stepped
      split
      · next done =>
          apply agreement.move
          exact done
      · apply agreement.move
        exact trivial
  | pollClock =>
      simp only [SubmitSync.callerStep, position, Option.some.injEq] at stepped
      subst stepped
      split
      · apply agreement.move
        exact trivial
      · apply agreement.move
        exact trivial
  | pollStop =>
      simp only [SubmitSync.callerStep, position, Option.some.injEq] at stepped
      subst stepped
      split
      · apply agreement.move
        exact trivial
      · apply agreement.move
        exact trivial
  | finished => exact agreement.finish position stepped
  | expired cancelledFlag =>
      simp only [SubmitSync.callerStep, position, Option.some.injEq] at stepped
      subst stepped
      exact ⟨agreement.coroutineFacts, rfl⟩
  | lookDecision cancelledFlag =>
      simp only [CallerFacts, position] at facts
      simp only [SubmitSync.callerStep, position] at stepped
      split at stepped
      · next decision present =>
          cases stepped
          apply agreement.move
          exact present
      · next absent =>
          cases stepped
          apply agreement.move
          exact ⟨facts, absent⟩
  | lastCheck cancelledFlag =>
      simp only [CallerFacts, position] at facts
      simp only [SubmitSync.callerStep, position, Option.some.injEq] at stepped
      subst stepped
      split
      · apply agreement.move
        exact ⟨facts.2, .inr (.inl facts.1)⟩
      · apply agreement.move
        exact ⟨facts.2, .inr (.inl facts.1)⟩
  | stateCheck => simp [SubmitSync.callerStep, position] at stepped
  | acquire => simp [SubmitSync.callerStep, position] at stepped
  | waitBlocked => simp [SubmitSync.callerStep, position] at stepped
  | pollBlocked => simp [SubmitSync.callerStep, position] at stepped
  | returned result => simp [SubmitSync.callerStep, position] at stepped
  | dereferencedEmpty => simp [SubmitSync.callerStep, position] at stepped

/-- A caller that wakes up keeps the agreement. -/
theorem Agreement.wakeStep
    {state next : State}
    (agreement : Agreement state)
    {timedOut : Bool}
    (stepped : wakeStep state timedOut = some next) :
    Agreement next := by
  unfold SubmitSync.wakeStep at stepped
  split at stepped
  · split at stepped
    · cases stepped
    · split at stepped
      · next done =>
          cases stepped
          apply agreement.move
          exact done
      · split at stepped
        · cases stepped
          apply agreement.move
          exact trivial
        · cases stepped
          exact agreement
  · split at stepped
    · cases stepped
      apply agreement.move
      exact trivial
    · cases stepped
      exact agreement
  · cases stepped

/-- What is known of the caller survives a step of the running coroutine that
leaves the decision alone. -/
theorem CallerFacts.later
    {state next : State}
    (facts : CallerFacts state)
    (spawned : state.coroutine ≠ .notSpawned)
    (sameCaller : next.caller = state.caller)
    (sameDecision : next.decision = state.decision)
    (sameCancelled : next.cancelled = state.cancelled)
    (doneGrows : state.done = true → next.done = true)
    (errorGrows : state.error.isSome → next.error.isSome) :
    CallerFacts next := by
  unfold CallerFacts at facts ⊢
  rw [sameCaller, sameDecision, sameCancelled]
  split at facts
  · exact absurd facts spawned
  · exact absurd facts spawned
  · exact absurd facts spawned
  · exact absurd facts spawned
  · exact doneGrows facts
  · exact facts
  · exact facts
  · exact facts
  · refine ⟨facts.1, .inr ?_⟩
    rcases facts.2 with notSpawned | cancelled | failed
    · exact absurd notSpawned spawned
    · exact .inl cancelled
    · exact .inr (errorGrows failed)
  · exact facts
  · trivial

/-- A coroutine that captures its decision finds a caller that has not
returned an error. -/
theorem CallerFacts.capture
    {state : State}
    (facts : CallerFacts state)
    {decision : Decision}
    (capturing : state.coroutine = .capturing decision)
    (untouched : state.Untouched)
    (notCancelled : state.cancelled = false) :
    CallerFacts { state with
      coroutine := .captured decision
      decision := some decision } := by
  obtain ⟨noDecision, noError, notDone, -⟩ := untouched
  unfold CallerFacts at facts ⊢
  dsimp only
  split at facts
  · rw [capturing] at facts
    cases facts
  · rw [capturing] at facts
    cases facts
  · rw [capturing] at facts
    cases facts
  · rw [capturing] at facts
    cases facts
  · exact facts
  · exact facts
  · rw [notCancelled] at facts
    cases facts.1
  · rw [noDecision] at facts
    cases facts
  · rcases facts.2 with notSpawned | cancelled | failed
    · rw [capturing] at notSpawned
      cases notSpawned
    · rw [notCancelled] at cancelled
      cases cancelled
    · rw [noError] at failed
      cases failed
  · exact facts
  · trivial

/-- A step of the coroutine without input keeps the agreement. -/
theorem Agreement.coroutineStep
    {config : Config}
    {state next : State}
    (agreement : Agreement state)
    (stepped : coroutineStep config state = some next) :
    Agreement next := by
  obtain ⟨facts, callerFacts⟩ := agreement
  cases position : state.coroutine with
  | queued =>
      simp only [SubmitSync.coroutineStep, position, Option.some.injEq]
        at stepped
      simp only [CoroutineFacts, position] at facts
      subst stepped
      exact ⟨facts, callerFacts.later (by simp [position]) rfl rfl rfl id id⟩
  | validationExit =>
      simp only [SubmitSync.coroutineStep, position] at stepped
      simp only [CoroutineFacts, position] at facts
      split at stepped
      · cases stepped
      · cases stepped
        refine ⟨.inr ⟨facts.1, facts.2.2.2, .inl ⟨rfl, rfl⟩⟩, ?_⟩
        exact callerFacts.later (by simp [position]) rfl rfl rfl
          (fun _ => rfl) (fun _ => rfl)
  | capturing decision =>
      simp only [SubmitSync.coroutineStep, position] at stepped
      simp only [CoroutineFacts, position] at facts
      split at stepped
      · cases stepped
      · split at stepped
        · cases stepped
          obtain ⟨noDecision, noError, notDone, noCalls⟩ := facts
          refine ⟨.inr ⟨noDecision, noCalls, .inr ⟨noError, notDone⟩⟩, ?_⟩
          exact callerFacts.later (by simp [position]) rfl rfl rfl id id
        · next notCancelled =>
            cases stepped
            refine ⟨⟨rfl, facts.2⟩, ?_⟩
            exact callerFacts.capture position facts
              (Bool.not_eq_true _ ▸ notCancelled)
  | captured decision =>
      simp only [SubmitSync.coroutineStep, position, Option.some.injEq]
        at stepped
      simp only [CoroutineFacts, position] at facts
      subst stepped
      obtain ⟨present, noError, notDone, noCalls⟩ := facts
      refine ⟨⟨present, noError, notDone, ?_⟩, ?_⟩
      · rw [noCalls]
        rfl
      · exact callerFacts.later (by simp [position]) rfl rfl rfl id id
  | emitting decision emission =>
      simp only [SubmitSync.coroutineStep, position] at stepped
      simp only [CoroutineFacts, position] at facts
      split at stepped
      · cases stepped
        refine ⟨⟨decision, facts⟩, ?_⟩
        exact callerFacts.later (by simp [position]) rfl rfl rfl id id
      · cases stepped
  | settingDone =>
      simp only [SubmitSync.coroutineStep, position] at stepped
      simp only [CoroutineFacts, position] at facts
      split at stepped
      · cases stepped
      · cases stepped
        obtain ⟨decision, present, noError, -, calls⟩ := facts
        refine ⟨.inl ⟨decision, present, noError, rfl, calls⟩, ?_⟩
        exact callerFacts.later (by simp [position]) rfl rfl rfl
          (fun _ => rfl) id
  | completing =>
      simp only [SubmitSync.coroutineStep, position, Option.some.injEq]
        at stepped
      simp only [CoroutineFacts, position] at facts
      subst stepped
      exact ⟨facts, callerFacts.later (by simp [position]) rfl rfl rfl id id⟩
  | notSpawned => simp [SubmitSync.coroutineStep, position] at stepped
  | computing => simp [SubmitSync.coroutineStep, position] at stepped
  | finished => simp [SubmitSync.coroutineStep, position] at stepped
  | dead => simp [SubmitSync.coroutineStep, position] at stepped

/-- Every step keeps the agreement. -/
theorem agreement_step
    {config : Config}
    (state : State)
    (action : Action)
    (next : State)
    (agreement : Agreement state)
    (stepped : step config state action = some next) :
    Agreement next := by
  cases action with
  | deadlinePasses =>
      cases stepped
      exact ⟨agreement.coroutineFacts, agreement.callerFacts⟩
  | requestStop =>
      simp only [step] at stepped
      split at stepped
      · cases stepped
        exact ⟨agreement.coroutineFacts, agreement.callerFacts⟩
      · cases stepped
  | checkState running everStarted =>
      simp only [step] at stepped
      split at stepped
      · next position =>
          have facts := agreement.callerFacts
          simp only [CallerFacts, position] at facts
          rw [Option.some.injEq] at stepped
          subst stepped
          split
          · apply agreement.move
            exact facts
          · split
            · exact agreement.refuse facts .pipelineUnavailable
            · exact agreement.refuse facts .notStarted
      · cases stepped
  | tryAcquire granted =>
      simp only [step] at stepped
      split at stepped
      · next position =>
          have facts := agreement.callerFacts
          simp only [CallerFacts, position] at facts
          rw [Option.some.injEq] at stepped
          subst stepped
          split
          · apply agreement.move
            exact facts
          · exact agreement.refuse facts .rateLimited
      · cases stepped
  | wake timedOut => exact agreement.wakeStep stepped
  | caller => exact agreement.callerStep stepped
  | finishStages assembly =>
      simp only [step] at stepped
      split at stepped
      · next position =>
          have facts := agreement.coroutineFacts
          simp only [CoroutineFacts, position] at facts
          rw [Option.some.injEq] at stepped
          subst stepped
          refine ⟨?_, agreement.callerFacts.later (by simp [position]) rfl rfl
            rfl id id⟩
          cases assembly with
          | validationFailed => exact facts
          | decided decision => exact facts
          | threw => exact .inl facts
      · cases stepped
  | callTarget outcome =>
      simp only [step] at stepped
      split at stepped
      · next decision emission position =>
          have facts := agreement.coroutineFacts
          simp only [CoroutineFacts, position] at facts
          split at stepped
          · rw [Option.some.injEq] at stepped
            subst stepped
            refine ⟨?_, agreement.callerFacts.later (by simp [position]) rfl
              rfl rfl id id⟩
            cases emission.afterCall config.emit outcome with
            | some after => exact facts
            | none => exact .inr ⟨decision, facts⟩
          · cases stepped
      · cases stepped
  | coroutine => exact agreement.coroutineStep stepped

theorem agreement_of_run
    {config : Config}
    {actions : List Action}
    {final : State}
    (ran : Machine.run (step config) {} actions = some final) :
    Agreement final :=
  Machine.invariant_of_run agreement_step agreement_initial ran

/-! ## Outcomes -/

/-- A captured decision has been given to the emission stage, or is about to
be. -/
theorem CoroutineFacts.of_decision
    {state : State}
    (facts : CoroutineFacts state)
    {decision : Decision}
    (present : state.decision = some decision) :
    state.processCalls = [decision] ∨
      (state.coroutine = .captured decision ∧ state.processCalls = []) := by
  have contradiction (absent : state.decision = none) : False := by
    rw [present] at absent
    cases absent
  rcases facts.situation with ⟨absent, -⟩ |
    ⟨other, position, otherPresent, -, -, noCalls⟩ |
    ⟨other, flag, otherPresent, -, -, calls⟩ | ⟨absent, -⟩
  · exact (contradiction absent).elim
  · rw [present, Option.some.injEq] at otherPresent
    exact .inr ⟨otherPresent ▸ position, noCalls⟩
  · rw [present, Option.some.injEq] at otherPresent
    exact .inl (otherPresent ▸ calls)
  · exact (contradiction absent).elim

/-- Without a captured decision the emission stage has not been called. -/
theorem CoroutineFacts.of_no_decision
    {state : State}
    (facts : CoroutineFacts state)
    (absent : state.decision = none) :
    state.processCalls = [] := by
  have contradiction {decision : Decision}
      (present : state.decision = some decision) : False := by
    rw [absent] at present
    cases present
  rcases facts.situation with ⟨-, -, -, noCalls⟩ |
    ⟨decision, -, present, -⟩ | ⟨decision, flag, present, -⟩ |
    ⟨-, noCalls, -⟩
  · exact noCalls
  · exact (contradiction present).elim
  · exact (contradiction present).elim
  · exact noCalls

theorem Agreement.of_returned_error
    {state : State}
    (agreement : Agreement state)
    {error : SubmitSyncError}
    (returned : state.caller = .returned (.error error)) :
    state.decision = none := by
  have facts := agreement.callerFacts
  simp only [CallerFacts, returned] at facts
  exact facts.1

theorem Agreement.of_returned_ok
    {state : State}
    (agreement : Agreement state)
    {decision : Decision}
    (returned : state.caller = .returned (.ok decision)) :
    state.decision = some decision := by
  have facts := agreement.callerFacts
  simp only [CallerFacts, returned] at facts
  exact facts

theorem Agreement.of_mem_processCalls
    {state : State}
    (agreement : Agreement state)
    {decision : Decision}
    (called : decision ∈ state.processCalls) :
    state.processCalls = [decision] ∧ state.decision = some decision := by
  cases present : state.decision with
  | none =>
      rw [agreement.coroutineFacts.of_no_decision present] at called
      exact absurd called List.not_mem_nil
  | some captured =>
      rcases agreement.coroutineFacts.of_decision present with calls |
        ⟨-, noCalls⟩
      · rw [calls, List.mem_singleton] at called
        subst called
        exact ⟨calls, rfl⟩
      · rw [noCalls] at called
        exact absurd called List.not_mem_nil

/-! ## What each party leaves alone -/

/-- The action is a step of the caller. -/
def Action.OfCaller : Action → Prop
  | .checkState _ _ => True
  | .tryAcquire _ => True
  | .wake _ => True
  | .caller => True
  | _ => False

/-- A caller that has not returned changes nothing but its position, the flag
`cancelled` and, at the spawn, the coroutine. -/
def CallerMoves (state next : State) : Prop :=
  (∀ result, state.caller ≠ .returned result) ∧
    ∃ position coroutine cancelled,
      next = { state with
        caller := position
        coroutine := coroutine
        cancelled := cancelled } ∧
      (coroutine = state.coroutine ∨
        (state.caller = .spawn ∧ coroutine = .queued))

theorem callerMoves_callerStep
    {config : Config}
    {state next : State}
    (stepped : callerStep config state = some next) :
    CallerMoves state next := by
  refine ⟨fun result returned => ?_, ?_⟩
  · simp [callerStep, returned] at stepped
  · unfold callerStep at stepped
    split at stepped
    · cases stepped
      exact ⟨_, _, _, rfl, .inl rfl⟩
    · next spawning =>
        cases stepped
        exact ⟨_, _, _, rfl, .inr ⟨spawning, rfl⟩⟩
    all_goals try split at stepped
    all_goals
      cases stepped
      try exact ⟨_, _, _, rfl, .inl rfl⟩

theorem callerMoves_wakeStep
    {state next : State}
    {timedOut : Bool}
    (stepped : wakeStep state timedOut = some next) :
    CallerMoves state next := by
  refine ⟨fun result returned => ?_, ?_⟩
  · simp [wakeStep, returned] at stepped
  · unfold wakeStep at stepped
    split at stepped
    all_goals try split at stepped
    all_goals try split at stepped
    all_goals try split at stepped
    all_goals
      cases stepped
      try exact ⟨_, _, _, rfl, .inl rfl⟩

/-- Every step of the caller is such a move. -/
theorem callerMoves_of_step
    {config : Config}
    {state next : State}
    {action : Action}
    (stepped : step config state action = some next)
    (ofCaller : action.OfCaller) :
    CallerMoves state next := by
  cases action with
  | checkState running everStarted =>
      simp only [step] at stepped
      split at stepped
      · next position =>
          cases stepped
          exact ⟨by simp [position], _, _, _, rfl, .inl rfl⟩
      · cases stepped
  | tryAcquire granted =>
      simp only [step] at stepped
      split at stepped
      · next position =>
          cases stepped
          exact ⟨by simp [position], _, _, _, rfl, .inl rfl⟩
      · cases stepped
  | wake timedOut => exact callerMoves_wakeStep stepped
  | caller => exact callerMoves_callerStep stepped
  | _ => exact absurd ofCaller id

/-- A step of the coroutine without input leaves the caller alone, and the
decision too, unless it captures one. -/
theorem coroutineStep_frame
    {config : Config}
    {state next : State}
    (stepped : coroutineStep config state = some next) :
    next.caller = state.caller ∧ next.delivered = state.delivered ∧
      (next.decision = state.decision ∨
        ∃ decision, state.coroutine = .capturing decision) := by
  unfold coroutineStep at stepped
  split at stepped
  · cases stepped
    exact ⟨rfl, rfl, .inl rfl⟩
  · split at stepped
    · cases stepped
    · cases stepped
      exact ⟨rfl, rfl, .inl rfl⟩
  · next decision capturing =>
      split at stepped
      · cases stepped
      · split at stepped
        · cases stepped
          exact ⟨rfl, rfl, .inl rfl⟩
        · cases stepped
          exact ⟨rfl, rfl, .inr ⟨decision, capturing⟩⟩
  · cases stepped
    exact ⟨rfl, rfl, .inl rfl⟩
  · split at stepped
    · cases stepped
      exact ⟨rfl, rfl, .inl rfl⟩
    · cases stepped
  · split at stepped
    · cases stepped
    · cases stepped
      exact ⟨rfl, rfl, .inl rfl⟩
  · cases stepped
    exact ⟨rfl, rfl, .inl rfl⟩
  · cases stepped

/-- A step is a move of the caller, or it leaves the caller alone, takes no
delivery back, and changes the decision only at the capture. -/
theorem step_cases
    {config : Config}
    {state next : State}
    {action : Action}
    (stepped : step config state action = some next) :
    (action.OfCaller ∧ CallerMoves state next) ∨
      (next.caller = state.caller ∧ state.delivered ⊆ next.delivered ∧
        (next.decision = state.decision ∨
          ∃ decision, state.coroutine = .capturing decision)) := by
  cases action with
  | deadlinePasses =>
      cases stepped
      exact .inr ⟨rfl, List.Subset.refl _, .inl rfl⟩
  | requestStop =>
      simp only [step] at stepped
      split at stepped
      · cases stepped
        exact .inr ⟨rfl, List.Subset.refl _, .inl rfl⟩
      · cases stepped
  | finishStages assembly =>
      simp only [step] at stepped
      split at stepped
      · cases stepped
        exact .inr ⟨rfl, List.Subset.refl _, .inl rfl⟩
      · cases stepped
  | callTarget outcome =>
      simp only [step] at stepped
      split at stepped
      · split at stepped
        · cases stepped
          refine .inr ⟨rfl, ?_, .inl rfl⟩
          dsimp only
          split
          · exact List.subset_append_left _ _
          · exact List.Subset.refl _
        · cases stepped
      · cases stepped
  | coroutine =>
      obtain ⟨sameCaller, sameDelivered, decision⟩ :=
        coroutineStep_frame stepped
      exact .inr ⟨sameCaller, sameDelivered ▸ List.Subset.refl _, decision⟩
  | _ => exact .inl ⟨trivial, callerMoves_of_step stepped trivial⟩

/-- A decision once captured stays. -/
theorem decision_step
    {config : Config}
    {decision : Decision}
    (state : State)
    (action : Action)
    (next : State)
    (holds : Agreement state ∧ state.decision = some decision)
    (stepped : step config state action = some next) :
    Agreement next ∧ next.decision = some decision := by
  obtain ⟨agreement, present⟩ := holds
  refine ⟨agreement_step state action next agreement stepped, ?_⟩
  rcases step_cases stepped with
    ⟨-, -, position, coroutine, cancelled, rfl, -⟩ |
    ⟨-, -, same | ⟨other, capturing⟩⟩
  · exact present
  · rw [same, present]
  · have facts := agreement.coroutineFacts
    simp only [CoroutineFacts, capturing] at facts
    rw [facts.1] at present
    cases present

/-- A result once returned stays. -/
theorem returned_step
    {config : Config}
    {result : Except SubmitSyncError Decision}
    (state : State)
    (action : Action)
    (next : State)
    (returned : state.caller = .returned result)
    (stepped : step config state action = some next) :
    next.caller = .returned result := by
  rcases step_cases stepped with ⟨-, notReturned, -⟩ | ⟨sameCaller, -, -⟩
  · exact absurd returned (notReturned result)
  · rw [sameCaller, returned]

/-! ## The caller returns -/

/-- A bound on the steps of the caller before its return, once the deadline has
passed. -/
def CallerPc.stepsLeft : CallerPc → Nat
  | .entry => 13
  | .stateCheck => 12
  | .acquire => 11
  | .spawn => 10
  | .release => 9
  | .lock => 8
  | .pollStop => 7
  | .pollBlocked => 6
  | .waitTest => 5
  | .pollTest => 5
  | .waitBlocked => 4
  | .pollClock => 4
  | .expired _ => 3
  | .lookDecision _ => 2
  | .lastCheck _ => 1
  | .finished => 1
  | .returned _ => 0
  | .dereferencedEmpty => 0

/-- Once the deadline has passed, a caller that has not returned has a step
that brings it nearer to its return. -/
theorem exists_nearer_step
    (config : Config)
    {state : State}
    (agreement : Agreement state)
    (passed : state.deadlinePassed = true)
    (notReturned : ¬ ∃ result, state.caller = .returned result) :
    ∃ action next, action.OfCaller ∧ step config state action = some next ∧
      next.caller.stepsLeft < state.caller.stepsLeft := by
  have facts := agreement.callerFacts
  cases position : state.caller with
  | entry =>
      refine ⟨.caller, _, trivial,
        by simp only [step, callerStep, position]; rfl, ?_⟩
      dsimp only
      split <;> simp [CallerPc.stepsLeft]
  | stateCheck =>
      refine ⟨.checkState true true, _, trivial,
        by simp only [step, position]; rfl, ?_⟩
      simp [CallerPc.stepsLeft]
  | acquire =>
      refine ⟨.tryAcquire true, _, trivial,
        by simp only [step, position]; rfl, ?_⟩
      simp [CallerPc.stepsLeft]
  | spawn =>
      refine ⟨.caller, _, trivial,
        by simp only [step, callerStep, position]; rfl, ?_⟩
      simp [CallerPc.stepsLeft]
  | release =>
      refine ⟨.caller, _, trivial,
        by simp only [step, callerStep, position]; rfl, ?_⟩
      simp [CallerPc.stepsLeft]
  | lock =>
      refine ⟨.caller, _, trivial,
        by simp only [step, callerStep, position]; rfl, ?_⟩
      dsimp only
      split <;> simp [CallerPc.stepsLeft]
  | waitTest =>
      refine ⟨.caller, _, trivial,
        by simp only [step, callerStep, position]; rfl, ?_⟩
      dsimp only
      split <;> simp [CallerPc.stepsLeft]
  | waitBlocked =>
      cases done : state.done with
      | true =>
          refine ⟨.wake true, { state with caller := .finished }, trivial, ?_,
            ?_⟩
          · simp [step, wakeStep, position, passed, done]
          · simp [CallerPc.stepsLeft]
      | false =>
          refine ⟨.wake true, { state with caller := .expired false }, trivial,
            ?_, ?_⟩
          · simp [step, wakeStep, position, passed, done]
          · simp [CallerPc.stepsLeft]
  | pollTest =>
      refine ⟨.caller, _, trivial,
        by simp only [step, callerStep, position]; rfl, ?_⟩
      dsimp only
      split <;> simp [CallerPc.stepsLeft]
  | pollClock =>
      refine ⟨.caller, _, trivial,
        by simp only [step, callerStep, position]; rfl, ?_⟩
      simp [CallerPc.stepsLeft, passed]
  | pollStop =>
      refine ⟨.caller, _, trivial,
        by simp only [step, callerStep, position]; rfl, ?_⟩
      dsimp only
      split <;> simp [CallerPc.stepsLeft]
  | pollBlocked =>
      refine ⟨.wake true, { state with caller := .pollTest }, trivial, ?_, ?_⟩
      · simp [step, wakeStep, position]
      · simp [CallerPc.stepsLeft]
  | finished =>
      simp only [CallerFacts, position] at facts
      rcases agreement.coroutineFacts.of_done facts with
        ⟨decision, present, noError, -, -⟩ | ⟨-, -, failed⟩
      · refine ⟨.caller, { state with caller := .returned (.ok decision) },
          trivial, ?_, ?_⟩
        · simp only [step, callerStep, position, noError, present]
        · simp [CallerPc.stepsLeft]
      · obtain ⟨error, present⟩ := Option.isSome_iff_exists.1 failed
        refine ⟨.caller, { state with caller := .returned (.error error) },
          trivial, ?_, ?_⟩
        · simp only [step, callerStep, position, present]
        · simp [CallerPc.stepsLeft]
  | expired cancelledFlag =>
      refine ⟨.caller, _, trivial,
        by simp only [step, callerStep, position]; rfl, ?_⟩
      simp [CallerPc.stepsLeft]
  | lookDecision cancelledFlag =>
      cases present : state.decision with
      | some decision =>
          refine ⟨.caller, { state with caller := .returned (.ok decision) },
            trivial, ?_, ?_⟩
          · simp only [step, callerStep, position, present]
          · simp [CallerPc.stepsLeft]
      | none =>
          refine ⟨.caller, { state with caller := .lastCheck cancelledFlag },
            trivial, ?_, ?_⟩
          · simp only [step, callerStep, position, present]
          · simp [CallerPc.stepsLeft]
  | lastCheck cancelledFlag =>
      refine ⟨.caller, _, trivial,
        by simp only [step, callerStep, position]; rfl, ?_⟩
      dsimp only
      split <;> simp [CallerPc.stepsLeft]
  | returned result => exact absurd ⟨result, position⟩ notReturned
  | dereferencedEmpty => simp only [CallerFacts, position] at facts

/-- Once the deadline has passed, at most thirteen steps of the caller alone
bring it to its return. -/
theorem caller_returns
    (config : Config)
    {state : State}
    (agreement : Agreement state)
    (passed : state.deadlinePassed = true) :
    ∃ actions after, (∀ action ∈ actions, action.OfCaller) ∧
      actions.length ≤ 13 ∧
      Machine.run (step config) state actions = some after ∧
      ∃ result, after.caller = .returned result := by
  have progress : ∀ state : State,
      (Agreement state ∧ state.deadlinePassed = true) →
      (¬ ∃ result, state.caller = .returned result) →
      ∃ action next, action.OfCaller ∧ step config state action = some next ∧
        (Agreement next ∧ next.deadlinePassed = true) ∧
        next.caller.stepsLeft < state.caller.stepsLeft := by
    intro state holds notReturned
    obtain ⟨agreement, passed⟩ := holds
    obtain ⟨action, next, ofCaller, stepped, nearer⟩ :=
      exists_nearer_step config agreement passed notReturned
    refine ⟨action, next, ofCaller, stepped,
      ⟨agreement_step state action next agreement stepped, ?_⟩, nearer⟩
    obtain ⟨-, position, coroutine, cancelled, rfl, -⟩ :=
      callerMoves_of_step stepped ofCaller
    exact passed
  obtain ⟨actions, after, ofCaller, short, ran, returned⟩ :=
    Machine.exists_run_of_decreasing
      (fun state : State => state.caller.stepsLeft) progress
      (show Agreement state ∧ state.deadlinePassed = true from
        ⟨agreement, passed⟩)
  refine ⟨actions, after, ofCaller, short.trans ?_, ran, returned⟩
  cases state.caller <;> simp [CallerPc.stepsLeft]

/-- After the capture the coroutine calls the emission stage. -/
theorem step_of_captured
    {config : Config}
    {state : State}
    {decision : Decision}
    (position : state.coroutine = .captured decision) :
    step config state .coroutine =
      some { state with
        coroutine := .emitting decision {}
        processCalls := state.processCalls ++ [decision] } := by
  simp only [step, coroutineStep, position]

/-- A decision given to the emission stage is the only result the caller can
still return, and the caller returns it by itself after the deadline. -/
theorem Agreement.returns_decision
    {config : Config}
    {state : State}
    (agreement : Agreement state)
    {decision : Decision}
    (present : state.decision = some decision) :
    (∀ later after result,
      Machine.run (step config) state later = some after →
        after.caller = .returned result → result = .ok decision) ∧
    ∃ later after, (∀ action ∈ later, action.OfCaller) ∧ later.length ≤ 13 ∧
      Machine.run (step config) state (.deadlinePasses :: later) =
        some after ∧
      after.caller = .returned (.ok decision) := by
  have only : ∀ later after result,
      Machine.run (step config) state later = some after →
        after.caller = .returned result → result = .ok decision := by
    intro later after result laterRan returned
    obtain ⟨laterAgreement, stillPresent⟩ :=
      Machine.invariant_of_run decision_step ⟨agreement, present⟩ laterRan
    cases result with
    | ok other =>
        have otherPresent := laterAgreement.of_returned_ok returned
        rw [stillPresent, Option.some.injEq] at otherPresent
        rw [otherPresent]
    | error error =>
        have absent := laterAgreement.of_returned_error returned
        rw [stillPresent] at absent
        cases absent
  refine ⟨only, ?_⟩
  have stepped : step config state .deadlinePasses =
      some { state with deadlinePassed := true } := rfl
  obtain ⟨later, after, ofCaller, short, laterRan, result, returned⟩ :=
    caller_returns config
      (agreement_step state .deadlinePasses _ agreement stepped) rfl
  have ran : Machine.run (step config) state (.deadlinePasses :: later) =
      some after := by
    rw [Machine.run_cons_eq_some_iff]
    exact ⟨_, stepped, laterRan⟩
  have result_eq := only _ after result ran returned
  rw [result_eq] at returned
  exact ⟨later, after, ofCaller, short, ran, returned⟩

/-- Both parties agree on the outcome.  After every run: a returned decision
has been given to the emission stage, or the next step of the coroutine does
so; after a returned error the stage is never called; a decision given to the
stage is the only one, it is the only result the caller can still return, and
after the deadline at most thirteen steps of the caller return it; unless the
coroutine stands right before the call, a decision is returned exactly if it
was given to the stage; and no empty optional is dereferenced. -/
theorem outcome_agreement
    (config : Config)
    (actions : List Action)
    (final : State)
    (ran : Machine.run (step config) {} actions = some final) :
    (∀ decision, final.caller = .returned (.ok decision) →
      final.processCalls = [decision] ∨
        (final.processCalls = [] ∧
          ∃ next, step config final .coroutine = some next ∧
            next.processCalls = [decision])) ∧
    (∀ error, final.caller = .returned (.error error) →
      ∀ later after, Machine.run (step config) final later = some after →
        after.processCalls = []) ∧
    (∀ decision ∈ final.processCalls, final.processCalls = [decision] ∧
      (∀ later after result,
        Machine.run (step config) final later = some after →
          after.caller = .returned result → result = .ok decision) ∧
      ∃ later after, (∀ action ∈ later, action.OfCaller) ∧
        later.length ≤ 13 ∧
        Machine.run (step config) final (.deadlinePasses :: later) =
          some after ∧
        after.caller = .returned (.ok decision)) ∧
    (∀ result, final.caller = .returned result →
      (∀ decision, final.coroutine ≠ .captured decision) →
        ∀ decision, result = .ok decision ↔
          final.processCalls = [decision]) ∧
    final.caller ≠ .dereferencedEmpty := by
  have agreement := agreement_of_run ran
  refine ⟨?_, ?_, ?_, ?_, ?_⟩
  · intro decision returned
    rcases agreement.coroutineFacts.of_decision
      (agreement.of_returned_ok returned) with called | ⟨position, noCalls⟩
    · exact .inl called
    · refine .inr ⟨noCalls, _, step_of_captured position, ?_⟩
      rw [noCalls, List.nil_append]
  · intro error returned later after laterRan
    have stillReturned : after.caller = .returned (.error error) :=
      Machine.invariant_of_run returned_step returned laterRan
    have laterAgreement : Agreement after :=
      Machine.invariant_of_run agreement_step agreement laterRan
    exact laterAgreement.coroutineFacts.of_no_decision
      (laterAgreement.of_returned_error stillReturned)
  · intro decision called
    obtain ⟨calls, present⟩ := agreement.of_mem_processCalls called
    exact ⟨calls, agreement.returns_decision present⟩
  · intro result returned notBetween decision
    cases result with
    | ok other =>
        rcases agreement.coroutineFacts.of_decision
          (agreement.of_returned_ok returned) with calls | ⟨position, -⟩
        · rw [calls, Except.ok.injEq, List.cons.injEq]
          exact ⟨fun same => ⟨same, rfl⟩, fun same => same.1⟩
        · exact absurd position (notBetween other)
    | error error =>
        rw [agreement.coroutineFacts.of_no_decision
          (agreement.of_returned_error returned)]
        simp
  · intro fault
    have facts := agreement.callerFacts
    simp only [CallerFacts, fault] at facts

/-- The deadline passes between the capture of the decision and its emission,
and the coroutine emits after the caller has left. -/
def timeoutAfterCapture : List Action :=
  [.caller, .checkState true true, .tryAcquire true, .caller, .caller,
    .caller, .caller, .coroutine, .finishStages (.decided {}), .coroutine,
    .deadlinePasses, .wake true, .caller, .caller, .coroutine]

/-- In that run the decision given to the emission stage is the one
returned. -/
theorem outcome_agreement_timeoutAfterCapture :
    ∃ final,
      Machine.run (step ⟨false, { targets := 1 }⟩) {} timeoutAfterCapture =
          some final ∧
        final.caller ≠ .dereferencedEmpty ∧
        (∀ result, final.caller = .returned result →
          (∀ decision, final.coroutine ≠ .captured decision) →
            ∀ decision, result = .ok decision ↔
              final.processCalls = [decision]) ∧
        final.processCalls = [{}] := by
  refine ⟨_, (Option.some_get (by decide)).symm, ?_, ?_, by decide⟩
  · exact (outcome_agreement ⟨false, { targets := 1 }⟩ timeoutAfterCapture _
      (Option.some_get (by decide)).symm).2.2.2.2
  · exact (outcome_agreement ⟨false, { targets := 1 }⟩ timeoutAfterCapture _
      (Option.some_get (by decide)).symm).2.2.2.1

end SubmitSync
end Pipeline
end Fre
