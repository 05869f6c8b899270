import Fre.Foundation.Machine
import Fre.Foundation.Threads
import Fre.Stage.InferenceStage

/-!
# The worker threads of the inference stage

For each evaluator, `InferenceStage::process` starts a worker and polls a flag
until the worker has set it or the deadline has passed; then it joins the worker
or detaches it.  A worker writes its result, and then the flag, into variables
of the round that has started it.  A detached worker goes on when the round is
over and its variables are gone.
-/

namespace Fre
namespace Stage
namespace InferenceThreads

open Foundation InferenceStage

/-- How far a worker has come. -/
inductive Progress
  | running
  | written
  | completed
  deriving DecidableEq, Repr

/-- A worker, its deadline in nanoseconds, and the time at which it was
detached. -/
structure Worker where
  deadline : Int
  progress : Progress := .running
  detachedAt : Option Int := none
  deriving DecidableEq, Repr

/-- Where the loop of `process` stands: before a round, before the flag is read,
before the clock is read, before `join`, or after the loop. -/
inductive Phase
  | next
  | polling
  | checking
  | joining
  | returned (output : StageOutput)
  deriving DecidableEq

/-- The call of `process` with its workers.  `lost` has the workers, one entry
for each time they have written to variables that were gone. -/
structure State where
  index : Nat := 0
  phase : Phase := .next
  output : StageOutput := { stageId := "inference" }
  workers : List Worker := []
  lost : List Nat := []
  terminated : Bool := false

/-- A step of the call, or of a worker. -/
inductive Action
  | spawn (now : Int)
  | load
  | readClock (now : Int)
  | join
  | write (worker : Nat)
  | store (worker : Nat)
  | compose (elapsedUs : UInt64)

/-- The worker that takes the step, if it is not the call itself. -/
def Action.worker : Action → Option Nat
  | .write worker => some worker
  | .store worker => some worker
  | _ => none

/-- The worker was detached. -/
def Worker.isDetached (worker : Worker) : Bool := worker.detachedAt.isSome

namespace State

/-- The worker at a position was detached. -/
def isLate (state : State) (position : Nat) : Bool :=
  state.workers[position]?.any Worker.isDetached

/-- One more result, and the end of the round. -/
def record (state : State) (result : EvaluatorResult)
    (degradedReason : DegradedReason) : State :=
  { state with
    index := state.index + 1
    phase := .next
    output :=
      { state.output with
        evaluatorResults := state.output.evaluatorResults ++ [result]
        degradedReason := state.output.degradedReason.merge degradedReason } }

/-- A worker has come further.  What a detached worker writes is lost. -/
def proceed (state : State) (position : Nat) (worker : Worker)
    (progress : Progress) : State :=
  { state with
    workers := state.workers.set position { worker with progress }
    lost :=
      if worker.isDetached then state.lost ++ [position] else state.lost }

end State

/-- One step. -/
def step (config : InferenceStageConfig) (event : Event) (state : State)
    (action : Action) : Option State :=
  if state.terminated then none
  else
    match action, state.phase with
    | .spawn now, .next =>
        if state.index < config.evaluators.length then
          some { state with
            phase := .polling
            workers := state.workers ++
              [{ deadline := now + config.timeout.toInt * 1000000 }] }
        else none
    | .load, .polling =>
        state.workers[state.index]?.map fun worker =>
          { state with
            phase :=
              if worker.progress = .completed then .joining else .checking }
    | .readClock now, .checking =>
        state.workers[state.index]?.map fun worker =>
          if worker.deadline ≤ now then
            { state with
              workers := state.workers.set state.index
                { worker with detachedAt := some now } }.record
              (timeoutResult config state.index) .evaluatorTimeout
          else { state with phase := .polling }
    | .join, .joining =>
        match config.evaluators[state.index]? with
        | none => none
        | some evaluator =>
            match evaluator event with
            | .returned result => some (state.record result .none)
            | .failed error =>
                some (state.record
                  (applyFailureMode config error (evalId state.index))
                  .evaluatorError)
            | .threw => none
    | .write position, _ =>
        match config.evaluators[position]?, state.workers[position]? with
        | some evaluator, some worker =>
            if worker.progress = .running then
              if evaluator event = .threw then
                some { state with terminated := true }
              else some (state.proceed position worker .written)
            else none
        | _, _ => none
    | .store position, _ =>
        match state.workers[position]? with
        | some worker =>
            if worker.progress = .written then
              some (state.proceed position worker .completed)
            else none
        | none => none
    | .compose elapsedUs, .next =>
        if state.index = config.evaluators.length then
          some { state with
            phase := .returned
              { state.output with
                verdict := compose config state.output.evaluatorResults
                elapsedUs := elapsedUs } }
        else none
    | _, _ => none

/-! ### What one step does -/

/-- What a step has done. -/
inductive Stepped (config : InferenceStageConfig) (event : Event)
    (state : State) : Action → State → Prop
  | spawn {now : Int} :
      state.phase = .next → state.index < config.evaluators.length →
        Stepped config event state (.spawn now)
          { state with
            phase := .polling
            workers := state.workers ++
              [{ deadline := now + config.timeout.toInt * 1000000 }] }
  | seen {worker : Worker} :
      state.phase = .polling → state.workers[state.index]? = some worker →
      worker.progress = .completed →
        Stepped config event state .load { state with phase := .joining }
  | notSeen :
      state.phase = .polling →
        Stepped config event state .load { state with phase := .checking }
  | late {now : Int} {worker : Worker} :
      state.phase = .checking → state.workers[state.index]? = some worker →
      worker.deadline ≤ now →
        Stepped config event state (.readClock now)
          ({ state with
            workers := state.workers.set state.index
              { worker with detachedAt := some now } }.record
            (timeoutResult config state.index) .evaluatorTimeout)
  | inTime {now : Int} :
      state.phase = .checking →
        Stepped config event state (.readClock now)
          { state with phase := .polling }
  | joinReturned {evaluator : EvaluatorFn} {result : EvaluatorResult} :
      state.phase = .joining →
      config.evaluators[state.index]? = some evaluator →
      evaluator event = .returned result →
        Stepped config event state .join (state.record result .none)
  | joinFailed {evaluator : EvaluatorFn} {error : EvaluatorError} :
      state.phase = .joining →
      config.evaluators[state.index]? = some evaluator →
      evaluator event = .failed error →
        Stepped config event state .join
          (state.record (applyFailureMode config error (evalId state.index))
            .evaluatorError)
  | threw {position : Nat} {evaluator : EvaluatorFn} :
      config.evaluators[position]? = some evaluator →
      evaluator event = .threw →
        Stepped config event state (.write position)
          { state with terminated := true }
  | wrote {position : Nat} {evaluator : EvaluatorFn} {worker : Worker} :
      config.evaluators[position]? = some evaluator →
      state.workers[position]? = some worker →
      worker.progress = .running → evaluator event ≠ .threw →
        Stepped config event state (.write position)
          (state.proceed position worker .written)
  | stored {position : Nat} {worker : Worker} :
      state.workers[position]? = some worker →
      worker.progress = .written →
        Stepped config event state (.store position)
          (state.proceed position worker .completed)
  | composed {elapsedUs : UInt64} :
      state.phase = .next → state.index = config.evaluators.length →
        Stepped config event state (.compose elapsedUs)
          { state with
            phase := .returned
              { state.output with
                verdict := compose config state.output.evaluatorResults
                elapsedUs := elapsedUs } }

theorem stepped_of_step
    {config : InferenceStageConfig}
    {event : Event}
    {state next : State}
    {action : Action}
    (stepped : step config event state action = some next) :
    state.terminated = false ∧ Stepped config event state action next := by
  unfold step at stepped
  split at stepped
  next => cases stepped
  next alive =>
    refine ⟨by simpa using alive, ?_⟩
    split at stepped
    next now phase =>
      split at stepped
      next more =>
        cases stepped
        exact .spawn phase more
      next => cases stepped
    next phase =>
      obtain ⟨worker, present, rfl⟩ := Option.map_eq_some_iff.mp stepped
      split
      next completed => exact .seen phase present completed
      next => exact .notSeen phase
    next now phase =>
      obtain ⟨worker, present, rfl⟩ := Option.map_eq_some_iff.mp stepped
      split
      next passed => exact .late phase present passed
      next => exact .inTime phase
    next phase =>
      split at stepped
      next => cases stepped
      next evaluator found =>
        split at stepped
        next result called =>
          cases stepped
          exact .joinReturned phase found called
        next error called =>
          cases stepped
          exact .joinFailed phase found called
        next => cases stepped
    next position _ =>
      split at stepped
      next evaluator worker found present =>
        split at stepped
        next running =>
          split at stepped
          next threw =>
            cases stepped
            exact .threw found threw
          next notThrown =>
            cases stepped
            exact .wrote found present running notThrown
        next => cases stepped
      next => cases stepped
    next position _ =>
      split at stepped
      next worker present =>
        split at stepped
        next written =>
          cases stepped
          exact .stored present written
        next => cases stepped
      next => cases stepped
    next elapsedUs phase =>
      split at stepped
      next all =>
        cases stepped
        exact .composed phase all
      next => cases stepped
    next => cases stepped

/-! ### What holds in every state -/

/-- The number of workers of a round that is not over. -/
def Phase.openRounds : Phase → Nat
  | .polling | .checking | .joining => 1
  | .next | .returned _ => 0

/-- A worker has the past that its record shows: it writes only when its
evaluator has ended without an exception, and it is detached only when its
deadline has passed. -/
structure Worker.Sound (event : Event) (evaluator : EvaluatorFn)
    (worker : Worker) : Prop where
  returns : worker.progress ≠ .running → evaluator event ≠ .threw
  passed : ∀ now, worker.detachedAt = some now → worker.deadline ≤ now

/-- The rounds that are over have done what the loop of the model does in
them. -/
def RoundsDone (config : InferenceStageConfig) (event : Event)
    (state : State) : Prop :=
  ∀ late : Nat → Bool,
    (∀ position, position < state.index →
      late position = state.isLate position) →
    evaluateAll config event late 0 config.evaluators
        { stageId := "inference" } =
      evaluateAll config event late state.index
        (config.evaluators.drop state.index) state.output

/-- The call of `process` and its workers fit together. -/
structure Consistent (config : InferenceStageConfig) (event : Event)
    (state : State) : Prop where
  started : state.workers.length = state.index + state.phase.openRounds
  inRange : state.workers.length ≤ config.evaluators.length
  sound : ∀ (position : Nat) (evaluator : EvaluatorFn) (worker : Worker),
    config.evaluators[position]? = some evaluator →
    state.workers[position]? = some worker → worker.Sound event evaluator
  own : state.isLate state.index = false
  lost : ∀ position ∈ state.lost, state.isLate position = true
  joinable : state.phase = .joining → ∀ worker,
    state.workers[state.index]? = some worker → worker.progress = .completed
  rounds : RoundsDone config event state
  returned : ∀ output, state.phase = .returned output →
    state.index = config.evaluators.length ∧
      ∃ elapsedUs, output =
        { state.output with
          verdict := compose config state.output.evaluatorResults
          elapsedUs := elapsedUs }

theorem isLate_of_getElem?
    {state : State}
    {position : Nat}
    {worker : Worker}
    (present : state.workers[position]? = some worker) :
    state.isLate position = worker.isDetached := by
  rw [State.isLate, present]
  rfl

theorem isLate_proceed
    {state : State}
    {position : Nat}
    {worker : Worker}
    (present : state.workers[position]? = some worker)
    (progress : Progress)
    (other : Nat) :
    (state.proceed position worker progress).isLate other =
      state.isLate other := by
  unfold State.isLate State.proceed
  by_cases same : position = other
  · subst same
    obtain ⟨inRange, -⟩ := List.getElem?_eq_some_iff.mp present
    rw [List.getElem?_set_self inRange, present]
    rfl
  · rw [List.getElem?_set_ne same]

/-- A round that records what the model records leaves the model behind by
one position less. -/
theorem RoundsDone.record
    {config : InferenceStageConfig}
    {event : Event}
    {state changed : State}
    {evaluator : EvaluatorFn}
    {result : EvaluatorResult}
    {degradedReason : DegradedReason}
    (done : RoundsDone config event state)
    (found : config.evaluators[state.index]? = some evaluator)
    (sameIndex : changed.index = state.index)
    (sameOutput : changed.output = state.output)
    (earlier : ∀ position, position < state.index →
      changed.isLate position = state.isLate position)
    (round : ∀ late : Nat → Bool,
      late state.index = changed.isLate state.index → ∀ rest,
        evaluateAll config event late state.index (evaluator :: rest)
            state.output =
          evaluateAll config event late (state.index + 1) rest
            { state.output with
              evaluatorResults := state.output.evaluatorResults ++ [result]
              degradedReason :=
                state.output.degradedReason.merge degradedReason }) :
    RoundsDone config event (changed.record result degradedReason) := by
  intro late agree
  have agree : ∀ position, position < state.index + 1 →
      late position = changed.isLate position := by
    intro position before
    exact agree position (by simpa only [State.record, sameIndex] using before)
  obtain ⟨inRange, isEvaluator⟩ := List.getElem?_eq_some_iff.mp found
  rw [done late fun position before =>
      (agree position (by omega)).trans (earlier position before),
    List.drop_eq_getElem_cons inRange, isEvaluator,
    round late (agree state.index (by omega))]
  simp only [State.record, sameIndex, sameOutput]

theorem merge_none (reason : DegradedReason) :
    reason.merge .none = reason := by
  cases reason
  simp [DegradedReason.merge, DegradedReason.none]

/-- The worker of a round that is not over. -/
theorem Consistent.exists_own
    {config : InferenceStageConfig}
    {event : Event}
    {state : State}
    (consistent : Consistent config event state)
    (inRound : state.phase.openRounds = 1) :
    ∃ evaluator worker,
      config.evaluators[state.index]? = some evaluator ∧
      state.workers[state.index]? = some worker ∧
      worker.isDetached = false ∧ worker.Sound event evaluator := by
  have started := consistent.started
  have inRange := consistent.inRange
  rw [inRound] at started
  have found := List.getElem?_eq_getElem
    (l := config.evaluators) (i := state.index) (by omega)
  have present := List.getElem?_eq_getElem
    (l := state.workers) (i := state.index) (by omega)
  refine ⟨_, _, found, present, ?_, consistent.sound _ _ _ found present⟩
  rw [← isLate_of_getElem? present]
  exact consistent.own

/-- The step of the call that ends a round. -/
theorem Consistent.record
    {config : InferenceStageConfig}
    {event : Event}
    {state : State}
    {evaluator : EvaluatorFn}
    {worker changed : Worker}
    {result : EvaluatorResult}
    {degradedReason : DegradedReason}
    (consistent : Consistent config event state)
    (inRound : state.phase.openRounds = 1)
    (found : config.evaluators[state.index]? = some evaluator)
    (present : state.workers[state.index]? = some worker)
    (sound : changed.Sound event evaluator)
    (round : ∀ late : Nat → Bool,
      late state.index = changed.isDetached → ∀ rest,
        evaluateAll config event late state.index (evaluator :: rest)
            state.output =
          evaluateAll config event late (state.index + 1) rest
            { state.output with
              evaluatorResults := state.output.evaluatorResults ++ [result]
              degradedReason :=
                state.output.degradedReason.merge degradedReason }) :
    Consistent config event
      ({ state with workers := state.workers.set state.index changed }.record
        result degradedReason) where
  started := by
    have started := consistent.started
    rw [inRound] at started
    simpa only [State.record, List.length_set, Phase.openRounds] using started
  inRange := by
    simpa only [State.record, List.length_set] using consistent.inRange
  sound := by
    intro position other atPosition otherFound otherPresent
    rcases Threads.getElem?_set_cases otherPresent with ⟨rfl, rfl⟩ | ⟨_, before⟩
    · rw [found, Option.some_inj] at otherFound
      exact otherFound ▸ sound
    · exact consistent.sound position other atPosition otherFound before
  own := by
    have started := consistent.started
    rw [inRound] at started
    unfold State.isLate State.record
    rw [List.getElem?_eq_none (by simp only [List.length_set, started, le_refl])]
    rfl
  lost := by
    intro position member
    have late := consistent.lost position member
    have notOwn : state.index ≠ position := by
      rintro rfl
      rw [consistent.own] at late
      contradiction
    unfold State.isLate State.record
    rw [List.getElem?_set_ne notOwn]
    exact late
  joinable := nofun
  rounds := by
    obtain ⟨inRange, -⟩ := List.getElem?_eq_some_iff.mp present
    refine consistent.rounds.record found rfl rfl ?_ ?_
    · intro position before
      unfold State.isLate
      rw [List.getElem?_set_ne (by omega)]
    · intro late agree
      apply round late
      rw [agree, State.isLate, List.getElem?_set_self inRange]
      rfl
  returned := nofun

/-- The step of the call that joins a worker. -/
theorem Consistent.join
    {config : InferenceStageConfig}
    {event : Event}
    {state : State}
    {evaluator : EvaluatorFn}
    {result : EvaluatorResult}
    {degradedReason : DegradedReason}
    (consistent : Consistent config event state)
    (atJoining : state.phase = .joining)
    (found : config.evaluators[state.index]? = some evaluator)
    (round : ∀ late : Nat → Bool, late state.index = false → ∀ rest,
      evaluateAll config event late state.index (evaluator :: rest)
          state.output =
        evaluateAll config event late (state.index + 1) rest
          { state.output with
            evaluatorResults := state.output.evaluatorResults ++ [result]
            degradedReason :=
              state.output.degradedReason.merge degradedReason }) :
    Consistent config event (state.record result degradedReason) := by
  have inRound : state.phase.openRounds = 1 := by rw [atJoining]; rfl
  obtain ⟨other, worker, otherFound, present, notDetached, sound⟩ :=
    consistent.exists_own inRound
  rw [found, Option.some_inj] at otherFound
  subst otherFound
  have recorded := consistent.record inRound found present sound
    (notDetached ▸ round)
  obtain ⟨inRange, rfl⟩ := List.getElem?_eq_some_iff.mp present
  rw [List.set_getElem_self] at recorded
  exact recorded

/-- A step of a worker, detached or not. -/
theorem Consistent.proceed
    {config : InferenceStageConfig}
    {event : Event}
    {state : State}
    {position : Nat}
    {worker : Worker}
    {progress : Progress}
    (consistent : Consistent config event state)
    (present : state.workers[position]? = some worker)
    (notCompleted : worker.progress ≠ .completed)
    (returns : ∀ evaluator, config.evaluators[position]? = some evaluator →
      evaluator event ≠ .threw) :
    Consistent config event (state.proceed position worker progress) where
  started := by
    simpa only [State.proceed, List.length_set] using consistent.started
  inRange := by
    simpa only [State.proceed, List.length_set] using consistent.inRange
  sound := by
    intro other evaluator atOther found otherPresent
    rcases Threads.getElem?_set_cases otherPresent with ⟨rfl, rfl⟩ | ⟨_, before⟩
    · have sound := consistent.sound other evaluator worker found present
      exact ⟨fun _ => returns evaluator found, sound.passed⟩
    · exact consistent.sound other evaluator atOther found before
  own := by
    rw [isLate_proceed present]
    exact consistent.own
  lost := by
    intro other member
    rw [isLate_proceed present]
    unfold State.proceed at member
    cases detached : worker.isDetached with
    | false =>
        rw [detached] at member
        exact consistent.lost other member
    | true =>
        rw [detached] at member
        rcases List.mem_append.mp member with before | isOwn
        · exact consistent.lost other before
        · rw [List.mem_singleton.mp isOwn, isLate_of_getElem? present]
          exact detached
  joinable := by
    intro joining other otherPresent
    rcases Threads.getElem?_set_cases otherPresent with
      ⟨same, -⟩ | ⟨-, before⟩
    · have owned := present
      rw [← same] at owned
      exact absurd (consistent.joinable joining worker owned) notCompleted
    · exact consistent.joinable joining other before
  rounds := by
    intro late agree
    refine consistent.rounds late fun other before => ?_
    rw [agree other before, isLate_proceed present]
  returned := consistent.returned

/-- The call moves inside a round. -/
theorem Consistent.movePhase
    {config : InferenceStageConfig}
    {event : Event}
    {state : State}
    {phase : Phase}
    (consistent : Consistent config event state)
    (inRound : state.phase.openRounds = 1)
    (stillInRound : phase.openRounds = 1)
    (joinable : phase = .joining → ∀ worker,
      state.workers[state.index]? = some worker →
        worker.progress = .completed) :
    Consistent config event { state with phase } where
  started := by
    rw [stillInRound, ← inRound]
    exact consistent.started
  inRange := consistent.inRange
  sound := consistent.sound
  own := consistent.own
  lost := consistent.lost
  joinable := joinable
  rounds := consistent.rounds
  returned := by
    intro output isReturned
    have isReturned : phase = .returned output := isReturned
    rw [isReturned, Phase.openRounds] at stillInRound
    exact absurd stillInRound (by decide)

/-- A new worker was not detached. -/
theorem isLate_concat
    (state : State)
    (phase : Phase)
    {worker : Worker}
    (notDetached : worker.isDetached = false)
    (position : Nat) :
    { state with phase, workers := state.workers ++ [worker] }.isLate position =
      state.isLate position := by
  unfold State.isLate
  rcases Nat.lt_trichotomy position state.workers.length with
    before | rfl | beyond
  · rw [List.getElem?_append_left before]
  · rw [List.getElem?_concat_length, List.getElem?_eq_none (le_refl _)]
    exact notDetached
  · rw [List.getElem?_eq_none beyond.le, List.getElem?_eq_none]
    rw [List.length_append, List.length_singleton]
    omega

/-- The step that starts a worker. -/
theorem Consistent.spawn
    {config : InferenceStageConfig}
    {event : Event}
    {state : State}
    (consistent : Consistent config event state)
    (atNext : state.phase = .next)
    (more : state.index < config.evaluators.length)
    (deadline : Int) :
    Consistent config event
      { state with
        phase := .polling
        workers := state.workers ++ [{ deadline }] } := by
  have started := consistent.started
  rw [atNext, Phase.openRounds, Nat.add_zero] at started
  have sameLate :
      ∀ position, State.isLate
        { state with
          phase := .polling
          workers := state.workers ++ [{ deadline }] } position =
        state.isLate position :=
    isLate_concat state .polling rfl
  exact {
    started := by
      rw [List.length_append, started]
      rfl
    inRange := by
      rw [List.length_append, started]
      exact more
    sound := by
      intro position evaluator worker found present
      rcases Threads.getElem?_concat_cases present with before | rfl
      · exact consistent.sound position evaluator worker found before
      · exact ⟨fun written => absurd rfl written, nofun⟩
    own := (sameLate state.index).trans consistent.own
    lost := fun position member =>
      (sameLate position).trans (consistent.lost position member)
    joinable := nofun
    rounds := fun late agree => consistent.rounds late fun position before =>
      (agree position before).trans (sameLate position)
    returned := nofun }

/-- Every step keeps the call and its workers together. -/
theorem consistent_of_step
    {config : InferenceStageConfig}
    {event : Event}
    {state next : State}
    {action : Action}
    (consistent : Consistent config event state)
    (stepped : step config event state action = some next) :
    Consistent config event next := by
  obtain ⟨-, stepped⟩ := stepped_of_step stepped
  cases stepped with
  | spawn atNext more => exact consistent.spawn atNext more _
  | @seen worker atPolling present completed =>
      refine consistent.movePhase (by rw [atPolling]; rfl) rfl ?_
      intro _ other otherPresent
      rw [present, Option.some_inj] at otherPresent
      exact otherPresent ▸ completed
  | notSeen atPolling =>
      exact consistent.movePhase (by rw [atPolling]; rfl) rfl fun atJoining => by
        cases atJoining
  | @late now worker atChecking present passed =>
      have inRound : state.phase.openRounds = 1 := by rw [atChecking]; rfl
      obtain ⟨evaluator, own, found, ownPresent, -, sound⟩ :=
        consistent.exists_own inRound
      rw [present, Option.some_inj] at ownPresent
      subst ownPresent
      refine consistent.record inRound found present ⟨sound.returns, ?_⟩ ?_
      · intro other detached
        cases detached
        exact passed
      · intro late isLate rest
        rw [evaluateAll, isLate]
        rfl
  | inTime atChecking =>
      exact consistent.movePhase (by rw [atChecking]; rfl) rfl fun atJoining => by
        cases atJoining
  | @joinReturned evaluator result atJoining found called =>
      exact consistent.join atJoining found fun late isLate rest => by
        rw [evaluateAll, isLate, called, merge_none]
        rfl
  | @joinFailed evaluator error atJoining found called =>
      exact consistent.join atJoining found fun late isLate rest => by
        rw [evaluateAll, isLate, called]
        rfl
  | threw =>
      exact ⟨consistent.started, consistent.inRange, consistent.sound,
        consistent.own, consistent.lost, consistent.joinable,
        consistent.rounds, consistent.returned⟩
  | wrote found present running notThrown =>
      refine consistent.proceed present (by rw [running]; decide) ?_
      intro evaluator otherFound
      rw [found, Option.some_inj] at otherFound
      exact otherFound ▸ notThrown
  | stored present written =>
      refine consistent.proceed present (by rw [written]; decide) ?_
      intro evaluator found
      exact (consistent.sound _ _ _ found present).returns
        (by rw [written]; decide)
  | composed atNext all =>
      have started := consistent.started
      rw [atNext] at started
      exact {
        started := started
        inRange := consistent.inRange
        sound := consistent.sound
        own := consistent.own
        lost := consistent.lost
        joinable := fun atJoining => by cases atJoining
        rounds := consistent.rounds
        returned := by
          intro output isReturned
          cases isReturned
          exact ⟨all, _, rfl⟩ }

/-- What a call has returned is what the model of the stage gives for the
workers that were detached. -/
theorem Consistent.process_eq
    {config : InferenceStageConfig}
    {event : Event}
    {state : State}
    {output : StageOutput}
    (consistent : Consistent config event state)
    (isReturned : state.phase = .returned output) :
    ∃ elapsedUs,
      process config event state.isLate elapsedUs = some output := by
  obtain ⟨all, elapsedUs, rfl⟩ := consistent.returned output isReturned
  refine ⟨elapsedUs, ?_⟩
  rw [process, consistent.rounds state.isLate (fun _ _ => rfl), all,
    List.drop_length]
  rfl

/-- The number of steps that the call alone may still take. -/
def stepsLeft (config : InferenceStageConfig) (state : State) : Nat :=
  let rounds := config.evaluators.length - state.index
  match state.phase with
  | .next => 3 * rounds + 1
  | .polling => 3 * rounds
  | .checking | .joining => 3 * rounds - 1
  | .returned _ => 0

/-- A call that has not returned has a step of its own, if the clock shows the
deadline when it is read. -/
theorem Consistent.exists_step
    {config : InferenceStageConfig}
    {event : Event}
    {state : State}
    (consistent : Consistent config event state)
    (alive : state.terminated = false)
    (notReturned : ∀ output, state.phase ≠ .returned output) :
    ∃ action next, action.worker = none ∧
      step config event state action = some next ∧
      next.terminated = false ∧ next.lost = state.lost ∧
      stepsLeft config next < stepsLeft config state := by
  cases atPhase : state.phase with
  | next =>
      have inRange := consistent.inRange
      rw [consistent.started, atPhase, Phase.openRounds] at inRange
      by_cases more : state.index < config.evaluators.length
      · refine ⟨.spawn 0,
          { state with
            phase := .polling
            workers := state.workers ++
              [{ deadline := 0 + config.timeout.toInt * 1000000 }] },
          rfl, ?_, alive, rfl, ?_⟩
        · simp [step, alive, atPhase, more]
        · simp [stepsLeft, atPhase]
      · have all : state.index = config.evaluators.length := by omega
        refine ⟨.compose 0,
          { state with
            phase := .returned
              { state.output with
                verdict := compose config state.output.evaluatorResults
                elapsedUs := 0 } },
          rfl, ?_, alive, rfl, ?_⟩
        · simp [step, alive, atPhase, all]
        · simp [stepsLeft, atPhase]
  | polling =>
      obtain ⟨evaluator, worker, found, present, -, -⟩ :=
        consistent.exists_own (by rw [atPhase]; rfl)
      obtain ⟨more, -⟩ := List.getElem?_eq_some_iff.mp found
      by_cases completed : worker.progress = .completed
      · refine ⟨.load, { state with phase := .joining }, rfl, ?_, alive, rfl, ?_⟩
        · simp [step, alive, atPhase, present, completed]
        · simp only [stepsLeft, atPhase]
          omega
      · refine ⟨.load, { state with phase := .checking }, rfl, ?_, alive, rfl,
          ?_⟩
        · simp [step, alive, atPhase, present, completed]
        · simp only [stepsLeft, atPhase]
          omega
  | checking =>
      obtain ⟨evaluator, worker, found, present, -, -⟩ :=
        consistent.exists_own (by rw [atPhase]; rfl)
      obtain ⟨more, -⟩ := List.getElem?_eq_some_iff.mp found
      refine ⟨.readClock worker.deadline,
        { state with
          workers := state.workers.set state.index
            { worker with detachedAt := some worker.deadline } }.record
          (timeoutResult config state.index) .evaluatorTimeout,
        rfl, ?_, alive, rfl, ?_⟩
      · simp [step, alive, atPhase, present]
      · simp only [stepsLeft, State.record, atPhase]
        omega
  | joining =>
      obtain ⟨evaluator, worker, found, present, -, sound⟩ :=
        consistent.exists_own (by rw [atPhase]; rfl)
      obtain ⟨more, -⟩ := List.getElem?_eq_some_iff.mp found
      have completed := consistent.joinable atPhase worker present
      have lower : ∀ result degradedReason,
          stepsLeft config (state.record result degradedReason) <
            stepsLeft config state := by
        intro result degradedReason
        simp only [stepsLeft, State.record, atPhase]
        omega
      cases called : evaluator event with
      | returned result =>
          exact ⟨.join, state.record result .none, rfl,
            by simp [step, alive, atPhase, found, called],
            alive, rfl, lower _ _⟩
      | failed error =>
          exact ⟨.join, state.record
              (applyFailureMode config error (evalId state.index))
              .evaluatorError, rfl,
            by simp [step, alive, atPhase, found, called],
            alive, rfl, lower _ _⟩
      | threw =>
          exact absurd called (sound.returns (by rw [completed]; decide))
  | returned output => exact absurd atPhase (notReturned output)

/-- The call alone returns, if the clock shows the deadline when it is read. -/
theorem Consistent.returns
    {config : InferenceStageConfig}
    {event : Event}
    {state : State}
    (consistent : Consistent config event state)
    (alive : state.terminated = false) :
    ∃ actions final output, (∀ action ∈ actions, action.worker = none) ∧
      actions.length ≤ 3 * config.evaluators.length + 1 ∧
      Machine.run (step config event) state actions = some final ∧
      final.lost = state.lost ∧ final.phase = .returned output := by
  have progress : ∀ reached : State,
      (Consistent config event reached ∧ reached.terminated = false ∧
        reached.lost = state.lost) →
      ¬ (reached.lost = state.lost ∧
        ∃ output, reached.phase = .returned output) →
      ∃ (action : Action) (next : State), action.worker = none ∧
        step config event reached action = some next ∧
        (Consistent config event next ∧ next.terminated = false ∧
          next.lost = state.lost) ∧
        stepsLeft config next < stepsLeft config reached := by
    rintro reached ⟨consistent, alive, kept⟩ notReturned
    obtain ⟨action, next, own, stepped, stillAlive, sameLost, lower⟩ :=
      consistent.exists_step alive fun output isReturned =>
        notReturned ⟨kept, output, isReturned⟩
    exact ⟨action, next, own, stepped,
      ⟨consistent_of_step consistent stepped, stillAlive,
        sameLost.trans kept⟩, lower⟩
  obtain ⟨actions, final, own, short, ran, kept, output, isReturned⟩ :=
    Machine.exists_run_of_decreasing (stepsLeft config) progress
      ⟨consistent, alive, rfl⟩
  refine ⟨actions, final, output, own, short.trans ?_, ran, kept, isReturned⟩
  cases atPhase : state.phase <;> simp only [stepsLeft, atPhase] <;> omega

end InferenceThreads
end Stage
end Fre
