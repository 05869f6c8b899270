import Fre.Stage.EvaluatorLoop

/-!
# The evaluation stage

`EvalStage::process` calls the evaluators in order, replaces a failed one by the
result of the failure mode under a positional name, and composes the verdicts.
-/

namespace Fre
namespace Stage
namespace EvalStage

open Foundation Positions

/-- `EvalStage::apply_failure_mode`; the error is not read. -/
def applyFailureMode (config : EvalStageConfig) (_error : EvaluatorError)
    (evaluatorId : String) : EvaluatorResult :=
  config.failureMode.result evaluatorId

/-- The name under which a failed evaluator is recorded. -/
def evalId (index : Nat) : String := "evaluator_" ++ toString index

/-- `EvalStage::compose`. -/
def compose (config : EvalStageConfig) (results : List EvaluatorResult) :
    Verdict :=
  if results.isEmpty then .pass
  else
    match config.composition with
    | .anyBlock =>
        if results.any fun result => result.verdict == .block then .block
        else if results.any fun result => result.verdict == .flag then .flag
        else .pass
    | .anyFlag => Verdict.strictest (results.map EvaluatorResult.verdict)
    | .unanimous =>
        if results.all fun result => result.verdict == .block then .block
        else .pass
    | .majority =>
        let blockCount := results.countP fun result => result.verdict == .block
        if results.length < blockCount * 2 then .block else .pass
    | .weightedScore => .pass

/-- The loop over the evaluators; none when one of them throws. -/
def evaluateAll (config : EvalStageConfig) (event : Event) :
    Nat → List EvaluatorFn → StageOutput → Option StageOutput
  | _, [], output => some output
  | index, evaluator :: rest, output =>
      match evaluator event with
      | .returned result =>
          evaluateAll config event (index + 1) rest
            { output with
              evaluatorResults := output.evaluatorResults ++ [result] }
      | .failed error =>
          evaluateAll config event (index + 1) rest
            { output with
              evaluatorResults := output.evaluatorResults ++
                [applyFailureMode config error (evalId index)]
              degradedReason := output.degradedReason.merge .evaluatorError }
      | .threw => none

/-- `EvalStage::process`; none when an evaluator throws. -/
def process (config : EvalStageConfig) (event : Event) (elapsedUs : UInt64) :
    Option StageOutput :=
  (evaluateAll config event 0 config.evaluators { stageId := "eval" }).map
    fun output =>
      { output with
        verdict := compose config output.evaluatorResults
        elapsedUs := elapsedUs }

/-! ### What the loop records -/

/-- No evaluator of the list throws at the event. -/
def NoneThrows (evaluators : List EvaluatorFn) (event : Event) : Prop :=
  ∀ evaluator ∈ evaluators, evaluator event ≠ .threw

/-- The result recorded for the evaluator at a position. -/
def recorded (config : EvalStageConfig) (event : Event) (index : Nat)
    (evaluator : EvaluatorFn) : Option EvaluatorResult :=
  match evaluator event with
  | .returned result => some result
  | .failed error => some (applyFailureMode config error (evalId index))
  | .threw => none

/-- One round of the loop appends what is recorded at its position. -/
theorem evaluateAll_rounds
    (config : EvalStageConfig)
    (event : Event) :
    EvaluatorLoop (recorded config event) (evaluateAll config event) where
  finish := fun _ _ => rfl
  round := by
    intro index evaluator rest output
    rw [evaluateAll]
    unfold recorded
    split
    · exact ⟨_, rfl⟩
    · exact ⟨_, rfl⟩
    · exact ⟨output.degradedReason, rfl⟩

/-- A stage that ends has recorded one result for each evaluator and composed
them. -/
theorem process_results
    {config : EvalStageConfig}
    {event : Event}
    {elapsedUs : UInt64}
    {output : StageOutput}
    (processed : process config event elapsedUs = some output) :
    output.stageId = "eval" ∧
      output.verdict = compose config output.evaluatorResults ∧
      Recorded (recorded config event) config.evaluators
        output.evaluatorResults := by
  unfold process at processed
  obtain ⟨final, ended, rfl⟩ := Option.map_eq_some_iff.mp processed
  obtain ⟨sameStage, added, results, positions⟩ :=
    (evaluateAll_rounds config event).results ended
  refine ⟨sameStage, rfl, ?_⟩
  simpa [results] using positions

/-- The stage ends exactly when no evaluator throws. -/
theorem process_isSome_iff
    (config : EvalStageConfig)
    (event : Event)
    (elapsedUs : UInt64) :
    (process config event elapsedUs).isSome ↔
      NoneThrows config.evaluators event := by
  unfold process
  rw [Option.isSome_map, (evaluateAll_rounds config event).isSome_iff]
  constructor
  · intro gives evaluator member threw
    obtain ⟨index, found⟩ := List.mem_iff_getElem?.mp member
    simpa [recorded, threw] using gives index evaluator found
  · intro noneThrows index evaluator found
    have member : evaluator ∈ config.evaluators :=
      List.mem_iff_getElem?.mpr ⟨index, found⟩
    unfold recorded
    split
    next => rfl
    next => rfl
    next threw => exact absurd threw (noneThrows evaluator member)

/-! ### Fail-closed composition -/

/-- The evaluator fails or returns `Block`. -/
def votesBlock (event : Event) (evaluator : EvaluatorFn) : Bool :=
  match evaluator event with
  | .returned result => result.verdict == .block
  | .failed _ => true
  | .threw => false

/-- When failures count as `Block`, a result is `Block` exactly when its
evaluator votes so. -/
theorem recorded_block_eq
    {config : EvalStageConfig}
    {event : Event}
    (closed : config.failureMode = .failClosed)
    (index : Nat)
    (evaluator : EvaluatorFn)
    (result : EvaluatorResult)
    (given : recorded config event index evaluator = some result) :
    (result.verdict == .block) = votesBlock event evaluator := by
  unfold recorded at given
  unfold votesBlock
  split at given
  next returned called =>
    rw [Option.some_inj] at given
    rw [given]
  next error called =>
    rw [Option.some_inj] at given
    rw [← given, applyFailureMode, closed]
    rfl
  next called => simp at given

/-- The composition rule turns a list of results into `Block` exactly here. -/
theorem compose_eq_block_iff
    (config : EvalStageConfig)
    (results : List EvaluatorResult)
    (nonempty : results ≠ []) :
    compose config results = .block ↔
      let blockCount := results.countP fun result => result.verdict == .block
      match config.composition with
      | .anyBlock => 0 < blockCount
      | .anyFlag => 0 < blockCount
      | .unanimous => blockCount = results.length
      | .majority => results.length < blockCount * 2
      | .weightedScore => False := by
  unfold compose
  rw [if_neg (by simpa using nonempty)]
  cases config.composition with
  | anyBlock =>
      dsimp only
      rw [List.countP_pos_iff]
      split
      next found => simpa using found
      next missing =>
        split
        · simpa using missing
        · simpa using missing
  | anyFlag =>
      dsimp only
      rw [Verdict.strictest_eq_block_iff, List.countP_pos_iff]
      simp
  | unanimous =>
      dsimp only
      rw [List.countP_eq_length]
      split <;> simp_all
  | majority => simp
  | weightedScore => simp

/-- The mixes of outcomes that make a fail-closed stage block once an evaluator
has failed. -/
def BlocksOnFailure (config : EvalStageConfig) (event : Event) : Prop :=
  match config.composition with
  | .anyBlock => True
  | .anyFlag => True
  | .unanimous =>
      ∀ evaluator ∈ config.evaluators, votesBlock event evaluator = true
  | .majority =>
      config.evaluators.length <
        config.evaluators.countP (votesBlock event) * 2
  | .weightedScore => False

/-- A fail-closed stage with a failed evaluator returns `Block` exactly when no
evaluator throws and the composition rule lets the failures through. -/
theorem failClosed_blocks_iff
    (config : EvalStageConfig)
    (event : Event)
    (elapsedUs : UInt64)
    (closed : config.failureMode = .failClosed)
    (failure : ∃ evaluator ∈ config.evaluators, ∃ error,
      evaluator event = .failed error) :
    (process config event elapsedUs).map StageOutput.verdict = some .block ↔
      NoneThrows config.evaluators event ∧ BlocksOnFailure config event := by
  obtain ⟨failing, failingMem, error, failed⟩ := failure
  have voted : 0 < config.evaluators.countP (votesBlock event) := by
    rw [List.countP_pos_iff]
    exact ⟨failing, failingMem, by simp [votesBlock, failed]⟩
  rw [← process_isSome_iff config event elapsedUs]
  cases processed : process config event elapsedUs with
  | none => simp
  | some output =>
      obtain ⟨-, composed, positions⟩ := process_results processed
      have sameCount := positions.countP_eq (recorded_block_eq closed)
      have sameLength := positions.length_eq
      have nonempty : output.evaluatorResults ≠ [] := by
        intro empty
        rw [empty, List.countP_nil] at sameCount
        omega
      simp only [Option.map_some, Option.some_inj, Option.isSome_some, true_and]
      rw [composed, compose_eq_block_iff config _ nonempty]
      unfold BlocksOnFailure
      dsimp only
      rw [sameCount, sameLength]
      cases config.composition with
      | anyBlock => simpa using voted
      | anyFlag => simpa using voted
      | unanimous => exact List.countP_eq_length
      | majority => rfl
      | weightedScore => rfl

/-- An evaluator that is down. -/
def downEvaluator : EvaluatorFn := fun _ =>
  .failed ⟨.internalError, "model", "backend down"⟩

/-- An evaluator that lets the event pass. -/
def passingEvaluator : EvaluatorFn := fun _ =>
  .returned { evaluatorId := "allow_list" }

/-- A fail-closed stage with one failed and one passing evaluator. -/
def halfDown (composition : CompositionRule) : EvalStageConfig where
  failureMode := .failClosed
  composition := composition
  evaluators := [downEvaluator, passingEvaluator]

/-- Under `AnyBlock` the failure blocks. -/
theorem failClosed_anyBlock_blocks :
    (process (halfDown .anyBlock) { tenantId := "t", entityId := "e" } 0).map
      StageOutput.verdict = some .block := by
  have blocks := failClosed_blocks_iff (halfDown .anyBlock)
    { tenantId := "t", entityId := "e" } 0 rfl
    ⟨downEvaluator, by simp [halfDown], _, rfl⟩
  refine blocks.mpr ⟨?_, trivial⟩
  simp [NoneThrows, halfDown, downEvaluator, passingEvaluator]

/-- Under `Unanimous` the stage passes although it is fail-closed and an
evaluator has failed. -/
theorem failClosed_unanimous_passes :
    ∃ config : EvalStageConfig, ∃ event : Event,
      config.evaluators ≠ [] ∧ config.failureMode = .failClosed ∧
      (∃ evaluator ∈ config.evaluators, ∃ error,
        evaluator event = .failed error) ∧
      (process config event 0).map StageOutput.verdict = some .pass := by
  refine ⟨halfDown .unanimous, { tenantId := "t", entityId := "e" }, ?_, rfl,
    ⟨downEvaluator, ?_, _, rfl⟩, by decide⟩
  · simp [halfDown]
  · simp [halfDown]

end EvalStage
end Stage
end Fre
