import Fre.Stage.EvaluatorLoop

/-!
# The inference stage

`InferenceStage::process` runs each evaluator on a worker thread and polls it up
to a deadline.  Whether the deadline passes first is an input, one answer for
each position.  An exception on a worker thread ends the program.
-/

namespace Fre
namespace Stage
namespace InferenceStage

open Foundation Positions

/-- `InferenceStage::apply_failure_mode`; the error is not read. -/
def applyFailureMode (config : InferenceStageConfig) (_error : EvaluatorError)
    (evaluatorId : String) : EvaluatorResult :=
  config.failureMode.result evaluatorId

/-- The name under which a failed or late evaluator is recorded. -/
def evalId (index : Nat) : String := "inference_evaluator_" ++ toString index

/-- The result that stands for an evaluator that is late. -/
def timeoutResult (config : InferenceStageConfig) (index : Nat) :
    EvaluatorResult :=
  { applyFailureMode config ⟨.timeout, evalId index, "timeout"⟩ (evalId index)
    with skipped := true }

/-- The loop over the evaluators; none when a worker throws. -/
def evaluateAll (config : InferenceStageConfig) (event : Event)
    (late : Nat → Bool) :
    Nat → List EvaluatorFn → StageOutput → Option StageOutput
  | _, [], output => some output
  | index, evaluator :: rest, output =>
      if late index then
        evaluateAll config event late (index + 1) rest
          { output with
            evaluatorResults :=
              output.evaluatorResults ++ [timeoutResult config index]
            degradedReason := output.degradedReason.merge .evaluatorTimeout }
      else
        match evaluator event with
        | .returned result =>
            evaluateAll config event late (index + 1) rest
              { output with
                evaluatorResults := output.evaluatorResults ++ [result] }
        | .failed error =>
            evaluateAll config event late (index + 1) rest
              { output with
                evaluatorResults := output.evaluatorResults ++
                  [applyFailureMode config error (evalId index)]
                degradedReason := output.degradedReason.merge .evaluatorError }
        | .threw => none

/-- The scores that enter the average: those of results that were not
skipped. -/
def scores (results : List EvaluatorResult) : List Single :=
  results.filterMap fun result => if result.skipped then none else result.score

/-- The average score, zero when there is none. -/
def averageScore (results : List EvaluatorResult) : Single :=
  let scores := scores results
  let scoreSum := scores.foldl (FloatValue.add .binary32) (.finite 0)
  if 0 < scores.length then FloatValue.divCount .binary32 scoreSum scores.length
  else .finite 0

/-- The verdict of the stage. -/
def compose (config : InferenceStageConfig) (results : List EvaluatorResult) :
    Verdict :=
  if config.composition = .weightedScore ∧ results ≠ [] then
    if config.scoreThreshold.lt (averageScore results) then .flag else .pass
  else Verdict.strictest (results.map EvaluatorResult.verdict)

/-- `InferenceStage::process`; none when a worker throws. -/
def process (config : InferenceStageConfig) (event : Event)
    (late : Nat → Bool) (elapsedUs : UInt64) : Option StageOutput :=
  (evaluateAll config event late 0 config.evaluators
    { stageId := "inference" }).map fun output =>
      { output with
        verdict := compose config output.evaluatorResults
        elapsedUs := elapsedUs }

/-! ### What the loop records -/

/-- The result recorded for the evaluator at a position. -/
def recorded (config : InferenceStageConfig) (event : Event)
    (late : Nat → Bool) (index : Nat) (evaluator : EvaluatorFn) :
    Option EvaluatorResult :=
  if late index then some (timeoutResult config index)
  else
    match evaluator event with
    | .returned result => some result
    | .failed error => some (applyFailureMode config error (evalId index))
    | .threw => none

/-- Every evaluator that is in time ends without an exception. -/
def NoneThrows (evaluators : List EvaluatorFn) (event : Event)
    (late : Nat → Bool) : Prop :=
  ∀ index evaluator, evaluators[index]? = some evaluator →
    late index = false → evaluator event ≠ .threw

/-- One round of the loop appends what is recorded at its position. -/
theorem evaluateAll_rounds
    (config : InferenceStageConfig)
    (event : Event)
    (late : Nat → Bool) :
    EvaluatorLoop (recorded config event late)
      (evaluateAll config event late) where
  finish := fun _ _ => rfl
  round := by
    intro index evaluator rest output
    rw [evaluateAll]
    unfold recorded
    split
    · exact ⟨_, rfl⟩
    · split
      · exact ⟨_, rfl⟩
      · exact ⟨_, rfl⟩
      · exact ⟨output.degradedReason, rfl⟩

/-- A stage that ends has recorded one result for each evaluator and composed
them. -/
theorem process_results
    {config : InferenceStageConfig}
    {event : Event}
    {late : Nat → Bool}
    {elapsedUs : UInt64}
    {output : StageOutput}
    (processed : process config event late elapsedUs = some output) :
    output.stageId = "inference" ∧
      output.verdict = compose config output.evaluatorResults ∧
      Recorded (recorded config event late) config.evaluators
        output.evaluatorResults := by
  unfold process at processed
  obtain ⟨final, ended, rfl⟩ := Option.map_eq_some_iff.mp processed
  obtain ⟨sameStage, added, results, positions⟩ :=
    (evaluateAll_rounds config event late).results ended
  refine ⟨sameStage, rfl, ?_⟩
  simpa [results] using positions

/-- The stage ends exactly when no evaluator that is in time throws. -/
theorem process_isSome_iff
    (config : InferenceStageConfig)
    (event : Event)
    (late : Nat → Bool)
    (elapsedUs : UInt64) :
    (process config event late elapsedUs).isSome ↔
      NoneThrows config.evaluators event late := by
  unfold process
  rw [Option.isSome_map, (evaluateAll_rounds config event late).isSome_iff]
  unfold NoneThrows
  apply forall_congr'
  intro index
  apply forall_congr'
  intro evaluator
  apply imp_congr_right
  intro found
  rw [Nat.zero_add]
  unfold recorded
  cases late index with
  | true => simp
  | false => cases evaluator event <;> simp

/-! ### Fail-closed composition -/

end InferenceStage
end Stage
end Fre
