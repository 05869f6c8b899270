import Fre.Core.Error
import Fre.Foundation.Sorting
import Fre.Policy.RuleEngine

/-!
# Configurations of the stages

The records of the pipeline configuration that the stages read.  Timeouts and
tolerances are milliseconds.
-/

namespace Fre
namespace Stage

open Foundation Policy

/-- `FailureMode`. -/
inductive FailureMode
  | failOpen
  | failClosed
  | emitDegraded
  deriving DecidableEq, Repr

/-- How the call of an evaluator ends. -/
inductive EvaluatorOutcome
  | returned (result : EvaluatorResult)
  | failed (error : EvaluatorError)
  | threw
  deriving DecidableEq

/-- `EvaluatorFn`, by what it does at this call. -/
abbrev EvaluatorFn := Event → EvaluatorOutcome

/-- `IngestStageConfig`. -/
structure IngestStageConfig where
  skewTolerance : Int64 := 30000
  timeout : Int64 := 5

/-- `EvalStageConfig`. -/
structure EvalStageConfig where
  timeout : Int64 := 10
  failureMode : FailureMode := .failOpen
  composition : CompositionRule := .anyBlock
  evaluators : List EvaluatorFn := []

/-- `InferenceStageConfig`. -/
structure InferenceStageConfig where
  timeout : Int64 := 200
  failureMode : FailureMode := .failOpen
  composition : CompositionRule := .weightedScore
  scoreThreshold : Single := .finite (1 / 2)
  evaluators : List EvaluatorFn := []

/-- `PolicyStageRule`. -/
structure PolicyStageRule where
  rule : PolicyRule
  priority : Int32 := 0
  actionVerdict : Verdict := .block
  ruleId : String := ""
  decisionTypeId : Option String := none

/-- `PolicyStageConfig`. -/
structure PolicyStageConfig where
  timeout : Int64 := 20
  failureMode : FailureMode := .failClosed
  rules : List PolicyStageRule := []

/-- The sort of the rules by ascending priority. -/
abbrev RuleSort :=
  SortFunction fun psr : PolicyStageRule => psr.priority.toInt

/-- `PolicyStageConfig::add_rule`. -/
def PolicyStageConfig.addRule (sort : RuleSort) (config : PolicyStageConfig)
    (psr : PolicyStageRule) : PolicyStageConfig :=
  { config with rules := sort.sort (config.rules ++ [psr]) }

namespace FailureMode

/-- The result that stands for an evaluator that failed: the common body of
`apply_failure_mode` in the evaluation and in the inference stage. -/
def result (mode : FailureMode) (evaluatorId : String) : EvaluatorResult :=
  match mode with
  | .failOpen =>
      { evaluatorId, skipped := true
        verdict := .pass, reasonCode := some "fail_open" }
  | .failClosed =>
      { evaluatorId, skipped := true
        verdict := .block, reasonCode := some "fail_closed" }
  | .emitDegraded =>
      { evaluatorId, skipped := true
        verdict := .pass, reasonCode := some "degraded" }

end FailureMode
end Stage
end Fre
