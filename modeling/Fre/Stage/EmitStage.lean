import Fre.Core.Decision
import Fre.Core.Error

/-!
# The emission stage

`EmitStage::process` calls the registered targets in order and retries each of
them up to the limit.  A target is outside the program, so the outcome of each
call is an input; the stage is given by what it does after the outcome of its
next call.
-/

namespace Fre
namespace Stage

/-- What the emission needs of `EmitStageConfig`: the retry limit and the
number of targets. -/
structure EmitStageConfig where
  retryLimit : UInt32 := 3
  targets : Nat

/-- How one call of a target ends. -/
inductive TargetOutcome
  | delivered
  | failed (error : EmissionError)
  | threw
  deriving DecidableEq

/-- The local state of `EmitStage::process` before its next call of a target:
the index of the target, the failed attempts at it, and what has been
accumulated. -/
structure Emission where
  target : Nat := 0
  attempts : UInt32 := 0
  evaluatorResults : List EvaluatorResult := []
  degradedReason : DegradedReason := .none
  droppedDecisions : UInt64 := 0
  deriving DecidableEq

namespace Emission

/-- The result recorded for a target that took the decision. -/
def targetResult : EvaluatorResult where
  evaluatorId := "emission_target"
  verdict := .pass

/-- The stage after the next call; none when the target threw. -/
def afterCall (config : EmitStageConfig) (emission : Emission) :
    TargetOutcome → Option Emission
  | .delivered =>
      some { emission with
        target := emission.target + 1
        attempts := 0
        evaluatorResults := emission.evaluatorResults ++ [targetResult] }
  | .failed _ =>
      let attempts := emission.attempts + 1
      if attempts ≤ config.retryLimit then
        some { emission with attempts := attempts }
      else
        some { emission with
          target := emission.target + 1
          attempts := 0
          degradedReason :=
            emission.degradedReason.merge .emissionRetryExhausted
          droppedDecisions := emission.droppedDecisions + 1 }
  | .threw => none

/-- The stage after the calls that end in the given way, one after the other;
none when a target threw, or when the outcomes end before the stage does. -/
def afterCalls (config : EmitStageConfig) :
    Emission → List TargetOutcome → Option Emission
  | emission, [] =>
      if config.targets ≤ emission.target then some emission else none
  | emission, outcome :: rest =>
      if config.targets ≤ emission.target then some emission
      else
        (emission.afterCall config outcome).bind fun next =>
          next.afterCalls config rest

/-- The output of the stage after the last target. -/
def output (emission : Emission) (elapsedUs : UInt64) : StageOutput where
  stageId := "emit"
  verdict := .pass
  evaluatorResults := emission.evaluatorResults
  degradedReason := emission.degradedReason
  elapsedUs := elapsedUs

end Emission
end Stage
end Fre
