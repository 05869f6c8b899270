import Fre.Core.Verdict

/-!
# Decisions

The record assembled for an event, as it is handed to the emission targets and
to a synchronous caller.
-/

namespace Fre

/-- `ActiveDecision`. -/
structure ActiveDecision where
  decisionTypeId : String
  ruleId : String
  priority : UInt32 := 0
  deriving DecidableEq, Repr

/-- `Decision`.  Times are nanoseconds since the epoch. -/
structure Decision where
  pipelineId : String := ""
  pipelineVersion : String := ""
  eventId : UInt64 := 0
  tenantId : String := ""
  entityId : String := ""
  decidedAt : Int64 := 0
  stageOutputs : List StageOutput := []
  finalVerdict : Verdict := .pass
  degradedReason : DegradedReason := .none
  elapsedUs : UInt64 := 0
  activeDecisions : List ActiveDecision := []
  deriving DecidableEq

namespace Decision

/-- `Decision::compute_final_verdict`. -/
def computeFinalVerdict (decision : Decision) : Decision :=
  { decision with
    finalVerdict :=
      Verdict.strictest (decision.stageOutputs.map StageOutput.verdict) }

/-- `Decision::merge_degraded_reasons`. -/
def mergeDegradedReasons (decision : Decision) : Decision :=
  { decision with
    degradedReason :=
      (decision.stageOutputs.map StageOutput.degradedReason).foldl
        DegradedReason.merge .none }

/-- `Decision::is_degraded`. -/
def isDegraded (decision : Decision) : Bool :=
  decision.degradedReason.isDegraded

/-- `Decision::stage_output`: the first output of a stage. -/
def stageOutput (decision : Decision) (stageId : String) :
    Option StageOutput :=
  decision.stageOutputs.find? fun output => output.stageId == stageId

end Decision
end Fre
