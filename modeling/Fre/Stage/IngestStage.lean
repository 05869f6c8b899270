import Fre.Stage.StageConfig

/-!
# The ingest stage

`IngestStage::process` checks the required fields of the event and flags events
that arrive late.  It always returns an output.
-/

namespace Fre
namespace Stage
namespace IngestStage

/-- The age of an event in whole milliseconds, rounded towards zero. -/
def eventAge (event : Event) (now : Int64) : Int64 :=
  (now - event.timestamp) / 1000000

/-- The result for an event without its required fields. -/
def invalidResult : EvaluatorResult where
  evaluatorId := "ingest_validator"
  reasonCode := some "invalid_event_fields"

/-- The result for a late event. -/
def lateResult : EvaluatorResult where
  evaluatorId := "ingest_skew_check"
  verdict := .flag
  reasonCode := some "late_arrival"

/-- The result for any other event. -/
def validResult : EvaluatorResult where
  evaluatorId := "ingest_validator"

/-- `IngestStage::process` at a reading of the system clock. -/
def process (config : IngestStageConfig) (event : Event) (now : Int64)
    (elapsedUs : UInt64) : StageOutput :=
  if !event.isValid then
    { stageId := "ingest"
      degradedReason := .ingestValidationFailed
      evaluatorResults := [invalidResult]
      elapsedUs }
  else if config.skewTolerance < eventAge event now then
    { stageId := "ingest"
      verdict := .flag
      evaluatorResults := [lateResult]
      elapsedUs }
  else
    { stageId := "ingest"
      evaluatorResults := [validResult]
      elapsedUs }

@[simp] theorem process_stageId
    (config : IngestStageConfig)
    (event : Event)
    (now : Int64)
    (elapsedUs : UInt64) :
    (process config event now elapsedUs).stageId = "ingest" := by
  unfold process
  split
  · rfl
  · split <;> rfl

/-- The stage records one result, under one of its own names, and it is never
marked as skipped. -/
theorem process_results
    (config : IngestStageConfig)
    (event : Event)
    (now : Int64)
    (elapsedUs : UInt64) :
    ∃ result,
      (process config event now elapsedUs).evaluatorResults = [result] ∧
        result.skipped = false ∧
        (result.evaluatorId = "ingest_validator" ∨
          result.evaluatorId = "ingest_skew_check") := by
  unfold process
  split
  · exact ⟨invalidResult, rfl, rfl, Or.inl rfl⟩
  · split
    · exact ⟨lateResult, rfl, rfl, Or.inr rfl⟩
    · exact ⟨validResult, rfl, rfl, Or.inl rfl⟩

end IngestStage
end Stage
end Fre
