import Fre.Core.Decision
import Fre.Core.Error
import Fre.Foundation.Json

/-!
# The JSON form of a decision

`DecisionSerializer::to_json` writes a decision field by field and `from_json`
reads it back, with a default for every field that is missing.  The printer and
the parser of the JSON library are parameters.  The reader does not look at the
degradation of the decision, at its time, or at the degradation and the results
of its stages.
-/

namespace Fre
namespace Service
namespace DecisionSerializer

open Foundation

/-! ### Writing -/

/-- `verdict_to_str`. -/
def verdictToStr : Verdict → String
  | .pass => "pass"
  | .flag => "flag"
  | .block => "block"

/-- `str_to_verdict`. -/
def strToVerdict (text : String) : Verdict :=
  if text = "flag" then .flag else if text = "block" then .block else .pass

@[simp] theorem strToVerdict_verdictToStr (verdict : Verdict) :
    strToVerdict (verdictToStr verdict) = verdict := by
  cases verdict <;> rfl

/-- A score; one that is not finite is printed as null. -/
def scoreToJson : Single → Json
  | .finite score => .float score
  | _ => .null

/-- The entry of a value that may be absent. -/
def optionalEntry {α : Type} (key : String) (write : α → Json) :
    Option α → List (String × Json)
  | some value => [(key, write value)]
  | none => []

/-- `evaluator_result_to_json`. -/
def evaluatorResultToJson (result : EvaluatorResult) : Json :=
  .object
    ([("evaluator_id", Json.string result.evaluatorId),
        ("verdict", Json.string (verdictToStr result.verdict))] ++
      optionalEntry "reason_code" Json.string result.reasonCode ++
      [("skipped", Json.boolean result.skipped)] ++
      optionalEntry "score" scoreToJson result.score)

/-- `stage_output_to_json`. -/
def stageOutputToJson (output : StageOutput) : Json :=
  .object
    [("stage_id", .string output.stageId),
      ("verdict", .string (verdictToStr output.verdict)),
      ("elapsed_us", .integer output.elapsedUs.toNat),
      ("degraded", .integer output.degradedReason.bits.toNat),
      ("evaluator_results",
        .array (output.evaluatorResults.map evaluatorResultToJson))]

/-- The entry of an active decision. -/
def activeDecisionToJson (active : ActiveDecision) : Json :=
  .object
    [("decision_type_id", .string active.decisionTypeId),
      ("rule_id", .string active.ruleId),
      ("priority", .integer active.priority.toNat)]

/-- The time of a decision in whole microseconds, rounded towards zero. -/
def decidedAtUs (decision : Decision) : Int64 := decision.decidedAt / 1000

/-- The list of the active decisions, if there are any. -/
def activeDecisionsEntry (active : List ActiveDecision) :
    List (String × Json) :=
  if active.isEmpty then []
  else [("active_decisions", .array (active.map activeDecisionToJson))]

/-- The value that `to_json` prints. -/
def decisionToJson (decision : Decision) : Json :=
  .object
    ([("pipeline_id", Json.string decision.pipelineId),
        ("pipeline_version", Json.string decision.pipelineVersion),
        ("event_id", Json.integer decision.eventId.toNat),
        ("tenant_id", Json.string decision.tenantId),
        ("entity_id", Json.string decision.entityId),
        ("final_verdict", Json.string (verdictToStr decision.finalVerdict)),
        ("elapsed_us", Json.integer decision.elapsedUs.toNat),
        ("degraded_reason", Json.integer decision.degradedReason.bits.toNat),
        ("decided_at_us", Json.integer (decidedAtUs decision).toInt),
        ("stage_outputs",
          Json.array (decision.stageOutputs.map stageOutputToJson))] ++
      activeDecisionsEntry decision.activeDecisions)

/-- `DecisionSerializer::to_json`. -/
def toJson (dump : Json → String) (decision : Decision) : String :=
  dump (decisionToJson decision)

/-! ### Reading -/

/-- The loop body over the stage outputs. -/
def readStageOutput (json : Json) : Except String StageOutput := do
  let stageId ← json.value Json.getString "stage_id" ""
  let verdict ← json.value Json.getString "verdict" "pass"
  let elapsedUs ← json.value Json.getUInt64 "elapsed_us" 0
  return { stageId, verdict := strToVerdict verdict, elapsedUs }

/-- The loop body over the active decisions. -/
def readActiveDecision (json : Json) : Except String ActiveDecision := do
  let decisionTypeId ← json.value Json.getString "decision_type_id" ""
  let ruleId ← json.value Json.getString "rule_id" ""
  let priority ← json.value Json.getUInt32 "priority" 0
  return { decisionTypeId, ruleId, priority }

/-- The loop over an entry, if it is there. -/
def readEach {α : Type} (read : Json → Except String α) (json : Json)
    (key : String) : Except String (List α) :=
  match json.entry key with
  | some found => found.items.mapM read
  | none => .ok []

/-- The reading of a decision from the parsed value. -/
def readDecision (json : Json) : Except String Decision := do
  let pipelineId ← json.value Json.getString "pipeline_id" ""
  let pipelineVersion ← json.value Json.getString "pipeline_version" ""
  let eventId ← json.value Json.getUInt64 "event_id" 0
  let tenantId ← json.value Json.getString "tenant_id" ""
  let entityId ← json.value Json.getString "entity_id" ""
  let finalVerdict ← json.value Json.getString "final_verdict" "pass"
  let elapsedUs ← json.value Json.getUInt64 "elapsed_us" 0
  let stageOutputs ← readEach readStageOutput json "stage_outputs"
  let activeDecisions ← readEach readActiveDecision json "active_decisions"
  return {
    pipelineId, pipelineVersion, eventId, tenantId, entityId
    finalVerdict := strToVerdict finalVerdict
    elapsedUs, stageOutputs, activeDecisions }

/-- `DecisionSerializer::from_json`. -/
def fromJson (parse : String → Except String Json) (text : String) :
    Except EmissionError Decision :=
  match parse text >>= readDecision with
  | .ok decision => .ok decision
  | .error what => .error ⟨.serializationError, "deserializer", what⟩

/-! ### What is read back -/

/-- What is read back of a stage output. -/
def rereadStage (output : StageOutput) : StageOutput where
  stageId := output.stageId
  verdict := output.verdict
  elapsedUs := output.elapsedUs

/-- What is read back of a decision. -/
def reread (decision : Decision) : Decision where
  pipelineId := decision.pipelineId
  pipelineVersion := decision.pipelineVersion
  eventId := decision.eventId
  tenantId := decision.tenantId
  entityId := decision.entityId
  finalVerdict := decision.finalVerdict
  elapsedUs := decision.elapsedUs
  stageOutputs := decision.stageOutputs.map rereadStage
  activeDecisions := decision.activeDecisions

theorem readStageOutput_stageOutputToJson (output : StageOutput) :
    readStageOutput (stageOutputToJson output) = .ok (rereadStage output) := by
  simp [readStageOutput, stageOutputToJson, Json.value, List.lookup_cons,
    Json.getString, rereadStage, bind, Except.bind, pure, Except.pure]

theorem readActiveDecision_activeDecisionToJson (active : ActiveDecision) :
    readActiveDecision (activeDecisionToJson active) = .ok active := by
  simp [readActiveDecision, activeDecisionToJson, Json.value, List.lookup_cons,
    Json.getString, bind, Except.bind, pure, Except.pure]

theorem readEach_stageOutputs (decision : Decision) :
    readEach readStageOutput (decisionToJson decision) "stage_outputs" =
      .ok (decision.stageOutputs.map rereadStage) := by
  have found : (decisionToJson decision).entry "stage_outputs" =
      some (.array (decision.stageOutputs.map stageOutputToJson)) := by
    simp [decisionToJson, Json.entry, List.lookup_cons]
  rw [readEach, found]
  exact Json.mapM_map_eq_ok readStageOutput_stageOutputToJson _

/-- Active decisions that were not written are read back as none. -/
theorem readEach_activeDecisions (decision : Decision) :
    readEach readActiveDecision (decisionToJson decision) "active_decisions" =
      .ok decision.activeDecisions := by
  have found : (decisionToJson decision).entry "active_decisions" =
      if decision.activeDecisions.isEmpty then none
      else
        some (.array (decision.activeDecisions.map activeDecisionToJson)) := by
    simp only [decisionToJson, Json.entry, List.lookup_append,
      activeDecisionsEntry]
    cases decision.activeDecisions.isEmpty <;> simp [List.lookup_cons]
  have readAll := Json.mapM_map_eq_ok readActiveDecision_activeDecisionToJson
    decision.activeDecisions
  rw [readEach, found]
  cases empty : decision.activeDecisions with
  | nil => rfl
  | cons first rest =>
      rw [empty, List.map_id'] at readAll
      exact readAll

theorem readDecision_decisionToJson (decision : Decision) :
    readDecision (decisionToJson decision) = .ok (reread decision) := by
  unfold readDecision
  rw [readEach_stageOutputs, readEach_activeDecisions]
  simp [decisionToJson, Json.value, List.lookup_cons, Json.getString, reread,
    bind, Except.bind, pure, Except.pure]

/-- When the parser undoes the printer on what is written, the reader succeeds
and gives what it keeps of the decision. -/
theorem fromJson_toJson
    {dump : Json → String}
    {parse : String → Except String Json}
    {decision : Decision}
    (undoes : parse (dump (decisionToJson decision)) =
      .ok (decisionToJson decision)) :
    fromJson parse (toJson dump decision) = .ok (reread decision) := by
  have readBack : (parse (toJson dump decision) >>= readDecision) =
      .ok (reread decision) := by
    rw [toJson, undoes]
    exact readDecision_decisionToJson decision
  rw [fromJson, readBack]

/-! ### The round trip -/

/-- The part of an evaluator result that is written. -/
def writtenResult (result : EvaluatorResult) : EvaluatorResult :=
  { result with metadata := none, decisionTypeId := none }

/-- The part of a stage output that is written. -/
def writtenStage (output : StageOutput) : StageOutput :=
  { output with
    evaluatorResults := output.evaluatorResults.map writtenResult }

/-- Two decisions agree on everything that is written. -/
structure SameWritten (left right : Decision) : Prop where
  pipelineId : left.pipelineId = right.pipelineId
  pipelineVersion : left.pipelineVersion = right.pipelineVersion
  eventId : left.eventId = right.eventId
  tenantId : left.tenantId = right.tenantId
  entityId : left.entityId = right.entityId
  finalVerdict : left.finalVerdict = right.finalVerdict
  elapsedUs : left.elapsedUs = right.elapsedUs
  degradedReason : left.degradedReason = right.degradedReason
  decidedAt : decidedAtUs left = decidedAtUs right
  stageOutputs : left.stageOutputs.map writtenStage =
    right.stageOutputs.map writtenStage
  activeDecisions : left.activeDecisions = right.activeDecisions

/-- The fields that the reader forgets have their defaults. -/
structure NothingForgotten (decision : Decision) : Prop where
  degradedReason : decision.degradedReason = .none
  decidedAt : decidedAtUs decision = 0
  stages : ∀ output ∈ decision.stageOutputs,
    output.degradedReason = .none ∧ output.evaluatorResults = []

theorem writtenStage_rereadStage_iff (output : StageOutput) :
    writtenStage (rereadStage output) = writtenStage output ↔
      output.degradedReason = .none ∧ output.evaluatorResults = [] := by
  constructor
  · intro same
    have degraded := congrArg StageOutput.degradedReason same
    have results := congrArg StageOutput.evaluatorResults same
    exact ⟨degraded.symm, List.map_eq_nil_iff.mp results.symm⟩
  · rintro ⟨degraded, results⟩
    simp [writtenStage, rereadStage, degraded, results]

theorem sameWritten_reread_iff (decision : Decision) :
    SameWritten (reread decision) decision ↔ NothingForgotten decision := by
  have stages : (reread decision).stageOutputs.map writtenStage =
      decision.stageOutputs.map writtenStage ↔
        ∀ output ∈ decision.stageOutputs,
          output.degradedReason = .none ∧ output.evaluatorResults = [] := by
    change (decision.stageOutputs.map rereadStage).map writtenStage = _ ↔ _
    rw [List.map_map, List.map_inj_left]
    simp only [Function.comp_apply, writtenStage_rereadStage_iff]
  have atEpoch : decidedAtUs (reread decision) = 0 := by
    change (0 : Int64) / 1000 = 0
    decide
  constructor
  · intro same
    exact ⟨same.degradedReason.symm, same.decidedAt.symm.trans atEpoch,
      stages.mp same.stageOutputs⟩
  · intro nothing
    exact ⟨rfl, rfl, rfl, rfl, rfl, rfl, rfl, nothing.degradedReason.symm,
      atEpoch.trans nothing.decidedAt.symm, stages.mpr nothing.stages, rfl⟩

/-- The round trip of a decision through its JSON form succeeds and gives back
everything that was written if and only if the fields that the reader forgets
have their defaults. -/
theorem roundTrip_iff
    (dump : Json → String)
    (parse : String → Except String Json)
    (decision : Decision)
    (undoes : parse (dump (decisionToJson decision)) =
      .ok (decisionToJson decision)) :
    (∃ back, fromJson parse (toJson dump decision) = .ok back ∧
      SameWritten back decision) ↔
        NothingForgotten decision := by
  rw [fromJson_toJson undoes]
  simp only [Except.ok.injEq, exists_eq_left']
  exact sameWritten_reread_iff decision

/-- A decision of which nothing is forgotten. -/
def plainDecision : Decision where
  pipelineId := "p"
  pipelineVersion := "1.0.0"
  eventId := 7
  tenantId := "t"
  entityId := "e"
  stageOutputs := [{ stageId := "policy", verdict := .flag, elapsedUs := 3 }]
  finalVerdict := .flag
  elapsedUs := 9
  activeDecisions :=
    [{ decisionTypeId := "review", ruleId := "r", priority := 1 }]

/-- Its compact text, with the keys in order. -/
def plainText : String :=
  "\x7b\"active_decisions\":[\x7b\"decision_type_id\":\"review\"," ++
    "\"priority\":1,\"rule_id\":\"r\"\x7d],\"decided_at_us\":0," ++
    "\"degraded_reason\":0,\"elapsed_us\":9,\"entity_id\":\"e\"," ++
    "\"event_id\":7,\"final_verdict\":\"flag\",\"pipeline_id\":\"p\"," ++
    "\"pipeline_version\":\"1.0.0\",\"stage_outputs\":[\x7b\"degraded\":0," ++
    "\"elapsed_us\":3,\"evaluator_results\":[],\"stage_id\":\"policy\"," ++
    "\"verdict\":\"flag\"\x7d],\"tenant_id\":\"t\"\x7d"

/-- A parser that knows that text. -/
def parsePlain (text : String) : Except String Json :=
  if text = plainText then .ok (decisionToJson plainDecision)
  else .error "[json.exception.parse_error.101] parse error"

/-- That decision comes back as it was written. -/
theorem roundTrip_plainDecision :
    ∃ back,
      fromJson parsePlain (toJson (fun _ => plainText) plainDecision) =
          .ok back ∧
        SameWritten back plainDecision := by
  refine (roundTrip_iff (fun _ => plainText) parsePlain plainDecision
    (if_pos rfl)).mpr ⟨rfl, by decide, ?_⟩
  simp [plainDecision]

/-- A decision that was degraded by a timeout, one second after the epoch. -/
def degradedDecision : Decision where
  decidedAt := 1000000000
  stageOutputs :=
    [{ stageId := "inference"
       evaluatorResults :=
         [{ evaluatorId := "inference_evaluator_0", skipped := true }]
       degradedReason := .evaluatorTimeout }]
  degradedReason := .evaluatorTimeout

/-- Whatever library prints and parses it, it comes back without its
degradation, its time and its evaluator results. -/
theorem roundTrip_forgets :
    ∃ decision : Decision, ∀ dump parse,
      parse (dump (decisionToJson decision)) = .ok (decisionToJson decision) →
        fromJson parse (toJson dump decision) =
            .ok { stageOutputs := [{ stageId := "inference" }] } ∧
          ¬ SameWritten { stageOutputs := [{ stageId := "inference" }] }
            decision := by
  refine ⟨degradedDecision, fun dump parse undoes => ⟨?_, ?_⟩⟩
  · rw [fromJson_toJson undoes]
    rfl
  · intro same
    exact absurd same.degradedReason (by decide)

end DecisionSerializer
end Service
end Fre
