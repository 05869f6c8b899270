import Fre.Pipeline.PipelineConfig
import Fre.Pipeline.SubmitSync
import Fre.Stage.EvalStage
import Fre.Stage.InferenceStage
import Fre.Stage.IngestStage

/-!
# The stages of one event

The part of `Pipeline::Impl::run_event` before the emission: the stages in
order, each appending its output, and the decision assembled from the outputs.
An exception of an evaluator leaves the coroutine.
-/

namespace Fre
namespace Pipeline

open Foundation Policy Stage

/-- What a run reads from the clocks and from the scheduler. -/
structure RunInputs where
  eventId : UInt64 := 0
  decidedAt : Int64 := 0
  ingestNow : Int64 := 0
  late : Nat → Bool := fun _ => false
  policyClock : Clock := Stream'.const 0
  ingestUs : UInt64 := 0
  evalUs : UInt64 := 0
  inferenceUs : UInt64 := 0
  policyUs : UInt64 := 0
  elapsedUs : UInt64 := 0

/-- The output of the ingest stage. -/
def ingestOutput (config : PipelineConfig) (event : Event)
    (inputs : RunInputs) : StageOutput :=
  IngestStage.process config.ingestConfig event inputs.ingestNow inputs.ingestUs

/-- The output of the evaluation stage, if it is configured; none when an
evaluator throws. -/
def evalOutputs (config : PipelineConfig) (event : Event)
    (inputs : RunInputs) : Option (List StageOutput) :=
  match config.evalConfig with
  | none => some []
  | some eval =>
      (EvalStage.process eval event inputs.evalUs).map fun output => [output]

/-- The output of the inference stage, if it is configured; none when a worker
throws. -/
def inferenceOutputs (config : PipelineConfig) (event : Event)
    (inputs : RunInputs) : Option (List StageOutput) :=
  match config.inferenceConfig with
  | none => some []
  | some inference =>
      (InferenceStage.process inference event inputs.late
        inputs.inferenceUs).map fun output => [output]

/-- The outputs of the stages before the policy stage. -/
def earlierOutputs (config : PipelineConfig) (event : Event)
    (inputs : RunInputs) : Option (List StageOutput) :=
  (evalOutputs config event inputs).bind fun evaluated =>
    (inferenceOutputs config event inputs).map fun inferred =>
      ingestOutput config event inputs :: (evaluated ++ inferred)

/-- The context that the policy stage is called with, if it is reached. -/
def policyContext (config : PipelineConfig) (event : Event)
    (inputs : RunInputs) : Option PolicyContext :=
  (earlierOutputs config event inputs).map fun outputs =>
    { event, stageOutputs := outputs }

/-- The output of the policy stage, if it is configured. -/
def policyOutputs (config : PipelineConfig) (context : PolicyContext)
    (inputs : RunInputs) : List StageOutput :=
  match config.policyConfig with
  | none => []
  | some policy =>
      [PolicyStage.process config.decisionTypeRegistry policy context
        inputs.policyClock inputs.policyUs]

/-- The decision before its computed fields. -/
def newDecision (config : PipelineConfig) (event : Event)
    (inputs : RunInputs) : Decision where
  pipelineId := config.pipelineId
  pipelineVersion := config.pipelineVersion
  eventId := inputs.eventId
  tenantId := event.tenantId
  entityId := event.entityId
  decidedAt := inputs.decidedAt

/-- The decision with the stage outputs and the fields computed from them. -/
def assemble (sort : ActiveDecisionSort) (config : PipelineConfig)
    (inputs : RunInputs) (decision : Decision) (outputs : List StageOutput) :
    Decision :=
  { (({ decision with
        stageOutputs := outputs }.computeFinalVerdict).mergeDegradedReasons
      ).computeActiveDecisions sort config.decisionTypeRegistry with
    elapsedUs := inputs.elapsedUs }

/-- The stages of `run_event` before the emission. -/
def runStages (sort : ActiveDecisionSort) (config : PipelineConfig)
    (sync : Bool) (event : Event) (inputs : RunInputs) : SubmitSync.Assembly :=
  let decision := newDecision config event inputs
  let event := { event with id := inputs.eventId }
  if sync && (ingestOutput config event inputs).degradedReason ==
      .ingestValidationFailed then
    .validationFailed
  else
    match policyContext config event inputs with
    | none => .threw
    | some context =>
        .decided (assemble sort config inputs decision
          (context.stageOutputs ++ policyOutputs config context inputs))

/-- A decision of the stages is assembled from the context of the policy stage
and the output of that stage. -/
theorem exists_of_runStages_decided
    {sort : ActiveDecisionSort}
    {config : PipelineConfig}
    {sync : Bool}
    {event : Event}
    {inputs : RunInputs}
    {decision : Decision}
    (decided : runStages sort config sync event inputs = .decided decision) :
    ∃ context, policyContext config { event with id := inputs.eventId } inputs =
        some context ∧
      decision = assemble sort config inputs (newDecision config event inputs)
        (context.stageOutputs ++ policyOutputs config context inputs) := by
  unfold runStages at decided
  dsimp only at decided
  split at decided
  next => cases decided
  next =>
    split at decided
    next => cases decided
    next context reached =>
      exact ⟨context, reached, (SubmitSync.Assembly.decided.inj decided).symm⟩

/-- The ids of an assembled decision are those it was made with. -/
theorem assemble_ids
    (sort : ActiveDecisionSort)
    (config : PipelineConfig)
    (inputs : RunInputs)
    (decision : Decision)
    (outputs : List StageOutput) :
    (assemble sort config inputs decision outputs).tenantId =
        decision.tenantId ∧
      (assemble sort config inputs decision outputs).entityId =
        decision.entityId := by
  unfold assemble Decision.computeActiveDecisions
  split
  · exact ⟨rfl, rfl⟩
  · split
    · exact ⟨rfl, rfl⟩
    · exact ⟨rfl, rfl⟩

/-! ### The outputs that the policy stage sees -/

/-- The stages before the policy stage. -/
def earlierStages (config : PipelineConfig) : List String :=
  ["ingest"] ++
    (if config.evalConfig.isSome then ["eval"] else []) ++
    (if config.inferenceConfig.isSome then ["inference"] else [])

theorem mem_stages_of_mem_earlierStages
    {config : PipelineConfig}
    {stageId : String}
    (member : stageId ∈ earlierStages config) :
    stageId ∈ ["ingest", "eval", "inference"] := by
  have optional : ∀ (present : Bool) (name : String),
      (if present then [name] else []).Sublist [name] := by
    intro present name
    cases present with
    | false => exact List.nil_sublist _
    | true => exact List.Sublist.refl _
  have contained : (earlierStages config).Sublist
      (["ingest"] ++ ["eval"] ++ ["inference"]) :=
    ((List.Sublist.refl _).append (optional _ _)).append (optional _ _)
  exact contained.subset member

/-- The parts of the context. -/
theorem policyContext_eq_some_iff
    {config : PipelineConfig}
    {event : Event}
    {inputs : RunInputs}
    {context : PolicyContext} :
    policyContext config event inputs = some context ↔
      ∃ evaluated inferred,
        evalOutputs config event inputs = some evaluated ∧
        inferenceOutputs config event inputs = some inferred ∧
        context =
          { event
            stageOutputs :=
              ingestOutput config event inputs :: (evaluated ++ inferred) } := by
  unfold policyContext earlierOutputs
  simp only [Option.map_eq_some_iff, Option.bind_eq_some_iff]
  constructor
  · rintro ⟨outputs, ⟨evaluated, evalDone, inferred, inferenceDone, rfl⟩, rfl⟩
    exact ⟨evaluated, inferred, evalDone, inferenceDone, rfl⟩
  · rintro ⟨evaluated, inferred, evalDone, inferenceDone, rfl⟩
    exact ⟨_, ⟨evaluated, evalDone, inferred, inferenceDone, rfl⟩, rfl⟩

theorem evalOutputs_stageIds
    {config : PipelineConfig}
    {event : Event}
    {inputs : RunInputs}
    {outputs : List StageOutput}
    (done : evalOutputs config event inputs = some outputs) :
    outputs.map StageOutput.stageId =
      if config.evalConfig.isSome then ["eval"] else [] := by
  unfold evalOutputs at done
  split at done
  next absent =>
    rw [← Option.some_inj.mp done, absent]
    rfl
  next eval configured =>
    obtain ⟨output, processed, rfl⟩ := Option.map_eq_some_iff.mp done
    simp [configured, (EvalStage.process_results processed).1]

theorem inferenceOutputs_stageIds
    {config : PipelineConfig}
    {event : Event}
    {inputs : RunInputs}
    {outputs : List StageOutput}
    (done : inferenceOutputs config event inputs = some outputs) :
    outputs.map StageOutput.stageId =
      if config.inferenceConfig.isSome then ["inference"] else [] := by
  unfold inferenceOutputs at done
  split at done
  next absent =>
    rw [← Option.some_inj.mp done, absent]
    rfl
  next inference configured =>
    obtain ⟨output, processed, rfl⟩ := Option.map_eq_some_iff.mp done
    simp [configured, (InferenceStage.process_results processed).1]

/-- The context has exactly one output for each stage before the policy
stage. -/
theorem policyContext_stageIds
    {config : PipelineConfig}
    {event : Event}
    {inputs : RunInputs}
    {context : PolicyContext}
    (reached : policyContext config event inputs = some context) :
    context.stageOutputs.map StageOutput.stageId = earlierStages config := by
  obtain ⟨evaluated, inferred, evalDone, inferenceDone, rfl⟩ :=
    policyContext_eq_some_iff.mp reached
  simp [ingestOutput, evalOutputs_stageIds evalDone,
    inferenceOutputs_stageIds inferenceDone, earlierStages]

end Pipeline
end Fre
