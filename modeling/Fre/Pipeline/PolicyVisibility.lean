import Fre.Pipeline.RunEvent

/-!
# What policy rules can see

The policy stage is called with the outputs of the stages before it.  A rule may
name a stage or an evaluator; this module says when the named thing is there: a
stage by its identifier, and a failed evaluator by the identifier of its error.
-/

namespace Fre
namespace Pipeline

open Foundation Policy Stage

/-! ### Stages -/

/-- The node names the stage. -/
def NamesStage (node : PolicyRule) (stageId : String) : Prop :=
  (∃ verdict, node = .stageVerdictIs stageId verdict) ∨
    node = .stageIsDegraded stageId

/-- Every stage named in a rule of the policy has an output in the context. -/
def NamedStagesVisible (policy : PolicyStageConfig)
    (context : PolicyContext) : Prop :=
  ∀ psr ∈ policy.rules, ∀ node, PolicyRule.Occurs node psr.rule →
    ∀ stageId, NamesStage node stageId →
      ∃ output ∈ context.stageOutputs, output.stageId = stageId

/-- The stages that may be referred to are the earlier ones and the emission. -/
theorem mem_activeStages_iff (config : PipelineConfig) (stageId : String) :
    stageId ∈ activeStages config ↔
      stageId = "emit" ∨ stageId ∈ earlierStages config := by
  simp only [activeStages, earlierStages, List.mem_append, List.mem_cons,
    List.not_mem_nil, or_false]
  rw [or_comm (a := stageId = "ingest"), or_assoc, or_assoc, or_assoc]

theorem emit_not_mem_earlierStages (config : PipelineConfig) :
    "emit" ∉ earlierStages config := by
  intro member
  exact absurd (mem_stages_of_mem_earlierStages member) (by decide)

/-- The rules of an accepted policy see every stage they name exactly when none
asks for the verdict of the emission, and none asks whether a stage is degraded
that does not run before the policy stage. -/
theorem named_stages_visible_iff
    (builder : Builder)
    (config : PipelineConfig)
    (built : builder.build = some (.ok config))
    (policy : PolicyStageConfig)
    (configured : config.policyConfig = some policy)
    (event : Event)
    (inputs : RunInputs)
    (context : PolicyContext)
    (reached : policyContext config event inputs = some context) :
    NamedStagesVisible policy context ↔
      ∀ psr ∈ policy.rules,
        (∀ verdict, ¬ PolicyRule.Occurs (.stageVerdictIs "emit" verdict)
          psr.rule) ∧
        ∀ stageId, PolicyRule.Occurs (.stageIsDegraded stageId) psr.rule →
          stageId ∈ earlierStages config := by
  have present : ∀ stageId,
      (∃ output ∈ context.stageOutputs, output.stageId = stageId) ↔
        stageId ∈ earlierStages config := by
    intro stageId
    rw [← policyContext_stageIds reached, List.mem_map]
  unfold NamedStagesVisible
  simp only [present]
  constructor
  · intro visible psr member
    constructor
    · intro verdict occurs
      exact emit_not_mem_earlierStages config
        (visible psr member _ occurs "emit" (Or.inl ⟨verdict, rfl⟩))
    · intro stageId occurs
      exact visible psr member _ occurs stageId (Or.inr rfl)
  · intro clear psr member node occurs stageId names
    have accepted := builder.ruleAccepted_of_build built configured psr member
    rcases names with ⟨verdict, rfl⟩ | rfl
    · rcases (mem_activeStages_iff config stageId).mp
        (accepted.stagesActive stageId verdict occurs) with rfl | earlier
      · exact absurd occurs ((clear psr member).1 verdict)
      · exact earlier
    · exact (clear psr member).2 stageId occurs

/-- A pipeline with one emission target and one policy rule. -/
def singleRuleBuilder (rule : PolicyRule) : Builder where
  config :=
    { emitConfig := { targets := 1 }
      policyConfig := some { rules := [{ rule }] } }
  hasEmit := true

/-- The event of the examples. -/
def sampleEvent : Event where
  tenantId := "t"
  entityId := "e"

/-- The context in which the policy stage of such a pipeline is called. -/
def sampleContext : PolicyContext where
  event := sampleEvent
  stageOutputs := [ingestOutput {} sampleEvent {}]

/-- A rule about the ingest stage sees it. -/
theorem ingest_visible :
    NamedStagesVisible
      { rules := [{ rule := .stageIsDegraded "ingest" }] } sampleContext := by
  refine (named_stages_visible_iff
    (singleRuleBuilder (.stageIsDegraded "ingest"))
    (singleRuleBuilder (.stageIsDegraded "ingest")).config rfl _ rfl
    sampleEvent {} sampleContext rfl).mpr ?_
  intro psr member
  obtain rfl := List.mem_singleton.mp member
  constructor
  · intro verdict occurs
    cases occurs
  · intro stageId occurs
    cases occurs
    exact List.mem_cons_self

/-- Two accepted pipelines without an inference stage: one asks for the verdict
of the emission, one whether the inference is degraded, and neither stage has an
output in the context of the policy. -/
theorem accepted_rules_name_invisible_stages :
    (singleRuleBuilder (.stageVerdictIs "emit" .pass)).build =
        some (.ok (singleRuleBuilder (.stageVerdictIs "emit" .pass)).config) ∧
      policyContext (singleRuleBuilder (.stageVerdictIs "emit" .pass)).config
        sampleEvent {} = some sampleContext ∧
      ¬ NamedStagesVisible { rules := [{ rule := .stageVerdictIs "emit" .pass }] }
        sampleContext ∧
      (singleRuleBuilder (.stageIsDegraded "inference")).build =
        some (.ok (singleRuleBuilder (.stageIsDegraded "inference")).config) ∧
      policyContext (singleRuleBuilder (.stageIsDegraded "inference")).config
        sampleEvent {} = some sampleContext ∧
      ¬ NamedStagesVisible { rules := [{ rule := .stageIsDegraded "inference" }] }
        sampleContext := by
  have onlyIngest : ∀ output ∈ sampleContext.stageOutputs,
      output.stageId = "ingest" := by decide
  refine ⟨rfl, rfl, ?_, rfl, rfl, ?_⟩
  · intro visible
    obtain ⟨output, member, isEmit⟩ := visible _ (List.mem_singleton_self _) _
      .here "emit" (Or.inl ⟨.pass, rfl⟩)
    rw [onlyIngest output member] at isEmit
    exact absurd isEmit (by decide)
  · intro visible
    obtain ⟨output, member, isInference⟩ := visible _
      (List.mem_singleton_self _) _ .here "inference" (Or.inr rfl)
    rw [onlyIngest output member] at isInference
    exact absurd isInference (by decide)

/-! ### Failed evaluators -/

/-- The place of an evaluator in the pipeline. -/
inductive EvaluatorPlace
  | eval (index : Nat)
  | inference (index : Nat)
  deriving DecidableEq

namespace EvaluatorPlace

/-- The evaluator at a place. -/
def evaluator (config : PipelineConfig) : EvaluatorPlace → Option EvaluatorFn
  | .eval index => config.evalConfig.bind fun eval => eval.evaluators[index]?
  | .inference index =>
      config.inferenceConfig.bind fun inference => inference.evaluators[index]?

/-- The evaluator is given up at its deadline. -/
def isLate (inputs : RunInputs) : EvaluatorPlace → Bool
  | .eval _ => false
  | .inference index => inputs.late index

/-- The evaluator at the place returns the error in time. -/
def ReturnsError (config : PipelineConfig) (event : Event)
    (inputs : RunInputs) (place : EvaluatorPlace) (error : EvaluatorError) :
    Prop :=
  ∃ evaluator, place.evaluator config = some evaluator ∧
    place.isLate inputs = false ∧ evaluator event = .failed error

/-- The evaluator at the place is late or returns an error. -/
def Fails (config : PipelineConfig) (event : Event) (inputs : RunInputs)
    (place : EvaluatorPlace) : Prop :=
  (∃ error, place.ReturnsError config event inputs error) ∨
    ((place.evaluator config).isSome ∧ place.isLate inputs = true)

/-- The result recorded for the evaluator at the place. -/
def recorded (config : PipelineConfig) (event : Event) (inputs : RunInputs) :
    EvaluatorPlace → Option EvaluatorResult
  | .eval index =>
      config.evalConfig.bind fun eval =>
        eval.evaluators[index]?.bind (EvalStage.recorded eval event index)
  | .inference index =>
      config.inferenceConfig.bind fun inference =>
        inference.evaluators[index]?.bind
          (InferenceStage.recorded inference event inputs.late index)

variable {config : PipelineConfig} {event : Event} {inputs : RunInputs}
  {place : EvaluatorPlace}

end EvaluatorPlace

end Pipeline
end Fre
