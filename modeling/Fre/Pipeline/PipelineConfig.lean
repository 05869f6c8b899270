import Fre.Sharding.Config
import Fre.Stage.EmitStage
import Fre.Stage.PolicyStage
import Mathlib.Data.List.Dedup
import Mathlib.Data.List.Sort

/-!
# Pipeline configurations and their validation

`PipelineConfig::Builder::build` returns the configuration unless `validate`
finds an error in it.  The check of the policy rules walks the rules and collects
the stages that `StageVerdictIs` nodes name; visiting a rule without a value
throws, and `build` with it.
-/

namespace Fre
namespace Pipeline

open Foundation Policy Stage

/-- What the pipeline needs of `EmitStageConfig`. -/
structure EmitConfig extends EmitStageConfig where
  timeout : Int64 := 10
  targets := 0

/-- `PipelineConfig`. -/
structure PipelineConfig where
  pipelineId : String := ""
  pipelineVersion : String := "1.0.0"
  latencyBudget : Int64 := 300
  sharding : ShardingConfig := {}
  rateLimit : RateLimitConfig := {}
  ingestConfig : IngestStageConfig := {}
  evalConfig : Option EvalStageConfig := none
  inferenceConfig : Option InferenceStageConfig := none
  policyConfig : Option PolicyStageConfig := none
  emitConfig : EmitConfig := {}
  decisionTypeRegistry : Option DecisionTypeRegistry := none

/-- `sum_stage_timeouts`. -/
def sumStageTimeouts (config : PipelineConfig) : Int64 :=
  let total := config.ingestConfig.timeout + config.emitConfig.timeout
  let total :=
    match config.evalConfig with
    | some eval => total + eval.timeout
    | none => total
  let total :=
    match config.inferenceConfig with
    | some inference => total + inference.timeout
    | none => total
  match config.policyConfig with
  | some policy => total + policy.timeout
  | none => total

/-- The references of two children, if both could be walked. -/
def collectBoth (left right : Option (List String)) : Option (List String) :=
  left.bind fun leftRefs => right.map fun rightRefs => leftRefs ++ rightRefs

mutual

/-- `collect_stage_refs`, in the order of the walk; none when it throws. -/
def collectStageRefs : PolicyRule → Option (List String)
  | .stageVerdictIs stageId _ => some [stageId]
  | .and left right => collectBoth (collectChild left) (collectChild right)
  | .or left right => collectBoth (collectChild left) (collectChild right)
  | .not expr => collectChild expr
  | .valueless => none
  | _ => some []

/-- The walk of a child, unless its pointer is null. -/
def collectChild : Option PolicyRule → Option (List String)
  | some rule => collectStageRefs rule
  | none => some []

end

/-- The order in which the set of references is gone through. -/
def setOrder (refs : List String) : List String :=
  refs.dedup.insertionSort (· ≤ ·)

/-- The stages that a policy rule may refer to. -/
def activeStages (config : PipelineConfig) : List String :=
  ["ingest", "emit"] ++
    (if config.evalConfig.isSome then ["eval"] else []) ++
    (if config.inferenceConfig.isSome then ["inference"] else [])

/-- The name of a rule in an error. -/
def ruleName (psr : PolicyStageRule) : String :=
  if psr.ruleId.isEmpty then "(unnamed)" else psr.ruleId

/-- The error for a reference to a stage that is not configured. -/
def undefinedStage (psr : PolicyStageRule) (ref : String) : ConfigError where
  code := .undefinedStageDependency
  detail := "policy rule '" ++ ruleName psr ++
    "' references undefined stage '" ++ ref ++ "'"

/-- The error for a decision type without a registry. -/
def noRegistry (psr : PolicyStageRule) : ConfigError where
  code := .invalidPolicyRule
  detail := "policy rule '" ++ ruleName psr ++
    "' has a decision_type_id but no " ++
    "DecisionTypeRegistry is configured on the pipeline"

/-- The error for a decision type that is not in the registry. -/
def unregisteredType (psr : PolicyStageRule) (typeId : String) :
    ConfigError where
  code := .invalidPolicyRule
  detail := "policy rule '" ++ ruleName psr ++
    "' references unregistered decision type '" ++ typeId ++ "'"

/-- The check of the decision type of a rule. -/
def validateType (config : PipelineConfig) (psr : PolicyStageRule) :
    Option ConfigError :=
  match psr.decisionTypeId with
  | none => none
  | some typeId =>
      match config.decisionTypeRegistry with
      | none => some (noRegistry psr)
      | some registry =>
          if (registry.find typeId).isNone then
            some (unregisteredType psr typeId)
          else none

/-- The check of one policy rule; none when it throws. -/
def validateRule (config : PipelineConfig) (psr : PolicyStageRule) :
    Option (Option ConfigError) :=
  (collectStageRefs psr.rule).map fun refs =>
    match (setOrder refs).find? fun ref => ref ∉ activeStages config with
    | some ref => some (undefinedStage psr ref)
    | none => validateType config psr

/-- The checks of the policy rules up to the first error; none when one of them
throws. -/
def validateRules (config : PipelineConfig) :
    List PolicyStageRule → Option (Option ConfigError)
  | [] => some none
  | psr :: rest =>
      (validateRule config psr).bind fun error =>
        match error with
        | some error => some (some error)
        | none => validateRules config rest

/-- `PipelineConfig::Builder`. -/
structure Builder where
  config : PipelineConfig := {}
  hasEmit : Bool := false

namespace Builder

/-- `Builder::validate`; none when it throws. -/
def validate (builder : Builder) : Option (Option ConfigError) :=
  let config := builder.config
  if !builder.hasEmit || config.emitConfig.targets == 0 then
    some (some
      { code := .requiredStageMissing
        detail := "emit stage must be configured with at least one target" })
  else if config.latencyBudget < sumStageTimeouts config then
    some (some
      { code := .latencyBudgetExceeded
        detail := "stage timeouts sum to " ++
          toString (sumStageTimeouts config) ++ "ms, exceeding budget of " ++
          toString config.latencyBudget ++ "ms" })
  else
    match config.sharding.validate with
    | some error => some (some error)
    | none =>
        match config.policyConfig with
        | none => some none
        | some policy => validateRules config policy.rules

/-- `Builder::build`; none when it throws. -/
def build (builder : Builder) : Option (Except ConfigError PipelineConfig) :=
  builder.validate.map fun error =>
    match error with
    | some error => .error error
    | none => .ok builder.config

end Builder
/-! ### Accepted configurations -/

theorem collectBoth_eq_some_iff
    {left right : Option (List String)}
    {refs : List String} :
    collectBoth left right = some refs ↔
      ∃ leftRefs rightRefs, left = some leftRefs ∧ right = some rightRefs ∧
        refs = leftRefs ++ rightRefs := by
  unfold collectBoth
  simp only [Option.bind_eq_some_iff, Option.map_eq_some_iff]
  constructor
  · rintro ⟨leftRefs, leftSome, rightRefs, rightSome, rfl⟩
    exact ⟨leftRefs, rightRefs, leftSome, rightSome, rfl⟩
  · rintro ⟨leftRefs, rightRefs, leftSome, rightSome, rfl⟩
    exact ⟨leftRefs, leftSome, rightRefs, rightSome, rfl⟩

/-- The walk finds every stage that a `StageVerdictIs` node names. -/
theorem mem_collectStageRefs
    {rule : PolicyRule}
    {stageId : String}
    {verdict : Verdict}
    (occurs : PolicyRule.Occurs (.stageVerdictIs stageId verdict) rule)
    {refs : List String}
    (walked : collectStageRefs rule = some refs) :
    stageId ∈ refs := by
  induction occurs generalizing refs with
  | here =>
      rw [collectStageRefs, Option.some_inj] at walked
      rw [← walked]
      exact List.mem_singleton_self stageId
  | andLeft right _ inductionHypothesis =>
      simp only [collectStageRefs, collectChild, collectBoth_eq_some_iff]
        at walked
      obtain ⟨leftRefs, rightRefs, leftWalked, -, rfl⟩ := walked
      exact List.mem_append_left _ (inductionHypothesis leftWalked)
  | andRight left _ inductionHypothesis =>
      simp only [collectStageRefs, collectChild, collectBoth_eq_some_iff]
        at walked
      obtain ⟨leftRefs, rightRefs, -, rightWalked, rfl⟩ := walked
      exact List.mem_append_right _ (inductionHypothesis rightWalked)
  | orLeft right _ inductionHypothesis =>
      simp only [collectStageRefs, collectChild, collectBoth_eq_some_iff]
        at walked
      obtain ⟨leftRefs, rightRefs, leftWalked, -, rfl⟩ := walked
      exact List.mem_append_left _ (inductionHypothesis leftWalked)
  | orRight left _ inductionHypothesis =>
      simp only [collectStageRefs, collectChild, collectBoth_eq_some_iff]
        at walked
      obtain ⟨leftRefs, rightRefs, -, rightWalked, rfl⟩ := walked
      exact List.mem_append_right _ (inductionHypothesis rightWalked)
  | not _ inductionHypothesis =>
      rw [collectStageRefs, collectChild] at walked
      exact inductionHypothesis walked

/-- What the validation has established of a policy rule. -/
structure RuleAccepted (config : PipelineConfig) (psr : PolicyStageRule) :
    Prop where
  stagesActive : ∀ stageId verdict,
    PolicyRule.Occurs (.stageVerdictIs stageId verdict) psr.rule →
      stageId ∈ activeStages config
  typeRegistered : ∀ typeId, psr.decisionTypeId = some typeId →
    ∃ registry, config.decisionTypeRegistry = some registry ∧
      (registry.find typeId).isSome

theorem mem_setOrder (refs : List String) (ref : String) :
    ref ∈ setOrder refs ↔ ref ∈ refs := by
  unfold setOrder
  rw [List.mem_insertionSort, List.mem_dedup]

theorem ruleAccepted_of_validateRule
    {config : PipelineConfig}
    {psr : PolicyStageRule}
    (passed : validateRule config psr = some none) :
    RuleAccepted config psr := by
  unfold validateRule at passed
  obtain ⟨refs, walked, passed⟩ := Option.map_eq_some_iff.mp passed
  split at passed
  next => exact absurd passed (by simp)
  next allActive =>
    constructor
    · intro stageId verdict occurs
      have member := mem_collectStageRefs occurs walked
      rw [← mem_setOrder] at member
      simpa using List.find?_eq_none.mp allActive stageId member
    · intro typeId hasType
      rw [validateType, hasType] at passed
      cases configured : config.decisionTypeRegistry with
      | none => simp [configured] at passed
      | some registry =>
          refine ⟨registry, rfl, ?_⟩
          simpa [configured, Option.isSome_iff_ne_none] using passed

theorem ruleAccepted_of_validateRules
    {config : PipelineConfig}
    {rules : List PolicyStageRule}
    (passed : validateRules config rules = some none) :
    ∀ psr ∈ rules, RuleAccepted config psr := by
  induction rules with
  | nil => simp
  | cons psr rest inductionHypothesis =>
      rw [validateRules] at passed
      obtain ⟨error, checked, passed⟩ := Option.bind_eq_some_iff.mp passed
      cases error with
      | some error => simp at passed
      | none =>
          intro other member
          rcases List.mem_cons.mp member with rfl | later
          · exact ruleAccepted_of_validateRule checked
          · exact inductionHypothesis passed other later

/-- An accepted configuration has passed the check of the sharding and, if it
has a policy stage, the checks of the rules. -/
theorem Builder.checks_of_build
    {builder : Builder}
    {config : PipelineConfig}
    (built : builder.build = some (.ok config)) :
    config.sharding.validate = none ∧
      ∀ policy, config.policyConfig = some policy →
        validateRules config policy.rules = some none := by
  unfold build at built
  obtain ⟨error, validated, result⟩ := Option.map_eq_some_iff.mp built
  cases error with
  | some error => simp at result
  | none =>
      obtain rfl : builder.config = config := Except.ok.inj result
      unfold validate at validated
      dsimp only at validated
      split at validated
      next => simp at validated
      next =>
        split at validated
        next => simp at validated
        next =>
          split at validated
          next => simp at validated
          next sharded =>
            refine ⟨sharded, ?_⟩
            intro policy configured
            rw [configured] at validated
            exact validated

/-- Every rule of an accepted configuration has passed its checks. -/
theorem Builder.ruleAccepted_of_build
    {builder : Builder}
    {config : PipelineConfig}
    (built : builder.build = some (.ok config))
    {policy : PolicyStageConfig}
    (configured : config.policyConfig = some policy) :
    ∀ psr ∈ policy.rules, RuleAccepted config psr :=
  ruleAccepted_of_validateRules
    ((Builder.checks_of_build built).2 policy configured)

end Pipeline
end Fre
