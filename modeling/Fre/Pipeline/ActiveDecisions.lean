import Fre.Pipeline.RunEvent
import Fre.Stage.Combinability

/-!
# Active decisions

The active decisions of an event are read off the output of the policy stage.
For an accepted configuration they are the types that matched and were not
defeated, each from the first matching rule of its type, in ascending order of
the registered priority.
-/

namespace Fre
namespace Pipeline

open Foundation Policy Stage PolicyStage Undominated

/-- The rules are in ascending order of priority, as `add_rule` leaves them. -/
def AscendingRules (rules : List PolicyStageRule) : Prop :=
  rules.Pairwise fun earlier later => earlier.priority ≤ later.priority

/-- `add_rule` puts the rules in order, however they came. -/
theorem ascendingRules_addRule
    (sort : RuleSort)
    (policy : PolicyStageConfig)
    (psr : PolicyStageRule) :
    AscendingRules (policy.addRule sort psr).rules :=
  (sort.ascending _).imp fun ordered => Int32.le_iff_toInt_le.mpr ordered

/-- The active decisions are the resolved ones. -/
structure Resolved (registry : DecisionTypeRegistry)
    (rules : List PolicyStageRule) (visited : List Visit) (out : StageOutput)
    (active : List ActiveDecision) : Prop where
  permutation :
    (active.map fun decision =>
      (some decision.decisionTypeId, decision.ruleId)).Perm
      ((out.evaluatorResults.filter fun result =>
        result.decisionTypeId.isSome).map fun result =>
          (result.decisionTypeId, result.evaluatorId))
  registered : ∀ decision ∈ active, ∃ descriptor,
    registry.find decision.decisionTypeId = some descriptor ∧
      decision.priority = descriptor.priority
  ascending : active.Pairwise fun earlier later =>
    earlier.priority ≤ later.priority
  distinct : (active.map ActiveDecision.decisionTypeId).Nodup
  compatible : ∀ left ∈ active, ∀ right ∈ active,
    registry.areIncompatible left.decisionTypeId right.decisionTypeId = false
  firstMatch : ∀ decision ∈ active, ∃ visit,
    visited.find? (matchesType decision.decisionTypeId) = some visit ∧
      decision.ruleId = (matchResult visit.1).evaluatorId ∧
      (AscendingRules rules → ∀ other ∈ visited,
        matchesType decision.decisionTypeId other = true →
          visit.1.priority ≤ other.1.priority)
  missing : ∀ typeId, (∃ visit ∈ visited, matchesType typeId visit = true) →
    typeId ∉ active.map ActiveDecision.decisionTypeId →
      ∃ pair ∈ registry.incompatible,
        (∃ visit ∈ visited, matchesType pair.typeIdA visit = true) ∧
        (∃ visit ∈ visited, matchesType pair.typeIdB visit = true) ∧
        loser registry pair = some typeId

/-! ### From results to active decisions -/

/-- With registered types, active decisions and typed results agree one by
one. -/
theorem map_filterMap_ofResult
    {registry : DecisionTypeRegistry}
    {results : List EvaluatorResult}
    (registered : ∀ result ∈ results, ∀ typeId,
      result.decisionTypeId = some typeId → (registry.find typeId).isSome) :
    (results.filterMap (ActiveDecision.ofResult registry)).map
        (fun decision => (some decision.decisionTypeId, decision.ruleId)) =
      (results.filter fun result => result.decisionTypeId.isSome).map
        fun result => (result.decisionTypeId, result.evaluatorId) := by
  induction results with
  | nil => rfl
  | cons result rest inductionHypothesis =>
      have restEqual := inductionHypothesis fun other member =>
        registered other (List.mem_cons_of_mem result member)
      rw [List.filterMap_cons, List.filter_cons]
      cases hasType : result.decisionTypeId with
      | none => simp [ActiveDecision.ofResult, hasType, restEqual]
      | some typeId =>
          obtain ⟨descriptor, found⟩ := Option.isSome_iff_exists.mp
            (registered result List.mem_cons_self typeId hasType)
          simp [ActiveDecision.ofResult, hasType, found, restEqual]

/-- A result with a type comes from the first visit that matches under it, and
the type is registered and undefeated. -/
theorem typed_result_origin
    {registry : DecisionTypeRegistry}
    {policy : PolicyStageConfig}
    {context : PolicyContext}
    {clock : Clock}
    {elapsedUs : UInt64}
    {result : EvaluatorResult}
    {typeId : String}
    (member : result ∈ (PolicyStage.process (some registry) policy context
      clock elapsedUs).evaluatorResults)
    (hasType : result.decisionTypeId = some typeId) :
    Survives (matchedTypes registry (visits context policy.rules clock))
        (Defeats registry) typeId ∧
      ∃ visit, (visits context policy.rules clock).find? (matchesType typeId) =
          some visit ∧
        result.evaluatorId = (matchResult visit.1).evaluatorId := by
  have surviving : result ∈ survivingResults registry
      (visits context policy.rules clock) := by
    rw [← typedResults_process registry policy context clock elapsedUs,
      List.mem_filter]
    exact ⟨member, by rw [hasType]; rfl⟩
  obtain ⟨candidate, kept, survives, rfl⟩ :=
    (mem_survivingResults_iff registry _ result).mp surviving
  rw [decisionTypeId_of_mem_dedup kept, Option.some_inj] at hasType
  rw [← hasType]
  obtain ⟨visit, first, given⟩ := (mem_dedup_iff registry _ candidate).mp kept
  obtain ⟨-, -, ofType⟩ := visitMatch_eq_some_iff.mp given
  obtain ⟨descriptor, -, same⟩ := matchOf_eq_some_iff.mp ofType
  exact ⟨survives, visit, first, by rw [same]⟩

/-- The types of the results are distinct. -/
theorem nodup_survivingResults
    (registry : DecisionTypeRegistry)
    (visited : List Visit) :
    ((survivingResults registry visited).map
      EvaluatorResult.decisionTypeId).Nodup := by
  have keptTypes := FirstByKey.nodup_map_key Match.typeId
    (visited.filterMap (visitMatch registry))
  rw [survivingResults, List.map_map]
  have sameType : ∀ candidate ∈ (dedup (visited.filterMap
      (visitMatch registry))).filter (fun candidate => !(losers registry
        (dedup (visited.filterMap (visitMatch registry)))).any fun typeId =>
          typeId == candidate.typeId),
      (EvaluatorResult.decisionTypeId ∘ Match.result) candidate =
        (some ∘ Match.typeId) candidate := by
    intro candidate member
    exact decisionTypeId_of_mem_dedup (List.mem_of_mem_filter member)
  rw [List.map_congr_left sameType, ← List.map_map]
  apply List.Nodup.map (Option.some_injective _)
  exact keptTypes.sublist (List.filter_sublist.map Match.typeId)

/-- The first policy output is the one that was appended. -/
theorem stageOutput_policy
    {decision : Decision}
    {earlier : List StageOutput}
    {out : StageOutput}
    (outputs : decision.stageOutputs = earlier ++ [out])
    (isPolicy : out.stageId = "policy")
    (earlierIds : ∀ output ∈ earlier, output.stageId ≠ "policy") :
    decision.stageOutput "policy" = some out := by
  unfold Decision.stageOutput
  rw [outputs, List.find?_append, List.find?_eq_none.mpr, Option.none_or]
  · simp [isPolicy]
  · intro output member
    simpa using earlierIds output member

/-- Survivors are compatible. -/
theorem areIncompatible_eq_false
    {registry : DecisionTypeRegistry}
    {candidates : Set String}
    {left right : String}
    (registered : ∀ typeId ∈ candidates, (registry.find typeId).isSome)
    (leftSurvives : Survives candidates (Defeats registry) left)
    (rightSurvives : Survives candidates (Defeats registry) right) :
    registry.areIncompatible left right = false := by
  rw [Bool.eq_false_iff]
  intro incompatible
  obtain ⟨first, foundLeft⟩ :=
    Option.isSome_iff_exists.mp (registered left leftSurvives.1)
  obtain ⟨second, foundRight⟩ :=
    Option.isSome_iff_exists.mp (registered right rightSurvives.1)
  rw [DecisionTypeRegistry.areIncompatible_iff] at incompatible
  rcases incompatible with declared | declared
  · by_cases ordered : first.priority ≤ second.priority
    · exact rightSurvives.2 left leftSurvives.1
        ⟨first, second, foundLeft, foundRight, Or.inl ⟨declared, ordered⟩⟩
    · exact leftSurvives.2 right rightSurvives.1
        ⟨second, first, foundRight, foundLeft,
          Or.inr ⟨declared, UInt32.not_le.mp ordered⟩⟩
  · by_cases ordered : second.priority ≤ first.priority
    · exact leftSurvives.2 right rightSurvives.1
        ⟨second, first, foundRight, foundLeft, Or.inl ⟨declared, ordered⟩⟩
    · exact rightSurvives.2 left leftSurvives.1
        ⟨first, second, foundLeft, foundRight,
          Or.inr ⟨declared, UInt32.not_le.mp ordered⟩⟩

/-- In ascending rules the first visit that passes a test has the least
priority among those that do. -/
theorem priority_le_of_find
    {rules : List PolicyStageRule}
    {visited : List Visit}
    (ofRules : visited.map Prod.fst = rules)
    (ascending : AscendingRules rules)
    {test : Visit → Bool}
    {visit : Visit}
    (first : visited.find? test = some visit) :
    ∀ other ∈ visited, test other = true →
      visit.1.priority ≤ other.1.priority := by
  unfold AscendingRules at ascending
  rw [← ofRules, List.pairwise_map] at ascending
  obtain ⟨-, before, after, rfl, fails⟩ := List.find?_eq_some_iff_append.mp first
  intro other member passes
  rw [List.mem_append, List.mem_cons] at member
  rcases member with earlier | rfl | later
  · have failed := fails other earlier
    simp [passes] at failed
  · exact Int32.le_refl _
  · exact (List.pairwise_cons.mp
      (List.pairwise_append.mp ascending).2.1).1 other later

/-- In an accepted configuration the matched types are the types of the
matching rules. -/
theorem mem_matchedTypes_iff
    {registry : DecisionTypeRegistry}
    {visited : List Visit}
    (typesRegistered : ∀ visit ∈ visited, ∀ typeId,
      visit.1.decisionTypeId = some typeId → (registry.find typeId).isSome)
    (typeId : String) :
    typeId ∈ matchedTypes registry visited ↔
      ∃ visit ∈ visited, matchesType typeId visit = true := by
  unfold matchedTypes matchesType
  simp only [Set.mem_ofPred_eq, Bool.and_eq_true, beq_iff_eq]
  apply exists_congr
  intro visit
  apply and_congr_right
  intro member
  constructor
  · rintro ⟨matched, hasType, -⟩
    exact ⟨matched, hasType⟩
  · rintro ⟨matched, hasType⟩
    exact ⟨matched, hasType, typesRegistered visit member typeId hasType⟩

theorem ofResult_eq_some_iff
    {registry : DecisionTypeRegistry}
    {result : EvaluatorResult}
    {decision : ActiveDecision} :
    ActiveDecision.ofResult registry result = some decision ↔
      result.decisionTypeId = some decision.decisionTypeId ∧
        result.evaluatorId = decision.ruleId ∧
        ∃ descriptor, registry.find decision.decisionTypeId = some descriptor ∧
          decision.priority = descriptor.priority := by
  unfold ActiveDecision.ofResult
  cases hasType : result.decisionTypeId with
  | none => simp
  | some typeId =>
      obtain ⟨decisionTypeId, ruleId, priority⟩ := decision
      simp only [Option.map_eq_some_iff, ActiveDecision.mk.injEq,
        Option.some_inj]
      constructor
      · rintro ⟨descriptor, found, rfl, rfl, rfl⟩
        exact ⟨rfl, rfl, descriptor, found, rfl⟩
      · rintro ⟨rfl, rfl, descriptor, found, rfl⟩
        exact ⟨descriptor, found, rfl, rfl, rfl⟩

/-- A defeat names the pair that was lost. -/
theorem Defeats.exists_lost_pair
    {registry : DecisionTypeRegistry}
    {winner defeated : String}
    (defeats : Defeats registry winner defeated) :
    ∃ pair ∈ registry.incompatible, loser registry pair = some defeated ∧
      ((pair.typeIdA = winner ∧ pair.typeIdB = defeated) ∨
        (pair.typeIdA = defeated ∧ pair.typeIdB = winner)) := by
  obtain ⟨first, second, foundFirst, foundSecond,
    ⟨declared, ordered⟩ | ⟨declared, ordered⟩⟩ := defeats
  · refine ⟨_, declared, ?_, Or.inl ⟨rfl, rfl⟩⟩
    exact (loser_eq_some_iff registry _ _).mpr
      ⟨first, second, foundFirst, foundSecond, Or.inl ⟨ordered, rfl⟩⟩
  · refine ⟨_, declared, ?_, Or.inr ⟨rfl, rfl⟩⟩
    exact (loser_eq_some_iff registry _ _).mpr
      ⟨second, first, foundSecond, foundFirst, Or.inr ⟨ordered, rfl⟩⟩

section Resolution

variable {registry : DecisionTypeRegistry} {policy : PolicyStageConfig}
  {context : PolicyContext} {clock : Clock} {elapsedUs : UInt64}
  {sort : ActiveDecisionSort}

/-- The list that `compute_active_decisions` leaves. -/
def resolvedDecisions (sort : ActiveDecisionSort)
    (registry : DecisionTypeRegistry) (out : StageOutput) :
    List ActiveDecision :=
  sort.sort (out.evaluatorResults.filterMap (ActiveDecision.ofResult registry))

/-- Every active decision stands for a result with its type. -/
theorem mem_resolvedDecisions_iff
    {out : StageOutput}
    {decision : ActiveDecision} :
    decision ∈ resolvedDecisions sort registry out ↔
      ∃ result ∈ out.evaluatorResults,
        result.decisionTypeId = some decision.decisionTypeId ∧
          result.evaluatorId = decision.ruleId ∧
          ∃ descriptor,
            registry.find decision.decisionTypeId = some descriptor ∧
              decision.priority = descriptor.priority := by
  unfold resolvedDecisions
  rw [(sort.perm _).mem_iff, List.mem_filterMap]
  simp only [ofResult_eq_some_iff]

/-- The active decisions have the types of the reported results. -/
theorem mem_typeIds_iff
    {typeId : String} :
    typeId ∈ (resolvedDecisions sort registry (PolicyStage.process
        (some registry) policy context clock elapsedUs)).map
          ActiveDecision.decisionTypeId ↔
      Survives (matchedTypes registry (visits context policy.rules clock))
        (Defeats registry) typeId := by
  rw [← reports_iff registry policy context clock elapsedUs, List.mem_map]
  constructor
  · rintro ⟨decision, member, rfl⟩
    obtain ⟨result, resultMember, hasType, -⟩ :=
      mem_resolvedDecisions_iff.mp member
    exact ⟨result, resultMember, hasType⟩
  · rintro ⟨result, member, hasType⟩
    obtain ⟨⟨⟨-, -, -, -, registered⟩, -⟩, -⟩ :=
      typed_result_origin member hasType
    obtain ⟨descriptor, found⟩ := Option.isSome_iff_exists.mp registered
    refine ⟨⟨typeId, result.evaluatorId, descriptor.priority⟩, ?_, rfl⟩
    exact mem_resolvedDecisions_iff.mpr
      ⟨result, member, hasType, rfl, descriptor, found, rfl⟩

/-- Each result with a type gives one active decision. -/
theorem resolvedDecisions_perm :
    ((resolvedDecisions sort registry (PolicyStage.process (some registry)
        policy context clock elapsedUs)).map fun decision =>
          (some decision.decisionTypeId, decision.ruleId)).Perm
      (((PolicyStage.process (some registry) policy context clock
        elapsedUs).evaluatorResults.filter fun result =>
          result.decisionTypeId.isSome).map fun result =>
            (result.decisionTypeId, result.evaluatorId)) := by
  have registered : ∀ result ∈ (PolicyStage.process (some registry) policy
      context clock elapsedUs).evaluatorResults, ∀ typeId,
      result.decisionTypeId = some typeId → (registry.find typeId).isSome := by
    intro result member typeId hasType
    obtain ⟨⟨⟨-, -, -, -, isRegistered⟩, -⟩, -⟩ :=
      typed_result_origin member hasType
    exact isRegistered
  rw [← map_filterMap_ofResult registered]
  exact (sort.perm _).map _

/-- No type is active twice. -/
theorem nodup_resolvedDecisions :
    ((resolvedDecisions sort registry (PolicyStage.process (some registry)
      policy context clock elapsedUs)).map
        ActiveDecision.decisionTypeId).Nodup := by
  have sameTypes := (@resolvedDecisions_perm registry policy context clock
    elapsedUs sort).map Prod.fst
  rw [typedResults_process, List.map_map, List.map_map] at sameTypes
  have distinct := sameTypes.nodup_iff.mpr
    (nodup_survivingResults registry (visits context policy.rules clock))
  apply List.Nodup.of_map some
  rw [List.map_map]
  exact distinct

/-- The active decisions are in ascending order of priority. -/
theorem ascending_resolvedDecisions (out : StageOutput) :
    (resolvedDecisions sort registry out).Pairwise fun earlier later =>
      earlier.priority ≤ later.priority :=
  (sort.ascending _).imp fun ordered => UInt32.le_iff_toNat_le.mpr ordered

/-- With registered types the active decisions are the resolved ones. -/
theorem resolved_resolvedDecisions
    (typesRegistered : ∀ visit ∈ visits context policy.rules clock, ∀ typeId,
      visit.1.decisionTypeId = some typeId → (registry.find typeId).isSome) :
    Resolved registry policy.rules (visits context policy.rules clock)
      (PolicyStage.process (some registry) policy context clock elapsedUs)
      (resolvedDecisions sort registry (PolicyStage.process (some registry)
        policy context clock elapsedUs)) := by
  refine ⟨resolvedDecisions_perm, ?registered, ascending_resolvedDecisions _,
    nodup_resolvedDecisions, ?compatible, ?firstMatch, ?missing⟩
  case registered =>
    intro decision member
    obtain ⟨-, -, -, -, isRegistered⟩ := mem_resolvedDecisions_iff.mp member
    exact isRegistered
  case compatible =>
    intro left leftMember right rightMember
    have leftSurvives := mem_typeIds_iff.mp
      (List.mem_map_of_mem (f := ActiveDecision.decisionTypeId) leftMember)
    have rightSurvives := mem_typeIds_iff.mp
      (List.mem_map_of_mem (f := ActiveDecision.decisionTypeId) rightMember)
    apply areIncompatible_eq_false _ leftSurvives rightSurvives
    rintro typeId ⟨-, -, -, -, isRegistered⟩
    exact isRegistered
  case firstMatch =>
    intro decision member
    obtain ⟨result, resultMember, hasType, sameRule, -⟩ :=
      mem_resolvedDecisions_iff.mp member
    obtain ⟨-, visit, first, named⟩ := typed_result_origin resultMember hasType
    refine ⟨visit, first, sameRule.symm.trans named, ?_⟩
    intro ascending
    exact priority_le_of_find (visits_map_fst context policy.rules clock)
      ascending first
  case missing =>
    intro typeId matched absent
    rw [mem_typeIds_iff] at absent
    have member := (mem_matchedTypes_iff typesRegistered typeId).mpr matched
    obtain ⟨winner, winnerMember, defeats⟩ :
        ∃ winner ∈ matchedTypes registry (visits context policy.rules clock),
          Defeats registry winner typeId := by
      by_contra undefeated
      push Not at undefeated
      exact absent ⟨member, undefeated⟩
    have winnerMatched :=
      (mem_matchedTypes_iff typesRegistered winner).mp winnerMember
    obtain ⟨pair, declared, lost, ⟨rfl, rfl⟩ | ⟨rfl, rfl⟩⟩ :=
      Defeats.exists_lost_pair defeats
    · exact ⟨pair, declared, winnerMatched, matched, lost⟩
    · exact ⟨pair, declared, matched, winnerMatched, lost⟩

end Resolution

/-- In an accepted configuration every type of a rule is registered. -/
theorem Builder.typesRegistered_of_build
    {builder : Builder}
    {config : PipelineConfig}
    (built : builder.build = some (.ok config))
    {registry : DecisionTypeRegistry}
    (hasRegistry : config.decisionTypeRegistry = some registry)
    {policy : PolicyStageConfig}
    (configured : config.policyConfig = some policy)
    (context : PolicyContext)
    (clock : Clock) :
    ∀ visit ∈ visits context policy.rules clock, ∀ typeId,
      visit.1.decisionTypeId = some typeId →
        (registry.find typeId).isSome := by
  intro visit member typeId hasType
  obtain ⟨known, sameRegistry, registered⟩ :=
    (Builder.ruleAccepted_of_build built configured visit.1
      (mem_rules_of_mem_visits member)).typeRegistered typeId hasType
  obtain rfl : registry = known :=
    Option.some_inj.mp (hasRegistry.symm.trans sameRegistry)
  exact registered

/-- Behind outputs of other stages the active decisions are those of the policy
stage. -/
theorem activeDecisions_eq_resolvedDecisions
    (sort : ActiveDecisionSort)
    (registry : DecisionTypeRegistry)
    (policy : PolicyStageConfig)
    {context : PolicyContext}
    (earlierIds : ∀ output ∈ context.stageOutputs, output.stageId ≠ "policy")
    (clock : Clock)
    (elapsedUs : UInt64)
    {decision : Decision}
    (outputs : decision.stageOutputs = context.stageOutputs ++
      [PolicyStage.process (some registry) policy context clock elapsedUs]) :
    (decision.computeActiveDecisions sort (some registry)).activeDecisions =
      resolvedDecisions sort registry (PolicyStage.process (some registry)
        policy context clock elapsedUs) := by
  have isPolicy : (PolicyStage.process (some registry) policy context clock
      elapsedUs).stageId = "policy" := by
    rw [process_eq]
  have found := stageOutput_policy outputs isPolicy earlierIds
  simp only [Decision.computeActiveDecisions, found, resolvedDecisions]

/-- `Builder::build`, `PolicyStage::process` and
`Decision::compute_active_decisions` agree: in an accepted configuration the
active decisions are the resolved ones. -/
theorem active_decisions_resolved
    {builder : Builder}
    {config : PipelineConfig}
    (built : builder.build = some (.ok config))
    {registry : DecisionTypeRegistry}
    (hasRegistry : config.decisionTypeRegistry = some registry)
    {policy : PolicyStageConfig}
    (configured : config.policyConfig = some policy)
    (sort : ActiveDecisionSort)
    (context : PolicyContext)
    (earlierIds : ∀ output ∈ context.stageOutputs, output.stageId ≠ "policy")
    (clock : Clock)
    (elapsedUs : UInt64)
    (decision : Decision)
    (outputs : decision.stageOutputs = context.stageOutputs ++
      [PolicyStage.process (some registry) policy context clock elapsedUs]) :
    Resolved registry policy.rules (visits context policy.rules clock)
      (PolicyStage.process (some registry) policy context clock elapsedUs)
      (decision.computeActiveDecisions sort (some registry)).activeDecisions := by
  rw [activeDecisions_eq_resolvedDecisions sort registry policy earlierIds clock
    elapsedUs outputs]
  apply resolved_resolvedDecisions
  exact Builder.typesRegistered_of_build built hasRegistry configured context
    clock

/-- Before the policy stage `run_event` has no output of that name. -/
theorem earlierIds_of_policyContext
    {config : PipelineConfig}
    {event : Event}
    {inputs : RunInputs}
    {context : PolicyContext}
    (reached : policyContext config event inputs = some context) :
    ∀ output ∈ context.stageOutputs, output.stageId ≠ "policy" := by
  intro output member
  have known : output.stageId ∈ earlierStages config := by
    rw [← policyContext_stageIds reached]
    exact List.mem_map_of_mem member
  intro isPolicy
  rw [isPolicy] at known
  exact absurd (mem_stages_of_mem_earlierStages known) (by decide)

/-- Every decision that `run_event` assembles has the resolved active
decisions. -/
theorem runStages_resolved
    {builder : Builder}
    {config : PipelineConfig}
    (built : builder.build = some (.ok config))
    {registry : DecisionTypeRegistry}
    (hasRegistry : config.decisionTypeRegistry = some registry)
    {policy : PolicyStageConfig}
    (configured : config.policyConfig = some policy)
    {sort : ActiveDecisionSort}
    {sync : Bool}
    {event : Event}
    {inputs : RunInputs}
    {decision : Decision}
    (decided : runStages sort config sync event inputs = .decided decision) :
    ∃ context, policyContext config { event with id := inputs.eventId } inputs =
        some context ∧
      Resolved registry policy.rules
        (visits context policy.rules inputs.policyClock)
        (PolicyStage.process (some registry) policy context inputs.policyClock
          inputs.policyUs)
        decision.activeDecisions := by
  obtain ⟨context, reached, rfl⟩ := exists_of_runStages_decided decided
  refine ⟨context, reached, ?_⟩
  unfold assemble
  dsimp only
  rw [hasRegistry, activeDecisions_eq_resolvedDecisions sort registry policy
    (earlierIds_of_policyContext reached) inputs.policyClock inputs.policyUs]
  · apply resolved_resolvedDecisions
    exact Builder.typesRegistered_of_build built hasRegistry configured context
      inputs.policyClock
  · change context.stageOutputs ++ policyOutputs config context inputs = _
    rw [policyOutputs, configured, hasRegistry]

/-- A rule for the type `block` that matches every event without tags. -/
def blockRule (ruleId : String) (priority : Int32) : PolicyStageRule :=
  { typedRule "block" priority with ruleId }

/-- One registered type. -/
def blockRegistry : DecisionTypeRegistry where
  types := [{ id := "block" }]

/-- A configuration with the rules given and one decision type. -/
def blockBuilder (rules : List PolicyStageRule) : Builder where
  config :=
    { policyConfig := some { rules }
      emitConfig := { targets := 1 }
      decisionTypeRegistry := some blockRegistry }
  hasEmit := true

/-- The output of the policy stage of that configuration. -/
def blockOutput (rules : List PolicyStageRule) : StageOutput :=
  PolicyStage.process (some blockRegistry) { rules } plainContext
    (Stream'.const 0) 0

/-- Rules that came in ascending order of priority. -/
theorem ordered_rules_resolved :
    Resolved blockRegistry [blockRule "early" 1, blockRule "late" 5]
      (visits plainContext [blockRule "early" 1, blockRule "late" 5]
        (Stream'.const 0))
      (blockOutput [blockRule "early" 1, blockRule "late" 5])
      (({ stageOutputs :=
          [blockOutput [blockRule "early" 1, blockRule "late" 5]] } :
        Decision).computeActiveDecisions (SortFunction.stable _)
          (some blockRegistry)).activeDecisions :=
  @active_decisions_resolved
    (blockBuilder [blockRule "early" 1, blockRule "late" 5]) _ rfl _ rfl _ rfl
    (SortFunction.stable _) plainContext
    (fun _ member => absurd member List.not_mem_nil)
    (Stream'.const 0) 0 _ rfl

/-- The rules were put into the configuration in another order: both match, and
the entry is the one of the rule with the larger priority number. -/
theorem unordered_rules_keep_late_rule :
    (blockBuilder [blockRule "late" 5, blockRule "early" 1]).build =
        some (.ok (blockBuilder
          [blockRule "late" 5, blockRule "early" 1]).config) ∧
      visits plainContext [blockRule "late" 5, blockRule "early" 1]
          (Stream'.const 0) =
        [(blockRule "late" 5, some true), (blockRule "early" 1, some true)] ∧
      ∀ sort : ActiveDecisionSort,
        (({ stageOutputs :=
            [blockOutput [blockRule "late" 5, blockRule "early" 1]] } :
          Decision).computeActiveDecisions sort
            (some blockRegistry)).activeDecisions =
          [{ decisionTypeId := "block", ruleId := "late", priority := 0 }] := by
  refine ⟨rfl, rfl, ?_⟩
  intro sort
  exact List.perm_singleton.mp (sort.perm _)

end Pipeline
end Fre
