import Fre.Stage.PolicyStage

/-!
# Adding a rule that does not match

Two runs of the policy stage in one context, the second with one rule more.  The
added rule leaves no trace as long as both runs take the same path; it shows
when it is the only rule with a decision type, because it then takes the stage
from first-match-wins to the evaluation of all rules.
-/

namespace Fre
namespace Stage
namespace PolicyStage

open Foundation Policy

/-! ### A fixed clock -/

/-- The visits at a fixed time. -/
theorem visits_const_clock
    (context : PolicyContext)
    (rules : List PolicyStageRule)
    (now : Int64) :
    visits context rules (Stream'.const now) =
      rules.map fun psr =>
        (psr, (RuleEngine.evaluate context psr.rule (Stream'.const now)).1) := by
  induction rules with
  | nil => rfl
  | cons psr rest inductionHypothesis =>
      simp [visits, RuleEngine.evaluate_const_clock, inductionHypothesis]

/-! ### After the first match -/

/-- The visits after the first match. -/
def afterMatch : List Visit → List Visit
  | [] => []
  | visit :: rest => if visit.2 = some true then rest else afterMatch rest

theorem untilMatch_append_afterMatch (visited : List Visit) :
    untilMatch visited ++ afterMatch visited = visited := by
  induction visited with
  | nil => rfl
  | cons visit rest inductionHypothesis =>
      unfold untilMatch afterMatch
      split
      · rfl
      · rw [List.cons_append, inductionHypothesis]

/-- Every rule after the first match evaluates to false. -/
def QuietAfterMatch (visited : List Visit) : Prop :=
  ∀ visit ∈ afterMatch visited, visit.2 = some false

/-- The first run, without the added rule, and the second, with it, see the same
outcomes of the other rules, and the added rule does not match. -/
def AddsNonMatching (context : PolicyContext)
    (before : List PolicyStageRule) (added : PolicyStageRule)
    (after : List PolicyStageRule) (clock clockWith : Clock) : Prop :=
  ∃ visitedBefore visitedAfter,
    visits context (before ++ after) clock = visitedBefore ++ visitedAfter ∧
    visits context (before ++ added :: after) clockWith =
      visitedBefore ++ (added, some false) :: visitedAfter

/-- At a fixed time this says that the added rule evaluates to false. -/
theorem addsNonMatching_of_const_clock
    {context : PolicyContext}
    {added : PolicyStageRule}
    {now : Int64}
    (evaluated : (RuleEngine.evaluate context added.rule
      (Stream'.const now)).1 = some false)
    (before after : List PolicyStageRule) :
    AddsNonMatching context before added after (Stream'.const now)
      (Stream'.const now) := by
  refine ⟨visits context before (Stream'.const now),
    visits context after (Stream'.const now), ?_, ?_⟩
  · simp only [visits_const_clock, List.map_append]
  · simp only [visits_const_clock, List.map_append, List.map_cons, evaluated]

/-- The added rule takes the stage from the legacy path to the other one. -/
def SwitchesPath (registry : Option DecisionTypeRegistry)
    (rules : List PolicyStageRule) (added : PolicyStageRule) : Prop :=
  registry.isSome ∧ added.decisionTypeId.isSome ∧ anyTyped rules = false

theorem anyTyped_insert
    (before after : List PolicyStageRule)
    (added : PolicyStageRule) :
    anyTyped (before ++ added :: after) =
      (added.decisionTypeId.isSome || anyTyped (before ++ after)) := by
  simp only [anyTyped, List.any_append, List.any_cons]
  rw [Bool.or_left_comm]

/-- Without a switch both runs use the same registry. -/
theorem activeRegistry_insert
    {registry : Option DecisionTypeRegistry}
    {before after : List PolicyStageRule}
    {added : PolicyStageRule}
    (stays : ¬ SwitchesPath registry (before ++ after) added) :
    activeRegistry registry (before ++ added :: after) =
      activeRegistry registry (before ++ after) := by
  unfold activeRegistry
  rw [anyTyped_insert]
  cases registry with
  | none => rfl
  | some registry =>
      cases typed : added.decisionTypeId.isSome with
      | false => rw [Bool.false_or]
      | true =>
          have someTyped : anyTyped (before ++ after) = true := by
            simpa [SwitchesPath, typed] using stays
          rw [someTyped, Bool.or_true]

/-! ### A visit that adds nothing -/

section Quiet

variable {β : Type} {added : PolicyStageRule} (emit : Visit → Option β)

/-- A non-matching visit does not move the first match. -/
theorem filterMap_untilMatch_insert
    (silent : emit (added, some false) = none)
    (before after : List Visit) :
    (untilMatch (before ++ (added, some false) :: after)).filterMap emit =
      (untilMatch (before ++ after)).filterMap emit := by
  induction before with
  | nil => simp [untilMatch, silent]
  | cons visit rest inductionHypothesis =>
      simp only [List.cons_append, untilMatch]
      split
      · rfl
      · simp only [List.filterMap_cons, inductionHypothesis]

theorem filterMap_recordedVisits_insert
    (silent : emit (added, some false) = none)
    (registry : Option DecisionTypeRegistry)
    (before after : List Visit) :
    (recordedVisits registry (before ++ (added, some false) :: after)).filterMap
        emit =
      (recordedVisits registry (before ++ after)).filterMap emit := by
  cases registry with
  | none => exact filterMap_untilMatch_insert emit silent before after
  | some registry =>
      simp [recordedVisits, untyped, silent]

end Quiet

theorem resolvedResults_insert
    (registry : Option DecisionTypeRegistry)
    (added : PolicyStageRule)
    (before after : List Visit) :
    resolvedResults registry (before ++ (added, some false) :: after) =
      resolvedResults registry (before ++ after) := by
  cases registry with
  | none => rfl
  | some registry =>
      simp [resolvedResults, survivingResults, visitMatch]

/-- The visits that throw. -/
def thrown (visit : Visit) : Option PolicyStageRule :=
  if visit.2.isNone then some visit.1 else none

theorem anyThrew_eq (visited : List Visit) :
    anyThrew visited = !(visited.filterMap thrown).isEmpty := by
  induction visited with
  | nil => rfl
  | cons visit rest inductionHypothesis =>
      rw [anyThrew_cons, inductionHypothesis, List.filterMap_cons, thrown]
      cases visit.2 <;> simp

/-- The outputs have one verdict, the same results in the same order and one
degraded reason. -/
def SameOutcome (left right : StageOutput) : Prop :=
  left.verdict = right.verdict ∧
    left.evaluatorResults = right.evaluatorResults ∧
    left.degradedReason = right.degradedReason

/-- On one path the added rule changes nothing. -/
theorem sameOutcome_of_stays
    {registry : Option DecisionTypeRegistry}
    {config : PolicyStageConfig}
    {context : PolicyContext}
    {before after : List PolicyStageRule}
    {added : PolicyStageRule}
    {clock clockWith : Clock}
    (adds : AddsNonMatching context before added after clock clockWith)
    (stays : ¬ SwitchesPath registry (before ++ after) added)
    (elapsedUs elapsedUsWith : UInt64) :
    SameOutcome
      (process registry { config with rules := before ++ added :: after }
        context clockWith elapsedUsWith)
      (process registry { config with rules := before ++ after }
        context clock elapsedUs) := by
  obtain ⟨visitedBefore, visitedAfter, without, withAdded⟩ := adds
  rw [process_eq, process_eq]
  dsimp only
  rw [without, withAdded, activeRegistry_insert stays]
  simp only [SameOutcome, anyThrew_eq, resolvedResults_insert]
  refine ⟨?_, ?_, ?_⟩
  · rw [filterMap_recordedVisits_insert contribution (by simp [contribution])]
  · rw [filterMap_recordedVisits_insert _ rfl]
    rfl
  · rw [filterMap_recordedVisits_insert thrown (by simp [thrown])]

/-! ### A switch of the path -/

/-- When only the added rule has a type, the second run records every visit. -/
theorem recorded_after_switch
    {visited : List Visit}
    (noTypes : ∀ visit ∈ visited, visit.1.decisionTypeId = none)
    (registry : DecisionTypeRegistry) :
    recordedVisits (some registry) visited = visited ∧
      resolvedResults (some registry) visited = [] := by
  constructor
  · apply List.filter_eq_self.mpr
    intro visit member
    simp [untyped, noTypes visit member]
  · exact survivingResults_of_untyped noTypes registry

/-- The visits after the first match add nothing exactly when they all evaluate
to false. -/
theorem filterMap_afterMatch_eq_nil_iff
    (config : PolicyStageConfig)
    (visited : List Visit) :
    (afterMatch visited).filterMap (recordedResult config) = [] ↔
      QuietAfterMatch visited := by
  rw [List.filterMap_eq_nil_iff]
  unfold QuietAfterMatch
  apply forall_congr'
  intro visit
  apply imp_congr_right
  intro _
  unfold recordedResult
  split
  next outcome => simp [outcome]
  next outcome => simp [outcome]
  next outcome => simp [outcome]

/-- Silent visits after the first match do not count. -/
theorem filterMap_eq_untilMatch
    {β : Type}
    {emit : Visit → Option β}
    {visited : List Visit}
    (silent : ∀ visit ∈ afterMatch visited, emit visit = none) :
    visited.filterMap emit = (untilMatch visited).filterMap emit := by
  conv_lhs => rw [← untilMatch_append_afterMatch visited]
  rw [List.filterMap_append, List.filterMap_eq_nil_iff.mpr silent,
    List.append_nil]

/-- After a switch the outcome is the same exactly when no rule after the first
match matches or throws. -/
theorem sameOutcome_iff_of_switches
    {registry : Option DecisionTypeRegistry}
    {config : PolicyStageConfig}
    {context : PolicyContext}
    {before after : List PolicyStageRule}
    {added : PolicyStageRule}
    {clock clockWith : Clock}
    (adds : AddsNonMatching context before added after clock clockWith)
    (switches : SwitchesPath registry (before ++ after) added)
    (elapsedUs elapsedUsWith : UInt64) :
    SameOutcome
        (process registry { config with rules := before ++ added :: after }
          context clockWith elapsedUsWith)
        (process registry { config with rules := before ++ after }
          context clock elapsedUs) ↔
      QuietAfterMatch (visits context (before ++ after) clock) := by
  obtain ⟨registered, addedTyped, noneTyped⟩ := switches
  obtain ⟨used, rfl⟩ := Option.isSome_iff_exists.mp registered
  have noTypes := untyped_of_not_anyTyped context clock noneTyped
  obtain ⟨visitedBefore, visitedAfter, without, withAdded⟩ := adds
  have legacy : activeRegistry (some used) (before ++ after) = none := by
    simp [activeRegistry_some, noneTyped]
  have multi : activeRegistry (some used) (before ++ added :: after) =
      some used := by
    simp [activeRegistry_some, anyTyped_insert, addedTyped]
  rw [process_eq, process_eq]
  dsimp only
  rw [legacy, multi, without, withAdded]
  rw [without] at noTypes
  obtain ⟨recordsAll, resolvesNone⟩ := recorded_after_switch noTypes used
  simp only [SameOutcome, anyThrew_eq, resolvedResults_insert, resolvesNone]
  rw [filterMap_recordedVisits_insert contribution (by simp [contribution]),
    filterMap_recordedVisits_insert _ rfl,
    filterMap_recordedVisits_insert thrown (by simp [thrown]), recordsAll]
  constructor
  · rintro ⟨-, sameResults, -⟩
    rw [← filterMap_afterMatch_eq_nil_iff config]
    have recorded : (visitedBefore ++ visitedAfter).filterMap
        (recordedResult config) =
          (untilMatch (visitedBefore ++ visitedAfter)).filterMap
            (recordedResult config) ++ [] := by
      rw [List.append_nil] at sameResults
      exact sameResults
    rw [← untilMatch_append_afterMatch (visitedBefore ++ visitedAfter),
      List.filterMap_append, untilMatch_append_afterMatch] at recorded
    exact List.append_cancel_left recorded
  · intro quiet
    refine ⟨?_, ?_, ?_⟩
    · rw [filterMap_eq_untilMatch fun visit member => by
        simp [contribution, quiet visit member]]
      rfl
    · rw [filterMap_eq_untilMatch fun visit member => by
        simp [recordedResult, quiet visit member]]
      rfl
    · rw [filterMap_eq_untilMatch fun visit member => by
        simp [thrown, quiet visit member]]
      rfl

/-- Adding a rule that does not match changes nothing exactly when it does not
switch the path, or no rule after the first match matches or throws. -/
theorem nonMatching_rule_changes_nothing_iff
    (registry : Option DecisionTypeRegistry)
    (config : PolicyStageConfig)
    (context : PolicyContext)
    (before : List PolicyStageRule)
    (added : PolicyStageRule)
    (after : List PolicyStageRule)
    (clock clockWith : Clock)
    (elapsedUs elapsedUsWith : UInt64)
    (adds : AddsNonMatching context before added after clock clockWith) :
    SameOutcome
        (process registry { config with rules := before ++ added :: after }
          context clockWith elapsedUsWith)
        (process registry { config with rules := before ++ after }
          context clock elapsedUs) ↔
      ¬ SwitchesPath registry (before ++ after) added ∨
        QuietAfterMatch (visits context (before ++ after) clock) := by
  by_cases switches : SwitchesPath registry (before ++ after) added
  · rw [sameOutcome_iff_of_switches adds switches]
    simp [switches]
  · simp [switches, sameOutcome_of_stays adds switches]

/-- A registry with one type. -/
def notifyRegistry : DecisionTypeRegistry where
  types := [{ id := "notify", priority := 1 }]

/-- The context of an event of tenant `t`. -/
def tenantContext : PolicyContext where
  event := { tenantId := "t", entityId := "e" }
  stageOutputs := []

/-- A rule without a decision type for a tenant. -/
def tenantRule (tenantId : String) (actionVerdict : Verdict) :
    PolicyStageRule where
  rule := .tenantIs tenantId
  actionVerdict := actionVerdict
  ruleId := "legacy"

/-- A rule with a decision type that does not match an event of tenant `t`. -/
def notifyRule : PolicyStageRule where
  rule := .tenantIs "other"
  priority := 1
  ruleId := "notify"
  decisionTypeId := some "notify"

/-- With one matching rule the added rule changes nothing. -/
theorem added_rule_changes_nothing :
    SameOutcome
      (process (some notifyRegistry)
        { rules := [tenantRule "t" .flag] ++ notifyRule :: [] }
        tenantContext (Stream'.const 0) 0)
      (process (some notifyRegistry)
        { rules := [tenantRule "t" .flag] ++ [] }
        tenantContext (Stream'.const 0) 0) := by
  refine (nonMatching_rule_changes_nothing_iff (some notifyRegistry) {}
    tenantContext [tenantRule "t" .flag] notifyRule [] (Stream'.const 0)
    (Stream'.const 0) 0 0 (addsNonMatching_of_const_clock (by decide) _ _)).mpr
    (Or.inr ?_)
  intro visit member
  have none : afterMatch (visits tenantContext
      ([tenantRule "t" .flag] ++ []) (Stream'.const 0)) = [] := rfl
  rw [none] at member
  exact absurd member List.not_mem_nil

/-- With two matching rules without a type, a rule that does not match turns the
verdict `Flag` of the first match into `Block`. -/
theorem added_rule_changes_verdict :
    (RuleEngine.evaluate tenantContext notifyRule.rule (Stream'.const 0)).1 =
        some false ∧
      (process (some notifyRegistry)
        { rules := [tenantRule "t" .flag, tenantRule "t" .block] }
        tenantContext (Stream'.const 0) 0).verdict = .flag ∧
      (process (some notifyRegistry)
        { rules := [tenantRule "t" .flag, tenantRule "t" .block, notifyRule] }
        tenantContext (Stream'.const 0) 0).verdict = .block := by
  decide

end PolicyStage
end Stage
end Fre
