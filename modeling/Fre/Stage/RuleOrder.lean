import Fre.Stage.PolicyStage

/-!
# The order in which rules are registered

`PolicyStageConfig::add_rule` sorts the rules after every insertion, with a sort
that says nothing about rules of one priority.  When the priorities are pairwise
different, the sorted list is the same for every order of the calls, and the
first match is the matching rule of the smallest priority.
-/

namespace Fre
namespace Stage

open Foundation Policy

/-- The arguments of a call of `add_rule`, by overload. -/
inductive RuleCall
  | plain (rule : PolicyRule) (priority : Int32) (actionVerdict : Verdict)
      (ruleId : String)
  | typed (rule : PolicyRule) (priority : Int32) (actionVerdict : Verdict)
      (ruleId decisionTypeId : String)

/-- The rule that a call pushes. -/
def RuleCall.stageRule : RuleCall → PolicyStageRule
  | .plain rule priority actionVerdict ruleId =>
      { rule, priority, actionVerdict, ruleId }
  | .typed rule priority actionVerdict ruleId decisionTypeId =>
      { rule, priority, actionVerdict, ruleId
        decisionTypeId := some decisionTypeId }

/-- The rules that a sequence of calls pushes. -/
def pushedRules (calls : List (RuleSort × RuleCall)) : List PolicyStageRule :=
  calls.map fun call => call.2.stageRule

namespace PolicyStageConfig

/-- A sequence of calls of `add_rule`, each with a sort of its own: every
overload sorts by a comparison of its own type. -/
def addRules (config : PolicyStageConfig)
    (calls : List (RuleSort × RuleCall)) : PolicyStageConfig :=
  calls.foldl (fun config call => config.addRule call.1 call.2.stageRule)
    config

theorem addRules_append_singleton
    (config : PolicyStageConfig)
    (calls : List (RuleSort × RuleCall))
    (call : RuleSort × RuleCall) :
    config.addRules (calls ++ [call]) =
      (config.addRules calls).addRule call.1 call.2.stageRule := by
  simp [addRules]

/-- The calls keep the other settings. -/
theorem addRules_eq
    (config : PolicyStageConfig)
    (calls : List (RuleSort × RuleCall)) :
    config.addRules calls =
      { config with rules := (config.addRules calls).rules } := by
  induction calls using List.reverseRecOn with
  | nil => rfl
  | append_singleton calls call inductionHypothesis =>
      rw [addRules_append_singleton, inductionHypothesis]
      rfl

/-- The calls keep all rules and add theirs. -/
theorem perm_rules_addRules
    (config : PolicyStageConfig)
    (calls : List (RuleSort × RuleCall)) :
    (config.addRules calls).rules.Perm (config.rules ++ pushedRules calls) := by
  induction calls using List.reverseRecOn with
  | nil => simp [addRules, pushedRules]
  | append_singleton calls call inductionHypothesis =>
      rw [addRules_append_singleton]
      refine (call.1.perm _).trans ?_
      rw [pushedRules, List.map_append, ← List.append_assoc]
      exact inductionHypothesis.append_right _

/-- The configuration before the first call. -/
def cleared (config : PolicyStageConfig) : PolicyStageConfig :=
  { config with rules := [] }

/-- The rules stand in ascending order after every call. -/
theorem ascending_rules_cleared
    (config : PolicyStageConfig)
    (calls : List (RuleSort × RuleCall)) :
    (config.cleared.addRules calls).rules.Pairwise fun left right =>
      left.priority.toInt ≤ right.priority.toInt := by
  induction calls using List.reverseRecOn with
  | nil => exact List.Pairwise.nil
  | append_singleton calls call _ =>
      rw [addRules_append_singleton]
      exact call.1.ascending _

end PolicyStageConfig

namespace PolicyStage

/-! ### The first match -/

/-- The first visit that matches. -/
def firstMatching (visited : List Visit) : Option Visit :=
  visited.find? fun visit => visit.2 = some true

/-- When nothing throws, the legacy path shows of its visits the first match
alone. -/
theorem filterMap_untilMatch_of_noThrow
    {β : Type}
    {emit : Visit → Option β}
    (silent : ∀ psr, emit (psr, some false) = none)
    {visited : List Visit}
    (noThrow : ∀ visit ∈ untilMatch visited, visit.2 ≠ none) :
    (untilMatch visited).filterMap emit =
      ((firstMatching visited).bind emit).toList := by
  induction visited with
  | nil => rfl
  | cons visit rest inductionHypothesis =>
      obtain ⟨psr, outcome⟩ := visit
      unfold untilMatch at noThrow ⊢
      cases outcome with
      | none =>
          exact absurd rfl (noThrow (psr, none) (by simp))
      | some holds =>
          cases holds with
          | true =>
              cases given : emit (psr, some true) with
              | none => simp [firstMatching, given]
              | some value => simp [firstMatching, given]
          | false =>
              have rest := inductionHypothesis fun later member =>
                noThrow later (by simp [member])
              simpa [firstMatching, silent psr] using rest

/-- The visits come in the order of the rules. -/
theorem ascending_visits
    {rules : List PolicyStageRule}
    (ascending : rules.Pairwise fun left right =>
      left.priority.toInt ≤ right.priority.toInt)
    (context : PolicyContext)
    (clock : Clock) :
    (visits context rules clock).Pairwise fun left right =>
      left.1.priority.toInt ≤ right.1.priority.toInt := by
  rw [← visits_map_fst context rules clock, List.pairwise_map] at ascending
  exact ascending

/-- Among rules in ascending order of different priorities the first match is
the one of the smallest priority. -/
theorem firstMatching_eq_some
    {context : PolicyContext}
    {rules : List PolicyStageRule}
    {clock : Clock}
    (ascending : rules.Pairwise fun left right =>
      left.priority.toInt ≤ right.priority.toInt)
    (distinct : (rules.map fun psr => psr.priority.toInt).Nodup)
    {psr : PolicyStageRule}
    (matched : (psr, some true) ∈ visits context rules clock)
    (smallest : ∀ other, (other, some true) ∈ visits context rules clock →
      psr.priority ≤ other.priority) :
    firstMatching (visits context rules clock) = some (psr, some true) := by
  have found : (firstMatching (visits context rules clock)).isSome := by
    rw [firstMatching, List.find?_isSome]
    exact ⟨_, matched, by simp⟩
  obtain ⟨⟨first, outcome⟩, isFirst⟩ := Option.isSome_iff_exists.mp found
  obtain rfl : outcome = some true := by simpa using List.find?_some isFirst
  have firstMember := List.mem_of_find?_eq_some isFirst
  have before : first.priority.toInt ≤ psr.priority.toInt :=
    key_le_of_find?_eq_some (ascending_visits ascending context clock) isFirst
      matched (by simp)
  have after : psr.priority.toInt ≤ first.priority.toInt :=
    Int32.le_iff_toInt_le.mp (smallest first firstMember)
  have same : first = psr :=
    List.inj_on_of_nodup_map distinct (mem_rules_of_mem_visits firstMember)
      (mem_rules_of_mem_visits matched) (before.antisymm after)
  rw [isFirst, same]

/-- The output of the legacy path when nothing throws: the first match, if
there is one. -/
theorem process_of_legacy_of_noThrow
    {registry : Option DecisionTypeRegistry}
    {config : PolicyStageConfig}
    (legacy : activeRegistry registry config.rules = none)
    {context : PolicyContext}
    {clock : Clock}
    (noThrow : ∀ visit ∈ untilMatch (visits context config.rules clock),
      visit.2 ≠ none)
    (elapsedUs : UInt64) :
    process registry config context clock elapsedUs =
      match firstMatching (visits context config.rules clock) with
      | none => { stageId := "policy", elapsedUs }
      | some (psr, _) =>
          { stageId := "policy", verdict := psr.actionVerdict
            evaluatorResults := [matchResult psr], elapsedUs } := by
  have nothingThrown :
      anyThrew (untilMatch (visits context config.rules clock)) = false := by
    simpa [anyThrew, List.any_eq_false] using noThrow
  rw [process_eq]
  dsimp only
  rw [legacy, recordedVisits, resolvedResults, nothingThrown,
    filterMap_untilMatch_of_noThrow (by simp [contribution]) noThrow,
    filterMap_untilMatch_of_noThrow (fun _ => rfl) noThrow]
  cases first : firstMatching (visits context config.rules clock) with
  | none => simp
  | some visit =>
      obtain ⟨psr, outcome⟩ := visit
      obtain rfl : outcome = some true := by
        simpa using List.find?_some first
      simp [contribution, recordedResult]

/-! ### Registration order -/

/-- The rules that calls put into an empty configuration have the priorities
of the calls. -/
theorem nodup_priorities_addRules
    (config : PolicyStageConfig)
    {calls : List (RuleSort × RuleCall)}
    (distinct : ((pushedRules calls).map PolicyStageRule.priority).Nodup) :
    ((config.cleared.addRules calls).rules.map fun psr =>
      psr.priority.toInt).Nodup := by
  have pushed := config.cleared.perm_rules_addRules calls
  rw [(pushed.map _).nodup_iff]
  have mapped := distinct.map fun _ _ => Int32.toInt_inj.mp
  rw [List.map_map] at mapped
  exact mapped

/-- Two sequences of calls that push the same rules, of pairwise different
priorities, leave the same configuration. -/
theorem addRules_eq_of_perm
    (config : PolicyStageConfig)
    {calls others : List (RuleSort × RuleCall)}
    (sameRules : (pushedRules calls).Perm (pushedRules others))
    (distinct : ((pushedRules calls).map PolicyStageRule.priority).Nodup) :
    config.cleared.addRules calls = config.cleared.addRules others := by
  have pushed := config.cleared.perm_rules_addRules calls
  have pushedOther := config.cleared.perm_rules_addRules others
  have sameList : (config.cleared.addRules calls).rules =
      (config.cleared.addRules others).rules :=
    eq_of_ascending_of_perm (config.ascending_rules_cleared calls)
      (config.ascending_rules_cleared others)
      (nodup_priorities_addRules config distinct)
      (pushed.trans (sameRules.trans pushedOther.symm))
  rw [PolicyStageConfig.addRules_eq, sameList,
    ← PolicyStageConfig.addRules_eq]

/-- The outcome of the policy stage does not depend on the order in which rules
of pairwise different priorities were added; the rules of the stage are those
that were added.  On the legacy path, when no visited rule throws, the outcome
is the matching rule of the smallest priority, or nothing when no rule
matches. -/
theorem outcome_independent_of_registration_order
    (registry : Option DecisionTypeRegistry)
    (config : PolicyStageConfig)
    (calls others : List (RuleSort × RuleCall))
    (sameRules : (pushedRules calls).Perm (pushedRules others))
    (distinct : ((pushedRules calls).map PolicyStageRule.priority).Nodup)
    (context : PolicyContext)
    (clock : Clock)
    (elapsedUs otherElapsedUs : UInt64) :
    let built := config.cleared.addRules calls
    let rebuilt := config.cleared.addRules others
    let visited := visits context built.rules clock
    built.rules.Perm (pushedRules calls) ∧
      process registry built context clock elapsedUs =
        { process registry rebuilt context clock otherElapsedUs with
          elapsedUs } ∧
      (activeRegistry registry built.rules = none →
        (∀ visit ∈ untilMatch visited, visit.2 ≠ none) →
        (∀ psr, (psr, some true) ∈ visited →
          (∀ other, (other, some true) ∈ visited →
            psr.priority ≤ other.priority) →
          process registry built context clock elapsedUs =
            { stageId := "policy", verdict := psr.actionVerdict
              evaluatorResults := [matchResult psr], elapsedUs }) ∧
        ((∀ visit ∈ visited, visit.2 ≠ some true) →
          process registry built context clock elapsedUs =
            { stageId := "policy", elapsedUs })) := by
  intro built rebuilt visited
  refine ⟨config.cleared.perm_rules_addRules calls, ?_, ?_⟩
  · rw [show built = rebuilt from addRules_eq_of_perm config sameRules distinct]
    rfl
  · intro legacy noThrow
    have output := process_of_legacy_of_noThrow legacy noThrow elapsedUs
    constructor
    · intro psr matched smallest
      rw [output, firstMatching_eq_some (config.ascending_rules_cleared calls)
        (nodup_priorities_addRules config distinct) matched smallest]
    · intro noMatch
      have nothing : firstMatching visited = none := by
        rw [firstMatching, List.find?_eq_none]
        simpa using noMatch
      rw [output, nothing]

/-- A call of the first overload for the rules of one tenant. -/
def tenantCall (priority : Int32) (actionVerdict : Verdict) :
    RuleSort × RuleCall :=
  (SortFunction.stable _,
    .plain (.tenantIs "t") priority actionVerdict "tenant")

/-- A call of the second overload. -/
def reviewCall (priority : Int32) : RuleSort × RuleCall :=
  (SortFunction.stable _,
    .typed (.tenantIs "t") priority .flag "review" "review")

/-- An event of the tenant. -/
def tenantEvent : PolicyContext where
  event := { tenantId := "t", entityId := "e" }
  stageOutputs := []

/-- Both rules match, the one of the smaller priority first. -/
theorem visits_two_rules :
    visits tenantEvent
        ((PolicyStageConfig.cleared {}).addRules
          [tenantCall 2 .block, reviewCall 1]).rules (Stream'.const 0) =
      [((reviewCall 1).2.stageRule, some true),
        ((tenantCall 2 .block).2.stageRule, some true)] := by
  have sorted : ((PolicyStageConfig.cleared {}).addRules
      [tenantCall 2 .block, reviewCall 1]).rules =
        [(reviewCall 1).2.stageRule, (tenantCall 2 .block).2.stageRule] := by
    have pushed := (PolicyStageConfig.cleared {}).perm_rules_addRules
      [tenantCall 2 .block, reviewCall 1]
    exact eq_of_ascending_of_perm
      (PolicyStageConfig.ascending_rules_cleared {} _) (by decide)
      (nodup_priorities_addRules {} (by decide))
      (pushed.trans (List.Perm.swap _ _ _))
  rw [sorted]
  rfl

/-- Two rules in either order, without a registry: both are kept, and the one
of the smaller priority is the outcome. -/
theorem two_rules_in_either_order :
    let built := PolicyStageConfig.addRules {}
      [tenantCall 2 .block, reviewCall 1]
    built.rules.Perm
        [(tenantCall 2 .block).2.stageRule, (reviewCall 1).2.stageRule] ∧
      process none built tenantEvent (Stream'.const 0) 0 =
        { process none
            (PolicyStageConfig.addRules {} [reviewCall 1, tenantCall 2 .block])
            tenantEvent (Stream'.const 0) 7 with elapsedUs := 0 } ∧
      process none built tenantEvent (Stream'.const 0) 0 =
        { stageId := "policy", verdict := .flag
          evaluatorResults := [matchResult (reviewCall 1).2.stageRule] } := by
  intro built
  obtain ⟨kept, same, outcome⟩ := outcome_independent_of_registration_order
    none {} [tenantCall 2 .block, reviewCall 1]
    [reviewCall 1, tenantCall 2 .block] (List.Perm.swap _ _ _) (by decide)
    tenantEvent (Stream'.const 0) 0 7
  rw [visits_two_rules] at outcome
  refine ⟨kept, same, (outcome rfl ?_).1 (reviewCall 1).2.stageRule ?_ ?_⟩
  · intro visit member
    rw [List.mem_singleton.mp member]
    simp
  · exact List.mem_cons_self
  · intro other member
    rcases List.mem_cons.mp member with first | second
    · rw [(Prod.mk.inj first).1]
      exact Int32.le_refl _
    · rw [(Prod.mk.inj (List.mem_singleton.mp second)).1]
      decide

end PolicyStage
end Stage
end Fre
