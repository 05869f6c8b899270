import Fre.Core.DecisionType
import Fre.Foundation.FirstByKey
import Fre.Stage.StageConfig

/-!
# The policy stage

`PolicyStage::process` evaluates the rules in list order.  Without a registry,
or without a rule that has a decision type, the first matching rule wins.
Otherwise every rule is evaluated: the matching rules with a type are
deduplicated by type, the losers of incompatible pairs are removed, and the
others are reported.  A rule whose evaluation throws is reported as skipped on
both paths.
-/

namespace Fre
namespace Stage
namespace PolicyStage

open Foundation Policy

/-- The result for a rule whose evaluation throws. -/
def degradedResult (config : PolicyStageConfig) (psr : PolicyStageRule) :
    EvaluatorResult where
  evaluatorId := if psr.ruleId.isEmpty then "unknown_rule" else psr.ruleId
  verdict := if config.failureMode = .failClosed then .block else .pass
  skipped := true
  reasonCode := some "rule_eval_exception"

/-- The result for a matching rule. -/
def matchResult (psr : PolicyStageRule) : EvaluatorResult where
  evaluatorId := if psr.ruleId.isEmpty then "policy_rule" else psr.ruleId
  verdict := psr.actionVerdict
  reasonCode := some psr.ruleId

/-- The handler of an exception; it leaves the verdict as it is. -/
def recordThrow (config : PolicyStageConfig) (psr : PolicyStageRule)
    (out : StageOutput) : StageOutput :=
  { out with
    evaluatorResults := out.evaluatorResults ++ [degradedResult config psr]
    degradedReason := out.degradedReason.merge .evaluatorError }

/-- A result that counts towards the verdict. -/
def recordResult (result : EvaluatorResult) (out : StageOutput) : StageOutput :=
  { out with
    verdict := Verdict.maxVerdict out.verdict result.verdict
    evaluatorResults := out.evaluatorResults ++ [result] }

/-- The legacy path: the first matching rule wins. -/
def firstMatch (config : PolicyStageConfig) (context : PolicyContext) :
    List PolicyStageRule → Clock → StageOutput → StageOutput
  | [], _, out => out
  | psr :: rest, clock, out =>
      match RuleEngine.evaluate context psr.rule clock with
      | (none, later) =>
          firstMatch config context rest later (recordThrow config psr out)
      | (some true, _) => recordResult (matchResult psr) out
      | (some false, later) => firstMatch config context rest later out

/-- A matching rule with a registered type. -/
structure Match where
  typeId : String
  priority : UInt32 := 0
  result : EvaluatorResult
  deriving DecidableEq

/-- The match of a rule, none for a rule whose type is not registered. -/
def matchOf (registry : DecisionTypeRegistry) (psr : PolicyStageRule)
    (typeId : String) : Option Match :=
  (registry.find typeId).map fun descriptor =>
    { typeId
      priority := descriptor.priority
      result := { matchResult psr with decisionTypeId := some typeId } }

/-- The first loop of the multi-decision path: all rules are evaluated, and the
matches of rules with a type are collected. -/
def collect (registry : DecisionTypeRegistry) (config : PolicyStageConfig)
    (context : PolicyContext) :
    List PolicyStageRule → Clock → StageOutput × List Match →
      StageOutput × List Match
  | [], _, collected => collected
  | psr :: rest, clock, (out, found) =>
      match RuleEngine.evaluate context psr.rule clock with
      | (none, later) =>
          collect registry config context rest later
            (recordThrow config psr out, found)
      | (some false, later) =>
          collect registry config context rest later (out, found)
      | (some true, later) =>
          match psr.decisionTypeId with
          | none =>
              collect registry config context rest later
                (recordResult (matchResult psr) out, found)
          | some typeId =>
              collect registry config context rest later
                (out, found ++ (matchOf registry psr typeId).toList)

/-- One match for each type: the first. -/
def dedup (found : List Match) : List Match :=
  FirstByKey.firstByKey Match.typeId found

/-- A match of the type is in the list. -/
def fired (deduped : List Match) (typeId : String) : Bool :=
  deduped.any fun candidate => candidate.typeId == typeId

/-- The loser of an incompatible pair: the type of lower precedence, the second
one when the precedences are equal. -/
def loser (registry : DecisionTypeRegistry) (pair : IncompatiblePair) :
    Option String :=
  match registry.find pair.typeIdA, registry.find pair.typeIdB with
  | some descA, some descB =>
      if descA.priority ≤ descB.priority then some pair.typeIdB
      else some pair.typeIdA
  | _, _ => none

/-- The losers of the pairs whose types have both fired. -/
def losers (registry : DecisionTypeRegistry) (deduped : List Match) :
    List String :=
  registry.incompatible.filterMap fun pair =>
    if fired deduped pair.typeIdA && fired deduped pair.typeIdB then
      loser registry pair
    else none

/-- The last loop: one result for each match that is not a loser. -/
def emitSurvivors (lost : List String) (deduped : List Match)
    (out : StageOutput) : StageOutput :=
  deduped.foldl
    (fun out candidate =>
      if lost.any fun typeId => typeId == candidate.typeId then out
      else recordResult candidate.result out)
    out

/-- The multi-decision path. -/
def resolveAll (registry : DecisionTypeRegistry) (config : PolicyStageConfig)
    (context : PolicyContext) (clock : Clock) (out : StageOutput) :
    StageOutput :=
  let (out, found) := collect registry config context config.rules clock
    (out, [])
  let deduped := dedup found
  emitSurvivors (losers registry deduped) deduped out

/-- Some rule has a decision type. -/
def anyTyped (rules : List PolicyStageRule) : Bool :=
  rules.any fun psr => psr.decisionTypeId.isSome

/-- `PolicyStage::process`. -/
def process (registry : Option DecisionTypeRegistry)
    (config : PolicyStageConfig) (context : PolicyContext) (clock : Clock)
    (elapsedUs : UInt64) : StageOutput :=
  let start : StageOutput := { stageId := "policy" }
  let out :=
    match registry with
    | none => firstMatch config context config.rules clock start
    | some registry =>
        if anyTyped config.rules then
          resolveAll registry config context clock start
        else firstMatch config context config.rules clock start
  { out with elapsedUs := elapsedUs }

/-! ### Visits

What the stage does depends on the rules and on the outcomes of their
evaluations, in list order.
-/

/-- A rule with the outcome of its evaluation, none if it throws. -/
abbrev Visit := PolicyStageRule × Option Bool

/-- The outcomes when all rules are evaluated in order. -/
def visits (context : PolicyContext) :
    List PolicyStageRule → Clock → List Visit
  | [], _ => []
  | psr :: rest, clock =>
      let (outcome, later) := RuleEngine.evaluate context psr.rule clock
      (psr, outcome) :: visits context rest later

/-- The visits of the legacy path: it stops after the first match. -/
def untilMatch : List Visit → List Visit
  | [] => []
  | visit :: rest =>
      if visit.2 = some true then [visit] else visit :: untilMatch rest

/-- What a visit without a type does to the output. -/
def record (config : PolicyStageConfig) (out : StageOutput) (visit : Visit) :
    StageOutput :=
  match visit.2 with
  | none => recordThrow config visit.1 out
  | some true => recordResult (matchResult visit.1) out
  | some false => out

/-- The visit does not match under a decision type. -/
def untyped (visit : Visit) : Bool :=
  !(visit.2 == some true && visit.1.decisionTypeId.isSome)

/-- The match of a visit. -/
def visitMatch (registry : DecisionTypeRegistry) (visit : Visit) :
    Option Match :=
  if visit.2 = some true then
    visit.1.decisionTypeId.bind (matchOf registry visit.1)
  else none

theorem visits_map_fst
    (context : PolicyContext)
    (rules : List PolicyStageRule)
    (clock : Clock) :
    (visits context rules clock).map Prod.fst = rules := by
  induction rules generalizing clock with
  | nil => rfl
  | cons psr rest inductionHypothesis =>
      simp [visits, inductionHypothesis]

theorem mem_rules_of_mem_visits
    {context : PolicyContext}
    {rules : List PolicyStageRule}
    {clock : Clock}
    {visit : Visit}
    (member : visit ∈ visits context rules clock) :
    visit.1 ∈ rules := by
  rw [← visits_map_fst context rules clock]
  exact List.mem_map_of_mem member

/-- The legacy path records the visits up to the first match. -/
theorem firstMatch_eq
    (config : PolicyStageConfig)
    (context : PolicyContext)
    (rules : List PolicyStageRule)
    (clock : Clock)
    (out : StageOutput) :
    firstMatch config context rules clock out =
      (untilMatch (visits context rules clock)).foldl (record config) out := by
  induction rules generalizing clock out with
  | nil => rfl
  | cons psr rest inductionHypothesis =>
      rw [firstMatch, visits, untilMatch]
      split
      next later evaluated =>
        simp [evaluated, inductionHypothesis, record]
      next later evaluated => simp [evaluated, record]
      next later evaluated =>
        simp [evaluated, inductionHypothesis, record]

/-- The first loop of the multi-decision path records the visits without a type
and collects the matches of the others. -/
theorem collect_eq
    (registry : DecisionTypeRegistry)
    (config : PolicyStageConfig)
    (context : PolicyContext)
    (rules : List PolicyStageRule)
    (clock : Clock)
    (out : StageOutput)
    (found : List Match) :
    collect registry config context rules clock (out, found) =
      (((visits context rules clock).filter untyped).foldl (record config) out,
        found ++ (visits context rules clock).filterMap
          (visitMatch registry)) := by
  induction rules generalizing clock out found with
  | nil => simp [collect, visits]
  | cons psr rest inductionHypothesis =>
      rw [collect, visits]
      split
      next later evaluated =>
        simp [evaluated, inductionHypothesis, record, untyped, visitMatch]
      next later evaluated =>
        simp [evaluated, inductionHypothesis, record, untyped, visitMatch]
      next later evaluated =>
        split
        next noType =>
          simp [evaluated, inductionHypothesis, record, untyped, visitMatch,
            noType]
        next typeId hasType =>
          cases given : matchOf registry psr typeId with
          | none =>
              simp [evaluated, inductionHypothesis, untyped, visitMatch,
                hasType, given]
          | some candidate =>
              simp [evaluated, inductionHypothesis, untyped, visitMatch,
                hasType, given]

/-! ### The output in terms of the visits -/

/-- The result that a visit without a type adds. -/
def recordedResult (config : PolicyStageConfig) (visit : Visit) :
    Option EvaluatorResult :=
  match visit.2 with
  | none => some (degradedResult config visit.1)
  | some true => some (matchResult visit.1)
  | some false => none

/-- The verdict that a visit without a type contributes. -/
def contribution (visit : Visit) : Option Verdict :=
  if visit.2 = some true then some visit.1.actionVerdict else none

/-- The evaluation of some visited rule has thrown. -/
def anyThrew (visited : List Visit) : Bool :=
  visited.any fun visit => visit.2.isNone

@[simp] theorem anyThrew_nil : anyThrew [] = false := rfl

@[simp] theorem anyThrew_cons (visit : Visit) (rest : List Visit) :
    anyThrew (visit :: rest) = (visit.2.isNone || anyThrew rest) := rfl

/-- Recording visits one after the other. -/
theorem foldl_record
    (config : PolicyStageConfig)
    (visited : List Visit)
    (out : StageOutput) :
    visited.foldl (record config) out =
      { out with
        verdict := Verdict.maxVerdict out.verdict
          (Verdict.strictest (visited.filterMap contribution))
        evaluatorResults := out.evaluatorResults ++
          visited.filterMap (recordedResult config)
        degradedReason :=
          if anyThrew visited then out.degradedReason.merge .evaluatorError
          else out.degradedReason } := by
  induction visited generalizing out with
  | nil => simp
  | cons visit rest inductionHypothesis =>
      rw [List.foldl_cons, inductionHypothesis]
      obtain ⟨psr, outcome⟩ := visit
      match outcome with
      | none =>
          have again := DegradedReason.merge_merge_self out.degradedReason
            .evaluatorError
          simp [record, recordThrow, recordedResult, contribution, again]
      | some false =>
          simp [record, contribution, List.filterMap_cons, recordedResult]
      | some true =>
          simp [record, recordResult, matchResult, recordedResult,
            contribution, Verdict.maxVerdict_eq_max, max_assoc]

/-- Recording results one after the other. -/
theorem foldl_recordResult
    (results : List EvaluatorResult)
    (out : StageOutput) :
    results.foldl (fun out result => recordResult result out) out =
      { out with
        verdict := Verdict.maxVerdict out.verdict
          (Verdict.strictest (results.map EvaluatorResult.verdict))
        evaluatorResults := out.evaluatorResults ++ results } := by
  induction results generalizing out with
  | nil => simp
  | cons result rest inductionHypothesis =>
      rw [List.foldl_cons, inductionHypothesis]
      simp [recordResult, Verdict.maxVerdict_eq_max, max_assoc]

/-- The results of the matches that are not losers. -/
def survivingResults (registry : DecisionTypeRegistry)
    (visited : List Visit) : List EvaluatorResult :=
  let deduped := dedup (visited.filterMap (visitMatch registry))
  (deduped.filter fun candidate =>
    !(losers registry deduped).any fun typeId =>
      typeId == candidate.typeId).map Match.result

/-- Visits of rules without a type leave no type to resolve. -/
theorem survivingResults_of_untyped
    {visited : List Visit}
    (noTypes : ∀ visit ∈ visited, visit.1.decisionTypeId = none)
    (registry : DecisionTypeRegistry) :
    survivingResults registry visited = [] := by
  have noMatch : visited.filterMap (visitMatch registry) = [] := by
    rw [List.filterMap_eq_nil_iff]
    intro visit member
    simp [visitMatch, noTypes visit member]
  simp [survivingResults, noMatch, dedup, FirstByKey.firstByKey]

/-- The rules of the visits have no decision type. -/
theorem untyped_of_not_anyTyped
    (context : PolicyContext)
    {rules : List PolicyStageRule}
    (clock : Clock)
    (noneTyped : anyTyped rules = false) :
    ∀ visit ∈ visits context rules clock, visit.1.decisionTypeId = none := by
  intro visit member
  simpa using List.any_eq_false.mp noneTyped visit.1
    (mem_rules_of_mem_visits member)

/-- The last loop records the surviving results. -/
theorem emitSurvivors_eq
    (lost : List String)
    (deduped : List Match)
    (out : StageOutput) :
    emitSurvivors lost deduped out =
      ((deduped.filter fun candidate =>
        !lost.any fun typeId => typeId == candidate.typeId).map
          Match.result).foldl (fun out result => recordResult result out)
            out := by
  unfold emitSurvivors
  rw [List.foldl_map, List.foldl_filter]
  congr 1
  funext out candidate
  cases lost.any fun typeId => typeId == candidate.typeId <;> rfl

/-- The registry that is used: none on the legacy path. -/
def activeRegistry (registry : Option DecisionTypeRegistry)
    (rules : List PolicyStageRule) : Option DecisionTypeRegistry :=
  registry.filter fun _ => anyTyped rules

theorem activeRegistry_some
    (registry : DecisionTypeRegistry)
    (rules : List PolicyStageRule) :
    activeRegistry (some registry) rules =
      if anyTyped rules then some registry else none :=
  Option.filter_some

/-- The visits whose results are recorded during the evaluation. -/
def recordedVisits (registry : Option DecisionTypeRegistry)
    (visited : List Visit) : List Visit :=
  match registry with
  | none => untilMatch visited
  | some _ => visited.filter untyped

/-- The results recorded after the evaluation. -/
def resolvedResults (registry : Option DecisionTypeRegistry)
    (visited : List Visit) : List EvaluatorResult :=
  match registry with
  | none => []
  | some registry => survivingResults registry visited

theorem process_of_legacy
    {registry : Option DecisionTypeRegistry}
    {config : PolicyStageConfig}
    (legacy : activeRegistry registry config.rules = none)
    (context : PolicyContext)
    (clock : Clock)
    (elapsedUs : UInt64) :
    process registry config context clock elapsedUs =
      { (untilMatch (visits context config.rules clock)).foldl (record config)
          { stageId := "policy" } with
        elapsedUs := elapsedUs } := by
  unfold process
  rw [← firstMatch_eq]
  cases registry with
  | none => rfl
  | some registry =>
      have noneTyped : anyTyped config.rules = false := by
        simpa [activeRegistry_some] using legacy
      simp only [noneTyped, Bool.false_eq_true, if_false]

theorem process_of_multi
    {registry : Option DecisionTypeRegistry}
    {used : DecisionTypeRegistry}
    {config : PolicyStageConfig}
    (multi : activeRegistry registry config.rules = some used)
    (context : PolicyContext)
    (clock : Clock)
    (elapsedUs : UInt64) :
    let visited := visits context config.rules clock
    process registry config context clock elapsedUs =
      { (survivingResults used visited).foldl
          (fun out result => recordResult result out)
          ((visited.filter untyped).foldl (record config)
            { stageId := "policy" }) with
        elapsedUs := elapsedUs } := by
  obtain ⟨rfl, someTyped⟩ := Option.filter_eq_some_iff.mp multi
  unfold process
  simp only [someTyped, if_true, resolveAll, collect_eq, List.nil_append,
    emitSurvivors_eq, survivingResults]

/-- The output of the stage, on both paths. -/
theorem process_eq
    (registry : Option DecisionTypeRegistry)
    (config : PolicyStageConfig)
    (context : PolicyContext)
    (clock : Clock)
    (elapsedUs : UInt64) :
    process registry config context clock elapsedUs =
      let used := activeRegistry registry config.rules
      let visited := visits context config.rules clock
      let recorded := recordedVisits used visited
      let resolved := resolvedResults used visited
      { stageId := "policy"
        verdict := Verdict.maxVerdict
          (Verdict.strictest (recorded.filterMap contribution))
          (Verdict.strictest (resolved.map EvaluatorResult.verdict))
        evaluatorResults :=
          recorded.filterMap (recordedResult config) ++ resolved
        degradedReason :=
          if anyThrew recorded then DegradedReason.none.merge .evaluatorError
          else .none
        elapsedUs := elapsedUs } := by
  cases used : activeRegistry registry config.rules with
  | none =>
      rw [process_of_legacy used, foldl_record]
      simp only [recordedVisits, resolvedResults, List.map_nil,
        Verdict.strictest_nil, Verdict.maxVerdict_pass,
        Verdict.pass_maxVerdict, List.nil_append, List.append_nil]
      rfl
  | some active =>
      rw [process_of_multi used, foldl_recordResult, foldl_record]
      simp only [recordedVisits, resolvedResults, Verdict.pass_maxVerdict,
        List.nil_append]
      rfl

end PolicyStage
end Stage
end Fre
