import Fre.Stage.Combinability

/-!
# The verdict of the policy stage after an exception

A rule whose evaluation throws is recorded with the verdict of the failure mode,
but the verdict of the stage is raised by matching rules only.  The two agree
unless a fail-closed stage has nothing else that blocks.
-/

namespace Fre
namespace Stage
namespace PolicyStage

open Foundation Policy Undominated

/-- The visits that the stage makes. -/
def madeVisits (registry : Option DecisionTypeRegistry)
    (visited : List Visit) : List Visit :=
  match registry with
  | none => untilMatch visited
  | some _ => visited

/-- The rule of the visit raises the verdict: it matches, and on the
multi-decision path it has no type or is the first match of a type that no
matched type defeats. -/
def Contributes (registry : Option DecisionTypeRegistry)
    (visited : List Visit) (visit : Visit) : Prop :=
  visit ∈ madeVisits registry visited ∧ visit.2 = some true ∧
    match registry with
    | none => True
    | some registry =>
        visit.1.decisionTypeId = none ∨
          ∃ typeId, visited.find? (matchesType typeId) = some visit ∧
            Survives (matchedTypes registry visited) (Defeats registry) typeId

/-! ### When the verdict is `Block` -/

theorem maxVerdict_eq_block_iff (left right : Verdict) :
    Verdict.maxVerdict left right = .block ↔ left = .block ∨ right = .block := by
  cases left <;> cases right <;> decide

theorem block_mem_contributions_iff (visited : List Visit) :
    Verdict.block ∈ visited.filterMap contribution ↔
      ∃ visit ∈ visited, visit.2 = some true ∧
        visit.1.actionVerdict = .block := by
  simp only [List.mem_filterMap, contribution, Option.ite_none_right_eq_some,
    Option.some_inj]

/-- The surviving results with verdict `Block` come from first matches of
undefeated types. -/
theorem block_mem_survivingResults_iff
    (registry : DecisionTypeRegistry)
    (visited : List Visit) :
    Verdict.block ∈
        (survivingResults registry visited).map EvaluatorResult.verdict ↔
      ∃ visit ∈ visited, visit.2 = some true ∧
        visit.1.actionVerdict = .block ∧
        ∃ typeId, visited.find? (matchesType typeId) = some visit ∧
          Survives (matchedTypes registry visited) (Defeats registry)
            typeId := by
  rw [List.mem_map]
  constructor
  · rintro ⟨result, member, isBlock⟩
    obtain ⟨candidate, kept, survives, rfl⟩ :=
      (mem_survivingResults_iff registry visited result).mp member
    obtain ⟨visit, first, given⟩ :=
      (mem_dedup_iff registry visited candidate).mp kept
    obtain ⟨matched, -, ofType⟩ := visitMatch_eq_some_iff.mp given
    obtain ⟨descriptor, -, same⟩ := matchOf_eq_some_iff.mp ofType
    rw [same] at isBlock
    exact ⟨visit, List.mem_of_find?_eq_some first, matched, isBlock,
      candidate.typeId, first, survives⟩
  · rintro ⟨visit, -, matched, isBlock, typeId, first, survives⟩
    obtain ⟨-, -, -, -, registered⟩ := survives.1
    have hasType : visit.1.decisionTypeId = some typeId := by
      have tested := List.find?_some first
      simp only [matchesType, Bool.and_eq_true, beq_iff_eq] at tested
      exact tested.2
    obtain ⟨candidate, given, rfl⟩ :=
      exists_visitMatch matched hasType registered
    have kept := (mem_dedup_iff registry visited candidate).mpr
      ⟨visit, first, given⟩
    refine ⟨candidate.result, (mem_survivingResults_iff registry visited _).mpr
      ⟨candidate, kept, survives, rfl⟩, ?_⟩
    obtain ⟨-, -, ofType⟩ := visitMatch_eq_some_iff.mp given
    obtain ⟨descriptor, -, same⟩ := matchOf_eq_some_iff.mp ofType
    rw [same]
    exact isBlock

/-- The stage verdict is `Block` exactly when a rule with that action
contributes. -/
theorem process_verdict_eq_block_iff
    (registry : Option DecisionTypeRegistry)
    (config : PolicyStageConfig)
    (context : PolicyContext)
    (clock : Clock)
    (elapsedUs : UInt64) :
    (process registry config context clock elapsedUs).verdict = .block ↔
      ∃ visit, Contributes (activeRegistry registry config.rules)
        (visits context config.rules clock) visit ∧
          visit.1.actionVerdict = .block := by
  rw [process_eq]
  dsimp only
  rw [maxVerdict_eq_block_iff, Verdict.strictest_eq_block_iff,
    Verdict.strictest_eq_block_iff, block_mem_contributions_iff]
  generalize visits context config.rules clock = visited
  cases activeRegistry registry config.rules with
  | none =>
      simp only [recordedVisits, resolvedResults, List.map_nil,
        List.not_mem_nil, or_false, Contributes, madeVisits, and_true]
      simp only [and_assoc]
  | some registry =>
      simp only [recordedVisits, resolvedResults, Contributes, madeVisits,
        block_mem_survivingResults_iff]
      constructor
      · rintro (⟨visit, member, matched, isBlock⟩ |
          ⟨visit, member, matched, isBlock, first⟩)
        · rw [List.mem_filter] at member
          have noType : visit.1.decisionTypeId = none := by
            simpa [untyped, matched] using member.2
          exact ⟨visit, ⟨member.1, matched, Or.inl noType⟩, isBlock⟩
        · exact ⟨visit, ⟨member, matched, Or.inr first⟩, isBlock⟩
      · rintro ⟨visit, ⟨member, matched, noType | first⟩, isBlock⟩
        · refine Or.inl ⟨visit, List.mem_filter.mpr ⟨member, ?_⟩, matched,
            isBlock⟩
          simp [untyped, noType]
        · exact Or.inr ⟨visit, member, matched, isBlock, first⟩

/-! ### The verdict and the results -/

/-- The recorded visits throw when the visits that were made do. -/
theorem anyThrew_recordedVisits
    (registry : Option DecisionTypeRegistry)
    (visited : List Visit) :
    anyThrew (recordedVisits registry visited) =
      anyThrew (madeVisits registry visited) := by
  cases registry with
  | none => rfl
  | some registry =>
      simp only [recordedVisits, madeVisits]
      induction visited with
      | nil => rfl
      | cons visit rest inductionHypothesis =>
          rw [List.filter_cons]
          cases outcome : visit.2 with
          | none => simp [untyped, outcome]
          | some matched =>
              split
              · simp [outcome, inductionHypothesis]
              · simp [outcome, inductionHypothesis]

/-- Exceptions that are recorded as `Pass` leave the strictest verdict to the
matching rules. -/
theorem strictest_recorded
    {config : PolicyStageConfig}
    {visited : List Visit}
    (harmless : config.failureMode ≠ .failClosed ∨ anyThrew visited = false) :
    Verdict.strictest ((visited.filterMap (recordedResult config)).map
        EvaluatorResult.verdict) =
      Verdict.strictest (visited.filterMap contribution) := by
  induction visited with
  | nil => rfl
  | cons visit rest inductionHypothesis =>
      have restHarmless : config.failureMode ≠ .failClosed ∨
          anyThrew rest = false := by
        refine harmless.imp_right fun quiet => ?_
        rw [anyThrew_cons, Bool.or_eq_false_iff] at quiet
        exact quiet.2
      have restEqual := inductionHypothesis restHarmless
      obtain ⟨psr, outcome⟩ := visit
      match outcome with
      | none =>
          have opened : config.failureMode ≠ .failClosed := by
            refine harmless.resolve_right fun quiet => ?_
            simp at quiet
          simp [recordedResult, contribution, degradedResult, opened,
            restEqual]
      | some false =>
          simpa [List.filterMap_cons, recordedResult, contribution] using
            restEqual
      | some true =>
          simp [recordedResult, contribution, matchResult, restEqual]

/-- An exception in a fail-closed stage leaves a `Block` result. -/
theorem block_mem_recorded
    {config : PolicyStageConfig}
    {visited : List Visit}
    (closed : config.failureMode = .failClosed)
    (threw : anyThrew visited = true) :
    Verdict.block ∈ (visited.filterMap (recordedResult config)).map
      EvaluatorResult.verdict := by
  obtain ⟨visit, member, isNone⟩ := List.any_eq_true.mp threw
  rw [List.mem_map]
  refine ⟨degradedResult config visit.1, List.mem_filterMap.mpr
    ⟨visit, member, ?_⟩, by simp [degradedResult, closed]⟩
  rw [recordedResult, Option.isNone_iff_eq_none.mp isNone]

/-- What a fail-closed policy promises: an exception blocks, and the stage
verdict is the strictest of its results. -/
def VerdictFollowsResults (registry : Option DecisionTypeRegistry)
    (config : PolicyStageConfig) (visited : List Visit) (out : StageOutput) :
    Prop :=
  (config.failureMode = .failClosed →
    anyThrew (madeVisits registry visited) = true → out.verdict = .block) ∧
  out.verdict =
    Verdict.strictest (out.evaluatorResults.map EvaluatorResult.verdict)

/-- The verdict follows the results exactly when the stage is not fail-closed,
no visited rule throws, or a rule that contributes blocks anyway. -/
theorem verdict_follows_results_iff
    (registry : Option DecisionTypeRegistry)
    (config : PolicyStageConfig)
    (context : PolicyContext)
    (clock : Clock)
    (elapsedUs : UInt64) :
    let used := activeRegistry registry config.rules
    let visited := visits context config.rules clock
    VerdictFollowsResults used config visited
        (process registry config context clock elapsedUs) ↔
      config.failureMode ≠ .failClosed ∨
        anyThrew (madeVisits used visited) = false ∨
        ∃ visit, Contributes used visited visit ∧
          visit.1.actionVerdict = .block := by
  intro used visited
  rw [← process_verdict_eq_block_iff registry config context clock elapsedUs]
  unfold VerdictFollowsResults
  by_cases exposed : config.failureMode = .failClosed ∧
      anyThrew (madeVisits used visited) = true
  · obtain ⟨closed, threw⟩ := exposed
    simp only [closed, threw, ne_eq, not_true_eq_false, false_or, true_imp_iff,
      Bool.true_eq_false]
    constructor
    · exact And.left
    · intro isBlock
      refine ⟨isBlock, ?_⟩
      rw [isBlock, eq_comm, Verdict.strictest_eq_block_iff, process_eq]
      dsimp only
      rw [List.map_append, List.mem_append]
      exact Or.inl (block_mem_recorded closed
        (by rw [anyThrew_recordedVisits]; exact threw))
  · have harmless : config.failureMode ≠ .failClosed ∨
        anyThrew (madeVisits used visited) = false := by
      rw [not_and_or, Bool.not_eq_true] at exposed
      exact exposed
    have follows : (process registry config context clock elapsedUs).verdict =
        Verdict.strictest ((process registry config context clock
          elapsedUs).evaluatorResults.map EvaluatorResult.verdict) := by
      rw [process_eq]
      dsimp only
      rw [List.map_append, Verdict.strictest_append, strictest_recorded]
      rw [anyThrew_recordedVisits]
      exact harmless
    constructor
    · intro _
      rw [← or_assoc]
      exact Or.inl harmless
    · intro _
      exact ⟨fun closed threw => absurd ⟨closed, threw⟩ exposed, follows⟩

/-- A rule that lost its value: evaluating it throws. -/
def brokenRule (decisionTypeId : Option String) : PolicyStageRule where
  rule := .valueless
  ruleId := "broken"
  decisionTypeId := decisionTypeId

/-- On both paths the only rule throws, its result is `Block`, and the verdict
of the fail-closed stage is `Pass`. -/
theorem failClosed_exception_passes :
    ∃ context : PolicyContext, ∃ clock : Clock,
      ∃ legacy multi : PolicyStageConfig, ∃ registry : DecisionTypeRegistry,
        legacy.failureMode = .failClosed ∧ multi.failureMode = .failClosed ∧
        visits context legacy.rules clock = [(brokenRule none, none)] ∧
        visits context multi.rules clock =
          [(brokenRule (some "notify"), none)] ∧
        activeRegistry (some registry) multi.rules = some registry ∧
        (process none legacy context clock 0).verdict = .pass ∧
        (process (some registry) multi context clock 0).verdict = .pass ∧
        (process none legacy context clock 0).evaluatorResults.map
          EvaluatorResult.verdict = [.block] ∧
        (process (some registry) multi context clock 0).evaluatorResults.map
          EvaluatorResult.verdict = [.block] :=
  ⟨plainContext, Stream'.const 0, { rules := [brokenRule none] },
    { rules := [brokenRule (some "notify")] },
    { types := [{ id := "notify" }] }, rfl, rfl, rfl, rfl, rfl, by decide,
    by decide, by decide, by decide⟩

end PolicyStage
end Stage
end Fre
