import Fre.Stage.EvalStage
import Mathlib.Data.List.Forall2
import Mathlib.Order.Bounds.Basic

/-!
# The composition of verdicts

What a composition rule reads of a list of results is its strictest verdict,
the number of its `Block` verdicts and its length.  None of them depends on the
order of the results, the first two grow with the verdicts, and the rules are
ranked by them.
-/

namespace Fre

namespace Verdict

/-- The strictest verdict is the least one that no verdict of the list
exceeds. -/
theorem strictest_le_iff (verdicts : List Verdict) (bound : Verdict) :
    strictest verdicts ≤ bound ↔ ∀ verdict ∈ verdicts, verdict ≤ bound := by
  induction verdicts with
  | nil => simp [pass_le]
  | cons verdict rest inductionHypothesis =>
      rw [strictest_cons, maxVerdict_eq_max, max_le_iff, inductionHypothesis,
        List.forall_mem_cons]

theorem le_flag_of_ne_block
    {verdict : Verdict}
    (notBlock : verdict ≠ .block) :
    verdict ≤ .flag := by
  cases verdict with
  | pass => decide
  | flag => decide
  | block => exact absurd rfl notBlock

theorem eq_block_of_le
    {verdict : Verdict}
    (blockLe : Verdict.block ≤ verdict) :
    verdict = .block := by
  by_contra notBlock
  exact absurd (blockLe.trans (le_flag_of_ne_block notBlock)) (by decide)

theorem le_strictest
    {verdicts : List Verdict}
    {verdict : Verdict}
    (member : verdict ∈ verdicts) :
    verdict ≤ strictest verdicts :=
  (strictest_le_iff verdicts _).mp le_rfl verdict member

/-- The strictest verdict of a list that is not empty occurs in it. -/
theorem strictest_mem
    {verdicts : List Verdict}
    (nonempty : verdicts ≠ []) :
    strictest verdicts ∈ verdicts := by
  induction verdicts with
  | nil => exact absurd rfl nonempty
  | cons verdict rest inductionHypothesis =>
      rw [strictest_cons, maxVerdict_eq_max]
      rcases max_choice verdict (strictest rest) with own | later
      · rw [own]
        exact List.mem_cons_self
      · rw [later]
        cases rest with
        | nil =>
            rw [strictest_nil] at later ⊢
            rw [← later, max_eq_left (pass_le verdict)]
            exact List.mem_cons_self
        | cons next rest =>
            exact List.mem_cons_of_mem verdict
              (inductionHypothesis (List.cons_ne_nil next rest))

theorem strictest_perm
    {first second : List Verdict}
    (permuted : first.Perm second) :
    strictest first = strictest second := by
  apply le_antisymm
  · rw [strictest_le_iff]
    exact fun verdict member => le_strictest (permuted.mem_iff.mp member)
  · rw [strictest_le_iff]
    exact fun verdict member => le_strictest (permuted.mem_iff.mpr member)

/-- `Block` under a condition, and `Pass` otherwise. -/
def blockIf (condition : Prop) [Decidable condition] : Verdict :=
  if condition then .block else .pass

theorem blockIf_le_of_imp
    {condition other : Prop}
    [Decidable condition]
    [Decidable other]
    (implies : condition → other) :
    blockIf condition ≤ blockIf other := by
  unfold blockIf
  split
  next holds => rw [if_pos (implies holds)]
  next => exact pass_le _

end Verdict

namespace Stage
namespace EvalStage

open Verdict

/-- Number of the results with verdict `Block`. -/
def blockCount (results : List EvaluatorResult) : Nat :=
  results.countP fun result => result.verdict == .block

/-- The verdict of a rule, by what it reads of the results: the strictest
verdict, the number of `Block` verdicts and the number of results. -/
def composed (rule : CompositionRule) (strictest : Verdict)
    (blocks count : Nat) : Verdict :=
  match rule with
  | .anyBlock => strictest
  | .anyFlag => strictest
  | .unanimous => blockIf (0 < count ∧ blocks = count)
  | .majority => blockIf (count < blocks * 2)
  | .weightedScore => .pass

/-- The two searches of `AnyBlock` find the strictest verdict. -/
theorem anyBlock_eq_strictest (results : List EvaluatorResult) :
    (if results.any fun result => result.verdict == .block then Verdict.block
      else if results.any fun result => result.verdict == .flag then .flag
      else .pass) =
      strictest (results.map EvaluatorResult.verdict) := by
  split
  next found =>
    symm
    rw [strictest_eq_block_iff]
    simpa using found
  next noBlock =>
    simp only [List.any_eq_true, beq_iff_eq, not_exists, not_and] at noBlock
    split
    next found =>
      simp only [List.any_eq_true, beq_iff_eq] at found
      apply le_antisymm
      · exact le_strictest (List.mem_map.mpr found)
      · rw [strictest_le_iff, List.forall_mem_map]
        exact fun result member => le_flag_of_ne_block (noBlock result member)
    next noFlag =>
      simp only [List.any_eq_true, beq_iff_eq, not_exists, not_and] at noFlag
      apply le_antisymm
      · exact pass_le _
      · rw [strictest_le_iff, List.forall_mem_map]
        intro result member
        have notBlock := noBlock result member
        have notFlag := noFlag result member
        cases verdict : result.verdict with
        | pass => exact le_rfl
        | flag => exact absurd verdict notFlag
        | block => exact absurd verdict notBlock

/-- A composition reads its list in these three ways only. -/
theorem compose_eq_composed
    (config : EvalStageConfig)
    (results : List EvaluatorResult) :
    compose config results =
      composed config.composition
        (strictest (results.map EvaluatorResult.verdict))
        (blockCount results) results.length := by
  unfold compose composed
  cases results with
  | nil => cases config.composition <;> rfl
  | cons result rest =>
      rw [if_neg (by simp)]
      cases config.composition with
      | anyBlock => exact anyBlock_eq_strictest (result :: rest)
      | anyFlag => rfl
      | unanimous =>
          have unanimous : blockCount (result :: rest) = rest.length + 1 ↔
              ((result :: rest).all fun result => result.verdict == .block) =
                true := by
            rw [blockCount, ← List.length_cons, List.countP_eq_length,
              List.all_eq_true]
          simp only [blockIf, List.length_cons, unanimous, Nat.succ_pos,
            true_and]
      | majority => rfl
      | weightedScore => rfl

theorem blockCount_le_length (results : List EvaluatorResult) :
    blockCount results ≤ results.length :=
  List.countP_le_length

/-! ### Order and strictness -/

theorem compose_perm
    (config : EvalStageConfig)
    {first second : List EvaluatorResult}
    (permuted : first.Perm second) :
    compose config first = compose config second := by
  rw [compose_eq_composed, compose_eq_composed,
    strictest_perm (permuted.map EvaluatorResult.verdict), blockCount,
    permuted.countP_eq, ← blockCount, permuted.length_eq]

/-- The verdict of a rule grows with what it reads. -/
theorem composed_mono
    (rule : CompositionRule)
    {weaker stricter : Verdict}
    {fewer more count : Nat}
    (strictestLe : weaker ≤ stricter)
    (blocksLe : fewer ≤ more)
    (moreLe : more ≤ count) :
    composed rule weaker fewer count ≤ composed rule stricter more count := by
  cases rule with
  | anyBlock => exact strictestLe
  | anyFlag => exact strictestLe
  | unanimous =>
      refine blockIf_le_of_imp ?_
      rintro ⟨positive, all⟩
      exact ⟨positive, by omega⟩
  | majority =>
      refine blockIf_le_of_imp fun most => ?_
      omega
  | weightedScore => exact le_rfl

/-- Each result of the second list is at least as strict as the one in its
place. -/
abbrev AtLeastAsStrict : List EvaluatorResult → List EvaluatorResult → Prop :=
  List.Forall₂ fun result stricter => result.verdict ≤ stricter.verdict

theorem AtLeastAsStrict.strictest_le
    {results stricter : List EvaluatorResult}
    (atLeast : AtLeastAsStrict results stricter) :
    strictest (results.map EvaluatorResult.verdict) ≤
      strictest (stricter.map EvaluatorResult.verdict) := by
  induction atLeast with
  | nil => exact le_rfl
  | cons own rest inductionHypothesis =>
      simp only [List.map_cons, strictest_cons, maxVerdict_eq_max]
      exact max_le_max own inductionHypothesis

theorem AtLeastAsStrict.blockCount_le
    {results stricter : List EvaluatorResult}
    (atLeast : AtLeastAsStrict results stricter) :
    blockCount results ≤ blockCount stricter := by
  unfold blockCount
  induction atLeast with
  | nil => exact Nat.le_refl 0
  | @cons result strict rest stricts own _ inductionHypothesis =>
      have blocked : result.verdict = .block → strict.verdict = .block :=
        fun isBlock => eq_block_of_le (isBlock ▸ own)
      simp only [List.countP_cons, beq_iff_eq]
      split
      next isBlock =>
        rw [if_pos (blocked isBlock)]
        omega
      next => omega

theorem compose_mono
    (config : EvalStageConfig)
    {results stricter : List EvaluatorResult}
    (atLeast : AtLeastAsStrict results stricter) :
    compose config results ≤ compose config stricter := by
  rw [compose_eq_composed, compose_eq_composed, atLeast.length_eq]
  exact composed_mono config.composition atLeast.strictest_le
    atLeast.blockCount_le (blockCount_le_length stricter)

/-- Replacing one verdict by a stricter one. -/
theorem atLeastAsStrict_replace
    (before after : List EvaluatorResult)
    {result : EvaluatorResult}
    {verdict : Verdict}
    (stricter : result.verdict ≤ verdict) :
    AtLeastAsStrict (before ++ result :: after)
      (before ++ { result with verdict := verdict } :: after) := by
  induction before with
  | nil => exact .cons stricter (List.forall₂_same.mpr fun _ _ => le_rfl)
  | cons first before inductionHypothesis =>
      exact .cons le_rfl inductionHypothesis

/-! ### The ranking of the rules -/

theorem composed_ranked
    {strictest : Verdict}
    {blocks count : Nat}
    (positive : 0 < count)
    (strictestOfBlock : 0 < blocks → strictest = .block) :
    composed .unanimous strictest blocks count ≤
        composed .majority strictest blocks count ∧
      composed .majority strictest blocks count ≤
        composed .anyBlock strictest blocks count := by
  constructor
  · refine blockIf_le_of_imp ?_
    rintro ⟨-, all⟩
    omega
  · change blockIf (count < blocks * 2) ≤ strictest
    unfold blockIf
    split
    next most =>
      rw [strictestOfBlock (by omega)]
    next => exact pass_le strictest

theorem strictest_of_blockCount
    {results : List EvaluatorResult}
    (blocks : 0 < blockCount results) :
    strictest (results.map EvaluatorResult.verdict) = .block := by
  obtain ⟨result, member, isBlock⟩ := List.countP_pos_iff.mp blocks
  rw [strictest_eq_block_iff, List.mem_map]
  exact ⟨result, member, eq_of_beq isBlock⟩

/-- Verdict composition is order-free, monotone and ranked.  A permutation of
the results changes nothing; a stricter verdict in one place never makes the
composed one less strict; `AnyBlock` and `AnyFlag` both give the maximum; and
`Unanimous` is at most `Majority`, which is at most `AnyBlock`. -/
theorem composition_order_free_monotone_ranked
    (config : EvalStageConfig)
    (results : List EvaluatorResult) :
    (∀ permuted, results.Perm permuted →
      compose config permuted = compose config results) ∧
    (∀ before result after verdict,
      results = before ++ result :: after → result.verdict ≤ verdict →
      compose config results ≤
        compose config
          (before ++ { result with verdict := verdict } :: after)) ∧
    compose { config with composition := .anyBlock } results =
      compose { config with composition := .anyFlag } results ∧
    (results = [] →
      compose { config with composition := .anyBlock } results = .pass) ∧
    (results ≠ [] →
      IsGreatest {verdict | ∃ result ∈ results, result.verdict = verdict}
          (compose { config with composition := .anyBlock } results) ∧
        compose { config with composition := .unanimous } results ≤
          compose { config with composition := .majority } results ∧
        compose { config with composition := .majority } results ≤
          compose { config with composition := .anyBlock } results) := by
  refine ⟨?_, ?_, ?_, ?_, ?_⟩
  · exact fun permuted isPerm => (compose_perm config isPerm).symm
  · rintro before result after verdict rfl stricter
    exact compose_mono config (atLeastAsStrict_replace before after stricter)
  · rw [compose_eq_composed, compose_eq_composed]
    rfl
  · rintro rfl
    rfl
  · intro nonempty
    simp only [compose_eq_composed]
    refine ⟨⟨?_, ?_⟩, ?_⟩
    · have attained := strictest_mem
        (List.map_eq_nil_iff.not.mpr nonempty :
          results.map EvaluatorResult.verdict ≠ [])
      exact List.mem_map.mp attained
    · rintro verdict ⟨result, member, rfl⟩
      exact le_strictest (List.mem_map_of_mem member)
    · exact composed_ranked (List.length_pos_iff.mpr nonempty)
        strictest_of_blockCount

end EvalStage
end Stage
end Fre
