import Mathlib.Data.Fintype.Card
import Mathlib.Data.Set.Finite.Basic
import Mathlib.Logic.Relation
import Mathlib.Order.WellFounded

/-!
# Undominated candidates

A candidate survives when no candidate defeats it.  Among finitely many
candidates every one that lies below no cycle of defeats has a survivor above
it, so some candidate survives exactly when some lies below no cycle.  When
nobody is defeated by a candidate of higher rank, a cycle stays within one rank.
-/

namespace Foundation
namespace Undominated

open Relation

variable {α : Type}

/-- Defeat between two candidates. -/
def Within (candidates : Set α) (defeats : α → α → Prop) (winner loser : α) :
    Prop :=
  winner ∈ candidates ∧ loser ∈ candidates ∧ defeats winner loser

/-- A candidate that no candidate defeats. -/
def Survives (candidates : Set α) (defeats : α → α → Prop) (candidate : α) :
    Prop :=
  candidate ∈ candidates ∧ ∀ winner ∈ candidates, ¬ defeats winner candidate

/-- The candidate lies below a cycle of defeats, or on one. -/
def BelowCycle (candidates : Set α) (defeats : α → α → Prop) (candidate : α) :
    Prop :=
  ∃ onCycle, TransGen (Within candidates defeats) onCycle onCycle ∧
    ReflTransGen (Within candidates defeats) onCycle candidate

/-- Nothing stands above a candidate that survives. -/
theorem Survives.not_belowCycle
    {candidates : Set α}
    {defeats : α → α → Prop}
    {candidate : α}
    (survives : Survives candidates defeats candidate) :
    ¬ BelowCycle candidates defeats candidate := by
  rintro ⟨onCycle, cycle, below⟩
  obtain ⟨winner, -, last⟩ := TransGen.tail'_iff.mp (cycle.trans_left below)
  exact survives.2 winner last.1 last.2.2

/-- A candidate that lies below no cycle has a surviving candidate among its
ancestors. -/
theorem exists_survives_above
    {candidates : Set α}
    {defeats : α → α → Prop}
    {candidate : α}
    (finite : candidates.Finite)
    (member : candidate ∈ candidates)
    (clear : ¬ BelowCycle candidates defeats candidate) :
    ∃ survivor, Survives candidates defeats survivor ∧
      ReflTransGen (Within candidates defeats) survivor candidate := by
  let Ancestor := { above : α // above ∈ candidates ∧
    ReflTransGen (Within candidates defeats) above candidate }
  have finiteAncestors : Finite Ancestor :=
    (finite.subset fun _ ancestor => ancestor.1).to_subtype
  let higher : Ancestor → Ancestor → Prop := fun left right =>
    TransGen (Within candidates defeats) left.1 right.1
  have transitive : IsTrans Ancestor higher := ⟨fun _ _ _ => TransGen.trans⟩
  have irreflexive : Std.Irrefl higher :=
    ⟨fun ancestor cycle => clear ⟨ancestor.1, cycle, ancestor.2.2⟩⟩
  have wellFounded : WellFounded higher :=
    Finite.wellFounded_of_trans_of_irrefl higher
  obtain ⟨top, -, minimal⟩ := wellFounded.has_min Set.univ
    ⟨⟨candidate, member, ReflTransGen.refl⟩, trivial⟩
  refine ⟨top.1, ⟨top.2.1, ?_⟩, top.2.2⟩
  intro winner winnerMember wins
  have edge : Within candidates defeats winner top.1 :=
    ⟨winnerMember, top.2.1, wins⟩
  exact minimal ⟨winner, winnerMember, ReflTransGen.head edge top.2.2⟩ trivial
    (TransGen.single edge)

/-- Some candidate survives exactly when some candidate lies below no cycle. -/
theorem exists_survives_iff
    {candidates : Set α}
    (finite : candidates.Finite)
    (defeats : α → α → Prop) :
    (∃ candidate, Survives candidates defeats candidate) ↔
      ∃ candidate ∈ candidates, ¬ BelowCycle candidates defeats candidate := by
  constructor
  · rintro ⟨candidate, survives⟩
    exact ⟨candidate, survives.1, survives.not_belowCycle⟩
  · rintro ⟨candidate, member, clear⟩
    obtain ⟨survivor, survives, -⟩ := exists_survives_above finite member clear
    exact ⟨survivor, survives⟩

section Rank

variable {relation : α → α → Prop} {rank : α → Nat}

/-- Ranks do not fall along a chain. -/
theorem rank_le_of_transGen
    (monotone : ∀ left right, relation left right → rank left ≤ rank right)
    {first last : α}
    (chain : TransGen relation first last) :
    rank first ≤ rank last := by
  induction chain with
  | single edge => exact monotone _ _ edge
  | tail _ edge inductionHypothesis =>
      exact inductionHypothesis.trans (monotone _ _ edge)

/-- A chain that ends no higher than it began keeps its rank all along. -/
theorem transGen_tied
    (monotone : ∀ left right, relation left right → rank left ≤ rank right)
    {first last : α}
    (chain : TransGen relation first last)
    (level : rank last ≤ rank first) :
    TransGen (fun left right => relation left right ∧ rank left = rank right)
      first last := by
  induction chain with
  | single edge => exact .single ⟨edge, (monotone _ _ edge).antisymm level⟩
  | tail chain edge inductionHypothesis =>
      have before := rank_le_of_transGen monotone chain
      have after := monotone _ _ edge
      exact .tail (inductionHypothesis (after.trans level))
        ⟨edge, after.antisymm (level.trans before)⟩

/-- A cycle stays within one rank. -/
theorem cycle_iff_tied
    (rank : α → Nat)
    (monotone : ∀ left right, relation left right → rank left ≤ rank right)
    (onCycle : α) :
    TransGen relation onCycle onCycle ↔
      TransGen (fun left right => relation left right ∧ rank left = rank right)
        onCycle onCycle :=
  ⟨fun cycle => transGen_tied monotone cycle le_rfl,
    fun cycle => TransGen.mono (fun _ _ edge => edge.1) _ _ cycle⟩

end Rank
end Undominated
end Foundation
