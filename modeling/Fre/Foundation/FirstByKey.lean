import Mathlib.Data.List.Basic
import Mathlib.Data.List.Induction

/-!
# First occurrences by key

A pass over a list that keeps a value when no kept value has its key.  It keeps
exactly the values that come first among those with their key.
-/

namespace Foundation
namespace FirstByKey

variable {α κ : Type} [DecidableEq κ]

/-- One round: keep the value unless its key is taken. -/
def keep (key : α → κ) (kept : List α) (value : α) : List α :=
  if kept.any fun existing => key existing == key value then kept
  else kept ++ [value]

/-- The pass over the list. -/
def firstByKey (key : α → κ) (values : List α) : List α :=
  values.foldl (keep key) []

theorem firstByKey_append_singleton
    (key : α → κ)
    (values : List α)
    (value : α) :
    firstByKey key (values ++ [value]) =
      keep key (firstByKey key values) value := by
  simp [firstByKey, List.foldl_append]

theorem mem_keep
    (key : α → κ)
    (kept : List α)
    (value other : α) :
    other ∈ keep key kept value ↔
      other ∈ kept ∨ (other = value ∧ ∀ existing ∈ kept,
        key existing ≠ key value) := by
  unfold keep
  split
  next taken =>
    obtain ⟨existing, member, same⟩ := List.any_eq_true.mp taken
    constructor
    · exact Or.inl
    · rintro (member | ⟨-, free⟩)
      · exact member
      · exact absurd (beq_iff_eq.mp same) (free existing member)
  next free =>
    have allFree : ∀ existing ∈ kept, key existing ≠ key value := by
      simpa using free
    rw [List.mem_append, List.mem_singleton, and_iff_left allFree]

/-- A value is kept exactly when it is the first with its key. -/
theorem mem_firstByKey
    (key : α → κ)
    (values : List α)
    (value : α) :
    value ∈ firstByKey key values ↔
      values.find? (fun other => key other == key value) = some value := by
  induction values using List.reverseRecOn generalizing value with
  | nil => simp [firstByKey]
  | append_singleton values last inductionHypothesis =>
      rw [firstByKey_append_singleton, mem_keep, inductionHypothesis,
        List.find?_append]
      cases found : values.find? (fun other => key other == key value) with
      | some first =>
          have sameKey : key first = key value := by
            simpa using List.find?_some found
          have firstKept : first ∈ firstByKey key values := by
            rw [inductionHypothesis, sameKey]
            exact found
          simp only [Option.some_or, Option.some_inj]
          constructor
          · rintro (same | ⟨rfl, free⟩)
            · exact same
            · exact absurd sameKey (free first firstKept)
          · exact Or.inl
      | none =>
          have absent : ∀ other ∈ values, key other ≠ key value := by
            simpa using found
          simp only [reduceCtorEq, false_or, Option.none_or]
          constructor
          · rintro ⟨rfl, -⟩
            simp
          · intro isLast
            have same : value = last := by
              simpa using (List.mem_of_find?_eq_some isLast)
            subst same
            refine ⟨rfl, fun existing member => ?_⟩
            rw [inductionHypothesis] at member
            exact absent existing (List.mem_of_find?_eq_some member)

theorem nodup_map_key
    (key : α → κ)
    (values : List α) :
    ((firstByKey key values).map key).Nodup := by
  induction values using List.reverseRecOn with
  | nil => simp [firstByKey]
  | append_singleton values last inductionHypothesis =>
      rw [firstByKey_append_singleton]
      unfold keep
      split
      next => exact inductionHypothesis
      next free =>
        rw [List.map_append, List.nodup_append]
        refine ⟨inductionHypothesis, by simp, ?_⟩
        simpa using free

/-- The pass keeps every key. -/
theorem exists_mem_firstByKey_iff
    (key : α → κ)
    (values : List α)
    (value : κ) :
    (∃ kept ∈ firstByKey key values, key kept = value) ↔
      ∃ other ∈ values, key other = value := by
  constructor
  · rintro ⟨kept, member, sameKey⟩
    rw [mem_firstByKey] at member
    exact ⟨kept, List.mem_of_find?_eq_some member, sameKey⟩
  · rintro ⟨other, member, rfl⟩
    have found : (values.find? fun candidate => key candidate == key other).isSome := by
      rw [List.find?_isSome]
      exact ⟨other, member, by simp⟩
    obtain ⟨first, foundFirst⟩ := Option.isSome_iff_exists.mp found
    have sameKey : key first = key other := by
      simpa using List.find?_some foundFirst
    refine ⟨first, ?_, sameKey⟩
    rw [mem_firstByKey, sameKey]
    exact foundFirst

/-- The first value that passes stays a good one when another test takes all
good values that passed, and no other value that did not. -/
theorem exists_good_find?
    {values : List α}
    {before after good : α → Bool}
    (keeps : ∀ value ∈ values, good value = true → before value = true →
      after value = true)
    (adds : ∀ value ∈ values, good value = false → after value = true →
      before value = true)
    {first : α}
    (found : values.find? before = some first)
    (isGood : good first = true) :
    ∃ other, values.find? after = some other ∧ good other = true := by
  induction values with
  | nil => exact absurd found (by simp)
  | cons value rest inductionHypothesis =>
      rw [List.forall_mem_cons] at keeps adds
      cases passes : before value with
      | true =>
          rw [List.find?_cons_of_pos passes, Option.some_inj] at found
          subst found
          exact ⟨value, List.find?_cons_of_pos (keeps.1 isGood passes), isGood⟩
      | false =>
          rw [List.find?_cons_of_neg (by simp [passes])] at found
          cases now : after value with
          | true =>
              refine ⟨value, List.find?_cons_of_pos now, ?_⟩
              by_contra other
              rw [adds.1 (eq_false_of_ne_true other) now] at passes
              exact absurd passes (by simp)
          | false =>
              rw [List.find?_cons_of_neg (by simp [now])]
              exact inductionHypothesis keeps.2 adds.2 found

end FirstByKey
end Foundation
