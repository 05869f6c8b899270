import Mathlib.Algebra.BigOperators.Group.List.Basic
import Mathlib.Data.List.AList

/-!
# Batches of writes to a table

A table is an association list with distinct keys.  A batch inserts its entries
one after the other, or erases its keys one after the other; the lemmas say
what is found under a key afterwards.  A sum over the entries of a table splits
by the entry of one key, and by a test on the keys.
-/

namespace Foundation
namespace Table

variable {κ ν μ : Type} [AddCommMonoid μ]

/-- The entries whose keys pass a test. -/
def filterKeys
    (table : AList fun _ : κ => ν)
    (keep : κ → Bool) : AList fun _ : κ => ν where
  entries := table.entries.filter fun entry => keep entry.1
  nodupKeys := table.nodupKeys.sublist List.filter_sublist

/-- The entries that pass the test and those that do not. -/
theorem sum_filterKeys_add_sum_filterKeys_not
    (table : AList fun _ : κ => ν)
    (keep : κ → Bool)
    (weight : (_ : κ) × ν → μ) :
    ((filterKeys table keep).entries.map weight).sum +
        ((filterKeys table fun key => !keep key).entries.map weight).sum =
      (table.entries.map weight).sum := by
  have split := List.filter_append_perm (fun entry => keep entry.1)
    table.entries
  rw [← List.sum_append, ← List.map_append]
  exact (split.map weight).sum_eq

variable [DecidableEq κ]

/-- An entry whose key passes the test is kept. -/
theorem lookup_filterKeys
    (table : AList fun _ : κ => ν)
    (keep : κ → Bool)
    (key : κ) :
    (filterKeys table keep).lookup key =
      if keep key then table.lookup key else none := by
  apply Option.ext
  intro value
  change value ∈ (filterKeys table keep).lookup key ↔ _
  rw [AList.mem_lookup_iff]
  change ⟨key, value⟩ ∈ table.entries.filter _ ↔ _
  rw [List.mem_filter, ← AList.mem_lookup_iff]
  by_cases kept : keep key = true
  · simp [kept]
  · simp [kept]

/-- Insert the entries of a batch in order. -/
def insertAll
    (table : AList fun _ : κ => ν)
    (batch : List (κ × ν)) : AList fun _ : κ => ν :=
  batch.foldl (fun table entry => table.insert entry.1 entry.2) table

/-- Erase the keys of a batch in order. -/
def eraseAll
    (table : AList fun _ : κ => ν)
    (batch : List κ) : AList fun _ : κ => ν :=
  batch.foldl (fun table key => table.erase key) table

/-- A key outside the batch keeps its entry. -/
theorem lookup_insertAll_of_not_mem
    (table : AList fun _ : κ => ν)
    {batch : List (κ × ν)}
    {key : κ}
    (absent : key ∉ batch.map Prod.fst) :
    (insertAll table batch).lookup key = table.lookup key := by
  induction batch generalizing table with
  | nil => rfl
  | cons entry rest inductionHypothesis =>
      simp only [List.map_cons, List.mem_cons, not_or] at absent
      have later := inductionHypothesis (table.insert entry.1 entry.2) absent.2
      rw [AList.lookup_insert_ne absent.1] at later
      exact later

/-- A batch with distinct keys leaves its values in the table. -/
theorem lookup_insertAll_of_mem
    (table : AList fun _ : κ => ν)
    {batch : List (κ × ν)}
    (distinct : (batch.map Prod.fst).Nodup)
    {key : κ}
    {value : ν}
    (member : (key, value) ∈ batch) :
    (insertAll table batch).lookup key = some value := by
  induction batch generalizing table with
  | nil => exact absurd member List.not_mem_nil
  | cons entry rest inductionHypothesis =>
      rw [List.map_cons, List.nodup_cons] at distinct
      rcases List.mem_cons.1 member with rfl | later
      · have kept := lookup_insertAll_of_not_mem (table.insert key value)
          distinct.1
        rw [AList.lookup_insert] at kept
        exact kept
      · exact inductionHypothesis (table.insert entry.1 entry.2) distinct.2
          later

/-- A batch of erasures removes exactly its keys. -/
theorem lookup_eraseAll
    (table : AList fun _ : κ => ν)
    (batch : List κ)
    (key : κ) :
    (eraseAll table batch).lookup key =
      if key ∈ batch then none else table.lookup key := by
  induction batch generalizing table with
  | nil => rfl
  | cons first rest inductionHypothesis =>
      have later := inductionHypothesis (table.erase first)
      by_cases same : key = first
      · subst same
        rw [AList.lookup_erase, ite_self] at later
        rw [if_pos List.mem_cons_self]
        exact later
      · rw [AList.lookup_erase_ne same] at later
        simp only [List.mem_cons, same, false_or]
        exact later

/-- The keys after a batch are those before it and those of the batch. -/
theorem mem_insertAll
    {table : AList fun _ : κ => ν}
    {batch : List (κ × ν)}
    {key : κ} :
    key ∈ insertAll table batch ↔ key ∈ table ∨ key ∈ batch.map Prod.fst := by
  induction batch generalizing table with
  | nil => simp [insertAll]
  | cons entry rest inductionHypothesis =>
      rw [insertAll, List.foldl_cons, ← insertAll, inductionHypothesis,
        AList.mem_insert, List.map_cons, List.mem_cons, or_assoc,
        or_left_comm]

/-- The entry of one key and the others. -/
theorem sum_entries_erase
    {β : κ → Type}
    (table : AList β)
    (key : κ)
    (weight : Sigma β → μ) :
    ((table.lookup key).elim 0 fun value => weight ⟨key, value⟩) +
        ((table.erase key).entries.map weight).sum =
      (table.entries.map weight).sum := by
  change ((table.entries.dlookup key).elim 0 fun value => weight ⟨key, value⟩) +
    ((table.entries.kerase key).map weight).sum = _
  induction table.entries with
  | nil => exact zero_add _
  | cons entry rest inductionHypothesis =>
      by_cases same : key = entry.1
      · obtain ⟨_, value⟩ := entry
        obtain rfl : key = _ := same
        have erased : List.kerase key (⟨key, value⟩ :: rest) = rest :=
          List.kerase_cons_eq rfl
        rw [List.dlookup_cons_eq, erased, Option.elim_some, List.map_cons,
          List.sum_cons]
      · rw [List.dlookup_cons_ne rest entry same, List.kerase_cons_ne same,
          List.map_cons, List.map_cons, List.sum_cons, List.sum_cons,
          add_left_comm, inductionHypothesis]

end Table
end Foundation
