import Mathlib.Data.Finset.Card
import Mathlib.Data.Finset.Image

/-!
# Collecting the distinct values of a sequence

A common loop walks an infinite sequence of candidates and keeps each value
the first time it appears, until enough values have been kept.  `scan` is the
list kept after a number of candidates and `collect` is the loop itself, with
a fuel argument because nothing bounds the number of candidates it may look
at.  The loop returns exactly when the sequence has enough distinct values.
-/

namespace Foundation
namespace DistinctScan

variable {α : Type} [DecidableEq α]

/-- Append a value unless the list already has it. -/
def pushNew (kept : List α) (value : α) : List α :=
  if value ∈ kept then kept else kept ++ [value]

theorem mem_pushNew (kept : List α) (value other : α) :
    other ∈ pushNew kept value ↔ other ∈ kept ∨ other = value := by
  unfold pushNew
  split
  · next present =>
      constructor
      · exact Or.inl
      · rintro (old | rfl)
        · exact old
        · exact present
  · simp

theorem nodup_pushNew
    {kept : List α}
    (nodup : kept.Nodup)
    (value : α) :
    (pushNew kept value).Nodup := by
  unfold pushNew
  split
  · exact nodup
  · next absent =>
      rw [List.nodup_append]
      refine ⟨nodup, List.nodup_singleton value, ?_⟩
      intro old oldMember new newMember equal
      rw [List.mem_singleton] at newMember
      exact absent (newMember ▸ equal ▸ oldMember)

theorem length_pushNew_le (kept : List α) (value : α) :
    (pushNew kept value).length ≤ kept.length + 1 := by
  unfold pushNew
  split <;> simp

theorem prefix_pushNew (kept : List α) (value : α) :
    kept <+: pushNew kept value := by
  unfold pushNew
  split
  · exact List.prefix_rfl
  · exact List.prefix_append kept [value]

/-- An injective renaming of the values keeps what is new. -/
theorem pushNew_map
    {β : Type}
    [DecidableEq β]
    {rename : α → β}
    (injective : Function.Injective rename)
    (kept : List α)
    (value : α) :
    pushNew (kept.map rename) (rename value) =
      (pushNew kept value).map rename := by
  unfold pushNew
  simp only [List.mem_map_of_injective injective]
  split
  · rfl
  · rw [List.map_append, List.map_singleton]

/-- Values kept after the first `count` candidates, in order of appearance. -/
def scan (candidate : Nat → α) : Nat → List α
  | 0 => []
  | count + 1 => pushNew (scan candidate count) (candidate count)

@[simp] theorem scan_zero (candidate : Nat → α) : scan candidate 0 = [] := rfl

theorem scan_succ (candidate : Nat → α) (count : Nat) :
    scan candidate (count + 1) =
      pushNew (scan candidate count) (candidate count) := rfl

theorem nodup_scan (candidate : Nat → α) (count : Nat) :
    (scan candidate count).Nodup := by
  induction count with
  | zero => exact List.nodup_nil
  | succ count inductionHypothesis =>
      exact nodup_pushNew inductionHypothesis (candidate count)

/-- The kept values are exactly the candidates seen so far. -/
theorem toFinset_scan (candidate : Nat → α) (count : Nat) :
    (scan candidate count).toFinset = (Finset.range count).image candidate := by
  induction count with
  | zero => rfl
  | succ count inductionHypothesis =>
      ext value
      rw [Finset.range_add_one, Finset.image_insert, ← inductionHypothesis,
        List.mem_toFinset, scan_succ, mem_pushNew, Finset.mem_insert,
        List.mem_toFinset]
      exact or_comm

theorem mem_scan (candidate : Nat → α) (count : Nat) (value : α) :
    value ∈ scan candidate count ↔ ∃ index < count, candidate index = value := by
  rw [← List.mem_toFinset, toFinset_scan]
  simp

theorem length_scan (candidate : Nat → α) (count : Nat) :
    (scan candidate count).length =
      ((Finset.range count).image candidate).card := by
  rw [← toFinset_scan, List.toFinset_card_of_nodup (nodup_scan candidate count)]

/-- What is kept stays in front. -/
theorem scan_prefix_scan
    (candidate : Nat → α)
    {early late : Nat}
    (ordered : early ≤ late) :
    scan candidate early <+: scan candidate late := by
  induction late, ordered using Nat.le_induction with
  | base => exact List.prefix_rfl
  | succ late _ inductionHypothesis =>
      rw [scan_succ]
      exact inductionHypothesis.trans (prefix_pushNew _ _)

/-- Two scans are the beginnings of one list. -/
theorem scan_eq_take
    (candidate : Nat → α)
    (fewer more : Nat)
    (shorter : (scan candidate fewer).length ≤ (scan candidate more).length) :
    scan candidate fewer =
      (scan candidate more).take (scan candidate fewer).length := by
  rcases Nat.le_total fewer more with ordered | ordered
  · exact List.prefix_iff_eq_take.mp (scan_prefix_scan candidate ordered)
  · have whole := (scan_prefix_scan candidate ordered).eq_of_length_le shorter
    rw [whole, List.take_length]

/-- The loop: stop once `want` values are kept, or when `limit` are. -/
def collect
    (candidate : Nat → α)
    (want limit : Nat) : Nat → Nat → List α → Option (List α)
  | fuel, index, kept =>
      if kept.length < want then
        match fuel with
        | 0 => none
        | fuel + 1 =>
            if (pushNew kept (candidate index)).length = limit then
              some (pushNew kept (candidate index))
            else
              collect candidate want limit fuel (index + 1)
                (pushNew kept (candidate index))
      else some kept

section Loop

variable {candidate : Nat → α} {want limit : Nat}

/-- A loop that has not reached its limit returns a scan of the candidates
with as many values as were wanted, or with `limit` values when that is
fewer. -/
theorem collect_eq_some
    {fuel index : Nat}
    {result : List α}
    (below : (scan candidate index).length < limit)
    (atMost : (scan candidate index).length ≤ want)
    (returned : collect candidate want limit fuel index
      (scan candidate index) = some result) :
    result.length = min want limit ∧
      ∃ count, result = scan candidate count := by
  induction fuel generalizing index with
  | zero =>
      unfold collect at returned
      split at returned
      · simp at returned
      · next enough =>
          rw [Option.some.injEq] at returned
          subst result
          exact ⟨by omega, index, rfl⟩
  | succ fuel inductionHypothesis =>
      unfold collect at returned
      split at returned
      · next more =>
          rw [← scan_succ] at returned
          have grown := length_pushNew_le (scan candidate index) (candidate index)
          rw [← scan_succ] at grown
          dsimp only at returned
          split at returned
          · next full =>
              rw [Option.some.injEq] at returned
              subst result
              exact ⟨by omega, index + 1, rfl⟩
          · next notFull =>
              exact inductionHypothesis (by omega) (by omega) returned
      · next enough =>
          rw [Option.some.injEq] at returned
          subst result
          exact ⟨by omega, index, rfl⟩

/-- With enough distinct values among the first `index + fuel` candidates the
loop returns within `fuel` further candidates. -/
theorem collect_isSome
    {fuel index : Nat}
    (below : (scan candidate index).length < limit)
    (enough : min want limit ≤ (scan candidate (index + fuel)).length) :
    (collect candidate want limit fuel index
      (scan candidate index)).isSome := by
  induction fuel generalizing index with
  | zero =>
      unfold collect
      rw [Nat.add_zero] at enough
      rw [if_neg (by omega)]
      rfl
  | succ fuel inductionHypothesis =>
      unfold collect
      split
      · dsimp only
        rw [← scan_succ]
        split
        · rfl
        · next notFull =>
            have grown := length_pushNew_le (scan candidate index)
              (candidate index)
            rw [← scan_succ] at grown
            refine inductionHypothesis (by omega) ?_
            rwa [show index + 1 + fuel = index + (fuel + 1) by omega]
      · rfl

/-- The loop started with nothing kept returns if and only if some number of
candidates contains enough distinct values. -/
theorem exists_collect_iff (positive : 0 < limit) :
    (∃ fuel result, collect candidate want limit fuel 0 [] = some result) ↔
      ∃ count, min want limit ≤ ((Finset.range count).image candidate).card := by
  constructor
  · rintro ⟨fuel, result, returned⟩
    obtain ⟨length, count, rfl⟩ :=
      collect_eq_some (by simpa using positive) (by simp) returned
    exact ⟨count, by rw [← length_scan, length]⟩
  · rintro ⟨count, enough⟩
    rw [← length_scan] at enough
    have returns :
        (collect candidate want limit count 0 (scan candidate 0)).isSome :=
      collect_isSome (by simpa using positive) (by simpa using enough)
    exact ⟨count, Option.isSome_iff_exists.mp returns⟩

/-- A loop that wants less returns whenever one that wants more does, with the
beginning of its result. -/
theorem collect_of_more
    {more : Nat}
    (positive : 0 < limit)
    (atMost : want ≤ more)
    {fuelMore : Nat}
    {longer : List α}
    (returned : collect candidate more limit fuelMore 0 [] = some longer) :
    (∃ fuel result, collect candidate want limit fuel 0 [] = some result) ∧
      ∀ fuel result, collect candidate want limit fuel 0 [] = some result →
        result = longer.take (min want limit) := by
  obtain ⟨longerLength, countMore, rfl⟩ :=
    collect_eq_some (by simpa using positive) (by simp) returned
  constructor
  · rw [exists_collect_iff positive]
    refine ⟨countMore, ?_⟩
    rw [← length_scan, longerLength]
    omega
  · intro fuel result shorterReturned
    obtain ⟨shorterLength, count, rfl⟩ :=
      collect_eq_some (by simpa using positive) (by simp) shorterReturned
    have taken := scan_eq_take candidate count countMore (by omega)
    rwa [shorterLength] at taken

/-- All runs of the loop that return return the same. -/
theorem collect_unique
    (positive : 0 < limit)
    {fuel otherFuel : Nat}
    {result other : List α}
    (returned : collect candidate want limit fuel 0 [] = some result)
    (otherReturned : collect candidate want limit otherFuel 0 [] = some other) :
    result = other := by
  have unique := (collect_of_more positive le_rfl otherReturned).2
  rw [unique fuel result returned, ← unique otherFuel other otherReturned]

/-- The loop over renamed candidates returns the renamed values. -/
theorem collect_map
    {β : Type}
    [DecidableEq β]
    {rename : α → β}
    (injective : Function.Injective rename)
    (fuel index : Nat)
    (kept : List α) :
    collect (fun count => rename (candidate count)) want limit fuel index
        (kept.map rename) =
      (collect candidate want limit fuel index kept).map (List.map rename) := by
  induction fuel generalizing index kept with
  | zero =>
      unfold collect
      rw [List.length_map]
      split
      · rfl
      · rfl
  | succ fuel inductionHypothesis =>
      unfold collect
      dsimp only
      rw [pushNew_map injective, inductionHypothesis, List.length_map,
        List.length_map]
      split
      · split
        · rfl
        · rfl
      · rfl

/-- A periodic sequence shows all its values within one period. -/
theorem image_range_subset_of_periodic
    {period : Nat}
    (periodPositive : 0 < period)
    (periodic : ∀ index, candidate (index % period) = candidate index)
    (count : Nat) :
    (Finset.range count).image candidate ⊆
      (Finset.range period).image candidate := by
  intro value member
  obtain ⟨index, _, rfl⟩ := Finset.mem_image.mp member
  exact Finset.mem_image.mpr
    ⟨index % period, Finset.mem_range.mpr (Nat.mod_lt index periodPositive),
      periodic index⟩

/-- For a periodic sequence the loop returns exactly when one period has
enough distinct values. -/
theorem exists_collect_iff_of_periodic
    {period : Nat}
    (positive : 0 < limit)
    (periodPositive : 0 < period)
    (periodic : ∀ index, candidate (index % period) = candidate index) :
    (∃ fuel result, collect candidate want limit fuel 0 [] = some result) ↔
      min want limit ≤ ((Finset.range period).image candidate).card := by
  rw [exists_collect_iff positive]
  constructor
  · rintro ⟨count, enough⟩
    exact enough.trans (Finset.card_le_card
      (image_range_subset_of_periodic periodPositive periodic count))
  · intro enough
    exact ⟨period, enough⟩

end Loop

end DistinctScan
end Foundation
