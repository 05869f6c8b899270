import Fre.State.ArchivedTotals
import Mathlib.Algebra.BigOperators.Group.Finset.Basic
import Mathlib.Order.Interval.Finset.Nat

/-!
# Where a row is

A row is looked up in the table and in the file of its epoch.  This module has
what `COPY` and `DELETE` do to the two lookups, and the total of a range query
as the sum of what the rows of its epochs contribute.
-/

namespace Fre
namespace State

open Foundation FloatValue

namespace TieredStore

/-- The row in the table. -/
def tableRow (store : TieredStore) (row : RowKey) : Option WindowValue :=
  store.warm.rows.lookup row

/-- The row in the file of its epoch. -/
def archivedRow (store : TieredStore) (row : RowKey) : Option WindowValue :=
  (store.cold.lookup row.key.epoch).bind fun file => file.rows.lookup row

section Statements

variable (store : TieredStore) (epoch : UInt64) (row : RowKey)

@[simp] theorem tableRow_copyEpoch :
    (store.copyEpoch epoch).tableRow row = store.tableRow row := rfl

@[simp] theorem archivedRow_deleteEpoch :
    (store.deleteEpoch epoch).archivedRow row = store.archivedRow row := rfl

/-- `COPY` replaces what the file of its epoch holds. -/
theorem archivedRow_copyEpoch :
    (store.copyEpoch epoch).archivedRow row =
      if row.key.epoch = epoch then store.tableRow row
      else store.archivedRow row := by
  change ((store.cold.insert epoch _).lookup row.key.epoch).bind _ = _
  split
  · next same =>
      subst same
      rw [AList.lookup_insert, Option.bind_some]
      change (Table.filterKeys _ _).lookup row = _
      rw [Table.lookup_filterKeys, if_pos (by simp), tableRow]
  · next different =>
      rw [AList.lookup_insert_ne different]
      rfl

/-- `DELETE` removes the rows of its epoch. -/
theorem tableRow_deleteEpoch :
    (store.deleteEpoch epoch).tableRow row =
      if row.key.epoch = epoch then none else store.tableRow row := by
  change (Table.filterKeys _ _).lookup row = _
  rw [Table.lookup_filterKeys]
  by_cases same : row.key.epoch = epoch
  · simp [same]
  · simp [same, tableRow]

end Statements

/-! ### What a row contributes to a total -/

/-- The contribution of a row, zero if it is missing. -/
def contribution (row : Option WindowValue) : ℚ :=
  row.elim 0 fun value => value.aggregate.toRat

@[simp] theorem contribution_none : contribution none = 0 := rfl

end TieredStore

namespace RangeQuery

/-- The key of an epoch. -/
def keyAt (query : RangeQuery) (epoch : UInt64) : WindowKey where
  tenantId := query.tenantId
  entityId := query.entityId
  windowName := query.windowName
  epoch := epoch

/-- The sum of a function over the epochs of the range. -/
def sumOver (query : RangeQuery) (value : UInt64 → ℚ) : ℚ :=
  ∑ epoch ∈ Finset.Icc query.epochStart.toNat query.epochEnd.toNat,
    value (UInt64.ofNat epoch)

theorem mem_range_iff
    {query : RangeQuery}
    {epoch : UInt64} :
    epoch.toNat ∈ Finset.Icc query.epochStart.toNat query.epochEnd.toNat ↔
      query.epochStart ≤ epoch ∧ epoch ≤ query.epochEnd := by
  rw [Finset.mem_Icc, UInt64.le_iff_toNat_le, UInt64.le_iff_toNat_le]

theorem ofNat_toNat_of_mem
    {query : RangeQuery}
    {epoch : Nat}
    (member : epoch ∈
      Finset.Icc query.epochStart.toNat query.epochEnd.toNat) :
    (UInt64.ofNat epoch).toNat = epoch := by
  have bound := query.epochEnd.toNat_lt
  rw [Finset.mem_Icc] at member
  rw [UInt64.toNat_ofNat']
  exact Nat.mod_eq_of_lt (by omega)

/-- Functions that agree on the epochs of the range have the same sum. -/
theorem sumOver_congr
    {query : RangeQuery}
    {first second : UInt64 → ℚ}
    (agree : ∀ epoch, query.epochStart ≤ epoch → epoch ≤ query.epochEnd →
      first epoch = second epoch) :
    query.sumOver first = query.sumOver second := by
  apply Finset.sum_congr rfl
  intro epoch member
  have range : (UInt64.ofNat epoch).toNat ∈
      Finset.Icc query.epochStart.toNat query.epochEnd.toNat := by
    rw [ofNat_toNat_of_mem member]
    exact member
  obtain ⟨fromStart, toEnd⟩ := mem_range_iff.mp range
  exact agree _ fromStart toEnd

/-- Nothing in the range, nothing in the sum. -/
theorem sumOver_eq_zero
    {query : RangeQuery}
    {value : UInt64 → ℚ}
    (zero : ∀ epoch, query.epochStart ≤ epoch → epoch ≤ query.epochEnd →
      value epoch = 0) :
    query.sumOver value = 0 := by
  rw [sumOver_congr zero]
  exact Finset.sum_const_zero

/-- The range of one key. -/
theorem sumOver_exactly
    (key : WindowKey)
    (value : UInt64 → ℚ) :
    (exactly key).sumOver value = value key.epoch := by
  change ∑ epoch ∈ Finset.Icc key.epoch.toNat key.epoch.toNat, _ = _
  rw [Finset.Icc_self, Finset.sum_singleton, UInt64.ofNat_toNat]

theorem sumOver_bound
    (query : RangeQuery)
    (value : UInt64 → ℚ) :
    query.bound.sumOver value = query.sumOver value := rfl

theorem sumOver_add
    (query : RangeQuery)
    (first second : UInt64 → ℚ) :
    query.sumOver (fun epoch => first epoch + second epoch) =
      query.sumOver first + query.sumOver second :=
  Finset.sum_add_distrib

/-- A row is selected by the query for its own epoch and by no other. -/
theorem weight_eq_sumOver
    (query : RangeQuery)
    (row : Row) :
    query.weight row =
      query.sumOver fun epoch => (exactly (query.keyAt epoch)).weight row := by
  unfold sumOver
  by_cases selected : query.selects row = true
  · obtain ⟨texts, fromStart, toEnd⟩ := query.selects_iff.mp selected
    have member := mem_range_iff.mpr ⟨fromStart, toEnd⟩
    rw [Finset.sum_eq_single_of_mem _ member]
    · rw [UInt64.ofNat_toNat, weight_of_selects selected]
      symm
      apply weight_of_selects
      exact (selects_iff _).mpr
        ⟨texts, UInt64.le_refl _, UInt64.le_refl _⟩
    · intro other otherMember different
      apply weight_of_not_selects
      intro otherSelected
      obtain ⟨-, fromOther, toOther⟩ := (selects_iff _).mp otherSelected
      apply different
      rw [← ofNat_toNat_of_mem otherMember]
      exact congrArg UInt64.toNat (UInt64.le_antisymm fromOther toOther)
  · rw [weight_of_not_selects selected]
    symm
    apply Finset.sum_eq_zero
    intro epoch member
    apply weight_of_not_selects
    intro otherSelected
    obtain ⟨texts, fromOther, toOther⟩ := (selects_iff _).mp otherSelected
    have sameEpoch : row.1.key.epoch = UInt64.ofNat epoch :=
      UInt64.le_antisymm toOther fromOther
    apply selected
    rw [selects_iff]
    refine ⟨texts, mem_range_iff.mp ?_⟩
    rw [sameEpoch, ofNat_toNat_of_mem member]
    exact member

/-- The total of a range is the sum of the totals of its epochs. -/
theorem total_column_eq_sumOver
    (query : RangeQuery)
    (rows : List Row) :
    total (query.column rows) =
      query.sumOver fun epoch =>
        total ((exactly (query.keyAt epoch)).column rows) := by
  simp only [total_column]
  induction rows with
  | nil => simp [sumOver]
  | cons row rest inductionHypothesis =>
      simp only [List.map_cons, List.sum_cons]
      rw [sumOver_add, inductionHypothesis, weight_eq_sumOver]

/-- The total of the query for one row. -/
theorem total_column_exactly
    (rows : AList fun _ : RowKey => WindowValue)
    (row : RowKey) :
    total ((exactly row.key).column rows.entries) =
      TieredStore.contribution (rows.lookup row) := by
  rw [total_column, sum_weight_exactly, TieredStore.contribution]

/-- What a query finds in the table, epoch by epoch. -/
theorem total_bound_column
    (query : RangeQuery)
    (rows : AList fun _ : RowKey => WindowValue) :
    total (query.bound.column rows.entries) =
      query.sumOver fun epoch =>
        TieredStore.contribution (rows.lookup (bindKey (query.keyAt epoch))) := by
  rw [total_column_eq_sumOver, sumOver_bound]
  apply sumOver_congr
  intro epoch _ _
  exact total_column_exactly rows (bindKey (query.keyAt epoch))

end RangeQuery

namespace TieredStore

/-- The query for one row finds it in the file of its epoch only. -/
theorem total_archivedRows_exactly
    (store : TieredStore)
    (row : RowKey) :
    total ((RangeQuery.exactly row.key).column store.archivedRows) =
      contribution (store.archivedRow row) := by
  have split := Table.sum_entries_erase store.cold row.key.epoch fun file =>
    total ((RangeQuery.exactly row.key).column file.2.rows.entries)
  have others : ((store.cold.erase row.key.epoch).entries.map fun file =>
      total ((RangeQuery.exactly row.key).column file.2.rows.entries)).sum =
        0 := by
    apply List.sum_eq_zero
    intro value valueMember
    obtain ⟨⟨epoch, file⟩, fileMember, rfl⟩ := List.mem_map.mp valueMember
    dsimp only
    rw [RangeQuery.total_column]
    apply List.sum_eq_zero
    intro weight weightMember
    obtain ⟨other, otherMember, rfl⟩ := List.mem_map.mp weightMember
    apply RangeQuery.weight_of_not_selects
    intro selected
    have sameRow := RangeQuery.selects_exactly_iff.mp selected
    have erased : epoch ∈ (store.cold.erase row.key.epoch).keys :=
      List.mem_map_of_mem fileMember
    rw [← AList.mem_keys, AList.mem_erase] at erased
    apply erased.1
    rw [← file.ofEpoch other otherMember, sameRow]
  rw [others, add_zero] at split
  rw [total_archivedRows, ← split, archivedRow]
  cases store.cold.lookup row.key.epoch with
  | none => rfl
  | some file => exact RangeQuery.total_column_exactly file.rows row

/-- What a query for plain texts finds in the archive, epoch by epoch. -/
theorem total_column_archivedRows
    (store : TieredStore)
    {query : RangeQuery}
    (plain : query.key.PlainTexts) :
    total (query.column store.archivedRows) =
      query.sumOver fun epoch =>
        contribution (store.archivedRow (bindKey (query.keyAt epoch))) := by
  rw [RangeQuery.total_column_eq_sumOver]
  apply RangeQuery.sumOver_congr
  intro epoch _ _
  have noNul : (query.keyAt epoch).NoNul :=
    ⟨plain.tenantId.2, plain.entityId.2, plain.windowName.2⟩
  have sameKey : (bindKey (query.keyAt epoch)).key = query.keyAt epoch :=
    noNul.cKey_eq
  rw [← total_archivedRows_exactly store (bindKey (query.keyAt epoch)), sameKey]

end TieredStore
end State
end Fre
