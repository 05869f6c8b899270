import Mathlib.Data.List.Basic

/-!
# Lists recorded position by position

A loop over a list may record one value for each element, depending on the
element and on its position, or give up.  When it has not given up, the records
and the elements correspond position by position.
-/

namespace Foundation
namespace Positions

variable {α β : Type}

/-- The records are what `record` gives at each position, and it gave up
nowhere. -/
def Recorded (record : Nat → α → Option β) (inputs : List α)
    (records : List β) : Prop :=
  records.map some = inputs.mapIdx record

theorem recorded_nil
    {record : Nat → α → Option β}
    {records : List β} :
    Recorded record [] records ↔ records = [] := by
  simp [Recorded]

/-- The first record comes from the first element, the others from the rest at
the positions after it. -/
theorem recorded_cons
    {record : Nat → α → Option β}
    {input : α}
    {rest : List α}
    {records : List β} :
    Recorded record (input :: rest) records ↔
      ∃ first others, records = first :: others ∧
        record 0 input = some first ∧
        Recorded (fun index => record (index + 1)) rest others := by
  unfold Recorded
  rw [List.mapIdx_cons, List.map_eq_cons_iff]
  constructor
  · rintro ⟨first, others, rfl, firstRecorded, othersRecorded⟩
    exact ⟨first, others, rfl, firstRecorded.symm, othersRecorded⟩
  · rintro ⟨first, others, rfl, firstRecorded, othersRecorded⟩
    exact ⟨first, others, rfl, firstRecorded.symm, othersRecorded⟩

theorem Recorded.length_eq
    {record : Nat → α → Option β}
    {inputs : List α}
    {records : List β}
    (recorded : Recorded record inputs records) :
    records.length = inputs.length := by
  simpa using congrArg List.length recorded

/-- The record at a position is the one given there. -/
theorem Recorded.getElem?_eq
    {record : Nat → α → Option β}
    {inputs : List α}
    {records : List β}
    (recorded : Recorded record inputs records)
    {index : Nat}
    {input : α}
    (found : inputs[index]? = some input) :
    records[index]? = record index input := by
  have atIndex := congrArg (fun list => list[index]?) recorded
  simp only [List.getElem?_map, List.getElem?_mapIdx, found,
    Option.map_some] at atIndex
  cases present : records[index]? with
  | none => simp [present] at atIndex
  | some value =>
      rw [present, Option.map_some, Option.some_inj] at atIndex
      exact atIndex

/-- A test that the record and its element answer alike counts alike. -/
theorem Recorded.countP_eq
    {record : Nat → α → Option β}
    {inputs : List α}
    {records : List β}
    {onRecord : β → Bool}
    {onInput : α → Bool}
    (recorded : Recorded record inputs records)
    (alike : ∀ index input value, record index input = some value →
      onRecord value = onInput input) :
    records.countP onRecord = inputs.countP onInput := by
  induction inputs generalizing record records with
  | nil =>
      rw [recorded_nil.mp recorded]
      rfl
  | cons input rest inductionHypothesis =>
      obtain ⟨first, others, rfl, firstRecorded, othersRecorded⟩ :=
        recorded_cons.mp recorded
      have others := inductionHypothesis othersRecorded
        fun index => alike (index + 1)
      rw [List.countP_cons, List.countP_cons, others,
        alike 0 input first firstRecorded]

end Positions
end Foundation
