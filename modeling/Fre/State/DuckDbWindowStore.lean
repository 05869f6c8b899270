import Fre.Foundation.Table
import Fre.State.WindowStore
import Mathlib.Data.List.TakeWhile

/-!
# The DuckDB window store

The warm tier keeps one row per key in the table `window_state`.  The database
is outside the program: it is modelled by its table, and for every call it is
told which of the statements of the call fail and with what text.  A failed
transaction is rolled back.  Keys reach the database as C strings, so a key is
stored with each of its texts cut at the first NUL.
-/

namespace Fre
namespace State

open Foundation

/-- What the C interface sees of `text.c_str()`. -/
def cString (text : String) : String :=
  String.ofList (text.toList.takeWhile fun character => character ≠ '\x00')

/-- A key with its texts as C strings. -/
def cKey (key : WindowKey) : WindowKey where
  tenantId := cString key.tenantId
  entityId := cString key.entityId
  windowName := cString key.windowName
  epoch := key.epoch

theorem cString_cString (text : String) :
    cString (cString text) = cString text := by
  rw [cString, cString, String.toList_ofList, List.takeWhile_idem]

theorem cKey_cKey (key : WindowKey) : cKey (cKey key) = cKey key := by
  simp only [cKey, cString_cString]

/-- A text without NUL reaches the C interface as it is. -/
theorem cString_eq_self
    (text : String)
    (noNul : '\x00' ∉ text.toList) :
    cString text = text := by
  rw [cString, List.takeWhile_eq_self_iff.mpr, String.ofList_toList]
  intro character member
  simp only [ne_eq, decide_eq_true_eq]
  rintro rfl
  exact noNul member

/-- No text of the key has a NUL. -/
structure WindowKey.NoNul (key : WindowKey) : Prop where
  tenantId : '\x00' ∉ key.tenantId.toList
  entityId : '\x00' ∉ key.entityId.toList
  windowName : '\x00' ∉ key.windowName.toList

theorem WindowKey.NoNul.cKey_eq
    {key : WindowKey}
    (noNul : key.NoNul) :
    cKey key = key := by
  rw [cKey, cString_eq_self _ noNul.tenantId, cString_eq_self _ noNul.entityId,
    cString_eq_self _ noNul.windowName]

/-- Keys as they stand in the table: without NUL. -/
@[ext] structure RowKey where
  key : WindowKey
  clean : cKey key = key
  deriving DecidableEq

/-- The four bound parameters of a statement. -/
def bindKey (key : WindowKey) : RowKey := ⟨cKey key, cKey_cKey key⟩

theorem bindKey_key (row : RowKey) : bindKey row.key = row :=
  RowKey.ext row.clean

/-- Keys without NUL have different rows. -/
theorem bindKey_injOn_noNul
    {keys : Set WindowKey}
    (noNul : ∀ key ∈ keys, key.NoNul) :
    Set.InjOn bindKey keys := by
  intro key member other otherMember same
  have sameKey : cKey key = cKey other := congrArg RowKey.key same
  rwa [(noNul key member).cKey_eq, (noNul other otherMember).cKey_eq] at sameKey

/-- The statements of one call that fail: of a call with several prepared
statements the ones at these positions, with the text of an execution
error. -/
structure Faults where
  beginFails : Bool := false
  prepareFails : Nat → Bool := fun _ => false
  executeError : Nat → Option String := fun _ => none
  commitFails : Bool := false

/-- Every statement succeeds. -/
def Faults.none : Faults := {}

/-- The prepared statement at the position goes through. -/
def Faults.Passes (faults : Faults) (position : Nat) : Prop :=
  faults.prepareFails position = false ∧ faults.executeError position = .none

instance (faults : Faults) (position : Nat) :
    Decidable (faults.Passes position) :=
  inferInstanceAs (Decidable (_ ∧ _))

/-- The transaction around a batch of this size goes through. -/
def Faults.PassesBatch (faults : Faults) (size : Nat) : Prop :=
  faults.beginFails = false ∧ (∀ position < size, faults.Passes position) ∧
    faults.commitFails = false

instance (faults : Faults) (size : Nat) :
    Decidable (faults.PassesBatch size) :=
  inferInstanceAs (Decidable (_ ∧ _ ∧ _))

/-- `DuckDbWindowStore`: the flag of the constructor and the table. -/
structure DuckDbWindowStore where
  available : Bool
  rows : AList fun _ : RowKey => WindowValue

namespace DuckDbWindowStore

/-- The error of every call on a store that could not be opened. -/
def unavailable : StoreError := ⟨.unavailable, "DuckDB unavailable"⟩

/-- The value of the row of a key; a missing row reads as zero. -/
def rowValue
    (rows : AList fun _ : RowKey => WindowValue)
    (key : WindowKey) : WindowValue :=
  (rows.lookup (bindKey key)).getD {}

/-- `get`. -/
def get (store : DuckDbWindowStore) (faults : Faults) (key : WindowKey) :
    Except StoreError WindowValue :=
  if !store.available then .error unavailable
  else if faults.prepareFails 0 then .error ⟨.unavailable, "prepare failed"⟩
  else
    match faults.executeError 0 with
    | some text => .error ⟨.unavailable, text⟩
    | none => .ok (rowValue store.rows key)

/-- `INSERT … ON CONFLICT DO NOTHING`: a missing row starts at zero. -/
def seedRow
    (rows : AList fun _ : RowKey => WindowValue)
    (row : RowKey) : AList fun _ : RowKey => WindowValue :=
  if row ∈ rows then rows else rows.insert row {}

/-- The `UPDATE` of a row whose version is the expected one, with the number of
rows it changed. -/
def updateRow
    (rows : AList fun _ : RowKey => WindowValue)
    (row : RowKey)
    (expectedVersion : UInt64)
    (newVal : WindowValue) : Nat × AList fun _ : RowKey => WindowValue :=
  match rows.lookup row with
  | none => (0, rows)
  | some current =>
      if current.version = expectedVersion then (1, rows.insert row newVal)
      else (0, rows)

/-- `compare_and_swap`.  The outcome of the `COMMIT` is not looked at. -/
def compareAndSwap
    (store : DuckDbWindowStore)
    (faults : Faults)
    (key : WindowKey)
    (expectedVal newVal : WindowValue) :
    Except StoreError Bool × DuckDbWindowStore :=
  if !store.available then (.error unavailable, store)
  else if faults.beginFails then (.error ⟨.unavailable, "BEGIN failed"⟩, store)
  else if faults.prepareFails 0 then
    (.error ⟨.unavailable, "prepare insert failed"⟩, store)
  else
    match faults.executeError 0 with
    | some text => (.error ⟨.unavailable, text⟩, store)
    | none =>
        if faults.prepareFails 1 then
          (.error ⟨.unavailable, "prepare update failed"⟩, store)
        else
          match faults.executeError 1 with
          | some text => (.error ⟨.unavailable, text⟩, store)
          | none =>
              let (rowsChanged, rows) :=
                updateRow (seedRow store.rows (bindKey key)) (bindKey key)
                  expectedVal.version newVal
              (.ok (0 < rowsChanged),
                if faults.commitFails then store else { store with rows })

/-- `expire`. -/
def expire (store : DuckDbWindowStore) (faults : Faults) (key : WindowKey) :
    Except StoreError Unit × DuckDbWindowStore :=
  if !store.available then (.error unavailable, store)
  else if faults.prepareFails 0 then
    (.error ⟨.unavailable, "prepare failed"⟩, store)
  else
    match faults.executeError 0 with
    | some text => (.error ⟨.unavailable, text⟩, store)
    | none => (.ok (), { store with rows := store.rows.erase (bindKey key) })

/-- The loop of `upsert_batch` inside its transaction. -/
def upsertRows (faults : Faults) :
    Nat → List (WindowKey × WindowValue) →
      (AList fun _ : RowKey => WindowValue) →
      Except StoreError (AList fun _ : RowKey => WindowValue)
  | _, [], rows => .ok rows
  | position, (key, val) :: rest, rows =>
      if faults.prepareFails position then
        .error ⟨.unavailable, "upsert prepare failed"⟩
      else
        match faults.executeError position with
        | some text => .error ⟨.unavailable, text⟩
        | none =>
            upsertRows faults (position + 1) rest
              (rows.insert (bindKey key) val)

/-- `upsert_batch`. -/
def upsertBatch
    (store : DuckDbWindowStore)
    (faults : Faults)
    (entries : List (WindowKey × WindowValue)) :
    Except StoreError Unit × DuckDbWindowStore :=
  if !store.available then (.error unavailable, store)
  else if entries.isEmpty then (.ok (), store)
  else if faults.beginFails then
    (.error ⟨.unavailable, "upsert_batch BEGIN failed"⟩, store)
  else
    match upsertRows faults 0 entries store.rows with
    | .error error => (.error error, store)
    | .ok rows =>
        if faults.commitFails then
          (.error ⟨.unavailable, "upsert_batch COMMIT failed"⟩, store)
        else (.ok (), { store with rows := rows })

/-- `scan_warm_tier`. -/
def scanWarmTier (store : DuckDbWindowStore) (faults : Faults) :
    Except StoreError (List (WindowKey × WindowValue)) :=
  if !store.available then .error unavailable
  else
    match faults.executeError 0 with
    | some text => .error ⟨.queryRangeError, text⟩
    | none => .ok (store.rows.entries.map fun row => (row.1.key, row.2))

/-! ## What the calls do to the rows -/

theorem get_none
    {store : DuckDbWindowStore}
    (available : store.available = true)
    (key : WindowKey) :
    store.get .none key = .ok (rowValue store.rows key) := by
  simp [get, available, Faults.none]

theorem rowValue_insert
    (rows : AList fun _ : RowKey => WindowValue)
    (row : RowKey)
    (value : WindowValue)
    (key : WindowKey) :
    rowValue (rows.insert row value) key =
      if bindKey key = row then value else rowValue rows key := by
  unfold rowValue
  split
  · next same => rw [same, AList.lookup_insert, Option.getD_some]
  · next different => rw [AList.lookup_insert_ne different]

theorem rowValue_erase
    (rows : AList fun _ : RowKey => WindowValue)
    (row : RowKey)
    (key : WindowKey) :
    rowValue (rows.erase row) key =
      if bindKey key = row then {} else rowValue rows key := by
  unfold rowValue
  split
  · next same => rw [same, AList.lookup_erase, Option.getD_none]
  · next different => rw [AList.lookup_erase_ne different]

/-- A seeded row cannot be told from a missing one. -/
@[simp] theorem rowValue_seedRow
    (rows : AList fun _ : RowKey => WindowValue)
    (row : RowKey)
    (key : WindowKey) :
    rowValue (seedRow rows row) key = rowValue rows key := by
  unfold seedRow
  split
  · rfl
  · next missing =>
      rw [rowValue_insert]
      split
      · next same =>
          rw [rowValue, same, AList.lookup_eq_none.mpr missing, Option.getD_none]
      · rfl

/-- Seeding a row leaves the rows that are there. -/
theorem lookup_seedRow_of_some
    {rows : AList fun _ : RowKey => WindowValue}
    {other : RowKey}
    {value : WindowValue}
    (found : rows.lookup other = some value)
    (row : RowKey) :
    (seedRow rows row).lookup other = some value := by
  unfold seedRow
  split
  · exact found
  · next missing =>
      have different : other ≠ row := by
        rintro rfl
        rw [AList.lookup_eq_none.mpr missing] at found
        cases found
      rw [AList.lookup_insert_ne different]
      exact found

theorem lookup_seedRow_self
    (rows : AList fun _ : RowKey => WindowValue)
    (key : WindowKey) :
    (seedRow rows (bindKey key)).lookup (bindKey key) =
      some (rowValue rows key) := by
  unfold seedRow rowValue
  split
  · next present =>
      obtain ⟨value, found⟩ :=
        Option.isSome_iff_exists.mp (AList.lookup_isSome.mpr present)
      rw [found, Option.getD_some]
  · next missing =>
      rw [AList.lookup_insert, AList.lookup_eq_none.mpr missing,
        Option.getD_none]

/-- The `UPDATE` after the `INSERT` sees the value that the key reads as. -/
theorem updateRow_seedRow
    (rows : AList fun _ : RowKey => WindowValue)
    (key : WindowKey)
    (expectedVersion : UInt64)
    (newVal : WindowValue) :
    updateRow (seedRow rows (bindKey key)) (bindKey key) expectedVersion
        newVal =
      if (rowValue rows key).version = expectedVersion then
        (1, (seedRow rows (bindKey key)).insert (bindKey key) newVal)
      else (0, seedRow rows (bindKey key)) := by
  rw [updateRow, lookup_seedRow_self]

/-- When all its statements up to the `COMMIT` go through, a swap compares the
versions, and unless the `COMMIT` fails it writes the row of its key. -/
theorem compareAndSwap_of_passes
    {store : DuckDbWindowStore}
    {faults : Faults}
    (available : store.available = true)
    (begun : faults.beginFails = false)
    (inserted : faults.Passes 0)
    (updated : faults.Passes 1)
    (key : WindowKey)
    (expectedVal newVal : WindowValue) :
    store.compareAndSwap faults key expectedVal newVal =
      if (rowValue store.rows key).version = expectedVal.version then
        (.ok true, if faults.commitFails then store else { store with
          rows := (seedRow store.rows (bindKey key)).insert (bindKey key)
            newVal })
      else
        (.ok false, if faults.commitFails then store else { store with
          rows := seedRow store.rows (bindKey key) }) := by
  unfold compareAndSwap
  rw [updateRow_seedRow, inserted.1, inserted.2, updated.1, updated.2]
  by_cases matching : (rowValue store.rows key).version = expectedVal.version
  · simp [available, begun, matching]
  · simp [available, begun, matching]

theorem compareAndSwap_none
    {store : DuckDbWindowStore}
    (available : store.available = true)
    (key : WindowKey)
    (expectedVal newVal : WindowValue) :
    store.compareAndSwap .none key expectedVal newVal =
      if (rowValue store.rows key).version = expectedVal.version then
        (.ok true, { store with
          rows := (seedRow store.rows (bindKey key)).insert (bindKey key)
            newVal })
      else
        (.ok false, { store with rows := seedRow store.rows (bindKey key) }) :=
  compareAndSwap_of_passes available rfl ⟨rfl, rfl⟩ ⟨rfl, rfl⟩ key expectedVal
    newVal

/-- The rows of a batch as the table sees them. -/
def boundBatch (entries : List (WindowKey × WindowValue)) :
    List (RowKey × WindowValue) :=
  entries.map fun entry => (bindKey entry.1, entry.2)

/-- A batch that goes through is inserted row by row. -/
theorem upsertRows_eq_ok
    {faults : Faults}
    {position : Nat}
    {entries : List (WindowKey × WindowValue)}
    {rows after : AList fun _ : RowKey => WindowValue}
    (succeeded : upsertRows faults position entries rows = .ok after) :
    after = Table.insertAll rows (boundBatch entries) := by
  induction entries generalizing position rows with
  | nil => exact (Except.ok.inj succeeded).symm
  | cons entry rest inductionHypothesis =>
      rw [upsertRows] at succeeded
      split at succeeded
      · cases succeeded
      · split at succeeded
        · cases succeeded
        · exact inductionHypothesis succeeded

theorem upsertRows_none
    (position : Nat)
    (entries : List (WindowKey × WindowValue))
    (rows : AList fun _ : RowKey => WindowValue) :
    upsertRows .none position entries rows =
      .ok (Table.insertAll rows (boundBatch entries)) := by
  induction entries generalizing position rows with
  | nil => rfl
  | cons entry rest inductionHypothesis =>
      rw [upsertRows]
      exact inductionHypothesis _ _

/-- A batch is written as a whole or not at all. -/
theorem upsertBatch_cases
    (store : DuckDbWindowStore)
    (faults : Faults)
    (entries : List (WindowKey × WindowValue)) :
    (∃ error, store.upsertBatch faults entries = (.error error, store)) ∨
      store.upsertBatch faults entries =
        (.ok (), { store with
          rows := Table.insertAll store.rows (boundBatch entries) }) := by
  unfold upsertBatch
  split
  · exact .inl ⟨_, rfl⟩
  · split
    · next nothing =>
        rw [List.isEmpty_iff] at nothing
        subst nothing
        exact .inr rfl
    · split
      · exact .inl ⟨_, rfl⟩
      · split
        · exact .inl ⟨_, rfl⟩
        · next rows written =>
            rw [upsertRows_eq_ok written]
            split
            · exact .inl ⟨_, rfl⟩
            · exact .inr rfl

/-- The loop goes through exactly if all its statements do. -/
theorem exists_upsertRows_eq_ok_iff
    (faults : Faults)
    (position : Nat)
    (entries : List (WindowKey × WindowValue))
    (rows : AList fun _ : RowKey => WindowValue) :
    (∃ after, upsertRows faults position entries rows = .ok after) ↔
      ∀ index < entries.length, faults.Passes (position + index) := by
  induction entries generalizing position rows with
  | nil => exact iff_of_true ⟨rows, rfl⟩ (by simp)
  | cons entry rest inductionHypothesis =>
      rw [upsertRows, List.length_cons]
      by_cases passes : faults.Passes position
      · have loop := inductionHypothesis (position + 1)
          (rows.insert (bindKey entry.1) entry.2)
        rw [if_neg (by rw [passes.1]; decide), passes.2]
        refine loop.trans ⟨fun others index small => ?_,
          fun others index small => ?_⟩
        · cases index with
          | zero => exact passes
          | succ index =>
              rw [show position + (index + 1) = position + 1 + index by omega]
              exact others index (by omega)
        · rw [show position + 1 + index = position + (index + 1) by omega]
          exact others (index + 1) (by omega)
      · refine iff_of_false ?_ fun others => passes (others 0 (by omega))
        rintro ⟨after, succeeded⟩
        split at succeeded
        · cases succeeded
        · next prepared =>
            split at succeeded
            · cases succeeded
            · next executed =>
                exact passes ⟨by simpa using prepared, executed⟩

/-- A batch is written exactly if its transaction goes through; an empty one
needs none. -/
theorem upsertBatch_eq_error_iff
    {store : DuckDbWindowStore}
    (available : store.available = true)
    (faults : Faults)
    (entries : List (WindowKey × WindowValue)) :
    (∃ error, store.upsertBatch faults entries = (.error error, store)) ↔
      entries ≠ [] ∧ ¬ faults.PassesBatch entries.length := by
  have loop := exists_upsertRows_eq_ok_iff faults 0 entries store.rows
  simp only [Nat.zero_add] at loop
  unfold upsertBatch Faults.PassesBatch
  rw [← loop, if_neg (by simp [available])]
  cases entries with
  | nil => simp
  | cons entry rest =>
      rw [if_neg (by simp)]
      cases begun : faults.beginFails with
      | true => simp
      | false =>
          cases wrote : upsertRows faults 0 (entry :: rest) store.rows with
          | error error => simp
          | ok rows =>
              cases commits : faults.commitFails with
              | true => simp
              | false => simp

/-- Without a failing statement a batch is written. -/
theorem upsertBatch_none
    {store : DuckDbWindowStore}
    (available : store.available = true)
    (entries : List (WindowKey × WindowValue)) :
    store.upsertBatch .none entries =
      (.ok (), { store with
        rows := Table.insertAll store.rows (boundBatch entries) }) := by
  unfold upsertBatch
  rw [upsertRows_none]
  cases entries with
  | nil =>
      rw [if_neg (by simp [available])]
      rfl
  | cons entry rest =>
      rw [if_neg (by simp [available])]
      rfl

theorem expire_none
    {store : DuckDbWindowStore}
    (available : store.available = true)
    (key : WindowKey) :
    store.expire .none key =
      (.ok (), { store with rows := store.rows.erase (bindKey key) }) := by
  simp [expire, available, Faults.none]

/-- A row is deleted if the store is open and the statement goes through. -/
theorem expire_snd
    (store : DuckDbWindowStore)
    (faults : Faults)
    (key : WindowKey) :
    (store.expire faults key).2 =
      if store.available ∧ faults.Passes 0 then
        { store with rows := store.rows.erase (bindKey key) }
      else store := by
  unfold expire
  by_cases passes : store.available ∧ faults.Passes 0
  · rw [ite_cond_eq_true _ _ (eq_true passes)]
    obtain ⟨isOpen, prepared, executed⟩ := passes
    simp [isOpen, prepared, executed]
  · rw [ite_cond_eq_false _ _ (eq_false passes)]
    split
    · rfl
    · next isOpen =>
        split
        · rfl
        · next prepared =>
            split
            · rfl
            · next executed =>
                refine absurd ⟨?_, ?_, executed⟩ passes
                · simpa using isOpen
                · simpa using prepared

section Rows

variable {keys : Set WindowKey}
  {rows : AList fun _ : RowKey => WindowValue}
  {entries : List (WindowKey × WindowValue)}
  {key : WindowKey}

theorem mem_map_fst_boundBatch_iff
    {row : RowKey} :
    row ∈ (boundBatch entries).map Prod.fst ↔
      row ∈ (entries.map Prod.fst).map bindKey := by
  simp [boundBatch]

/-- After a batch with distinct keys, the keys of the batch read as its
values. -/
theorem rowValue_insertAll_of_mem
    (injective : Set.InjOn bindKey keys)
    (known : ∀ entry ∈ entries, entry.1 ∈ keys)
    (distinct : (entries.map Prod.fst).Nodup)
    {value : WindowValue}
    (member : (key, value) ∈ entries) :
    rowValue (Table.insertAll rows (boundBatch entries)) key = value := by
  have boundDistinct : ((boundBatch entries).map Prod.fst).Nodup := by
    have sameKeys : (boundBatch entries).map Prod.fst =
        (entries.map Prod.fst).map bindKey := by
      simp [boundBatch]
    rw [sameKeys]
    refine distinct.map_on fun first firstMember second secondMember same => ?_
    obtain ⟨firstEntry, firstIn, rfl⟩ := List.mem_map.1 firstMember
    obtain ⟨secondEntry, secondIn, rfl⟩ := List.mem_map.1 secondMember
    exact injective (known firstEntry firstIn) (known secondEntry secondIn) same
  have boundMember : (bindKey key, value) ∈ boundBatch entries :=
    List.mem_map.2 ⟨(key, value), member, rfl⟩
  rw [rowValue, Table.lookup_insertAll_of_mem rows boundDistinct boundMember,
    Option.getD_some]

/-- A key outside the batch reads as before. -/
theorem rowValue_insertAll_of_not_mem
    (injective : Set.InjOn bindKey keys)
    (known : ∀ entry ∈ entries, entry.1 ∈ keys)
    (keyKnown : key ∈ keys)
    (absent : key ∉ entries.map Prod.fst) :
    rowValue (Table.insertAll rows (boundBatch entries)) key =
      rowValue rows key := by
  have boundAbsent : bindKey key ∉ (boundBatch entries).map Prod.fst := by
    rw [mem_map_fst_boundBatch_iff]
    intro member
    obtain ⟨other, otherMember, same⟩ := List.mem_map.1 member
    obtain ⟨entry, entryMember, rfl⟩ := List.mem_map.1 otherMember
    have equal := injective (known entry entryMember) keyKnown same
    exact absent (equal ▸ otherMember)
  rw [rowValue, rowValue, Table.lookup_insertAll_of_not_mem rows boundAbsent]

/-- After a batch of deletions its keys read as zero and all others as
before. -/
theorem rowValue_eraseAll
    (injective : Set.InjOn bindKey keys)
    {expired : List WindowKey}
    (known : ∀ other ∈ expired, other ∈ keys)
    (keyKnown : key ∈ keys) :
    rowValue (Table.eraseAll rows (expired.map bindKey)) key =
      if key ∈ expired then {} else rowValue rows key := by
  have sameMembership : bindKey key ∈ expired.map bindKey ↔ key ∈ expired := by
    constructor
    · intro member
      obtain ⟨other, otherMember, same⟩ := List.mem_map.1 member
      have equal := injective (known other otherMember) keyKnown same
      exact equal ▸ otherMember
    · exact fun member => List.mem_map_of_mem member
  rw [rowValue, Table.lookup_eraseAll]
  by_cases member : key ∈ expired
  · rw [if_pos (sameMembership.2 member), if_pos member, Option.getD_none]
  · rw [if_neg fun bound => member (sameMembership.1 bound), if_neg member,
      rowValue]

end Rows

end DuckDbWindowStore
end State
end Fre
