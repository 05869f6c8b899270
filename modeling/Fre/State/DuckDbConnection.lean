import Fre.State.DuckDbWindowStore

/-!
# The statements of a swap

`compare_and_swap` runs `BEGIN`, `INSERT`, `UPDATE` and `COMMIT` on one
connection, with a `ROLLBACK` on every error it looks at.  Here the connection
is modelled statement by statement: a transaction works on a copy of the table,
and a `ROLLBACK` or a failing `COMMIT` drops the copy.  The connection also
remembers which updates were committed, so that the result of a call can be
compared with what became of it.
-/

namespace Fre
namespace State

/-- An open transaction: its copy of the table, and the rows that its `UPDATE`
statements have changed. -/
structure Transaction where
  rows : AList fun _ : RowKey => WindowValue
  updates : List (RowKey × WindowValue)

/-- The connection of the store: the committed table, the open transaction and
the updates committed so far, the last one first. -/
structure Connection where
  store : DuckDbWindowStore
  transaction : Option Transaction
  committed : List (RowKey × WindowValue)

namespace Connection

/-- `BEGIN`, and whether it succeeds. -/
def execBegin (conn : Connection) (faults : Faults) : Bool × Connection :=
  if faults.beginFails then (false, conn)
  else (true, { conn with transaction := some ⟨conn.store.rows, []⟩ })

/-- `ROLLBACK`; its result is never looked at. -/
def execRollback (conn : Connection) : Connection :=
  { conn with transaction := none }

/-- `COMMIT`, and whether it succeeds. -/
def execCommit (conn : Connection) (faults : Faults) : Bool × Connection :=
  match conn.transaction with
  | none => (false, conn)
  | some transaction =>
      if faults.commitFails then (false, conn.execRollback)
      else
        (true, {
          store := { conn.store with rows := transaction.rows }
          transaction := none
          committed := transaction.updates ++ conn.committed })

/-- `INSERT … ON CONFLICT DO NOTHING` inside the transaction. -/
def execInsert (conn : Connection) (row : RowKey) : Connection :=
  { conn with
    transaction := conn.transaction.map fun transaction =>
      { transaction with
        rows := DuckDbWindowStore.seedRow transaction.rows row } }

/-- The `UPDATE` inside the transaction, and the number of rows it changed. -/
def execUpdate
    (conn : Connection)
    (row : RowKey)
    (expectedVersion : UInt64)
    (newVal : WindowValue) : Nat × Connection :=
  match conn.transaction with
  | none => (0, conn)
  | some transaction =>
      let (rowsChanged, rows) := DuckDbWindowStore.updateRow transaction.rows
        row expectedVersion newVal
      (rowsChanged, { conn with
        transaction := some {
          rows := rows
          updates :=
            if 0 < rowsChanged then (row, newVal) :: transaction.updates
            else transaction.updates } })

/-- `get` on the connection: inside a transaction it would see the copy. -/
def get (conn : Connection) (faults : Faults) (key : WindowKey) :
    Except StoreError WindowValue :=
  match conn.transaction with
  | none => conn.store.get faults key
  | some transaction =>
      { conn.store with rows := transaction.rows }.get faults key

/-- `compare_and_swap`, statement by statement. -/
def compareAndSwap
    (conn : Connection)
    (faults : Faults)
    (key : WindowKey)
    (expectedVal newVal : WindowValue) :
    Except StoreError Bool × Connection :=
  if !conn.store.available then (.error DuckDbWindowStore.unavailable, conn)
  else
    match conn.execBegin faults with
    | (false, conn) => (.error ⟨.unavailable, "BEGIN failed"⟩, conn)
    | (true, conn) =>
        if faults.prepareFails 0 then
          (.error ⟨.unavailable, "prepare insert failed"⟩, conn.execRollback)
        else
          match faults.executeError 0 with
          | some text => (.error ⟨.unavailable, text⟩, conn.execRollback)
          | none =>
              let conn := conn.execInsert (bindKey key)
              if faults.prepareFails 1 then
                (.error ⟨.unavailable, "prepare update failed"⟩,
                  conn.execRollback)
              else
                match faults.executeError 1 with
                | some text => (.error ⟨.unavailable, text⟩, conn.execRollback)
                | none =>
                    let (rowsChanged, conn) := conn.execUpdate (bindKey key)
                      expectedVal.version newVal
                    (.ok (0 < rowsChanged), (conn.execCommit faults).2)

/-! ## What a swap does to the connection -/

section Swap

variable {conn : Connection} {faults : Faults} {key : WindowKey}
  {expectedVal newVal : WindowValue}

/-- Every statement before the `COMMIT` goes through. -/
structure ReachesCommit (conn : Connection) (faults : Faults) : Prop where
  available : conn.store.available = true
  begun : faults.beginFails = false
  inserted : faults.Passes 0
  updated : faults.Passes 1

instance (conn : Connection) (faults : Faults) :
    Decidable (conn.ReachesCommit faults) :=
  decidable_of_iff (conn.store.available = true ∧ faults.beginFails = false ∧
      faults.Passes 0 ∧ faults.Passes 1)
    ⟨fun reaches => ⟨reaches.1, reaches.2.1, reaches.2.2.1, reaches.2.2.2⟩,
      fun reaches => ⟨reaches.available, reaches.begun, reaches.inserted,
        reaches.updated⟩⟩

/-- The swap finds the version it expects. -/
def Matches (conn : Connection) (key : WindowKey)
    (expectedVal : WindowValue) : Prop :=
  (DuckDbWindowStore.rowValue conn.store.rows key).version =
    expectedVal.version

instance (conn : Connection) (key : WindowKey) (expectedVal : WindowValue) :
    Decidable (conn.Matches key expectedVal) :=
  inferInstanceAs (Decidable (_ = _))

/-- A transaction that is rolled back has never been. -/
theorem execRollback_eq
    (closed : conn.transaction = none)
    {changed : Option Transaction} :
    execRollback { conn with transaction := changed } = conn := by
  obtain ⟨store, transaction, committed⟩ := conn
  obtain rfl : transaction = none := closed
  rfl

theorem execBegin_of_begun
    (begun : faults.beginFails = false) :
    conn.execBegin faults =
      (true, { conn with transaction := some ⟨conn.store.rows, []⟩ }) := by
  rw [execBegin, begun]
  rfl

/-- A swap that does not come to its `COMMIT` reports an error and changes
nothing. -/
theorem compareAndSwap_of_not_reachesCommit
    (closed : conn.transaction = none)
    (fails : ¬ conn.ReachesCommit faults) :
    ∃ error, conn.compareAndSwap faults key expectedVal newVal =
      (.error error, conn) := by
  unfold compareAndSwap
  split
  · exact ⟨_, rfl⟩
  · next isOpen =>
      cases begun : faults.beginFails with
      | true =>
          rw [execBegin, begun]
          exact ⟨_, rfl⟩
      | false =>
          rw [execBegin_of_begun begun]
          dsimp only
          split
          · exact ⟨_, by rw [execRollback_eq closed]⟩
          · next prepared =>
              split
              · exact ⟨_, by rw [execRollback_eq closed]⟩
              · next inserted =>
                  split
                  · exact ⟨_, by rw [execInsert, execRollback_eq closed]⟩
                  · next preparedUpdate =>
                      split
                      · exact ⟨_, by rw [execInsert, execRollback_eq closed]⟩
                      · next updated =>
                          refine absurd ⟨?_, begun, ⟨?_, inserted⟩,
                            ⟨?_, updated⟩⟩ fails
                          · simpa using isOpen
                          · simpa using prepared
                          · simpa using preparedUpdate

/-- A swap that comes to its `COMMIT` reports whether the versions match; its
update is committed unless the `COMMIT` fails. -/
theorem compareAndSwap_of_reachesCommit
    (closed : conn.transaction = none)
    (reaches : conn.ReachesCommit faults) :
    conn.compareAndSwap faults key expectedVal newVal =
      (.ok (decide (conn.Matches key expectedVal)),
        if faults.commitFails then conn
        else
          { store := (conn.store.compareAndSwap faults key expectedVal newVal).2
            transaction := none
            committed :=
              if conn.Matches key expectedVal then
                (bindKey key, newVal) :: conn.committed
              else conn.committed }) := by
  obtain ⟨available, begun, inserted, updated⟩ := reaches
  rw [DuckDbWindowStore.compareAndSwap_of_passes available begun inserted
    updated]
  unfold compareAndSwap
  rw [execBegin_of_begun begun, inserted.1, inserted.2, updated.1, updated.2]
  simp only [available, execInsert, execUpdate, Option.map_some,
    DuckDbWindowStore.updateRow_seedRow]
  by_cases matching : (DuckDbWindowStore.rowValue conn.store.rows key).version =
      expectedVal.version
  · have isMatch : conn.Matches key expectedVal := matching
    cases commits : faults.commitFails with
    | true => simp [execCommit, matching, isMatch, commits,
        execRollback_eq closed]
    | false => simp [execCommit, matching, isMatch, commits, available]
  · have noMatch : ¬ conn.Matches key expectedVal := matching
    cases commits : faults.commitFails with
    | true => simp [execCommit, matching, noMatch, commits,
        execRollback_eq closed]
    | false => simp [execCommit, matching, noMatch, commits, available]

/-- The statements together are the call on the store. -/
theorem compareAndSwap_refines
    (closed : conn.transaction = none) :
    (conn.compareAndSwap faults key expectedVal newVal).1 =
        (conn.store.compareAndSwap faults key expectedVal newVal).1 ∧
      (conn.compareAndSwap faults key expectedVal newVal).2.store =
        (conn.store.compareAndSwap faults key expectedVal newVal).2 := by
  by_cases reaches : conn.ReachesCommit faults
  · rw [compareAndSwap_of_reachesCommit closed reaches,
      DuckDbWindowStore.compareAndSwap_of_passes reaches.available reaches.begun
        reaches.inserted reaches.updated]
    by_cases matching : conn.Matches key expectedVal
    · have sameVersion : (DuckDbWindowStore.rowValue conn.store.rows
          key).version = expectedVal.version := matching
      cases commits : faults.commitFails with
      | true => simp [matching, sameVersion]
      | false => simp [matching, sameVersion]
    · have otherVersion : ¬ (DuckDbWindowStore.rowValue conn.store.rows
          key).version = expectedVal.version := matching
      cases commits : faults.commitFails with
      | true => simp [matching, otherVersion]
      | false => simp [matching, otherVersion]
  · unfold compareAndSwap DuckDbWindowStore.compareAndSwap
    cases isOpen : conn.store.available with
    | false => simp
    | true =>
        cases begun : faults.beginFails with
        | true => simp [execBegin, begun]
        | false =>
            rw [execBegin_of_begun begun]
            cases prepared : faults.prepareFails 0 with
            | true => simp [execRollback]
            | false =>
                cases inserted : faults.executeError 0 with
                | some text => simp [execRollback]
                | none =>
                    cases preparedUpdate : faults.prepareFails 1 with
                    | true => simp [execInsert, execRollback]
                    | false =>
                        cases updated : faults.executeError 1 with
                        | some text => simp [execInsert, execRollback]
                        | none =>
                            exact absurd ⟨isOpen, begun, ⟨prepared, inserted⟩,
                              ⟨preparedUpdate, updated⟩⟩ reaches

/-- The result of the call says what was committed, everything else reads as
before, and no transaction is left open. -/
structure ReportsCommitted
    (conn : Connection)
    (faults : Faults)
    (key : WindowKey)
    (expectedVal newVal : WindowValue) : Prop where
  reported :
    (conn.compareAndSwap faults key expectedVal newVal).1 = .ok true ↔
      (conn.compareAndSwap faults key expectedVal newVal).2.committed =
          (bindKey key, newVal) :: conn.committed ∧
        (conn.compareAndSwap faults key expectedVal newVal).2.get .none key =
          .ok newVal
  unchanged :
    (conn.compareAndSwap faults key expectedVal newVal).1 ≠ .ok true →
      ∀ (later : Faults) (other : WindowKey),
        (conn.compareAndSwap faults key expectedVal newVal).2.get later other =
          conn.get later other
  closed :
    (conn.compareAndSwap faults key expectedVal newVal).2.transaction = none

/-- An outcome that changes nothing and does not say that it did. -/
theorem reportsCommitted_of_unchanged
    (closed : conn.transaction = none)
    {result : Except StoreError Bool}
    (outcome : conn.compareAndSwap faults key expectedVal newVal =
      (result, conn))
    (notTrue : result ≠ .ok true) :
    conn.ReportsCommitted faults key expectedVal newVal where
  reported := by
    rw [outcome]
    exact iff_of_false notTrue fun same =>
      List.cons_ne_self _ _ same.1.symm
  unchanged := by
    rw [outcome]
    exact fun _ _ _ => rfl
  closed := by
    rw [outcome]
    exact closed

/-- A swap on another version leaves at most a seeded row, which reads as a
missing one. -/
theorem reportsCommitted_of_not_matches
    (closed : conn.transaction = none)
    (reaches : conn.ReachesCommit faults)
    (commits : faults.commitFails = false)
    (differs : ¬ conn.Matches key expectedVal) :
    conn.ReportsCommitted faults key expectedVal newVal := by
  have outcome : conn.compareAndSwap faults key expectedVal newVal =
      (.ok false, { conn with
        store := { conn.store with
          rows := DuckDbWindowStore.seedRow conn.store.rows (bindKey key) }
        transaction := none }) := by
    have otherVersion : ¬ (DuckDbWindowStore.rowValue conn.store.rows
        key).version = expectedVal.version := differs
    rw [compareAndSwap_of_reachesCommit closed reaches,
      DuckDbWindowStore.compareAndSwap_of_passes reaches.available reaches.begun
        reaches.inserted reaches.updated]
    simp [commits, differs, otherVersion]
  constructor
  · rw [outcome]
    refine iff_of_false ?_ fun same =>
      List.cons_ne_self _ _ same.1.symm
    simp
  · intro _ later other
    rw [outcome, get, get, closed]
    unfold DuckDbWindowStore.get
    rw [DuckDbWindowStore.rowValue_seedRow]
  · rw [outcome]

/-- A swap whose update is committed says so. -/
theorem reportsCommitted_of_matches
    (closed : conn.transaction = none)
    (reaches : conn.ReachesCommit faults)
    (commits : faults.commitFails = false)
    (matching : conn.Matches key expectedVal) :
    conn.ReportsCommitted faults key expectedVal newVal := by
  have outcome : conn.compareAndSwap faults key expectedVal newVal =
      (.ok true,
        { store := { conn.store with
            rows := (DuckDbWindowStore.seedRow conn.store.rows
              (bindKey key)).insert (bindKey key) newVal }
          transaction := none
          committed := (bindKey key, newVal) :: conn.committed }) := by
    have sameVersion : (DuckDbWindowStore.rowValue conn.store.rows
        key).version = expectedVal.version := matching
    rw [compareAndSwap_of_reachesCommit closed reaches,
      DuckDbWindowStore.compareAndSwap_of_passes reaches.available reaches.begun
        reaches.inserted reaches.updated]
    simp [commits, matching, sameVersion]
  constructor
  · rw [outcome]
    refine iff_of_true rfl ⟨rfl, ?_⟩
    rw [get, DuckDbWindowStore.get_none (by exact reaches.available),
      DuckDbWindowStore.rowValue_insert, if_pos rfl]
  · rw [outcome]
    exact fun notTrue => absurd rfl notTrue
  · rw [outcome]

end Swap

/-- A swap outside a transaction reports what was committed exactly if it is not
its `COMMIT` that fails, on a row of the expected version. -/
theorem reportsCommitted_iff
    (conn : Connection)
    (closed : conn.transaction = none)
    (faults : Faults)
    (key : WindowKey)
    (expectedVal newVal : WindowValue) :
    conn.ReportsCommitted faults key expectedVal newVal ↔
      ¬ (conn.ReachesCommit faults ∧ conn.Matches key expectedVal ∧
        faults.commitFails = true) := by
  by_cases reaches : conn.ReachesCommit faults
  · by_cases matching : conn.Matches key expectedVal
    · cases commits : faults.commitFails with
      | true =>
          refine iff_of_false ?_ fun holds => holds ⟨reaches, matching, rfl⟩
          intro reports
          have outcome : conn.compareAndSwap faults key expectedVal newVal =
              (.ok true, conn) := by
            rw [compareAndSwap_of_reachesCommit closed reaches,
              decide_eq_true matching, commits]
            rfl
          have committed := (reports.reported.mp (by rw [outcome])).1
          rw [outcome] at committed
          exact List.cons_ne_self _ _ committed.symm
      | false =>
          exact iff_of_true
            (reportsCommitted_of_matches closed reaches commits matching)
            (by simp)
    · refine iff_of_true ?_ fun both => matching both.2.1
      cases commits : faults.commitFails with
      | true =>
          have outcome : conn.compareAndSwap faults key expectedVal newVal =
              (.ok false, conn) := by
            rw [compareAndSwap_of_reachesCommit closed reaches,
              decide_eq_false matching, commits]
            rfl
          exact reportsCommitted_of_unchanged closed outcome (by simp)
      | false =>
          exact reportsCommitted_of_not_matches closed reaches commits matching
  · obtain ⟨error, outcome⟩ := compareAndSwap_of_not_reachesCommit closed reaches
    refine iff_of_true ?_ fun both => reaches both.1
    exact reportsCommitted_of_unchanged closed outcome (by simp)

/-- A connection to an empty table. -/
def opened : Connection where
  store := { available := true, rows := ∅ }
  transaction := none
  committed := []

/-- The `UPDATE` of a first write fails: the error is reported, and the row that
the `INSERT` had seeded is rolled back. -/
theorem reportsCommitted_updateFails :
    opened.transaction = none ∧
      opened.ReportsCommitted { executeError := fun position =>
          if position = 1 then some "Constraint Error" else none }
        ⟨"acme", "alice", "logins", 0⟩ {} ⟨.finite 1, 1⟩ :=
  ⟨rfl, (reportsCommitted_iff opened rfl _ _ _ _).mpr (by simp)⟩

/-- The `COMMIT` of a first write fails: the call returns true, and the next
`get` reads zero. -/
theorem failed_commit_reported_true :
    (opened.compareAndSwap { commitFails := true }
        ⟨"acme", "alice", "logins", 0⟩ {} ⟨.finite 1, 1⟩).1 = .ok true ∧
      (opened.compareAndSwap { commitFails := true }
        ⟨"acme", "alice", "logins", 0⟩ {} ⟨.finite 1, 1⟩).2.get .none
          ⟨"acme", "alice", "logins", 0⟩ = .ok {} ∧
      ¬ opened.ReportsCommitted { commitFails := true }
        ⟨"acme", "alice", "logins", 0⟩ {} ⟨.finite 1, 1⟩ := by
  have outcome : opened.compareAndSwap { commitFails := true }
      ⟨"acme", "alice", "logins", 0⟩ {} ⟨.finite 1, 1⟩ = (.ok true, opened) := by
    rw [compareAndSwap_of_reachesCommit rfl
      ⟨rfl, rfl, ⟨rfl, rfl⟩, ⟨rfl, rfl⟩⟩, decide_eq_true (by rfl)]
    rfl
  refine ⟨by rw [outcome], by rw [outcome]; rfl, fun reports => ?_⟩
  have committed := (reports.reported.mp (by rw [outcome])).1
  rw [outcome] at committed
  exact List.cons_ne_self _ _ committed.symm

end Connection
end State
end Fre
