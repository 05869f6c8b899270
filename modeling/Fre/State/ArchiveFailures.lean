import Fre.State.ArchivedRows

/-!
# Archiving with failing statements

The loop of `flush_old_epochs` looks at the outcome of neither of its two
statements, so a `COPY` that fails is followed by the `DELETE` all the same.
-/

namespace Fre
namespace State
namespace TieredStore

open Foundation

/-- The epochs that a flush with these faults goes through. -/
def processedEpochs (config : DuckDbConfig) (now : Int64)
    (faults : FlushFaults) (store : TieredStore) : List UInt64 :=
  if faults.connectFails || faults.selectFails then []
  else store.archivedEpochs config now

/-- A flush is its loop over these epochs. -/
theorem flushOldEpochs_eq_run
    (config : DuckDbConfig)
    (now : Int64)
    (faults : FlushFaults)
    (store : TieredStore) :
    store.flushOldEpochs config now faults =
      Machine.run (archiveEpoch faults) store
        (store.processedEpochs config now faults) := by
  unfold flushOldEpochs processedEpochs archivedEpochs
  cases available : store.warm.available with
  | false => simp
  | true =>
      rw [if_neg (by simp)]
      by_cases early : currentEpoch config now <
          config.warmEpochRetention.toUInt64
      · have notReached : ¬ (true = true ∧
            config.warmEpochRetention.toUInt64 ≤ currentEpoch config now) :=
          fun both => UInt64.not_le.mpr early both.2
        rw [if_pos early, if_neg notReached, ite_self]
        rfl
      · have reached : true = true ∧
            config.warmEpochRetention.toUInt64 ≤ currentEpoch config now :=
          ⟨rfl, UInt64.not_lt.mp early⟩
        rw [if_neg early, if_pos reached]
        split
        · rfl
        · rfl

theorem nodup_processedEpochs
    (config : DuckDbConfig)
    (now : Int64)
    (faults : FlushFaults)
    (store : TieredStore) :
    (store.processedEpochs config now faults).Nodup := by
  unfold processedEpochs
  split
  · exact List.nodup_nil
  · exact nodup_archivedEpochs config now store

/-- An epoch is processed because the table has a row of it. -/
theorem exists_row_of_mem_processedEpochs
    {config : DuckDbConfig}
    {now : Int64}
    {faults : FlushFaults}
    {store : TieredStore}
    {epoch : UInt64}
    (member : epoch ∈ store.processedEpochs config now faults) :
    ∃ row value, store.tableRow row = some value ∧ row.key.epoch = epoch := by
  unfold processedEpochs archivedEpochs oldEpochs at member
  split at member
  · exact absurd member List.not_mem_nil
  · split at member
    · rw [List.mem_dedup, List.mem_filter] at member
      obtain ⟨⟨row, value⟩, rowMember, rfl⟩ := List.mem_map.mp member.1
      exact ⟨row, value, AList.mem_lookup_iff.mpr rowMember, rfl⟩
    · exact absurd member List.not_mem_nil

section Loop

variable {faults : FlushFaults} {store after : TieredStore} {epoch : UInt64}
  {epochs : List UInt64} (row : RowKey)

/-- A pass through the loop deletes the rows of its epoch unless the `DELETE`
fails. -/
theorem tableRow_archiveEpoch
    (archived : archiveEpoch faults store epoch = some after) :
    after.tableRow row =
      if row.key.epoch = epoch ∧ faults.deleteFails epoch = false then none
      else store.tableRow row := by
  unfold archiveEpoch at archived
  split at archived
  · cases archived
  · rw [Option.some.injEq] at archived
    subst archived
    cases deletes : faults.deleteFails epoch with
    | true =>
        cases copies : faults.copyFails epoch with
        | true => simp
        | false => simp
    | false =>
        cases copies : faults.copyFails epoch with
        | true => simp [tableRow_deleteEpoch]
        | false => simp [tableRow_deleteEpoch]

/-- A pass through the loop writes the file of its epoch unless the `COPY`
fails. -/
theorem archivedRow_archiveEpoch
    (archived : archiveEpoch faults store epoch = some after) :
    after.archivedRow row =
      if row.key.epoch = epoch ∧ faults.copyFails epoch = false then
        store.tableRow row
      else store.archivedRow row := by
  unfold archiveEpoch at archived
  split at archived
  · cases archived
  · rw [Option.some.injEq] at archived
    subst archived
    cases copies : faults.copyFails epoch with
    | true =>
        cases deletes : faults.deleteFails epoch with
        | true => simp
        | false => simp
    | false =>
        cases deletes : faults.deleteFails epoch with
        | true => simp [archivedRow_copyEpoch]
        | false => simp [archivedRow_copyEpoch]

/-- The whole loop, for a row in the table. -/
theorem tableRow_run_archiveEpoch
    (archived : Machine.run (archiveEpoch faults) store epochs = some after) :
    after.tableRow row =
      if row.key.epoch ∈ epochs ∧ faults.deleteFails row.key.epoch = false then
        none
      else store.tableRow row := by
  induction epochs generalizing store with
  | nil =>
      cases archived
      simp
  | cons first rest inductionHypothesis =>
      obtain ⟨next, stepped, restArchived⟩ :=
        (Machine.run_cons_eq_some_iff _ _ _ _ _).1 archived
      rw [inductionHypothesis restArchived, tableRow_archiveEpoch row stepped]
      by_cases same : row.key.epoch = first
      · subst same
        cases deletes : faults.deleteFails row.key.epoch with
        | true => simp
        | false => simp
      · simp [same]

/-- The whole loop, for a row in the archive. -/
theorem archivedRow_run_archiveEpoch
    (distinct : epochs.Nodup)
    (archived : Machine.run (archiveEpoch faults) store epochs = some after) :
    after.archivedRow row =
      if row.key.epoch ∈ epochs ∧ faults.copyFails row.key.epoch = false then
        store.tableRow row
      else store.archivedRow row := by
  induction epochs generalizing store with
  | nil =>
      cases archived
      simp
  | cons first rest inductionHypothesis =>
      obtain ⟨next, stepped, restArchived⟩ :=
        (Machine.run_cons_eq_some_iff _ _ _ _ _).1 archived
      obtain ⟨absent, restDistinct⟩ := List.nodup_cons.mp distinct
      rw [inductionHypothesis restDistinct restArchived,
        tableRow_archiveEpoch row stepped, archivedRow_archiveEpoch row stepped]
      by_cases same : row.key.epoch = first
      · subst same
        simp [absent]
      · simp [same]

/-- Without a failing statement the rows of the epochs leave the table. -/
theorem tableRow_archiveAll
    (store : TieredStore)
    (epochs : List UInt64) :
    (store.archiveAll epochs).tableRow row =
      if row.key.epoch ∈ epochs then none else store.tableRow row := by
  have looped := tableRow_run_archiveEpoch row
    (store.run_archiveEpoch_none epochs)
  simpa [FlushFaults.none] using looped

/-- They are in the archive instead. -/
theorem archivedRow_archiveAll
    (store : TieredStore)
    (distinct : epochs.Nodup) :
    (store.archiveAll epochs).archivedRow row =
      if row.key.epoch ∈ epochs then store.tableRow row
      else store.archivedRow row := by
  have looped := archivedRow_run_archiveEpoch row distinct
    (store.run_archiveEpoch_none epochs)
  simpa [FlushFaults.none] using looped

end Loop

/-- Every row of the table is still there or in a file that this flush has
written. -/
def KeptOrArchived (config : DuckDbConfig) (now : Int64)
    (faults : FlushFaults) (store after : TieredStore) : Prop :=
  ∀ row value, store.tableRow row = some value →
    after.tableRow row = some value ∨
      (row.key.epoch ∈ store.processedEpochs config now faults ∧
        faults.copyFails row.key.epoch = false ∧
        after.archivedRow row = some value)

/-- A flush that returns keeps or archives every row exactly if it fails to
delete every epoch that it fails to copy. -/
theorem keptOrArchived_iff
    (config : DuckDbConfig)
    (now : Int64)
    (faults : FlushFaults)
    (store after : TieredStore)
    (returned : store.flushOldEpochs config now faults = some after) :
    KeptOrArchived config now faults store after ↔
      ∀ epoch ∈ store.processedEpochs config now faults,
        faults.copyFails epoch = true → faults.deleteFails epoch = true := by
  rw [flushOldEpochs_eq_run] at returned
  have distinct := nodup_processedEpochs config now faults store
  constructor
  · intro kept epoch member copyFails
    obtain ⟨row, value, found, rfl⟩ := exists_row_of_mem_processedEpochs member
    by_contra deletes
    rw [Bool.not_eq_true] at deletes
    rcases kept row value found with stays | ⟨-, copied, -⟩
    · rw [tableRow_run_archiveEpoch row returned, if_pos ⟨member, deletes⟩]
        at stays
      cases stays
    · rw [copyFails] at copied
      cases copied
  · intro paired row value found
    rw [tableRow_run_archiveEpoch row returned]
    split
    · next deleted =>
        obtain ⟨member, deletes⟩ := deleted
        have copied : faults.copyFails row.key.epoch = false := by
          rw [← Bool.not_eq_true]
          intro copyFails
          rw [paired _ member copyFails] at deletes
          cases deletes
        refine .inr ⟨member, copied, ?_⟩
        rw [archivedRow_run_archiveEpoch row distinct returned,
          if_pos ⟨member, copied⟩, found]
    · exact .inl found

/-- One row of epoch 0, of one. -/
def aliceArchivable : TieredStore where
  warm :=
    { available := true
      rows := (∅ : AList fun _ : RowKey => WindowValue).insert
        (bindKey ⟨"tenant", "alice", "logins", 0⟩) ⟨.finite 1, 1⟩ }
  cold := ∅

/-- The statements of epoch 0 both fail. -/
theorem keptOrArchived_bothFail :
    ∃ after, aliceArchivable.flushOldEpochs archiveConfig 600000
        { copyFails := fun _ => true, deleteFails := fun _ => true } =
          some after ∧
      KeptOrArchived archiveConfig 600000
        { copyFails := fun _ => true, deleteFails := fun _ => true }
        aliceArchivable after :=
  ⟨_, rfl, (keptOrArchived_iff _ _ _ _ _ rfl).mpr fun _ _ _ => rfl⟩

/-- The `COPY` of epoch 0 fails and its `DELETE` does not: the row is gone, and
no file was written. -/
theorem uncopied_row_deleted :
    ∃ after, aliceArchivable.flushOldEpochs archiveConfig 600000
        { copyFails := fun _ => true } = some after ∧
      after.warm.rows.entries = [] ∧ after.cold.entries = [] ∧
      ¬ KeptOrArchived archiveConfig 600000 { copyFails := fun _ => true }
        aliceArchivable after := by
  refine ⟨_, rfl, rfl, rfl, fun kept => ?_⟩
  rcases kept (bindKey ⟨"tenant", "alice", "logins", 0⟩) ⟨.finite 1, 1⟩
    (AList.lookup_insert _) with stays | ⟨-, copied, -⟩
  · cases stays
  · cases copied

end TieredStore
end State
end Fre
