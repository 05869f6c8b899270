import Fre.State.ArchiveFailures
import Fre.State.WriteBackWindowStore

/-!
# Range queries of the write-back store

`query_range` flushes and then asks the warm tier.  The flush has no result, so
a query over a table that could not be brought up to date is answered all the
same.  And nobody tells the primary that an epoch was archived: a later write to
it is flushed as the full value, beside the one in the archive.
-/

namespace Fre
namespace State

open Foundation FloatValue

/-- All keys of the range are among the keys. -/
def RangeQuery.Within (keys : Set WindowKey) (query : RangeQuery) : Prop :=
  ∀ epoch, query.epochStart ≤ epoch → epoch ≤ query.epochEnd →
    query.keyAt epoch ∈ keys

theorem RangeQuery.keyAt_exactly
    {key : WindowKey}
    {epoch : UInt64}
    (fromStart : (exactly key).epochStart ≤ epoch)
    (toEnd : epoch ≤ (exactly key).epochEnd) :
    (exactly key).keyAt epoch = key := by
  have same : epoch = key.epoch := UInt64.le_antisymm toEnd fromStart
  rw [same]
  rfl

theorem RangeQuery.within_exactly
    {keys : Set WindowKey}
    {key : WindowKey}
    (member : key ∈ keys) :
    (exactly key).Within keys := by
  intro epoch fromStart toEnd
  rw [keyAt_exactly fromStart toEnd]
  exact member

/-- The write-back store with the archive of its warm tier. -/
structure ArchivingStore (layout : StoreLayout) where
  store : WriteBackWindowStore layout
  cold : AList ParquetFile

namespace ArchivingStore

variable {layout : StoreLayout}

/-- The table and the archive. -/
def tiered (system : ArchivingStore layout) : TieredStore where
  warm := system.store.warm
  cold := system.cold

/-- `flush_sync`. -/
def flushSync (system : ArchivingStore layout) (flush : Flush) :
    ArchivingStore layout :=
  { system with store := system.store.flushSync flush }

/-- `query_range`. -/
def queryRange
    (database : Database)
    (config : DuckDbConfig)
    (system : ArchivingStore layout)
    (flush : Flush)
    (faults : Faults)
    (query : RangeQuery) :
    Except StoreError Double × ArchivingStore layout :=
  if !system.store.warm.available then
    (.error DuckDbWindowStore.unavailable, system)
  else
    ((system.flushSync flush).tiered.queryRange database config faults query,
      system.flushSync flush)

/-- The calls of a client, and the flushes of the warm tier. -/
inductive Call
  | compareAndSwap (key : WindowKey) (expectedVal newVal : WindowValue)
  | flushSync (flush : Flush)
  | queryRange (query : RangeQuery) (flush : Flush) (faults : Faults)
  | flushOldEpochs (now : Int64)

/-- One call. -/
def step
    (database : Database)
    (config : DuckDbConfig)
    (system : ArchivingStore layout) : Call → Option (ArchivingStore layout)
  | .compareAndSwap key expectedVal newVal =>
      some { system with
        store := (system.store.compareAndSwap key expectedVal newVal).2 }
  | .flushSync flush =>
      if system.store.Enumerates flush then some (system.flushSync flush)
      else none
  | .queryRange query flush faults =>
      if system.store.Enumerates flush then
        some (system.queryRange database config flush faults query).2
      else none
  | .flushOldEpochs now =>
      if config.archives then
        (system.tiered.flushOldEpochs config now .none).map fun after =>
          { store := { system.store with warm := after.warm }
            cold := after.cold }
      else none

/-- The calls are about the keys. -/
def Call.Over (keys : Set WindowKey) : Call → Prop
  | .compareAndSwap key _ _ => key ∈ keys
  | .queryRange query _ _ => query.Within keys
  | _ => True

/-- The aggregate of a key in the primary, as a number. -/
def primaryTotal (system : ArchivingStore layout) (key : WindowKey) : ℚ :=
  (system.store.primary.get key).aggregate.toRat

/-- The aggregate of a key in the table, as a number. -/
def tableTotal (system : ArchivingStore layout) (key : WindowKey) : ℚ :=
  (DuckDbWindowStore.rowValue system.store.warm.rows key).aggregate.toRat

/-- The aggregate of a key in the archive, as a number. -/
def archivedTotal (system : ArchivingStore layout) (key : WindowKey) : ℚ :=
  TieredStore.contribution (system.tiered.archivedRow (bindKey key))

theorem contribution_tableRow
    (system : ArchivingStore layout)
    (key : WindowKey) :
    TieredStore.contribution (system.tiered.tableRow (bindKey key)) =
      system.tableTotal key := by
  unfold TieredStore.contribution TieredStore.tableRow tableTotal
    DuckDbWindowStore.rowValue tiered
  cases system.store.warm.rows.lookup (bindKey key) with
  | none => rfl
  | some value => rfl

/-- What a query finds in the table. -/
theorem total_table
    (system : ArchivingStore layout)
    (query : RangeQuery) :
    total (query.bound.column system.store.warm.rows.entries) =
      query.sumOver fun epoch => system.tableTotal (query.keyAt epoch) := by
  rw [RangeQuery.total_bound_column]
  apply RangeQuery.sumOver_congr
  intro epoch _ _
  exact system.contribution_tableRow (query.keyAt epoch)

section Flushing

variable {keys : Set WindowKey} {system : ArchivingStore layout} {flush : Flush}

/-- After a flush that writes, the dirty keys are in the table as they are in
the primary. -/
theorem rowValue_flushSync_of_writes
    (boundDistinct : Set.InjOn bindKey keys)
    (available : system.store.warm.available = true)
    (noExpired : system.store.expiredSet = ∅)
    (dirtyKnown : ∀ key ∈ system.store.dirtySet, key ∈ keys)
    (enumerates : system.store.Enumerates flush)
    (writes : flush.Writes)
    {key : WindowKey}
    (member : key ∈ keys) :
    DuckDbWindowStore.rowValue (system.store.flushSync flush).warm.rows key =
      if key ∈ system.store.dirtySet then system.store.primary.get key
      else DuckDbWindowStore.rowValue system.store.warm.rows key := by
  have orderKnown : ∀ other ∈ flush.dirtyOrder, other ∈ keys := by
    intro other present
    exact dirtyKnown other (enumerates.mem_dirtyOrder_iff.mp present)
  rw [WriteBackWindowStore.flushSync_of_writes available writes,
    enumerates.expiredOrder_eq_nil noExpired]
  change DuckDbWindowStore.rowValue (Table.insertAll _ _) key = _
  rw [WriteBackWindowStore.rowValue_insertAll_readBatch boundDistinct
    system.store.primary enumerates.1.1 orderKnown system.store.warm.rows
    member]
  simp only [enumerates.mem_dirtyOrder_iff]

/-- A flush that fails changes nothing. -/
theorem flushSync_eq_self_of_not_writes
    (available : system.store.warm.available = true)
    (noExpired : system.store.expiredSet = ∅)
    (enumerates : system.store.Enumerates flush)
    (fails : ¬ flush.Writes) :
    system.flushSync flush = system := by
  have same : system.store.flushSync flush = system.store := by
    rw [WriteBackWindowStore.flushSync_of_not_writes available fails,
      enumerates.expiredOrder_eq_nil noExpired, enumerates.1.2, ← noExpired]
    rfl
  rw [ArchivingStore.flushSync, same]

end Flushing

/-! ### Queries after failed flushes -/

/-- The call is no flush of the warm tier. -/
def Call.KeepsEpochs : Call → Prop
  | .flushOldEpochs _ => False
  | _ => True

/-- If the call is a query with a result, then that is the sum of the aggregates
that the primary has in the range. -/
def ReportsCurrent
    (database : Database)
    (config : DuckDbConfig)
    (system : ArchivingStore layout) : Call → Prop
  | .queryRange query flush faults =>
      ∀ value,
        (system.queryRange database config flush faults query).1 = .ok value →
          value = .finite
            (query.sumOver fun epoch => system.primaryTotal (query.keyAt epoch))
  | _ => True

/-- If the call is a query that the warm tier answers, then its flush is written
or the range has the same total in the table as in the primary. -/
def SeesWrites (system : ArchivingStore layout) : Call → Prop
  | .queryRange query flush faults =>
      system.store.warm.available = true → faults.Passes 0 →
        flush.Writes ∨
          (query.sumOver fun epoch => system.tableTotal (query.keyAt epoch)) =
            query.sumOver fun epoch => system.primaryTotal (query.keyAt epoch)
  | _ => True

/-- If the call is a query, then the range has only finite aggregates in the
primary, and the rows it selects add up without rounding. -/
def ExactCall (system : ArchivingStore layout) : Call → Prop
  | .queryRange query flush _ =>
      (∀ epoch, query.epochStart ≤ epoch → epoch ≤ query.epochEnd →
        (system.store.primary.get (query.keyAt epoch)).aggregate =
          .finite (system.primaryTotal (query.keyAt epoch))) ∧
        ExactColumn .binary64 (query.bound.column
          (system.flushSync flush).store.warm.rows.entries)
  | _ => True

/-- Nothing is archived or expired, and the dirty keys are the only ones on
which an open table differs from the primary. -/
structure Agreeing (keys : Set WindowKey) (system : ArchivingStore layout) :
    Prop where
  noArchive : system.cold = ∅
  noExpired : system.store.expiredSet = ∅
  tracked : system.store.warm.available = true →
    WriteBackWindowStore.Tracked keys system.store

section Queries

variable {keys : Set WindowKey} {system : ArchivingStore layout} {flush : Flush}

/-- After a flush that writes, the table reads as the primary does. -/
theorem Agreeing.rowValue_flushSync
    (boundDistinct : Set.InjOn bindKey keys)
    (agreeing : Agreeing keys system)
    (available : system.store.warm.available = true)
    (enumerates : system.store.Enumerates flush)
    (writes : flush.Writes)
    {key : WindowKey}
    (member : key ∈ keys) :
    DuckDbWindowStore.rowValue (system.store.flushSync flush).warm.rows key =
      system.store.primary.get key := by
  have tracked := agreeing.tracked available
  rw [rowValue_flushSync_of_writes boundDistinct available agreeing.noExpired
    tracked.dirtyKnown enumerates writes member]
  split
  · rfl
  · next clean =>
      by_contra differs
      rcases tracked.owed key member differs with dirty | expired
      · exact clean dirty
      · rw [agreeing.noExpired] at expired
        exact Finset.notMem_empty key expired

/-- A flush with any outcome leaves no difference outside the dirty keys. -/
theorem Agreeing.flushSync
    (boundDistinct : Set.InjOn bindKey keys)
    (agreeing : Agreeing keys system)
    (enumerates : system.store.Enumerates flush) :
    Agreeing keys (system.flushSync flush) where
  noArchive := agreeing.noArchive
  noExpired := WriteBackWindowStore.expiredSet_flushSync system.store flush
  tracked := by
    intro stillAvailable
    change (system.store.flushSync flush).warm.available = true
      at stillAvailable
    have available : system.store.warm.available = true := by
      rw [← WriteBackWindowStore.available_flushSync system.store flush]
      exact stillAvailable
    have tracked := agreeing.tracked available
    by_cases writes : flush.Writes
    · have synced : WriteBackWindowStore.Synced keys
          (system.store.flushSync flush) := by
        refine ⟨?_, ?_, WriteBackWindowStore.expiredSet_flushSync _ _⟩
        · intro key member
          rw [DuckDbWindowStore.get_none stillAvailable, Except.ok.injEq,
            agreeing.rowValue_flushSync boundDistinct available enumerates
              writes member, WriteBackWindowStore.primary_flushSync]
        · rw [WriteBackWindowStore.flushSync_of_writes available writes]
      exact .of_synced stillAvailable synced
    · rw [flushSync_eq_self_of_not_writes available agreeing.noExpired
        enumerates writes]
      exact tracked

theorem Agreeing.compareAndSwap
    (distinct : Set.InjOn makeKey keys)
    (agreeing : Agreeing keys system)
    {key : WindowKey}
    (member : key ∈ keys)
    (expectedVal newVal : WindowValue) :
    Agreeing keys { system with
      store := (system.store.compareAndSwap key expectedVal newVal).2 } where
  noArchive := agreeing.noArchive
  noExpired := by
    rw [← agreeing.noExpired]
    exact WriteBackWindowStore.expiredSet_compareAndSwap _ _ _ _
  tracked := by
    intro stillAvailable
    apply (agreeing.tracked ?available).compareAndSwap distinct member
    rw [← stillAvailable]
    rw [WriteBackWindowStore.warm_compareAndSwap]

/-- A query leaves the store as it is or flushes it. -/
theorem queryRange_snd
    (database : Database)
    (config : DuckDbConfig)
    (system : ArchivingStore layout)
    (flush : Flush)
    (faults : Faults)
    (query : RangeQuery) :
    (system.queryRange database config flush faults query).2 =
      if system.store.warm.available then system.flushSync flush
      else system := by
  unfold ArchivingStore.queryRange
  cases system.store.warm.available with
  | false => rfl
  | true => rfl

theorem agreeing_step
    (database : Database)
    (config : DuckDbConfig)
    (distinct : Set.InjOn makeKey keys)
    (boundDistinct : Set.InjOn bindKey keys)
    (system : ArchivingStore layout)
    (call : Call)
    (next : ArchivingStore layout)
    (agreeing : Agreeing keys system)
    (condition : call.Over keys ∧ call.KeepsEpochs)
    (stepped : step database config system call = some next) :
    Agreeing keys next := by
  cases call with
  | compareAndSwap key expectedVal newVal =>
      cases stepped
      exact agreeing.compareAndSwap distinct condition.1 expectedVal newVal
  | flushSync flush =>
      rw [step] at stepped
      split at stepped
      · next enumerates =>
          cases stepped
          exact agreeing.flushSync boundDistinct enumerates
      · cases stepped
  | queryRange query flush faults =>
      rw [step] at stepped
      split at stepped
      · next enumerates =>
          cases stepped
          rw [queryRange_snd]
          split
          · exact agreeing.flushSync boundDistinct enumerates
          · exact agreeing
      · cases stepped
  | flushOldEpochs now => exact absurd condition.2 id

/-- Without an archive, an open warm tier whose `SELECT` goes through answers
with the total of the table. -/
theorem queryRange_eq_ok_iff_of_noArchive
    (database : Database)
    (config : DuckDbConfig)
    {store : TieredStore}
    (available : store.warm.available = true)
    (noArchive : store.cold = ∅)
    {query : RangeQuery}
    (exact : ExactColumn .binary64
      (query.bound.column store.warm.rows.entries))
    (faults : Faults)
    (value : Double) :
    store.queryRange database config faults query = .ok value ↔
      faults.Passes 0 ∧
        value = .finite
          (total (query.bound.column store.warm.rows.entries)) := by
  have nothingCold : store.coldSum database config faults query =
      .finite 0 := by
    unfold TieredStore.coldSum
    rw [noArchive]
    exact ite_self _
  have added : add .binary64
      (.finite (total (query.bound.column store.warm.rows.entries)))
      (.finite 0) =
        .finite (total (query.bound.column store.warm.rows.entries)) := by
    rw [← List.append_nil (query.bound.column _)] at exact
    simpa using exact.add_total
  unfold TieredStore.queryRange Faults.Passes
  rw [available, if_neg (by simp), TieredStore.coalesceSum_eq exact,
    nothingCold]
  dsimp only
  rw [added]
  cases prepared : faults.prepareFails 0 with
  | true => simp
  | false =>
      cases executed : faults.executeError 0 with
      | some text => simp
      | none => simp [eq_comm]

/-- What a query finds in the table after its flush. -/
theorem Agreeing.total_flushSync
    (boundDistinct : Set.InjOn bindKey keys)
    (agreeing : Agreeing keys system)
    (available : system.store.warm.available = true)
    (enumerates : system.store.Enumerates flush)
    {query : RangeQuery}
    (within : query.Within keys) :
    total (query.bound.column
        (system.flushSync flush).store.warm.rows.entries) =
      if flush.Writes then
        query.sumOver fun epoch => system.primaryTotal (query.keyAt epoch)
      else query.sumOver fun epoch => system.tableTotal (query.keyAt epoch) := by
  rw [total_table]
  split
  · next writes =>
      apply RangeQuery.sumOver_congr
      intro epoch fromStart toEnd
      unfold tableTotal primaryTotal
      congr 2
      exact agreeing.rowValue_flushSync boundDistinct available enumerates
        writes (within epoch fromStart toEnd)
  · next fails =>
      rw [flushSync_eq_self_of_not_writes available agreeing.noExpired
        enumerates fails]

/-- A query reports the current total exactly if it sees the writes. -/
theorem reportsCurrent_iff
    (database : Database)
    (config : DuckDbConfig)
    (boundDistinct : Set.InjOn bindKey keys)
    (system : ArchivingStore layout)
    (call : Call)
    (next : ArchivingStore layout)
    (agreeing : Agreeing keys system)
    (condition : call.Over keys ∧ call.KeepsEpochs)
    (exact : system.ExactCall call)
    (stepped : step database config system call = some next) :
    system.ReportsCurrent database config call ↔ system.SeesWrites call := by
  cases call with
  | compareAndSwap key expectedVal newVal => rfl
  | flushSync flush => rfl
  | flushOldEpochs now => rfl
  | queryRange query flush faults =>
      rw [step] at stepped
      split at stepped
      · next enumerates =>
          rw [ReportsCurrent, SeesWrites, ArchivingStore.queryRange]
          cases available : system.store.warm.available with
          | false => simp
          | true =>
              have flushedAvailable :
                  (system.flushSync flush).tiered.warm.available = true := by
                change (system.store.flushSync flush).warm.available = true
                rw [WriteBackWindowStore.available_flushSync, available]
              rw [Bool.not_true, if_neg (by simp)]
              simp only [queryRange_eq_ok_iff_of_noArchive database config
                flushedAvailable agreeing.noArchive exact.2, forall_const]
              have found := agreeing.total_flushSync boundDistinct available
                enumerates condition.1
              change total (query.bound.column
                (system.flushSync flush).tiered.warm.rows.entries) = _ at found
              rw [found]
              by_cases writes : flush.Writes
              · simp [writes]
              · simp [writes]
      · cases stepped

/-- A new store over a table and an archive. -/
def create
    (layout : StoreLayout)
    (warm : DuckDbWindowStore)
    (cold : AList ParquetFile) : ArchivingStore layout where
  store := .create (.empty layout) warm .none
  cold := cold

theorem agreeing_create
    (layout : StoreLayout)
    (distinct : Set.InjOn makeKey keys)
    (boundDistinct : Set.InjOn bindKey keys)
    {warm : DuckDbWindowStore}
    (rowsKnown : ∀ row ∈ warm.rows, row.key ∈ keys) :
    Agreeing keys (create layout warm ∅) where
  noArchive := rfl
  noExpired := rfl
  tracked := by
    intro available
    apply WriteBackWindowStore.Tracked.of_synced available
    exact WriteBackWindowStore.synced_create distinct boundDistinct available
      rowsKnown

/-- In every run of a new store without archival, over keys with different key
strings, also when cut at the first NUL, and with aggregates that add up without
rounding: each query that returns a value returns the current total exactly if
each query that the warm tier answers has its flush written or finds the current
total in the table all the same. -/
theorem queries_current_iff
    (database : Database)
    (config : DuckDbConfig)
    (layout : StoreLayout)
    (keys : Set WindowKey)
    (distinct : Set.InjOn makeKey keys)
    (boundDistinct : Set.InjOn bindKey keys)
    (warm : DuckDbWindowStore)
    (rowsKnown : ∀ row ∈ warm.rows, row.key ∈ keys)
    (calls : List Call)
    (conditions : ∀ call ∈ calls, call.Over keys ∧ call.KeepsEpochs)
    (final : ArchivingStore layout)
    (ran : Machine.run (step database config) (create layout warm ∅) calls =
      some final)
    (exact : Machine.RunMeets (step database config) ExactCall
      (create layout warm ∅) calls) :
    Machine.RunMeets (step database config) (ReportsCurrent database config)
        (create layout warm ∅) calls ↔
      Machine.RunMeets (step database config) SeesWrites
        (create layout warm ∅) calls :=
  Machine.runMeets_congr
    (fun system call next agreeing condition _ =>
      agreeing_step database config distinct boundDistinct system call next
        agreeing condition)
    (reportsCurrent_iff database config boundDistinct)
    (agreeing_create layout distinct boundDistinct rowsKnown)
    conditions exact ran

end Queries

/-- One shard. -/
def oneShard : StoreLayout := ⟨fun _ => 0, 1, by decide⟩

/-- Alice's first write, of one. -/
def firstWrite : Call :=
  .compareAndSwap WriteBackWindowStore.aliceLogins {} ⟨.finite 1, 1⟩

/-- A flush of it. -/
def flushAlice (faults : Faults) : Flush where
  dirtyOrder := [WriteBackWindowStore.aliceLogins]
  expiredOrder := []
  upsertFaults := faults

/-- Alice's total in epoch 0. -/
def totalOfAlice : RangeQuery := .exactly WriteBackWindowStore.aliceLogins

/-- The first flush fails, the one of the query does not. -/
theorem queries_current_afterFailedFlush :
    Machine.RunMeets (step ⟨.sequential _, fun _ _ => none⟩ {})
      (ReportsCurrent ⟨.sequential _, fun _ _ => none⟩ {})
      (create oneShard ⟨true, ∅⟩ ∅)
      [firstWrite, .flushSync (flushAlice { commitFails := true }),
        .queryRange totalOfAlice (flushAlice .none) .none] := by
  refine (queries_current_iff _ _ oneShard {WriteBackWindowStore.aliceLogins}
    (Set.injOn_singleton _ _) (Set.injOn_singleton _ _) ⟨true, ∅⟩ (by simp) _
    ?conditions _ (Option.some_get (by decide +kernel)).symm ?exact).mpr ?sees
  case conditions =>
    intro call member
    simp only [List.mem_cons, List.not_mem_nil, or_false] at member
    rcases member with rfl | rfl | rfl
    · exact ⟨rfl, trivial⟩
    · exact ⟨trivial, trivial⟩
    · exact ⟨RangeQuery.within_exactly rfl, trivial⟩
  case exact =>
    refine ⟨trivial, ?_⟩
    rintro _ ⟨⟩
    refine ⟨trivial, fun flushed stepped => ?_⟩
    rw [step, if_pos (by decide +kernel)] at stepped
    cases stepped
    refine ⟨⟨?_, ?_⟩, fun _ _ => trivial⟩
    · intro epoch fromStart toEnd
      rw [totalOfAlice, RangeQuery.keyAt_exactly fromStart toEnd]
      decide +kernel
    · exact ExactColumn.of_eq_ofIntegers [1] (by decide +kernel) (by decide)
  case sees =>
    refine ⟨trivial, ?_⟩
    rintro _ ⟨⟩
    refine ⟨trivial, fun flushed stepped => ?_⟩
    exact ⟨fun _ _ => .inl (by decide), fun _ _ => trivial⟩

/-- The store after Alice's first write. -/
def written : ArchivingStore oneShard where
  store := ((create oneShard ⟨true, ∅⟩ ∅).store.compareAndSwap
    WriteBackWindowStore.aliceLogins {} ⟨.finite 1, 1⟩).2
  cold := ∅

/-- The flush of the query fails: it answers zero, and the primary has one. -/
theorem unflushed_write_missing :
    ∃ system : ArchivingStore oneShard,
      system.store.Enumerates (flushAlice { commitFails := true }) ∧
      (system.store.primary.get
        WriteBackWindowStore.aliceLogins).aggregate = .finite 1 ∧
      ∀ (database : Database) (config : DuckDbConfig),
        Machine.run (step database config) (create oneShard ⟨true, ∅⟩ ∅)
            [firstWrite] = some system ∧
          (system.queryRange database config
            (flushAlice { commitFails := true }) .none totalOfAlice).1 =
              .ok (.finite 0) ∧
          ¬ system.ReportsCurrent database config
            (.queryRange totalOfAlice (flushAlice { commitFails := true })
              .none) := by
  refine ⟨written, by decide +kernel, by decide +kernel, ?_⟩
  intro database config
  have answered : (written.queryRange database config
      (flushAlice { commitFails := true }) .none totalOfAlice).1 =
        .ok (.finite 0) := by
    change TieredStore.queryRange database config .none
      (written.flushSync (flushAlice { commitFails := true })).tiered
      totalOfAlice = _
    rw [queryRange_eq_ok_iff_of_noArchive]
    · exact ⟨by decide, by decide +kernel⟩
    · decide +kernel
    · rfl
    · exact ExactColumn.of_eq_ofIntegers [] (by decide +kernel) (by decide)
  refine ⟨rfl, answered, ?_⟩
  intro current
  have same := current _ answered
  rw [FloatValue.finite.injEq] at same
  revert same
  decide +kernel
end ArchivingStore
end State
end Fre
