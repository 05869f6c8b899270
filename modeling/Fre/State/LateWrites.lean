import Fre.State.WriteBackQueries

/-!
# Late writes under the write-back store

A flush of the write-back store writes full values into the table, also those of
an epoch whose rows are in the archive already; a range query adds the two.  So
the totals are right for exactly as long as no archived aggregate is written
again, nor an epoch archived while a written key of it waits for its flush.
-/

namespace Fre
namespace State
namespace ArchivingStore

open Foundation FloatValue

variable {layout : StoreLayout}

/-- No statement of the flush that belongs to the call fails. -/
def Call.Succeeds : Call → Prop
  | .flushSync flush => flush.Succeeds
  | .queryRange _ flush _ => flush.Succeeds
  | _ => True

/-- Every query over the keys returns the sum of the aggregates that the primary
has in the range, as long as no statement fails. -/
def QueriesRight
    (database : Database)
    (config : DuckDbConfig)
    (keys : Set WindowKey)
    (system : ArchivingStore layout) : Prop :=
  ∀ (query : RangeQuery) (flush : Flush),
    query.Within keys → query.key.PlainTexts →
    system.store.Enumerates flush → flush.Succeeds →
      (system.queryRange database config flush .none query).1 =
        .ok (.finite
          (query.sumOver fun epoch => system.primaryTotal (query.keyAt epoch)))

/-- What a flush leaves in both tiers adds up without rounding. -/
def ExactAfterFlush (system : ArchivingStore layout) : Prop :=
  ∀ flush : Flush, system.store.Enumerates flush → flush.Succeeds →
    (system.flushSync flush).tiered.ExactTotals

/-- What a query finds for a key once it has flushed. -/
def foundTotal (system : ArchivingStore layout) (key : WindowKey) : ℚ :=
  (if key ∈ system.store.dirtySet then system.primaryTotal key
    else system.tableTotal key) + system.archivedTotal key

/-- A query finds what the primary has. -/
def Balanced (keys : Set WindowKey) (system : ArchivingStore layout) : Prop :=
  ∀ key ∈ keys, system.foundTotal key = system.primaryTotal key

/-- A swap that succeeds is not about an archived aggregate; a flush of the warm
tier archives no row of a dirty key, and the rows of the others for the first
time. -/
def OnTime
    (config : DuckDbConfig)
    (keys : Set WindowKey)
    (system : ArchivingStore layout) : Call → Prop
  | .compareAndSwap key expectedVal _ =>
      (system.store.primary.get key).version = expectedVal.version →
        system.archivedTotal key = 0
  | .flushOldEpochs now =>
      ∀ key ∈ keys, key.epoch ∈ system.tiered.archivedEpochs config now →
        if key ∈ system.store.dirtySet then system.tableTotal key = 0
        else system.archivedTotal key = 0
  | _ => True

/-- The table is open, nothing is expired, and without an archive directory there
is nothing of the keys in the archive. -/
structure Serving (config : DuckDbConfig) (keys : Set WindowKey)
    (system : ArchivingStore layout) : Prop where
  available : system.store.warm.available = true
  noExpired : system.store.expiredSet = ∅
  dirtyKnown : ∀ key ∈ system.store.dirtySet, key ∈ keys
  unread : config.parquetArchiveDir.isEmpty = true →
    ∀ key ∈ keys, system.archivedTotal key = 0

section Totals

variable {config : DuckDbConfig} {keys : Set WindowKey}
  {system : ArchivingStore layout} {flush : Flush}

theorem archivedTotal_flushSync
    (system : ArchivingStore layout)
    (flush : Flush)
    (key : WindowKey) :
    (system.flushSync flush).archivedTotal key = system.archivedTotal key := rfl

theorem primaryTotal_flushSync
    (system : ArchivingStore layout)
    (flush : Flush)
    (key : WindowKey) :
    (system.flushSync flush).primaryTotal key = system.primaryTotal key := by
  change ((system.store.flushSync flush).primary.get key).aggregate.toRat = _
  rw [WriteBackWindowStore.primary_flushSync]
  rfl

theorem Serving.tableTotal_flushSync
    (boundDistinct : Set.InjOn bindKey keys)
    (serving : Serving config keys system)
    (enumerates : system.store.Enumerates flush)
    (succeeds : flush.Succeeds)
    {key : WindowKey}
    (member : key ∈ keys) :
    (system.flushSync flush).tableTotal key =
      if key ∈ system.store.dirtySet then system.primaryTotal key
      else system.tableTotal key := by
  have written := rowValue_flushSync_of_writes boundDistinct serving.available
    serving.noExpired serving.dirtyKnown enumerates succeeds.writes member
  unfold tableTotal primaryTotal
  change (DuckDbWindowStore.rowValue
    (system.store.flushSync flush).warm.rows key).aggregate.toRat = _
  rw [written]
  split
  · rfl
  · rfl

theorem dirtySet_flushSync
    (available : system.store.warm.available = true)
    (succeeds : flush.Succeeds) :
    (system.flushSync flush).store.dirtySet = ∅ := by
  change (system.store.flushSync flush).dirtySet = ∅
  rw [WriteBackWindowStore.flushSync_of_writes available succeeds.writes]

/-- A flush changes nothing of what a query finds. -/
theorem Serving.foundTotal_flushSync
    (boundDistinct : Set.InjOn bindKey keys)
    (serving : Serving config keys system)
    (enumerates : system.store.Enumerates flush)
    (succeeds : flush.Succeeds)
    {key : WindowKey}
    (member : key ∈ keys) :
    (system.flushSync flush).foundTotal key = system.foundTotal key := by
  unfold foundTotal
  rw [dirtySet_flushSync serving.available succeeds,
    if_neg (Finset.notMem_empty key), archivedTotal_flushSync,
    serving.tableTotal_flushSync boundDistinct enumerates succeeds member]

/-- The total of a range after the flush. -/
theorem Serving.rangeTotal_flushSync
    (boundDistinct : Set.InjOn bindKey keys)
    (serving : Serving config keys system)
    (enumerates : system.store.Enumerates flush)
    (succeeds : flush.Succeeds)
    {query : RangeQuery}
    (within : query.Within keys)
    (plain : query.key.PlainTexts) :
    (system.flushSync flush).tiered.rangeTotal query =
      query.sumOver fun epoch => system.foundTotal (query.keyAt epoch) := by
  have warmTotal := (system.flushSync flush).total_table query
  have coldTotal :=
    (system.flushSync flush).tiered.total_column_archivedRows plain
  rw [RangeQuery.bound_eq plain] at warmTotal
  rw [TieredStore.rangeTotal, coldTotal]
  change total (query.column
    (system.flushSync flush).store.warm.rows.entries) + _ = _
  rw [warmTotal, ← RangeQuery.sumOver_add]
  apply RangeQuery.sumOver_congr
  intro epoch fromStart toEnd
  rw [serving.tableTotal_flushSync boundDistinct enumerates succeeds
    (within epoch fromStart toEnd)]
  rfl

/-- A query returns the sum of what it finds. -/
theorem Serving.queryRange_eq
    (database : Database)
    (plainDir : PlainText config.parquetArchiveDir)
    (boundDistinct : Set.InjOn bindKey keys)
    (serving : Serving config keys system)
    (exact : system.ExactAfterFlush)
    (enumerates : system.store.Enumerates flush)
    (succeeds : flush.Succeeds)
    {query : RangeQuery}
    (within : query.Within keys)
    (plain : query.key.PlainTexts) :
    (system.queryRange database config flush .none query).1 =
      .ok (.finite
        (query.sumOver fun epoch => system.foundTotal (query.keyAt epoch))) := by
  have stillAvailable :
      (system.flushSync flush).tiered.warm.available = true := by
    change (system.store.flushSync flush).warm.available = true
    rw [WriteBackWindowStore.available_flushSync, serving.available]
  have reads : (system.flushSync flush).tiered.ReadsFiles config query := by
    intro noDir
    rw [TieredStore.total_column_archivedRows _ plain]
    apply RangeQuery.sumOver_eq_zero
    intro epoch fromStart toEnd
    exact serving.unread noDir _ (within epoch fromStart toEnd)
  unfold queryRange
  rw [serving.available, Bool.not_true, if_neg (by simp)]
  dsimp only
  rw [TieredStore.queryRange_eq_of_exactColumn database plainDir stillAvailable
      reads plain (exact flush enumerates succeeds query plain),
    serving.rangeTotal_flushSync boundDistinct enumerates succeeds within plain]

/-- All queries are right exactly if for every key the right total is found. -/
theorem queriesRight_iff_balanced
    (database : Database)
    (plainDir : PlainText config.parquetArchiveDir)
    (plain : ∀ key ∈ keys, key.PlainTexts)
    (boundDistinct : Set.InjOn bindKey keys)
    (system : ArchivingStore layout)
    (serving : Serving config keys system)
    (exact : system.ExactAfterFlush) :
    system.QueriesRight database config keys ↔ system.Balanced keys := by
  constructor
  · intro right key member
    let flush : Flush :=
      { dirtyOrder := system.store.dirtySet.toList
        expiredOrder := system.store.expiredSet.toList }
    have enumerates : system.store.Enumerates flush :=
      ⟨⟨Finset.nodup_toList _, Finset.toList_toFinset _⟩,
        Finset.nodup_toList _, Finset.toList_toFinset _⟩
    have succeeds : flush.Succeeds := ⟨rfl, fun _ => rfl⟩
    have within := RangeQuery.within_exactly member
    have answer := right (.exactly key) flush within (plain key member)
      enumerates succeeds
    rw [serving.queryRange_eq database plainDir boundDistinct exact enumerates
        succeeds within (plain key member), Except.ok.injEq,
      FloatValue.finite.injEq, RangeQuery.sumOver_exactly,
      RangeQuery.sumOver_exactly] at answer
    exact answer
  · intro balanced query flush within plainQuery enumerates succeeds
    rw [serving.queryRange_eq database plainDir boundDistinct exact enumerates
      succeeds within plainQuery]
    congr 2
    apply RangeQuery.sumOver_congr
    intro epoch fromStart toEnd
    exact balanced _ (within epoch fromStart toEnd)

end Totals

section Steps

variable {config : DuckDbConfig} {keys : Set WindowKey}
  {system : ArchivingStore layout} {flush : Flush}

/-- A swap keeps the balance exactly if it fails or its key is not in the
archive. -/
theorem Balanced.compareAndSwap_iff
    (distinct : Set.InjOn makeKey keys)
    (balanced : system.Balanced keys)
    {key : WindowKey}
    (member : key ∈ keys)
    (expectedVal newVal : WindowValue) :
    Balanced keys { system with
        store := (system.store.compareAndSwap key expectedVal newVal).2 } ↔
      ((system.store.primary.get key).version = expectedVal.version →
        system.archivedTotal key = 0) := by
  rw [WriteBackWindowStore.compareAndSwap_snd]
  by_cases matching :
      (system.store.primary.get key).version = expectedVal.version
  · rw [if_pos matching]
    simp only [matching, forall_const]
    constructor
    · intro after
      have found := after key member
      rw [foundTotal, if_pos (Finset.mem_insert_self key _),
        add_eq_left] at found
      exact found
    · intro unarchived other otherMember
      by_cases same : other = key
      · rw [same, foundTotal, if_pos (Finset.mem_insert_self key _),
          add_eq_left]
        exact unarchived
      · have kept := system.store.primary.get_compareAndSwap_of_distinct distinct
          member otherMember same expectedVal newVal
        have before := balanced other otherMember
        unfold foundTotal primaryTotal at *
        simp only [kept, Finset.mem_insert, same, false_or]
        exact before
  · rw [if_neg matching]
    exact iff_of_true balanced fun equal => absurd equal matching

theorem Serving.compareAndSwap
    (serving : Serving config keys system)
    {key : WindowKey}
    (member : key ∈ keys)
    (expectedVal newVal : WindowValue) :
    Serving config keys { system with
      store := (system.store.compareAndSwap key expectedVal newVal).2 } where
  available := by
    rw [WriteBackWindowStore.warm_compareAndSwap]
    exact serving.available
  noExpired := by
    rw [WriteBackWindowStore.expiredSet_compareAndSwap]
    exact serving.noExpired
  dirtyKnown := by
    intro other present
    rw [WriteBackWindowStore.compareAndSwap_snd] at present
    split at present
    · rcases Finset.mem_insert.mp present with rfl | old
      · exact member
      · exact serving.dirtyKnown other old
    · exact serving.dirtyKnown other present
  unread := serving.unread

/-- A flush keeps the balance. -/
theorem Balanced.flushSync
    (boundDistinct : Set.InjOn bindKey keys)
    (serving : Serving config keys system)
    (balanced : system.Balanced keys)
    (enumerates : system.store.Enumerates flush)
    (succeeds : flush.Succeeds) :
    (system.flushSync flush).Balanced keys := by
  intro key member
  rw [serving.foundTotal_flushSync boundDistinct enumerates succeeds member,
    primaryTotal_flushSync]
  exact balanced key member

theorem Serving.flushSync
    (serving : Serving config keys system)
    (succeeds : flush.Succeeds) :
    Serving config keys (system.flushSync flush) where
  available := by
    rw [← serving.available]
    exact WriteBackWindowStore.available_flushSync system.store flush
  noExpired := WriteBackWindowStore.expiredSet_flushSync system.store flush
  dirtyKnown := by
    rw [dirtySet_flushSync serving.available succeeds]
    intro key present
    exact absurd present (Finset.notMem_empty key)
  unread := serving.unread

/-- The store after the warm tier has archived these epochs. -/
def archive (system : ArchivingStore layout) (epochs : List UInt64) :
    ArchivingStore layout where
  store := { system.store with warm := (system.tiered.archiveAll epochs).warm }
  cold := (system.tiered.archiveAll epochs).cold

theorem step_flushOldEpochs
    (database : Database)
    (archiving : config.archives = true)
    (system : ArchivingStore layout)
    (now : Int64) :
    step database config system (.flushOldEpochs now) =
      some (system.archive (system.tiered.archivedEpochs config now)) := by
  rw [step, if_pos archiving, TieredStore.flushOldEpochs_none]
  rfl

theorem tableTotal_archive
    (system : ArchivingStore layout)
    (epochs : List UInt64)
    (key : WindowKey) :
    (system.archive epochs).tableTotal key =
      if key.epoch ∈ epochs then 0 else system.tableTotal key := by
  rw [← contribution_tableRow, ← contribution_tableRow]
  change TieredStore.contribution
    ((system.tiered.archiveAll epochs).tableRow (bindKey key)) = _
  rw [TieredStore.tableRow_archiveAll, apply_ite TieredStore.contribution]
  rfl

theorem archivedTotal_archive
    (system : ArchivingStore layout)
    {epochs : List UInt64}
    (distinct : epochs.Nodup)
    (key : WindowKey) :
    (system.archive epochs).archivedTotal key =
      if key.epoch ∈ epochs then system.tableTotal key
      else system.archivedTotal key := by
  rw [← contribution_tableRow]
  change TieredStore.contribution
    ((system.tiered.archiveAll epochs).archivedRow (bindKey key)) = _
  rw [TieredStore.archivedRow_archiveAll _ _ distinct,
    apply_ite TieredStore.contribution]
  rfl

/-- Archiving keeps the balance exactly if it takes no row of a dirty key, and
the rows of the others for the first time. -/
theorem Balanced.archive_iff
    (balanced : system.Balanced keys)
    {epochs : List UInt64}
    (distinct : epochs.Nodup) :
    (system.archive epochs).Balanced keys ↔
      ∀ key ∈ keys, key.epoch ∈ epochs →
        if key ∈ system.store.dirtySet then system.tableTotal key = 0
        else system.archivedTotal key = 0 := by
  apply forall₂_congr
  intro key member
  have before := balanced key member
  have samePrimary : (system.archive epochs).primaryTotal key =
      system.primaryTotal key := rfl
  have sameDirty : (system.archive epochs).store.dirtySet =
      system.store.dirtySet := rfl
  unfold foundTotal at *
  rw [samePrimary, tableTotal_archive, archivedTotal_archive system distinct]
  simp only [sameDirty]
  by_cases archived : key.epoch ∈ epochs
  · by_cases dirty : key ∈ system.store.dirtySet
    · simp [archived, dirty]
    · rw [if_neg dirty] at before
      simp only [archived, dirty, if_true, if_false, forall_const]
      rw [zero_add, ← before, left_eq_add]
  · simp only [archived, if_false, false_imp_iff, iff_true]
    exact before

theorem Serving.archive
    (archiving : config.archives = true)
    (serving : Serving config keys system)
    (epochs : List UInt64) :
    Serving config keys (system.archive epochs) where
  available := by
    change (system.tiered.archiveAll epochs).warm.available = true
    rw [TieredStore.available_archiveAll]
    exact serving.available
  noExpired := serving.noExpired
  dirtyKnown := serving.dirtyKnown
  unread := by
    intro noDir
    simp [DuckDbConfig.archives, noDir] at archiving

/-- What the store is after a call, where it is open. -/
theorem Serving.step_cases
    (database : Database)
    (serving : Serving config keys system)
    {call : Call}
    {next : ArchivingStore layout}
    (stepped : step database config system call = some next) :
    (∃ key expectedVal newVal,
      call = .compareAndSwap key expectedVal newVal ∧
        next = { system with
          store := (system.store.compareAndSwap key expectedVal newVal).2 }) ∨
    (∃ flush, system.store.Enumerates flush ∧
      (call = .flushSync flush ∨ ∃ query faults,
        call = .queryRange query flush faults) ∧
        next = system.flushSync flush) ∨
    (∃ now, config.archives = true ∧ call = .flushOldEpochs now ∧
      next = system.archive (system.tiered.archivedEpochs config now)) := by
  cases call with
  | compareAndSwap key expectedVal newVal =>
      cases stepped
      exact .inl ⟨key, expectedVal, newVal, rfl, rfl⟩
  | flushSync flush =>
      rw [step] at stepped
      split at stepped
      · next enumerates =>
          cases stepped
          exact .inr (.inl ⟨flush, enumerates, .inl rfl, rfl⟩)
      · cases stepped
  | queryRange query flush faults =>
      rw [step] at stepped
      split at stepped
      · next enumerates =>
          rw [queryRange_snd, if_pos serving.available] at stepped
          cases stepped
          exact .inr (.inl ⟨flush, enumerates, .inr ⟨query, faults, rfl⟩, rfl⟩)
      · cases stepped
  | flushOldEpochs now =>
      by_cases archiving : config.archives = true
      · rw [step_flushOldEpochs database archiving] at stepped
        cases stepped
        exact .inr (.inr ⟨now, archiving, rfl, rfl⟩)
      · rw [step, if_neg archiving] at stepped
        cases stepped

theorem serving_step
    (database : Database)
    (system : ArchivingStore layout)
    (call : Call)
    (next : ArchivingStore layout)
    (serving : Serving config keys system)
    (condition : call.Over keys ∧ call.Succeeds)
    (stepped : step database config system call = some next) :
    Serving config keys next := by
  obtain ⟨known, succeeds⟩ := condition
  rcases serving.step_cases database stepped with
    ⟨key, expectedVal, newVal, rfl, rfl⟩ |
    ⟨flush, enumerates, rfl | ⟨query, faults, rfl⟩, rfl⟩ |
    ⟨now, archiving, rfl, rfl⟩
  · exact serving.compareAndSwap known expectedVal newVal
  · exact serving.flushSync succeeds
  · exact serving.flushSync succeeds
  · exact serving.archive archiving _

/-- One call keeps the balance exactly if it is on time. -/
theorem balanced_step_iff
    (database : Database)
    (distinct : Set.InjOn makeKey keys)
    (boundDistinct : Set.InjOn bindKey keys)
    (system : ArchivingStore layout)
    (call : Call)
    (next : ArchivingStore layout)
    (serving : Serving config keys system)
    (condition : call.Over keys ∧ call.Succeeds)
    (balanced : system.Balanced keys)
    (stepped : step database config system call = some next) :
    next.Balanced keys ↔ system.OnTime config keys call := by
  obtain ⟨known, succeeds⟩ := condition
  rcases serving.step_cases database stepped with
    ⟨key, expectedVal, newVal, rfl, rfl⟩ |
    ⟨flush, enumerates, rfl | ⟨query, faults, rfl⟩, rfl⟩ |
    ⟨now, archiving, rfl, rfl⟩
  · exact balanced.compareAndSwap_iff distinct known expectedVal newVal
  · exact iff_of_true
      (balanced.flushSync boundDistinct serving enumerates succeeds) trivial
  · exact iff_of_true
      (balanced.flushSync boundDistinct serving enumerates succeeds) trivial
  · exact balanced.archive_iff
      (TieredStore.nodup_archivedEpochs config now system.tiered)

theorem serving_create
    (layout : StoreLayout)
    {warm : DuckDbWindowStore}
    (available : warm.available = true)
    {cold : AList ParquetFile}
    (unarchived : ∀ key ∈ keys,
      (create layout warm cold).archivedTotal key = 0) :
    Serving config keys (create layout warm cold) where
  available := available
  noExpired := rfl
  dirtyKnown := by
    intro key present
    exact absurd present (Finset.notMem_empty key)
  unread := fun _ => unarchived

theorem balanced_create
    (layout : StoreLayout)
    (distinct : Set.InjOn makeKey keys)
    (boundDistinct : Set.InjOn bindKey keys)
    {warm : DuckDbWindowStore}
    (available : warm.available = true)
    (rowsKnown : ∀ row ∈ warm.rows, row.key ∈ keys)
    {cold : AList ParquetFile}
    (unarchived : ∀ key ∈ keys,
      (create layout warm cold).archivedTotal key = 0) :
    (create layout warm cold).Balanced keys := by
  have synced : WriteBackWindowStore.Synced keys
      (create layout warm cold).store :=
    WriteBackWindowStore.synced_create distinct boundDistinct available rowsKnown
  have opened : (create layout warm cold).store.warm.available = true :=
    available
  intro key member
  have same := synced.1 key member
  rw [DuckDbWindowStore.get_none opened, Except.ok.injEq] at same
  rw [foundTotal, unarchived key member, add_zero, synced.2.1,
    if_neg (Finset.notMem_empty key), primaryTotal, ← same]
  rfl

/-- In every run of a new store over keys with different key strings and plain
texts, with nothing in the archive at first, every statement succeeding and sums
that need no rounding: all range queries are right at all times exactly if every
call is on time. -/
theorem queries_right_iff_onTime
    (database : Database)
    (config : DuckDbConfig)
    (plainDir : PlainText config.parquetArchiveDir)
    (layout : StoreLayout)
    (keys : Set WindowKey)
    (distinct : Set.InjOn makeKey keys)
    (plain : ∀ key ∈ keys, key.PlainTexts)
    (warm : DuckDbWindowStore)
    (available : warm.available = true)
    (rowsKnown : ∀ row ∈ warm.rows, row.key ∈ keys)
    (cold : AList ParquetFile)
    (unarchived : ∀ key ∈ keys,
      (create layout warm cold).archivedTotal key = 0)
    (calls : List Call)
    (conditions : ∀ call ∈ calls, call.Over keys ∧ call.Succeeds)
    (final : ArchivingStore layout)
    (ran : Machine.run (step database config) (create layout warm cold) calls =
      some final)
    (exact : Machine.Throughout (step database config) ExactAfterFlush
      (create layout warm cold) calls) :
    Machine.Throughout (step database config)
        (QueriesRight database config keys) (create layout warm cold) calls ↔
      Machine.RunMeets (step database config) (OnTime config keys)
        (create layout warm cold) calls := by
  have boundDistinct : Set.InjOn bindKey keys :=
    bindKey_injOn_noNul fun key member => (plain key member).noNul
  have serving : Serving config keys (create layout warm cold) :=
    serving_create layout available unarchived
  calc Machine.Throughout (step database config)
        (QueriesRight database config keys) (create layout warm cold) calls
      ↔ Machine.Throughout (step database config) (Balanced keys)
          (create layout warm cold) calls :=
        Machine.throughout_congr (serving_step database)
          (queriesRight_iff_balanced database plainDir plain boundDistinct)
          serving conditions exact
    _ ↔ Machine.RunMeets (step database config) (OnTime config keys)
          (create layout warm cold) calls :=
        Machine.throughout_iff_runMeets (serving_step database)
          (balanced_step_iff database distinct boundDistinct) serving conditions
          (balanced_create layout distinct boundDistinct available rowsKnown
            unarchived) ran

end Steps

/-- A store with at most one dirty key has one flush only. -/
theorem exactAfterFlush_of_option
    {system : ArchivingStore layout}
    (dirty : Option WindowKey)
    (sameDirty : system.store.dirtySet = dirty.toList.toFinset)
    (noExpired : system.store.expiredSet = ∅)
    (exact : (system.flushSync
      { dirtyOrder := dirty.toList, expiredOrder := [] }).tiered.ExactTotals) :
    system.ExactAfterFlush := by
  rintro ⟨dirtyOrder, expiredOrder, upsertFaults, deleteFaults⟩ enumerates
    ⟨upserts, deletes⟩
  obtain rfl : expiredOrder = [] := enumerates.expiredOrder_eq_nil noExpired
  obtain rfl : upsertFaults = .none := upserts
  obtain rfl : deleteFaults = fun _ => .none := funext deletes
  have sameOrder : dirtyOrder = dirty.toList := by
    obtain ⟨⟨distinct, orders⟩, -⟩ := enumerates
    change dirtyOrder.toFinset = system.store.dirtySet at orders
    rw [sameDirty] at orders
    cases dirty with
    | none => exact List.toFinset_eq_empty_iff _ |>.mp orders
    | some key =>
        apply List.perm_singleton.mp
        exact List.perm_of_nodup_nodup_toFinset_eq distinct
          (List.nodup_singleton key) orders
  rw [sameOrder]
  exact exact

/-- Alice's second write, of two. -/
def secondWrite : Call :=
  .compareAndSwap WriteBackWindowStore.aliceLogins ⟨.finite 1, 1⟩ ⟨.finite 2, 2⟩

/-- Her first write is flushed and archived. -/
def archived : List Call :=
  [firstWrite, .flushSync (flushAlice .none), .flushOldEpochs 600000]

theorem queries_right_archived :
    Machine.Throughout
      (step ⟨.sequential _, fun _ _ => none⟩ TieredStore.archiveConfig)
      (QueriesRight ⟨.sequential _, fun _ _ => none⟩ TieredStore.archiveConfig
        {WriteBackWindowStore.aliceLogins})
      (create oneShard ⟨true, ∅⟩ ∅) archived := by
  refine (queries_right_iff_onTime _ TieredStore.archiveConfig (by decide)
    oneShard {WriteBackWindowStore.aliceLogins} (Set.injOn_singleton _ _)
    (by rintro _ rfl; decide) ⟨true, ∅⟩ rfl (by simp) ∅
    (by rintro _ rfl; rfl) archived ?conditions _
    (Option.some_get (by decide +kernel)).symm ?exact).mpr ?onTime
  case conditions =>
    intro call member
    simp only [archived, List.mem_cons, List.not_mem_nil, or_false] at member
    rcases member with rfl | rfl | rfl
    · exact ⟨rfl, trivial⟩
    · exact ⟨trivial, rfl, fun _ => rfl⟩
    · exact ⟨trivial, trivial⟩
  case exact =>
    refine ⟨exactAfterFlush_of_option none rfl rfl
      (TieredStore.exactTotals_of_integers [] (by decide +kernel)
        (by decide)), ?_⟩
    rintro _ ⟨⟩
    refine ⟨exactAfterFlush_of_option (some WriteBackWindowStore.aliceLogins)
      (by decide +kernel) (by decide +kernel)
      (TieredStore.exactTotals_of_integers [1] (by decide +kernel)
        (by decide)), ?_⟩
    intro flushed stepped
    rw [step, if_pos (by decide +kernel)] at stepped
    cases stepped
    refine ⟨exactAfterFlush_of_option none (by decide +kernel) (by decide +kernel)
      (TieredStore.exactTotals_of_integers [1] (by decide +kernel)
        (by decide)), ?_⟩
    intro after stepped
    rw [step_flushOldEpochs _ rfl] at stepped
    cases stepped
    exact exactAfterFlush_of_option none (by decide +kernel) (by decide +kernel)
      (TieredStore.exactTotals_of_integers [1] (by decide +kernel) (by decide))
  case onTime =>
    refine ⟨fun _ => rfl, ?_⟩
    rintro _ ⟨⟩
    refine ⟨trivial, ?_⟩
    intro flushed stepped
    rw [step, if_pos (by decide +kernel)] at stepped
    cases stepped
    refine ⟨?_, fun _ _ => trivial⟩
    rintro _ rfl _
    decide +kernel

/-- The store after her second write. -/
def lateWritten : ArchivingStore oneShard :=
  (Machine.run (step ⟨.sequential _, fun _ _ => none⟩ TieredStore.archiveConfig)
    (create oneShard ⟨true, ∅⟩ ∅) (archived ++ [secondWrite])).get
      (by decide +kernel)

/-- Her second write is late: a query adds it to the archived one. -/
theorem late_write_counted_twice :
    ∃ system : ArchivingStore oneShard,
      Machine.run
          (step ⟨.sequential _, fun _ _ => none⟩ TieredStore.archiveConfig)
          (create oneShard ⟨true, ∅⟩ ∅) (archived ++ [secondWrite]) =
        some system ∧
      system.store.Enumerates (flushAlice .none) ∧
      (system.store.primary.get
        WriteBackWindowStore.aliceLogins).aggregate = .finite 2 ∧
      ∀ database : Database,
        (system.queryRange database TieredStore.archiveConfig
          (flushAlice .none) .none totalOfAlice).1 = .ok (.finite 3) ∧
        ¬ system.QueriesRight database TieredStore.archiveConfig
          {WriteBackWindowStore.aliceLogins} := by
  refine ⟨lateWritten, (Option.some_get _).symm, by decide +kernel,
    by decide +kernel, ?_⟩
  intro database
  have available : lateWritten.store.warm.available = true := by
    decide +kernel
  have answered : (lateWritten.queryRange database TieredStore.archiveConfig
      (flushAlice .none) .none totalOfAlice).1 = .ok (.finite 3) := by
    unfold queryRange
    rw [available, Bool.not_true, if_neg (by simp)]
    dsimp only
    rw [TieredStore.queryRange_eq_rangeTotal database rfl (by decide)
        (by decide +kernel)
        (TieredStore.exactTotals_of_integers [2, 1] (by decide +kernel)
          (by decide)) (by decide), Except.ok.injEq, FloatValue.finite.injEq]
    decide +kernel
  refine ⟨answered, fun right => ?_⟩
  have claimed := right totalOfAlice (flushAlice .none)
    (RangeQuery.within_exactly rfl) (by decide) (by decide +kernel)
    ⟨rfl, fun _ => rfl⟩
  rw [answered, Except.ok.injEq, FloatValue.finite.injEq] at claimed
  revert claimed
  decide +kernel

end ArchivingStore
end State
end Fre
