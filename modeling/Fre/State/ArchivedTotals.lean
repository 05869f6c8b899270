import Fre.State.Archive
import Mathlib.Data.List.Dedup
import Mathlib.Tactic.Ring

/-!
# Totals over the warm and the cold tier

A flush moves rows from the table into the archive.  What a range query loses
by it is the content of the files that the flush replaces, as long as the sums
need no rounding; so a run of writes and flushes keeps its totals exactly as far
as no flush replaces a file with something in it.
-/

namespace Fre
namespace State

open Foundation FloatValue

namespace RangeQuery

/-- What a row contributes to the total of a query. -/
def weight (query : RangeQuery) (row : Row) : ℚ :=
  if query.selects row then row.2.aggregate.toRat else 0

theorem total_column
    (query : RangeQuery)
    (rows : List Row) :
    total (query.column rows) = (rows.map query.weight).sum := by
  induction rows with
  | nil => rfl
  | cons row rest inductionHypothesis =>
      rw [column] at inductionHypothesis
      rw [column, List.filter_cons, List.map_cons, List.sum_cons, weight]
      split
      next => rw [List.map_cons, total_cons, inductionHypothesis]
      next => rw [inductionHypothesis, zero_add]

theorem selects_iff
    (query : RangeQuery)
    {row : Row} :
    query.selects row = true ↔
      (row.1.key.tenantId = query.tenantId ∧
        row.1.key.entityId = query.entityId ∧
        row.1.key.windowName = query.windowName) ∧
      query.epochStart ≤ row.1.key.epoch ∧
        row.1.key.epoch ≤ query.epochEnd := by
  simp [selects, and_assoc]

/-- A row that a query for plain texts finds has plain texts. -/
theorem plainTexts_of_selects
    (query : RangeQuery)
    (plain : query.key.PlainTexts)
    {row : Row}
    (selected : query.selects row = true) :
    row.1.key.PlainTexts := by
  obtain ⟨⟨sameTenant, sameEntity, sameWindow⟩, -⟩ :=
    query.selects_iff.mp selected
  constructor
  · rw [sameTenant]
    exact plain.tenantId
  · rw [sameEntity]
    exact plain.entityId
  · rw [sameWindow]
    exact plain.windowName

/-- The query for one key. -/
def exactly (key : WindowKey) : RangeQuery where
  tenantId := key.tenantId
  entityId := key.entityId
  windowName := key.windowName
  epochStart := key.epoch
  epochEnd := key.epoch

theorem selects_exactly_iff
    {key : RowKey}
    {row : Row} :
    (exactly key.key).selects row = true ↔ row.1 = key := by
  rw [selects_iff]
  constructor
  · rintro ⟨⟨sameTenant, sameEntity, sameWindow⟩, fromStart, toEnd⟩
    have sameEpoch : row.1.key.epoch = key.key.epoch :=
      UInt64.le_antisymm toEnd fromStart
    apply RowKey.ext
    calc row.1.key
        = ⟨row.1.key.tenantId, row.1.key.entityId, row.1.key.windowName,
            row.1.key.epoch⟩ := rfl
      _ = ⟨key.key.tenantId, key.key.entityId, key.key.windowName,
            key.key.epoch⟩ := by
          rw [sameTenant, sameEntity, sameWindow, sameEpoch]
          rfl
  · rintro rfl
    exact ⟨⟨rfl, rfl, rfl⟩, UInt64.le_refl _, UInt64.le_refl _⟩

theorem weight_of_selects
    {query : RangeQuery}
    {row : Row}
    (selected : query.selects row = true) :
    query.weight row = row.2.aggregate.toRat :=
  if_pos selected

theorem weight_of_not_selects
    {query : RangeQuery}
    {row : Row}
    (unselected : ¬ query.selects row = true) :
    query.weight row = 0 :=
  if_neg unselected

/-- The query for one row finds that row in a table and no other. -/
theorem sum_weight_exactly
    (rows : AList fun _ : RowKey => WindowValue)
    (row : RowKey) :
    (rows.entries.map (exactly row.key).weight).sum =
      (rows.lookup row).elim 0 fun value => value.aggregate.toRat := by
  have split := Table.sum_entries_erase rows row (exactly row.key).weight
  have others : ((rows.erase row).entries.map
      (exactly row.key).weight).sum = 0 := by
    apply List.sum_eq_zero
    intro value valueMember
    obtain ⟨other, otherMember, rfl⟩ := List.mem_map.mp valueMember
    apply weight_of_not_selects
    intro selected
    have sameKey := selects_exactly_iff.mp selected
    have erased : other.1 ∈ (rows.erase row).keys :=
      List.mem_map_of_mem otherMember
    rw [sameKey, ← AList.mem_keys, AList.mem_erase] at erased
    exact erased.1 rfl
  rw [others, add_zero] at split
  rw [← split]
  cases rows.lookup row with
  | none => rfl
  | some value =>
      exact weight_of_selects (selects_exactly_iff.mpr rfl)

theorem column_append
    (query : RangeQuery)
    (left right : List Row) :
    query.column (left ++ right) = query.column left ++ query.column right := by
  simp [column]

theorem column_sublist
    (query : RangeQuery)
    (rows : List Row) :
    (query.column rows).Sublist (rows.map fun row => row.2.aggregate) :=
  List.filter_sublist.map _

/-- Plain texts are bound as they are. -/
theorem bound_eq
    {query : RangeQuery}
    (plain : query.key.PlainTexts) :
    query.bound = query := by
  rw [bound, cString_eq_self query.tenantId plain.tenantId.2,
    cString_eq_self query.entityId plain.entityId.2,
    cString_eq_self query.windowName plain.windowName.2]

end RangeQuery

namespace TieredStore

/-- The aggregates of all rows, archived or not. -/
def aggregates (store : TieredStore) : List Double :=
  (store.warm.rows.entries ++ store.archivedRows).map fun row =>
    row.2.aggregate

/-- What a query for plain texts selects adds up without rounding. -/
def ExactTotals (store : TieredStore) : Prop :=
  ∀ query : RangeQuery, query.key.PlainTexts →
    ExactColumn .binary64 (query.column store.warm.rows.entries ++
      query.column store.archivedRows)

/-- It is enough that all aggregates together add up without rounding. -/
theorem exactTotals_of_aggregates
    {store : TieredStore}
    (exact : ExactColumn .binary64 store.aggregates) :
    store.ExactTotals := by
  intro query _
  apply exact.sublist
  rw [aggregates, List.map_append]
  exact (query.column_sublist _).append (query.column_sublist _)

/-- The exact total of a query over both tiers. -/
def rangeTotal (store : TieredStore) (query : RangeQuery) : ℚ :=
  total (query.column store.warm.rows.entries) +
    total (query.column store.archivedRows)

/-- The total of a query over one file. -/
def fileTotal (store : TieredStore) (query : RangeQuery) (epoch : UInt64) :
    ℚ :=
  (store.cold.lookup epoch).elim 0 fun file =>
    total (query.column file.rows.entries)

theorem coalesceSum_eq
    {database : Database}
    {column : List Double}
    (exact : ExactColumn .binary64 column) :
    database.coalesceSum column = .finite (total column) := by
  unfold Database.coalesceSum
  cases column with
  | nil => rfl
  | cons value rest => exact database.sum.exact _ exact

/-- The files are read, unless there is nothing in them for the query. -/
def ReadsFiles (config : DuckDbConfig) (store : TieredStore)
    (query : RangeQuery) : Prop :=
  config.parquetArchiveDir.isEmpty = true →
    total (query.column store.archivedRows) = 0

theorem readsFiles_of_archives
    {config : DuckDbConfig}
    (archiving : config.archives = true)
    (store : TieredStore)
    (query : RangeQuery) :
    store.ReadsFiles config query := by
  intro noDir
  simp [DuckDbConfig.archives, noDir] at archiving

/-- What `query_range` finds in the archive, when it adds up without
rounding. -/
theorem coldSum_eq
    (database : Database)
    {config : DuckDbConfig}
    (plainDir : PlainText config.parquetArchiveDir)
    {store : TieredStore}
    {query : RangeQuery}
    (reads : store.ReadsFiles config query)
    (plain : query.key.PlainTexts)
    (exact : ExactColumn .binary64 (query.column store.archivedRows)) :
    store.coldSum database config .none query =
      .finite (total (query.column store.archivedRows)) := by
  unfold TieredStore.coldSum
  split
  next noDir => rw [reads noDir]
  next =>
    split
    next noFile =>
      rw [archivedRows, List.isEmpty_iff.mp noFile]
      rfl
    next =>
      rw [if_neg (by simp [Faults.none]), if_pos ⟨plainDir, plain⟩]
      exact coalesceSum_eq exact

/-- `query_range` adds up the two tiers. -/
theorem queryRange_none
    (database : Database)
    (config : DuckDbConfig)
    {store : TieredStore}
    (available : store.warm.available = true)
    (query : RangeQuery) :
    store.queryRange database config .none query =
      .ok (add .binary64
        (database.coalesceSum (query.bound.column store.warm.rows.entries))
        (store.coldSum database config .none query)) := by
  unfold queryRange
  rw [available, if_neg (by simp), if_neg (by simp [Faults.none])]
  rfl

/-- It returns the exact total of what it selects, if that adds up without
rounding. -/
theorem queryRange_eq_of_exactColumn
    (database : Database)
    {config : DuckDbConfig}
    (plainDir : PlainText config.parquetArchiveDir)
    {store : TieredStore}
    (available : store.warm.available = true)
    {query : RangeQuery}
    (reads : store.ReadsFiles config query)
    (plain : query.key.PlainTexts)
    (exact : ExactColumn .binary64 (query.column store.warm.rows.entries ++
      query.column store.archivedRows)) :
    store.queryRange database config .none query =
      .ok (.finite (store.rangeTotal query)) := by
  have warmExact := exact.sublist (List.sublist_append_left _ _)
  have coldExact := exact.sublist (List.sublist_append_right _ _)
  rw [queryRange_none database config available, RangeQuery.bound_eq plain,
    coalesceSum_eq warmExact, coldSum_eq database plainDir reads plain coldExact,
    exact.add_total, rangeTotal]

/-- `query_range` returns the exact total. -/
theorem queryRange_eq_rangeTotal
    (database : Database)
    {config : DuckDbConfig}
    (archiving : config.archives = true)
    (plainDir : PlainText config.parquetArchiveDir)
    {store : TieredStore}
    (available : store.warm.available = true)
    (exact : store.ExactTotals)
    {query : RangeQuery}
    (plain : query.key.PlainTexts) :
    store.queryRange database config .none query =
      .ok (.finite (store.rangeTotal query)) :=
  queryRange_eq_of_exactColumn database plainDir available
    (readsFiles_of_archives archiving store query) plain (exact query plain)

/-! ### What a flush replaces -/

theorem total_archivedRows
    (store : TieredStore)
    (query : RangeQuery) :
    total (query.column store.archivedRows) =
      (store.cold.entries.map fun file =>
        total (query.column file.2.rows.entries)).sum := by
  unfold archivedRows
  induction store.cold.entries with
  | nil => rfl
  | cons file rest inductionHypothesis =>
      rw [List.flatMap_cons, RangeQuery.column_append, total_append,
        inductionHypothesis, List.map_cons, List.sum_cons]

/-- Archiving one epoch loses what its file held before. -/
theorem rangeTotal_copy_delete
    (store : TieredStore)
    (epoch : UInt64)
    (query : RangeQuery) :
    ((store.copyEpoch epoch).deleteEpoch epoch).rangeTotal query +
        store.fileTotal query epoch =
      store.rangeTotal query := by
  have table := Table.sum_filterKeys_add_sum_filterKeys_not store.warm.rows
    (fun row => row.key.epoch == epoch) query.weight
  have files := Table.sum_entries_erase store.cold epoch fun file =>
    total (query.column file.2.rows.entries)
  have replaced : total (query.column
      ((store.copyEpoch epoch).deleteEpoch epoch).archivedRows) =
      total (query.column (ParquetFile.ofRows store.warm.rows epoch).rows.entries) +
        ((store.cold.erase epoch).entries.map fun file =>
          total (query.column file.2.rows.entries)).sum := by
    rw [total_archivedRows]
    change ((store.cold.insert epoch _).entries.map _).sum = _
    rw [AList.entries_insert, List.map_cons, List.sum_cons]
    rfl
  unfold rangeTotal
  rw [replaced, total_archivedRows, ← files, RangeQuery.total_column,
    RangeQuery.total_column, RangeQuery.total_column, ← table, fileTotal]
  change (_ + (((Table.filterKeys store.warm.rows fun row =>
    row.key.epoch == epoch).entries.map query.weight).sum + _)) + _ = _
  change (((Table.filterKeys store.warm.rows fun row =>
    !(row.key.epoch == epoch)).entries.map query.weight).sum + _) + _ = _
  ring

/-- Archive the epochs of a list one after the other. -/
def archiveAll (store : TieredStore) (epochs : List UInt64) : TieredStore :=
  epochs.foldl (fun store epoch => (store.copyEpoch epoch).deleteEpoch epoch)
    store

theorem run_archiveEpoch_none
    (store : TieredStore)
    (epochs : List UInt64) :
    Machine.run (archiveEpoch .none) store epochs =
      some (store.archiveAll epochs) := by
  induction epochs generalizing store with
  | nil => rfl
  | cons epoch rest inductionHypothesis => exact inductionHypothesis _

@[simp] theorem available_archiveAll
    (store : TieredStore)
    (epochs : List UInt64) :
    (store.archiveAll epochs).warm.available = store.warm.available := by
  induction epochs generalizing store with
  | nil => rfl
  | cons epoch rest inductionHypothesis => exact inductionHypothesis _

/-- Archiving distinct epochs loses what their files held before. -/
theorem rangeTotal_archiveAll
    (store : TieredStore)
    {epochs : List UInt64}
    (distinct : epochs.Nodup)
    (query : RangeQuery) :
    (store.archiveAll epochs).rangeTotal query +
        (epochs.map (store.fileTotal query)).sum =
      store.rangeTotal query := by
  induction epochs generalizing store with
  | nil => exact add_zero _
  | cons epoch rest inductionHypothesis =>
      obtain ⟨absent, restDistinct⟩ := List.nodup_cons.mp distinct
      have later := inductionHypothesis
        ((store.copyEpoch epoch).deleteEpoch epoch) restDistinct
      have sameFiles : rest.map
          (((store.copyEpoch epoch).deleteEpoch epoch).fileTotal query) =
          rest.map (store.fileTotal query) := by
        apply List.map_congr_left
        intro other member
        have different : other ≠ epoch := by
          rintro rfl
          exact absent member
        unfold fileTotal
        change ((store.cold.insert epoch _).lookup other).elim _ _ = _
        rw [AList.lookup_insert_ne different]
      have here := store.rangeTotal_copy_delete epoch query
      rw [sameFiles] at later
      rw [List.map_cons, List.sum_cons, ← here, ← later]
      change (archiveAll _ rest).rangeTotal query + _ = _
      ring

/-- The epochs that a flush archives. -/
def archivedEpochs (config : DuckDbConfig) (now : Int64)
    (store : TieredStore) : List UInt64 :=
  if store.warm.available ∧
      config.warmEpochRetention.toUInt64 ≤ currentEpoch config now then
    store.oldEpochs
      (currentEpoch config now - config.warmEpochRetention.toUInt64)
  else []

theorem nodup_archivedEpochs
    (config : DuckDbConfig)
    (now : Int64)
    (store : TieredStore) :
    (store.archivedEpochs config now).Nodup := by
  unfold archivedEpochs
  split
  next => exact List.nodup_dedup _
  next => exact List.nodup_nil

/-- Without a failing statement a flush archives these epochs. -/
theorem flushOldEpochs_none
    (config : DuckDbConfig)
    (now : Int64)
    (store : TieredStore) :
    store.flushOldEpochs config now .none =
      some (store.archiveAll (store.archivedEpochs config now)) := by
  unfold flushOldEpochs archivedEpochs
  cases available : store.warm.available with
  | false => rfl
  | true =>
      rw [if_neg (by simp)]
      by_cases early : currentEpoch config now <
          config.warmEpochRetention.toUInt64
      · rw [if_pos early, if_neg fun both => UInt64.not_le.mpr early both.2]
        rfl
      · rw [if_neg early, if_neg (by simp [FlushFaults.none]),
          if_pos ⟨rfl, UInt64.not_lt.mp early⟩]
        exact run_archiveEpoch_none _ _

/-- The file of the epoch, if there is one, has nothing but zeros that could be
asked for. -/
def ReplacesNothing (store : TieredStore) (epoch : UInt64) : Prop :=
  ∀ file, store.cold.lookup epoch = some file → ∀ row ∈ file.rows.entries,
    row.1.key.PlainTexts → row.2.aggregate = .finite 0

theorem fileTotal_of_lookup
    {store : TieredStore}
    {epoch : UInt64}
    {file : ParquetFile epoch}
    (found : store.cold.lookup epoch = some file)
    (query : RangeQuery) :
    store.fileTotal query epoch =
      (file.rows.entries.map query.weight).sum := by
  rw [fileTotal, found, Option.elim_some, RangeQuery.total_column]

/-- A file adds nothing to a query that none of its rows with a value meets. -/
theorem fileTotal_eq_zero
    {store : TieredStore}
    {epoch : UInt64}
    {query : RangeQuery}
    (weightless : ∀ file, store.cold.lookup epoch = some file →
      ∀ row ∈ file.rows.entries, query.weight row = 0) :
    store.fileTotal query epoch = 0 := by
  cases found : store.cold.lookup epoch with
  | none => rw [fileTotal, found, Option.elim_none]
  | some file =>
      rw [fileTotal_of_lookup found]
      apply List.sum_eq_zero
      intro value member
      obtain ⟨row, rowMember, rfl⟩ := List.mem_map.mp member
      exact weightless file found row rowMember

theorem ReplacesNothing.fileTotal_eq
    {store : TieredStore}
    {epoch : UInt64}
    (nothing : store.ReplacesNothing epoch)
    {query : RangeQuery}
    (plain : query.key.PlainTexts) :
    store.fileTotal query epoch = 0 := by
  apply fileTotal_eq_zero
  intro file found row member
  unfold RangeQuery.weight
  split
  next selected =>
    rw [nothing file found row member (query.plainTexts_of_selects plain selected)]
    rfl
  next => rfl

/-- A file adds nothing to a query for other epochs. -/
theorem fileTotal_of_outside
    {store : TieredStore}
    {epoch : UInt64}
    {query : RangeQuery}
    (outside : ¬ (query.epochStart ≤ epoch ∧ epoch ≤ query.epochEnd)) :
    store.fileTotal query epoch = 0 := by
  apply fileTotal_eq_zero
  intro file found row member
  apply RangeQuery.weight_of_not_selects
  intro selected
  have ofEpoch := file.ofEpoch row member
  obtain ⟨-, fromStart, toEnd⟩ := query.selects_iff.mp selected
  exact outside ⟨ofEpoch ▸ fromStart, ofEpoch ▸ toEnd⟩

/-- A query for the key of an archived row finds that row in its file and no
other. -/
theorem fileTotal_exactly
    {store : TieredStore}
    {epoch : UInt64}
    {file : ParquetFile epoch}
    (found : store.cold.lookup epoch = some file)
    {row : Row}
    (member : row ∈ file.rows.entries) :
    store.fileTotal (.exactly row.1.key) epoch = row.2.aggregate.toRat := by
  have rowFound : file.rows.lookup row.1 = some row.2 :=
    AList.mem_lookup_iff.mpr member
  rw [fileTotal_of_lookup found, RangeQuery.sum_weight_exactly, rowFound,
    Option.elim_some]

/-- No query for plain texts loses anything exactly if every replaced file has
nothing to lose. -/
theorem rangeTotal_archiveAll_eq_iff
    {store : TieredStore}
    (exact : store.ExactTotals)
    {epochs : List UInt64}
    (distinct : epochs.Nodup) :
    (∀ query : RangeQuery, query.key.PlainTexts →
        (store.archiveAll epochs).rangeTotal query = store.rangeTotal query) ↔
      ∀ epoch ∈ epochs, store.ReplacesNothing epoch := by
  constructor
  · intro kept epoch member file found row rowMember plain
    have finite : row.2.aggregate = .finite row.2.aggregate.toRat := by
      apply (exact (.exactly row.1.key) plain).finite
      apply List.mem_append_right
      apply List.mem_map_of_mem (f := fun row : Row => row.2.aggregate)
      rw [List.mem_filter]
      refine ⟨?_, RangeQuery.selects_exactly_iff.mpr rfl⟩
      exact List.mem_flatMap.mpr
        ⟨⟨epoch, file⟩, AList.mem_lookup_iff.mp found, rowMember⟩
    have balance := store.rangeTotal_archiveAll distinct
      (.exactly row.1.key)
    rw [kept (.exactly row.1.key) plain, add_eq_left] at balance
    have onlyHere : (epochs.map (store.fileTotal (.exactly row.1.key))).sum =
        epochs.count epoch • store.fileTotal (.exactly row.1.key) epoch := by
      apply List.sum_map_eq_nsmul_single
      intro other different _
      apply fileTotal_of_outside
      rintro ⟨fromStart, toEnd⟩
      apply different
      rw [← file.ofEpoch row rowMember]
      exact UInt64.le_antisymm toEnd fromStart
    rw [onlyHere, List.count_eq_one_of_mem distinct member, one_nsmul,
      fileTotal_exactly found rowMember] at balance
    rw [finite, balance]
  · intro nothing query plain
    have balance := store.rangeTotal_archiveAll distinct query
    have lost : (epochs.map (store.fileTotal query)).sum = 0 := by
      apply List.sum_eq_zero
      intro value member
      obtain ⟨epoch, epochMember, rfl⟩ := List.mem_map.mp member
      exact (nothing epoch epochMember).fileTotal_eq plain
    rw [lost, add_zero] at balance
    exact balance

/-! ### Runs of writes and flushes -/

/-- A call on the store, all of its statements succeeding. -/
inductive StoreCall
  | compareAndSwap (key : WindowKey) (expectedVal newVal : WindowValue)
  | flushOldEpochs (now : Int64)

/-- One call; flushes come from the flush thread. -/
def step (config : DuckDbConfig) (store : TieredStore) :
    StoreCall → Option TieredStore
  | .compareAndSwap key expectedVal newVal =>
      some { store with
        warm := (store.warm.compareAndSwap .none key expectedVal newVal).2 }
  | .flushOldEpochs now =>
      if config.archives then store.flushOldEpochs config now .none else none

/-- If the call is a flush, then it leaves the result of `query_range` unchanged
for all plain texts and every range of epochs. -/
def Conserves (database : Database) (config : DuckDbConfig)
    (store : TieredStore) : StoreCall → Prop
  | .compareAndSwap _ _ _ => True
  | .flushOldEpochs now =>
      ∀ next, step config store (.flushOldEpochs now) = some next →
        ∀ query : RangeQuery, query.key.PlainTexts →
          next.queryRange database config .none query =
            store.queryRange database config .none query

/-- If the call is a flush, then no epoch that it archives has a file with
anything in it. -/
def ArchivesOnce (config : DuckDbConfig) (store : TieredStore) :
    StoreCall → Prop
  | .compareAndSwap _ _ _ => True
  | .flushOldEpochs now =>
      ∀ epoch ∈ store.archivedEpochs config now, store.ReplacesNothing epoch

section Conservation

variable {config : DuckDbConfig} {store : TieredStore}

theorem conserves_iff_archivesOnce
    (database : Database)
    (archiving : config.archives = true)
    (plainDir : PlainText config.parquetArchiveDir)
    {call : StoreCall}
    (exact : store.ExactTotals)
    (nextExact : ∀ next, step config store call = some next →
      next.ExactTotals) :
    store.Conserves database config call ↔ store.ArchivesOnce config call := by
  cases call with
  | compareAndSwap key expectedVal newVal => rfl
  | flushOldEpochs now =>
      have stepped : step config store (.flushOldEpochs now) =
          some (store.archiveAll (store.archivedEpochs config now)) := by
        rw [step, if_pos archiving, flushOldEpochs_none]
      have flushedExact := nextExact _ stepped
      rw [Conserves, ArchivesOnce, stepped]
      cases available : store.warm.available with
      | false =>
          have none : store.archivedEpochs config now = [] := by
            rw [archivedEpochs, if_neg (by simp [available])]
          rw [none]
          simp [archiveAll]
      | true =>
          rw [← rangeTotal_archiveAll_eq_iff exact
            (nodup_archivedEpochs config now store)]
          simp only [Option.some.injEq, forall_eq']
          apply forall_congr'
          intro query
          apply imp_congr_right
          intro plain
          rw [queryRange_eq_rangeTotal database archiving plainDir
              (by rw [available_archiveAll, available]) flushedExact plain,
            queryRange_eq_rangeTotal database archiving plainDir available exact
              plain]
          simp

/-- In every run of writes and flushes whose aggregates add up without
rounding, all flushes leave the totals unchanged exactly if none of them
replaces a file with anything in it. -/
theorem flushes_conserve_iff
    (database : Database)
    (archiving : config.archives = true)
    (plainDir : PlainText config.parquetArchiveDir)
    {calls : List StoreCall}
    (exact : Machine.Throughout (step config) ExactTotals store calls) :
    Machine.RunMeets (step config) (Conserves database config) store calls ↔
      Machine.RunMeets (step config) (ArchivesOnce config) store calls := by
  induction calls generalizing store with
  | nil => rfl
  | cons call rest inductionHypothesis =>
      obtain ⟨exactHere, exactLater⟩ := exact
      apply and_congr
      · apply conserves_iff_archivesOnce database archiving plainDir exactHere
        intro next stepped
        exact (exactLater next stepped).holds_at_start
      · apply forall_congr'
        intro next
        apply imp_congr_right
        intro stepped
        exact inductionHypothesis (exactLater next stepped)

end Conservation

/-- A store opened over an empty database and an empty archive. -/
def opened : TieredStore where
  warm := { available := true, rows := ∅ }
  cold := ∅

/-- The default configuration with an archive directory. -/
def archiveConfig : DuckDbConfig where
  parquetArchiveDir := "/archive"

/-- The first write of an entity in epoch 0, of one. -/
def writeOnce (entityId : String) : StoreCall :=
  .compareAndSwap ⟨"tenant", entityId, "logins", 0⟩ {} ⟨.finite 1, 1⟩

theorem exactTotals_of_integers
    {store : TieredStore}
    (values : List Int)
    (integral : store.aggregates = ofIntegers values)
    (small : (values.map Int.natAbs).sum < 2 ^ 53) :
    store.ExactTotals := by
  apply exactTotals_of_aggregates
  exact ExactColumn.of_eq_ofIntegers values integral small

/-- A write and two flushes, the second of which finds nothing to archive. -/
theorem one_write_conserved :
    Machine.RunMeets (step archiveConfig)
      (Conserves ⟨.sequential _, fun _ _ => none⟩ archiveConfig) opened
      [writeOnce "alice", .flushOldEpochs 600000, .flushOldEpochs 660000] := by
  apply (flushes_conserve_iff _ rfl (by decide) ?exact).mpr
  case exact =>
    refine ⟨exactTotals_of_integers [] rfl (by decide), ?_⟩
    rintro _ ⟨⟩
    refine ⟨exactTotals_of_integers [1] rfl (by decide), ?_⟩
    rintro _ ⟨⟩
    refine ⟨exactTotals_of_integers [1] rfl (by decide), ?_⟩
    rintro _ ⟨⟩
    exact exactTotals_of_integers [1] rfl (by decide)
  refine ⟨trivial, ?_⟩
  rintro _ ⟨⟩
  refine ⟨?_, ?_⟩
  · intro epoch _ file found
    change AList.lookup epoch ∅ = some file at found
    rw [AList.lookup_empty] at found
    exact absurd found (by simp)
  · rintro _ ⟨⟩
    refine ⟨?_, fun _ _ => trivial⟩
    intro epoch member
    exact absurd member List.not_mem_nil

/-- Two writes in epoch 0, the second after the epoch was archived: the next
flush replaces the file, and the first write is lost. -/
theorem late_write_replaces_file :
    ∃ before after : TieredStore,
      Machine.run (step archiveConfig) opened
          [writeOnce "alice", .flushOldEpochs 600000, writeOnce "bob"] =
        some before ∧
      step archiveConfig before (.flushOldEpochs 660000) = some after ∧
      ∀ database : Database,
        before.queryRange database archiveConfig .none
            ⟨"tenant", "alice", "logins", 0, 0⟩ = .ok (.finite 1) ∧
          after.queryRange database archiveConfig .none
            ⟨"tenant", "alice", "logins", 0, 0⟩ = .ok (.finite 0) := by
  refine ⟨_, _, rfl, rfl, ?_⟩
  intro database
  constructor
  · rw [queryRange_eq_rangeTotal database rfl (by decide) rfl
      (exactTotals_of_integers [1, 1] rfl (by decide)) (by decide),
      Except.ok.injEq, FloatValue.finite.injEq]
    decide +kernel
  · rw [queryRange_eq_rangeTotal database rfl (by decide) rfl
      (exactTotals_of_integers [1] rfl (by decide)) (by decide),
      Except.ok.injEq, FloatValue.finite.injEq]
    decide +kernel

end TieredStore
end State
end Fre
