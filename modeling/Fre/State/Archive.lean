import Fre.Foundation.ExactSum
import Fre.Foundation.Machine
import Fre.State.DuckDbWindowStore

/-!
# The Parquet archive

`flush_old_epochs` takes the rows of old epochs out of the table and into one
Parquet file per epoch; `query_range` adds up what it finds in the table and in
the files.  The files are outside the program as the table is: `COPY … TO`
replaces the file of its epoch, and `read_parquet` over the glob reads every
file of the archive.
-/

namespace Fre
namespace State

open Foundation FloatValue

/-- `DuckDbConfig`. -/
structure DuckDbConfig where
  parquetArchiveDir : String := ""
  flushIntervalMs : UInt32 := 60000
  windowMs : UInt64 := 60000
  warmEpochRetention : UInt32 := 3

/-- The constructor starts the flush thread. -/
def DuckDbConfig.archives (config : DuckDbConfig) : Bool :=
  !config.parquetArchiveDir.isEmpty && 0 < config.flushIntervalMs

/-- A row of `window_state`. -/
abbrev Row := (_ : RowKey) × WindowValue

/-- The file `part-0000.parquet` of an epoch. -/
structure ParquetFile (epoch : UInt64) where
  rows : AList fun _ : RowKey => WindowValue
  ofEpoch : ∀ row ∈ rows.entries, row.1.key.epoch = epoch

/-- The rows of an epoch, as `COPY` writes them. -/
def ParquetFile.ofRows
    (rows : AList fun _ : RowKey => WindowValue)
    (epoch : UInt64) : ParquetFile epoch where
  rows := Table.filterKeys rows fun row => row.key.epoch == epoch
  ofEpoch := by
    intro row member
    simpa using List.of_mem_filter member

/-- The warm tier with the cold one: the table and the archive directory. -/
structure TieredStore where
  warm : DuckDbWindowStore
  cold : AList ParquetFile

/-- The statements of one `flush_old_epochs` that fail, and the directories
that cannot be created. -/
structure FlushFaults where
  connectFails : Bool := false
  selectFails : Bool := false
  directoryThrows : UInt64 → Bool := fun _ => false
  copyFails : UInt64 → Bool := fun _ => false
  deleteFails : UInt64 → Bool := fun _ => false

/-- Every statement succeeds. -/
def FlushFaults.none : FlushFaults := {}

namespace TieredStore

/-- `COPY (… WHERE epoch = N) TO '…/epoch=N/part-0000.parquet'`. -/
def copyEpoch (store : TieredStore) (epoch : UInt64) : TieredStore :=
  { store with
    cold := store.cold.insert epoch (.ofRows store.warm.rows epoch) }

/-- `DELETE FROM window_state WHERE epoch = N`. -/
def deleteEpoch (store : TieredStore) (epoch : UInt64) : TieredStore :=
  { store with
    warm := { store.warm with
      rows := Table.filterKeys store.warm.rows fun row =>
        !(row.key.epoch == epoch) } }

/-- The body of the loop of `flush_old_epochs`; none when it throws.  The
outcome of the two statements is not looked at. -/
def archiveEpoch (faults : FlushFaults) (store : TieredStore)
    (epoch : UInt64) : Option TieredStore :=
  if faults.directoryThrows epoch then none
  else
    let copied :=
      if faults.copyFails epoch then store else store.copyEpoch epoch
    some (if faults.deleteFails epoch then copied else copied.deleteEpoch epoch)

/-- `current_epoch` at a time in milliseconds. -/
def currentEpoch (config : DuckDbConfig) (now : Int64) : UInt64 :=
  if 0 < config.windowMs then now.toUInt64 / config.windowMs else 0

/-- `SELECT DISTINCT epoch FROM window_state WHERE epoch < cutoff`. -/
def oldEpochs (store : TieredStore) (cutoffEpoch : UInt64) : List UInt64 :=
  ((store.warm.rows.entries.map fun row => row.1.key.epoch).filter fun epoch =>
    epoch < cutoffEpoch).dedup

/-- `flush_old_epochs`; none when it throws, which ends the program. -/
def flushOldEpochs (config : DuckDbConfig) (now : Int64)
    (faults : FlushFaults) (store : TieredStore) : Option TieredStore :=
  if !store.warm.available then some store
  else if currentEpoch config now < config.warmEpochRetention.toUInt64 then
    some store
  else
    let cutoffEpoch :=
      currentEpoch config now - config.warmEpochRetention.toUInt64
    if faults.connectFails || faults.selectFails then some store
    else
      Machine.run (archiveEpoch faults) store (store.oldEpochs cutoffEpoch)

end TieredStore

/-! ### Range queries -/

/-- The arguments of `query_range`. -/
structure RangeQuery where
  tenantId : String
  entityId : String
  windowName : String
  epochStart : UInt64
  epochEnd : UInt64

namespace RangeQuery

/-- The condition of the two `SELECT` statements. -/
def selects (query : RangeQuery) (row : Row) : Bool :=
  row.1.key.tenantId == query.tenantId &&
    row.1.key.entityId == query.entityId &&
    row.1.key.windowName == query.windowName &&
    query.epochStart ≤ row.1.key.epoch && row.1.key.epoch ≤ query.epochEnd

/-- The selected aggregates. -/
def column (query : RangeQuery) (rows : List Row) : List Double :=
  (rows.filter query.selects).map fun row => row.2.aggregate

/-- The parameters bound to the prepared statement. -/
def bound (query : RangeQuery) : RangeQuery :=
  { query with
    tenantId := cString query.tenantId
    entityId := cString query.entityId
    windowName := cString query.windowName }

end RangeQuery

/-- A text that stands for itself between single quotes of a statement: without
quote and without NUL. -/
def PlainText (text : String) : Prop :=
  '\x27' ∉ text.toList ∧ '\x00' ∉ text.toList

instance (text : String) : Decidable (PlainText text) :=
  inferInstanceAs (Decidable (_ ∧ _))

/-- The texts of the key are plain. -/
structure WindowKey.PlainTexts (key : WindowKey) : Prop where
  tenantId : PlainText key.tenantId
  entityId : PlainText key.entityId
  windowName : PlainText key.windowName

theorem WindowKey.PlainTexts.noNul
    {key : WindowKey}
    (plain : key.PlainTexts) :
    key.NoNul :=
  ⟨plain.tenantId.2, plain.entityId.2, plain.windowName.2⟩

/-- The key of the first epoch in the range. -/
def RangeQuery.key (query : RangeQuery) : WindowKey where
  tenantId := query.tenantId
  entityId := query.entityId
  windowName := query.windowName
  epoch := query.epochStart

instance (key : WindowKey) : Decidable key.PlainTexts :=
  decidable_of_iff (PlainText key.tenantId ∧ PlainText key.entityId ∧
      PlainText key.windowName)
    ⟨fun plain => ⟨plain.1, plain.2.1, plain.2.2⟩,
      fun plain => ⟨plain.tenantId, plain.entityId, plain.windowName⟩⟩

/-- What the database answers: the sum of a column, and the value of a statement
over the archive in which some text does not stand for itself. -/
structure Database where
  sum : SumFunction .binary64
  misread : List Row → RangeQuery → Option Double

/-- `COALESCE(SUM(aggregate), 0.0)`. -/
def Database.coalesceSum (database : Database) (column : List Double) :
    Double :=
  if column.isEmpty then .finite 0 else database.sum.sum column

namespace TieredStore

/-- What `read_parquet` finds under the glob. -/
def archivedRows (store : TieredStore) : List Row :=
  store.cold.entries.flatMap fun file => file.2.rows.entries

/-- `cold_sum`. -/
def coldSum (database : Database) (config : DuckDbConfig) (faults : Faults)
    (store : TieredStore) (query : RangeQuery) : Double :=
  if config.parquetArchiveDir.isEmpty then .finite 0
  else if store.cold.entries.isEmpty then .finite 0
  else if (faults.executeError 1).isSome then .finite 0
  else if PlainText config.parquetArchiveDir ∧ query.key.PlainTexts then
    database.coalesceSum (query.column store.archivedRows)
  else (database.misread store.archivedRows query).getD (.finite 0)

/-- `query_range`. -/
def queryRange (database : Database) (config : DuckDbConfig) (faults : Faults)
    (store : TieredStore) (query : RangeQuery) : Except StoreError Double :=
  if !store.warm.available then .error DuckDbWindowStore.unavailable
  else if faults.prepareFails 0 then
    .error ⟨.queryRangeError, "prepare failed"⟩
  else
    match faults.executeError 0 with
    | some text => .error ⟨.queryRangeError, text⟩
    | none =>
        let warmSum :=
          database.coalesceSum (query.bound.column store.warm.rows.entries)
        .ok (add .binary64 warmSum
          (store.coldSum database config faults query))

end TieredStore
end State
end Fre
