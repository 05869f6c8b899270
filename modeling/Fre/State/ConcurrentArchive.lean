import Fre.State.ArchiveFailures

/-!
# Archiving beside writers and readers

`flush_old_epochs` runs on a connection of its own: the swaps of other threads
may fall between the `COPY` of an epoch and its `DELETE`, and so may the two
reads of a range query.  A swap in between is deleted without having been
copied, and a row that is read in the table before its `DELETE` and in the
archive after its `COPY` is counted twice.
-/

namespace Fre
namespace State
namespace ConcurrentArchive

open Foundation FloatValue

/-- Where the loop of `flush_old_epochs` stands: the epochs it is done with, the
epoch that is copied and not yet deleted, and the epochs still to come. -/
structure Archiver where
  deleted : List UInt64
  copied : Option UInt64
  waiting : List UInt64

/-- The epochs copied so far. -/
def Archiver.archived (archiver : Archiver) : List UInt64 :=
  archiver.deleted ++ archiver.copied.toList

/-- The epochs not deleted yet. -/
def Archiver.pending (archiver : Archiver) : List UInt64 :=
  archiver.copied.toList ++ archiver.waiting

/-- Where an execution of `query_range` stands, with the epochs that were
deleted when it read the table and those copied when it read the archive. -/
inductive Reader
  | idle
  | warmRead (query : RangeQuery) (warmSum : Double) (deleted : List UInt64)
  | finished (query : RangeQuery) (result : Double)
      (deleted archived : List UInt64)

/-- The store, the two threads, and the aggregate that the last successful swap
of each key has written. -/
structure System where
  store : TieredStore
  archiver : Archiver
  reader : Reader
  written : WindowKey → Option Double

/-- The statements, each of them atomic and successful. -/
inductive Action
  | compareAndSwap (key : WindowKey) (expectedVal newVal : WindowValue)
  | archive
  | readWarm (query : RangeQuery)
  | readCold

/-- A flush that has selected its epochs. -/
def System.start
    (store : TieredStore)
    (epochs : List UInt64)
    (written : WindowKey → Option Double) : System where
  store := store
  archiver := { deleted := [], copied := none, waiting := epochs }
  reader := .idle
  written := written

/-- The next statement of the flush, a `DELETE` or a `COPY`; none when it is
over. -/
def archive (system : System) : Option System :=
  match system.archiver.copied, system.archiver.waiting with
  | some epoch, waiting =>
      some { system with
        store := system.store.deleteEpoch epoch
        archiver :=
          { deleted := system.archiver.deleted ++ [epoch]
            copied := none
            waiting := waiting } }
  | none, epoch :: rest =>
      some { system with
        store := system.store.copyEpoch epoch
        archiver :=
          { deleted := system.archiver.deleted
            copied := some epoch
            waiting := rest } }
  | none, [] => none

/-- The key was written if the swap says so. -/
def writtenAfter
    (written : WindowKey → Option Double)
    (key : WindowKey)
    (newVal : WindowValue) : Except StoreError Bool → WindowKey → Option Double
  | .ok true => Function.update written key (some newVal.aggregate)
  | _ => written

/-- One statement of some thread. -/
def step (database : Database) (config : DuckDbConfig) (system : System) :
    Action → Option System
  | .compareAndSwap key expectedVal newVal =>
      let swap :=
        system.store.warm.compareAndSwap .none key expectedVal newVal
      some { system with
        store := { system.store with warm := swap.2 }
        written := writtenAfter system.written key newVal swap.1 }
  | .archive => archive system
  | .readWarm query =>
      match system.reader with
      | .idle =>
          some { system with
            reader := .warmRead query
              (database.coalesceSum
                (query.bound.column system.store.warm.rows.entries))
              system.archiver.deleted }
      | _ => none
  | .readCold =>
      match system.reader with
      | .warmRead query warmSum deleted =>
          some { system with
            reader := .finished query
              (add .binary64 warmSum
                (system.store.coldSum database config .none query))
              deleted system.archiver.archived }
      | _ => none

/-! ## The flush by itself -/

/-- Left alone, the statements of a flush archive its epochs one after the
other. -/
theorem run_archive
    (database : Database)
    (config : DuckDbConfig)
    (store : TieredStore)
    (deleted epochs : List UInt64)
    (reader : Reader)
    (written : WindowKey → Option Double) :
    Machine.run (step database config)
        { store := store
          archiver := { deleted := deleted, copied := none, waiting := epochs }
          reader := reader
          written := written }
        (List.replicate (2 * epochs.length) .archive) =
      some
        { store := store.archiveAll epochs
          archiver :=
            { deleted := deleted ++ epochs, copied := none, waiting := [] }
          reader := reader
          written := written } := by
  induction epochs generalizing store deleted with
  | nil => simp [TieredStore.archiveAll]
  | cons epoch rest inductionHypothesis =>
      have twoMore : 2 * (epoch :: rest).length = 2 * rest.length + 1 + 1 := by
        rw [List.length_cons]
        omega
      rw [twoMore, List.replicate_succ, List.replicate_succ]
      have later := inductionHypothesis
        ((store.copyEpoch epoch).deleteEpoch epoch) (deleted ++ [epoch])
      rw [List.append_assoc] at later
      exact later

/-- So a flush without failures is these statements. -/
theorem run_archive_eq_flushOldEpochs
    (database : Database)
    (config : DuckDbConfig)
    (now : Int64)
    (store : TieredStore)
    (written : WindowKey → Option Double) :
    (Machine.run (step database config)
        (System.start store (store.archivedEpochs config now) written)
        (List.replicate (2 * (store.archivedEpochs config now).length)
          .archive)).map System.store =
      store.flushOldEpochs config now .none := by
  rw [System.start, run_archive, TieredStore.flushOldEpochs_none]
  rfl

/-! ## Writers -/

section Writers

variable {keys : Set WindowKey} {database : Database} {config : DuckDbConfig}
  {system next : System} {key : WindowKey}

/-- The aggregate of the key in the table. -/
def System.tableAggregate (system : System) (key : WindowKey) :
    Option Double :=
  (system.store.tableRow (bindKey key)).map fun value => value.aggregate

/-- The aggregate of the key in the file of its epoch. -/
def System.archivedAggregate (system : System) (key : WindowKey) :
    Option Double :=
  (system.store.archivedRow (bindKey key)).map fun value => value.aggregate

/-- What was written last is in the table or in the archive. -/
def WritesFound (keys : Set WindowKey) (system : System) : Prop :=
  ∀ key ∈ keys, ∀ aggregate, system.written key = some aggregate →
    system.tableAggregate key = some aggregate ∨
      system.archivedAggregate key = some aggregate

/-- If the statement is a `DELETE`, then the keys of its epoch have in the table
what its `COPY` has put into the file. -/
def CopiedAsDeleted (keys : Set WindowKey) (system : System) : Action → Prop
  | .archive => ∀ epoch ∈ system.archiver.copied, ∀ key ∈ keys,
      key.epoch = epoch → (system.written key).isSome →
        system.tableAggregate key = system.archivedAggregate key
  | _ => True

/-- Until its epoch is deleted, what was written last is in the table; an epoch
still to be copied has no file. -/
structure Intact (keys : Set WindowKey) (system : System) : Prop where
  available : system.store.warm.available = true
  distinct : system.archiver.pending.Nodup
  noFile : ∀ epoch ∈ system.archiver.waiting,
    system.store.cold.lookup epoch = none
  inTable : ∀ key ∈ keys, key.epoch ∈ system.archiver.pending →
    ∀ aggregate, system.written key = some aggregate →
      system.tableAggregate key = some aggregate

theorem archivedRow_eq_none
    {store : TieredStore}
    {row : RowKey}
    (noFile : store.cold.lookup row.key.epoch = none) :
    store.archivedRow row = none := by
  rw [TieredStore.archivedRow, noFile, Option.bind_none]

theorem intact_start
    {store : TieredStore}
    {epochs : List UInt64}
    {written : WindowKey → Option Double}
    (available : store.warm.available = true)
    (distinct : epochs.Nodup)
    (archivedOnce : ∀ epoch ∈ epochs, store.cold.lookup epoch = none)
    (found : WritesFound keys (System.start store epochs written)) :
    Intact keys (System.start store epochs written) where
  available := available
  distinct := distinct
  noFile := archivedOnce
  inTable := by
    intro key member waiting aggregate last
    rcases found key member aggregate last with inTable | inFile
    · exact inTable
    · have noRow : store.archivedRow (bindKey key) = none :=
        archivedRow_eq_none (archivedOnce key.epoch waiting)
      change (store.archivedRow (bindKey key)).map _ = _ at inFile
      rw [noRow] at inFile
      cases inFile

/-- A swap writes its key and nothing else; what is in the table stays there. -/
theorem tableAggregate_compareAndSwap
    (boundDistinct : Set.InjOn bindKey keys)
    (available : system.store.warm.available = true)
    (member : key ∈ keys)
    {expectedVal newVal : WindowValue}
    (stepped : step database config system
      (.compareAndSwap key expectedVal newVal) = some next)
    {other : WindowKey}
    (otherMember : other ∈ keys) :
    (next.written other = system.written other ∧
        ∀ aggregate, system.tableAggregate other = some aggregate →
          next.tableAggregate other = some aggregate) ∨
      (next.written other = some newVal.aggregate ∧
        next.tableAggregate other = some newVal.aggregate) := by
  rw [step, Option.some.injEq] at stepped
  subst stepped
  rw [DuckDbWindowStore.compareAndSwap_none available]
  unfold System.tableAggregate TieredStore.tableRow
  split
  · by_cases same : other = key
    · subst same
      right
      exact ⟨Function.update_self .., by simp [AList.lookup_insert]⟩
    · left
      refine ⟨Function.update_of_ne same .., fun aggregate inTable => ?_⟩
      have elsewhere : bindKey other ≠ bindKey key := fun equal =>
        same (boundDistinct otherMember member equal)
      obtain ⟨value, found, rfl⟩ := Option.map_eq_some_iff.mp inTable
      dsimp only
      rw [AList.lookup_insert_ne elsewhere,
        DuckDbWindowStore.lookup_seedRow_of_some found, Option.map_some]
  · left
    refine ⟨rfl, fun aggregate inTable => ?_⟩
    obtain ⟨value, found, rfl⟩ := Option.map_eq_some_iff.mp inTable
    dsimp only
    rw [DuckDbWindowStore.lookup_seedRow_of_some found, Option.map_some]

/-- What a statement of the flush does to the lookups. -/
theorem archive_cases
    (stepped : archive system = some next) :
    (∃ epoch rest, system.archiver.copied = none ∧
        system.archiver.waiting = epoch :: rest ∧
        next = { system with
          store := system.store.copyEpoch epoch
          archiver :=
            { deleted := system.archiver.deleted
              copied := some epoch
              waiting := rest } }) ∨
      ∃ epoch, system.archiver.copied = some epoch ∧
        next = { system with
          store := system.store.deleteEpoch epoch
          archiver :=
            { deleted := system.archiver.deleted ++ [epoch]
              copied := none
              waiting := system.archiver.waiting } } := by
  cases copied : system.archiver.copied with
  | some epoch =>
      rw [archive, copied] at stepped
      exact .inr ⟨epoch, rfl, (Option.some.inj stepped).symm⟩
  | none =>
      cases waiting : system.archiver.waiting with
      | nil =>
          rw [archive, copied, waiting] at stepped
          cases stepped
      | cons epoch rest =>
          rw [archive, copied, waiting] at stepped
          exact .inl ⟨epoch, rest, rfl, rfl, (Option.some.inj stepped).symm⟩

/-- A `DELETE` takes the aggregates of its epoch out of the table. -/
theorem tableAggregate_delete
    (system : System)
    (epoch : UInt64)
    (archiver : Archiver)
    (key : WindowKey) :
    System.tableAggregate { system with
        store := system.store.deleteEpoch epoch
        archiver := archiver } key =
      if key.epoch = epoch then none else system.tableAggregate key := by
  unfold System.tableAggregate
  rw [TieredStore.tableRow_deleteEpoch, apply_ite (Option.map _)]
  rfl

/-- A `COPY` leaves the files of the other epochs. -/
theorem archivedAggregate_copy_of_ne
    (system : System)
    {epoch : UInt64}
    (archiver : Archiver)
    {key : WindowKey}
    (different : key.epoch ≠ epoch) :
    System.archivedAggregate { system with
        store := system.store.copyEpoch epoch
        archiver := archiver } key =
      system.archivedAggregate key := by
  unfold System.archivedAggregate
  rw [TieredStore.archivedRow_copyEpoch, if_neg (by exact different)]

/-- A `COPY` creates no file but that of its epoch. -/
theorem lookup_copyEpoch_of_waiting
    {epoch other : UInt64}
    {rest : List UInt64}
    (noFile : ∀ waiting ∈ system.archiver.waiting,
      system.store.cold.lookup waiting = none)
    (waiting : system.archiver.waiting = epoch :: rest)
    (absent : epoch ∉ rest)
    (later : other ∈ rest) :
    (system.store.copyEpoch epoch).cold.lookup other = none := by
  have different : other ≠ epoch := by
    rintro rfl
    exact absent later
  change (system.store.cold.insert epoch _).lookup other = none
  rw [AList.lookup_insert_ne different]
  apply noFile other
  rw [waiting]
  exact List.mem_cons_of_mem epoch later

/-- A read changes the reader only. -/
theorem read_cases
    {action : Action}
    (isRead : action = .readCold ∨ ∃ query, action = .readWarm query)
    (stepped : step database config system action = some next) :
    ∃ reader, next = { system with reader := reader } := by
  rcases isRead with rfl | ⟨query, rfl⟩
  · rw [step] at stepped
    split at stepped
    · exact ⟨_, (Option.some.inj stepped).symm⟩
    · cases stepped
  · rw [step] at stepped
    split at stepped
    · exact ⟨_, (Option.some.inj stepped).symm⟩
    · cases stepped

/-- The swap is on one of the keys. -/
def Action.Over (keys : Set WindowKey) : Action → Prop
  | .compareAndSwap key _ _ => key ∈ keys
  | _ => True

theorem Intact.compareAndSwap
    (boundDistinct : Set.InjOn bindKey keys)
    (intact : Intact keys system)
    (member : key ∈ keys)
    {expectedVal newVal : WindowValue}
    (stepped : step database config system
      (.compareAndSwap key expectedVal newVal) = some next) :
    Intact keys next := by
  have swap {other : WindowKey} (otherMember : other ∈ keys) :=
    tableAggregate_compareAndSwap boundDistinct intact.available member stepped
      otherMember
  have unchanged : next.archiver = system.archiver ∧
      next.store.cold = system.store.cold ∧
      next.store.warm.available = system.store.warm.available := by
    rw [step, Option.some.injEq] at stepped
    subst stepped
    refine ⟨rfl, rfl, ?_⟩
    rw [DuckDbWindowStore.compareAndSwap_none intact.available]
    split
    · rfl
    · rfl
  obtain ⟨sameArchiver, sameCold, sameAvailable⟩ := unchanged
  constructor
  · rw [sameAvailable]
    exact intact.available
  · rw [sameArchiver]
    exact intact.distinct
  · rw [sameArchiver, sameCold]
    exact intact.noFile
  · rw [sameArchiver]
    intro other otherMember pending aggregate last
    rcases swap otherMember with ⟨sameWritten, stays⟩ | ⟨isLast, inTable⟩
    · rw [sameWritten] at last
      exact stays aggregate
        (intact.inTable other otherMember pending aggregate last)
    · rw [isLast, Option.some.injEq] at last
      rw [inTable, last]

theorem Intact.archive
    (intact : Intact keys system)
    (stepped : archive system = some next) :
    Intact keys next := by
  have distinct := intact.distinct
  have inTable := intact.inTable
  rcases archive_cases stepped with
    ⟨epoch, rest, copied, waiting, rfl⟩ | ⟨epoch, copied, rfl⟩
  · rw [Archiver.pending, copied, waiting] at distinct inTable
    obtain ⟨absent, -⟩ := List.nodup_cons.mp distinct
    refine ⟨intact.available, distinct, ?_, inTable⟩
    intro other later
    exact lookup_copyEpoch_of_waiting intact.noFile waiting absent later
  · rw [Archiver.pending, copied] at distinct inTable
    obtain ⟨absent, restDistinct⟩ := List.nodup_cons.mp distinct
    refine ⟨intact.available, restDistinct, intact.noFile, ?_⟩
    intro key member later aggregate last
    have different : key.epoch ≠ epoch := by
      rintro rfl
      exact absent later
    have before := inTable key member (List.mem_cons_of_mem epoch later)
      aggregate last
    rw [tableAggregate_delete, if_neg different]
    exact before

theorem intact_step
    (boundDistinct : Set.InjOn bindKey keys)
    (system : System)
    (action : Action)
    (next : System)
    (intact : Intact keys system)
    (known : action.Over keys)
    (stepped : step database config system action = some next) :
    Intact keys next := by
  cases action with
  | compareAndSwap key expectedVal newVal =>
      exact intact.compareAndSwap boundDistinct known stepped
  | archive => exact intact.archive stepped
  | readWarm query =>
      obtain ⟨reader, rfl⟩ := read_cases (.inr ⟨query, rfl⟩) stepped
      exact ⟨intact.available, intact.distinct, intact.noFile, intact.inTable⟩
  | readCold =>
      obtain ⟨reader, rfl⟩ := read_cases (.inl rfl) stepped
      exact ⟨intact.available, intact.distinct, intact.noFile, intact.inTable⟩

/-- A `COPY` loses nothing. -/
theorem WritesFound.copy
    (intact : Intact keys system)
    (found : WritesFound keys system)
    {epoch : UInt64}
    (isPending : epoch ∈ system.archiver.pending)
    (archiver : Archiver) :
    WritesFound keys { system with
      store := system.store.copyEpoch epoch
      archiver := archiver } := by
  intro key member aggregate last
  by_cases same : key.epoch = epoch
  · left
    subst same
    exact intact.inTable key member isPending aggregate last
  · rcases found key member aggregate last with inTable | inFile
    · exact .inl inTable
    · right
      rw [archivedAggregate_copy_of_ne system archiver same]
      exact inFile

/-- A `DELETE` loses exactly what was not copied as it is. -/
theorem writesFound_delete_iff
    (intact : Intact keys system)
    (found : WritesFound keys system)
    {epoch : UInt64}
    (isPending : epoch ∈ system.archiver.pending)
    (archiver : Archiver) :
    WritesFound keys { system with
        store := system.store.deleteEpoch epoch
        archiver := archiver } ↔
      ∀ key ∈ keys, key.epoch = epoch → (system.written key).isSome →
        system.tableAggregate key = system.archivedAggregate key := by
  constructor
  · intro foundAfter key member same isWritten
    obtain ⟨aggregate, last⟩ := Option.isSome_iff_exists.mp isWritten
    rcases foundAfter key member aggregate last with gone | inFile
    · rw [tableAggregate_delete, if_pos same] at gone
      cases gone
    · subst same
      rw [intact.inTable key member isPending aggregate last]
      exact inFile.symm
  · intro copiedAsDeleted key member aggregate last
    by_cases same : key.epoch = epoch
    · right
      have equal := copiedAsDeleted key member same
        (Option.isSome_iff_exists.mpr ⟨aggregate, last⟩)
      subst same
      rw [intact.inTable key member isPending aggregate last] at equal
      exact equal.symm
    · rcases found key member aggregate last with before | inFile
      · left
        rw [tableAggregate_delete, if_neg same]
        exact before
      · exact .inr inFile

theorem writesFound_archive_iff
    (intact : Intact keys system)
    (found : WritesFound keys system)
    (stepped : archive system = some next) :
    WritesFound keys next ↔ CopiedAsDeleted keys system .archive := by
  rcases archive_cases stepped with
    ⟨epoch, rest, copied, waiting, rfl⟩ | ⟨epoch, copied, rfl⟩
  · have isPending : epoch ∈ system.archiver.pending := by
      rw [Archiver.pending, copied, waiting]
      exact List.mem_cons_self
    refine iff_of_true (found.copy intact isPending _) ?_
    intro other isCopied
    rw [copied] at isCopied
    cases isCopied
  · have isPending : epoch ∈ system.archiver.pending := by
      rw [Archiver.pending, copied]
      exact List.mem_cons_self
    rw [writesFound_delete_iff intact found isPending, CopiedAsDeleted, copied]
    simp

theorem writesFound_step_iff
    (boundDistinct : Set.InjOn bindKey keys)
    (system : System)
    (action : Action)
    (next : System)
    (intact : Intact keys system)
    (known : action.Over keys)
    (found : WritesFound keys system)
    (stepped : step database config system action = some next) :
    WritesFound keys next ↔ CopiedAsDeleted keys system action := by
  cases action with
  | compareAndSwap key expectedVal newVal =>
      refine iff_of_true ?_ trivial
      intro other otherMember aggregate last
      have sameFiles : next.archivedAggregate other =
          system.archivedAggregate other := by
        rw [step, Option.some.injEq] at stepped
        subst stepped
        rfl
      rcases tableAggregate_compareAndSwap boundDistinct intact.available known
        stepped otherMember with ⟨sameWritten, stays⟩ | ⟨isLast, inTable⟩
      · rw [sameWritten] at last
        rw [sameFiles]
        exact (found other otherMember aggregate last).imp_left
          (stays aggregate)
      · rw [isLast, Option.some.injEq] at last
        exact .inl (by rw [inTable, last])
  | archive => exact writesFound_archive_iff intact found stepped
  | readWarm query =>
      obtain ⟨reader, rfl⟩ := read_cases (.inr ⟨query, rfl⟩) stepped
      exact iff_of_true found trivial
  | readCold =>
      obtain ⟨reader, rfl⟩ := read_cases (.inl rfl) stepped
      exact iff_of_true found trivial

end Writers

/-- In every interleaving of swaps with the statements of a flush that archives
each of its epochs for the first time: what was written last is always in the
table or in the archive exactly if at every `DELETE` the keys of its epoch have
in the table what its `COPY` has put into the file. -/
theorem writesFound_iff_copiedAsDeleted
    (database : Database)
    (config : DuckDbConfig)
    (keys : Set WindowKey)
    (boundDistinct : Set.InjOn bindKey keys)
    (store : TieredStore)
    (available : store.warm.available = true)
    (epochs : List UInt64)
    (distinct : epochs.Nodup)
    (archivedOnce : ∀ epoch ∈ epochs, store.cold.lookup epoch = none)
    (written : WindowKey → Option Double)
    (found : WritesFound keys (System.start store epochs written))
    (actions : List Action)
    (known : ∀ action ∈ actions, action.Over keys)
    (final : System)
    (ran : Machine.run (step database config)
      (System.start store epochs written) actions = some final) :
    Machine.Throughout (step database config) (WritesFound keys)
        (System.start store epochs written) actions ↔
      Machine.RunMeets (step database config) (CopiedAsDeleted keys)
        (System.start store epochs written) actions :=
  Machine.throughout_iff_runMeets (intact_step boundDistinct)
    (writesFound_step_iff boundDistinct)
    (intact_start available distinct archivedOnce found) known found ran

/-- A database that adds from left to right. -/
def sequentialDatabase : Database := ⟨.sequential _, fun _ _ => none⟩

/-- The key of the examples. -/
def alice : WindowKey := ⟨"tenant", "alice", "logins", 0⟩

/-- The row of alice was written by its last swap, and epoch 0 is to be
archived. -/
def aliceArchiving : System :=
  System.start TieredStore.aliceArchivable [0] fun key =>
    if key = alice then some (.finite 1) else none

/-- A swap before the `COPY` and one after the `DELETE`. -/
theorem writesFound_swapsOutside :
    Machine.Throughout (step sequentialDatabase TieredStore.archiveConfig)
      (WritesFound {alice}) aliceArchiving
      [.compareAndSwap alice ⟨.finite 1, 1⟩ ⟨.finite 2, 2⟩, .archive, .archive,
        .compareAndSwap alice {} ⟨.finite 5, 1⟩] := by
  refine (writesFound_iff_copiedAsDeleted sequentialDatabase
    TieredStore.archiveConfig {alice} (Set.injOn_singleton _ _)
    TieredStore.aliceArchivable rfl [0] (List.nodup_singleton 0)
    (fun epoch _ => AList.lookup_empty epoch) _ ?_ _ ?_ _ rfl).mpr ?_
  · rintro _ rfl aggregate last
    exact .inl last
  · simp [Action.Over]
  · refine ⟨trivial, ?_⟩
    rintro _ ⟨⟩
    refine ⟨fun epoch absent => absurd absent (by simp [System.start]), ?_⟩
    rintro _ ⟨⟩
    refine ⟨?_, ?_⟩
    · rintro epoch - _ rfl - -
      rfl
    · rintro _ ⟨⟩
      exact ⟨trivial, fun _ _ => trivial⟩

/-- A swap between the `COPY` and the `DELETE` of its epoch: at the end the table
is empty, and the file has the value from before the swap. -/
theorem swap_between_lost :
    ∃ final : System,
      Machine.run (step sequentialDatabase TieredStore.archiveConfig)
          aliceArchiving
          [.archive, .compareAndSwap alice ⟨.finite 1, 1⟩ ⟨.finite 2, 2⟩,
            .archive] = some final ∧
        final.archiver.copied = none ∧ final.archiver.waiting = [] ∧
        final.written alice = some (.finite 2) ∧
        final.tableAggregate alice = none ∧
        final.archivedAggregate alice = some (.finite 1) ∧
        ¬ WritesFound {alice} final := by
  refine ⟨_, rfl, rfl, rfl, rfl, rfl, rfl, fun found => ?_⟩
  rcases found alice rfl (.finite 2) rfl with inTable | inFile
  · cases inTable
  · have same := Option.some.inj inFile
    revert same
    decide

/-! ## Readers -/

/-- The rows of the epochs. -/
def rowsOf (rows : List Row) (epochs : List UInt64) : List Row :=
  rows.filter fun row => decide (row.1.key.epoch ∈ epochs)

/-- The rows of all other epochs. -/
def rowsOutside (rows : List Row) (epochs : List UInt64) : List Row :=
  rows.filter fun row => decide (row.1.key.epoch ∉ epochs)

/-- What a query selects in the table that was not deleted when the table was
read, and was copied when the archive was read. -/
def doubleCounted
    (store : TieredStore)
    (query : RangeQuery)
    (deleted archived : List UInt64) : ℚ :=
  total (query.column
    (rowsOf (rowsOutside store.warm.rows.entries deleted) archived))

/-- Every row is in one of the two reads, and the double counted ones are in
both. -/
theorem total_rowsOutside_add_total_rowsOf
    (query : RangeQuery)
    (rows : List Row)
    {deleted archived : List UInt64}
    (within : deleted ⊆ archived) :
    total (query.column (rowsOutside rows deleted)) +
        total (query.column (rowsOf rows archived)) =
      total (query.column rows) +
        total (query.column (rowsOf (rowsOutside rows deleted) archived)) := by
  simp only [RangeQuery.total_column]
  induction rows with
  | nil => rfl
  | cons row rest inductionHypothesis =>
      simp only [rowsOf, rowsOutside, List.filter_cons] at inductionHypothesis ⊢
      by_cases isDeleted : row.1.key.epoch ∈ deleted
      · have isArchived := within isDeleted
        simp only [isDeleted, isArchived, not_true_eq_false, decide_false,
          decide_true, if_true, Bool.false_eq_true, if_false, List.map_cons,
          List.sum_cons]
        linarith
      · by_cases isArchived : row.1.key.epoch ∈ archived
        · simp only [isDeleted, isArchived, not_false_eq_true, decide_true,
            if_true, List.filter_cons, List.map_cons, List.sum_cons]
          linarith
        · simp only [isDeleted, isArchived, not_false_eq_true, decide_true,
            decide_false, if_true, Bool.false_eq_true, if_false,
            List.filter_cons, List.map_cons, List.sum_cons]
          linarith

/-- Copying one more epoch. -/
theorem rowsOf_append_perm
    (rows : List Row)
    {archived : List UInt64}
    {epoch : UInt64}
    (absent : epoch ∉ archived) :
    (rows.filter (fun row => row.1.key.epoch == epoch) ++
      rowsOf rows archived).Perm (rowsOf rows (archived ++ [epoch])) := by
  have split := List.filter_append_perm
    (fun row : Row => row.1.key.epoch == epoch)
    (rowsOf rows (archived ++ [epoch]))
  have first : (rowsOf rows (archived ++ [epoch])).filter
      (fun row => row.1.key.epoch == epoch) =
      rows.filter fun row => row.1.key.epoch == epoch := by
    rw [rowsOf, List.filter_filter]
    apply List.filter_congr
    intro row _
    by_cases same : row.1.key.epoch = epoch
    · simp [same]
    · simp [same]
  have second : (rowsOf rows (archived ++ [epoch])).filter
      (fun row => !(row.1.key.epoch == epoch)) = rowsOf rows archived := by
    rw [rowsOf, rowsOf, List.filter_filter]
    apply List.filter_congr
    intro row _
    by_cases same : row.1.key.epoch = epoch
    · simp [same, absent]
    · simp [same]
  rw [first, second] at split
  exact split

/-- The store during a flush without writers: the table lacks the deleted epochs,
and the archive has the copied ones in addition. -/
structure Moved (store : TieredStore) (epochs : List UInt64)
    (system : System) : Prop where
  available : system.store.warm.available = true
  order : system.archiver.archived ++ system.archiver.waiting = epochs
  noFile : ∀ epoch ∈ system.archiver.waiting,
    system.store.cold.lookup epoch = none
  table : system.store.warm.rows.entries =
    rowsOutside store.warm.rows.entries system.archiver.deleted
  files : system.store.archivedRows.Perm
    (rowsOf store.warm.rows.entries system.archiver.archived ++
      store.archivedRows)

theorem moved_start
    {store : TieredStore}
    {epochs : List UInt64}
    (available : store.warm.available = true)
    (archivedOnce : ∀ epoch ∈ epochs, store.cold.lookup epoch = none)
    (written : WindowKey → Option Double) :
    Moved store epochs (System.start store epochs written) where
  available := available
  order := rfl
  noFile := archivedOnce
  table := by simp [System.start, rowsOutside]
  files := by simp [System.start, Archiver.archived, rowsOf]

section Readers

variable {database : Database} {config : DuckDbConfig} {store : TieredStore}
  {epochs : List UInt64} {system next : System}

theorem Moved.copy
    (moved : Moved store epochs system)
    (distinct : epochs.Nodup)
    {epoch : UInt64}
    {rest : List UInt64}
    (copied : system.archiver.copied = none)
    (waiting : system.archiver.waiting = epoch :: rest) :
    Moved store epochs { system with
      store := system.store.copyEpoch epoch
      archiver :=
        { deleted := system.archiver.deleted
          copied := some epoch
          waiting := rest } } := by
  have order := moved.order
  have files := moved.files
  have archived : system.archiver.archived = system.archiver.deleted := by
    rw [Archiver.archived, copied, Option.toList_none, List.append_nil]
  rw [archived, waiting] at order
  rw [archived] at files
  rw [← order] at distinct
  have absent : epoch ∉ system.archiver.deleted := fun member =>
    List.disjoint_of_nodup_append distinct member List.mem_cons_self
  have notLater : epoch ∉ rest :=
    (List.nodup_cons.mp (List.nodup_append.mp distinct).2.1).1
  have noFile := moved.noFile epoch (by
    rw [waiting]
    exact List.mem_cons_self)
  refine ⟨moved.available, ?_, ?_, moved.table, ?_⟩
  · rw [← order]
    simp [Archiver.archived]
  · intro other later
    exact lookup_copyEpoch_of_waiting moved.noFile waiting notLater later
  · have newFile : (system.store.copyEpoch epoch).archivedRows =
        store.warm.rows.entries.filter (fun row => row.1.key.epoch == epoch) ++
          system.store.archivedRows := by
      change (system.store.cold.insert epoch _).entries.flatMap _ = _
      rw [AList.entries_insert_of_notMem (AList.lookup_eq_none.mp noFile),
        List.flatMap_cons]
      change system.store.warm.rows.entries.filter _ ++ _ = _
      rw [moved.table, rowsOutside, List.filter_filter]
      apply congrArg (· ++ system.store.archivedRows)
      apply List.filter_congr
      intro row _
      by_cases same : row.1.key.epoch = epoch
      · simp [same, absent]
      · simp [same]
    change (system.store.copyEpoch epoch).archivedRows.Perm
      (rowsOf _ (system.archiver.deleted ++ [epoch]) ++ _)
    rw [newFile]
    refine (files.append_left _).trans ?_
    rw [← List.append_assoc]
    exact (rowsOf_append_perm _ absent).append_right _

theorem Moved.delete
    (moved : Moved store epochs system)
    {epoch : UInt64}
    (copied : system.archiver.copied = some epoch) :
    Moved store epochs { system with
      store := system.store.deleteEpoch epoch
      archiver :=
        { deleted := system.archiver.deleted ++ [epoch]
          copied := none
          waiting := system.archiver.waiting } } := by
  have order := moved.order
  have files := moved.files
  have archived : system.archiver.archived =
      system.archiver.deleted ++ [epoch] := by
    rw [Archiver.archived, copied, Option.toList_some]
  have stillArchived : Archiver.archived
      { deleted := system.archiver.deleted ++ [epoch]
        copied := none
        waiting := system.archiver.waiting } =
      system.archiver.deleted ++ [epoch] := by
    rw [Archiver.archived, Option.toList_none, List.append_nil]
  rw [archived] at order files
  refine ⟨moved.available, ?_, moved.noFile, ?_, ?_⟩
  · dsimp only
    rw [stillArchived]
    exact order
  · change system.store.warm.rows.entries.filter _ = _
    rw [moved.table, rowsOutside, rowsOutside, List.filter_filter]
    apply List.filter_congr
    intro row _
    by_cases same : row.1.key.epoch = epoch
    · simp [same]
    · simp [same]
  · dsimp only
    rw [stillArchived]
    exact files

/-- What the reader has read, in terms of the store at the start. -/
def ReadsMoved
    (database : Database)
    (config : DuckDbConfig)
    (store : TieredStore)
    (system : System) : Prop :=
  match system.reader with
  | .idle => True
  | .warmRead query warmSum deleted =>
      deleted ⊆ system.archiver.deleted ∧
        warmSum = database.coalesceSum (query.bound.column
          (rowsOutside store.warm.rows.entries deleted))
  | .finished query result deleted archived =>
      deleted ⊆ archived ∧ ∃ cold : TieredStore,
        cold.archivedRows.Perm
            (rowsOf store.warm.rows.entries archived ++ store.archivedRows) ∧
          result = add .binary64
            (database.coalesceSum (query.bound.column
              (rowsOutside store.warm.rows.entries deleted)))
            (cold.coldSum database config .none query)

/-- A statement of the flush leaves what was read behind. -/
theorem ReadsMoved.of_grows
    (reads : ReadsMoved database config store system)
    (sameReader : next.reader = system.reader)
    (grows : system.archiver.deleted ⊆ next.archiver.deleted) :
    ReadsMoved database config store next := by
  unfold ReadsMoved at reads ⊢
  rw [sameReader]
  cases reader : system.reader with
  | idle => trivial
  | warmRead query warmSum deleted =>
      rw [reader] at reads
      exact ⟨List.Subset.trans reads.1 grows, reads.2⟩
  | finished query result deleted archived =>
      rw [reader] at reads
      exact reads

/-- The action is not a swap. -/
def Action.WritesNothing : Action → Prop
  | .compareAndSwap _ _ _ => False
  | _ => True

theorem moved_step
    (distinct : epochs.Nodup)
    (system : System)
    (action : Action)
    (next : System)
    (holds : Moved store epochs system ∧
      ReadsMoved database config store system)
    (writesNothing : action.WritesNothing)
    (stepped : step database config system action = some next) :
    Moved store epochs next ∧ ReadsMoved database config store next := by
  obtain ⟨moved, reads⟩ := holds
  cases action with
  | compareAndSwap key expectedVal newVal => exact absurd writesNothing id
  | archive =>
      rcases archive_cases stepped with
        ⟨epoch, rest, copied, waiting, rfl⟩ | ⟨epoch, copied, rfl⟩
      · exact ⟨moved.copy distinct copied waiting,
          reads.of_grows rfl (List.Subset.refl _)⟩
      · exact ⟨moved.delete copied,
          reads.of_grows rfl (List.subset_append_left _ _)⟩
  | readWarm query =>
      rw [step] at stepped
      split at stepped
      · rw [Option.some.injEq] at stepped
        subst stepped
        refine ⟨⟨moved.available, moved.order, moved.noFile, moved.table,
          moved.files⟩, List.Subset.refl _, ?_⟩
        rw [moved.table]
      · cases stepped
  | readCold =>
      unfold ReadsMoved at reads
      rw [step] at stepped
      split at stepped
      · next query warmSum deleted reader =>
          rw [reader] at reads
          obtain ⟨within, rfl⟩ := reads
          rw [Option.some.injEq] at stepped
          subst stepped
          refine ⟨⟨moved.available, moved.order, moved.noFile, moved.table,
            moved.files⟩, ?_, system.store, moved.files, rfl⟩
          exact List.Subset.trans within (List.subset_append_left _ _)
      · cases stepped

/-- The two reads return the total, and once more what was counted twice. -/
theorem add_reads_eq
    (archiving : config.archives = true)
    (plainDir : PlainText config.parquetArchiveDir)
    {query : RangeQuery}
    (plain : query.key.PlainTexts)
    (exact : ExactColumn .binary64 (query.column store.warm.rows.entries ++
      (query.column store.warm.rows.entries ++
        query.column store.archivedRows)))
    {deleted archived : List UInt64}
    (within : deleted ⊆ archived)
    {cold : TieredStore}
    (files : cold.archivedRows.Perm
      (rowsOf store.warm.rows.entries archived ++ store.archivedRows)) :
    add .binary64
        (database.coalesceSum (query.bound.column
          (rowsOutside store.warm.rows.entries deleted)))
        (cold.coldSum database config .none query) =
      .finite (store.rangeTotal query +
        doubleCounted store query deleted archived) := by
  have coldColumn : (query.column cold.archivedRows).Perm
      (query.column (rowsOf store.warm.rows.entries archived) ++
        query.column store.archivedRows) := by
    rw [← RangeQuery.column_append]
    exact (files.filter _).map _
  have sublistOf {rows : List Row} (part : rows.Sublist
      store.warm.rows.entries) :
      (query.column rows).Sublist (query.column store.warm.rows.entries) :=
    (part.filter _).map _
  have exactReads : ExactColumn .binary64
      (query.column (rowsOutside store.warm.rows.entries deleted) ++
        query.column cold.archivedRows) := by
    apply exact.subperm
    apply (sublistOf List.filter_sublist).subperm.append
    apply coldColumn.subperm.trans
    exact ((sublistOf List.filter_sublist).append_right _).subperm
  have coldTotal : total (query.column cold.archivedRows) =
      total (query.column (rowsOf store.warm.rows.entries archived)) +
        total (query.column store.archivedRows) := by
    rw [← total_append]
    exact (coldColumn.map toRat).sum_eq
  have balance := total_rowsOutside_add_total_rowsOf query
    store.warm.rows.entries within
  rw [RangeQuery.bound_eq plain,
    TieredStore.coalesceSum_eq
      (exactReads.sublist (List.sublist_append_left _ _)),
    TieredStore.coldSum_eq database plainDir
      (TieredStore.readsFiles_of_archives archiving cold query) plain
      (exactReads.sublist (List.sublist_append_right _ _)),
    exactReads.add_total, FloatValue.finite.injEq, coldTotal,
    TieredStore.rangeTotal, doubleCounted]
  linarith

end Readers

/-- While a flush archives its epochs for the first time and nobody writes, a
query for plain texts whose aggregates add up without rounding, also when the
table is counted twice, returns what it would have returned before the flush
exactly if the rows it has seen in both tiers add up to zero. -/
theorem finished_eq_queryRange_iff
    (database : Database)
    (config : DuckDbConfig)
    (archiving : config.archives = true)
    (plainDir : PlainText config.parquetArchiveDir)
    (store : TieredStore)
    (available : store.warm.available = true)
    (epochs : List UInt64)
    (distinct : epochs.Nodup)
    (archivedOnce : ∀ epoch ∈ epochs, store.cold.lookup epoch = none)
    (written : WindowKey → Option Double)
    (query : RangeQuery)
    (plain : query.key.PlainTexts)
    (exact : ExactColumn .binary64 (query.column store.warm.rows.entries ++
      (query.column store.warm.rows.entries ++
        query.column store.archivedRows)))
    (actions : List Action)
    (noWrites : ∀ action ∈ actions, action.WritesNothing)
    (final : System)
    (ran : Machine.run (step database config)
      (System.start store epochs written) actions = some final)
    (result : Double)
    (deleted archived : List UInt64)
    (finished : final.reader = .finished query result deleted archived) :
    .ok result = store.queryRange database config .none query ↔
      doubleCounted store query deleted archived = 0 := by
  have reads : ReadsMoved database config store final :=
    (Machine.invariant_of_run_of_meets
      (fun state action next => moved_step distinct state action next)
      ⟨moved_start available archivedOnce written, trivial⟩
      (Machine.runMeets_of_forall_mem noWrites _) ran).2
  rw [ReadsMoved, finished] at reads
  obtain ⟨within, cold, files, rfl⟩ := reads
  have single := exact.sublist (List.sublist_append_right _ _)
  rw [add_reads_eq archiving plainDir plain exact within files,
    TieredStore.queryRange_eq_of_exactColumn database plainDir available
      (TieredStore.readsFiles_of_archives archiving store query) plain single,
    Except.ok.injEq, FloatValue.finite.injEq, add_eq_left]

/-- The query for alice in epoch 0. -/
def aliceQuery : RangeQuery := ⟨"tenant", "alice", "logins", 0, 0⟩

/-- Both reads after the flush. -/
theorem finished_eq_queryRange_afterFlush :
    ∃ final result,
      Machine.run (step sequentialDatabase TieredStore.archiveConfig)
          aliceArchiving [.archive, .archive, .readWarm aliceQuery, .readCold] =
        some final ∧
      final.reader = .finished aliceQuery result [0] [0] ∧
      .ok result = TieredStore.aliceArchivable.queryRange sequentialDatabase
        TieredStore.archiveConfig .none aliceQuery := by
  refine ⟨_, _, rfl, rfl, ?_⟩
  refine (finished_eq_queryRange_iff sequentialDatabase
    TieredStore.archiveConfig rfl (by decide) TieredStore.aliceArchivable rfl [0]
    (List.nodup_singleton 0) (fun epoch _ => AList.lookup_empty epoch)
    aliceArchiving.written aliceQuery (by decide) ?_
    [.archive, .archive, .readWarm aliceQuery, .readCold] ?_ _ rfl _ [0] [0]
    rfl).mpr ?_
  · have integral : aliceQuery.column
          TieredStore.aliceArchivable.warm.rows.entries ++
        (aliceQuery.column TieredStore.aliceArchivable.warm.rows.entries ++
          aliceQuery.column TieredStore.aliceArchivable.archivedRows) =
        ofIntegers [1, 1] := rfl
    rw [integral]
    exact ExactColumn.of_integers (by decide)
  · simp [Action.WritesNothing]
  · decide +kernel

/-- The table is read before the `DELETE` and the archive after the `COPY`: the
one login is counted twice. -/
theorem row_counted_twice :
    ∃ final deleted archived,
      Machine.run (step sequentialDatabase TieredStore.archiveConfig)
          aliceArchiving [.readWarm aliceQuery, .archive, .readCold] =
        some final ∧
      final.reader = .finished aliceQuery (.finite 2) deleted archived ∧
      TieredStore.aliceArchivable.queryRange sequentialDatabase
        TieredStore.archiveConfig .none aliceQuery = .ok (.finite 1) := by
  refine ⟨_, [], [0], rfl, ?_, ?_⟩
  · have sum : add .binary64 (.finite 1) (.finite 1) = .finite 2 := by
      decide +kernel
    have warmSum : sequentialDatabase.coalesceSum (aliceQuery.bound.column
        TieredStore.aliceArchivable.warm.rows.entries) = .finite 1 := by
      decide +kernel
    have coldSum : (TieredStore.aliceArchivable.copyEpoch 0).coldSum
        sequentialDatabase TieredStore.archiveConfig .none aliceQuery =
          .finite 1 := by
      decide +kernel
    change Reader.finished aliceQuery (add .binary64
      (sequentialDatabase.coalesceSum (aliceQuery.bound.column
        TieredStore.aliceArchivable.warm.rows.entries))
      ((TieredStore.aliceArchivable.copyEpoch 0).coldSum sequentialDatabase
        TieredStore.archiveConfig .none aliceQuery)) [] [0] = _
    rw [warmSum, coldSum, sum]
  · rw [TieredStore.queryRange_none _ _ rfl]
    apply congrArg Except.ok
    decide +kernel

end ConcurrentArchive
end State
end Fre
