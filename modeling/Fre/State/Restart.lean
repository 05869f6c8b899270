import Fre.State.WriteBackWindowStore

/-!
# Restarting the write-back store

The destructor flushes once more, and the next store is seeded from the rows of
the warm tier.  What was written comes back; what was expired comes back too if
its row could not be deleted, because a flush forgets the keys it failed to
delete.
-/

namespace Fre
namespace State
namespace WriteBackWindowStore

open Foundation

variable {layout : StoreLayout} {keys : Set WindowKey}

/-- The destructor; the warm tier outlives it. -/
def destroy (store : WriteBackWindowStore layout) (flush : Flush) :
    DuckDbWindowStore :=
  (store.flushSync flush).warm

/-! ## Whose rows the warm tier holds -/

/-- Every row belongs to one of the keys. -/
def RowsOf (keys : Set WindowKey) (warm : DuckDbWindowStore) : Prop :=
  ∀ row ∈ warm.rows, ∃ key ∈ keys, bindKey key = row

theorem mem_of_mem_deleteExpired
    {faults : Nat → Faults}
    {position : Nat}
    {expired : List WindowKey}
    {warm : DuckDbWindowStore}
    {row : RowKey}
    (member : row ∈ (deleteExpired faults position expired warm).rows) :
    row ∈ warm.rows := by
  induction expired generalizing position warm with
  | nil => exact member
  | cons key rest inductionHypothesis =>
      have before := inductionHypothesis member
      rw [DuckDbWindowStore.expire_snd] at before
      split at before
      · exact (AList.mem_erase.mp before).2
      · exact before

/-- A flush adds rows of dirty keys only. -/
theorem RowsOf.flushSync
    {store : WriteBackWindowStore layout}
    (rowsOf : RowsOf keys store.warm)
    (dirtyKnown : ∀ key ∈ store.dirtySet, key ∈ keys)
    {flush : Flush}
    (enumerates : store.Enumerates flush) :
    RowsOf keys (store.flushSync flush).warm := by
  intro row member
  rcases store.flushSync_cases flush with refused | wrote
  · rw [refused] at member
    exact rowsOf row (mem_of_mem_deleteExpired member)
  · rw [wrote] at member
    rcases Table.mem_insertAll.mp (mem_of_mem_deleteExpired member) with
      old | new
    · exact rowsOf row old
    · rw [DuckDbWindowStore.mem_map_fst_boundBatch_iff] at new
      obtain ⟨key, inBatch, rfl⟩ := List.mem_map.mp new
      refine ⟨key, dirtyKnown key ?_, rfl⟩
      rw [← enumerates.mem_dirtyOrder_iff]
      simpa [readBatch] using inBatch

/-- A key that shares its location with no row is not seeded. -/
theorem get_create_of_absent
    {warm : DuckDbWindowStore}
    (available : warm.available = true)
    {key : WindowKey}
    (absent : ∀ row ∈ warm.rows, makeKey key ≠ makeKey row.key) :
    (create (.empty layout) warm .none).get key = {} := by
  have unseeded : ∀ (rows : List (WindowKey × WindowValue))
      (primary : InProcessWindowStore layout),
      (∀ row ∈ rows, makeKey key ≠ makeKey row.1) →
        (seed primary rows).get key = primary.get key := by
    intro rows
    induction rows with
    | nil => exact fun _ _ => rfl
    | cons row rest inductionHypothesis =>
        intro primary others
        rw [seed, List.foldl_cons, ← seed, inductionHypothesis _
          fun other member => others other (List.mem_cons_of_mem row member)]
        exact primary.get_compareAndSwap_of_ne
          (layout.locate_ne_of_makeKey_ne (others row List.mem_cons_self)) _ _
  rw [WriteBackWindowStore.get, primary_create (.empty layout) available,
    unseeded]
  · exact InProcessWindowStore.get_empty layout key
  · intro row member
    obtain ⟨entry, entryMember, rfl⟩ := List.mem_map.mp member
    exact absent entry.1 (AList.mem_keys.mpr (List.mem_map_of_mem entryMember))

/-! ## Expired keys -/

/-- The store, with the keys whose last successful write was an expiry. -/
structure History (layout : StoreLayout) where
  store : WriteBackWindowStore layout
  expiredLast : Finset WindowKey

namespace History

/-- A store that has just been built. -/
def opened
    (primary : InProcessWindowStore layout)
    (warm : DuckDbWindowStore)
    (faults : Faults) : History layout where
  store := create primary warm faults
  expiredLast := ∅

/-- The keys last expired, after the operation. -/
def expiredAfter (history : History layout) : Operation → Finset WindowKey
  | .compareAndSwap key expectedVal newVal =>
      if (history.store.compareAndSwap key expectedVal newVal).1 then
        history.expiredLast.erase key
      else history.expiredLast
  | .expire key => insert key history.expiredLast
  | .get _ => history.expiredLast
  | .flushSync _ => history.expiredLast

/-- One operation of a sequential client. -/
def step (history : History layout) (op : Operation) :
    Option (History layout) :=
  (WriteBackWindowStore.step history.store op).map fun next =>
    { store := next, expiredLast := history.expiredAfter op }

/-- A key that was expired last has no row or is still to be deleted, and no
restart after a successful flush brings it back. -/
structure StaysExpired (history : History layout) : Prop where
  pending : ∀ key ∈ history.expiredLast,
    bindKey key ∉ history.store.warm.rows ∨ key ∈ history.store.expiredSet
  notRestored : ∀ flush, history.store.warm.available = true →
    history.store.Enumerates flush → flush.Succeeds →
      ∀ restarted : StoreLayout, ∀ key ∈ history.expiredLast,
        (create (.empty restarted) (history.store.flushSync flush).warm
          .none).get key = {}

/-- Every deletion of the flush that has a row to delete, of a key not written
since its expiry, goes through. -/
def DeletesPass (history : History layout) : Operation → Prop
  | .flushSync flush => ∀ (index : Nat) (key : WindowKey),
      flush.expiredOrder[index]? = some key →
        key ∉ history.store.dirtySet →
          bindKey key ∈ history.store.warm.rows →
            history.store.warm.available ∧ (flush.deleteFaults index).Passes 0
  | _ => True

/-- The pending sets as the operations leave them. -/
structure Consistent (keys : Set WindowKey) (history : History layout) :
    Prop where
  rowsOf : RowsOf keys history.store.warm
  dirtyKnown : ∀ key ∈ history.store.dirtySet, key ∈ keys
  expiredKnown : ∀ key ∈ history.store.expiredSet, key ∈ keys
  lastKnown : ∀ key ∈ history.expiredLast, key ∈ keys
  clean : ∀ key ∈ history.expiredLast, key ∉ history.store.dirtySet
  last : ∀ key ∈ history.store.expiredSet, key ∉ history.store.dirtySet →
    key ∈ history.expiredLast

theorem consistent_opened
    (primary : InProcessWindowStore layout)
    {warm : DuckDbWindowStore}
    (rowsOf : RowsOf keys warm)
    (faults : Faults) :
    Consistent keys (opened primary warm faults) where
  rowsOf := rowsOf
  dirtyKnown := by simp [opened, create]
  expiredKnown := by simp [opened, create]
  lastKnown := by simp [opened]
  clean := by simp [opened]
  last := by simp [opened, create]

section Steps

variable {history next : History layout} {op : Operation} {key : WindowKey}

theorem Consistent.compareAndSwap
    (consistent : Consistent keys history)
    (member : key ∈ keys)
    {expectedVal newVal : WindowValue}
    (stepped : step history (.compareAndSwap key expectedVal newVal) =
      some next) :
    Consistent keys next := by
  rw [step, WriteBackWindowStore.step, Option.map_some,
    Option.some.injEq] at stepped
  subst stepped
  obtain ⟨rowsOf, dirtyKnown, expiredKnown, lastKnown, clean, last⟩ := consistent
  unfold expiredAfter WriteBackWindowStore.compareAndSwap
  dsimp only
  split
  · refine ⟨rowsOf, ?_, expiredKnown, ?_, ?_, ?_⟩
    · intro other present
      rcases Finset.mem_insert.1 present with rfl | old
      · exact member
      · exact dirtyKnown other old
    · intro other present
      rw [if_pos rfl] at present
      exact lastKnown other (Finset.mem_of_mem_erase present)
    · intro other present
      rw [if_pos rfl] at present
      obtain ⟨different, old⟩ := Finset.mem_erase.1 present
      rw [Finset.mem_insert, not_or]
      exact ⟨different, clean other old⟩
    · intro other expired notDirty
      rw [Finset.mem_insert, not_or] at notDirty
      rw [if_pos rfl, Finset.mem_erase]
      exact ⟨notDirty.1, last other expired notDirty.2⟩
  · exact ⟨rowsOf, dirtyKnown, expiredKnown, lastKnown, clean, last⟩

theorem Consistent.expire
    (consistent : Consistent keys history)
    (member : key ∈ keys)
    (stepped : step history (.expire key) = some next) :
    Consistent keys next := by
  rw [step, WriteBackWindowStore.step, Option.map_some,
    Option.some.injEq] at stepped
  subst stepped
  obtain ⟨rowsOf, dirtyKnown, expiredKnown, lastKnown, clean, last⟩ := consistent
  have inserted {known : Finset WindowKey}
      (allKnown : ∀ other ∈ known, other ∈ keys) :
      ∀ other ∈ insert key known, other ∈ keys := by
    intro other present
    rcases Finset.mem_insert.1 present with rfl | old
    · exact member
    · exact allKnown other old
  refine ⟨rowsOf, ?_, inserted expiredKnown, inserted lastKnown, ?_, ?_⟩
  · exact fun other present => dirtyKnown other (Finset.mem_of_mem_erase present)
  · intro other present
    dsimp only [WriteBackWindowStore.expire]
    rw [Finset.mem_erase, not_and]
    intro different
    rcases Finset.mem_insert.1 present with same | old
    · exact absurd same different
    · exact clean other old
  · intro other expired notDirty
    rcases Finset.mem_insert.1 expired with rfl | old
    · exact Finset.mem_insert_self _ _
    · by_cases same : other = key
      · exact Finset.mem_insert.2 (.inl same)
      · refine Finset.mem_insert_of_mem (last other old fun dirty => ?_)
        exact notDirty (Finset.mem_erase.2 ⟨same, dirty⟩)

theorem Consistent.flushSync
    (consistent : Consistent keys history)
    {flush : Flush}
    (stepped : step history (.flushSync flush) = some next) :
    Consistent keys next := by
  rw [step, WriteBackWindowStore.step] at stepped
  split at stepped
  · next enumerates =>
      rw [Option.map_some, Option.some.injEq] at stepped
      subst stepped
      obtain ⟨rowsOf, dirtyKnown, -, lastKnown, clean, -⟩ := consistent
      have stillDirty : (history.store.flushSync flush).dirtySet ⊆
          history.store.dirtySet := by
        rcases history.store.flushSync_cases flush with refused | wrote
        · rw [refused, ← enumerates.1.2]
        · rw [wrote]
          exact Finset.empty_subset _
      refine ⟨rowsOf.flushSync dirtyKnown enumerates, ?_, ?_, lastKnown, ?_, ?_⟩
      · exact fun other dirty => dirtyKnown other (stillDirty dirty)
      · simp
      · exact fun other present dirty => clean other present (stillDirty dirty)
      · simp
  · cases stepped

theorem consistent_step
    (history : History layout)
    (op : Operation)
    (next : History layout)
    (consistent : Consistent keys history)
    (known : op.Over keys)
    (stepped : step history op = some next) :
    Consistent keys next := by
  cases op with
  | get key =>
      rw [step, WriteBackWindowStore.step, Option.map_some,
        Option.some.injEq] at stepped
      exact stepped ▸ consistent
  | compareAndSwap key expectedVal newVal =>
      exact consistent.compareAndSwap known stepped
  | expire key => exact consistent.expire known stepped
  | flushSync flush => exact consistent.flushSync stepped

/-- Deletions meet the row of a key that is not dirty as it was before the
flush. -/
theorem lookup_flushSync
    (boundDistinct : Set.InjOn bindKey keys)
    {store : WriteBackWindowStore layout}
    (dirtyKnown : ∀ key ∈ store.dirtySet, key ∈ keys)
    {flush : Flush}
    (enumerates : store.Enumerates flush)
    (member : key ∈ keys)
    (clean : key ∉ store.dirtySet) :
    ∃ warm : DuckDbWindowStore,
      (store.flushSync flush).warm =
          deleteExpired flush.deleteFaults 0 flush.expiredOrder warm ∧
        warm.available = store.warm.available ∧
        warm.rows.lookup (bindKey key) =
          store.warm.rows.lookup (bindKey key) := by
  rcases store.flushSync_cases flush with refused | wrote
  · exact ⟨store.warm, by rw [refused], rfl, rfl⟩
  · refine ⟨{ store.warm with
      rows := Table.insertAll store.warm.rows (DuckDbWindowStore.boundBatch
        (readBatch store.primary flush.dirtyOrder)) },
      by rw [wrote], rfl, ?_⟩
    apply Table.lookup_insertAll_of_not_mem
    rw [DuckDbWindowStore.mem_map_fst_boundBatch_iff]
    intro bound
    obtain ⟨other, inBatch, same⟩ := List.mem_map.mp bound
    have dirty : other ∈ store.dirtySet := by
      rw [← enumerates.mem_dirtyOrder_iff]
      simpa [readBatch] using inBatch
    exact clean (boundDistinct (dirtyKnown other dirty) member same ▸ dirty)

/-- What is pending before a flush is deleted by it exactly if its deletions go
through. -/
theorem pending_flushSync_iff
    (boundDistinct : Set.InjOn bindKey keys)
    (consistent : Consistent keys history)
    (pending : ∀ key ∈ history.expiredLast,
      bindKey key ∉ history.store.warm.rows ∨ key ∈ history.store.expiredSet)
    {flush : Flush}
    (enumerates : history.store.Enumerates flush) :
    (∀ key ∈ history.expiredLast,
        bindKey key ∉ (history.store.flushSync flush).warm.rows) ↔
      history.DeletesPass (.flushSync flush) := by
  have orderKnown : ∀ key ∈ flush.expiredOrder, key ∈ keys :=
    fun key present => consistent.expiredKnown key
      (enumerates.mem_expiredOrder_iff.1 present)
  have boundNodup : (flush.expiredOrder.map bindKey).Nodup :=
    enumerates.2.1.map_on fun first firstMember second secondMember =>
      boundDistinct (orderKnown first firstMember)
        (orderKnown second secondMember)
  constructor
  · intro gone index key found clean present
    have last := consistent.last key
      (enumerates.mem_expiredOrder_iff.1 (List.mem_of_getElem? found)) clean
    obtain ⟨warm, flushed, sameAvailable, sameRow⟩ :=
      lookup_flushSync boundDistinct consistent.dirtyKnown enumerates
        (consistent.lastKnown key last) clean
    have goneHere := gone key last
    rw [flushed, ← AList.lookup_eq_none,
      lookup_deleteExpired flush.deleteFaults 0 boundNodup warm found,
      sameAvailable, Nat.zero_add, sameRow] at goneHere
    by_contra fails
    rw [if_neg fails, AList.lookup_eq_none] at goneHere
    exact goneHere present
  · intro deletes key last
    have clean := consistent.clean key last
    have member := consistent.lastKnown key last
    obtain ⟨warm, flushed, sameAvailable, sameRow⟩ :=
      lookup_flushSync boundDistinct consistent.dirtyKnown enumerates member
        clean
    rw [flushed, ← AList.lookup_eq_none]
    by_cases expired : key ∈ flush.expiredOrder
    · obtain ⟨index, found⟩ := List.mem_iff_getElem?.1 expired
      rw [lookup_deleteExpired flush.deleteFaults 0 boundNodup warm found,
        sameAvailable, Nat.zero_add, sameRow, ite_eq_left_iff]
      intro fails
      rw [AList.lookup_eq_none]
      exact fun present => fails (deletes index key found clean present)
    · have notDeleted : bindKey key ∉ flush.expiredOrder.map bindKey := by
        intro bound
        obtain ⟨other, present, same⟩ := List.mem_map.mp bound
        exact expired
          (boundDistinct (orderKnown other present) member same ▸ present)
      rw [lookup_deleteExpired_of_not_mem _ _ _ notDeleted, sameRow,
        AList.lookup_eq_none]
      exact (pending key last).resolve_right fun old =>
        expired (enumerates.mem_expiredOrder_iff.2 old)

/-- In a consistent store it is enough that every key expired last is gone or
still pending. -/
theorem staysExpired_iff_pending
    (boundDistinct : Set.InjOn bindKey keys)
    (storedDistinct : ∀ key ∈ keys, ∀ other ∈ keys,
      makeKey (cKey key) = makeKey other → key = other)
    (consistent : Consistent keys history) :
    history.StaysExpired ↔ ∀ key ∈ history.expiredLast,
      bindKey key ∉ history.store.warm.rows ∨
        key ∈ history.store.expiredSet := by
  constructor
  · exact StaysExpired.pending
  · intro pending
    refine ⟨pending, ?_⟩
    intro flush available enumerates succeeds restarted key last
    have deletes : history.DeletesPass (.flushSync flush) := by
      intro index other _ _ _
      rw [succeeds.2 index]
      exact ⟨available, rfl, rfl⟩
    have gone := (pending_flushSync_iff boundDistinct consistent pending
      enumerates).2 deletes key last
    have stillAvailable :
        (history.store.flushSync flush).warm.available = true := by
      rw [flushSync_of_succeeds available succeeds]
      exact available
    apply get_create_of_absent stillAvailable
    intro row present same
    obtain ⟨owner, ownerMember, rfl⟩ :=
      consistent.rowsOf.flushSync consistent.dirtyKnown enumerates row present
    have owns := storedDistinct owner ownerMember key
      (consistent.lastKnown key last) same.symm
    exact gone (owns ▸ present)

theorem staysExpired_step_iff
    (boundDistinct : Set.InjOn bindKey keys)
    (storedDistinct : ∀ key ∈ keys, ∀ other ∈ keys,
      makeKey (cKey key) = makeKey other → key = other)
    (history : History layout)
    (op : Operation)
    (next : History layout)
    (consistent : Consistent keys history)
    (known : op.Over keys)
    (stays : history.StaysExpired)
    (stepped : step history op = some next) :
    next.StaysExpired ↔ history.DeletesPass op := by
  rw [staysExpired_iff_pending boundDistinct storedDistinct
    (consistent_step history op next consistent known stepped)]
  cases op with
  | get key =>
      rw [step, WriteBackWindowStore.step, Option.map_some,
        Option.some.injEq] at stepped
      subst stepped
      exact iff_of_true stays.pending trivial
  | compareAndSwap key expectedVal newVal =>
      rw [step, WriteBackWindowStore.step, Option.map_some,
        Option.some.injEq] at stepped
      subst stepped
      refine iff_of_true ?_ trivial
      intro other present
      rw [warm_compareAndSwap, expiredSet_compareAndSwap]
      unfold expiredAfter at present
      dsimp only at present
      split at present
      · exact stays.pending other (Finset.mem_of_mem_erase present)
      · exact stays.pending other present
  | expire key =>
      rw [step, WriteBackWindowStore.step, Option.map_some,
        Option.some.injEq] at stepped
      subst stepped
      refine iff_of_true ?_ trivial
      intro other present
      rcases Finset.mem_insert.1 present with rfl | old
      · exact .inr (Finset.mem_insert_self _ _)
      · exact (stays.pending other old).imp_right Finset.mem_insert_of_mem
  | flushSync flush =>
      rw [step, WriteBackWindowStore.step] at stepped
      split at stepped
      · next enumerates =>
          rw [Option.map_some, Option.some.injEq] at stepped
          subst stepped
          rw [← pending_flushSync_iff boundDistinct consistent stays.pending
            enumerates]
          simp [expiredAfter]
      · cases stepped

end Steps

/-- In every run, whichever statements fail and whether or not the warm tier is
open: the keys expired last stay expired exactly if every flush deletes the rows
of the keys that are to be deleted.  The keys are different also as they stand
in the table. -/
theorem staysExpired_iff_deletesPass
    (layout : StoreLayout)
    (keys : Set WindowKey)
    (boundDistinct : Set.InjOn bindKey keys)
    (storedDistinct : ∀ key ∈ keys, ∀ other ∈ keys,
      makeKey (cKey key) = makeKey other → key = other)
    (primary : InProcessWindowStore layout)
    (warm : DuckDbWindowStore)
    (rowsOf : RowsOf keys warm)
    (faults : Faults)
    (ops : List Operation)
    (known : ∀ op ∈ ops, op.Over keys)
    (final : History layout)
    (ran : Machine.run step (opened primary warm faults) ops = some final) :
    Machine.Throughout step StaysExpired (opened primary warm faults) ops ↔
      Machine.RunMeets step DeletesPass (opened primary warm faults) ops := by
  have start := consistent_opened primary rowsOf faults
  refine Machine.throughout_iff_runMeets consistent_step
    (staysExpired_step_iff boundDistinct storedDistinct) start known ?_ ran
  rw [staysExpired_iff_pending boundDistinct storedDistinct start]
  simp [opened]

/-- The second flush of `writeThenExpire` deletes the row. -/
theorem staysExpired_writeThenExpire :
    Machine.Throughout step StaysExpired
      (opened (.empty ⟨fun _ => 0, 1, by decide⟩) ⟨true, ∅⟩ .none)
      writeThenExpire := by
  refine (staysExpired_iff_deletesPass ⟨fun _ => 0, 1, by decide⟩ {aliceLogins}
    (Set.injOn_singleton _ _) ?_ (.empty _) ⟨true, ∅⟩ ?_ .none
    writeThenExpire ?_ _ (Option.some_get (by decide +kernel)).symm).2 ?_
  · rintro _ rfl _ rfl _
    rfl
  · exact fun row absent => absurd absent (AList.notMem_empty row)
  · simp [writeThenExpire, Operation.Over]
  · refine ⟨trivial, ?_⟩
    rintro _ ⟨⟩
    refine ⟨fun _ _ absent => absurd absent (by simp), ?_⟩
    rintro _ ⟨⟩
    refine ⟨trivial, ?_⟩
    rintro _ ⟨⟩
    exact ⟨fun _ _ _ _ _ => ⟨rfl, rfl, rfl⟩, fun _ _ => trivial⟩

/-- The deletion of the second flush fails. -/
def deletionFails : List Operation :=
  [.compareAndSwap aliceLogins {} ⟨.finite 1, 1⟩,
    .flushSync { dirtyOrder := [aliceLogins], expiredOrder := [] },
    .expire aliceLogins,
    .flushSync { dirtyOrder := [], expiredOrder := [aliceLogins]
                 deleteFaults := fun _ =>
                   { executeError := fun _ => some "IO Error" } }]

/-- The expired key has a row and is not to be deleted any more; after the next
flush and a restart its count is back. -/
theorem failed_deletion_forgotten :
    ∃ final : History ⟨fun _ => 0, 1, by decide⟩,
      Machine.run step (opened (.empty _) ⟨true, ∅⟩ .none) deletionFails =
          some final ∧
        aliceLogins ∈ final.expiredLast ∧
        final.store.expiredSet = ∅ ∧
        bindKey aliceLogins ∈ final.store.warm.rows ∧
        ¬ final.StaysExpired ∧
        (create (.empty ⟨fun _ => 0, 1, by decide⟩)
          (final.store.flushSync
            { dirtyOrder := [], expiredOrder := [] }).warm .none).get
              aliceLogins = ⟨.finite 1, 1⟩ := by
  refine ⟨_, (Option.some_get (by decide +kernel)).symm, by decide +kernel,
    by decide +kernel, by decide +kernel, ?_, by decide +kernel⟩
  intro stays
  rcases stays.pending aliceLogins (by decide +kernel) with absent | pending
  · exact absent (by decide +kernel)
  · revert pending
    decide +kernel

end History

/-! ## The round trip -/

/-- The operation expires nothing. -/
def Operation.KeepsKeys : Operation → Prop
  | .expire _ => False
  | _ => True

/-- What holds between the operations of a client that expires nothing. -/
structure Persisting (keys : Set WindowKey)
    (store : WriteBackWindowStore layout) : Prop where
  tracked : Tracked keys store
  noExpired : store.expiredSet = ∅
  rowsOf : RowsOf keys store.warm

/-- Without expired keys a successful flush makes the tiers equal. -/
theorem Persisting.synced_flushSync
    (boundDistinct : Set.InjOn bindKey keys)
    {store : WriteBackWindowStore layout}
    (persisting : Persisting keys store)
    {flush : Flush}
    (succeeds : flush.Succeeds)
    (enumerates : store.Enumerates flush) :
    Synced keys (store.flushSync flush) := by
  apply (synced_flushSync_iff boundDistinct persisting.tracked succeeds
    enumerates).2
  intro key both
  have expired := (Finset.mem_inter.1 both).2
  rw [persisting.noExpired] at expired
  exact absurd expired (Finset.notMem_empty key)

theorem persisting_step
    (distinct : Set.InjOn makeKey keys)
    (boundDistinct : Set.InjOn bindKey keys)
    (store : WriteBackWindowStore layout)
    (op : Operation)
    (next : WriteBackWindowStore layout)
    (persisting : Persisting keys store)
    (allowed : (op.Over keys ∧ op.KeepsKeys) ∧ op.Succeeds)
    (stepped : step store op = some next) :
    Persisting keys next := by
  obtain ⟨⟨known, keepsKeys⟩, succeeds⟩ := allowed
  cases op with
  | get key =>
      cases stepped
      exact persisting
  | compareAndSwap key expectedVal newVal =>
      have tracked := persisting.tracked.step distinct known id stepped
      rw [step, Option.some.injEq] at stepped
      subst stepped
      refine ⟨tracked, ?_, ?_⟩
      · rw [expiredSet_compareAndSwap]
        exact persisting.noExpired
      · rw [warm_compareAndSwap]
        exact persisting.rowsOf
  | expire key => exact absurd keepsKeys id
  | flushSync flush =>
      rw [step] at stepped
      split at stepped
      · next enumerates =>
          rw [Option.some.injEq] at stepped
          subst stepped
          have stillAvailable :
              (store.flushSync flush).warm.available = true := by
            rw [available_flushSync]
            exact persisting.tracked.available
          exact ⟨.of_synced stillAvailable
              (persisting.synced_flushSync boundDistinct succeeds enumerates),
            expiredSet_flushSync store flush,
            persisting.rowsOf.flushSync persisting.tracked.dirtyKnown
              enumerates⟩
      · cases stepped

/-- What a client of keys without NUL has written, and not expired, is what a new
store over the same table holds after the destructor; nothing of it is
dirty. -/
theorem get_create_destroy
    (layout restarted : StoreLayout)
    (keys : Set WindowKey)
    (distinct : Set.InjOn makeKey keys)
    (noNul : ∀ key ∈ keys, key.NoNul)
    (ops : List Operation)
    (known : ∀ op ∈ ops, op.Over keys ∧ op.KeepsKeys)
    (succeeds : ∀ op ∈ ops, op.Succeeds)
    (final : WriteBackWindowStore layout)
    (ran : Machine.run step (create (.empty layout) ⟨true, ∅⟩ .none) ops =
      some final)
    (flush : Flush)
    (flushSucceeds : flush.Succeeds)
    (enumerates : final.Enumerates flush) :
    (∀ key ∈ keys,
        (create (.empty restarted) (final.destroy flush) .none).get key =
          final.get key) ∧
      (create (.empty restarted) (final.destroy flush) .none).dirtySet = ∅ := by
  have boundDistinct := bindKey_injOn_noNul noNul
  have noRows : ∀ row ∈ (∅ : AList fun _ : RowKey => WindowValue),
      row.key ∈ keys :=
    fun row absent => absurd absent (AList.notMem_empty row)
  have start : Persisting keys (create (.empty layout) ⟨true, ∅⟩ .none) := by
    refine ⟨.of_synced rfl (synced_create distinct boundDistinct rfl noRows),
      rfl, ?_⟩
    exact fun row absent => absurd absent (AList.notMem_empty row)
  have persisting : Persisting keys final :=
    Machine.invariant_of_run_of_meets (persisting_step distinct boundDistinct)
      start ((Machine.runMeets_of_forall_mem known _).and
        (Machine.runMeets_of_forall_mem succeeds _)) ran
  have synced := persisting.synced_flushSync boundDistinct flushSucceeds
    enumerates
  have stillAvailable : (final.destroy flush).available = true := by
    rw [destroy, available_flushSync]
    exact persisting.tracked.available
  have samePrimary : (final.flushSync flush).primary = final.primary := by
    rw [flushSync_of_succeeds persisting.tracked.available flushSucceeds]
  have rowsKnown : ∀ row ∈ (final.destroy flush).rows, row.key ∈ keys := by
    intro row member
    obtain ⟨key, keyMember, rfl⟩ := persisting.rowsOf.flushSync
      persisting.tracked.dirtyKnown enumerates row member
    change cKey key ∈ keys
    rw [(noNul key keyMember).cKey_eq]
    exact keyMember
  refine ⟨fun key member => ?_, rfl⟩
  have before := synced.1 key member
  have after : (final.destroy flush).get .none key =
      .ok ((create (.empty restarted) (final.destroy flush) .none).get key) :=
    (synced_create distinct boundDistinct stillAvailable rowsKnown).1 key member
  rw [samePrimary] at before
  exact Except.ok.inj (after.symm.trans before)

/-- A write that succeeds, one that fails, a flush and a write of version 0. -/
def writesOfAlice : List Operation :=
  [.compareAndSwap aliceLogins {} ⟨.finite 1, 1⟩,
    .compareAndSwap aliceLogins {} ⟨.finite 5, 5⟩,
    .flushSync { dirtyOrder := [aliceLogins], expiredOrder := [] },
    .compareAndSwap aliceLogins ⟨.finite 1, 1⟩ ⟨.finite 7, 0⟩]

/-- The last write of `writesOfAlice` survives a restart with other shards. -/
theorem get_create_destroy_writesOfAlice :
    ∃ final : WriteBackWindowStore ⟨fun _ => 0, 1, by decide⟩,
      Machine.run step (create (.empty _) ⟨true, ∅⟩ .none) writesOfAlice =
          some final ∧
        final.get aliceLogins = ⟨.finite 7, 0⟩ ∧
        ((∀ key ∈ ({aliceLogins} : Set WindowKey),
            (create (.empty ⟨fun _ => 0, 4, by decide⟩) (final.destroy
              { dirtyOrder := [aliceLogins], expiredOrder := [] })
                .none).get key = final.get key) ∧
          (create (.empty ⟨fun _ => 0, 4, by decide⟩) (final.destroy
            { dirtyOrder := [aliceLogins], expiredOrder := [] })
              .none).dirtySet = ∅) := by
  refine ⟨_, (Option.some_get (by decide +kernel)).symm, by decide +kernel, ?_⟩
  refine get_create_destroy ⟨fun _ => 0, 1, by decide⟩
    ⟨fun _ => 0, 4, by decide⟩ {aliceLogins} (Set.injOn_singleton _ _) ?_
    writesOfAlice ?_ ?_ _ (Option.some_get (by decide +kernel)).symm _ ?_
    (by decide +kernel)
  · rintro _ rfl
    exact ⟨by decide, by decide, by decide⟩
  · simp [writesOfAlice, Operation.Over, Operation.KeepsKeys]
  · simp [writesOfAlice, Operation.Succeeds, Flush.Succeeds]
  · simp [Flush.Succeeds]

end WriteBackWindowStore
end State
end Fre
