import Fre.Foundation.Machine
import Fre.State.DuckDbWindowStore
import Mathlib.Data.Finset.Basic

/-!
# The write-back window store

Reads and swaps go to the in-process store; the keys written and the keys
expired since the last flush are remembered in two sets, and a flush copies
them to the warm tier: first the current values of the dirty keys in one batch,
then the deletions.  A key that stands in both sets is therefore deleted even
when it was written again after its expiry.
-/

namespace Fre
namespace State

open Foundation

/-- What a flush meets: the order in which each of the two hash sets is
iterated, and the statements that fail. -/
structure Flush where
  dirtyOrder : List WindowKey
  expiredOrder : List WindowKey
  upsertFaults : Faults := .none
  deleteFaults : Nat → Faults := fun _ => .none

/-- No statement of the flush fails. -/
def Flush.Succeeds (flush : Flush) : Prop :=
  flush.upsertFaults = .none ∧
    ∀ position, flush.deleteFaults position = .none

/-- The transaction of the flush goes through, if it needs one. -/
def Flush.Writes (flush : Flush) : Prop :=
  flush.dirtyOrder ≠ [] → flush.upsertFaults.PassesBatch flush.dirtyOrder.length

instance (flush : Flush) : Decidable flush.Writes :=
  inferInstanceAs (Decidable (flush.dirtyOrder ≠ [] → _))

theorem Flush.Succeeds.writes
    {flush : Flush}
    (succeeds : flush.Succeeds) :
    flush.Writes := by
  intro _
  rw [succeeds.1]
  exact ⟨rfl, fun _ _ => ⟨rfl, rfl⟩, rfl⟩

/-- `WriteBackWindowStore`. -/
structure WriteBackWindowStore (layout : StoreLayout) where
  primary : InProcessWindowStore layout
  warm : DuckDbWindowStore
  dirtySet : Finset WindowKey
  expiredSet : Finset WindowKey

namespace WriteBackWindowStore

variable {layout : StoreLayout}

/-- The loop of `load_warm_tier`: every row seeds its key, unless the key is
present with another version than zero. -/
def seed
    (primary : InProcessWindowStore layout)
    (rows : List (WindowKey × WindowValue)) : InProcessWindowStore layout :=
  rows.foldl
    (fun primary row => (primary.compareAndSwap row.1 {} row.2).2) primary

/-- `load_warm_tier`. -/
def loadWarmTier
    (primary : InProcessWindowStore layout)
    (warm : DuckDbWindowStore)
    (faults : Faults) : InProcessWindowStore layout :=
  match warm.scanWarmTier faults with
  | .error _ => primary
  | .ok rows => seed primary rows

/-- The constructor. -/
def create
    (primary : InProcessWindowStore layout)
    (warm : DuckDbWindowStore)
    (faults : Faults) : WriteBackWindowStore layout where
  primary :=
    if warm.available then loadWarmTier primary warm faults else primary
  warm := warm
  dirtySet := ∅
  expiredSet := ∅

/-- `get`. -/
def get (store : WriteBackWindowStore layout) (key : WindowKey) : WindowValue :=
  store.primary.get key

/-- `compare_and_swap`. -/
def compareAndSwap
    (store : WriteBackWindowStore layout)
    (key : WindowKey)
    (expectedVal newVal : WindowValue) : Bool × WriteBackWindowStore layout :=
  let result := store.primary.compareAndSwap key expectedVal newVal
  if result.1 then
    (true, { store with
      primary := result.2
      dirtySet := insert key store.dirtySet })
  else (false, { store with primary := result.2 })

/-- `expire`. -/
def expire (store : WriteBackWindowStore layout) (key : WindowKey) :
    WriteBackWindowStore layout :=
  { store with
    primary := (store.primary.expire key).2
    dirtySet := store.dirtySet.erase key
    expiredSet := insert key store.expiredSet }

instance : StateStore (WriteBackWindowStore layout) where
  get store key := .ok (store.get key)
  compareAndSwap store key expectedVal newVal :=
    let swap := store.compareAndSwap key expectedVal newVal
    (.ok swap.1, swap.2)
  expire store key := (.ok (), store.expire key)
  isAvailable _ := true

/-- The batch of `do_flush`: the keys with their current values. -/
def readBatch (primary : InProcessWindowStore layout) (order : List WindowKey) :
    List (WindowKey × WindowValue) :=
  order.map fun key => (key, primary.get key)

/-- Put keys back into the dirty set. -/
def requeue (store : WriteBackWindowStore layout) (order : List WindowKey) :
    WriteBackWindowStore layout :=
  { store with dirtySet := store.dirtySet ∪ order.toFinset }

/-- The first half of `do_flush`. -/
def flushDirty (store : WriteBackWindowStore layout) (flush : Flush) :
    WriteBackWindowStore layout :=
  if !flush.dirtyOrder.isEmpty && store.warm.available then
    match store.warm.upsertBatch flush.upsertFaults
        (readBatch store.primary flush.dirtyOrder) with
    | (.ok _, warm) => { store with warm := warm }
    | (.error _, warm) => { store with warm := warm }.requeue flush.dirtyOrder
  else if !flush.dirtyOrder.isEmpty then store.requeue flush.dirtyOrder
  else store

/-- The second half of `do_flush`; failures are ignored. -/
def deleteExpired (faults : Nat → Faults) :
    Nat → List WindowKey → DuckDbWindowStore → DuckDbWindowStore
  | _, [], warm => warm
  | position, key :: rest, warm =>
      deleteExpired faults (position + 1) rest
        (warm.expire (faults position) key).2

/-- `do_flush`. -/
def doFlush (store : WriteBackWindowStore layout) (flush : Flush) :
    WriteBackWindowStore layout :=
  let flushed := store.flushDirty flush
  { flushed with
    warm := deleteExpired flush.deleteFaults 0 flush.expiredOrder
      flushed.warm }

/-- `flush_sync`: swap out the two sets, then flush them. -/
def flushSync (store : WriteBackWindowStore layout) (flush : Flush) :
    WriteBackWindowStore layout :=
  doFlush { store with dirtySet := ∅, expiredSet := ∅ } flush

/-- The orders of a flush are orders of the two sets. -/
def Enumerates (store : WriteBackWindowStore layout) (flush : Flush) : Prop :=
  (flush.dirtyOrder.Nodup ∧ flush.dirtyOrder.toFinset = store.dirtySet) ∧
    flush.expiredOrder.Nodup ∧ flush.expiredOrder.toFinset = store.expiredSet

instance (store : WriteBackWindowStore layout) (flush : Flush) :
    Decidable (store.Enumerates flush) :=
  inferInstanceAs (Decidable
    ((flush.dirtyOrder.Nodup ∧ flush.dirtyOrder.toFinset = store.dirtySet) ∧
      flush.expiredOrder.Nodup ∧
        flush.expiredOrder.toFinset = store.expiredSet))

theorem Enumerates.mem_dirtyOrder_iff
    {store : WriteBackWindowStore layout}
    {flush : Flush}
    (enumerates : store.Enumerates flush)
    {key : WindowKey} :
    key ∈ flush.dirtyOrder ↔ key ∈ store.dirtySet := by
  rw [← enumerates.1.2, List.mem_toFinset]

theorem Enumerates.mem_expiredOrder_iff
    {store : WriteBackWindowStore layout}
    {flush : Flush}
    (enumerates : store.Enumerates flush)
    {key : WindowKey} :
    key ∈ flush.expiredOrder ↔ key ∈ store.expiredSet := by
  rw [← enumerates.2.2, List.mem_toFinset]

theorem Enumerates.expiredOrder_eq_nil
    {store : WriteBackWindowStore layout}
    {flush : Flush}
    (enumerates : store.Enumerates flush)
    (noExpired : store.expiredSet = ∅) :
    flush.expiredOrder = [] := by
  rw [← List.toFinset_eq_empty_iff, enumerates.2.2, noExpired]

/-- The operations of a client. -/
inductive Operation
  | get (key : WindowKey)
  | compareAndSwap (key : WindowKey) (expectedVal newVal : WindowValue)
  | expire (key : WindowKey)
  | flushSync (flush : Flush)

namespace Operation

/-- The operation is about keys of the set only. -/
def Over (keys : Set WindowKey) : Operation → Prop
  | .get key => key ∈ keys
  | .compareAndSwap key _ _ => key ∈ keys
  | .expire key => key ∈ keys
  | .flushSync _ => True

/-- No statement of the operation fails. -/
def Succeeds : Operation → Prop
  | .flushSync flush => flush.Succeeds
  | _ => True

/-- The operation is a flush. -/
def IsFlush : Operation → Prop
  | .flushSync _ => True
  | _ => False

instance : DecidablePred IsFlush
  | .get _ => .isFalse id
  | .compareAndSwap _ _ _ => .isFalse id
  | .expire _ => .isFalse id
  | .flushSync _ => .isTrue trivial

end Operation

/-- One operation of a sequential client. -/
def step (store : WriteBackWindowStore layout) :
    Operation → Option (WriteBackWindowStore layout)
  | .get _ => some store
  | .compareAndSwap key expectedVal newVal =>
      some (store.compareAndSwap key expectedVal newVal).2
  | .expire key => some (store.expire key)
  | .flushSync flush =>
      if store.Enumerates flush then some (store.flushSync flush) else none

/-! ## What a swap does -/

/-- A swap that succeeds writes the primary and marks the key; otherwise it
changes nothing. -/
theorem compareAndSwap_snd
    (store : WriteBackWindowStore layout)
    (key : WindowKey)
    (expectedVal newVal : WindowValue) :
    (store.compareAndSwap key expectedVal newVal).2 =
      if (store.primary.get key).version = expectedVal.version then
        { store with
          primary := (store.primary.compareAndSwap key expectedVal newVal).2
          dirtySet := insert key store.dirtySet }
      else store := by
  have outcome := (store.primary.compareAndSwap_eq key expectedVal newVal).1
  unfold compareAndSwap
  dsimp only
  rw [outcome]
  by_cases matching : (store.primary.get key).version = expectedVal.version
  · rw [if_pos (decide_eq_true matching), if_pos matching]
  · rw [if_neg (by simpa using matching), if_neg matching,
      store.primary.compareAndSwap_of_ne matching]

@[simp] theorem warm_compareAndSwap
    (store : WriteBackWindowStore layout)
    (key : WindowKey)
    (expectedVal newVal : WindowValue) :
    (store.compareAndSwap key expectedVal newVal).2.warm = store.warm := by
  rw [compareAndSwap_snd]
  split
  · rfl
  · rfl

@[simp] theorem expiredSet_compareAndSwap
    (store : WriteBackWindowStore layout)
    (key : WindowKey)
    (expectedVal newVal : WindowValue) :
    (store.compareAndSwap key expectedVal newVal).2.expiredSet =
      store.expiredSet := by
  rw [compareAndSwap_snd]
  split
  · rfl
  · rfl

/-! ## What a successful flush does -/

theorem deleteExpired_none
    {faults : Nat → Faults}
    (succeeds : ∀ position, faults position = .none)
    (position : Nat)
    (expired : List WindowKey)
    {warm : DuckDbWindowStore}
    (available : warm.available = true) :
    deleteExpired faults position expired warm =
      { warm with rows := Table.eraseAll warm.rows (expired.map bindKey) } := by
  induction expired generalizing position warm with
  | nil => rfl
  | cons key rest inductionHypothesis =>
      have nextAvailable : (warm.expire .none key).2.available = true := by
        rw [DuckDbWindowStore.expire_none available]
        exact available
      rw [deleteExpired, succeeds,
        inductionHypothesis (position + 1) nextAvailable,
        DuckDbWindowStore.expire_none available]
      rfl

theorem flushDirty_none
    {store : WriteBackWindowStore layout}
    {flush : Flush}
    (available : store.warm.available = true)
    (succeeds : flush.upsertFaults = .none) :
    store.flushDirty flush =
      { store with
        warm := { store.warm with
          rows := Table.insertAll store.warm.rows
            (DuckDbWindowStore.boundBatch
              (readBatch store.primary flush.dirtyOrder)) } } := by
  unfold flushDirty
  cases orderCase : flush.dirtyOrder with
  | nil => rfl
  | cons key rest =>
      rw [if_pos (by simp [available]), succeeds,
        DuckDbWindowStore.upsertBatch_none available]

/-- A flush in which every statement succeeds empties both sets, writes the
dirty keys and deletes the expired ones. -/
theorem flushSync_of_succeeds
    {store : WriteBackWindowStore layout}
    {flush : Flush}
    (available : store.warm.available = true)
    (succeeds : flush.Succeeds) :
    store.flushSync flush =
      { primary := store.primary
        warm := { store.warm with
          rows := Table.eraseAll
            (Table.insertAll store.warm.rows
              (DuckDbWindowStore.boundBatch
                (readBatch store.primary flush.dirtyOrder)))
            (flush.expiredOrder.map bindKey) }
        dirtySet := ∅
        expiredSet := ∅ } := by
  unfold flushSync doFlush
  rw [flushDirty_none (by exact available) succeeds.1]
  dsimp only
  rw [deleteExpired_none succeeds.2 0 flush.expiredOrder (by exact available)]

/-! ## What any flush does -/

/-- A flush either writes the whole batch or puts all its keys back; in both
cases it goes on with the deletions. -/
theorem flushSync_cases
    (store : WriteBackWindowStore layout)
    (flush : Flush) :
    store.flushSync flush =
        { primary := store.primary
          warm := deleteExpired flush.deleteFaults 0 flush.expiredOrder
            store.warm
          dirtySet := flush.dirtyOrder.toFinset
          expiredSet := ∅ } ∨
      store.flushSync flush =
        { primary := store.primary
          warm := deleteExpired flush.deleteFaults 0 flush.expiredOrder
            { store.warm with
              rows := Table.insertAll store.warm.rows
                (DuckDbWindowStore.boundBatch
                  (readBatch store.primary flush.dirtyOrder)) }
          dirtySet := ∅
          expiredSet := ∅ } := by
  unfold flushSync doFlush flushDirty
  dsimp only
  split
  · rcases store.warm.upsertBatch_cases flush.upsertFaults
      (readBatch store.primary flush.dirtyOrder) with ⟨error, failed⟩ | wrote
    · left
      rw [failed]
      simp [requeue]
    · right
      rw [wrote]
  · split
    · left
      simp [requeue]
    · next clean =>
        left
        simp only [Bool.not_eq_true', Bool.not_eq_false, List.isEmpty_iff]
          at clean
        simp [clean]

/-- What the flush of an open store writes, if its transaction goes through. -/
theorem flushSync_of_writes
    {store : WriteBackWindowStore layout}
    {flush : Flush}
    (available : store.warm.available = true)
    (writes : flush.Writes) :
    store.flushSync flush =
      { primary := store.primary
        warm := deleteExpired flush.deleteFaults 0 flush.expiredOrder
          { store.warm with
            rows := Table.insertAll store.warm.rows
              (DuckDbWindowStore.boundBatch
                (readBatch store.primary flush.dirtyOrder)) }
        dirtySet := ∅
        expiredSet := ∅ } := by
  unfold flushSync doFlush flushDirty
  dsimp only
  cases order : flush.dirtyOrder with
  | nil => rfl
  | cons key rest =>
      have wrote : store.warm.upsertBatch flush.upsertFaults
          (readBatch store.primary flush.dirtyOrder) =
          (.ok (), { store.warm with
            rows := Table.insertAll store.warm.rows
              (DuckDbWindowStore.boundBatch
                (readBatch store.primary flush.dirtyOrder)) }) := by
        refine (store.warm.upsertBatch_cases _ _).resolve_left fun failed => ?_
        have refused := ((DuckDbWindowStore.upsertBatch_eq_error_iff available
          _ _).mp failed).2
        rw [readBatch, List.length_map] at refused
        exact refused (writes (by simp [order]))
      rw [order] at wrote
      rw [if_pos (by simp [available]), wrote]

/-- Otherwise every key stays dirty. -/
theorem flushSync_of_not_writes
    {store : WriteBackWindowStore layout}
    {flush : Flush}
    (available : store.warm.available = true)
    (fails : ¬ flush.Writes) :
    store.flushSync flush =
      { primary := store.primary
        warm := deleteExpired flush.deleteFaults 0 flush.expiredOrder store.warm
        dirtySet := flush.dirtyOrder.toFinset
        expiredSet := ∅ } := by
  rw [Flush.Writes, Classical.not_imp] at fails
  obtain ⟨error, failed⟩ : ∃ error, store.warm.upsertBatch flush.upsertFaults
      (readBatch store.primary flush.dirtyOrder) =
        (.error error, store.warm) := by
    apply (DuckDbWindowStore.upsertBatch_eq_error_iff available _ _).mpr
    rw [readBatch, List.length_map]
    exact ⟨by simpa using fails.1, fails.2⟩
  unfold flushSync doFlush flushDirty
  dsimp only
  rw [if_pos (by simpa [available] using fails.1), failed]
  simp [requeue]

@[simp] theorem primary_flushSync
    (store : WriteBackWindowStore layout)
    (flush : Flush) :
    (store.flushSync flush).primary = store.primary := by
  rcases store.flushSync_cases flush with refused | wrote
  · rw [refused]
  · rw [wrote]

@[simp] theorem expiredSet_flushSync
    (store : WriteBackWindowStore layout)
    (flush : Flush) :
    (store.flushSync flush).expiredSet = ∅ := by
  rcases store.flushSync_cases flush with refused | wrote
  · rw [refused]
  · rw [wrote]

@[simp] theorem available_deleteExpired
    (faults : Nat → Faults)
    (position : Nat)
    (expired : List WindowKey)
    (warm : DuckDbWindowStore) :
    (deleteExpired faults position expired warm).available =
      warm.available := by
  induction expired generalizing position warm with
  | nil => rfl
  | cons key rest inductionHypothesis =>
      rw [deleteExpired, inductionHypothesis, DuckDbWindowStore.expire_snd]
      split
      · rfl
      · rfl

@[simp] theorem available_flushSync
    (store : WriteBackWindowStore layout)
    (flush : Flush) :
    (store.flushSync flush).warm.available = store.warm.available := by
  rcases store.flushSync_cases flush with refused | wrote
  · rw [refused, available_deleteExpired]
  · rw [wrote, available_deleteExpired]

/-- A row that no deletion of the flush is about stays. -/
theorem lookup_deleteExpired_of_not_mem
    (faults : Nat → Faults)
    (position : Nat)
    {expired : List WindowKey}
    (warm : DuckDbWindowStore)
    {row : RowKey}
    (absent : row ∉ expired.map bindKey) :
    (deleteExpired faults position expired warm).rows.lookup row =
      warm.rows.lookup row := by
  induction expired generalizing position warm with
  | nil => rfl
  | cons key rest inductionHypothesis =>
      rw [List.map_cons, List.mem_cons, not_or] at absent
      rw [deleteExpired, inductionHypothesis _ _ absent.2,
        DuckDbWindowStore.expire_snd]
      split
      · exact AList.lookup_erase_ne absent.1
      · rfl

/-- The row of an expired key is deleted exactly if its statement goes
through. -/
theorem lookup_deleteExpired
    (faults : Nat → Faults)
    (position : Nat)
    {expired : List WindowKey}
    (distinct : (expired.map bindKey).Nodup)
    (warm : DuckDbWindowStore)
    {index : Nat}
    {key : WindowKey}
    (found : expired[index]? = some key) :
    (deleteExpired faults position expired warm).rows.lookup (bindKey key) =
      if warm.available ∧ (faults (position + index)).Passes 0 then none
      else warm.rows.lookup (bindKey key) := by
  induction expired generalizing position warm index with
  | nil => simp at found
  | cons first rest inductionHypothesis =>
      rw [List.map_cons, List.nodup_cons] at distinct
      rw [deleteExpired]
      cases index with
      | zero =>
          rw [List.getElem?_cons_zero, Option.some.injEq] at found
          subst found
          rw [lookup_deleteExpired_of_not_mem _ _ _ distinct.1,
            DuckDbWindowStore.expire_snd, Nat.add_zero]
          split
          · exact AList.lookup_erase _ _
          · rfl
      | succ index =>
          rw [List.getElem?_cons_succ] at found
          have different : bindKey key ≠ bindKey first := by
            intro same
            apply distinct.1
            rw [← same]
            exact List.mem_map_of_mem (List.mem_of_getElem? found)
          rw [inductionHypothesis (position + 1) distinct.2 _ found,
            show position + 1 + index = position + (index + 1) by omega,
            DuckDbWindowStore.expire_snd]
          split
          · dsimp only
            rw [AList.lookup_erase_ne different]
          · rfl

/-! ## Keeping track of the difference between the tiers -/

section Tracking

variable {keys : Set WindowKey}

/-- Both tiers agree on the keys and nothing is pending. -/
def Synced (keys : Set WindowKey) (store : WriteBackWindowStore layout) :
    Prop :=
  (∀ key ∈ keys, store.warm.get .none key = .ok (store.primary.get key)) ∧
    store.dirtySet = ∅ ∧ store.expiredSet = ∅

/-- Every key in both sets is zero in the primary. -/
def FlushSafe (store : WriteBackWindowStore layout) : Prop :=
  ∀ key ∈ store.dirtySet ∩ store.expiredSet, store.primary.get key = {}

instance (store : WriteBackWindowStore layout) : Decidable store.FlushSafe :=
  inferInstanceAs (Decidable
    (∀ key ∈ store.dirtySet ∩ store.expiredSet, store.primary.get key = {}))

/-- The two sets know every key on which the tiers differ, and a key that is
only expired is gone from the primary. -/
structure Tracked (keys : Set WindowKey) (store : WriteBackWindowStore layout) :
    Prop where
  available : store.warm.available = true
  dirtyKnown : ∀ key ∈ store.dirtySet, key ∈ keys
  expiredKnown : ∀ key ∈ store.expiredSet, key ∈ keys
  owed : ∀ key ∈ keys,
    DuckDbWindowStore.rowValue store.warm.rows key ≠ store.primary.get key →
      key ∈ store.dirtySet ∨ key ∈ store.expiredSet
  gone : ∀ key ∈ store.expiredSet, key ∉ store.dirtySet →
    store.primary.get key = {}

theorem Tracked.of_synced
    {store : WriteBackWindowStore layout}
    (available : store.warm.available = true)
    (synced : Synced keys store) :
    Tracked keys store := by
  obtain ⟨agree, noDirty, noExpired⟩ := synced
  refine ⟨available, ?_, ?_, ?_, ?_⟩
  · simp [noDirty]
  · simp [noExpired]
  · intro key member differs
    have same := agree key member
    rw [DuckDbWindowStore.get_none available, Except.ok.injEq] at same
    exact absurd same differs
  · simp [noExpired]

theorem Tracked.compareAndSwap
    (distinct : Set.InjOn makeKey keys)
    {store : WriteBackWindowStore layout}
    (tracked : Tracked keys store)
    {key : WindowKey}
    (member : key ∈ keys)
    (expectedVal newVal : WindowValue) :
    Tracked keys (store.compareAndSwap key expectedVal newVal).2 := by
  rw [compareAndSwap_snd]
  split
  · have kept {other : WindowKey} (otherMember : other ∈ keys)
        (different : other ≠ key) :=
      store.primary.get_compareAndSwap_of_distinct distinct member otherMember
        different expectedVal newVal
    refine ⟨tracked.available, ?_, tracked.expiredKnown, ?_, ?_⟩
    · intro other present
      rcases Finset.mem_insert.1 present with rfl | old
      · exact member
      · exact tracked.dirtyKnown other old
    · intro other otherMember differs
      by_cases same : other = key
      · exact .inl (Finset.mem_insert.2 (.inl same))
      · dsimp only at differs
        rw [kept otherMember same] at differs
        rcases tracked.owed other otherMember differs with dirty | expired
        · exact .inl (Finset.mem_insert_of_mem dirty)
        · exact .inr expired
    · intro other expired clean
      rw [Finset.mem_insert, not_or] at clean
      dsimp only
      rw [kept (tracked.expiredKnown other expired) clean.1]
      exact tracked.gone other expired clean.2
  · exact tracked

theorem Tracked.expire
    (distinct : Set.InjOn makeKey keys)
    {store : WriteBackWindowStore layout}
    (tracked : Tracked keys store)
    {key : WindowKey}
    (member : key ∈ keys) :
    Tracked keys (store.expire key) := by
  have kept {other : WindowKey} (otherMember : other ∈ keys)
      (different : other ≠ key) :=
    store.primary.get_expire_of_distinct distinct member otherMember different
  refine ⟨tracked.available, ?_, ?_, ?_, ?_⟩
  · intro other present
    exact tracked.dirtyKnown other (Finset.mem_of_mem_erase present)
  · intro other present
    rcases Finset.mem_insert.1 present with rfl | old
    · exact member
    · exact tracked.expiredKnown other old
  · intro other otherMember differs
    by_cases same : other = key
    · exact .inr (Finset.mem_insert.2 (.inl same))
    · dsimp only [WriteBackWindowStore.expire] at differs
      rw [kept otherMember same] at differs
      rcases tracked.owed other otherMember differs with dirty | expired
      · exact .inl (Finset.mem_erase.2 ⟨same, dirty⟩)
      · exact .inr (Finset.mem_insert_of_mem expired)
  · intro other expired clean
    dsimp only [WriteBackWindowStore.expire]
    by_cases same : other = key
    · rw [same]
      exact store.primary.get_expire key
    · rcases Finset.mem_insert.1 expired with equal | old
      · exact absurd equal same
      · rw [kept (tracked.expiredKnown other old) same]
        refine tracked.gone other old fun dirty => ?_
        exact clean (Finset.mem_erase.2 ⟨same, dirty⟩)

/-- What a key reads as once the batch of a flush is in the table. -/
theorem rowValue_insertAll_readBatch
    (boundDistinct : Set.InjOn bindKey keys)
    (primary : InProcessWindowStore layout)
    {order : List WindowKey}
    (orderDistinct : order.Nodup)
    (orderKnown : ∀ key ∈ order, key ∈ keys)
    (rows : AList fun _ : RowKey => WindowValue)
    {key : WindowKey}
    (member : key ∈ keys) :
    DuckDbWindowStore.rowValue (Table.insertAll rows
        (DuckDbWindowStore.boundBatch (readBatch primary order))) key =
      if key ∈ order then primary.get key
      else DuckDbWindowStore.rowValue rows key := by
  have batchKeys : (readBatch primary order).map Prod.fst = order := by
    simp [readBatch, Function.comp_def]
  have batchKnown : ∀ entry ∈ readBatch primary order, entry.1 ∈ keys := by
    intro entry present
    apply orderKnown entry.1
    rw [← batchKeys]
    exact List.mem_map_of_mem present
  split
  · next listed =>
      apply DuckDbWindowStore.rowValue_insertAll_of_mem boundDistinct batchKnown
      · rw [batchKeys]
        exact orderDistinct
      · exact List.mem_map.2 ⟨key, listed, rfl⟩
  · next unlisted =>
      apply DuckDbWindowStore.rowValue_insertAll_of_not_mem boundDistinct
        batchKnown member
      rw [batchKeys]
      exact unlisted

/-- What a key reads as in the warm tier after a successful flush. -/
theorem rowValue_flushSync
    (boundDistinct : Set.InjOn bindKey keys)
    {store : WriteBackWindowStore layout}
    (tracked : Tracked keys store)
    {flush : Flush}
    (succeeds : flush.Succeeds)
    (enumerates : store.Enumerates flush)
    {key : WindowKey}
    (member : key ∈ keys) :
    DuckDbWindowStore.rowValue (store.flushSync flush).warm.rows key =
      if key ∈ store.expiredSet then {}
      else if key ∈ store.dirtySet then store.primary.get key
      else DuckDbWindowStore.rowValue store.warm.rows key := by
  have dirtyKnown : ∀ other ∈ flush.dirtyOrder, other ∈ keys :=
    fun other present =>
      tracked.dirtyKnown other (enumerates.mem_dirtyOrder_iff.1 present)
  have expiredKnown : ∀ other ∈ flush.expiredOrder, other ∈ keys :=
    fun other present =>
      tracked.expiredKnown other (enumerates.mem_expiredOrder_iff.1 present)
  rw [flushSync_of_succeeds tracked.available succeeds]
  dsimp only
  rw [DuckDbWindowStore.rowValue_eraseAll boundDistinct expiredKnown member,
    rowValue_insertAll_readBatch boundDistinct store.primary enumerates.1.1
      dirtyKnown store.warm.rows member]
  simp only [enumerates.mem_expiredOrder_iff, enumerates.mem_dirtyOrder_iff]

/-- A successful flush makes the tiers equal exactly if no key in both sets
has been written again. -/
theorem synced_flushSync_iff
    (boundDistinct : Set.InjOn bindKey keys)
    {store : WriteBackWindowStore layout}
    (tracked : Tracked keys store)
    {flush : Flush}
    (succeeds : flush.Succeeds)
    (enumerates : store.Enumerates flush) :
    Synced keys (store.flushSync flush) ↔ store.FlushSafe := by
  have shape := flushSync_of_succeeds tracked.available succeeds
  have samePrimary : (store.flushSync flush).primary = store.primary := by
    rw [shape]
  have agree {key : WindowKey} (member : key ∈ keys) :
      (store.flushSync flush).warm.get .none key =
          .ok ((store.flushSync flush).primary.get key) ↔
        (if key ∈ store.expiredSet then {}
          else if key ∈ store.dirtySet then store.primary.get key
          else DuckDbWindowStore.rowValue store.warm.rows key) =
            store.primary.get key := by
    have stillAvailable : (store.flushSync flush).warm.available = true := by
      rw [shape]
      exact tracked.available
    rw [DuckDbWindowStore.get_none stillAvailable, Except.ok.injEq,
      samePrimary,
      rowValue_flushSync boundDistinct tracked succeeds enumerates member]
  constructor
  · intro synced key both
    obtain ⟨dirty, expired⟩ := Finset.mem_inter.1 both
    have member := tracked.dirtyKnown key dirty
    have same := (agree member).1 (synced.1 key member)
    rw [if_pos expired] at same
    exact same.symm
  · intro safe
    refine ⟨?_, by rw [shape], by rw [shape]⟩
    intro key member
    refine (agree member).2 ?_
    by_cases expired : key ∈ store.expiredSet
    · rw [if_pos expired]
      by_cases dirty : key ∈ store.dirtySet
      · exact (safe key (Finset.mem_inter.2 ⟨dirty, expired⟩)).symm
      · exact (tracked.gone key expired dirty).symm
    · rw [if_neg expired]
      by_cases dirty : key ∈ store.dirtySet
      · rw [if_pos dirty]
      · rw [if_neg dirty]
        by_contra differs
        rcases tracked.owed key member differs with isDirty | isExpired
        · exact dirty isDirty
        · exact expired isExpired

/-! ## Whole runs -/

/-- Seeding writes the values of the rows and leaves all other keys alone. -/
theorem get_seed
    (distinct : Set.InjOn makeKey keys)
    {rows : List (WindowKey × WindowValue)}
    (rowsDistinct : (rows.map Prod.fst).Nodup)
    (rowsKnown : ∀ row ∈ rows, row.1 ∈ keys)
    (primary : InProcessWindowStore layout)
    (fresh : ∀ row ∈ rows, primary.get row.1 = {})
    {key : WindowKey}
    (member : key ∈ keys) :
    (∀ value, (key, value) ∈ rows → (seed primary rows).get key = value) ∧
      (key ∉ rows.map Prod.fst →
        (seed primary rows).get key = primary.get key) := by
  induction rows generalizing primary with
  | nil => exact ⟨fun value absent => absurd absent List.not_mem_nil,
      fun _ => rfl⟩
  | cons row rest inductionHypothesis =>
      rw [List.map_cons, List.nodup_cons] at rowsDistinct
      have rowKnown := rowsKnown row List.mem_cons_self
      have kept {other : WindowKey} (otherMember : other ∈ keys)
          (different : other ≠ row.1) :=
        primary.get_compareAndSwap_of_distinct distinct rowKnown otherMember
          different {} row.2
      have restFresh : ∀ other ∈ rest,
          (primary.compareAndSwap row.1 {} row.2).2.get other.1 = {} := by
        intro other present
        have different : other.1 ≠ row.1 := fun same =>
          rowsDistinct.1 (same ▸ List.mem_map_of_mem present)
        rw [kept (rowsKnown other (List.mem_cons_of_mem row present)) different]
        exact fresh other (List.mem_cons_of_mem row present)
      obtain ⟨written, untouched⟩ := inductionHypothesis rowsDistinct.2
        (fun other present => rowsKnown other (List.mem_cons_of_mem row present))
        (primary.compareAndSwap row.1 {} row.2).2 restFresh
      constructor
      · intro value present
        rcases List.mem_cons.1 present with rfl | later
        · rw [seed, List.foldl_cons, ← seed, untouched rowsDistinct.1]
          refine primary.get_compareAndSwap ?_ value
          rw [fresh (key, value) List.mem_cons_self]
        · exact written value later
      · intro absent
        rw [List.map_cons, List.mem_cons, not_or] at absent
        rw [seed, List.foldl_cons, ← seed, untouched absent.2]
        exact kept member absent.1

/-- The constructor seeds the primary with the rows of an open warm tier. -/
theorem primary_create
    (primary : InProcessWindowStore layout)
    {warm : DuckDbWindowStore}
    (available : warm.available = true) :
    (create primary warm .none).primary =
      seed primary (warm.rows.entries.map fun row => (row.1.key, row.2)) := by
  simp [create, loadWarmTier, DuckDbWindowStore.scanWarmTier, available,
    Faults.none]

/-- A store built over a warm tier starts with equal tiers. -/
theorem synced_create
    (distinct : Set.InjOn makeKey keys)
    (boundDistinct : Set.InjOn bindKey keys)
    {warm : DuckDbWindowStore}
    (available : warm.available = true)
    (rowsKnown : ∀ row ∈ warm.rows, row.key ∈ keys) :
    Synced keys (create (.empty layout) warm .none) := by
  have rowKeys :
      (warm.rows.entries.map fun row => (row.1.key, row.2)).map Prod.fst =
        warm.rows.keys.map RowKey.key := by
    rw [AList.keys, List.keys, List.map_map, List.map_map]
    rfl
  have rowsDistinct : ((warm.rows.entries.map
      fun row => (row.1.key, row.2)).map Prod.fst).Nodup := by
    rw [rowKeys]
    exact warm.rows.nodupKeys.map fun first second same => RowKey.ext same
  refine ⟨?_, rfl, rfl⟩
  intro key member
  obtain ⟨written, untouched⟩ := get_seed distinct rowsDistinct
    (by
      intro row present
      obtain ⟨entry, entryPresent, rfl⟩ := List.mem_map.1 present
      exact rowsKnown entry.1 (List.mem_map_of_mem entryPresent))
    (InProcessWindowStore.empty layout)
    (fun row _ => InProcessWindowStore.get_empty layout row.1)
    member
  have stillAvailable :
      (create (.empty layout) warm .none).warm.available = true := available
  rw [DuckDbWindowStore.get_none stillAvailable,
    primary_create (.empty layout) available, Except.ok.injEq]
  cases found : warm.rows.lookup (bindKey key) with
  | none =>
      rw [untouched, InProcessWindowStore.get_empty]
      · exact congrArg (fun entry => entry.getD {}) found
      · rw [rowKeys]
        intro present
        obtain ⟨row, rowPresent, rfl⟩ := List.mem_map.1 present
        rw [bindKey_key, AList.lookup_eq_none] at found
        exact found rowPresent
  | some value =>
      have entry : ⟨bindKey key, value⟩ ∈ warm.rows.entries :=
        AList.mem_lookup_iff.1 found
      have sameKey : (bindKey key).key = key := by
        refine boundDistinct ?_ member (bindKey_key (bindKey key))
        exact rowsKnown (bindKey key) (AList.mem_keys.2 (List.mem_map_of_mem entry))
      rw [written value (List.mem_map.2 ⟨_, entry, by rw [sameKey]⟩)]
      exact congrArg (fun entry => entry.getD {}) found

theorem Tracked.step
    (distinct : Set.InjOn makeKey keys)
    {store next : WriteBackWindowStore layout}
    (tracked : Tracked keys store)
    {op : Operation}
    (known : op.Over keys)
    (notFlush : ¬ op.IsFlush)
    (stepped : step store op = some next) :
    Tracked keys next := by
  cases op with
  | get key =>
      cases stepped
      exact tracked
  | compareAndSwap key expectedVal newVal =>
      cases stepped
      exact tracked.compareAndSwap distinct known expectedVal newVal
  | expire key =>
      cases stepped
      exact tracked.expire distinct known
  | flushSync flush => exact absurd trivial notFlush

theorem exists_flush_of_step
    {store next : WriteBackWindowStore layout}
    {op : Operation}
    (flushing : op.IsFlush)
    (stepped : step store op = some next) :
    ∃ flush, op = .flushSync flush ∧ store.Enumerates flush ∧
      next = store.flushSync flush := by
  cases op with
  | get key => exact absurd flushing id
  | compareAndSwap key expectedVal newVal => exact absurd flushing id
  | expire key => exact absurd flushing id
  | flushSync flush =>
      rw [step] at stepped
      split at stepped
      · next enumerates =>
          cases stepped
          exact ⟨flush, rfl, enumerates, rfl⟩
      · cases stepped

/-- From a tracked store: every flush of a run makes the tiers equal exactly
if every flush starts from a store where that is possible. -/
theorem flushes_sync_iff_of_tracked
    (distinct : Set.InjOn makeKey keys)
    (boundDistinct : Set.InjOn bindKey keys)
    {store final : WriteBackWindowStore layout}
    (tracked : Tracked keys store)
    {ops : List Operation}
    (known : ∀ op ∈ ops, op.Over keys)
    (succeeds : ∀ op ∈ ops, op.Succeeds)
    (ran : Machine.run step store ops = some final) :
    Machine.RunMeets step
        (fun store op => op.IsFlush →
          ∀ next, step store op = some next → Synced keys next) store ops ↔
      Machine.RunMeets step
        (fun store op => op.IsFlush → store.FlushSafe) store ops := by
  have conditions : ∀ op ∈ ops, op.Over keys ∧ op.Succeeds :=
    fun op member => ⟨known op member, succeeds op member⟩
  have sides : Machine.RunMeets step (fun _ _ => True) store ops :=
    Machine.runMeets_of_forall (fun _ _ => trivial) store ops
  refine Machine.runMeets_congr ?preserved ?agree tracked conditions sides ran
  case preserved =>
    intro store op next tracked condition safe stepped
    by_cases flushing : op.IsFlush
    · obtain ⟨flush, rfl, enumerates, rfl⟩ :=
        exists_flush_of_step flushing stepped
      have stillAvailable : (store.flushSync flush).warm.available = true := by
        rw [available_flushSync]
        exact tracked.available
      apply Tracked.of_synced stillAvailable
      rw [synced_flushSync_iff boundDistinct tracked condition.2 enumerates]
      exact safe flushing
    · exact tracked.step distinct condition.1 flushing stepped
  case agree =>
    intro store op next tracked condition _ stepped
    apply imp_congr_right
    intro flushing
    obtain ⟨flush, rfl, enumerates, rfl⟩ :=
      exists_flush_of_step flushing stepped
    simp only [stepped, Option.some.injEq, forall_eq']
    exact synced_flushSync_iff boundDistinct tracked condition.2 enumerates

/-- In every run of a new store over keys with different key strings, also
when cut at the first NUL, and with every statement succeeding: each flush
leaves both tiers equal and nothing pending exactly if at each flush every key
that is both dirty and expired is zero in the primary. -/
theorem flushes_sync_iff
    (layout : StoreLayout)
    (keys : Set WindowKey)
    (distinct : Set.InjOn makeKey keys)
    (boundDistinct : Set.InjOn bindKey keys)
    (warm : DuckDbWindowStore)
    (available : warm.available = true)
    (rowsKnown : ∀ row ∈ warm.rows, row.key ∈ keys)
    (ops : List Operation)
    (known : ∀ op ∈ ops, op.Over keys)
    (succeeds : ∀ op ∈ ops, op.Succeeds)
    (final : WriteBackWindowStore layout)
    (ran : Machine.run step (create (.empty layout) warm .none) ops =
      some final) :
    Machine.RunMeets step
        (fun store op => op.IsFlush →
          ∀ next, step store op = some next → Synced keys next)
        (create (.empty layout) warm .none) ops ↔
      Machine.RunMeets step (fun store op => op.IsFlush → store.FlushSafe)
        (create (.empty layout) warm .none) ops :=
  flushes_sync_iff_of_tracked distinct boundDistinct
    (Tracked.of_synced available
      (synced_create distinct boundDistinct available rowsKnown))
    known succeeds ran

end Tracking

/-- A key of the examples. -/
def aliceLogins : WindowKey := ⟨"acme", "alice", "logins", 0⟩

/-- Written, flushed, expired, flushed. -/
def writeThenExpire : List Operation :=
  [.compareAndSwap aliceLogins {} ⟨.finite 1, 1⟩,
    .flushSync { dirtyOrder := [aliceLogins], expiredOrder := [] },
    .expire aliceLogins,
    .flushSync { dirtyOrder := [], expiredOrder := [aliceLogins] }]

/-- Both flushes of `writeThenExpire` meet the condition, so both make the
tiers equal. -/
theorem flushes_sync_writeThenExpire :
    Machine.RunMeets step
      (fun store op => op.IsFlush →
        ∀ next, step store op = some next → Synced {aliceLogins} next)
      (create (.empty ⟨fun _ => 0, 1, by decide⟩) ⟨true, ∅⟩ .none)
      writeThenExpire := by
  refine (flushes_sync_iff ⟨fun _ => 0, 1, by decide⟩ {aliceLogins}
    (Set.injOn_singleton _ _) (Set.injOn_singleton _ _) ⟨true, ∅⟩ rfl
    (by simp) writeThenExpire ?_ ?_ _
    (Option.some_get (by decide +kernel)).symm).2 ?_
  · simp [writeThenExpire, Operation.Over]
  · simp [writeThenExpire, Operation.Succeeds, Flush.Succeeds]
  · decide +kernel

/-- Expired and written again between two flushes. -/
def expireThenWrite : List Operation :=
  [.compareAndSwap aliceLogins {} ⟨.finite 1, 1⟩,
    .flushSync { dirtyOrder := [aliceLogins], expiredOrder := [] },
    .expire aliceLogins,
    .compareAndSwap aliceLogins {} ⟨.finite 1, 1⟩,
    .flushSync { dirtyOrder := [aliceLogins], expiredOrder := [aliceLogins] }]

/-- The second flush of `expireThenWrite` deletes the row it has just
written. -/
theorem rewritten_key_deleted :
    ∃ final : WriteBackWindowStore ⟨fun _ => 0, 1, by decide⟩,
      Machine.run step (create (.empty _) ⟨true, ∅⟩ .none) expireThenWrite =
          some final ∧
        final.primary.get aliceLogins = ⟨.finite 1, 1⟩ ∧
        ¬ Synced {aliceLogins} final := by
  refine ⟨_, (Option.some_get (by decide +kernel)).symm, by decide +kernel, ?_⟩
  intro synced
  have same := synced.1 aliceLogins rfl
  rw [DuckDbWindowStore.get_none (by decide +kernel), Except.ok.injEq] at same
  revert same
  decide +kernel

end WriteBackWindowStore
end State
end Fre
