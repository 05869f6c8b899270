import Fre.Foundation.Threads
import Fre.State.WriteBackWindowStore

/-!
# Concurrent flushes

Callers of `compare_and_swap` and `expire` and any number of executions of
`flush_sync`, interleaved at their critical sections: a caller touches the
primary and afterwards the pending sets; a flush swaps out the sets, reads the
primary key by key, hands the batch to the warm tier, and requeues or deletes.
There is no lock around a whole flush, and a batch is written over whatever the
warm tier holds, so a slow flush may overwrite the row of a faster one.
-/

namespace Fre
namespace State
namespace ConcurrentFlush

open Foundation WriteBackWindowStore

/-- Where an execution of `flush_sync` stands after it has swapped out the
sets. -/
inductive Phase
  | reading (unread : List WindowKey) (batch : List (WindowKey × WindowValue))
  | requeueing
  | deleting (position : Nat) (pending : List WindowKey)

/-- An execution of `flush_sync`. -/
structure Flusher where
  flush : Flush
  phase : Phase

/-- The store, the callers between the primary and the pending sets, and the
flushes in the order of their start. -/
structure System (layout : StoreLayout) where
  store : WriteBackWindowStore layout
  marking : List WindowKey
  expiring : List WindowKey
  flushers : List Flusher

/-- The critical sections. -/
inductive Action
  | compareAndSwap (key : WindowKey) (expectedVal newVal : WindowValue)
  | markDirty (index : Nat)
  | expire (key : WindowKey)
  | markExpired (index : Nat)
  | beginFlush (flush : Flush)
  | advance (index : Nat)

variable {layout : StoreLayout}

/-- A store at rest. -/
def System.initial (store : WriteBackWindowStore layout) : System layout where
  store := store
  marking := []
  expiring := []
  flushers := []

/-- The branch `do_flush` takes on the swapped out dirty keys. -/
def firstPhase (available : Bool) (flush : Flush) : Phase :=
  if !flush.dirtyOrder.isEmpty && available then .reading flush.dirtyOrder []
  else if !flush.dirtyOrder.isEmpty then .requeueing
  else .deleting 0 flush.expiredOrder

/-- The next critical section of a flush; none once the flush is over. -/
def advance (store : WriteBackWindowStore layout) (flush : Flush) :
    Phase → Option (Phase × WriteBackWindowStore layout)
  | .reading (key :: unread) batch =>
      some (.reading unread (batch ++ [(key, store.primary.get key)]), store)
  | .reading [] batch =>
      match store.warm.upsertBatch flush.upsertFaults batch with
      | (.ok _, warm) =>
          some (.deleting 0 flush.expiredOrder, { store with warm := warm })
      | (.error _, warm) => some (.requeueing, { store with warm := warm })
  | .requeueing =>
      some (.deleting 0 flush.expiredOrder, store.requeue flush.dirtyOrder)
  | .deleting position (key :: rest) =>
      some (.deleting (position + 1) rest, { store with
        warm := (store.warm.expire (flush.deleteFaults position) key).2 })
  | .deleting _ [] => none

/-- One critical section of some party. -/
def step (system : System layout) : Action → Option (System layout)
  | .compareAndSwap key expectedVal newVal =>
      let result :=
        system.store.primary.compareAndSwap key expectedVal newVal
      some { system with
        store := { system.store with primary := result.2 }
        marking := if result.1 then key :: system.marking else system.marking }
  | .markDirty index =>
      match system.marking[index]? with
      | none => none
      | some key =>
          some { system with
            store := { system.store with
              dirtySet := insert key system.store.dirtySet }
            marking := system.marking.eraseIdx index }
  | .expire key =>
      some { system with
        store := { system.store with
          primary := (system.store.primary.expire key).2 }
        expiring := key :: system.expiring }
  | .markExpired index =>
      match system.expiring[index]? with
      | none => none
      | some key =>
          some { system with
            store := { system.store with
              dirtySet := system.store.dirtySet.erase key
              expiredSet := insert key system.store.expiredSet }
            expiring := system.expiring.eraseIdx index }
  | .beginFlush flush =>
      if system.store.Enumerates flush then
        some { system with
          store := { system.store with dirtySet := ∅, expiredSet := ∅ }
          flushers := system.flushers ++
            [⟨flush, firstPhase system.store.warm.available flush⟩] }
      else none
  | .advance index =>
      match system.flushers[index]? with
      | none => none
      | some flusher =>
          match advance system.store flusher.flush flusher.phase with
          | none => none
          | some (phase, store) =>
              some { system with
                store := store
                flushers := system.flushers.set index
                  { flusher with phase := phase } }

/-- No operation is in progress. -/
def Idle (system : System layout) : Prop :=
  system.marking = [] ∧ system.expiring = [] ∧
    ∀ flusher ∈ system.flushers,
      (advance system.store flusher.flush flusher.phase).isNone

/-! ## A flush without interference -/

section Alone

/-- Take the critical sections of one flush in a row. -/
def advanceTimes (flush : Flush) :
    Nat → Phase × WriteBackWindowStore layout →
      Option (Phase × WriteBackWindowStore layout)
  | 0, reached => some reached
  | steps + 1, (phase, store) =>
      (advance store flush phase).bind (advanceTimes flush steps)

theorem advanceTimes_reading
    (flush : Flush)
    (store : WriteBackWindowStore layout)
    (unread : List WindowKey)
    (batch : List (WindowKey × WindowValue)) :
    advanceTimes flush unread.length (.reading unread batch, store) =
      some (.reading [] (batch ++ readBatch store.primary unread), store) := by
  induction unread generalizing batch with
  | nil => simp [advanceTimes, readBatch]
  | cons key rest inductionHypothesis =>
      rw [List.length_cons, advanceTimes, advance, Option.bind_some,
        inductionHypothesis]
      simp [readBatch]

theorem advanceTimes_deleting
    (flush : Flush)
    (store : WriteBackWindowStore layout)
    (position : Nat)
    (pending : List WindowKey) :
    advanceTimes flush pending.length (.deleting position pending, store) =
      some (.deleting (position + pending.length) [], { store with
        warm := deleteExpired flush.deleteFaults position pending
          store.warm }) := by
  induction pending generalizing position store with
  | nil => rfl
  | cons key rest inductionHypothesis =>
      rw [List.length_cons, advanceTimes, advance, Option.bind_some,
        inductionHypothesis,
        show position + (rest.length + 1) = position + 1 + rest.length by omega]
      rfl

theorem advanceTimes_add
    (flush : Flush)
    (first second : Nat)
    (reached : Phase × WriteBackWindowStore layout) :
    advanceTimes flush (first + second) reached =
      (advanceTimes flush first reached).bind
        (advanceTimes flush second) := by
  induction first generalizing reached with
  | zero => simp [advanceTimes]
  | succ first inductionHypothesis =>
      obtain ⟨phase, store⟩ := reached
      rw [Nat.add_right_comm]
      simp only [advanceTimes]
      cases advance store flush phase with
      | none => rfl
      | some next => simpa using inductionHypothesis next

/-- Everything after the first half of a flush. -/
theorem advanceTimes_after_flushDirty
    (flush : Flush)
    (steps : Nat)
    {phase : Phase}
    {store : WriteBackWindowStore layout}
    (reached : advanceTimes flush steps (phase, store) =
      some (.deleting 0 flush.expiredOrder, store.flushDirty flush)) :
    ∃ total position, advanceTimes flush total (phase, store) =
      some (.deleting position [], store.doFlush flush) := by
  refine ⟨steps + flush.expiredOrder.length, 0 + flush.expiredOrder.length, ?_⟩
  rw [advanceTimes_add, reached, Option.bind_some, advanceTimes_deleting]
  rfl

/-- Left alone, the critical sections of a flush are `flush_sync`. -/
theorem advanceTimes_eq_flushSync
    (store : WriteBackWindowStore layout)
    (flush : Flush) :
    ∃ total position,
      advanceTimes flush total (firstPhase store.warm.available flush,
          { store with dirtySet := ∅, expiredSet := ∅ }) =
        some (.deleting position [], store.flushSync flush) := by
  unfold firstPhase
  split
  · next writes =>
      rcases upsert : store.warm.upsertBatch flush.upsertFaults
        (readBatch store.primary flush.dirtyOrder) with ⟨outcome, warm⟩
      cases outcome with
      | ok _ =>
          refine advanceTimes_after_flushDirty flush
            (flush.dirtyOrder.length + 1) ?_
          rw [advanceTimes_add, advanceTimes_reading, Option.bind_some,
            List.nil_append]
          simp [advanceTimes, advance, flushDirty, writes, upsert]
      | error error =>
          refine advanceTimes_after_flushDirty flush
            (flush.dirtyOrder.length + 2) ?_
          rw [advanceTimes_add, advanceTimes_reading, Option.bind_some,
            List.nil_append]
          simp [advanceTimes, advance, flushDirty, writes, upsert, requeue]
  · next readsNothing =>
      split
      · next dirty =>
          refine advanceTimes_after_flushDirty flush 1 ?_
          rw [flushDirty, if_neg readsNothing, if_pos dirty]
          rfl
      · next clean =>
          refine advanceTimes_after_flushDirty flush 0 ?_
          simp [advanceTimes, flushDirty, clean]

end Alone

/-! ## Who still owes a key -/

/-- The older value has at most the version of the newer one, and the same
version only if it is the same value. -/
def Behind (older newer : WindowValue) : Prop :=
  older.version ≤ newer.version ∧ (older.version = newer.version → older = newer)

/-- The flush will still bring the value of the key to the warm tier, or the
key back into the dirty set. -/
def Flusher.Carries
    (flusher : Flusher)
    (key : WindowKey)
    (value : WindowValue) : Prop :=
  match flusher.phase with
  | .reading unread batch => key ∈ unread ∨ (key, value) ∈ batch
  | .requeueing => key ∈ flusher.flush.dirtyOrder
  | .deleting _ _ => False

/-- What is known of a flush in a run without expiry. -/
structure Flusher.Sound
    (keys : Set WindowKey)
    (primary : InProcessWindowStore layout)
    (flusher : Flusher) : Prop where
  known : ∀ key ∈ flusher.flush.dirtyOrder, key ∈ keys
  distinct : flusher.flush.dirtyOrder.Nodup
  nothingExpired : flusher.flush.expiredOrder = []
  progress :
    match flusher.phase with
    | .reading unread batch =>
        batch.map Prod.fst ++ unread = flusher.flush.dirtyOrder ∧
          ∀ entry ∈ batch, Behind entry.2 (primary.get entry.1)
    | .requeueing => True
    | .deleting _ pending => pending = []

/-- Every key on which the tiers differ is dirty, about to be marked, or
carried by a flush; what the warm tier and the batches hold is behind the
primary. -/
structure Covered (keys : Set WindowKey) (system : System layout) : Prop where
  available : system.store.warm.available = true
  noExpired : system.store.expiredSet = ∅
  dirtyKnown : ∀ key ∈ system.store.dirtySet, key ∈ keys
  markingKnown : ∀ key ∈ system.marking, key ∈ keys
  noExpiring : system.expiring = []
  sound : ∀ (index : Nat) (flusher : Flusher),
    system.flushers[index]? = some flusher →
      flusher.Sound keys system.store.primary
  warmBehind : ∀ key ∈ keys,
    Behind (DuckDbWindowStore.rowValue system.store.warm.rows key)
      (system.store.primary.get key)
  owed : ∀ key ∈ keys,
    DuckDbWindowStore.rowValue system.store.warm.rows key ≠
        system.store.primary.get key →
      key ∈ system.store.dirtySet ∨ key ∈ system.marking ∨
        ∃ (index : Nat) (flusher : Flusher),
          system.flushers[index]? = some flusher ∧
            flusher.Carries key (system.store.primary.get key)

/-- The action is about the keys and expires nothing. -/
def Action.Over (keys : Set WindowKey) : Action → Prop
  | .compareAndSwap key _ _ => key ∈ keys
  | .expire _ => False
  | _ => True

/-- A swap that succeeds raises the version by one. -/
def Raises (system : System layout) : Action → Prop
  | .compareAndSwap key expectedVal newVal =>
      (system.store.primary.get key).version = expectedVal.version →
        newVal.version.toNat = expectedVal.version.toNat + 1
  | _ => True

/-- The batch that the next critical section of the flush hands over. -/
def Flusher.upserting (flusher : Flusher) : List (WindowKey × WindowValue) :=
  match flusher.phase with
  | .reading [] batch => batch
  | _ => []

/-- The action does not write a batch over a row with a newer version. -/
def NoOvertaking (system : System layout) : Action → Prop
  | .advance index =>
      ∀ flusher ∈ system.flushers[index]?, ∀ entry ∈ flusher.upserting,
        (DuckDbWindowStore.rowValue system.store.warm.rows entry.1).version ≤
          entry.2.version
  | _ => True

instance (system : System layout) :
    ∀ action, Decidable (Raises system action)
  | .compareAndSwap key expectedVal newVal =>
      inferInstanceAs (Decidable
        ((system.store.primary.get key).version = expectedVal.version →
          newVal.version.toNat = expectedVal.version.toNat + 1))
  | .markDirty _ => .isTrue trivial
  | .expire _ => .isTrue trivial
  | .markExpired _ => .isTrue trivial
  | .beginFlush _ => .isTrue trivial
  | .advance _ => .isTrue trivial

instance (system : System layout) :
    ∀ action, Decidable (NoOvertaking system action)
  | .compareAndSwap _ _ _ => .isTrue trivial
  | .markDirty _ => .isTrue trivial
  | .expire _ => .isTrue trivial
  | .markExpired _ => .isTrue trivial
  | .beginFlush _ => .isTrue trivial
  | .advance index =>
      inferInstanceAs (Decidable
        (∀ flusher ∈ system.flushers[index]?, ∀ entry ∈ flusher.upserting,
          (DuckDbWindowStore.rowValue system.store.warm.rows
            entry.1).version ≤ entry.2.version))

theorem Behind.refl (value : WindowValue) : Behind value value :=
  ⟨UInt64.le_refl _, fun _ => rfl⟩

/-- A value behind another one stays strictly behind its successors. -/
theorem Behind.raised
    {older newer next : WindowValue}
    (behind : Behind older newer)
    (raised : next.version.toNat = newer.version.toNat + 1) :
    Behind older next := by
  have bound := UInt64.le_iff_toNat_le.1 behind.1
  refine ⟨UInt64.le_iff_toNat_le.2 (by omega), fun same => ?_⟩
  rw [same] at bound
  omega

theorem covered_initial
    {keys : Set WindowKey}
    {store : WriteBackWindowStore layout}
    (available : store.warm.available = true)
    (synced : Synced keys store) :
    Covered keys (System.initial store) := by
  obtain ⟨agree, noDirty, noExpired⟩ := synced
  have same {key : WindowKey} (member : key ∈ keys) :
      DuckDbWindowStore.rowValue store.warm.rows key =
        store.primary.get key := by
    have equal := agree key member
    rw [DuckDbWindowStore.get_none available, Except.ok.injEq] at equal
    exact equal
  refine ⟨available, noExpired, ?_, ?_, rfl, ?_, ?_, ?_⟩
  · simp [System.initial, noDirty]
  · simp [System.initial]
  · simp [System.initial]
  · intro key member
    simp only [System.initial, same member]
    exact Behind.refl _
  · intro key member differs
    exact absurd (same member) differs

/-- A flush without a next critical section has deleted everything. -/
theorem deleting_nil_of_isNone
    {store : WriteBackWindowStore layout}
    {flush : Flush}
    {phase : Phase}
    (finished : (advance store flush phase).isNone) :
    ∃ position, phase = .deleting position [] := by
  cases phase with
  | reading unread batch =>
      cases unread with
      | cons key rest => simp [advance] at finished
      | nil =>
          simp only [advance] at finished
          split at finished
          · simp at finished
          · simp at finished
  | requeueing => simp [advance] at finished
  | deleting position pending =>
      cases pending with
      | cons key rest => simp [advance] at finished
      | nil => exact ⟨position, rfl⟩

/-- With nothing in progress and no dirty key, the tiers are equal. -/
theorem Covered.equal_of_idle
    {keys : Set WindowKey}
    {system : System layout}
    (covered : Covered keys system)
    (idle : Idle system)
    (noDirty : system.store.dirtySet = ∅)
    {key : WindowKey}
    (member : key ∈ keys) :
    system.store.warm.get .none key = .ok (system.store.primary.get key) := by
  rw [DuckDbWindowStore.get_none covered.available, Except.ok.injEq]
  by_contra differs
  rcases covered.owed key member differs with dirty | marking |
    ⟨index, flusher, present, carries⟩
  · rw [noDirty] at dirty
    exact absurd dirty (Finset.notMem_empty key)
  · rw [idle.1] at marking
    exact absurd marking List.not_mem_nil
  · obtain ⟨position, deleting⟩ := deleting_nil_of_isNone
      (idle.2.2 flusher (List.mem_of_getElem? present))
    rw [Flusher.Carries, deleting] at carries
    exact carries

/-! ## What one critical section preserves -/

section Preservation

variable {keys : Set WindowKey} {system next : System layout}
  {flushers : List Flusher} {index : Nat} {flusher replacement : Flusher}
  {key : WindowKey} {value : WindowValue}

/-- The batch and the unread keys make up the order of the flush, and the
batch is behind the primary. -/
theorem Flusher.Sound.of_reading
    {primary : InProcessWindowStore layout}
    (sound : flusher.Sound keys primary)
    {unread : List WindowKey}
    {batch : List (WindowKey × WindowValue)}
    (reading : flusher.phase = .reading unread batch) :
    batch.map Prod.fst ++ unread = flusher.flush.dirtyOrder ∧
      ∀ entry ∈ batch, Behind entry.2 (primary.get entry.1) := by
  have progress := sound.progress
  rw [reading] at progress
  exact progress

theorem Flusher.Sound.batch_known
    {primary : InProcessWindowStore layout}
    (sound : flusher.Sound keys primary)
    {unread : List WindowKey}
    {batch : List (WindowKey × WindowValue)}
    (reading : flusher.phase = .reading unread batch) :
    ∀ entry ∈ batch, entry.1 ∈ keys := by
  intro entry member
  refine sound.known entry.1 ?_
  rw [← (sound.of_reading reading).1]
  exact List.mem_append_left unread (List.mem_map_of_mem member)

/-- Soundness survives a change of the primary that leaves older values
behind. -/
theorem Flusher.Sound.mono
    {primary after : InProcessWindowStore layout}
    (sound : flusher.Sound keys primary)
    (later : ∀ key ∈ keys, ∀ older,
      Behind older (primary.get key) → Behind older (after.get key)) :
    flusher.Sound keys after := by
  refine ⟨sound.known, sound.distinct, sound.nothingExpired, ?_⟩
  cases phase : flusher.phase with
  | reading unread batch =>
      obtain ⟨order, behind⟩ := sound.of_reading phase
      refine ⟨order, fun entry member => ?_⟩
      exact later entry.1 (sound.batch_known phase entry member) entry.2
        (behind entry member)
  | requeueing => trivial
  | deleting position pending =>
      have progress := sound.progress
      rw [phase] at progress
      exact progress

theorem carried_by_replacement
    (present : flushers[index]? = some flusher)
    (carries : replacement.Carries key value) :
    ∃ (other : Nat) (carrier : Flusher),
      (flushers.set index replacement)[other]? = some carrier ∧
        carrier.Carries key value :=
  ⟨index, replacement,
    List.getElem?_set_self (List.getElem?_eq_some_iff.1 present).1, carries⟩

theorem Covered.compareAndSwap
    (distinct : Set.InjOn makeKey keys)
    (covered : Covered keys system)
    (member : key ∈ keys)
    {expectedVal newVal : WindowValue}
    (raises : Raises system (.compareAndSwap key expectedVal newVal))
    (stepped : step system (.compareAndSwap key expectedVal newVal) =
      some next) :
    Covered keys next := by
  rw [step, Option.some.injEq] at stepped
  subst stepped
  by_cases matching :
      (system.store.primary.get key).version = expectedVal.version
  · have success := (system.store.primary.compareAndSwap_eq key expectedVal
      newVal).1
    rw [decide_eq_true matching] at success
    have written := system.store.primary.get_compareAndSwap matching newVal
    have kept {other : WindowKey} (otherMember : other ∈ keys)
        (different : other ≠ key) :=
      system.store.primary.get_compareAndSwap_of_distinct distinct member
        otherMember different expectedVal newVal
    have later : ∀ other ∈ keys, ∀ older,
        Behind older (system.store.primary.get other) →
          Behind older ((system.store.primary.compareAndSwap key expectedVal
            newVal).2.get other) := by
      intro other otherMember older behind
      by_cases same : other = key
      · subst same
        rw [written]
        exact behind.raised (by rw [raises matching, matching])
      · rw [kept otherMember same]
        exact behind
    refine ⟨covered.available, covered.noExpired, covered.dirtyKnown, ?_,
      covered.noExpiring, ?_, ?_, ?_⟩
    · intro other present
      simp only [success, if_true] at present
      rcases List.mem_cons.1 present with rfl | old
      · exact member
      · exact covered.markingKnown other old
    · intro position flusher present
      exact (covered.sound position flusher present).mono later
    · intro other otherMember
      exact later other otherMember _ (covered.warmBehind other otherMember)
    · intro other otherMember differs
      simp only [success, if_true]
      by_cases same : other = key
      · exact .inr (.inl (same ▸ List.mem_cons_self))
      · rw [kept otherMember same] at differs ⊢
        rcases covered.owed other otherMember differs with dirty | marking |
          carried
        · exact .inl dirty
        · exact .inr (.inl (List.mem_cons_of_mem key marking))
        · exact .inr (.inr carried)
  · rw [system.store.primary.compareAndSwap_of_ne matching]
    exact covered

/-- A key about to be marked is marked or still about to be. -/
theorem mem_insert_or_eraseIdx
    {marking : List WindowKey}
    {dirtySet : Finset WindowKey}
    (present : marking[index]? = some key)
    {other : WindowKey}
    (member : other ∈ marking) :
    other ∈ insert key dirtySet ∨ other ∈ marking.eraseIdx index := by
  by_cases same : other = key
  · exact .inl (Finset.mem_insert.2 (.inl same))
  · refine .inr (List.mem_eraseIdx_iff_getElem?.2 ?_)
    obtain ⟨position, found⟩ := List.mem_iff_getElem?.1 member
    refine ⟨position, ?_, found⟩
    rintro rfl
    rw [present, Option.some.injEq] at found
    exact same found.symm

theorem Covered.markDirty
    (covered : Covered keys system)
    (stepped : step system (.markDirty index) = some next) :
    Covered keys next := by
  simp only [step] at stepped
  split at stepped
  · cases stepped
  · next key present =>
      rw [Option.some.injEq] at stepped
      subst stepped
      refine ⟨covered.available, covered.noExpired, ?_, ?_, covered.noExpiring,
        covered.sound, covered.warmBehind, ?_⟩
      · intro other member
        rcases Finset.mem_insert.1 member with rfl | old
        · exact covered.markingKnown other (List.mem_of_getElem? present)
        · exact covered.dirtyKnown other old
      · intro other member
        exact covered.markingKnown other (List.mem_of_mem_eraseIdx member)
      · intro other otherMember differs
        rcases covered.owed other otherMember differs with dirty | marking |
          carried
        · exact .inl (Finset.mem_insert_of_mem dirty)
        · rcases mem_insert_or_eraseIdx present marking with dirty | later
          · exact .inl dirty
          · exact .inr (.inl later)
        · exact .inr (.inr carried)

theorem Covered.beginFlush
    (covered : Covered keys system)
    {flush : Flush}
    (stepped : step system (.beginFlush flush) = some next) :
    Covered keys next := by
  simp only [step] at stepped
  split at stepped
  · next enumerates =>
      rw [Option.some.injEq] at stepped
      subst stepped
      have nothingExpired := enumerates.expiredOrder_eq_nil covered.noExpired
      have dirtyKnown : ∀ key ∈ flush.dirtyOrder, key ∈ keys :=
        fun key member =>
          covered.dirtyKnown key (enumerates.mem_dirtyOrder_iff.1 member)
      refine ⟨covered.available, rfl, ?_, covered.markingKnown,
        covered.noExpiring, ?_, covered.warmBehind, ?_⟩
      · simp
      · intro position flusher present
        rcases List.mem_append.1 (List.mem_of_getElem? present) with old | new
        · obtain ⟨place, found⟩ := List.mem_iff_getElem?.1 old
          exact covered.sound place flusher found
        · rw [List.mem_singleton] at new
          subst new
          refine ⟨dirtyKnown, enumerates.1.1, nothingExpired, ?_⟩
          simp only [firstPhase, covered.available, Bool.and_true,
            nothingExpired]
          cases flush.dirtyOrder with
          | nil => simp
          | cons first rest => simp
      · intro key member differs
        refine .inr ?_
        rcases covered.owed key member differs with dirty | marking |
          ⟨position, carrier, found, carries⟩
        · refine .inr ⟨system.flushers.length, _,
            List.getElem?_concat_length, ?_⟩
          rw [← enumerates.mem_dirtyOrder_iff] at dirty
          have nonempty : flush.dirtyOrder ≠ [] := List.ne_nil_of_mem dirty
          simp only [Flusher.Carries, firstPhase, covered.available]
          simp [nonempty, dirty]
        · exact .inl marking
        · refine .inr ⟨position, carrier, ?_, carries⟩
          rw [List.getElem?_append_left (List.getElem?_eq_some_iff.1 found).1]
          exact found
  · cases stepped

/-- Reading a key moves it from the unread keys into the batch. -/
theorem Covered.read
    (covered : Covered keys system)
    (present : system.flushers[index]? = some flusher)
    {unread : List WindowKey}
    {batch : List (WindowKey × WindowValue)}
    (reading : flusher.phase = .reading (key :: unread) batch) :
    Covered keys { system with
      flushers := system.flushers.set index { flusher with
        phase := .reading unread
          (batch ++ [(key, system.store.primary.get key)]) } } := by
  have sound := covered.sound index flusher present
  obtain ⟨order, behind⟩ := sound.of_reading reading
  refine ⟨covered.available, covered.noExpired, covered.dirtyKnown,
    covered.markingKnown, covered.noExpiring,
    Threads.forall_getElem?_set covered.sound
      ⟨sound.known, sound.distinct, sound.nothingExpired, ?_, ?_⟩,
    covered.warmBehind, ?_⟩
  · rw [List.map_append, List.append_assoc]
    exact order
  · exact Threads.forall_mem_concat behind (Behind.refl _)
  · intro other otherMember differs
    rcases covered.owed other otherMember differs with dirty | marking | carried
    · exact .inl dirty
    · exact .inr (.inl marking)
    · refine .inr (.inr ?_)
      rcases Threads.exists_getElem?_set present carried with own | others
      · apply carried_by_replacement present
        rw [Flusher.Carries, reading] at own
        rcases own with unreadHere | inBatch
        · rcases List.mem_cons.1 unreadHere with rfl | later
          · exact .inr (List.mem_append_right batch List.mem_cons_self)
          · exact .inl later
        · exact .inr (List.mem_append_left _ inBatch)
      · exact others

/-- A batch that is refused is requeued. -/
theorem Covered.refuse
    (covered : Covered keys system)
    (present : system.flushers[index]? = some flusher)
    {batch : List (WindowKey × WindowValue)}
    (reading : flusher.phase = .reading [] batch) :
    Covered keys { system with
      flushers := system.flushers.set index
        { flusher with phase := .requeueing } } := by
  have sound := covered.sound index flusher present
  obtain ⟨order, -⟩ := sound.of_reading reading
  rw [List.append_nil] at order
  refine ⟨covered.available, covered.noExpired, covered.dirtyKnown,
    covered.markingKnown, covered.noExpiring,
    Threads.forall_getElem?_set covered.sound
      ⟨sound.known, sound.distinct, sound.nothingExpired, trivial⟩,
    covered.warmBehind, ?_⟩
  intro other otherMember differs
  rcases covered.owed other otherMember differs with dirty | marking | carried
  · exact .inl dirty
  · exact .inr (.inl marking)
  · refine .inr (.inr ?_)
    rcases Threads.exists_getElem?_set present carried with own | others
    · apply carried_by_replacement present
      rw [Flusher.Carries, reading] at own
      rcases own with unreadHere | inBatch
      · exact absurd unreadHere List.not_mem_nil
      · rw [Flusher.Carries, ← order]
        exact List.mem_map_of_mem inBatch
    · exact others

/-- Requeueing puts every key of the flush back into the dirty set. -/
theorem Covered.requeue
    (covered : Covered keys system)
    (present : system.flushers[index]? = some flusher)
    (requeueing : flusher.phase = .requeueing) :
    Covered keys { system with
      store := system.store.requeue flusher.flush.dirtyOrder
      flushers := system.flushers.set index { flusher with
        phase := .deleting 0 flusher.flush.expiredOrder } } := by
  have sound := covered.sound index flusher present
  refine ⟨covered.available, covered.noExpired, ?_, covered.markingKnown,
    covered.noExpiring,
    Threads.forall_getElem?_set covered.sound
      ⟨sound.known, sound.distinct, sound.nothingExpired,
        sound.nothingExpired⟩,
    covered.warmBehind, ?_⟩
  · intro other member
    rcases Finset.mem_union.1 member with old | requeued
    · exact covered.dirtyKnown other old
    · exact sound.known other (List.mem_toFinset.1 requeued)
  · intro other otherMember differs
    rcases covered.owed other otherMember differs with dirty | marking | carried
    · exact .inl (Finset.mem_union_left _ dirty)
    · exact .inr (.inl marking)
    · rcases Threads.exists_getElem?_set present carried with own | others
      · rw [Flusher.Carries, requeueing] at own
        exact .inl (Finset.mem_union_right _ (List.mem_toFinset.2 own))
      · exact .inr (.inr others)

/-- A batch that does not overtake a newer row may be written: a key whose
batch value is old is still owed by someone else. -/
theorem Covered.upsert
    (boundDistinct : Set.InjOn bindKey keys)
    (covered : Covered keys system)
    (present : system.flushers[index]? = some flusher)
    {batch : List (WindowKey × WindowValue)}
    (reading : flusher.phase = .reading [] batch)
    (noOvertaking : ∀ entry ∈ batch,
      (DuckDbWindowStore.rowValue system.store.warm.rows entry.1).version ≤
        entry.2.version) :
    Covered keys { system with
      store := { system.store with
        warm := { system.store.warm with
          rows := Table.insertAll system.store.warm.rows
            (DuckDbWindowStore.boundBatch batch) } }
      flushers := system.flushers.set index { flusher with
        phase := .deleting 0 flusher.flush.expiredOrder } } := by
  have sound := covered.sound index flusher present
  have batchKnown := sound.batch_known reading
  obtain ⟨order, behind⟩ := sound.of_reading reading
  rw [List.append_nil] at order
  have batchDistinct : (batch.map Prod.fst).Nodup := order ▸ sound.distinct
  have written {other : WindowKey} {entryValue : WindowValue}
      (inBatch : (other, entryValue) ∈ batch) :
      DuckDbWindowStore.rowValue
          (Table.insertAll system.store.warm.rows
            (DuckDbWindowStore.boundBatch batch)) other = entryValue :=
    DuckDbWindowStore.rowValue_insertAll_of_mem boundDistinct batchKnown
      batchDistinct inBatch
  have kept {other : WindowKey} (otherMember : other ∈ keys)
      (absent : other ∉ batch.map Prod.fst) :
      DuckDbWindowStore.rowValue
          (Table.insertAll system.store.warm.rows
            (DuckDbWindowStore.boundBatch batch)) other =
        DuckDbWindowStore.rowValue system.store.warm.rows other :=
    DuckDbWindowStore.rowValue_insertAll_of_not_mem boundDistinct batchKnown
      otherMember absent
  have others {other : WindowKey} (otherMember : other ∈ keys)
      (differed : DuckDbWindowStore.rowValue system.store.warm.rows other ≠
        system.store.primary.get other)
      (notOwn : (other, system.store.primary.get other) ∉ batch) :
      other ∈ system.store.dirtySet ∨ other ∈ system.marking ∨
        ∃ (position : Nat) (carrier : Flusher),
          (system.flushers.set index { flusher with
              phase := .deleting 0 flusher.flush.expiredOrder })[position]? =
            some carrier ∧
          carrier.Carries other (system.store.primary.get other) := by
    rcases covered.owed other otherMember differed with dirty | marking |
      carried
    · exact .inl dirty
    · exact .inr (.inl marking)
    · refine .inr (.inr ?_)
      rcases Threads.exists_getElem?_set present carried with own | rest
      · rw [Flusher.Carries, reading] at own
        rcases own with unreadHere | inBatch
        · exact absurd unreadHere List.not_mem_nil
        · exact absurd inBatch notOwn
      · exact rest
  refine ⟨covered.available, covered.noExpired, covered.dirtyKnown,
    covered.markingKnown, covered.noExpiring,
    Threads.forall_getElem?_set covered.sound
      ⟨sound.known, sound.distinct, sound.nothingExpired,
        sound.nothingExpired⟩, ?_, ?_⟩
  · intro other otherMember
    by_cases touched : other ∈ batch.map Prod.fst
    · obtain ⟨⟨_, entryValue⟩, inBatch, rfl⟩ := List.mem_map.1 touched
      rw [written inBatch]
      exact behind _ inBatch
    · rw [kept otherMember touched]
      exact covered.warmBehind other otherMember
  · intro other otherMember differs
    by_cases touched : other ∈ batch.map Prod.fst
    · obtain ⟨⟨_, entryValue⟩, inBatch, rfl⟩ := List.mem_map.1 touched
      rw [written inBatch] at differs
      have entryBehind := behind _ inBatch
      have rowBound := noOvertaking _ inBatch
      dsimp only at entryBehind rowBound differs otherMember ⊢
      refine others otherMember ?_ ?_
      · intro same
        rw [same] at rowBound
        exact differs (entryBehind.2
          (UInt64.le_antisymm entryBehind.1 rowBound))
      · intro own
        exact differs ((written inBatch).symm.trans (written own))
    · rw [kept otherMember touched] at differs
      refine others otherMember differs fun own => ?_
      exact touched (List.mem_map_of_mem own)

theorem Covered.advance
    (boundDistinct : Set.InjOn bindKey keys)
    (covered : Covered keys system)
    (noOvertaking : NoOvertaking system (.advance index))
    (stepped : step system (.advance index) = some next) :
    Covered keys next := by
  simp only [step] at stepped
  split at stepped
  · cases stepped
  · next flusher present =>
      cases phase : flusher.phase with
      | reading unread batch =>
          rw [phase] at stepped
          cases unread with
          | cons key rest =>
              cases stepped
              exact covered.read present phase
          | nil =>
              rcases system.store.warm.upsertBatch_cases
                flusher.flush.upsertFaults batch with ⟨error, failed⟩ | wrote
              · simp only [ConcurrentFlush.advance, failed] at stepped
                cases stepped
                exact covered.refuse present phase
              · simp only [ConcurrentFlush.advance, wrote] at stepped
                cases stepped
                apply covered.upsert boundDistinct present phase
                intro entry member
                apply noOvertaking flusher present entry
                rw [Flusher.upserting, phase]
                exact member
      | requeueing =>
          rw [phase] at stepped
          cases stepped
          exact covered.requeue present phase
      | deleting position pending =>
          have progress := (covered.sound index flusher present).progress
          rw [phase] at progress stepped
          subst progress
          cases stepped

end Preservation

/-- One critical section that does not overtake keeps the system covered. -/
theorem covered_step
    {keys : Set WindowKey}
    (distinct : Set.InjOn makeKey keys)
    (boundDistinct : Set.InjOn bindKey keys)
    (system : System layout)
    (action : Action)
    (next : System layout)
    (covered : Covered keys system)
    (allowed : action.Over keys ∧ Raises system action ∧
      NoOvertaking system action)
    (stepped : step system action = some next) :
    Covered keys next := by
  obtain ⟨known, raises, noOvertaking⟩ := allowed
  cases action with
  | compareAndSwap key expectedVal newVal =>
      exact covered.compareAndSwap distinct known raises stepped
  | markDirty index => exact covered.markDirty stepped
  | expire key => exact absurd known id
  | markExpired index =>
      simp only [step, covered.noExpiring, List.getElem?_nil] at stepped
      cases stepped
  | beginFlush flush => exact covered.beginFlush stepped
  | advance index =>
      exact covered.advance boundDistinct noOvertaking stepped

/-- No write is lost.  After every run of swaps and flushes in which no batch
is written over a row with a newer version, when nothing is in progress and no
key is dirty, both tiers hold the same for every key. -/
theorem idle_equal_of_noOvertaking
    (layout : StoreLayout)
    (keys : Set WindowKey)
    (distinct : Set.InjOn makeKey keys)
    (boundDistinct : Set.InjOn bindKey keys)
    (warm : DuckDbWindowStore)
    (available : warm.available = true)
    (rowsKnown : ∀ row ∈ warm.rows, row.key ∈ keys)
    (actions : List Action)
    (known : ∀ action ∈ actions, action.Over keys)
    (raises : Machine.RunMeets step Raises
      (System.initial (create (.empty layout) warm .none)) actions)
    (noOvertaking : Machine.RunMeets step NoOvertaking
      (System.initial (create (.empty layout) warm .none)) actions)
    (final : System layout)
    (ran : Machine.run step
      (System.initial (create (.empty layout) warm .none)) actions =
        some final)
    (idle : Idle final)
    (noDirty : final.store.dirtySet = ∅) :
    ∀ key ∈ keys,
      final.store.warm.get .none key = .ok (final.store.primary.get key) := by
  have start : Covered keys
      (System.initial (create (.empty layout) warm .none)) :=
    covered_initial available
      (synced_create distinct boundDistinct available rowsKnown)
  have covered : Covered keys final :=
    Machine.invariant_of_run_of_meets (covered_step distinct boundDistinct)
      start
      ((Machine.runMeets_of_forall_mem known _).and (raises.and noOvertaking))
      ran
  intro key member
  exact covered.equal_of_idle idle noDirty member

/-- A write and a flush, then a second write that a second flush brings over
while the first flush is long done. -/
def twoFlushes : List Action :=
  [.compareAndSwap aliceLogins {} ⟨.finite 1, 1⟩, .markDirty 0,
    .beginFlush { dirtyOrder := [aliceLogins], expiredOrder := [] },
    .advance 0, .advance 0,
    .compareAndSwap aliceLogins ⟨.finite 1, 1⟩ ⟨.finite 2, 2⟩, .markDirty 0,
    .beginFlush { dirtyOrder := [aliceLogins], expiredOrder := [] },
    .advance 1, .advance 1]

instance (system : System layout) : Decidable (Idle system) :=
  inferInstanceAs (Decidable (system.marking = [] ∧ system.expiring = [] ∧
    ∀ flusher ∈ system.flushers,
      (advance system.store flusher.flush flusher.phase).isNone))

/-- The two flushes of `twoFlushes` lose nothing. -/
theorem idle_equal_twoFlushes :
    ∃ final : System ⟨fun _ => 0, 1, by decide⟩,
      Machine.run step
          (System.initial (create (.empty _) ⟨true, ∅⟩ .none)) twoFlushes =
        some final ∧
      ∀ key ∈ ({aliceLogins} : Set WindowKey),
        final.store.warm.get .none key =
          .ok (final.store.primary.get key) := by
  refine ⟨_, (Option.some_get (by decide +kernel)).symm, ?_⟩
  refine idle_equal_of_noOvertaking ⟨fun _ => 0, 1, by decide⟩ {aliceLogins}
    (Set.injOn_singleton _ _) (Set.injOn_singleton _ _) ⟨true, ∅⟩ rfl
    (by simp) twoFlushes ?_ (by decide +kernel) (by decide +kernel) _
    (Option.some_get (by decide +kernel)).symm (by decide +kernel)
    (by decide +kernel)
  simp [twoFlushes, Action.Over]

/-- The first flush reads the first write; the second flush reads and writes
the second one; then the first flush writes what it has read. -/
def overtaken : List Action :=
  [.compareAndSwap aliceLogins {} ⟨.finite 1, 1⟩, .markDirty 0,
    .beginFlush { dirtyOrder := [aliceLogins], expiredOrder := [] },
    .advance 0,
    .compareAndSwap aliceLogins ⟨.finite 1, 1⟩ ⟨.finite 2, 2⟩, .markDirty 0,
    .beginFlush { dirtyOrder := [aliceLogins], expiredOrder := [] },
    .advance 1, .advance 1, .advance 0]

/-- The second write is lost: nothing is in progress, nothing is dirty, and
the warm tier holds the first write. -/
theorem overtaken_write_lost :
    ∃ final : System ⟨fun _ => 0, 1, by decide⟩,
      Machine.run step
          (System.initial (create (.empty _) ⟨true, ∅⟩ .none)) overtaken =
        some final ∧
      Idle final ∧ final.store.dirtySet = ∅ ∧
      final.store.primary.get aliceLogins = ⟨.finite 2, 2⟩ ∧
      DuckDbWindowStore.rowValue final.store.warm.rows aliceLogins =
        ⟨.finite 1, 1⟩ ∧
      final.store.warm.get .none aliceLogins ≠
        .ok (final.store.primary.get aliceLogins) := by
  refine ⟨_, (Option.some_get (by decide +kernel)).symm, by decide +kernel,
    by decide +kernel, by decide +kernel, by decide +kernel, ?_⟩
  rw [DuckDbWindowStore.get_none (by decide +kernel), ne_eq, Except.ok.injEq]
  decide +kernel

end ConcurrentFlush
end State
end Fre
