import Fre.State.ConcurrentFlush

/-!
# A single flusher

With one flush at a time no version is needed to see that nothing is lost.  A
value is *current* for a key if it is what the primary holds, or if the key is
dirty or about to be marked; the row of every key is current or the key is in
the snapshot of the running flush, and what the flush has read so far is
current.  Statements may fail and the warm tier may be closed altogether.
-/

namespace Fre
namespace State
namespace ConcurrentFlush

open Foundation WriteBackWindowStore

variable {layout : StoreLayout}

/-- The value is that of the primary, or a later flush will bring that of the
primary. -/
def Current
    (system : System layout)
    (key : WindowKey)
    (value : WindowValue) : Prop :=
  value = system.store.primary.get key ∨
    key ∈ system.store.dirtySet ∨ key ∈ system.marking

/-- The flush is not over with its snapshot, and the key is in it. -/
def Flusher.Holds (flusher : Flusher) (key : WindowKey) : Prop :=
  match flusher.phase with
  | .reading _ _ => key ∈ flusher.flush.dirtyOrder
  | .requeueing => key ∈ flusher.flush.dirtyOrder
  | .deleting _ _ => False

/-- A flush starts only when every earlier flush is over. -/
def OneFlusher (system : System layout) : Action → Prop
  | .beginFlush _ => ∀ flusher ∈ system.flushers,
      (advance system.store flusher.flush flusher.phase).isNone
  | _ => True

instance (system : System layout) :
    ∀ action, Decidable (OneFlusher system action)
  | .compareAndSwap _ _ _ => .isTrue trivial
  | .markDirty _ => .isTrue trivial
  | .expire _ => .isTrue trivial
  | .markExpired _ => .isTrue trivial
  | .beginFlush _ =>
      inferInstanceAs (Decidable (∀ flusher ∈ system.flushers,
        (advance system.store flusher.flush flusher.phase).isNone))
  | .advance _ => .isTrue trivial

/-- What is known of a flush that runs alone, without expiry. -/
structure Flusher.Fresh
    (keys : Set WindowKey)
    (system : System layout)
    (flusher : Flusher) : Prop where
  known : ∀ key ∈ flusher.flush.dirtyOrder, key ∈ keys
  distinct : flusher.flush.dirtyOrder.Nodup
  nothingExpired : flusher.flush.expiredOrder = []
  progress :
    match flusher.phase with
    | .reading unread batch =>
        batch.map Prod.fst ++ unread = flusher.flush.dirtyOrder ∧
          ∀ entry ∈ batch, Current system entry.1 entry.2
    | .requeueing => True
    | .deleting _ pending => pending = []

/-- Every row is current or in the snapshot of a running flush. -/
structure Accounted (keys : Set WindowKey) (system : System layout) :
    Prop where
  noExpired : system.store.expiredSet = ∅
  dirtyKnown : ∀ key ∈ system.store.dirtySet, key ∈ keys
  markingKnown : ∀ key ∈ system.marking, key ∈ keys
  noExpiring : system.expiring = []
  fresh : ∀ flusher ∈ system.flushers, flusher.Fresh keys system
  owed : ∀ key ∈ keys,
    Current system key
        (DuckDbWindowStore.rowValue system.store.warm.rows key) ∨
      ∃ flusher ∈ system.flushers, flusher.Holds key

theorem accounted_initial
    {keys : Set WindowKey}
    {store : WriteBackWindowStore layout}
    (equal : ∀ key ∈ keys,
      DuckDbWindowStore.rowValue store.warm.rows key = store.primary.get key)
    (noDirty : store.dirtySet = ∅)
    (noExpired : store.expiredSet = ∅) :
    Accounted keys (System.initial store) where
  noExpired := noExpired
  dirtyKnown := by simp [System.initial, noDirty]
  markingKnown := by simp [System.initial]
  noExpiring := rfl
  fresh := by simp [System.initial]
  owed key member := .inl (.inl (equal key member))

section Preservation

variable {keys : Set WindowKey} {system next : System layout} {index : Nat}
  {flusher : Flusher} {key : WindowKey}

/-- A flush that is over holds nothing. -/
theorem Flusher.not_holds_of_isNone
    {store : WriteBackWindowStore layout}
    (finished : (ConcurrentFlush.advance store flusher.flush
      flusher.phase).isNone) :
    ¬ flusher.Holds key := by
  obtain ⟨position, deleting⟩ := deleting_nil_of_isNone finished
  rw [Flusher.Holds, deleting]
  exact id

theorem Flusher.Fresh.of_reading
    (fresh : flusher.Fresh keys system)
    {unread : List WindowKey}
    {batch : List (WindowKey × WindowValue)}
    (reading : flusher.phase = .reading unread batch) :
    batch.map Prod.fst ++ unread = flusher.flush.dirtyOrder ∧
      ∀ entry ∈ batch, Current system entry.1 entry.2 := by
  have progress := fresh.progress
  rw [reading] at progress
  exact progress

theorem Flusher.Fresh.batch_known
    (fresh : flusher.Fresh keys system)
    {unread : List WindowKey}
    {batch : List (WindowKey × WindowValue)}
    (reading : flusher.phase = .reading unread batch) :
    ∀ entry ∈ batch, entry.1 ∈ keys := by
  intro entry member
  apply fresh.known entry.1
  rw [← (fresh.of_reading reading).1]
  exact List.mem_append_left unread (List.mem_map_of_mem member)

/-- A change of the system that keeps current values current keeps a flush
fresh. -/
theorem Flusher.Fresh.mono
    (fresh : flusher.Fresh keys system)
    (kept : ∀ key ∈ keys, ∀ value,
      Current system key value → Current next key value) :
    flusher.Fresh keys next := by
  refine ⟨fresh.known, fresh.distinct, fresh.nothingExpired, ?_⟩
  cases phase : flusher.phase with
  | reading unread batch =>
      obtain ⟨order, current⟩ := fresh.of_reading phase
      refine ⟨order, fun entry member => ?_⟩
      exact kept entry.1 (fresh.batch_known phase entry member) entry.2
        (current entry member)
  | requeueing => trivial
  | deleting position pending =>
      have progress := fresh.progress
      rw [phase] at progress
      exact progress

/-- A swap that succeeds leaves its key about to be marked. -/
theorem Current.compareAndSwap
    (distinct : Set.InjOn makeKey keys)
    (member : key ∈ keys)
    {expectedVal newVal : WindowValue}
    (stepped : step system (.compareAndSwap key expectedVal newVal) =
      some next)
    {other : WindowKey}
    (otherMember : other ∈ keys)
    {value : WindowValue}
    (current : Current system other value) :
    Current next other value := by
  rw [step, Option.some.injEq] at stepped
  subst stepped
  by_cases matching :
      (system.store.primary.get key).version = expectedVal.version
  · have success := (system.store.primary.compareAndSwap_eq key expectedVal
      newVal).1
    rw [decide_eq_true matching] at success
    simp only [Current, success, if_true]
    by_cases same : other = key
    · exact .inr (.inr (same ▸ List.mem_cons_self))
    · rw [system.store.primary.get_compareAndSwap_of_distinct distinct member
        otherMember same expectedVal newVal]
      rcases current with equal | dirty | marking
      · exact .inl equal
      · exact .inr (.inl dirty)
      · exact .inr (.inr (List.mem_cons_of_mem key marking))
  · rw [system.store.primary.compareAndSwap_of_ne matching]
    exact current

theorem Accounted.compareAndSwap
    (distinct : Set.InjOn makeKey keys)
    (accounted : Accounted keys system)
    (member : key ∈ keys)
    {expectedVal newVal : WindowValue}
    (stepped : step system (.compareAndSwap key expectedVal newVal) =
      some next) :
    Accounted keys next := by
  have kept : ∀ other ∈ keys, ∀ value,
      Current system other value → Current next other value :=
    fun other otherMember value current =>
      current.compareAndSwap distinct member stepped otherMember
  rw [step, Option.some.injEq] at stepped
  subst stepped
  refine ⟨accounted.noExpired, accounted.dirtyKnown, ?_, accounted.noExpiring,
    fun flusher present => (accounted.fresh flusher present).mono kept, ?_⟩
  · intro other present
    dsimp only at present
    split at present
    · rcases List.mem_cons.1 present with rfl | old
      · exact member
      · exact accounted.markingKnown other old
    · exact accounted.markingKnown other present
  · intro other otherMember
    rcases accounted.owed other otherMember with current | held
    · exact .inl (kept other otherMember _ current)
    · exact .inr held

/-- Marking a key moves it from the callers into the dirty set. -/
theorem Accounted.markDirty
    (accounted : Accounted keys system)
    (stepped : step system (.markDirty index) = some next) :
    Accounted keys next := by
  simp only [step] at stepped
  split at stepped
  · cases stepped
  · next key present =>
      rw [Option.some.injEq] at stepped
      subst stepped
      have kept : ∀ other ∈ keys, ∀ value, Current system other value →
          Current { system with
            store := { system.store with
              dirtySet := insert key system.store.dirtySet }
            marking := system.marking.eraseIdx index } other value := by
        intro other _ value current
        rcases current with equal | dirty | marking
        · exact .inl equal
        · exact .inr (.inl (Finset.mem_insert_of_mem dirty))
        · exact .inr (mem_insert_or_eraseIdx present marking)
      refine ⟨accounted.noExpired, ?_, ?_, accounted.noExpiring,
        fun flusher flusherPresent =>
          (accounted.fresh flusher flusherPresent).mono kept, ?_⟩
      · intro other member
        rcases Finset.mem_insert.1 member with rfl | old
        · exact accounted.markingKnown other (List.mem_of_getElem? present)
        · exact accounted.dirtyKnown other old
      · intro other member
        exact accounted.markingKnown other (List.mem_of_mem_eraseIdx member)
      · intro other otherMember
        rcases accounted.owed other otherMember with current | held
        · exact .inl (kept other otherMember _ current)
        · exact .inr held

/-- The dirty keys become the snapshot of the new flush; no flush is in the
middle of its batch. -/
theorem Accounted.beginFlush
    (accounted : Accounted keys system)
    {flush : Flush}
    (alone : OneFlusher system (.beginFlush flush))
    (stepped : step system (.beginFlush flush) = some next) :
    Accounted keys next := by
  simp only [step] at stepped
  split at stepped
  · next enumerates =>
      rw [Option.some.injEq] at stepped
      subst stepped
      have nothingExpired := enumerates.expiredOrder_eq_nil accounted.noExpired
      have dirtyKnown : ∀ key ∈ flush.dirtyOrder, key ∈ keys :=
        fun key member =>
          accounted.dirtyKnown key (enumerates.mem_dirtyOrder_iff.1 member)
      refine ⟨rfl, by simp, accounted.markingKnown, accounted.noExpiring,
        ?_, ?_⟩
      · intro flusher present
        rcases List.mem_append.1 present with old | new
        · have fresh := accounted.fresh flusher old
          obtain ⟨position, deleting⟩ := deleting_nil_of_isNone
            (alone flusher old)
          refine ⟨fresh.known, fresh.distinct, fresh.nothingExpired, ?_⟩
          rw [deleting]
        · rw [List.mem_singleton] at new
          subst new
          refine ⟨dirtyKnown, enumerates.1.1, nothingExpired, ?_⟩
          dsimp only
          rw [firstPhase, nothingExpired]
          split_ifs
          · exact ⟨rfl, by simp⟩
          · trivial
          · rfl
      · intro key member
        rcases accounted.owed key member with current | ⟨flusher, old, holds⟩
        · rcases current with equal | dirty | marking
          · exact .inl (.inl equal)
          · refine .inr ⟨_, List.mem_append_right _ List.mem_cons_self, ?_⟩
            rw [← enumerates.mem_dirtyOrder_iff] at dirty
            have nonempty : flush.dirtyOrder.isEmpty = false := by
              rw [List.isEmpty_eq_false_iff]
              exact List.ne_nil_of_mem dirty
            rw [Flusher.Holds, firstPhase, nonempty]
            cases system.store.warm.available with
            | true => exact dirty
            | false => exact dirty
          · exact .inl (.inr (.inr marking))
        · exact absurd holds (Flusher.not_holds_of_isNone (alone flusher old))
  · cases stepped

/-! ### The critical sections of a flush -/

/-- A flush that moves on with its whole snapshot, the store untouched. -/
theorem Accounted.moveOn
    (accounted : Accounted keys system)
    (present : system.flushers[index]? = some flusher)
    {phase : Phase}
    (stillFresh : Flusher.Fresh keys system { flusher with phase := phase })
    (stillHolds : ∀ key, flusher.Holds key →
      Flusher.Holds { flusher with phase := phase } key) :
    Accounted keys { system with
      flushers := system.flushers.set index
        { flusher with phase := phase } } := by
  have within : index < system.flushers.length :=
    (List.getElem?_eq_some_iff.1 present).1
  have kept : ∀ key ∈ keys, ∀ value, Current system key value →
      Current { system with
        flushers := system.flushers.set index
          { flusher with phase := phase } } key value :=
    fun _ _ _ current => current
  refine ⟨accounted.noExpired, accounted.dirtyKnown, accounted.markingKnown,
    accounted.noExpiring, ?_, ?_⟩
  · apply Threads.forall_mem_set
    · exact fun other member => (accounted.fresh other member).mono kept
    · exact stillFresh.mono kept
  · intro key member
    rcases accounted.owed key member with current | held
    · exact .inl current
    · rcases Threads.exists_mem_set present held with own | others
      · exact .inr ⟨_, List.mem_set within _, stillHolds key own⟩
      · exact .inr others

/-- What is read is what the primary holds. -/
theorem Flusher.Fresh.read
    (fresh : flusher.Fresh keys system)
    {unread : List WindowKey}
    {batch : List (WindowKey × WindowValue)}
    (reading : flusher.phase = .reading (key :: unread) batch) :
    Flusher.Fresh keys system { flusher with
      phase := .reading unread
        (batch ++ [(key, system.store.primary.get key)]) } := by
  obtain ⟨order, current⟩ := fresh.of_reading reading
  refine ⟨fresh.known, fresh.distinct, fresh.nothingExpired, ?_, ?_⟩
  · rw [List.map_append, List.append_assoc]
    exact order
  · exact Threads.forall_mem_concat current (.inl rfl)

/-- Requeueing puts the whole snapshot back into the dirty set. -/
theorem Accounted.requeue
    (accounted : Accounted keys system)
    (present : system.flushers[index]? = some flusher)
    (requeueing : flusher.phase = .requeueing) :
    Accounted keys { system with
      store := system.store.requeue flusher.flush.dirtyOrder
      flushers := system.flushers.set index { flusher with
        phase := .deleting 0 flusher.flush.expiredOrder } } := by
  have fresh := accounted.fresh flusher (List.mem_of_getElem? present)
  have kept : ∀ key ∈ keys, ∀ value, Current system key value →
      Current { system with
        store := system.store.requeue flusher.flush.dirtyOrder
        flushers := system.flushers.set index { flusher with
          phase := .deleting 0 flusher.flush.expiredOrder } } key value := by
    intro key _ value current
    rcases current with equal | dirty | marking
    · exact .inl equal
    · exact .inr (.inl (Finset.mem_union_left _ dirty))
    · exact .inr (.inr marking)
  refine ⟨accounted.noExpired, ?_, accounted.markingKnown,
    accounted.noExpiring, ?_, ?_⟩
  · intro other member
    rcases Finset.mem_union.1 member with old | requeued
    · exact accounted.dirtyKnown other old
    · exact fresh.known other (List.mem_toFinset.1 requeued)
  · apply Threads.forall_mem_set
    · exact fun other member => (accounted.fresh other member).mono kept
    · exact ⟨fresh.known, fresh.distinct, fresh.nothingExpired,
        fresh.nothingExpired⟩
  · intro key member
    rcases accounted.owed key member with current | held
    · exact .inl (kept key member _ current)
    · rcases Threads.exists_mem_set present held with own | others
      · rw [Flusher.Holds, requeueing] at own
        exact .inl (.inr (.inl
          (Finset.mem_union_right _ (List.mem_toFinset.2 own))))
      · exact .inr others

/-- The batch of a flush that runs alone is current, so the rows it writes
are. -/
theorem Accounted.upsert
    (boundDistinct : Set.InjOn bindKey keys)
    (accounted : Accounted keys system)
    (present : system.flushers[index]? = some flusher)
    {batch : List (WindowKey × WindowValue)}
    (reading : flusher.phase = .reading [] batch) :
    Accounted keys { system with
      store := { system.store with
        warm := { system.store.warm with
          rows := Table.insertAll system.store.warm.rows
            (DuckDbWindowStore.boundBatch batch) } }
      flushers := system.flushers.set index { flusher with
        phase := .deleting 0 flusher.flush.expiredOrder } } := by
  have fresh := accounted.fresh flusher (List.mem_of_getElem? present)
  have batchKnown := fresh.batch_known reading
  obtain ⟨order, batchCurrent⟩ := fresh.of_reading reading
  rw [List.append_nil] at order
  have kept : ∀ key ∈ keys, ∀ value, Current system key value →
      Current { system with
        store := { system.store with
          warm := { system.store.warm with
            rows := Table.insertAll system.store.warm.rows
              (DuckDbWindowStore.boundBatch batch) } }
        flushers := system.flushers.set index { flusher with
          phase := .deleting 0 flusher.flush.expiredOrder } } key value :=
    fun _ _ _ current => current
  refine ⟨accounted.noExpired, accounted.dirtyKnown, accounted.markingKnown,
    accounted.noExpiring, ?_, ?_⟩
  · apply Threads.forall_mem_set
    · exact fun other member => (accounted.fresh other member).mono kept
    · exact ⟨fresh.known, fresh.distinct, fresh.nothingExpired,
        fresh.nothingExpired⟩
  · intro key member
    by_cases touched : key ∈ batch.map Prod.fst
    · obtain ⟨⟨_, value⟩, inBatch, rfl⟩ := List.mem_map.1 touched
      have written : DuckDbWindowStore.rowValue
          (Table.insertAll system.store.warm.rows
            (DuckDbWindowStore.boundBatch batch)) _ = value :=
        DuckDbWindowStore.rowValue_insertAll_of_mem boundDistinct batchKnown
          (order ▸ fresh.distinct) inBatch
      refine .inl (kept _ member _ ?_)
      rw [written]
      exact batchCurrent _ inBatch
    · have untouched : DuckDbWindowStore.rowValue
          (Table.insertAll system.store.warm.rows
            (DuckDbWindowStore.boundBatch batch)) key =
          DuckDbWindowStore.rowValue system.store.warm.rows key :=
        DuckDbWindowStore.rowValue_insertAll_of_not_mem boundDistinct batchKnown
          member touched
      rcases accounted.owed key member with current | held
      · refine .inl (kept _ member _ ?_)
        rw [untouched]
        exact current
      · rcases Threads.exists_mem_set present held with own | others
        · rw [Flusher.Holds, reading, ← order] at own
          exact absurd own touched
        · exact .inr others

theorem Accounted.advance
    (boundDistinct : Set.InjOn bindKey keys)
    (accounted : Accounted keys system)
    (stepped : step system (.advance index) = some next) :
    Accounted keys next := by
  simp only [step] at stepped
  split at stepped
  · cases stepped
  · next flusher present =>
      have fresh := accounted.fresh flusher (List.mem_of_getElem? present)
      cases phase : flusher.phase with
      | reading unread batch =>
          rw [phase] at stepped
          cases unread with
          | cons key rest =>
              cases stepped
              apply accounted.moveOn present (fresh.read phase)
              intro other holds
              rw [Flusher.Holds, phase] at holds
              exact holds
          | nil =>
              rcases system.store.warm.upsertBatch_cases
                flusher.flush.upsertFaults batch with ⟨error, failed⟩ | wrote
              · simp only [ConcurrentFlush.advance, failed] at stepped
                cases stepped
                have stillFresh : Flusher.Fresh keys system
                    { flusher with phase := .requeueing } :=
                  ⟨fresh.known, fresh.distinct, fresh.nothingExpired, trivial⟩
                apply accounted.moveOn present stillFresh
                intro other holds
                rw [Flusher.Holds, phase] at holds
                exact holds
              · simp only [ConcurrentFlush.advance, wrote] at stepped
                cases stepped
                exact accounted.upsert boundDistinct present phase
      | requeueing =>
          rw [phase] at stepped
          cases stepped
          exact accounted.requeue present phase
      | deleting position pending =>
          have progress := fresh.progress
          rw [phase] at progress stepped
          subst progress
          cases stepped

end Preservation

/-- One critical section of a caller or of the one flusher. -/
theorem accounted_step
    {keys : Set WindowKey}
    (distinct : Set.InjOn makeKey keys)
    (boundDistinct : Set.InjOn bindKey keys)
    (system : System layout)
    (action : Action)
    (next : System layout)
    (accounted : Accounted keys system)
    (allowed : action.Over keys ∧ OneFlusher system action)
    (stepped : step system action = some next) :
    Accounted keys next := by
  obtain ⟨known, alone⟩ := allowed
  cases action with
  | compareAndSwap key expectedVal newVal =>
      exact accounted.compareAndSwap distinct known stepped
  | markDirty index => exact accounted.markDirty stepped
  | expire key => exact absurd known id
  | markExpired index =>
      simp only [step, accounted.noExpiring, List.getElem?_nil] at stepped
      cases stepped
  | beginFlush flush => exact accounted.beginFlush alone stepped
  | advance index => exact accounted.advance boundDistinct stepped

/-- Every key on which the tiers differ is dirty, in the snapshot of a running
flush, or written by a caller that has not marked it yet; so the tiers are equal
when nothing is in progress and no key is dirty. -/
structure NothingForgotten (keys : Set WindowKey) (system : System layout) :
    Prop where
  pending : ∀ key ∈ keys,
    DuckDbWindowStore.rowValue system.store.warm.rows key ≠
        system.store.primary.get key →
      key ∈ system.store.dirtySet ∨
        (∃ flusher ∈ system.flushers, flusher.Holds key) ∨
        key ∈ system.marking
  equalAtRest : Idle system → system.store.dirtySet = ∅ → ∀ key ∈ keys,
    DuckDbWindowStore.rowValue system.store.warm.rows key =
      system.store.primary.get key

theorem Accounted.nothingForgotten
    {keys : Set WindowKey}
    {system : System layout}
    (accounted : Accounted keys system) :
    NothingForgotten keys system where
  pending := by
    intro key member differs
    rcases accounted.owed key member with current | held
    · rcases current with equal | dirty | marking
      · exact absurd equal differs
      · exact .inl dirty
      · exact .inr (.inr marking)
    · exact .inr (.inl held)
  equalAtRest := by
    intro idle noDirty key member
    rcases accounted.owed key member with current | ⟨flusher, present, holds⟩
    · rcases current with equal | dirty | marking
      · exact equal
      · rw [noDirty] at dirty
        exact absurd dirty (Finset.notMem_empty key)
      · rw [idle.1] at marking
        exact absurd marking List.not_mem_nil
    · exact absurd holds
        (Flusher.not_holds_of_isNone (idle.2.2 flusher present))

/-- A single flusher forgets no write.  The store starts with equal tiers and
may be closed; any statement of a flush may fail; the keys are different also
when cut at the first NUL. -/
theorem nothingForgotten_of_oneFlusher
    (layout : StoreLayout)
    (keys : Set WindowKey)
    (distinct : Set.InjOn makeKey keys)
    (boundDistinct : Set.InjOn bindKey keys)
    (store : WriteBackWindowStore layout)
    (equal : ∀ key ∈ keys,
      DuckDbWindowStore.rowValue store.warm.rows key = store.primary.get key)
    (noDirty : store.dirtySet = ∅)
    (noExpired : store.expiredSet = ∅)
    (actions : List Action)
    (known : ∀ action ∈ actions, action.Over keys)
    (alone : Machine.RunMeets step OneFlusher (System.initial store) actions)
    (final : System layout)
    (ran : Machine.run step (System.initial store) actions = some final) :
    NothingForgotten keys final := by
  have accounted : Accounted keys final :=
    Machine.invariant_of_run_of_meets (accounted_step distinct boundDistinct)
      (accounted_initial equal noDirty noExpired)
      ((Machine.runMeets_of_forall_mem known _).and alone) ran
  exact accounted.nothingForgotten

/-- A flush whose batch is refused, with a write in the middle of it, and a
second flush. -/
def refusedThenFlushed : List Action :=
  [.compareAndSwap aliceLogins {} ⟨.finite 1, 1⟩, .markDirty 0,
    .beginFlush { dirtyOrder := [aliceLogins], expiredOrder := []
                  upsertFaults := { commitFails := true } },
    .advance 0,
    .compareAndSwap aliceLogins ⟨.finite 1, 1⟩ ⟨.finite 2, 2⟩,
    .advance 0, .advance 0, .markDirty 0,
    .beginFlush { dirtyOrder := [aliceLogins], expiredOrder := [] },
    .advance 1, .advance 1]

/-- After `refusedThenFlushed` nothing is in progress and the second write is in
both tiers. -/
theorem nothingForgotten_refusedThenFlushed :
    ∃ final : System ⟨fun _ => 0, 1, by decide⟩,
      Machine.run step
          (System.initial (create (.empty _) ⟨true, ∅⟩ .none))
          refusedThenFlushed = some final ∧
      Idle final ∧ final.store.dirtySet = ∅ ∧
      final.store.primary.get aliceLogins = ⟨.finite 2, 2⟩ ∧
      NothingForgotten {aliceLogins} final := by
  refine ⟨_, (Option.some_get (by decide +kernel)).symm, by decide +kernel,
    by decide +kernel, by decide +kernel, ?_⟩
  refine nothingForgotten_of_oneFlusher ⟨fun _ => 0, 1, by decide⟩
    {aliceLogins} (Set.injOn_singleton _ _) (Set.injOn_singleton _ _)
    (create (.empty _) ⟨true, ∅⟩ .none) ?_ rfl rfl refusedThenFlushed ?_
    (by decide +kernel) _ (Option.some_get (by decide +kernel)).symm
  · rintro _ rfl
    decide +kernel
  · simp [refusedThenFlushed, Action.Over]

/-- A key whose entity has a NUL in it. -/
def nulLogins (suffix : Char) : WindowKey where
  tenantId := "acme"
  entityId := String.ofList ['e', '\x00', suffix]
  windowName := "logins"

/-- One of two keys that differ only behind a NUL is written and flushed. -/
def nulFlushed : List Action :=
  [.compareAndSwap (nulLogins 'x') {} ⟨.finite 1, 1⟩, .markDirty 0,
    .beginFlush { dirtyOrder := [nulLogins 'x'], expiredOrder := [] },
    .advance 0, .advance 0]

/-- Both keys have the one row that was written, and the other key is in no set
and in no snapshot. -/
theorem nul_key_forgotten :
    ∃ final : System ⟨fun _ => 0, 1, by decide⟩,
      makeKey (nulLogins 'x') ≠ makeKey (nulLogins 'y') ∧
      (∀ key ∈ ({nulLogins 'x', nulLogins 'y'} : Set WindowKey),
        DuckDbWindowStore.rowValue ∅ key =
          (create (.empty ⟨fun _ => 0, 1, by decide⟩) ⟨true, ∅⟩
            .none).primary.get key) ∧
      Machine.RunMeets step OneFlusher
        (System.initial (create (.empty ⟨fun _ => 0, 1, by decide⟩) ⟨true, ∅⟩
          .none)) nulFlushed ∧
      Machine.run step
          (System.initial (create (.empty _) ⟨true, ∅⟩ .none)) nulFlushed =
        some final ∧
      Idle final ∧ final.store.dirtySet = ∅ ∧
      ¬ NothingForgotten {nulLogins 'x', nulLogins 'y'} final := by
  refine ⟨_, by decide +kernel, ?_, by decide +kernel,
    (Option.some_get (by decide +kernel)).symm, by decide +kernel,
    by decide +kernel, ?_⟩
  · rintro _ (rfl | rfl)
    · decide +kernel
    · decide +kernel
  · intro nothing
    have same := nothing.equalAtRest (by decide +kernel) (by decide +kernel)
      (nulLogins 'y') (.inr rfl)
    revert same
    decide +kernel

end ConcurrentFlush
end State
end Fre
