import Fre.Foundation.Machine
import Fre.Foundation.Threads
import Mathlib.Algebra.Ring.Nat
import Mathlib.Logic.Function.Basic

/-!
# Data behind locks

The data of an object is split into parts, each behind a lock of its own.  An
operation takes the lock of one part, works on the part in small steps, and
gives the lock back with its result.  Any number of clients call operations one
after the other, and their small steps interleave.  Clients cannot tell such an
object from one whose operations are single steps; and nobody waits for ever.
-/

namespace Foundation
namespace Monitors

/-- The critical sections of an object: the lock of an operation, the local
state in which its section begins, and one small step, which goes on or ends
with a result. -/
structure Sections (κ δ α ω ℓ : Type) where
  lockOf : α → κ
  enter : α → ℓ
  work : ℓ → δ → (ℓ ⊕ ω) × δ

/-- What a client asks for next, if anything, and how it takes the result. -/
structure Client (γ α ω : Type) where
  request : γ → Option α
  resume : γ → ω → γ

/-- The result of the rest of a section, and a bound on its steps. -/
structure Meaning {κ δ α ω ℓ : Type} (sections : Sections κ δ α ω ℓ) where
  outcome : ℓ → δ → ω × δ
  rank : ℓ → Nat
  goesOn : ∀ {here data next after},
    sections.work here data = (.inl next, after) →
      outcome here data = outcome next after ∧ rank next < rank here
  ends : ∀ {here data result after},
    sections.work here data = (.inr result, after) →
      outcome here data = (result, after)

/-- Where a thread is: between two operations, in a critical section, or with a
result and the lock. -/
inductive Phase (α ω ℓ : Type)
  | outside
  | inside (operation : α) (here : ℓ)
  | leaving (operation : α) (result : ω)

/-- The parts, who holds which lock, and the clients. -/
structure Locked (κ δ γ α ω ℓ : Type) where
  data : κ → δ
  owner : κ → Option Nat := fun _ => none
  threads : List (γ × Phase α ω ℓ) := []

/-- A small step of one thread, or a new client. -/
inductive Action (γ : Type)
  | start (client : γ)
  | lock (index : Nat)
  | work (index : Nat)
  | unlock (index : Nat)

/-- The client that a step starts, if any. -/
def Action.started {γ : Type} : Action γ → Option γ
  | .start client => some client
  | _ => none

/-- The object whose operations are single steps. -/
structure Atomic (κ δ γ : Type) where
  data : κ → δ
  clients : List γ := []

/-- A step of that object. -/
inductive Call (γ : Type)
  | start (client : γ)
  | perform (index : Nat)

/-- The client that the step starts, if any. -/
def Call.started {γ : Type} : Call γ → Option γ
  | .start client => some client
  | .perform _ => none

section Machines

variable {κ δ γ α ω ℓ : Type} [DecidableEq κ]
variable (sections : Sections κ δ α ω ℓ) (client : Client γ α ω)

/-- One step of the object with locks. -/
def step (system : Locked κ δ γ α ω ℓ) :
    Action γ → Option (Locked κ δ γ α ω ℓ)
  | .start new =>
      some { system with threads := system.threads ++ [(new, .outside)] }
  | .lock index =>
      match system.threads[index]? with
      | some (own, .outside) =>
          match client.request own with
          | some operation =>
              match system.owner (sections.lockOf operation) with
              | none =>
                  some { system with
                    owner := Function.update system.owner
                      (sections.lockOf operation) (some index)
                    threads := system.threads.set index
                      (own, .inside operation (sections.enter operation)) }
              | some _ => none
          | none => none
      | _ => none
  | .work index =>
      match system.threads[index]? with
      | some (own, .inside operation here) =>
          let worked := sections.work here
            (system.data (sections.lockOf operation))
          some { system with
            data := Function.update system.data (sections.lockOf operation)
              worked.2
            threads := system.threads.set index (own,
              match worked.1 with
              | .inl next => .inside operation next
              | .inr result => .leaving operation result) }
      | _ => none
  | .unlock index =>
      match system.threads[index]? with
      | some (own, .leaving operation result) =>
          some { system with
            owner := Function.update system.owner
              (sections.lockOf operation) none
            threads := system.threads.set index
              (client.resume own result, .outside) }
      | _ => none

variable {sections}
variable (meaning : Meaning sections)

/-- The operation as a single step. -/
def perform (operation : α) (data : κ → δ) : ω × (κ → δ) :=
  let done := meaning.outcome (sections.enter operation)
    (data (sections.lockOf operation))
  (done.1, Function.update data (sections.lockOf operation) done.2)

/-- One step of the object without locks. -/
def atomicStep (system : Atomic κ δ γ) : Call γ → Option (Atomic κ δ γ)
  | .start new => some { system with clients := system.clients ++ [new] }
  | .perform index =>
      match system.clients[index]? with
      | some own =>
          match client.request own with
          | some operation =>
              let done := perform meaning operation system.data
              some
                { data := done.2
                  clients := system.clients.set index
                    (client.resume own done.1) }
          | none => none
      | none => none

end Machines

section Refinement

variable {κ δ γ α ω ℓ : Type}
variable {sections : Sections κ δ α ω ℓ} (client : Client γ α ω)
variable (meaning : Meaning sections)

/-- The client as it is after the operation that it is about to leave. -/
def settled : γ × Phase α ω ℓ → γ
  | (own, .leaving _ result) => client.resume own result
  | (own, _) => own

/-- A thread between two operations. -/
def isOutside : Phase α ω ℓ → Bool
  | .outside => true
  | _ => false

/-- A thread that has taken a lock holds it; in its section it is on the way to
the result that the operation has as a single step, and when it leaves, the step
is done. -/
def Tracks (system : Locked κ δ γ α ω ℓ) (plain : κ → δ) (index : Nat) :
    γ × Phase α ω ℓ → Prop
  | (_, .outside) => True
  | (own, .inside operation here) =>
      system.owner (sections.lockOf operation) = some index ∧
        client.request own = some operation ∧
        meaning.outcome here (system.data (sections.lockOf operation)) =
          meaning.outcome (sections.enter operation)
            (plain (sections.lockOf operation))
  | (_, .leaving operation _) =>
      system.owner (sections.lockOf operation) = some index ∧
        system.data (sections.lockOf operation) =
          plain (sections.lockOf operation)

/-- The object with locks shows the plain one: the clients have what they will
have when they leave, a part that is not locked is the same, and the threads
track it. -/
structure Shows (system : Locked κ δ γ α ω ℓ) (plain : Atomic κ δ γ) :
    Prop where
  clients : plain.clients = system.threads.map (settled client)
  free : ∀ key, system.owner key = none → system.data key = plain.data key
  tracks : ∀ index thread, system.threads[index]? = some thread →
    Tracks client meaning system plain.data index thread

variable {client meaning}

/-- A thread that keeps its locks and the parts behind them is still
tracked. -/
theorem Tracks.frame
    {system next : Locked κ δ γ α ω ℓ}
    {plain after : κ → δ}
    {index : Nat}
    {thread : γ × Phase α ω ℓ}
    (tracks : Tracks client meaning system plain index thread)
    (kept : ∀ key, system.owner key = some index →
      next.owner key = some index ∧ next.data key = system.data key ∧
        after key = plain key) :
    Tracks client meaning next after index thread := by
  obtain ⟨own, phase⟩ := thread
  cases phase with
  | outside => trivial
  | inside operation here =>
      obtain ⟨holds, requested, onTheWay⟩ := tracks
      obtain ⟨stillHolds, sameData, samePlain⟩ := kept _ holds
      refine ⟨stillHolds, requested, ?_⟩
      rw [sameData, samePlain]
      exact onTheWay
  | leaving operation result =>
      obtain ⟨holds, done⟩ := tracks
      obtain ⟨stillHolds, sameData, samePlain⟩ := kept _ holds
      refine ⟨stillHolds, ?_⟩
      rw [sameData, samePlain]
      exact done

/-- A step of one thread on one key leaves the other threads tracked. -/
theorem Shows.tracks_others
    {system : Locked κ δ γ α ω ℓ}
    {plain : Atomic κ δ γ}
    (shows : Shows client meaning system plain)
    {index : Nat}
    (key : κ)
    (mine : ∀ other, system.owner key = some other → other = index)
    {next : Locked κ δ γ α ω ℓ}
    {after : κ → δ}
    (frame : ∀ other, other ≠ key → next.owner other = system.owner other ∧
      next.data other = system.data other ∧ after other = plain.data other)
    {thread : γ × Phase α ω ℓ}
    (threads : next.threads = system.threads.set index thread)
    (tracked : Tracks client meaning next after index thread) :
    ∀ position other, next.threads[position]? = some other →
      Tracks client meaning next after position other := by
  intro position other found
  rw [threads] at found
  rcases Threads.getElem?_set_cases found with ⟨rfl, rfl⟩ | ⟨different, before⟩
  · exact tracked
  · refine (shows.tracks position other before).frame fun held holds => ?_
    have notKey : held ≠ key := by
      rintro rfl
      exact different (mine position holds)
    obtain ⟨sameOwner, sameData, samePlain⟩ := frame held notKey
    exact ⟨sameOwner.trans holds, sameData, samePlain⟩

/-- The settled clients after one thread was replaced. -/
theorem map_settled_set
    {threads : List (γ × Phase α ω ℓ)}
    {index : Nat}
    {old : γ × Phase α ω ℓ}
    (present : threads[index]? = some old)
    {new : γ × Phase α ω ℓ}
    (same : settled client new = settled client old) :
    threads.map (settled client) =
      (threads.set index new).map (settled client) := by
  rw [List.map_set, same]
  obtain ⟨inRange, rfl⟩ := List.getElem?_eq_some_iff.mp present
  have inClients : index < (threads.map (settled client)).length := by
    rwa [List.length_map]
  rw [← List.set_getElem_self inClients, List.getElem_map]
  simp

/-- The thread is in a section of the lock, or on its way out. -/
def HoldsLock (sections : Sections κ δ α ω ℓ) (key : κ) : Phase α ω ℓ → Prop
  | .outside => False
  | .inside operation _ => sections.lockOf operation = key
  | .leaving operation _ => sections.lockOf operation = key

/-- Every lock that is taken is held by a thread. -/
def OwnersHold (sections : Sections κ δ α ω ℓ)
    (system : Locked κ δ γ α ω ℓ) : Prop :=
  ∀ key index, system.owner key = some index →
    ∃ thread, system.threads[index]? = some thread ∧
      HoldsLock sections key thread.2

/-- The owners of the other locks are left alone by a thread that goes on. -/
theorem OwnersHold.set
    {system : Locked κ δ γ α ω ℓ}
    (hold : OwnersHold sections system)
    {index : Nat}
    {old new : γ × Phase α ω ℓ}
    (present : system.threads[index]? = some old)
    {key : κ}
    {holder : Nat}
    (owned : system.owner key = some holder)
    (keeps : HoldsLock sections key old.2 → HoldsLock sections key new.2) :
    ∃ thread, (system.threads.set index new)[holder]? = some thread ∧
      HoldsLock sections key thread.2 := by
  obtain ⟨thread, found, holds⟩ := hold key holder owned
  by_cases same : index = holder
  · subst same
    rw [present, Option.some.injEq] at found
    subst found
    have inRange := (List.getElem?_eq_some_iff.mp present).1
    exact ⟨new, List.getElem?_set_self inRange, keeps holds⟩
  · exact ⟨thread, by rw [List.getElem?_set_ne same, found], holds⟩

/-- When nobody is in a section, the plain object has the same parts and the
same clients. -/
theorem Shows.eq_at_rest
    {system : Locked κ δ γ α ω ℓ}
    {plain : Atomic κ δ γ}
    (shows : Shows client meaning system plain)
    (outside : ∀ thread ∈ system.threads, thread.2 = .outside)
    (free : ∀ key, system.owner key = none) :
    plain = ⟨system.data, system.threads.map Prod.fst⟩ := by
  have sameData : plain.data = system.data :=
    funext fun key => (shows.free key (free key)).symm
  have sameClients : plain.clients = system.threads.map Prod.fst := by
    rw [shows.clients]
    refine List.map_congr_left ?_
    rintro ⟨own, phase⟩ member
    obtain rfl : phase = .outside := outside _ member
    rfl
  rw [← sameData, ← sameClients]

theorem shows_initial (data : κ → δ) :
    Shows client meaning ({ data := data } : Locked κ δ γ α ω ℓ)
      { data := data } :=
  ⟨rfl, fun _ _ => rfl, fun _ _ found => nomatch found⟩

variable [DecidableEq κ]

/-! ### What one step does -/

variable (sections client) in
/-- What a step has done. -/
inductive Stepped (system : Locked κ δ γ α ω ℓ) :
    Action γ → Locked κ δ γ α ω ℓ → Prop
  | start (new : γ) :
      Stepped system (.start new)
        { system with threads := system.threads ++ [(new, .outside)] }
  | lock {index : Nat} {own : γ} {operation : α} :
      system.threads[index]? = some (own, .outside) →
      client.request own = some operation →
      system.owner (sections.lockOf operation) = none →
        Stepped system (.lock index)
          { system with
            owner := Function.update system.owner
              (sections.lockOf operation) (some index)
            threads := system.threads.set index
              (own, .inside operation (sections.enter operation)) }
  | goOn {index : Nat} {own : γ} {operation : α} {here next : ℓ} {after : δ} :
      system.threads[index]? = some (own, .inside operation here) →
      sections.work here (system.data (sections.lockOf operation)) =
        (.inl next, after) →
        Stepped system (.work index)
          { system with
            data := Function.update system.data
              (sections.lockOf operation) after
            threads := system.threads.set index
              (own, .inside operation next) }
  | finish {index : Nat} {own : γ} {operation : α} {here : ℓ} {result : ω}
      {after : δ} :
      system.threads[index]? = some (own, .inside operation here) →
      sections.work here (system.data (sections.lockOf operation)) =
        (.inr result, after) →
        Stepped system (.work index)
          { system with
            data := Function.update system.data
              (sections.lockOf operation) after
            threads := system.threads.set index
              (own, .leaving operation result) }
  | unlock {index : Nat} {own : γ} {operation : α} {result : ω} :
      system.threads[index]? = some (own, .leaving operation result) →
        Stepped system (.unlock index)
          { system with
            owner := Function.update system.owner
              (sections.lockOf operation) none
            threads := system.threads.set index
              (client.resume own result, .outside) }

theorem stepped_of_step
    {system next : Locked κ δ γ α ω ℓ}
    {action : Action γ}
    (stepped : step sections client system action = some next) :
    Stepped sections client system action next := by
  cases action with
  | start new =>
      cases stepped
      exact .start new
  | lock index =>
      simp only [step] at stepped
      split at stepped
      next own present =>
        split at stepped
        next operation requested =>
          split at stepped
          next free =>
            cases stepped
            exact .lock present requested free
          next => cases stepped
        next => cases stepped
      next => cases stepped
  | work index =>
      simp only [step] at stepped
      split at stepped
      next own operation here present =>
        cases worked : sections.work here
            (system.data (sections.lockOf operation)) with
        | mk outcome after =>
            rw [worked] at stepped
            cases outcome with
            | inl next =>
                cases stepped
                exact .goOn present worked
            | inr result =>
                cases stepped
                exact .finish present worked
      next => cases stepped
  | unlock index =>
      simp only [step] at stepped
      split at stepped
      next own operation result present =>
        cases stepped
        exact .unlock present
      next => cases stepped

theorem run_perform
    {plain : Atomic κ δ γ}
    {index : Nat}
    {own : γ}
    {operation : α}
    (present : plain.clients[index]? = some own)
    (requested : client.request own = some operation) :
    Machine.run (atomicStep client meaning) plain [.perform index] =
      some
        { data := (perform meaning operation plain.data).2
          clients := plain.clients.set index
            (client.resume own (perform meaning operation plain.data).1) } := by
  simp [Machine.run, atomicStep, present, requested]

/-- Every step of the object with locks is a step of the plain one, or none. -/
theorem Shows.step
    {system next : Locked κ δ γ α ω ℓ}
    {plain : Atomic κ δ γ}
    (shows : Shows client meaning system plain)
    {action : Action γ}
    (stepped : Monitors.step sections client system action = some next) :
    ∃ calls after,
      Machine.run (atomicStep client meaning) plain calls = some after ∧
        calls.filterMap Call.started = action.started.toList ∧
        Shows client meaning next after := by
  cases stepped_of_step stepped with
  | start new =>
      refine ⟨[.start new], _, rfl, rfl, ?_, shows.free, ?_⟩
      · simp [shows.clients, settled]
      · intro index thread found
        rcases Threads.getElem?_concat_cases found with before | rfl
        · exact (shows.tracks index thread before).frame
            fun key holds => ⟨holds, rfl, rfl⟩
        · trivial
  | @lock index own operation present requested free =>
      refine ⟨[], plain, rfl, rfl, ?_, ?_, ?_⟩
      · rw [shows.clients]
        exact map_settled_set present rfl
      · intro key unlocked
        dsimp only at unlocked ⊢
        have other : key ≠ sections.lockOf operation := by
          rintro rfl
          rw [Function.update_self] at unlocked
          cases unlocked
        rw [Function.update_of_ne other] at unlocked
        exact shows.free key unlocked
      · refine shows.tracks_others (sections.lockOf operation) ?_ ?_ rfl
          ⟨Function.update_self .., requested, ?_⟩
        · intro holder holds
          rw [free] at holds
          cases holds
        · intro other different
          exact ⟨Function.update_of_ne different .., rfl, rfl⟩
        · rw [shows.free _ free]
  | @goOn index own operation here next after present worked =>
      obtain ⟨holds, requested, onTheWay⟩ := shows.tracks index _ present
      refine ⟨[], plain, rfl, rfl, ?_, ?_, ?_⟩
      · rw [shows.clients]
        exact map_settled_set present rfl
      · intro key unlocked
        dsimp only at unlocked ⊢
        have other : key ≠ sections.lockOf operation := by
          rintro rfl
          rw [holds] at unlocked
          cases unlocked
        rw [Function.update_of_ne other]
        exact shows.free key unlocked
      · refine shows.tracks_others (sections.lockOf operation) ?_ ?_ rfl
          ⟨holds, requested, ?_⟩
        · intro holder otherHolds
          rw [holds] at otherHolds
          exact (Option.some.inj otherHolds).symm
        · intro other different
          exact ⟨rfl, Function.update_of_ne different .., rfl⟩
        · dsimp only
          rw [Function.update_self, ← (meaning.goesOn worked).1]
          exact onTheWay
  | @finish index own operation here result after present worked =>
      obtain ⟨holds, requested, onTheWay⟩ := shows.tracks index _ present
      rw [meaning.ends worked] at onTheWay
      have done : perform meaning operation plain.data =
          (result, Function.update plain.data (sections.lockOf operation)
            after) := by
        unfold perform
        rw [← onTheWay]
      have waiting : plain.clients[index]? = some own := by
        rw [shows.clients, List.getElem?_map, present]
        rfl
      refine ⟨[.perform index], _, run_perform waiting requested, rfl, ?_, ?_,
        ?_⟩
      · rw [done, shows.clients, List.map_set]
        rfl
      · intro key unlocked
        dsimp only at unlocked ⊢
        have other : key ≠ sections.lockOf operation := by
          rintro rfl
          rw [holds] at unlocked
          cases unlocked
        rw [done]
        dsimp only
        rw [Function.update_of_ne other, Function.update_of_ne other]
        exact shows.free key unlocked
      · refine shows.tracks_others (sections.lockOf operation) ?_ ?_ rfl
          ⟨holds, ?_⟩
        · intro holder otherHolds
          rw [holds] at otherHolds
          exact (Option.some.inj otherHolds).symm
        · intro other different
          rw [done]
          exact ⟨rfl, Function.update_of_ne different ..,
            Function.update_of_ne different ..⟩
        · rw [done]
          dsimp only
          rw [Function.update_self, Function.update_self]
  | @unlock index own operation result present =>
      obtain ⟨holds, same⟩ := shows.tracks index _ present
      refine ⟨[], plain, rfl, rfl, ?_, ?_, ?_⟩
      · rw [shows.clients]
        exact map_settled_set present rfl
      · intro key unlocked
        dsimp only at unlocked ⊢
        by_cases own : key = sections.lockOf operation
        · rw [own]
          exact same
        · rw [Function.update_of_ne own] at unlocked
          exact shows.free key unlocked
      · refine shows.tracks_others (sections.lockOf operation) ?_ ?_ rfl
          trivial
        · intro holder otherHolds
          rw [holds] at otherHolds
          exact (Option.some.inj otherHolds).symm
        · intro other different
          exact ⟨Function.update_of_ne different .., rfl, rfl⟩

/-- A run of the object with locks is, step after step, a run of the plain one
with the same clients: each step has its segment of calls, and after any number
of steps the plain object is shown that has come through as many segments. -/
theorem Shows.run
    {system final : Locked κ δ γ α ω ℓ}
    {plain : Atomic κ δ γ}
    (shows : Shows client meaning system plain)
    {actions : List (Action γ)}
    (ran : Machine.run (Monitors.step sections client) system actions =
      some final) :
    ∃ segments : List (List (Call γ)), segments.length = actions.length ∧
      ∀ count, ∃ middle after,
        Machine.run (Monitors.step sections client) system
            (actions.take count) = some middle ∧
          Machine.run (atomicStep client meaning) plain
            (segments.take count).flatten = some after ∧
          (segments.take count).flatten.filterMap Call.started =
            (actions.take count).filterMap Action.started ∧
          Shows client meaning middle after := by
  induction actions generalizing system plain with
  | nil =>
      refine ⟨[], rfl, fun count => ⟨system, plain, ?_, ?_, ?_, shows⟩⟩
      · rw [List.take_nil]
        rfl
      · rw [List.take_nil]
        rfl
      · rw [List.take_nil, List.take_nil]
        rfl
  | cons action rest inductionHypothesis =>
      obtain ⟨next, stepped, restRan⟩ :=
        (Machine.run_cons_eq_some_iff _ _ _ _ _).mp ran
      obtain ⟨first, reached, firstRan, firstStarted, nextShows⟩ :=
        shows.step stepped
      obtain ⟨later, sameLength, alongRest⟩ :=
        inductionHypothesis nextShows restRan
      refine ⟨first :: later, by simp [sameLength], fun count => ?_⟩
      cases count with
      | zero => exact ⟨system, plain, rfl, rfl, rfl, shows⟩
      | succ count =>
          obtain ⟨middle, after, middleRan, laterRan, laterStarted,
            middleShows⟩ := alongRest count
          refine ⟨middle, after, ?_, ?_, ?_, middleShows⟩
          · rw [List.take_succ_cons, Machine.run_cons_eq_some_iff]
            exact ⟨next, stepped, middleRan⟩
          · rw [List.take_succ_cons, List.flatten_cons,
              Machine.run_append_eq_some_iff]
            exact ⟨reached, firstRan, laterRan⟩
          · rw [List.take_succ_cons, List.take_succ_cons, List.flatten_cons,
              List.filterMap_append, firstStarted, laterStarted,
              List.filterMap_cons]
            cases action.started <;> rfl

/-! ### Nobody waits for ever -/

theorem OwnersHold.step
    {system next : Locked κ δ γ α ω ℓ}
    {action : Action γ}
    (hold : OwnersHold sections system)
    (stepped : Monitors.step sections client system action = some next) :
    OwnersHold sections next := by
  intro key holder owned
  cases stepped_of_step stepped with
  | start new =>
      obtain ⟨thread, found, holds⟩ := hold key holder owned
      have inRange := (List.getElem?_eq_some_iff.mp found).1
      exact ⟨thread, by rw [List.getElem?_append_left inRange, found], holds⟩
  | @lock index own operation present requested free =>
      dsimp only at owned ⊢
      by_cases same : key = sections.lockOf operation
      · subst same
        rw [Function.update_self, Option.some.injEq] at owned
        subst owned
        have inRange := (List.getElem?_eq_some_iff.mp present).1
        exact ⟨_, List.getElem?_set_self inRange, rfl⟩
      · rw [Function.update_of_ne same] at owned
        exact hold.set present owned fun impossible => impossible.elim
  | goOn present worked => exact hold.set present owned id
  | finish present worked => exact hold.set present owned id
  | @unlock index own operation result present =>
      dsimp only at owned ⊢
      by_cases same : key = sections.lockOf operation
      · rw [same, Function.update_self] at owned
        cases owned
      · rw [Function.update_of_ne same] at owned
        exact hold.set present owned fun holds => absurd holds.symm same

/-- How many steps a thread is from the end of its section. -/
def stepsLeft (meaning : Meaning sections) : γ × Phase α ω ℓ → Nat
  | (_, .outside) => 0
  | (_, .inside _ here) => meaning.rank here + 2
  | (_, .leaving _ _) => 1

/-- The step goes on in a section or gives a lock back. -/
def Action.ends : Action γ → Prop
  | .work _ => True
  | .unlock _ => True
  | _ => False

/-- A thread that is not outside can always take a step, and comes nearer to the
end of its section. -/
theorem exists_step_of_not_outside
    (system : Locked κ δ γ α ω ℓ)
    {index : Nat}
    {thread : γ × Phase α ω ℓ}
    (present : system.threads[index]? = some thread)
    (busy : isOutside thread.2 = false) :
    ∃ action next, Action.ends action ∧
      Monitors.step sections client system action = some next ∧
      (next.threads.map (stepsLeft meaning)).sum <
        (system.threads.map (stepsLeft meaning)).sum := by
  have lower {new : γ × Phase α ω ℓ}
      (nearer : stepsLeft meaning new < stepsLeft meaning thread) :
      ((system.threads.set index new).map (stepsLeft meaning)).sum <
        (system.threads.map (stepsLeft meaning)).sum := by
    have moved := Threads.sum_map_set_add (stepsLeft meaning) present new
    omega
  obtain ⟨own, phase⟩ := thread
  cases phase with
  | outside => cases busy
  | inside operation here =>
      refine ⟨.work index, _, trivial,
        by simp only [Monitors.step, present]; rfl, ?_⟩
      apply lower
      cases worked : sections.work here
          (system.data (sections.lockOf operation)) with
      | mk outcome after =>
          cases outcome with
          | inl next =>
              have nearer := (meaning.goesOn worked).2
              simp only [stepsLeft]
              omega
          | inr result =>
              simp only [stepsLeft]
              omega
  | leaving operation result =>
      refine ⟨.unlock index, _, trivial,
        by simp only [Monitors.step, present]; rfl, lower ?_⟩
      exact Nat.zero_lt_one

/-- From every state the sections that have begun can end, without any new one,
and then no lock is held. -/
theorem exists_run_to_rest
    (meaning : Meaning sections)
    (system : Locked κ δ γ α ω ℓ)
    (hold : OwnersHold sections system) :
    ∃ actions rest, (∀ action ∈ actions, Action.ends action) ∧
      actions.length ≤ (system.threads.map (stepsLeft meaning)).sum ∧
      Machine.run (Monitors.step sections client) system actions = some rest ∧
      (∀ thread ∈ rest.threads, thread.2 = .outside) ∧
      ∀ key, rest.owner key = none := by
  let busy (system : Locked κ δ γ α ω ℓ) : Nat :=
    (system.threads.map (stepsLeft meaning)).sum
  let atRest (system : Locked κ δ γ α ω ℓ) : Prop :=
    ∀ thread ∈ system.threads, isOutside thread.2 = true
  have progress : ∀ system : Locked κ δ γ α ω ℓ,
      OwnersHold sections system → ¬ atRest system →
        ∃ action next, Action.ends action ∧
          Monitors.step sections client system action = some next ∧
          OwnersHold sections next ∧ busy next < busy system := by
    intro system hold notAtRest
    simp only [atRest, not_forall, Bool.not_eq_true] at notAtRest
    obtain ⟨thread, member, inSection⟩ := notAtRest
    obtain ⟨index, present⟩ := List.mem_iff_getElem?.mp member
    obtain ⟨action, next, ends, stepped, lower⟩ :=
      exists_step_of_not_outside system present inSection
    exact ⟨action, next, ends, stepped, hold.step stepped, lower⟩
  obtain ⟨actions, rest, ends, short, ran, outside⟩ :=
    Machine.exists_run_of_decreasing busy progress hold
  have restHold : OwnersHold sections rest :=
    Machine.invariant_of_run (fun _ _ _ holds stepped => holds.step stepped)
      hold ran
  have allOutside : ∀ thread ∈ rest.threads, thread.2 = .outside := by
    intro thread member
    have isOut := outside thread member
    cases phase : thread.2 with
    | outside => rfl
    | inside operation here => simp [phase, isOutside] at isOut
    | leaving operation result => simp [phase, isOutside] at isOut
  refine ⟨actions, rest, ends, short, ran, allOutside, fun key => ?_⟩
  cases owned : rest.owner key with
  | none => rfl
  | some holder =>
      obtain ⟨thread, found, holds⟩ := restHold key holder owned
      rw [allOutside thread (List.mem_of_getElem? found)] at holds
      exact holds.elim

theorem ownersHold_of_run
    {data : κ → δ}
    {actions : List (Action γ)}
    {final : Locked κ δ γ α ω ℓ}
    (ran : Machine.run (Monitors.step sections client) { data := data } actions =
      some final) :
    OwnersHold sections final := by
  have start : OwnersHold sections ({ data := data } : Locked κ δ γ α ω ℓ) :=
    fun _ _ owned => nomatch owned
  exact Machine.invariant_of_run (fun _ _ _ holds stepped => holds.step stepped)
    start ran

end Refinement

end Monitors
end Foundation
