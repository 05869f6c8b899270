import Fre.Foundation.Machine
import Fre.Foundation.Threads

/-!
# The wait of drain

`drain` waits on a condition variable until `in_flight_` is zero.  An event that
completes lowers `in_flight_` without the mutex of the condition variable; the
one that brings it to zero takes the mutex and notifies.  Between the test of
`drain` and its sleep the mutex is not free, so a notification cannot fall into
that gap, and an event that made the counter zero meanwhile is still on its way
to notify.
-/

namespace Fre
namespace Pipeline
namespace DrainWait

open Foundation

/-- Where an accepted event stands in `on_event_complete`. -/
inductive EventPc
  | running
  | lock
  | notify
  | unlock
  | completed
  deriving DecidableEq, Repr

/-- Where `drain` stands.  It keeps the mutex from the end of the wait until it
returns; the flag says that its time is over. -/
inductive DrainPc
  | notCalled
  | lock
  | test (timedOut : Bool)
  | block
  | blocked
  | relock (timedOut : Bool)
  | stopping
  deriving DecidableEq, Repr

/-- Who has `drain_mutex`. -/
inductive Owner
  | drain
  | event (index : Nat)
  deriving DecidableEq, Repr

/-- `in_flight_`, the mutex, the call of `drain`, and the events in order of
their submission. -/
structure System where
  inFlight : Int := 0
  mutex : Option Owner := none
  drain : DrainPc := .notCalled
  events : List EventPc := []
  deriving DecidableEq, Repr

/-- What can happen next: a submission raises the counter, an event or `drain`
takes its next step, or `drain` wakes up without a notification, spuriously or
at its deadline. -/
inductive Action
  | submit
  | event (index : Nat)
  | drain
  | wake (timedOut : Bool)
  deriving DecidableEq, Repr

/-- `drain` after `notify_all`. -/
def DrainPc.notified : DrainPc → DrainPc
  | .blocked => .relock false
  | drain => drain

/-- The next step of `on_event_complete`. -/
def eventStep (system : System) (index : Nat) : EventPc → Option System
  | .running =>
      some { system with
        inFlight := system.inFlight - 1
        events := system.events.set index
          (if system.inFlight = 1 then .lock else .completed) }
  | .lock =>
      if system.mutex = none then
        some { system with
          mutex := some (.event index)
          events := system.events.set index .notify }
      else none
  | .notify =>
      some { system with
        drain := system.drain.notified
        events := system.events.set index .unlock }
  | .unlock =>
      some { system with
        mutex := none
        events := system.events.set index .completed }
  | .completed => none

/-- The next step of `drain`: `wait_for` tests the predicate with the mutex
held, gives the mutex up when it goes to sleep, and tests a last time after its
deadline. -/
def drainStep (system : System) : Option System :=
  match system.drain with
  | .notCalled => some { system with drain := .lock }
  | .lock =>
      if system.mutex = none then
        some { system with mutex := some .drain, drain := .test false }
      else none
  | .test timedOut =>
      some { system with
        drain :=
          if system.inFlight = 0 || timedOut then .stopping else .block }
  | .block => some { system with mutex := none, drain := .blocked }
  | .blocked => none
  | .relock timedOut =>
      if system.mutex = none then
        some { system with mutex := some .drain, drain := .test timedOut }
      else none
  | .stopping => some { system with mutex := none, drain := .notCalled }

/-- One step of some party. -/
def step (system : System) : Action → Option System
  | .submit =>
      some { system with
        inFlight := system.inFlight + 1
        events := system.events ++ [.running] }
  | .event index =>
      (system.events[index]?).bind (eventStep system index)
  | .drain => drainStep system
  | .wake timedOut =>
      if system.drain = .blocked then
        some { system with drain := .relock timedOut }
      else none

/-! ### The invariant -/

/-- The event is counted by `in_flight_`. -/
def EventPc.counted : EventPc → Bool
  | .running => true
  | _ => false

/-- The event has the mutex. -/
def EventPc.holds : EventPc → Bool
  | .notify => true
  | .unlock => true
  | _ => false

/-- The event is between its decrement to zero and its notification. -/
def EventPc.pending : EventPc → Bool
  | .lock => true
  | .notify => true
  | _ => false

/-- `drain` has the mutex. -/
def DrainPc.holds : DrainPc → Bool
  | .test _ => true
  | .block => true
  | .stopping => true
  | _ => false

/-- `drain` has found the counter positive and was not woken since. -/
def DrainPc.committed : DrainPc → Bool
  | .block => true
  | .blocked => true
  | _ => false

/-- The counter counts, the mutex has the owner that the positions say, and
while `drain` is going to sleep or sleeps with the counter at zero, some event
is going to notify. -/
structure Sound (system : System) : Prop where
  counted : system.inFlight = system.events.countP EventPc.counted
  drainOwns : system.mutex = some .drain ↔ system.drain.holds = true
  eventOwns : ∀ index, system.mutex = some (.event index) ↔
    ∃ event, system.events[index]? = some event ∧ event.holds = true
  awaited : system.drain.committed = true → system.inFlight = 0 →
    ∃ event ∈ system.events, event.pending = true

theorem sound_initial : Sound {} where
  counted := rfl
  drainOwns := by decide
  eventOwns := by simp
  awaited := by simp [DrainPc.committed]

/-! ### Steps of an event -/

/-- The owner is still what the positions say after one event has moved, if it
is so for this event and unchanged for the others. -/
theorem eventOwns_set
    {events : List EventPc}
    {mutex after : Option Owner}
    {index : Nat}
    {old new : EventPc}
    (owns : ∀ other, mutex = some (.event other) ↔
      ∃ event, events[other]? = some event ∧ event.holds = true)
    (present : events[index]? = some old)
    (self : after = some (.event index) ↔ new.holds = true)
    (others : ∀ other, other ≠ index →
      (after = some (.event other) ↔ mutex = some (.event other))) :
    ∀ other, after = some (.event other) ↔
      ∃ event, (events.set index new)[other]? = some event ∧
        event.holds = true := by
  intro other
  by_cases same : other = index
  · subst same
    have inRange := (List.getElem?_eq_some_iff.mp present).1
    simp [List.getElem?_set_self inRange, self]
  · rw [others other same, owns other,
      List.getElem?_set_ne fun equal => same equal.symm]

/-- An event has the mutex exactly when it stands between its lock and its
unlock. -/
theorem Sound.owns_iff
    {system : System}
    (sound : Sound system)
    {index : Nat}
    {event : EventPc}
    (present : system.events[index]? = some event) :
    system.mutex = some (.event index) ↔ event.holds = true := by
  rw [sound.eventOwns index]
  simp [present]

/-- The counter follows one event. -/
theorem Sound.counted_set
    {system : System}
    (sound : Sound system)
    {index : Nat}
    {old new : EventPc}
    (present : system.events[index]? = some old)
    {inFlight : Int}
    (moved : inFlight + old.counted.toNat =
      system.inFlight + new.counted.toNat) :
    inFlight = (system.events.set index new).countP EventPc.counted := by
  have counted := sound.counted
  have replaced := Threads.countP_set_add EventPc.counted present new
  omega

/-- The decrement.  The event that brings the counter to zero is the one that
`drain` can count on. -/
theorem sound_running
    {system next : System}
    {index : Nat}
    (sound : Sound system)
    (present : system.events[index]? = some .running)
    (stepped : eventStep system index .running = some next) :
    Sound next := by
  cases stepped
  have notOwner : system.mutex ≠ some (.event index) := fun owner =>
    Bool.false_ne_true ((sound.owns_iff present).mp owner)
  have inRange := (List.getElem?_eq_some_iff.mp present).1
  by_cases last : system.inFlight = 1
  · simp only [last, if_true]
    refine ⟨?_, sound.drainOwns, ?_, ?_⟩
    · refine sound.counted_set present ?_
      simp [EventPc.counted, last]
    · exact eventOwns_set sound.eventOwns present
        (by simpa [EventPc.holds] using notOwner) fun _ _ => Iff.rfl
    · exact fun _ _ => ⟨.lock, List.mem_set inRange .lock, rfl⟩
  · simp only [last, if_false]
    refine ⟨?_, sound.drainOwns, ?_, ?_⟩
    · refine sound.counted_set present ?_
      simp [EventPc.counted]
    · exact eventOwns_set sound.eventOwns present
        (by simpa [EventPc.holds] using notOwner) fun _ _ => Iff.rfl
    · intro _ zero
      dsimp only at zero
      omega

theorem sound_lock
    {system next : System}
    {index : Nat}
    (sound : Sound system)
    (present : system.events[index]? = some .lock)
    (stepped : eventStep system index .lock = some next) :
    Sound next := by
  simp only [eventStep] at stepped
  split at stepped
  next free =>
    cases stepped
    have inRange := (List.getElem?_eq_some_iff.mp present).1
    have drainOwns := sound.drainOwns
    refine ⟨?_, ?_, ?_, ?_⟩
    · exact sound.counted_set present rfl
    · simpa [free] using drainOwns
    · refine eventOwns_set sound.eventOwns present ?_ ?_
      · simp [EventPc.holds]
      · intro other different
        simp [free, different.symm]
    · exact fun _ _ => ⟨.notify, List.mem_set inRange .notify, rfl⟩
  next => cases stepped

/-- The notification.  `drain` cannot be between its test and its sleep, since
there it has the mutex. -/
theorem sound_notify
    {system next : System}
    {index : Nat}
    (sound : Sound system)
    (present : system.events[index]? = some .notify)
    (stepped : eventStep system index .notify = some next) :
    Sound next := by
  cases stepped
  have owner : system.mutex = some (.event index) :=
    (sound.owns_iff present).mpr rfl
  have drainFree : system.drain.holds = false := by
    have drainOwns := sound.drainOwns
    simpa [owner] using drainOwns
  refine ⟨?_, ?_, ?_, ?_⟩
  · exact sound.counted_set present rfl
  · cases position : system.drain <;>
      simp_all [DrainPc.notified, DrainPc.holds]
  · refine eventOwns_set sound.eventOwns present ?_ fun _ _ => Iff.rfl
    simp [owner, EventPc.holds]
  · intro committed
    cases position : system.drain <;>
      simp_all [DrainPc.notified, DrainPc.holds, DrainPc.committed]

theorem sound_unlock
    {system next : System}
    {index : Nat}
    (sound : Sound system)
    (present : system.events[index]? = some .unlock)
    (stepped : eventStep system index .unlock = some next) :
    Sound next := by
  cases stepped
  have owner : system.mutex = some (.event index) :=
    (sound.owns_iff present).mpr rfl
  have drainOwns := sound.drainOwns
  refine ⟨?_, ?_, ?_, ?_⟩
  · exact sound.counted_set present rfl
  · simpa [owner] using drainOwns
  · refine eventOwns_set sound.eventOwns present ?_ ?_
    · simp [EventPc.holds]
    · intro other different
      simp [owner, different.symm]
  · intro committed zero
    rcases Threads.exists_mem_set present (sound.awaited committed zero) with
      own | still
    · cases own
    · exact still

theorem sound_event
    {system next : System}
    {index : Nat}
    (sound : Sound system)
    (stepped : step system (.event index) = some next) :
    Sound next := by
  obtain ⟨event, present, moved⟩ := Option.bind_eq_some_iff.mp stepped
  cases event with
  | running => exact sound_running sound present moved
  | lock => exact sound_lock sound present moved
  | notify => exact sound_notify sound present moved
  | unlock => exact sound_unlock sound present moved
  | completed => cases moved

/-! ### Steps of drain -/

/-- The mutex passes to `drain`, or from it, and `drain` is not going to
sleep. -/
theorem Sound.drain_moves
    {system : System}
    (sound : Sound system)
    {mutex : Option Owner}
    {drain : DrainPc}
    (before : ∀ index, system.mutex ≠ some (.event index))
    (after : ∀ index, mutex ≠ some (.event index))
    (owns : mutex = some .drain ↔ drain.holds = true)
    (awaited : drain.committed = true → system.inFlight = 0 →
      ∃ event ∈ system.events, event.pending = true) :
    Sound { system with mutex := mutex, drain := drain } where
  counted := sound.counted
  drainOwns := owns
  eventOwns index := by
    rw [← sound.eventOwns index]
    exact iff_of_false (after index) (before index)
  awaited := awaited

theorem sound_drain
    {system next : System}
    (sound : Sound system)
    (stepped : drainStep system = some next) :
    Sound next := by
  unfold drainStep at stepped
  split at stepped
  next position =>
    cases stepped
    refine ⟨sound.counted, ?_, sound.eventOwns, by simp [DrainPc.committed]⟩
    have drainOwns := sound.drainOwns
    simpa [position, DrainPc.holds] using drainOwns
  next =>
    split at stepped
    next free =>
      cases stepped
      exact sound.drain_moves (by simp [free]) (by simp)
        (by simp [DrainPc.holds]) (by simp [DrainPc.committed])
    next => cases stepped
  next timedOut position =>
    cases stepped
    have owner : system.mutex = some .drain :=
      sound.drainOwns.mpr (by rw [position]; rfl)
    refine sound.drain_moves (by simp [owner]) (by simp [owner]) ?_ ?_
    · simp only [owner, true_iff]
      split <;> rfl
    · -- `drain` goes to sleep only on a positive counter
      intro committed zero
      simp [zero, DrainPc.committed] at committed
  next position =>
    cases stepped
    have owner : system.mutex = some .drain :=
      sound.drainOwns.mpr (by rw [position]; rfl)
    refine sound.drain_moves (by simp [owner]) (by simp)
      (by simp [DrainPc.holds]) ?_
    exact fun _ => sound.awaited (by rw [position]; rfl)
  next => cases stepped
  next =>
    split at stepped
    next free =>
      cases stepped
      exact sound.drain_moves (by simp [free]) (by simp)
        (by simp [DrainPc.holds]) (by simp [DrainPc.committed])
    next => cases stepped
  next position =>
    cases stepped
    have owner : system.mutex = some .drain :=
      sound.drainOwns.mpr (by rw [position]; rfl)
    exact sound.drain_moves (by simp [owner]) (by simp)
      (by simp [DrainPc.holds]) (by simp [DrainPc.committed])

theorem sound_wake
    {system next : System}
    {timedOut : Bool}
    (sound : Sound system)
    (stepped : step system (.wake timedOut) = some next) :
    Sound next := by
  simp only [step] at stepped
  split at stepped
  next position =>
    cases stepped
    refine ⟨sound.counted, ?_, sound.eventOwns, by simp [DrainPc.committed]⟩
    have drainOwns := sound.drainOwns
    simpa [position, DrainPc.holds] using drainOwns
  next => cases stepped

theorem sound_submit
    {system next : System}
    (sound : Sound system)
    (stepped : step system .submit = some next) :
    Sound next := by
  cases stepped
  have counted := sound.counted
  refine ⟨?_, sound.drainOwns, ?_, ?_⟩
  · simp [counted, EventPc.counted]
  · intro index
    rw [sound.eventOwns index]
    constructor
    · rintro ⟨event, present, holds⟩
      exact ⟨event, List.getElem?_append_left
        (List.getElem?_eq_some_iff.mp present).1 ▸ present, holds⟩
    · rintro ⟨event, present, holds⟩
      rcases Threads.getElem?_concat_cases present with before | rfl
      · exact ⟨event, before, holds⟩
      · cases holds
  · intro _ zero
    dsimp only at zero
    omega

/-- Every step of every party keeps the invariant. -/
theorem sound_step
    {system next : System}
    {action : Action}
    (sound : Sound system)
    (stepped : step system action = some next) :
    Sound next := by
  cases action with
  | submit => exact sound_submit sound stepped
  | event index => exact sound_event sound stepped
  | drain => exact sound_drain sound stepped
  | wake timedOut => exact sound_wake sound stepped

/-! ### The wake-up -/

theorem sound_of_run
    {actions : List Action}
    {system : System}
    (ran : Machine.run step {} actions = some system) :
    Sound system :=
  Machine.invariant_of_run (fun _ _ _ before stepped => sound_step before stepped)
    sound_initial ran

/-- The steps of events alone wake `drain` up, and there are few of them. -/
def Wakes (system : System) : Prop :=
  ∃ indices : List Nat, indices.length ≤ 3 ∧
    ∃ next, Machine.run step system (indices.map .event) = some next ∧
      next.drain = .relock false

theorem wakes_of_notify
    {system : System}
    {index : Nat}
    (blocked : system.drain = .blocked)
    (present : system.events[index]? = some .notify) :
    Wakes system := by
  have notified : step system (.event index) =
      some { system with
        drain := .relock false
        events := system.events.set index .unlock } := by
    simp [step, present, eventStep, blocked, DrainPc.notified]
  exact ⟨[index], by simp, _,
    (Machine.run_cons_eq_some_iff _ _ _ _ _).mpr ⟨_, notified, rfl⟩, rfl⟩

/-- A pending event that finds the mutex free takes it and notifies. -/
theorem run_lock_notify
    {system : System}
    {index : Nat}
    (free : system.mutex = none)
    (blocked : system.drain = .blocked)
    (present : system.events[index]? = some .lock) :
    ∃ next, Machine.run step system [.event index, .event index] = some next ∧
      next.drain = .relock false := by
  have inRange := (List.getElem?_eq_some_iff.mp present).1
  refine ⟨{ system with
    mutex := some (.event index)
    drain := .relock false
    events := (system.events.set index .notify).set index .unlock }, ?_, rfl⟩
  simp [Machine.run, step, present, eventStep, free, blocked,
    DrainPc.notified, List.getElem?_set_self inRange]

theorem wakes_of_unlock
    {system : System}
    {index other : Nat}
    (blocked : system.drain = .blocked)
    (holderPresent : system.events[other]? = some .unlock)
    (present : (system.events.set other .completed)[index]? = some .lock) :
    Wakes system := by
  let left : System := { system with
    mutex := none
    events := system.events.set other .completed }
  have leaves : step system (.event other) = some left := by
    simp [left, step, holderPresent, eventStep]
  have free : left.mutex = none := rfl
  obtain ⟨next, ran, awake⟩ := run_lock_notify free blocked present
  exact ⟨[other, index, index], by simp, next,
    (Machine.run_cons_eq_some_iff _ _ _ _ _).mpr ⟨left, leaves, ran⟩, awake⟩

/-- The owner of the mutex does not keep a pending event from notifying: it is
an event itself, which notifies first or leaves. -/
theorem Sound.wakes
    {system : System}
    (sound : Sound system)
    (blocked : system.drain = .blocked)
    (pending : ∃ event ∈ system.events, event.pending = true) :
    Wakes system := by
  obtain ⟨event, member, isPending⟩ := pending
  obtain ⟨index, present⟩ := List.mem_iff_getElem?.mp member
  cases event with
  | running => cases isPending
  | notify => exact wakes_of_notify blocked present
  | unlock => cases isPending
  | completed => cases isPending
  | lock =>
      cases owner : system.mutex with
      | none =>
          exact ⟨[index, index], by simp, run_lock_notify owner blocked present⟩
      | some party =>
          cases party with
          | drain =>
              have holds := sound.drainOwns.mp owner
              rw [blocked] at holds
              cases holds
          | event other =>
              obtain ⟨holder, holderPresent, holds⟩ :=
                (sound.eventOwns other).mp owner
              cases holder with
              | running => cases holds
              | lock => cases holds
              | completed => cases holds
              | notify => exact wakes_of_notify blocked holderPresent
              | unlock =>
                  have different : other ≠ index := by
                    rintro rfl
                    rw [present] at holderPresent
                    cases holderPresent
                  exact wakes_of_unlock blocked holderPresent
                    ((List.getElem?_set_ne different).trans present)

/-- No lost wake-up.  In every state of every interleaving: if `drain` sleeps
and the counter is zero, then some event is between its decrement to zero and
its notification, and the steps of events alone wake `drain` up; and when every
event has completed, `drain` does not sleep, so it does not wait for its
deadline. -/
theorem no_lost_wakeup
    {actions : List Action}
    {system : System}
    (ran : Machine.run step {} actions = some system) :
    (system.drain = .blocked → system.inFlight = 0 →
      (∃ event ∈ system.events, event.pending = true) ∧ Wakes system) ∧
    ((∀ event ∈ system.events, event = .completed) →
      system.drain ≠ .blocked) := by
  have sound := sound_of_run ran
  constructor
  · intro blocked zero
    have pending := sound.awaited (by rw [blocked]; rfl) zero
    exact ⟨pending, sound.wakes blocked pending⟩
  · intro completed blocked
    have zero : system.inFlight = 0 := by
      rw [sound.counted, Int.natCast_eq_zero, List.countP_eq_zero]
      intro event member
      rw [completed event member]
      exact Bool.false_ne_true
    obtain ⟨event, member, isPending⟩ :=
      sound.awaited (by rw [blocked]; rfl) zero
    rw [completed event member] at isPending
    cases isPending

/-- The decrement falls into the gap between the test of `drain` and its
sleep. -/
def decrementInTheGap : List Action :=
  [.submit, .drain, .drain, .drain, .event 0, .drain]

theorem no_lost_wakeup_decrementInTheGap :
    ∃ system, Machine.run step {} decrementInTheGap = some system ∧
      system.drain = .blocked ∧ system.inFlight = 0 ∧
      system.events = [.lock] ∧ Wakes system := by
  have ran : Machine.run step {} decrementInTheGap =
      some { drain := .blocked, events := [.lock] } := rfl
  exact ⟨_, ran, rfl, rfl, rfl, ((no_lost_wakeup ran).1 rfl rfl).2⟩

end DrainWait
end Pipeline
end Fre
