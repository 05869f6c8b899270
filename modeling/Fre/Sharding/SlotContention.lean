import Fre.Foundation.FixedWidth
import Fre.Foundation.Machine
import Fre.Foundation.Threads
import Fre.Sharding.Config

/-!
# Slots under contention

The calls of one tenant share the counter `in_flight`.  `try_acquire` raises it
before it looks at the cap and lowers it again when the cap was reached, so the
counter also counts the rejections that are not yet undone.  A call below the
cap finds at most as many slots taken as the counter said, and so the slots
never exceed the cap although the counter does.
-/

namespace Fre
namespace Sharding
namespace SlotContention

open Foundation

/-- Where a `try_acquire` call stands, with its release. -/
inductive CallPc
  | consume
  | fetchAdd
  | compare (prev : Int32)
  | fetchSub
  | acquired
  | rejected
  | released
  deriving DecidableEq, Repr

/-- The counter of the tenant and its calls in order of invocation. -/
structure System where
  inFlight : Int32 := 0
  calls : List CallPc := []
  deriving DecidableEq, Repr

/-- What can happen next: a new call, the answer of the bucket, or the next
step of a call, which for one that has acquired is the release. -/
inductive Action
  | tryAcquire
  | consume (index : Nat) (granted : Bool)
  | advance (index : Nat)
  deriving DecidableEq, Repr

/-- The next atomic step of a call, with the counter. -/
def advanceCall (maxConcurrent inFlight : Int32) :
    CallPc → Option (CallPc × Int32)
  | .fetchAdd => some (.compare inFlight, inFlight + 1)
  | .compare prev =>
      some (if prev ≥ maxConcurrent then .fetchSub else .acquired, inFlight)
  | .fetchSub => some (.rejected, inFlight - 1)
  | .acquired => some (.released, inFlight - 1)
  | .consume => none
  | .rejected => none
  | .released => none

/-- One step of some call. -/
def step (maxConcurrent : Int32) (system : System) : Action → Option System
  | .tryAcquire => some { system with calls := system.calls ++ [.consume] }
  | .consume index granted =>
      if system.calls[index]? = some .consume then
        some { system with
          calls := system.calls.set index
            (if granted then .fetchAdd else .rejected) }
      else none
  | .advance index =>
      (system.calls[index]?).bind fun call =>
        (advanceCall maxConcurrent system.inFlight call).map fun moved =>
          { inFlight := moved.2
            calls := system.calls.set index moved.1 }

/-! ### Slots and rejections -/

/-- The call has a slot, which may not have been compared with the cap yet. -/
def CallPc.holds (maxConcurrent : Int32) : CallPc → Bool
  | .compare prev => prev < maxConcurrent
  | .acquired => true
  | .consume => false
  | .fetchAdd => false
  | .fetchSub => false
  | .rejected => false
  | .released => false

/-- The call is a rejection between its `fetch_add` and its `fetch_sub`. -/
def CallPc.rejecting (maxConcurrent : Int32) : CallPc → Bool
  | .compare prev => ¬ prev < maxConcurrent
  | .fetchSub => true
  | .consume => false
  | .fetchAdd => false
  | .acquired => false
  | .rejected => false
  | .released => false

/-- The call has not returned with an error, and its slot was not released. -/
def CallPc.inProgress : CallPc → Bool
  | .rejected => false
  | .released => false
  | .consume => true
  | .fetchAdd => true
  | .compare _ => true
  | .fetchSub => true
  | .acquired => true

namespace System

/-- Number of slots held. -/
def held (maxConcurrent : Int32) (system : System) : Nat :=
  system.calls.countP (CallPc.holds maxConcurrent)

/-- Number of rejections that are not yet undone. -/
def rejecting (maxConcurrent : Int32) (system : System) : Nat :=
  system.calls.countP (CallPc.rejecting maxConcurrent)

/-- Number of calls at this time. -/
def current (system : System) : Nat :=
  system.calls.countP CallPc.inProgress

end System

/-- The counter counts the slots and the pending rejections, and the slots are
within the cap. -/
structure SlotsExact (maxConcurrent : Int32) (system : System) : Prop where
  counted : system.inFlight.toInt =
    (system.held maxConcurrent : Int) + system.rejecting maxConcurrent
  capped : (system.held maxConcurrent : Int) ≤ maxConcurrent.toInt

theorem slotsExact_initial
    {maxConcurrent : Int32}
    (nonneg : 0 ≤ maxConcurrent.toInt) :
    SlotsExact maxConcurrent {} where
  counted := rfl
  capped := nonneg

/-- The call is counted by `in_flight`. -/
def CallPc.occupies : CallPc → Bool
  | .compare _ => true
  | .fetchSub => true
  | .acquired => true
  | .consume => false
  | .fetchAdd => false
  | .rejected => false
  | .released => false

/-- A counted call has a slot or is a rejection, and not both. -/
theorem holds_add_rejecting (maxConcurrent : Int32) (call : CallPc) :
    (call.holds maxConcurrent).toNat + (call.rejecting maxConcurrent).toNat =
      call.occupies.toNat := by
  cases call with
  | compare prev =>
      by_cases below : prev < maxConcurrent
      · simp [CallPc.holds, CallPc.rejecting, CallPc.occupies, below]
      · simp [CallPc.holds, CallPc.rejecting, CallPc.occupies, below]
  | consume => rfl
  | fetchAdd => rfl
  | fetchSub => rfl
  | acquired => rfl
  | rejected => rfl
  | released => rfl

theorem held_add_rejecting (maxConcurrent : Int32) (system : System) :
    system.held maxConcurrent + system.rejecting maxConcurrent =
      system.calls.countP CallPc.occupies :=
  Threads.countP_add_countP (holds_add_rejecting maxConcurrent) system.calls

/-- The counted calls are in progress. -/
theorem occupied_le_current (system : System) :
    system.calls.countP CallPc.occupies ≤ system.current := by
  refine List.countP_mono_left fun call _ occupies => ?_
  cases call <;> first | rfl | cases occupies

/-- What the next step of a call does: it moves the counter by what the call is
counted for, and gives the call a slot only below the cap. -/
theorem advanceCall_counts
    {maxConcurrent inFlight after : Int32}
    {call new : CallPc}
    (low : (call.occupies.toNat : Int) ≤ inFlight.toInt)
    (high : inFlight.toInt + new.occupies.toNat - call.occupies.toNat < 2 ^ 31)
    (advanced : advanceCall maxConcurrent inFlight call = some (new, after)) :
    after.toInt + call.occupies.toNat = inFlight.toInt + new.occupies.toNat ∧
    (new.holds maxConcurrent = true → call.holds maxConcurrent = true ∨
      inFlight.toInt < maxConcurrent.toInt) := by
  have one : (1 : Int32).toInt = 1 := rfl
  have bound := inFlight.toInt_lt
  cases call with
  | fetchAdd =>
      cases advanced
      simp only [CallPc.occupies, Bool.toNat_true, Bool.toNat_false] at low high ⊢
      rw [Int32.toInt_add, one,
        FixedWidth.bmod_two_pow_32 (by omega) (by omega)]
      refine ⟨by omega, fun below => .inr ?_⟩
      exact Int32.lt_iff_toInt_lt.mp (by simpa [CallPc.holds] using below)
  | compare prev =>
      cases advanced
      by_cases below : prev < maxConcurrent
      · have notFull : ¬ prev ≥ maxConcurrent := by
          rwa [ge_iff_le, Int32.not_le]
        simp [CallPc.holds, CallPc.occupies, below, notFull]
      · have full : prev ≥ maxConcurrent := by
          rwa [ge_iff_le, ← Int32.not_lt]
        simp [CallPc.holds, CallPc.occupies, full]
  | fetchSub =>
      cases advanced
      simp only [CallPc.occupies, Bool.toNat_true, Bool.toNat_false] at low ⊢
      rw [Int32.toInt_sub, one,
        FixedWidth.bmod_two_pow_32 (by omega) (by omega)]
      exact ⟨by omega, by simp [CallPc.holds]⟩
  | acquired =>
      cases advanced
      simp only [CallPc.occupies, Bool.toNat_true, Bool.toNat_false] at low ⊢
      rw [Int32.toInt_sub, one,
        FixedWidth.bmod_two_pow_32 (by omega) (by omega)]
      exact ⟨by omega, by simp [CallPc.holds]⟩
  | consume => cases advanced
  | rejected => cases advanced
  | released => cases advanced

/-- A step that replaces a call by one that is counted in the same way. -/
theorem SlotsExact.replace
    {maxConcurrent : Int32}
    {system : System}
    (exactly : SlotsExact maxConcurrent system)
    {index : Nat}
    {call new : CallPc}
    (present : system.calls[index]? = some call)
    {after : Int32}
    (counts : after.toInt + call.occupies.toNat =
      system.inFlight.toInt + new.occupies.toNat)
    (belowCap : new.holds maxConcurrent = true →
      call.holds maxConcurrent = true ∨
        system.inFlight.toInt < maxConcurrent.toInt) :
    SlotsExact maxConcurrent
      { inFlight := after, calls := system.calls.set index new } := by
  have counted := exactly.counted
  have capped := exactly.capped
  have total := held_add_rejecting maxConcurrent system
  have newTotal := held_add_rejecting maxConcurrent
    { inFlight := after, calls := system.calls.set index new }
  have occupied := Threads.countP_set_add CallPc.occupies present new
  have held := Threads.countP_set_add (CallPc.holds maxConcurrent) present new
  constructor
  · dsimp only at newTotal ⊢
    omega
  · unfold System.held at capped counted total ⊢
    dsimp only
    cases holds : new.holds maxConcurrent with
    | false =>
        rw [holds, Bool.toNat_false] at held
        omega
    | true =>
        rw [holds, Bool.toNat_true] at held
        rcases belowCap holds with already | below
        · rw [already, Bool.toNat_true] at held
          omega
        · omega

/-- Every step with fewer than `2 ^ 31` calls keeps the counter exact. -/
theorem slotsExact_step
    {maxConcurrent : Int32}
    {system next : System}
    {action : Action}
    (exactly : SlotsExact maxConcurrent system)
    (few : next.current < 2 ^ 31)
    (stepped : step maxConcurrent system action = some next) :
    SlotsExact maxConcurrent next := by
  cases action with
  | tryAcquire =>
      cases stepped
      refine ⟨?_, ?_⟩
      · simpa [System.held, System.rejecting, CallPc.holds, CallPc.rejecting]
          using exactly.counted
      · simpa [System.held, CallPc.holds] using exactly.capped
  | consume index granted =>
      simp only [step] at stepped
      split at stepped
      next present =>
        cases stepped
        refine exactly.replace present ?_ ?_
        · cases granted <;> rfl
        · cases granted <;> simp [CallPc.holds]
      next => cases stepped
  | advance index =>
      obtain ⟨call, present, moved⟩ := Option.bind_eq_some_iff.mp stepped
      obtain ⟨⟨new, after⟩, advanced, rfl⟩ := Option.map_eq_some_iff.mp moved
      have counted := exactly.counted
      have total := held_add_rejecting maxConcurrent system
      have occupied := Threads.countP_set_add CallPc.occupies present new
      have atMost := occupied_le_current
        { inFlight := after, calls := system.calls.set index new }
      have member : call ∈ system.calls := List.mem_of_getElem? present
      have low : (call.occupies.toNat : Int) ≤ system.inFlight.toInt := by
        cases own : call.occupies with
        | false =>
            rw [Bool.toNat_false]
            omega
        | true =>
            have positive := List.countP_pos_iff.mpr ⟨call, member, own⟩
            rw [Bool.toNat_true]
            omega
      dsimp only at atMost few
      obtain ⟨counts, belowCap⟩ :=
        advanceCall_counts low (by omega) advanced
      exact exactly.replace present counts belowCap

/-- Slots are exact under contention.  In every state of every interleaving of
calls and releases, with fewer than `2 ^ 31` calls at a time, the counter is the
number of slots held and of rejections between their two updates, the slots are
within the cap, the counter is not negative, and it is zero when no call is in
progress and no slot is held. -/
theorem slots_exact_under_contention
    {maxConcurrent : Int32}
    (nonneg : 0 ≤ maxConcurrent.toInt)
    {actions : List Action}
    {system : System}
    (few : Machine.Throughout (step maxConcurrent)
      (fun state => state.current < 2 ^ 31) {} actions)
    (ran : Machine.run (step maxConcurrent) {} actions = some system) :
    system.inFlight.toInt =
        (system.held maxConcurrent : Int) + system.rejecting maxConcurrent ∧
      (system.held maxConcurrent : Int) ≤ maxConcurrent.toInt ∧
      0 ≤ system.inFlight.toInt ∧
      (system.current = 0 → system.inFlight = 0) := by
  have exactly : SlotsExact maxConcurrent system :=
    Machine.invariant_of_throughout
      (fun _ _ _ before _ fewAfter stepped =>
        slotsExact_step before fewAfter stepped)
      (slotsExact_initial nonneg) few ran
  have counted := exactly.counted
  refine ⟨counted, exactly.capped, by omega, ?_⟩
  intro noCalls
  have total := held_add_rejecting maxConcurrent system
  have atMost := occupied_le_current system
  apply Int32.toInt_inj.mp
  change system.inFlight.toInt = 0
  omega

/-- Two calls at a cap of one: the second raises the counter to two before it
is rejected, and the first still holds the only slot. -/
def raceForOneSlot : List Action :=
  [.tryAcquire, .tryAcquire, .consume 0 true, .consume 1 true, .advance 0,
    .advance 1, .advance 1, .advance 0]

theorem slots_exact_raceForOneSlot :
    ∃ system, Machine.run (step 1) {} raceForOneSlot = some system ∧
      system.inFlight = 2 ∧
      system.inFlight.toInt = (system.held 1 : Int) + system.rejecting 1 ∧
      (system.held 1 : Int) ≤ 1 := by
  have ran : Machine.run (step 1) {} raceForOneSlot =
      some { inFlight := 2, calls := [.acquired, .fetchSub] } := by
    decide
  obtain ⟨counted, capped, -, -⟩ :=
    slots_exact_under_contention (by decide) (by decide) ran
  exact ⟨_, ran, rfl, counted, capped⟩

end SlotContention
end Sharding
end Fre
