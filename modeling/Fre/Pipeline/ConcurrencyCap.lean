import Fre.Foundation.FixedWidth
import Fre.Pipeline.Lifecycle

/-!
# The cap on a tenant's evaluations

`try_acquire` counts a slot for the tenant and turns the caller away at the
cap; `submit` and `submit_sync` give the slot back as soon as they have spawned
the coroutine.  The counter bounds the submissions in progress.  It bounds the
evaluations in progress when every slot is given back only after the evaluation
has ended, and only as long as the 32-bit counter does not wrap.
-/

namespace Fre
namespace Pipeline
namespace Lifecycle

open Foundation

/-- The call has a slot. -/
def Call.holds (call : Call) : Bool :=
  call.pc = .increment || call.pc = .coSpawn || call.pc = .release

/-- The event was accepted and its coroutine is not over. -/
def Call.active (call : Call) : Bool :=
  (call.holds || call.pc = .succeeded) && !call.ended

/-- Number of calls of a tenant with a property. -/
def tenantCount
    (property : Call → Bool)
    (tenant : String)
    (calls : List Call) : Nat :=
  calls.countP fun call => call.tenant = tenant && property call

/-- A slot is given back only after the coroutine has ended, and the counter
does not wrap. -/
def KeepsSlots (system : System) : Action → Prop
  | .call index .advance =>
      ∀ call ∈ system.calls[index]?,
        (call.pc = .release → call.ended = true) ∧
          (call.pc = .acquireSlot →
            tenantCount Call.occupies call.tenant system.calls + 1 < 2 ^ 31)
  | _ => True

/-- The slot counters count, and the cap holds for the slots. -/
structure Capped (config : Config) (system : System) : Prop where
  consistent : ∀ call ∈ system.calls, call.Consistent
  released : ∀ call ∈ system.calls, call.pc = .succeeded → call.ended = true
  slots : ∀ tenant, (system.slots tenant).toInt =
    (tenantCount Call.occupies tenant system.calls : Int)
  held : ∀ tenant, (tenantCount Call.holds tenant system.calls : Int) ≤
    config.rateLimit.maxConcurrent.toInt

theorem capped_initial
    {config : Config}
    (nonneg : 0 ≤ config.rateLimit.maxConcurrent.toInt) :
    Capped config {} where
  consistent := by simp
  released := by simp
  slots := fun tenant => rfl
  held := fun tenant => nonneg

/-- How the number of a tenant's calls changes when one call is replaced. -/
theorem tenantCount_set
    (property : Call → Bool)
    {calls : List Call}
    {index : Nat}
    {call : Call}
    (present : calls[index]? = some call)
    {new : Call}
    (sameTenant : new.tenant = call.tenant)
    (tenant : String) :
    tenantCount property tenant (calls.set index new) +
        (if call.tenant = tenant then (property call).toNat else 0) =
      tenantCount property tenant calls +
        (if call.tenant = tenant then (property new).toNat else 0) := by
  have count := Threads.countP_set_add
    (fun call => call.tenant = tenant && property call) present new
  simp only [sameTenant] at count
  unfold tenantCount
  split
  · next same => simpa [same] using count
  · next different => simpa [different] using count

/-- Holding a slot is being counted by the slot counter. -/
theorem Call.occupies_of_holds
    {call : Call}
    (holds : call.holds = true) :
    call.occupies = true := by
  simp only [Call.holds, Bool.or_eq_true, decide_eq_true_eq] at holds
  rcases holds with (position | position) | position
  · simp [Call.occupies, position]
  · simp [Call.occupies, position]
  · simp [Call.occupies, position]

theorem tenantCount_le
    {first second : Call → Bool}
    {calls : List Call}
    (implied : ∀ call ∈ calls, first call = true → second call = true)
    (tenant : String) :
    tenantCount first tenant calls ≤ tenantCount second tenant calls := by
  refine List.countP_mono_left fun call member holds => ?_
  simp only [Bool.and_eq_true, decide_eq_true_eq] at holds ⊢
  exact ⟨holds.1, implied call member holds.2⟩

/-- The accepted events that are not over are at most the slots in use. -/
theorem Capped.active_le
    {config : Config}
    {system : System}
    (capped : Capped config system)
    (tenant : String) :
    (tenantCount Call.active tenant system.calls : Int) ≤
      config.rateLimit.maxConcurrent.toInt := by
  have bound := tenantCount_le
    (fun call member (active : call.active = true) => by
      simp only [Call.active, Bool.and_eq_true, Bool.or_eq_true,
        decide_eq_true_eq, Bool.not_eq_true'] at active
      rcases active.1 with holds | succeeded
      · exact holds
      · have ended := capped.released call member succeeded
        rw [active.2] at ended
        cases ended) tenant
  have held := capped.held tenant
  omega

section OneCall

variable {config : Config}
variable {system next : System}
variable {index : Nat}
variable {call new : Call}

/-- A step of one call keeps the cap when the counter of its tenant follows
the call, and the call takes a slot only below the cap. -/
theorem Capped.change
    (capped : Capped config system)
    (present : system.calls[index]? = some call)
    (calls : next.calls = system.calls.set index new)
    (consistent : ∀ call ∈ next.calls, call.Consistent)
    (released : new.pc = .succeeded → new.ended = true)
    (sameTenant : new.tenant = call.tenant)
    (ownSlots : (next.slots call.tenant).toInt + call.occupies.toNat =
      (system.slots call.tenant).toInt + new.occupies.toNat)
    (otherSlots : ∀ tenant, tenant ≠ call.tenant →
      next.slots tenant = system.slots tenant)
    (belowCap : new.holds = true → call.holds = true ∨
      (tenantCount Call.holds call.tenant system.calls : Int) <
        config.rateLimit.maxConcurrent.toInt) :
    Capped config next := by
  refine ⟨consistent, ?_, ?_, ?_⟩
  · rw [calls]
    exact Threads.forall_mem_set capped.released released
  · intro tenant
    have count := tenantCount_set Call.occupies present sameTenant tenant
    have before := capped.slots tenant
    rw [calls]
    by_cases same : tenant = call.tenant
    · subst same
      rw [if_pos rfl, if_pos rfl] at count
      omega
    · rw [if_neg (Ne.symm same), if_neg (Ne.symm same)] at count
      rw [otherSlots tenant same]
      omega
  · intro tenant
    have count := tenantCount_set Call.holds present sameTenant tenant
    have held := capped.held tenant
    rw [calls]
    by_cases same : tenant = call.tenant
    · subst same
      rw [if_pos rfl, if_pos rfl] at count
      cases holds : new.holds with
      | false =>
          rw [holds, Bool.toNat_false] at count
          omega
      | true =>
          rw [holds, Bool.toNat_true] at count
          rcases belowCap holds with already | below
          · rw [already, Bool.toNat_true] at count
            omega
          · omega
    · rw [if_neg (Ne.symm same), if_neg (Ne.symm same)] at count
      omega

/-- A step that changes neither the counters nor the slots of the call. -/
theorem Capped.replace
    (capped : Capped config system)
    (present : system.calls[index]? = some call)
    (calls : next.calls = system.calls.set index new)
    (slots : next.slots = system.slots)
    (consistent : ∀ call ∈ next.calls, call.Consistent)
    (released : new.pc = .succeeded → new.ended = true)
    (sameTenant : new.tenant = call.tenant)
    (sameOccupies : new.occupies = call.occupies)
    (sameHolds : new.holds = call.holds) :
    Capped config next := by
  apply capped.change present calls consistent released sameTenant
  · rw [slots, sameOccupies]
  · intro tenant _
    rw [slots]
  · rw [sameHolds]
    exact .inl

/-- Giving a slot back, or undoing a rejected count. -/
theorem Capped.lower
    (capped : Capped config system)
    (present : system.calls[index]? = some call)
    (calls : next.calls = system.calls.set index new)
    (slots : next.slots = Function.update system.slots call.tenant
      (system.slots call.tenant - 1))
    (consistent : ∀ call ∈ next.calls, call.Consistent)
    (released : new.pc = .succeeded → new.ended = true)
    (sameTenant : new.tenant = call.tenant)
    (occupied : call.occupies = true)
    (free : new.occupies = false) :
    Capped config next := by
  apply capped.change present calls consistent released sameTenant
  · have before := capped.slots call.tenant
    have bound := (system.slots call.tenant).toInt_lt
    rw [slots, occupied, free, Function.update_self, Int32.toInt_sub,
      show (1 : Int32).toInt = 1 from rfl,
      FixedWidth.bmod_two_pow_32 (by omega) (by omega),
      Bool.toNat_true, Bool.toNat_false]
    omega
  · intro tenant different
    rw [slots, Function.update_of_ne different]
  · intro holds
    rw [Call.occupies_of_holds holds] at free
    cases free

/-- Taking the next slot below the cap, or counting a rejection. -/
theorem Capped.raise
    (capped : Capped config system)
    (present : system.calls[index]? = some call)
    (calls : next.calls = system.calls.set index new)
    (slots : next.slots = Function.update system.slots call.tenant
      (system.slots call.tenant + 1))
    (consistent : ∀ call ∈ next.calls, call.Consistent)
    (released : new.pc = .succeeded → new.ended = true)
    (sameTenant : new.tenant = call.tenant)
    (free : call.occupies = false)
    (occupied : new.occupies = true)
    (small : tenantCount Call.occupies call.tenant system.calls + 1 < 2 ^ 31)
    (belowCap : new.holds = true →
      system.slots call.tenant < config.rateLimit.maxConcurrent) :
    Capped config next := by
  have counted := capped.slots call.tenant
  apply capped.change present calls consistent released sameTenant
  · rw [slots, occupied, free, Function.update_self, Int32.toInt_add,
      show (1 : Int32).toInt = 1 from rfl,
      FixedWidth.bmod_two_pow_32 (by omega) (by omega),
      Bool.toNat_true, Bool.toNat_false]
    omega
  · intro tenant different
    rw [slots, Function.update_of_ne different]
  · intro holds
    have below := Int32.lt_iff_toInt_lt.1 (belowCap holds)
    have heldLe : tenantCount Call.holds call.tenant system.calls ≤
        tenantCount Call.occupies call.tenant system.calls :=
      tenantCount_le (fun _ _ => Call.occupies_of_holds) call.tenant
    exact .inr (by omega)

end OneCall

/-- A coroutine that is not over belongs to a call that has its slot. -/
theorem Capped.pc_ne_succeeded
    {config : Config}
    {system : System}
    {call : Call}
    (capped : Capped config system)
    (member : call ∈ system.calls)
    (running : call.ended = false) :
    call.pc ≠ .succeeded := by
  intro succeeded
  have ended := capped.released call member succeeded
  rw [running] at ended
  cases ended

/-- A step of a coroutine that is not over. -/
theorem Capped.moveCoroutine
    {config : Config}
    {system next : System}
    {index : Nat}
    {call : Call}
    {event : EventPc}
    {emits : Nat}
    (capped : Capped config system)
    (present : system.calls[index]? = some call)
    (calls : next.calls = system.calls.set index { call with event, emits })
    (slots : next.slots = system.slots)
    (consistent : ∀ call ∈ next.calls, call.Consistent)
    (running : call.ended = false) :
    Capped config next := by
  have notSucceeded : call.pc ≠ .succeeded :=
    capped.pc_ne_succeeded (List.mem_of_getElem? present) running
  exact capped.replace present calls slots consistent
    (fun succeeded => absurd succeeded notSucceeded) rfl rfl rfl

/-- A step of `submit` or `submit_sync` keeps the cap. -/
theorem Capped.advanceCall
    {config : Config}
    {system next : System}
    {index : Nat}
    {call : Call}
    (capped : Capped config system)
    (present : system.calls[index]? = some call)
    (keepsSlots : KeepsSlots system (.call index .advance))
    (stepped : advanceCall config system index call = some next) :
    Capped config next := by
  have consistent : ∀ call ∈ next.calls, call.Consistent :=
    consistent_callStep capped.consistent present
      (show callStep config system index call .advance = some next from stepped)
  obtain ⟨releasedLate, small⟩ := keepsSlots call present
  unfold Lifecycle.advanceCall at stepped
  split at stepped
  · next position =>
      rw [Option.some.injEq] at stepped
      subst stepped
      refine capped.replace present rfl rfl consistent ?_ rfl ?_ ?_
      · split <;> simp
      · split <;> simp [Call.occupies, position]
      · split <;> simp [Call.holds, position]
  · next position =>
      rw [Option.some.injEq] at stepped
      subst stepped
      refine capped.raise present rfl rfl consistent ?_ rfl ?_ ?_
        (small position) ?_
      · split <;> simp
      · simp [Call.occupies, position]
      · split <;> simp [Call.occupies]
      · split
        · simp [Call.holds]
        · next below => exact fun _ => Int32.not_le.1 below
  · next position =>
      cases stepped
      refine capped.lower present rfl rfl consistent ?_ rfl ?_ ?_
      · simp
      · simp [Call.occupies, position]
      · simp [Call.occupies]
  · next position =>
      cases stepped
      refine capped.replace present rfl rfl consistent ?_ rfl ?_ ?_
      · simp
      · simp [Call.occupies, position]
      · simp [Call.holds, position]
  · next position =>
      cases stepped
      refine capped.replace present rfl rfl consistent ?_ rfl ?_ ?_
      · simp
      · simp [Call.occupies, position]
      · simp [Call.holds, position]
  · next position =>
      cases stepped
      refine capped.lower present rfl rfl consistent ?_ rfl ?_ ?_
      · exact fun _ => releasedLate position
      · simp [Call.occupies, position]
      · simp [Call.occupies]
  · cases stepped

/-- Every step of a call or of its coroutine keeps the cap. -/
theorem Capped.callStep
    {config : Config}
    {system next : System}
    {index : Nat}
    {call : Call}
    {action : CallAction}
    (capped : Capped config system)
    (present : system.calls[index]? = some call)
    (keepsSlots : KeepsSlots system (.call index action))
    (stepped : callStep config system index call action = some next) :
    Capped config next := by
  have consistent : ∀ call ∈ next.calls, call.Consistent :=
    consistent_callStep capped.consistent present stepped
  cases action with
  | consume granted =>
      simp only [Lifecycle.callStep] at stepped
      split at stepped
      · next position =>
          rw [Option.some.injEq] at stepped
          subst stepped
          refine capped.replace present rfl rfl consistent ?_ rfl ?_ ?_
          · split <;> simp
          · split <;> simp [Call.occupies, position]
          · split <;> simp [Call.holds, position]
      · cases stepped
  | advance => exact capped.advanceCall present keepsSlots stepped
  | start =>
      simp only [Lifecycle.callStep] at stepped
      split at stepped
      · next enabled =>
          simp only [Bool.and_eq_true, decide_eq_true_eq] at enabled
          have running : call.ended = false := by
            simp [Call.ended, enabled.1.1]
          cases stepped
          exact capped.moveCoroutine present rfl rfl consistent running
      · cases stepped
  | emit =>
      simp only [Lifecycle.callStep] at stepped
      split at stepped
      · next isRunning =>
          have running : call.ended = false := by
            simp [Call.ended, isRunning]
          cases stepped
          exact capped.moveCoroutine present rfl rfl consistent running
      · cases stepped
  | complete =>
      simp only [Lifecycle.callStep] at stepped
      split at stepped
      · cases stepped
        exact capped.replace present rfl rfl consistent
          (fun _ => by simp [Call.ended]) rfl rfl rfl
      · cases stepped
  | fail =>
      simp only [Lifecycle.callStep] at stepped
      split at stepped
      · cases stepped
        exact capped.replace present rfl rfl consistent
          (fun _ => by simp [Call.ended]) rfl rfl rfl
      · cases stepped

theorem capped_step
    {config : Config}
    (system : System)
    (action : Action)
    (next : System)
    (capped : Capped config system)
    (keepsSlots : KeepsSlots system action)
    (stepped : step config system action = some next) :
    Capped config next := by
  cases action with
  | submit tenant sync =>
      cases stepped
      refine ⟨?_, ?_, ?_, ?_⟩
      · exact Threads.forall_mem_concat capped.consistent
          (Call.consistent_new tenant sync)
      · exact Threads.forall_mem_concat capped.released (by simp)
      · intro other
        rw [capped.slots other]
        simp [tenantCount, Call.occupies]
      · intro other
        have held := capped.held other
        simpa [tenantCount, Call.holds] using held
  | call index callAction =>
      simp only [step] at stepped
      split at stepped
      · cases stepped
      · next call present => exact capped.callStep present keepsSlots stepped
  | drain =>
      obtain ⟨state, drain, poolJoined, rfl⟩ := drainStep_frame stepped
      exact ⟨capped.consistent, capped.released, capped.slots, capped.held⟩
  | drainTest expired =>
      obtain ⟨drain, rfl⟩ := drainTest_frame stepped
      exact ⟨capped.consistent, capped.released, capped.slots, capped.held⟩

/-- The cap on evaluations.  In every state of every run in which a slot is
given back only after its coroutine has ended and the slot counter does not
wrap, the events of a tenant that were accepted and are not over are at most
`max_concurrent`, unless that is negative. -/
theorem active_le_maxConcurrent
    (config : Config)
    (nonneg : 0 ≤ config.rateLimit.maxConcurrent.toInt)
    (actions : List Action)
    (final : System)
    (keepsSlots : Machine.RunMeets (step config) KeepsSlots {} actions)
    (ran : Machine.run (step config) {} actions = some final)
    (tenant : String) :
    (tenantCount Call.active tenant final.calls : Int) ≤
      config.rateLimit.maxConcurrent.toInt := by
  have capped : Capped config final :=
    Machine.invariant_of_run_of_meets capped_step (capped_initial nonneg)
      keepsSlots ran
  exact capped.active_le tenant

instance (system : System) : ∀ action, Decidable (KeepsSlots system action)
  | .call index .advance =>
      inferInstanceAs (Decidable (∀ call ∈ system.calls[index]?,
        (call.pc = .release → call.ended = true) ∧
          (call.pc = .acquireSlot →
            tenantCount Call.occupies call.tenant system.calls + 1 <
              2 ^ 31)))
  | .call _ (.consume _) => .isTrue trivial
  | .call _ .start => .isTrue trivial
  | .call _ .emit => .isTrue trivial
  | .call _ .complete => .isTrue trivial
  | .call _ .fail => .isTrue trivial
  | .submit _ _ => .isTrue trivial
  | .drain => .isTrue trivial
  | .drainTest _ => .isTrue trivial

/-- A pipeline that allows one evaluation per tenant. -/
def oneAtATime : Config where
  strandOf := fun _ => 0
  rateLimit := { maxConcurrent := 1 }

/-- The coroutine runs before the slot is given back, and a second submission
takes the slot after that. -/
def oneAfterTheOther : List Action :=
  [.submit "acme" false, .call 0 .advance, .call 0 (.consume true),
    .call 0 .advance, .call 0 .advance, .call 0 .advance, .call 0 .start,
    .call 0 .emit, .call 0 .complete, .call 0 .advance,
    .submit "acme" false, .call 1 .advance, .call 1 (.consume true),
    .call 1 .advance]

/-- In that run the cap is kept. -/
theorem active_le_oneAfterTheOther :
    ∃ final, Machine.run (step oneAtATime) {} oneAfterTheOther = some final ∧
      (tenantCount Call.active "acme" final.calls : Int) ≤ 1 := by
  refine ⟨_, (Option.some_get (by decide)).symm, ?_⟩
  exact active_le_maxConcurrent oneAtATime (by decide) oneAfterTheOther _
    (by decide) (Option.some_get (by decide)).symm "acme"

/-- Two submissions one after the other, before any coroutine runs. -/
def twoSubmissions : List Action :=
  [.submit "acme" false, .call 0 .advance] ++ restOfSubmit 0 ++
    [.submit "acme" false, .call 1 .advance] ++ restOfSubmit 1

/-- With a cap of one, two accepted events wait for their evaluation. -/
theorem cap_exceeded :
    ∃ final, Machine.run (step oneAtATime) {} twoSubmissions = some final ∧
      ¬ (tenantCount Call.active "acme" final.calls : Int) ≤
        oneAtATime.rateLimit.maxConcurrent.toInt := by
  exact ⟨_, (Option.some_get (by decide)).symm, by decide⟩

end Lifecycle
end Pipeline
end Fre
