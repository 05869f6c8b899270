import Fre.Stage.EmitRetries

/-!
# The back-off of an emission

The retry loop of one target as the source has it, with the delays between its
attempts.  A delay is computed in `int` as ten times a shifted one; where the
shift or the product is not defined, no delay is recorded.  The attempts are
compared with a limit that nothing bounds.
-/

namespace Fre
namespace Stage
namespace BackOff

open EmitRetries

/-- `10 * (1 << (attempts - 1))` in `int`; none where it is not defined. -/
def delay (attempts : UInt32) : Option Int32 :=
  let shift := attempts - 1
  if 31 ≤ shift then none
  else if 2 ^ 31 ≤ 10 * 2 ^ shift.toNat then none
  else some (Int32.ofNat (10 * 2 ^ shift.toNat))

/-- The variables of the loop for one target, with the calls and the delays
made so far. -/
structure LoopState where
  attempts : UInt32 := 0
  succeeded : Bool := false
  calls : Nat := 0
  delays : List (Option Int32) := []
  deriving DecidableEq

/-- The end of a round whose call has failed. -/
def LoopState.afterFailure (retryLimit : UInt32) (state : LoopState) :
    LoopState :=
  let attempts := state.attempts + 1
  { state with
    attempts := attempts
    calls := state.calls + 1
    delays :=
      if attempts ≤ retryLimit then state.delays ++ [delay attempts]
      else state.delays }

/-- The `while` loop of `EmitStage::process` for one target, with at most the
given number of rounds; none also when the target throws. -/
def retryLoop (retryLimit : UInt32) (outcomes : Nat → TargetOutcome) :
    Nat → LoopState → Option LoopState
  | 0, state => if state.attempts ≤ retryLimit then none else some state
  | fuel + 1, state =>
      if state.attempts ≤ retryLimit then
        match outcomes state.calls with
        | .delivered =>
            some { state with succeeded := true, calls := state.calls + 1 }
        | .failed _ =>
            retryLoop retryLimit outcomes fuel (state.afterFailure retryLimit)
        | .threw => none
      else some state

/-- The loop ends after the first call and all retries, and its delays are
defined, ten milliseconds doubled each time, and strictly increasing. -/
def RetriesDefined (retryLimit : UInt32) (outcomes : Nat → TargetOutcome) :
    Prop :=
  ∃ fuel final, retryLoop retryLimit outcomes fuel {} = some final ∧
    final.calls = retryLimit.toNat + 1 ∧
    ∃ delays : List Int32, final.delays = delays.map some ∧
      delays.map Int32.toInt =
        (List.range retryLimit.toNat).map (fun retry : Nat => 10 * 2 ^ retry) ∧
      delays.Pairwise (· < ·)

/-! ### The rounds of the loop -/

/-- What holds of the loop before a round.  With a limit that the counter can
exceed, there was a delay after each failure but the last one. -/
structure Counting
    (retryLimit : UInt32)
    (outcomes : Nat → TargetOutcome)
    (state : LoopState) : Prop where
  attempts : state.attempts = UInt32.ofNat state.calls
  running : state.succeeded = false
  failed : ∀ call < state.calls, ∃ error, outcomes call = .failed error
  within : retryLimit.toNat + 1 < 2 ^ 32 → state.calls ≤ retryLimit.toNat + 1
  delays : retryLimit.toNat + 1 < 2 ^ 32 →
    state.delays = (List.range (min state.calls retryLimit.toNat)).map
      fun retry => delay (UInt32.ofNat (retry + 1))

section Rounds

variable {retryLimit : UInt32}
variable {outcomes : Nat → TargetOutcome}
variable {state final : LoopState}

theorem counting_initial : Counting retryLimit outcomes {} where
  attempts := rfl
  running := rfl
  failed := by simp
  within := fun _ => Nat.zero_le _
  delays := by simp

theorem Counting.test_iff
    (counting : Counting retryLimit outcomes state) :
    state.attempts ≤ retryLimit ↔ state.calls % 2 ^ 32 ≤ retryLimit.toNat := by
  rw [counting.attempts, attempts_le_iff]

/-- The loop is left at its test only with all retries used up. -/
theorem Counting.exhausted
    (counting : Counting retryLimit outcomes state)
    (exceeded : ¬ state.attempts ≤ retryLimit) :
    retryLimit.toNat + 1 < 2 ^ 32 ∧ state.calls = retryLimit.toNat + 1 := by
  have small := retryLimit.toNat_lt
  have within := counting.within
  rw [counting.test_iff] at exceeded
  omega

theorem Counting.afterFailure
    (counting : Counting retryLimit outcomes state)
    (tested : state.attempts ≤ retryLimit)
    {error : EmissionError}
    (failedNow : outcomes state.calls = .failed error) :
    Counting retryLimit outcomes (state.afterFailure retryLimit) := by
  have passed := counting.test_iff.mp tested
  have within := counting.within
  have next : state.attempts + 1 = UInt32.ofNat (state.calls + 1) := by
    rw [counting.attempts, attempts_succ]
  refine ⟨next, counting.running, ?_, ?_, ?_⟩
  · intro call before
    rcases Nat.lt_succ_iff_lt_or_eq.mp before with earlier | rfl
    · exact counting.failed call earlier
    · exact ⟨error, failedNow⟩
  · intro finite
    have bound := within finite
    simp only [LoopState.afterFailure]
    omega
  · intro finite
    have bound := within finite
    have first : min state.calls retryLimit.toNat = state.calls := by omega
    simp only [LoopState.afterFailure, counting.delays finite, next,
      attempts_le_iff, first]
    split
    next again =>
      have more : min (state.calls + 1) retryLimit.toNat = state.calls + 1 := by
        omega
      rw [more, List.range_succ, List.map_append]
      rfl
    next last =>
      have same : min (state.calls + 1) retryLimit.toNat = state.calls := by
        omega
      rw [same]

/-- The loop ends with a call that takes the decision, or at its test. -/
theorem ended_of_retryLoop
    {fuel : Nat}
    (counting : Counting retryLimit outcomes state)
    (returned : retryLoop retryLimit outcomes fuel state = some final) :
    (∃ last, Counting retryLimit outcomes last ∧ last.attempts ≤ retryLimit ∧
      outcomes last.calls = .delivered ∧
      final = { last with succeeded := true, calls := last.calls + 1 }) ∨
    (Counting retryLimit outcomes final ∧ ¬ final.attempts ≤ retryLimit) := by
  induction fuel generalizing state with
  | zero =>
      rw [retryLoop] at returned
      split at returned
      next => cases returned
      next exceeded =>
        cases returned
        exact .inr ⟨counting, exceeded⟩
  | succ fuel inductionHypothesis =>
      rw [retryLoop] at returned
      split at returned
      next tested =>
        cases outcome : outcomes state.calls with
        | delivered =>
            rw [outcome] at returned
            cases returned
            exact .inl ⟨state, counting, tested, outcome, rfl⟩
        | failed error =>
            rw [outcome] at returned
            exact inductionHypothesis (counting.afterFailure tested outcome)
              returned
        | threw =>
            rw [outcome] at returned
            cases returned
      next exceeded =>
        cases returned
        exact .inr ⟨counting, exceeded⟩

/-- The calls of a target end in the loop as they do in the stage. -/
theorem endsWith_of_retryLoop
    {fuel : Nat}
    (returned : retryLoop retryLimit outcomes fuel {} = some final) :
    EndsWith retryLimit outcomes ⟨final.calls, final.succeeded⟩ := by
  have small := retryLimit.toNat_lt
  rcases ended_of_retryLoop counting_initial returned with
    ⟨last, counting, tested, delivered, rfl⟩ | ⟨counting, exceeded⟩
  · refine .delivered counting.failed delivered (fun finite => ?_)
    have within := counting.within finite
    have passed := counting.test_iff.mp tested
    omega
  · obtain ⟨finite, all⟩ := counting.exhausted exceeded
    rw [all, counting.running]
    exact .exhausted finite (all ▸ counting.failed)

/-- The stage goes on to the next target where the loop ends. -/
theorem process_of_retryLoop
    {targets : List (Nat → TargetOutcome)}
    {decision : Decision}
    {progress : Progress}
    {rounds : Nat}
    (fresh : Fresh progress)
    (current : targets[progress.emission.target]? = some outcomes)
    (returned : retryLoop retryLimit outcomes rounds {} = some final)
    (fuel : Nat) :
    process retryLimit targets decision (final.calls + fuel) progress =
      process retryLimit targets decision fuel
        (afterTarget decision progress ⟨final.calls, final.succeeded⟩) :=
  process_of_endsWith fresh current (endsWith_of_retryLoop returned) fuel

end Rounds

/-! ### A target that always fails -/

section Failing

variable {retryLimit : UInt32}
variable {outcomes : Nat → TargetOutcome}

/-- The loop ends when the counter can exceed the limit. -/
theorem exists_retryLoop_of_failing
    (failing : ∀ call, ∃ error, outcomes call = .failed error)
    (finite : retryLimit.toNat + 1 < 2 ^ 32)
    {state : LoopState}
    (counting : Counting retryLimit outcomes state)
    {fuel : Nat}
    (enough : state.calls + fuel = retryLimit.toNat + 1) :
    ∃ final, retryLoop retryLimit outcomes fuel state = some final := by
  induction fuel generalizing state with
  | zero =>
      have exceeded : ¬ state.attempts ≤ retryLimit := by
        rw [counting.test_iff]
        omega
      exact ⟨state, by rw [retryLoop, if_neg exceeded]⟩
  | succ fuel inductionHypothesis =>
      have tested : state.attempts ≤ retryLimit := by
        rw [counting.test_iff]
        omega
      obtain ⟨error, outcome⟩ := failing state.calls
      have next := counting.afterFailure tested outcome
      obtain ⟨final, returned⟩ := inductionHypothesis next (by
        simp only [LoopState.afterFailure]
        omega)
      exact ⟨final, by rw [retryLoop, if_pos tested, outcome]; exact returned⟩

/-- Where the loop ends, the limit is not the largest one, and all retries were
made, with a delay before each. -/
theorem retries_of_retryLoop
    (failing : ∀ call, ∃ error, outcomes call = .failed error)
    {fuel : Nat}
    {final : LoopState}
    (returned : retryLoop retryLimit outcomes fuel {} = some final) :
    retryLimit.toNat + 1 < 2 ^ 32 ∧
      final.calls = retryLimit.toNat + 1 ∧
      final.delays = (List.range retryLimit.toNat).map
        fun retry => delay (UInt32.ofNat (retry + 1)) := by
  rcases ended_of_retryLoop counting_initial returned with
    ⟨last, counting, tested, delivered, rfl⟩ | ⟨counting, exceeded⟩
  · obtain ⟨error, outcome⟩ := failing last.calls
    rw [outcome] at delivered
    cases delivered
  · obtain ⟨finite, all⟩ := counting.exhausted exceeded
    have least : min final.calls retryLimit.toNat = retryLimit.toNat := by omega
    exact ⟨finite, all, least ▸ counting.delays finite⟩

/-- Up to the twenty-eighth attempt, the delay is ten milliseconds doubled. -/
theorem delay_of_lt
    {retry : Nat}
    (early : retry < 28) :
    delay (UInt32.ofNat (retry + 1)) = some (Int32.ofNat (10 * 2 ^ retry)) := by
  have shift : UInt32.ofNat (retry + 1) - 1 = UInt32.ofNat retry := by
    rw [← attempts_succ, UInt32.add_sub_cancel]
  have shiftNat : (UInt32.ofNat retry).toNat = retry := by
    rw [UInt32.toNat_ofNat']
    omega
  have inRange : ¬ 31 ≤ UInt32.ofNat retry := by
    rw [UInt32.le_iff_toNat_le, shiftNat]
    exact Nat.not_le.mpr (early.trans (by decide))
  have power : 2 ^ retry ≤ 2 ^ 27 :=
    Nat.pow_le_pow_right (by decide) (Nat.le_of_lt_succ early)
  have noOverflow : ¬ 2 ^ 31 ≤ 10 * 2 ^ retry := by omega
  simp only [delay, shift, shiftNat]
  rw [if_neg inRange, if_neg noOverflow]

theorem toInt_delay
    {retry : Nat}
    (early : retry < 28) :
    (Int32.ofNat (10 * 2 ^ retry)).toInt = 10 * 2 ^ retry := by
  have power : 2 ^ retry ≤ 2 ^ 27 :=
    Nat.pow_le_pow_right (by decide) (Nat.le_of_lt_succ early)
  rw [Int32.toInt_ofNat_of_lt (by omega)]
  push_cast
  rfl

/-- The delay before the twenty-ninth retry is too large for an `int`. -/
theorem delay_twentyNine : delay 29 = none := by
  decide

/-- Up to twenty-eight retries, all delays are defined and increase. -/
theorem delays_defined
    {retries : Nat}
    (few : retries ≤ 28) :
    ∃ delays : List Int32,
      (List.range retries).map
          (fun retry => delay (UInt32.ofNat (retry + 1))) = delays.map some ∧
      delays.map Int32.toInt =
        (List.range retries).map (fun retry : Nat => 10 * 2 ^ retry) ∧
      delays.Pairwise (· < ·) := by
  refine ⟨(List.range retries).map fun retry => Int32.ofNat (10 * 2 ^ retry),
    ?_, ?_, ?_⟩
  · rw [List.map_map]
    refine List.map_congr_left fun retry member => ?_
    exact delay_of_lt ((List.mem_range.mp member).trans_le few)
  · rw [List.map_map]
    refine List.map_congr_left fun retry member => ?_
    exact toInt_delay ((List.mem_range.mp member).trans_le few)
  · rw [List.pairwise_map]
    refine List.pairwise_lt_range.imp_of_mem fun {retry later} _ member less => ?_
    have laterEarly := (List.mem_range.mp member).trans_le few
    rw [Int32.lt_iff_toInt_lt, toInt_delay laterEarly,
      toInt_delay (less.trans laterEarly)]
    have powers : (2 : Int) ^ retry < 2 ^ later :=
      pow_lt_pow_right₀ (by decide) less
    omega

theorem le_of_retriesDefined
    (failing : ∀ call, ∃ error, outcomes call = .failed error)
    (defined : RetriesDefined retryLimit outcomes) :
    retryLimit.toNat ≤ 28 := by
  obtain ⟨fuel, final, returned, -, delays, recorded, -, -⟩ := defined
  by_contra many
  have member : delay 29 ∈ final.delays := by
    rw [(retries_of_retryLoop failing returned).2.2]
    exact List.mem_map.mpr ⟨28, List.mem_range.mpr (by omega), rfl⟩
  rw [delay_twentyNine, recorded] at member
  obtain ⟨milliseconds, -, impossible⟩ := List.mem_map.mp member
  cases impossible

/-- A target that always fails is called once and for all retries, with delays
that are defined and increase, if and only if the limit is at most 28. -/
theorem retries_defined_iff
    (failing : ∀ call, ∃ error, outcomes call = .failed error) :
    RetriesDefined retryLimit outcomes ↔ retryLimit.toNat ≤ 28 := by
  refine ⟨le_of_retriesDefined failing, fun few => ?_⟩
  obtain ⟨final, returned⟩ := exists_retryLoop_of_failing failing (by omega)
    counting_initial (Nat.zero_add (retryLimit.toNat + 1))
  obtain ⟨-, calls, recorded⟩ := retries_of_retryLoop failing returned
  obtain ⟨delays, defined, doubled, increasing⟩ := delays_defined few
  exact ⟨_, final, returned, calls, delays, recorded.trans defined, doubled,
    increasing⟩

end Failing

/-- With the default limit, a target that is down is called four times. -/
theorem retries_defined_default :
    RetriesDefined 3 (fun _ => unavailable) ∧
      (retryLoop 3 (fun _ => unavailable) 4 {}).map LoopState.delays =
        some [some 10, some 20, some 40] :=
  ⟨(retries_defined_iff fun _ => ⟨_, rfl⟩).mpr (by decide), by decide⟩

/-- With a limit of 29, the last delay is not defined; with the largest limit,
the loop does not end. -/
theorem retries_overflow :
    ¬ RetriesDefined 29 (fun _ => unavailable) ∧
      delay 29 = none ∧
      ∀ fuel, retryLoop (UInt32.ofNat (2 ^ 32 - 1)) (fun _ => unavailable) fuel
        {} = none := by
  have failing : ∀ call : Nat, ∃ error, unavailable = .failed error :=
    fun _ => ⟨_, rfl⟩
  refine ⟨fun defined => ?_, delay_twentyNine, fun fuel => ?_⟩
  · exact absurd (le_of_retriesDefined failing defined) (by decide)
  · refine Option.eq_none_iff_forall_ne_some.mpr fun final returned => ?_
    exact absurd (retries_of_retryLoop failing returned).1 (by decide)

end BackOff
end Stage
end Fre
