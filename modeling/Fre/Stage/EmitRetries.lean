import Fre.Stage.EmitStage
import Mathlib.Data.List.Forall2

/-!
# The retries of an emission

`EmitStage::process` calls a target until it takes the decision or the retries
are used up, and then goes on to the next one.  Here a target is the sequence
of the outcomes of its calls, and the stage runs against a list of them.  The
attempts are counted in 32 bits: with the largest limit the counter never gets
past it, and a target is called until it succeeds.  The back-off between two
attempts is only a delay and is left out.
-/

namespace Fre
namespace Stage
namespace EmitRetries

/-- `EmitStage::process` on its way, with the calls it has made: the index of
the target, and the decision that it was given. -/
structure Progress where
  emission : Emission
  calls : List (Nat × Decision) := []
  deriving DecidableEq

/-- How often a target was called. -/
def Progress.callsOf (progress : Progress) (index : Nat) : Nat :=
  progress.calls.countP fun call => call.1 == index

section Process

variable (retryLimit : UInt32)
variable (targets : List (Nat → TargetOutcome))
variable (decision : Decision)

/-- The next call of `EmitStage::process`; none when the target throws. -/
def nextCall (progress : Progress) : Option Progress :=
  let index := progress.emission.target
  (targets[index]?).bind fun outcomes =>
    let config := { retryLimit := retryLimit, targets := targets.length }
    let outcome := outcomes (progress.callsOf index)
    (progress.emission.afterCall config outcome).map fun emission =>
      { emission := emission
        calls := progress.calls ++ [(index, decision)] }

/-- `EmitStage::process` with at most the given number of calls. -/
def process : Nat → Progress → Option Progress
  | 0, progress =>
      if targets.length ≤ progress.emission.target then some progress
      else none
  | fuel + 1, progress =>
      if targets.length ≤ progress.emission.target then some progress
      else
        (nextCall retryLimit targets decision progress).bind (process fuel)

end Process

/-! ### What is expected of the retries -/

/-- Number of calls of a target with some retries: one, and after a failure as
many as the retries that are left allow. -/
def expectedCalls : Nat → (Nat → TargetOutcome) → Nat
  | 0, _ => 1
  | retries + 1, outcomes =>
      if outcomes 0 = .delivered then 1
      else expectedCalls retries (fun call => outcomes (call + 1)) + 1

/-- One of the expected calls takes the decision. -/
def succeeds (retries : Nat) (outcomes : Nat → TargetOutcome) : Bool :=
  (List.range (expectedCalls retries outcomes)).any fun call =>
    outcomes call == .delivered

/-- The calls of the targets from an index on, in list order, each with the
same decision. -/
def callLog (decision : Decision) : Nat → List Nat → List (Nat × Decision)
  | _, [] => []
  | index, made :: rest =>
      List.replicate made (index, decision) ++ callLog decision (index + 1) rest

/-- The result of `EmitStage::process` is the expected one. -/
structure RetriesExact
    (retryLimit : UInt32)
    (targets : List (Nat → TargetOutcome))
    (decision : Decision)
    (droppedBefore : UInt64)
    (result : Progress) : Prop where
  calls : result.calls =
    callLog decision 0 (targets.map (expectedCalls retryLimit.toNat))
  delivered : result.emission.evaluatorResults =
    List.replicate (targets.countP (succeeds retryLimit.toNat))
      Emission.targetResult
  dropped : result.emission.droppedDecisions = droppedBefore +
    UInt64.ofNat (targets.countP fun outcomes =>
      !succeeds retryLimit.toNat outcomes)
  degraded : result.emission.degradedReason =
    if 0 < targets.countP fun outcomes => !succeeds retryLimit.toNat outcomes
    then .emissionRetryExhausted
    else .none

theorem expectedCalls_le (retries : Nat) (outcomes : Nat → TargetOutcome) :
    expectedCalls retries outcomes ≤ retries + 1 := by
  induction retries generalizing outcomes with
  | zero => exact Nat.le_refl 1
  | succ retries inductionHypothesis =>
      have rest := inductionHypothesis fun call => outcomes (call + 1)
      unfold expectedCalls
      split
      · omega
      · omega

/-- The calls go up to the first success or to the last retry. -/
theorem expectedCalls_eq
    {retries last : Nat}
    {outcomes : Nat → TargetOutcome}
    (failed : ∀ call < last, outcomes call ≠ .delivered)
    (within : last ≤ retries)
    (final : last = retries ∨ outcomes last = .delivered) :
    expectedCalls retries outcomes = last + 1 := by
  induction retries generalizing last outcomes with
  | zero =>
      rw [Nat.le_zero.mp within]
      rfl
  | succ retries inductionHypothesis =>
      cases last with
      | zero =>
          have delivered : outcomes 0 = .delivered := by
            rcases final with last | delivered
            · cases last
            · exact delivered
          simp [expectedCalls, delivered]
      | succ last =>
          have first : outcomes 0 ≠ .delivered := failed 0 (Nat.succ_pos last)
          have rest :
              expectedCalls retries (fun call => outcomes (call + 1)) =
                last + 1 := by
            refine inductionHypothesis (fun call before => ?_) (by omega) ?_
            · exact failed (call + 1) (by omega)
            · exact final.imp (fun equal => by omega) id
          simp [expectedCalls, first, rest]

/-! ### The calls of one target -/

/-- How the calls of one target end: their number, and whether the last one
took the decision. -/
structure TargetEnd where
  made : Nat
  succeeded : Bool

/-- The calls of a target can end in this way.  Only a limit below the largest
one is ever exceeded by the attempts. -/
inductive EndsWith (retryLimit : UInt32) (outcomes : Nat → TargetOutcome) :
    TargetEnd → Prop
  | delivered
      {last : Nat}
      (failed : ∀ call < last, ∃ error, outcomes call = .failed error)
      (delivered : outcomes last = .delivered)
      (within : retryLimit.toNat + 1 < 2 ^ 32 → last ≤ retryLimit.toNat) :
      EndsWith retryLimit outcomes ⟨last + 1, true⟩
  | exhausted
      (finite : retryLimit.toNat + 1 < 2 ^ 32)
      (failed : ∀ call < retryLimit.toNat + 1,
        ∃ error, outcomes call = .failed error) :
      EndsWith retryLimit outcomes ⟨retryLimit.toNat + 1, false⟩

/-- The stage when it goes on to the next target. -/
def afterTarget
    (decision : Decision)
    (progress : Progress)
    (ended : TargetEnd) : Progress where
  emission :=
    if ended.succeeded then
      { progress.emission with
        target := progress.emission.target + 1
        attempts := 0
        evaluatorResults :=
          progress.emission.evaluatorResults ++ [Emission.targetResult] }
    else
      { progress.emission with
        target := progress.emission.target + 1
        attempts := 0
        degradedReason :=
          progress.emission.degradedReason.merge .emissionRetryExhausted
        droppedDecisions := progress.emission.droppedDecisions + 1 }
  calls := progress.calls ++
    List.replicate ended.made (progress.emission.target, decision)

/-- The stage after some failures of the current target. -/
def afterFailures
    (decision : Decision)
    (progress : Progress)
    (failures : Nat) : Progress where
  emission := { progress.emission with attempts := UInt32.ofNat failures }
  calls := progress.calls ++
    List.replicate failures (progress.emission.target, decision)

/-- The stage comes to its current target: no attempt was made, and the calls
went to earlier targets. -/
structure Fresh (progress : Progress) : Prop where
  attempts : progress.emission.attempts = 0
  earlier : ∀ call ∈ progress.calls, call.1 < progress.emission.target

theorem afterFailures_zero
    {decision : Decision}
    {progress : Progress}
    (fresh : Fresh progress) :
    afterFailures decision progress 0 = progress := by
  obtain ⟨emission, calls⟩ := progress
  obtain ⟨target, attempts, results, reason, dropped⟩ := emission
  have noAttempts : attempts = 0 := fresh.attempts
  subst noAttempts
  simp [afterFailures]

@[simp] theorem target_afterFailures
    (decision : Decision)
    (progress : Progress)
    (failures : Nat) :
    (afterFailures decision progress failures).emission.target =
      progress.emission.target := rfl

@[simp] theorem target_afterTarget
    (decision : Decision)
    (progress : Progress)
    (ended : TargetEnd) :
    (afterTarget decision progress ended).emission.target =
      progress.emission.target + 1 := by
  unfold afterTarget
  dsimp only
  split <;> rfl

theorem fresh_afterTarget
    {decision : Decision}
    {progress : Progress}
    (fresh : Fresh progress)
    (ended : TargetEnd) :
    Fresh (afterTarget decision progress ended) := by
  constructor
  · unfold afterTarget
    dsimp only
    split <;> rfl
  · intro call member
    rw [target_afterTarget]
    rcases List.mem_append.mp member with before | own
    · exact Nat.lt_succ_of_lt (fresh.earlier call before)
    · rw [(List.mem_replicate.mp own).2]
      exact Nat.lt_succ_self _

theorem callsOf_afterFailures
    {progress : Progress}
    (fresh : Fresh progress)
    (decision : Decision)
    (failures : Nat) :
    (afterFailures decision progress failures).callsOf progress.emission.target =
      failures := by
  have none : progress.calls.countP
      (fun call => call.1 == progress.emission.target) = 0 := by
    rw [List.countP_eq_zero]
    intro call member
    have before := fresh.earlier call member
    simp only [beq_iff_eq]
    omega
  simp [afterFailures, Progress.callsOf, none, List.countP_replicate]

/-- The attempts are the failures, counted in 32 bits. -/
theorem attempts_succ (failures : Nat) :
    UInt32.ofNat failures + 1 = UInt32.ofNat (failures + 1) :=
  (UInt32.ofNat_add failures 1).symm

theorem attempts_le_iff (failures : Nat) (retryLimit : UInt32) :
    UInt32.ofNat failures ≤ retryLimit ↔
      failures % 2 ^ 32 ≤ retryLimit.toNat := by
  rw [UInt32.le_iff_toNat_le, UInt32.toNat_ofNat']

section OneTarget

variable {retryLimit : UInt32}
variable {targets : List (Nat → TargetOutcome)}
variable {decision : Decision}
variable {progress : Progress}
variable {outcomes : Nat → TargetOutcome}

/-- A call after some failures of the target. -/
theorem nextCall_afterFailures
    (fresh : Fresh progress)
    (current : targets[progress.emission.target]? = some outcomes)
    (failures : Nat) :
    nextCall retryLimit targets decision
        (afterFailures decision progress failures) =
      (Emission.afterCall { retryLimit := retryLimit, targets := targets.length }
        { progress.emission with attempts := UInt32.ofNat failures }
        (outcomes failures)).map fun emission =>
          { emission := emission
            calls := progress.calls ++ List.replicate (failures + 1)
              (progress.emission.target, decision) } := by
  simp only [nextCall, target_afterFailures, current, Option.bind_some,
    callsOf_afterFailures fresh decision failures]
  simp only [afterFailures, List.append_assoc, List.replicate_succ']

theorem nextCall_delivered
    (fresh : Fresh progress)
    (current : targets[progress.emission.target]? = some outcomes)
    {failures : Nat}
    (delivered : outcomes failures = .delivered) :
    nextCall retryLimit targets decision
        (afterFailures decision progress failures) =
      some (afterTarget decision progress ⟨failures + 1, true⟩) := by
  rw [nextCall_afterFailures fresh current, delivered]
  rfl

/-- A call that fails and is repeated. -/
theorem nextCall_retried
    (fresh : Fresh progress)
    (current : targets[progress.emission.target]? = some outcomes)
    {failures : Nat}
    {error : EmissionError}
    (failed : outcomes failures = .failed error)
    (again : UInt32.ofNat (failures + 1) ≤ retryLimit) :
    nextCall retryLimit targets decision
        (afterFailures decision progress failures) =
      some (afterFailures decision progress (failures + 1)) := by
  rw [nextCall_afterFailures fresh current, failed]
  simp only [Emission.afterCall, attempts_succ]
  rw [if_pos again]
  rfl

/-- The call that uses up the retries. -/
theorem nextCall_exhausted
    (fresh : Fresh progress)
    (current : targets[progress.emission.target]? = some outcomes)
    {failures : Nat}
    {error : EmissionError}
    (failed : outcomes failures = .failed error)
    (exceeded : ¬ UInt32.ofNat (failures + 1) ≤ retryLimit) :
    nextCall retryLimit targets decision
        (afterFailures decision progress failures) =
      some (afterTarget decision progress ⟨failures + 1, false⟩) := by
  rw [nextCall_afterFailures fresh current, failed]
  simp only [Emission.afterCall, attempts_succ]
  rw [if_neg exceeded]
  rfl

theorem process_succ
    (current : targets[progress.emission.target]? = some outcomes)
    (failures fuel : Nat) :
    process retryLimit targets decision (fuel + 1)
        (afterFailures decision progress failures) =
      (nextCall retryLimit targets decision
        (afterFailures decision progress failures)).bind
          (process retryLimit targets decision fuel) := by
  have inRange := (List.getElem?_eq_some_iff.mp current).1
  rw [process, target_afterFailures, if_neg (Nat.not_le_of_lt inRange)]

/-- If the stage returns, then the calls of the current target have ended, and
the stage went on from there. -/
theorem exists_endsWith_of_process
    (fresh : Fresh progress)
    (current : targets[progress.emission.target]? = some outcomes)
    {fuel failures : Nat}
    {result : Progress}
    (failed : ∀ call < failures, ∃ error, outcomes call = .failed error)
    (within : retryLimit.toNat + 1 < 2 ^ 32 → failures ≤ retryLimit.toNat)
    (returned : process retryLimit targets decision fuel
      (afterFailures decision progress failures) = some result) :
    ∃ ended, EndsWith retryLimit outcomes ended ∧
      ∃ rest, process retryLimit targets decision rest
        (afterTarget decision progress ended) = some result := by
  induction fuel generalizing failures with
  | zero =>
      have inRange := (List.getElem?_eq_some_iff.mp current).1
      rw [process, target_afterFailures,
        if_neg (Nat.not_le_of_lt inRange)] at returned
      cases returned
  | succ fuel inductionHypothesis =>
      rw [process_succ current] at returned
      cases outcome : outcomes failures with
      | delivered =>
          rw [nextCall_delivered fresh current outcome] at returned
          exact ⟨_, .delivered failed outcome within, fuel, returned⟩
      | threw =>
          rw [nextCall_afterFailures fresh current, outcome] at returned
          cases returned
      | failed error =>
          have failedNow : ∀ call < failures + 1,
              ∃ error, outcomes call = .failed error := by
            intro call before
            rcases Nat.lt_succ_iff_lt_or_eq.mp before with earlier | rfl
            · exact failed call earlier
            · exact ⟨error, outcome⟩
          have small := retryLimit.toNat_lt
          by_cases again : UInt32.ofNat (failures + 1) ≤ retryLimit
          · rw [nextCall_retried fresh current outcome again] at returned
            rw [attempts_le_iff] at again
            exact inductionHypothesis failedNow (by omega) returned
          · rw [nextCall_exhausted fresh current outcome again] at returned
            rw [attempts_le_iff] at again
            have finite : retryLimit.toNat + 1 < 2 ^ 32 := by omega
            have last : failures = retryLimit.toNat := by omega
            subst last
            exact ⟨_, .exhausted finite failedNow, fuel, returned⟩

/-- Failures that are all repeated. -/
theorem process_afterFailures
    (fresh : Fresh progress)
    (current : targets[progress.emission.target]? = some outcomes)
    {failures : Nat}
    (failed : ∀ call < failures, ∃ error, outcomes call = .failed error)
    (again : ∀ call < failures, UInt32.ofNat (call + 1) ≤ retryLimit)
    (fuel : Nat) :
    process retryLimit targets decision (failures + fuel) progress =
      process retryLimit targets decision fuel
        (afterFailures decision progress failures) := by
  induction failures generalizing fuel with
  | zero => rw [Nat.zero_add, afterFailures_zero fresh]
  | succ failures inductionHypothesis =>
      obtain ⟨error, outcome⟩ := failed failures (Nat.lt_succ_self failures)
      have before := inductionHypothesis
        (fun call earlier => failed call (Nat.lt_succ_of_lt earlier))
        (fun call earlier => again call (Nat.lt_succ_of_lt earlier))
        (fuel + 1)
      rw [Nat.add_assoc, Nat.add_comm 1 fuel, before, process_succ current,
        nextCall_retried fresh current outcome
          (again failures (Nat.lt_succ_self failures))]
      rfl

/-- Calls that can end in this way do. -/
theorem process_of_endsWith
    (fresh : Fresh progress)
    (current : targets[progress.emission.target]? = some outcomes)
    {ended : TargetEnd}
    (ends : EndsWith retryLimit outcomes ended)
    (fuel : Nat) :
    process retryLimit targets decision (ended.made + fuel) progress =
      process retryLimit targets decision fuel
        (afterTarget decision progress ended) := by
  have small := retryLimit.toNat_lt
  cases ends with
  | @delivered last failed delivered within =>
      have again : ∀ call < last, UInt32.ofNat (call + 1) ≤ retryLimit := by
        intro call before
        rw [attempts_le_iff]
        omega
      rw [Nat.add_assoc, Nat.add_comm 1 fuel,
        process_afterFailures fresh current failed again, process_succ current,
        nextCall_delivered fresh current delivered]
      rfl
  | exhausted finite failed =>
      have before : ∀ call < retryLimit.toNat,
          ∃ error, outcomes call = .failed error := fun call earlier =>
        failed call (Nat.lt_succ_of_lt earlier)
      have again : ∀ call < retryLimit.toNat,
          UInt32.ofNat (call + 1) ≤ retryLimit := by
        intro call earlier
        rw [attempts_le_iff]
        omega
      have exceeded : ¬ UInt32.ofNat (retryLimit.toNat + 1) ≤ retryLimit := by
        rw [attempts_le_iff]
        omega
      obtain ⟨error, outcome⟩ := failed retryLimit.toNat (Nat.lt_succ_self _)
      rw [Nat.add_assoc, Nat.add_comm 1 fuel,
        process_afterFailures fresh current before again, process_succ current,
        nextCall_exhausted fresh current outcome exceeded]
      rfl

end OneTarget

/-! ### The list of the targets -/

section AllTargets

variable {retryLimit : UInt32}
variable {targets : List (Nat → TargetOutcome)}
variable {decision : Decision}

/-- The current target is the first of those to come. -/
theorem getElem?_and_drop_of_drop
    {rest : List (Nat → TargetOutcome)}
    {outcomes : Nat → TargetOutcome}
    {index : Nat}
    (toCome : targets.drop index = outcomes :: rest) :
    targets[index]? = some outcomes ∧ targets.drop (index + 1) = rest := by
  constructor
  · rw [← List.head?_drop, toCome, List.head?_cons]
  · rw [← List.tail_drop, toCome, List.tail_cons]

/-- If the stage returns, then the calls of every target have ended, whatever
the others did. -/
theorem exists_ends_of_process
    {remaining : List (Nat → TargetOutcome)}
    {progress result : Progress}
    {fuel : Nat}
    (fresh : Fresh progress)
    (toCome : targets.drop progress.emission.target = remaining)
    (returned : process retryLimit targets decision fuel progress =
      some result) :
    ∃ ends, List.Forall₂ (EndsWith retryLimit) remaining ends ∧
      result = ends.foldl (afterTarget decision) progress := by
  induction remaining generalizing progress fuel with
  | nil =>
      have finished := List.drop_eq_nil_iff.mp toCome
      have returnsHere :
          process retryLimit targets decision fuel progress = some progress := by
        cases fuel <;> rw [process, if_pos finished]
      rw [returned, Option.some.injEq] at returnsHere
      exact ⟨[], .nil, returnsHere⟩
  | cons outcomes rest inductionHypothesis =>
      obtain ⟨current, left⟩ := getElem?_and_drop_of_drop toCome
      rw [← afterFailures_zero fresh] at returned
      obtain ⟨ended, endsWith, fuelLeft, continued⟩ :=
        exists_endsWith_of_process fresh current
          (fun call none => absurd none (Nat.not_lt_zero call))
          (fun _ => Nat.zero_le _) returned
      obtain ⟨ends, restEnds, resultEq⟩ := inductionHypothesis
        (fresh_afterTarget fresh ended)
        ((target_afterTarget decision progress ended).symm ▸ left) continued
      exact ⟨ended :: ends, .cons endsWith restEnds, resultEq⟩

/-- If the calls of every target can end, then the stage returns. -/
theorem exists_process_of_ends
    {remaining : List (Nat → TargetOutcome)}
    {ends : List TargetEnd}
    {progress : Progress}
    (fresh : Fresh progress)
    (toCome : targets.drop progress.emission.target = remaining)
    (endsWith : List.Forall₂ (EndsWith retryLimit) remaining ends) :
    ∃ fuel, process retryLimit targets decision fuel progress =
      some (ends.foldl (afterTarget decision) progress) := by
  induction endsWith generalizing progress with
  | nil =>
      have finished := List.drop_eq_nil_iff.mp toCome
      exact ⟨0, if_pos finished⟩
  | @cons outcomes ended rest ends own _ inductionHypothesis =>
      obtain ⟨current, left⟩ := getElem?_and_drop_of_drop toCome
      obtain ⟨fuel, continued⟩ := inductionHypothesis
        (fresh_afterTarget fresh ended)
        ((target_afterTarget decision progress ended).symm ▸ left)
      exact ⟨ended.made + fuel,
        (process_of_endsWith fresh current own fuel).trans continued⟩

end AllTargets

section Accumulated

variable (decision : Decision)

theorem calls_afterTargets (ends : List TargetEnd) (progress : Progress) :
    (ends.foldl (afterTarget decision) progress).calls =
      progress.calls ++
        callLog decision progress.emission.target
          (ends.map TargetEnd.made) := by
  induction ends generalizing progress with
  | nil => simp [callLog]
  | cons ended rest inductionHypothesis =>
      rw [List.foldl_cons, inductionHypothesis, target_afterTarget]
      simp [afterTarget, callLog]

theorem delivered_afterTargets (ends : List TargetEnd) (progress : Progress) :
    (ends.foldl (afterTarget decision) progress).emission.evaluatorResults =
      progress.emission.evaluatorResults ++
        List.replicate (ends.countP TargetEnd.succeeded)
          Emission.targetResult := by
  induction ends generalizing progress with
  | nil => simp
  | cons ended rest inductionHypothesis =>
      rw [List.foldl_cons, inductionHypothesis]
      obtain ⟨made, succeeded⟩ := ended
      cases succeeded with
      | false => simp [afterTarget]
      | true => simp [afterTarget, List.replicate_succ]

theorem dropped_afterTargets (ends : List TargetEnd) (progress : Progress) :
    (ends.foldl (afterTarget decision) progress).emission.droppedDecisions =
      progress.emission.droppedDecisions +
        UInt64.ofNat (ends.countP fun ended => !ended.succeeded) := by
  induction ends generalizing progress with
  | nil => simp
  | cons ended rest inductionHypothesis =>
      rw [List.foldl_cons, inductionHypothesis]
      obtain ⟨made, succeeded⟩ := ended
      cases succeeded with
      | false => simp [afterTarget, UInt64.ofNat_add, UInt64.add_assoc,
          UInt64.add_comm]
      | true => simp [afterTarget]

theorem degraded_afterTargets (ends : List TargetEnd) (progress : Progress) :
    (ends.foldl (afterTarget decision) progress).emission.degradedReason =
      if 0 < ends.countP fun ended => !ended.succeeded
      then progress.emission.degradedReason.merge .emissionRetryExhausted
      else progress.emission.degradedReason := by
  induction ends generalizing progress with
  | nil => rfl
  | cons ended rest inductionHypothesis =>
      rw [List.foldl_cons, inductionHypothesis]
      obtain ⟨made, succeeded⟩ := ended
      cases succeeded with
      | false => simp [afterTarget, DegradedReason.merge_merge_self]
      | true => simp [afterTarget]

end Accumulated

/-! ### Exact retries -/

/-- How the calls of a target are expected to end. -/
def expectedEnd (retries : Nat) (outcomes : Nat → TargetOutcome) : TargetEnd :=
  ⟨expectedCalls retries outcomes, succeeds retries outcomes⟩

section OneEnd

variable {retryLimit : UInt32}
variable {outcomes : Nat → TargetOutcome}
variable {ended : TargetEnd}

theorem ne_delivered_of_failed
    {bound : Nat}
    (failed : ∀ call < bound, ∃ error, outcomes call = .failed error) :
    ∀ call < bound, outcomes call ≠ .delivered := by
  intro call before delivered
  obtain ⟨error, outcome⟩ := failed call before
  rw [outcome] at delivered
  cases delivered

theorem eq_expectedEnd_of_last
    {retries last : Nat}
    (failed : ∀ call < last, outcomes call ≠ .delivered)
    (within : last ≤ retries)
    (delivered : outcomes last = .delivered) :
    expectedEnd retries outcomes = ⟨last + 1, true⟩ := by
  have calls := expectedCalls_eq failed within (.inr delivered)
  simp only [expectedEnd, succeeds, calls, TargetEnd.mk.injEq, true_and,
    List.any_eq_true, List.mem_range]
  exact ⟨last, Nat.lt_succ_self last, by simp [delivered]⟩

theorem eq_expectedEnd_of_failed
    {retries : Nat}
    (failed : ∀ call < retries + 1, outcomes call ≠ .delivered) :
    expectedEnd retries outcomes = ⟨retries + 1, false⟩ := by
  have calls : expectedCalls retries outcomes = retries + 1 :=
    expectedCalls_eq (fun call before => failed call (Nat.lt_succ_of_lt before))
      (Nat.le_refl retries) (.inl rfl)
  simp only [expectedEnd, succeeds, calls, TargetEnd.mk.injEq, true_and,
    List.any_eq_false, List.mem_range, beq_iff_eq]
  exact failed

/-- A target that succeeds before the counter of the attempts wraps around, or
a limit that the counter can exceed, makes the calls end as expected. -/
theorem EndsWith.eq_expectedEnd
    (endsWith : EndsWith retryLimit outcomes ended)
    (condition : retryLimit.toNat + 1 < 2 ^ 32 ∨
      ∃ call < 2 ^ 32, outcomes call = .delivered) :
    expectedEnd retryLimit.toNat outcomes = ended := by
  cases endsWith with
  | @delivered last failed delivered within =>
      have before := ne_delivered_of_failed failed
      refine eq_expectedEnd_of_last before ?_ delivered
      have small := retryLimit.toNat_lt
      rcases condition with finite | ⟨call, inRange, success⟩
      · exact within finite
      · have first : ¬ call < last := fun earlier => before call earlier success
        by_cases finite : retryLimit.toNat + 1 < 2 ^ 32
        · exact within finite
        · omega
  | exhausted finite failed =>
      exact eq_expectedEnd_of_failed (ne_delivered_of_failed failed)

/-- A target is never called less often than expected. -/
theorem EndsWith.expectedCalls_le_made
    (endsWith : EndsWith retryLimit outcomes ended) :
    expectedCalls retryLimit.toNat outcomes ≤ ended.made := by
  have most := expectedCalls_le retryLimit.toNat outcomes
  cases endsWith with
  | @delivered last failed delivered within =>
      by_cases early : last ≤ retryLimit.toNat
      · rw [expectedCalls_eq (ne_delivered_of_failed failed) early
          (.inr delivered)]
      · dsimp only
        omega
  | exhausted finite failed => exact most

/-- A target that is called as often as expected meets the condition. -/
theorem EndsWith.condition_of_expectedCalls
    (endsWith : EndsWith retryLimit outcomes ended)
    (expected : ended.made = expectedCalls retryLimit.toNat outcomes) :
    retryLimit.toNat + 1 < 2 ^ 32 ∨
      ∃ call < 2 ^ 32, outcomes call = .delivered := by
  have most := expectedCalls_le retryLimit.toNat outcomes
  have small := retryLimit.toNat_lt
  cases endsWith with
  | @delivered last failed delivered within =>
      dsimp only at expected
      exact .inr ⟨last, by omega, delivered⟩
  | exhausted finite failed => exact .inl finite

end OneEnd

theorem length_callLog (decision : Decision) (index : Nat) (counts : List Nat) :
    (callLog decision index counts).length = counts.sum := by
  induction counts generalizing index with
  | nil => rfl
  | cons made rest inductionHypothesis =>
      simp [callLog, inductionHypothesis]

section Exactness

variable {retryLimit : UInt32}
variable {targets : List (Nat → TargetOutcome)}
variable {ends : List TargetEnd}

theorem sum_expectedCalls_le
    (endsWith : List.Forall₂ (EndsWith retryLimit) targets ends) :
    (targets.map (expectedCalls retryLimit.toNat)).sum ≤
      (ends.map TargetEnd.made).sum := by
  induction endsWith with
  | nil => exact Nat.le_refl 0
  | cons own rest inductionHypothesis =>
      have ownLe := own.expectedCalls_le_made
      simp only [List.map_cons, List.sum_cons]
      omega

/-- If no call is made beyond the expected ones, then every target meets the
condition. -/
theorem condition_of_sum
    (endsWith : List.Forall₂ (EndsWith retryLimit) targets ends)
    (sums : (ends.map TargetEnd.made).sum =
      (targets.map (expectedCalls retryLimit.toNat)).sum) :
    ∀ outcomes ∈ targets, retryLimit.toNat + 1 < 2 ^ 32 ∨
      ∃ call < 2 ^ 32, outcomes call = .delivered := by
  induction endsWith with
  | nil => simp
  | cons own rest inductionHypothesis =>
      have ownLe := own.expectedCalls_le_made
      have restLe := sum_expectedCalls_le rest
      simp only [List.map_cons, List.sum_cons] at sums
      intro outcomes member
      rcases List.mem_cons.mp member with rfl | later
      · exact own.condition_of_expectedCalls (by omega)
      · exact inductionHypothesis (by omega) outcomes later

theorem ends_eq_map_expectedEnd
    (endsWith : List.Forall₂ (EndsWith retryLimit) targets ends)
    (condition : ∀ outcomes ∈ targets, retryLimit.toNat + 1 < 2 ^ 32 ∨
      ∃ call < 2 ^ 32, outcomes call = .delivered) :
    ends = targets.map (expectedEnd retryLimit.toNat) := by
  induction endsWith with
  | nil => rfl
  | cons own rest inductionHypothesis =>
      rw [List.forall_mem_cons] at condition
      rw [List.map_cons, own.eq_expectedEnd condition.1,
        ← inductionHypothesis condition.2]

theorem retriesExact_of_expectedEnds
    {decision : Decision}
    {droppedBefore : UInt64}
    (expected : ends = targets.map (expectedEnd retryLimit.toNat)) :
    RetriesExact retryLimit targets decision droppedBefore
      (ends.foldl (afterTarget decision)
        { emission := { droppedDecisions := droppedBefore } }) := by
  subst expected
  constructor
  · rw [calls_afterTargets, List.map_map]
    rfl
  · rw [delivered_afterTargets, List.countP_map]
    rfl
  · rw [dropped_afterTargets, List.countP_map]
    rfl
  · have first : DegradedReason.none.merge .emissionRetryExhausted =
        .emissionRetryExhausted := rfl
    rw [degraded_afterTargets, List.countP_map]
    simp only [first]
    rfl

end Exactness

/-- The condition for all targets at once. -/
theorem condition_iff
    (retryLimit : UInt32)
    (targets : List (Nat → TargetOutcome)) :
    (∀ outcomes ∈ targets, retryLimit.toNat + 1 < 2 ^ 32 ∨
        ∃ call < 2 ^ 32, outcomes call = .delivered) ↔
      (retryLimit.toNat + 1 < 2 ^ 32 ∨
        ∀ outcomes ∈ targets, ∃ call < 2 ^ 32, outcomes call = .delivered) := by
  by_cases finite : retryLimit.toNat + 1 < 2 ^ 32
  · simp only [finite, true_or, implies_true]
  · simp only [finite, false_or]

/-- The retries are exact, whenever the stage returns, if and only if the limit
is not the largest one or every target takes the decision in one of its first
`2 ^ 32` calls. -/
theorem retries_exact_iff
    {retryLimit : UInt32}
    {targets : List (Nat → TargetOutcome)}
    {decision : Decision}
    {droppedBefore : UInt64}
    {fuel : Nat}
    {result : Progress}
    (returned : process retryLimit targets decision fuel
      { emission := { droppedDecisions := droppedBefore } } = some result) :
    RetriesExact retryLimit targets decision droppedBefore result ↔
      (retryLimit.toNat + 1 < 2 ^ 32 ∨
        ∀ outcomes ∈ targets, ∃ call < 2 ^ 32, outcomes call = .delivered) := by
  obtain ⟨ends, endsWith, rfl⟩ :=
    exists_ends_of_process ⟨rfl, by simp⟩ (List.drop_zero) returned
  rw [← condition_iff]
  constructor
  · intro retriesExact
    refine condition_of_sum endsWith ?_
    have lengths := congrArg List.length retriesExact.calls
    rwa [calls_afterTargets, List.nil_append, length_callLog,
      length_callLog] at lengths
  · intro condition
    exact retriesExact_of_expectedEnds
      (ends_eq_map_expectedEnd endsWith condition)

/-- How a call of a target that is down ends. -/
def unavailable : TargetOutcome :=
  .failed ⟨.targetUnavailable, "target", "down"⟩

/-- A target that takes the decision in its second call. -/
def secondCallDelivers : Nat → TargetOutcome := fun call =>
  if call = 1 then .delivered else unavailable

/-- With one retry, a target that is down between two that answer late is
called twice like them, and dropped. -/
theorem retries_exact_oneRetry :
    ∃ result,
      process 1 [secondCallDelivers, fun _ => unavailable, secondCallDelivers]
        {} 6 { emission := {} } = some result ∧
      result.calls = [(0, {}), (0, {}), (1, {}), (1, {}), (2, {}), (2, {})] ∧
      RetriesExact 1
        [secondCallDelivers, fun _ => unavailable, secondCallDelivers]
        {} 0 result := by
  refine ⟨_, rfl, rfl, ?_⟩
  have returned :
      process 1 [secondCallDelivers, fun _ => unavailable, secondCallDelivers]
        {} 6 { emission := { droppedDecisions := 0 } } = some _ := rfl
  exact (retries_exact_iff returned).mpr (.inl (by decide))

/-- A target that is down for `2 ^ 32` calls. -/
def downForLong : Nat → TargetOutcome := fun call =>
  if call < 2 ^ 32 then unavailable else .delivered

theorem downForLong_endsWith :
    EndsWith (UInt32.ofNat (2 ^ 32 - 1)) downForLong ⟨2 ^ 32 + 1, true⟩ := by
  refine .delivered (fun call before => ?_) ?_ (fun finite => ?_)
  · exact ⟨_, if_pos before⟩
  · exact if_neg (Nat.lt_irrefl _)
  · exact absurd finite (by decide)

/-- A target that is called more often than the limit allows. -/
theorem not_retriesExact_of_made
    {retryLimit : UInt32}
    {outcomes : Nat → TargetOutcome}
    {ended : TargetEnd}
    (endsWith : EndsWith retryLimit outcomes ended)
    (tooOften : retryLimit.toNat + 1 < ended.made) :
    ∃ fuel result,
      process retryLimit [outcomes] {} fuel { emission := {} } = some result ∧
      result.calls.length = ended.made ∧
      ¬ RetriesExact retryLimit [outcomes] {} 0 result := by
  let start : Progress := { emission := {} }
  have fresh : Fresh start := ⟨rfl, by simp [start]⟩
  obtain ⟨fuel, returned⟩ :=
    exists_process_of_ends fresh List.drop_zero (.cons endsWith .nil)
  have made : ([ended].foldl (afterTarget {}) start).calls.length =
      ended.made := by
    rw [calls_afterTargets, List.nil_append, length_callLog]
    simp
  refine ⟨fuel, _, returned, made, fun retriesExact => ?_⟩
  have most := expectedCalls_le retryLimit.toNat outcomes
  rw [retriesExact.calls, length_callLog] at made
  simp only [List.map_cons, List.map_nil, List.sum_cons, List.sum_nil] at made
  omega

/-- With the largest limit, the target that is down for long is called once
more than the first call and the retries allow. -/
theorem largest_limit_called_too_often :
    ∃ fuel result,
      process (UInt32.ofNat (2 ^ 32 - 1)) [downForLong] {} fuel
        { emission := {} } = some result ∧
      result.calls.length = 2 ^ 32 + 1 ∧
      ¬ RetriesExact (UInt32.ofNat (2 ^ 32 - 1)) [downForLong] {} 0 result :=
  not_retriesExact_of_made downForLong_endsWith
    (Nat.succ_lt_succ (UInt32.toNat_lt _))

end EmitRetries
end Stage
end Fre
