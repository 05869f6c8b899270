import Fre.Foundation.FixedWidth
import Fre.Policy.RuleEngine
import Fre.Stage.IngestStage

/-!
# The age of an event

Three comparisons are about the age of an event: two leaves of the policy
compare it in nanoseconds with a duration given in milliseconds, and the ingest
stage compares it in milliseconds with its tolerance.  The age is a difference
of two time stamps and the duration is multiplied by a million, both on 64 bits.
Here the comparisons are set against the exact age and the exact duration.
-/

namespace Fre
namespace Stage
namespace EventAge

open Foundation Policy RuleEngine

/-- The age of the event in nanoseconds. -/
def exactAge (event : Event) (now : Int64) : Int :=
  now.toInt - event.timestamp.toInt

/-- A number of milliseconds in nanoseconds. -/
def exactNanoseconds (milliseconds : Int64) : Int :=
  milliseconds.toInt * 1000000

/-- `IngestStage::process` reports a late arrival. -/
def FlagsLate (config : IngestStageConfig) (event : Event) (now : Int64)
    (elapsedUs : UInt64) : Prop :=
  ∃ result ∈ (IngestStage.process config event now elapsedUs).evaluatorResults,
    result.reasonCode = some "late_arrival"

/-- The three comparisons at a reading of the clock come out as they do on
unbounded integers. -/
structure ComparesExactly
    (context : PolicyContext)
    (now older newer : Int64)
    (config : IngestStageConfig)
    (elapsedUs : UInt64) : Prop where
  older : valueAt context now (.eventOlderThan older) =
    some (decide (0 < exactAge context.event now ∧
      exactNanoseconds older < exactAge context.event now))
  newer : valueAt context now (.eventNewerThan newer) =
    some (decide (0 ≤ exactAge context.event now ∧
      exactAge context.event now < exactNanoseconds newer))
  late : context.event.isValid = true →
    (FlagsLate config context.event now elapsedUs ↔
      config.skewTolerance.toInt < (exactAge context.event now).tdiv 1000000)

/-! ### When wrapping does not matter -/

/-- The integer is one of 64 bits. -/
def Fits (value : Int) : Prop := -2 ^ 63 ≤ value ∧ value < 2 ^ 63

/-- For `EventOlderThan`: age and duration are in range, or the event is not
from the past, or the duration falls on the right side of the age after all. -/
def OlderUnharmed (age duration : Int) : Prop :=
  (Fits age ∧
    (age ≤ 0 ∨ Fits duration ∨
      2 ^ 63 ≤ duration ∧ age ≤ duration.bmod (2 ^ 64) ∨
      duration < -2 ^ 63 ∧ duration.bmod (2 ^ 64) < age)) ∨
  2 ^ 63 ≤ age ∧ age ≤ duration ∨
  age < -2 ^ 63 ∧ age + 2 ^ 64 ≤ duration.bmod (2 ^ 64)

/-- The same for `EventNewerThan`. -/
def NewerUnharmed (age duration : Int) : Prop :=
  (Fits age ∧
    (age < 0 ∨ Fits duration ∨
      2 ^ 63 ≤ duration ∧ age < duration.bmod (2 ^ 64) ∨
      duration < -2 ^ 63 ∧ duration.bmod (2 ^ 64) ≤ age)) ∨
  2 ^ 63 ≤ age ∧ duration ≤ age ∨
  age < -2 ^ 63 ∧ duration.bmod (2 ^ 64) ≤ age + 2 ^ 64

/-- For the ingest stage: the age is in range, or the tolerance does not lie
between the age and the age that it wraps to. -/
def LateUnharmed (age tolerance : Int) : Prop :=
  Fits age ∨
  2 ^ 63 ≤ age ∧
    (age.tdiv 1000000 ≤ tolerance ∨
      tolerance < (age - 2 ^ 64).tdiv 1000000) ∨
  age < -2 ^ 63 ∧
    (tolerance < age.tdiv 1000000 ∨
      (age + 2 ^ 64).tdiv 1000000 ≤ tolerance)

/-- The exact age has at most 65 bits. -/
theorem exactAge_bounds (event : Event) (now : Int64) :
    -2 ^ 64 < exactAge event now ∧ exactAge event now < 2 ^ 64 := by
  have nowLow := now.le_toInt
  have nowHigh := now.toInt_lt
  have timestampLow := event.timestamp.le_toInt
  have timestampHigh := event.timestamp.toInt_lt
  unfold exactAge
  omega

/-- The age on 64 bits is the exact one, or one round off. -/
theorem age_cases (event : Event) (now : Int64) :
    Fits (exactAge event now) ∧
        (now - event.timestamp).toInt = exactAge event now ∨
      2 ^ 63 ≤ exactAge event now ∧
        (now - event.timestamp).toInt = exactAge event now - 2 ^ 64 ∨
      exactAge event now < -2 ^ 63 ∧
        (now - event.timestamp).toInt = exactAge event now + 2 ^ 64 := by
  obtain ⟨above, below⟩ := exactAge_bounds event now
  have wrapped : (now - event.timestamp).toInt =
      (exactAge event now).bmod (2 ^ 64) := Int64.toInt_sub _ _
  rw [wrapped]
  rcases lt_or_ge (exactAge event now) (-2 ^ 63) with small | notSmall
  · exact .inr (.inr ⟨small,
      FixedWidth.bmod_two_pow_64_of_small (by omega) small⟩)
  · rcases lt_or_ge (exactAge event now) (2 ^ 63) with fits | large
    · exact .inl ⟨⟨notSmall, fits⟩, FixedWidth.bmod_two_pow_64 notSmall fits⟩
    · exact .inr (.inl ⟨large,
        FixedWidth.bmod_two_pow_64_of_large large (by omega)⟩)

theorem toInt_nanoseconds (milliseconds : Int64) :
    (nanoseconds milliseconds).toInt =
      (exactNanoseconds milliseconds).bmod (2 ^ 64) := by
  rw [nanoseconds, Int64.toInt_mul]
  rfl

theorem valueAt_eventOlderThan
    (context : PolicyContext)
    (now duration : Int64) :
    valueAt context now (.eventOlderThan duration) =
      some (decide (0 < (context.age now).toInt ∧
        (nanoseconds duration).toInt < (context.age now).toInt)) := by
  have zero : (nanoseconds 0).toInt = 0 := by decide
  have head : (Stream'.const now).head = now := rfl
  simp only [valueAt, evaluate, head, Int64.le_iff_toInt_le,
    Int64.lt_iff_toInt_lt, zero, ← decide_not, not_le, Bool.decide_and]

theorem valueAt_eventNewerThan
    (context : PolicyContext)
    (now duration : Int64) :
    valueAt context now (.eventNewerThan duration) =
      some (decide (0 ≤ (context.age now).toInt ∧
        (context.age now).toInt < (nanoseconds duration).toInt)) := by
  have zero : (nanoseconds 0).toInt = 0 := by decide
  have head : (Stream'.const now).head = now := rfl
  simp only [valueAt, evaluate, head, Int64.lt_iff_toInt_lt, zero, ← decide_not,
    not_lt, Bool.decide_and]

/-- What a duration is converted to on 64 bits. -/
theorem bmod_duration (duration : Int) :
    Fits (duration.bmod (2 ^ 64)) ∧
      (Fits duration → duration.bmod (2 ^ 64) = duration) := by
  refine ⟨⟨?_, ?_⟩, fun fits => FixedWidth.bmod_two_pow_64 fits.1 fits.2⟩
  · have low := Int.le_bmod (x := duration) (m := 2 ^ 64) (by positivity)
    omega
  · have high := Int.bmod_lt (x := duration) (m := 2 ^ 64) (by positivity)
    omega

theorem older_exact_iff
    (context : PolicyContext)
    (now duration : Int64) :
    valueAt context now (.eventOlderThan duration) =
        some (decide (0 < exactAge context.event now ∧
          exactNanoseconds duration < exactAge context.event now)) ↔
      OlderUnharmed (exactAge context.event now)
        (exactNanoseconds duration) := by
  obtain ⟨above, below⟩ := exactAge_bounds context.event now
  obtain ⟨range, inRange⟩ := bmod_duration (exactNanoseconds duration)
  rw [valueAt_eventOlderThan, Option.some_inj, decide_eq_decide,
    toInt_nanoseconds, PolicyContext.age]
  unfold OlderUnharmed Fits at *
  rcases age_cases context.event now with
    ⟨fits, age⟩ | ⟨large, age⟩ | ⟨small, age⟩
  · unfold Fits at fits
    rw [age]
    omega
  · rw [age]
    omega
  · rw [age]
    omega

theorem newer_exact_iff
    (context : PolicyContext)
    (now duration : Int64) :
    valueAt context now (.eventNewerThan duration) =
        some (decide (0 ≤ exactAge context.event now ∧
          exactAge context.event now < exactNanoseconds duration)) ↔
      NewerUnharmed (exactAge context.event now)
        (exactNanoseconds duration) := by
  obtain ⟨above, below⟩ := exactAge_bounds context.event now
  obtain ⟨range, inRange⟩ := bmod_duration (exactNanoseconds duration)
  rw [valueAt_eventNewerThan, Option.some_inj, decide_eq_decide,
    toInt_nanoseconds, PolicyContext.age]
  unfold NewerUnharmed Fits at *
  rcases age_cases context.event now with
    ⟨fits, age⟩ | ⟨large, age⟩ | ⟨small, age⟩
  · unfold Fits at fits
    rw [age]
    omega
  · rw [age]
    omega
  · rw [age]
    omega

/-- Whole milliseconds, rounded towards zero, have the sign of the age and are
no more than its nanoseconds. -/
theorem tdiv_million (age : Int) :
    (0 ≤ age → 0 ≤ age.tdiv 1000000 ∧ age.tdiv 1000000 ≤ age) ∧
      (age ≤ 0 → age ≤ age.tdiv 1000000 ∧ age.tdiv 1000000 ≤ 0) := by
  constructor
  · intro nonneg
    rw [Int.tdiv_eq_ediv_of_nonneg nonneg]
    omega
  · intro nonpos
    have negated := Int.neg_tdiv age 1000000
    rw [Int.tdiv_eq_ediv_of_nonneg (by omega : 0 ≤ -age)] at negated
    omega

theorem toInt_eventAge (event : Event) (now : Int64) :
    (IngestStage.eventAge event now).toInt =
      (now - event.timestamp).toInt.tdiv 1000000 := by
  have million : (1000000 : Int64).toInt = 1000000 := rfl
  have low := (now - event.timestamp).le_toInt
  have high := (now - event.timestamp).toInt_lt
  obtain ⟨ofNonneg, ofNonpos⟩ := tdiv_million (now - event.timestamp).toInt
  rw [IngestStage.eventAge, Int64.toInt_div, million]
  apply FixedWidth.bmod_two_pow_64 <;> omega

theorem flagsLate_iff
    {event : Event}
    (valid : event.isValid = true)
    (config : IngestStageConfig)
    (now : Int64)
    (elapsedUs : UInt64) :
    FlagsLate config event now elapsedUs ↔
      config.skewTolerance.toInt <
        (now - event.timestamp).toInt.tdiv 1000000 := by
  unfold FlagsLate IngestStage.process
  rw [valid, if_neg (by simp), ← toInt_eventAge, ← Int64.lt_iff_toInt_lt]
  split
  next late => simpa [IngestStage.lateResult] using late
  next onTime => simpa [IngestStage.validResult] using onTime

theorem late_exact_iff
    {event : Event}
    (valid : event.isValid = true)
    (config : IngestStageConfig)
    (now : Int64)
    (elapsedUs : UInt64) :
    (FlagsLate config event now elapsedUs ↔
        config.skewTolerance.toInt < (exactAge event now).tdiv 1000000) ↔
      LateUnharmed (exactAge event now) config.skewTolerance.toInt := by
  obtain ⟨above, below⟩ := exactAge_bounds event now
  rw [flagsLate_iff valid]
  unfold LateUnharmed
  rcases age_cases event now with ⟨fits, age⟩ | ⟨large, age⟩ | ⟨small, age⟩
  · rw [age]
    exact iff_of_true Iff.rfl (.inl fits)
  · obtain ⟨-, wrappedNonpos⟩ := tdiv_million (exactAge event now - 2 ^ 64)
    obtain ⟨exactNonneg, -⟩ := tdiv_million (exactAge event now)
    rw [age]
    unfold Fits
    omega
  · obtain ⟨wrappedNonneg, -⟩ := tdiv_million (exactAge event now + 2 ^ 64)
    obtain ⟨-, exactNonpos⟩ := tdiv_million (exactAge event now)
    rw [age]
    unfold Fits
    omega

/-- The comparisons come out as on unbounded integers exactly when age and
durations are in range or their wrapping does no harm. -/
theorem compares_exactly_iff
    (context : PolicyContext)
    (now older newer : Int64)
    (config : IngestStageConfig)
    (elapsedUs : UInt64) :
    ComparesExactly context now older newer config elapsedUs ↔
      OlderUnharmed (exactAge context.event now) (exactNanoseconds older) ∧
        NewerUnharmed (exactAge context.event now) (exactNanoseconds newer) ∧
        (context.event.isValid = true →
          LateUnharmed (exactAge context.event now)
            config.skewTolerance.toInt) := by
  rw [← older_exact_iff, ← newer_exact_iff]
  constructor
  · intro compares
    refine ⟨compares.older, compares.newer, fun valid => ?_⟩
    exact (late_exact_iff valid config now elapsedUs).mp (compares.late valid)
  · rintro ⟨olderExact, newerExact, lateUnharmed⟩
    refine ⟨olderExact, newerExact, fun valid => ?_⟩
    exact (late_exact_iff valid config now elapsedUs).mpr (lateUnharmed valid)

/-- A context with an event of the given time stamp. -/
def eventAt (timestamp : Int64) : PolicyContext where
  event := { tenantId := "acme", entityId := "alice", timestamp }
  stageOutputs := []

/-- An event of age one nanosecond is older than the longest duration, and not
newer; and an event from the beginning of time is not late in the year 2023. -/
theorem time_comparisons_wrap :
    (valueAt (eventAt 0) 1 (.eventOlderThan 9223372036854775807) = some true ∧
      valueAt (eventAt 0) 1 (.eventNewerThan 9223372036854775807) =
        some false ∧
      (IngestStage.process {} (eventAt (-9223372036854775808)).event
        1700000000000000000 0).evaluatorResults = [IngestStage.validResult]) ∧
    ¬ ComparesExactly (eventAt 0) 1 9223372036854775807 9223372036854775807
      {} 0 := by
  refine ⟨by decide, fun compares => ?_⟩
  have older := compares.older
  revert older
  decide

end EventAge
end Stage
end Fre
