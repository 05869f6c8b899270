import Fre.Foundation.FixedWidth
import Fre.Foundation.Machine
import Mathlib.Tactic.Linarith
import Mathlib.Tactic.Ring

/-!
# The per-tenant token bucket

`TokenBucket` keeps fixed-point tokens (1024 to a token) in 64-bit integers
and refills lazily.  The configured rate is turned once into an integer number
of fixed-point units per nanosecond, so everything below one unit per
nanosecond is lost.  This module has the bucket as one caller sees it: a call
of `try_consume` at a clock reading, with the arithmetic of the source.
-/

namespace Fre
namespace Sharding

open Foundation

/-- `TOKEN_SCALE`. -/
def tokenScale : Int64 := 1024

/-- `TokenBucket`, with the values of its two atomics. -/
structure TokenBucket where
  tokens : Int64
  lastRefillNs : UInt64
  capacityFp : Int64
  rateFpPerNs : Int64
  deriving DecidableEq, Repr

namespace TokenBucket

/-- The constructor, at clock reading `nowNs`. -/
def create (capacityTokens tokensPerSecond : Int64) (nowNs : UInt64) :
    TokenBucket where
  tokens := capacityTokens * tokenScale
  lastRefillNs := nowNs
  capacityFp := capacityTokens * tokenScale
  rateFpPerNs := tokensPerSecond * tokenScale / 1000000000

/-- The refill part of `try_consume`: skipped when no time has passed and when
the product is not positive. -/
def refill (bucket : TokenBucket) (nowNs : UInt64) : TokenBucket :=
  let elapsed := nowNs - bucket.lastRefillNs
  if elapsed = 0 then bucket
  else
    let add := elapsed.toInt64 * bucket.rateFpPerNs
    if add ≤ 0 then bucket
    else
      { bucket with
        lastRefillNs := nowNs
        tokens := min (bucket.tokens + add) bucket.capacityFp }

/-- `try_consume` at clock reading `nowNs`: refill, then take one token if
there is one. -/
def tryConsume (bucket : TokenBucket) (nowNs : UInt64) : Bool × TokenBucket :=
  let refilled := bucket.refill nowNs
  if refilled.tokens ≥ tokenScale then
    (true, { refilled with tokens := refilled.tokens - tokenScale })
  else (false, refilled)

/-- One call of `try_consume`, as a step of the bucket. -/
def step (bucket : TokenBucket) (nowNs : UInt64) : Option TokenBucket :=
  some (bucket.tryConsume nowNs).2

/-- The product in a call at `nowNs` stays within 64 bits. -/
def ProductFits (bucket : TokenBucket) (nowNs : UInt64) : Prop :=
  ((nowNs - bucket.lastRefillNs).toNat : Int) * bucket.rateFpPerNs.toInt <
    2 ^ 63

instance (bucket : TokenBucket) (nowNs : UInt64) :
    Decidable (ProductFits bucket nowNs) :=
  inferInstanceAs (Decidable (_ < _))

/-- The sum that a refill at `nowNs` clamps to the capacity, in unbounded
integers. -/
def unclamped (bucket : TokenBucket) (nowNs : UInt64) : Int :=
  bucket.tokens.toInt +
    ((nowNs - bucket.lastRefillNs).toNat : Int) * bucket.rateFpPerNs.toInt

/-- So does that sum. -/
def RefillFits (bucket : TokenBucket) (nowNs : UInt64) : Prop :=
  ProductFits bucket nowNs ∧ bucket.unclamped nowNs < 2 ^ 63

/-- States of a bucket built from a capacity and a rate and then used by any
number of calls whose products fit. -/
def Reachable (capacityTokens tokensPerSecond : Int64) (bucket : TokenBucket) :
    Prop :=
  ∃ startNs calls,
    Machine.RunMeets step ProductFits
        (create capacityTokens tokensPerSecond startNs) calls ∧
      Machine.run step (create capacityTokens tokensPerSecond startNs) calls =
        some bucket

/-- The truncated rate in fixed-point units per nanosecond. -/
def unitsPerNs (tokensPerSecond : Int) : Int :=
  tokensPerSecond * 1024 / 1000000000

/-- Nanoseconds in which the configured rate earns one token, rounded up. -/
def nsPerToken (tokensPerSecond : Int) : Int :=
  (1000000000 + tokensPerSecond - 1) / tokensPerSecond

/-- No elapsed time whose product with the truncated rate fits takes the sum
with a full bucket beyond 64 bits. -/
def SumsFit (capacityTokens tokensPerSecond : Int) : Prop :=
  ∀ elapsed : Nat, (elapsed : Int) * unitsPerNs tokensPerSecond < 2 ^ 63 →
    capacityTokens * 1024 + (elapsed : Int) * unitsPerNs tokensPerSecond <
      2 ^ 63

/-- Shape of a bucket of given capacity and rate: the fixed fields, and tokens
between zero and the capacity. -/
structure WellFormed
    (capacityTokens tokensPerSecond : Int)
    (bucket : TokenBucket) : Prop where
  capacity : bucket.capacityFp.toInt = capacityTokens * 1024
  rate : bucket.rateFpPerNs.toInt = unitsPerNs tokensPerSecond
  nonneg : 0 ≤ bucket.tokens.toInt
  capped : bucket.tokens.toInt ≤ capacityTokens * 1024

section Configured

variable {capacityTokens tokensPerSecond : Int64}

theorem tokenScale_toInt : tokenScale.toInt = 1024 := rfl

theorem unitsPerNs_nonneg {rate : Int} (nonneg : 0 ≤ rate) :
    0 ≤ unitsPerNs rate :=
  Int.ediv_nonneg (by omega) (by omega)

/-- The constructor gives a full bucket when its two products fit. -/
theorem wellFormed_create
    (capacityNonneg : 0 ≤ capacityTokens.toInt)
    (capacityFits : capacityTokens.toInt * 1024 < 2 ^ 63)
    (rateNonneg : 0 ≤ tokensPerSecond.toInt)
    (rateFits : tokensPerSecond.toInt * 1024 < 2 ^ 63)
    (startNs : UInt64) :
    WellFormed capacityTokens.toInt tokensPerSecond.toInt
        (create capacityTokens tokensPerSecond startNs) ∧
      (create capacityTokens tokensPerSecond startNs).tokens.toInt =
        capacityTokens.toInt * 1024 := by
  have capacityProduct : (capacityTokens * tokenScale).toInt =
      capacityTokens.toInt * 1024 := by
    rw [FixedWidth.toInt_mul_of_fits] <;> rw [tokenScale_toInt] <;> omega
  have rateProduct : (tokensPerSecond * tokenScale).toInt =
      tokensPerSecond.toInt * 1024 := by
    rw [FixedWidth.toInt_mul_of_fits] <;> rw [tokenScale_toInt] <;> omega
  have billion : (1000000000 : Int64).toInt = 1000000000 := rfl
  have rate : (tokensPerSecond * tokenScale / 1000000000).toInt =
      unitsPerNs tokensPerSecond.toInt := by
    rw [FixedWidth.toInt_div_of_nonneg (by omega) (by rw [billion]; omega),
      rateProduct, billion]
    rfl
  refine ⟨⟨capacityProduct, rate, ?_, ?_⟩, capacityProduct⟩
  · change 0 ≤ (capacityTokens * tokenScale).toInt
    omega
  · change (capacityTokens * tokenScale).toInt ≤ _
    omega

end Configured

section Refill

variable {capacityTokens tokensPerSecond : Int} {bucket : TokenBucket}
  {nowNs : UInt64}

/-- The elapsed time of a fitting product with a positive rate is a small
number. -/
theorem elapsed_small
    (positive : 0 < bucket.rateFpPerNs.toInt)
    (fits : ProductFits bucket nowNs) :
    (nowNs - bucket.lastRefillNs).toNat < 2 ^ 63 := by
  unfold ProductFits at fits
  have atLeast : ((nowNs - bucket.lastRefillNs).toNat : Int) ≤
      ((nowNs - bucket.lastRefillNs).toNat : Int) *
        bucket.rateFpPerNs.toInt :=
    le_mul_of_one_le_right (Int.natCast_nonneg _) positive
  omega

/-- A fitting product is exact. -/
theorem refill_product
    (positive : 0 < bucket.rateFpPerNs.toInt)
    (fits : ProductFits bucket nowNs) :
    ((nowNs - bucket.lastRefillNs).toInt64 * bucket.rateFpPerNs).toInt =
      ((nowNs - bucket.lastRefillNs).toNat : Int) *
        bucket.rateFpPerNs.toInt := by
  have small := FixedWidth.toInt_toInt64_of_lt (elapsed_small positive fits)
  have nonneg : 0 ≤ ((nowNs - bucket.lastRefillNs).toNat : Int) *
      bucket.rateFpPerNs.toInt :=
    Int.mul_nonneg (Int.natCast_nonneg _) positive.le
  rw [FixedWidth.toInt_mul_of_fits] <;> rw [small]
  · omega
  · exact fits

/-- A bucket whose rate was truncated to zero is never refilled. -/
theorem refill_of_rate_zero
    (zero : bucket.rateFpPerNs.toInt = 0) :
    bucket.refill nowNs = bucket := by
  have rateZero : bucket.rateFpPerNs = 0 := Int64.toInt_inj.mp zero
  unfold refill
  dsimp only
  split
  · rfl
  · rw [rateZero, Int64.mul_zero, if_pos (by decide)]

/-- A fitting refill adds the earned units, capped at the capacity. -/
theorem refill_tokens
    (wellFormed : WellFormed capacityTokens tokensPerSecond bucket)
    (rateNonneg : 0 ≤ unitsPerNs tokensPerSecond)
    (fits : RefillFits bucket nowNs) :
    (bucket.refill nowNs).tokens.toInt =
      min (bucket.tokens.toInt +
        ((nowNs - bucket.lastRefillNs).toNat : Int) *
          unitsPerNs tokensPerSecond) (capacityTokens * 1024) := by
  have capped := wellFormed.capped
  rw [← wellFormed.rate] at rateNonneg ⊢
  rcases rateNonneg.eq_or_lt with zero | positive
  · rw [refill_of_rate_zero zero.symm, ← zero]
    omega
  · have product := refill_product positive fits.1
    have sumFits := fits.2
    unfold unclamped at sumFits
    have nonneg := wellFormed.nonneg
    have productNonneg : 0 ≤ ((nowNs - bucket.lastRefillNs).toNat : Int) *
        bucket.rateFpPerNs.toInt :=
      Int.mul_nonneg (Int.natCast_nonneg _) positive.le
    unfold refill
    dsimp only
    split
    · next stopped =>
        rw [stopped]
        simp only [UInt64.toNat_zero, Int.ofNat_zero, Int.zero_mul]
        omega
    · split
      · next nothing =>
          rw [Int64.le_iff_toInt_le, product, Int64.toInt_zero] at nothing
          omega
      · rw [FixedWidth.toInt_min, FixedWidth.toInt_add_of_fits, product,
          wellFormed.capacity] <;> rw [product] <;> omega

theorem refill_capacityFp (bucket : TokenBucket) (nowNs : UInt64) :
    (bucket.refill nowNs).capacityFp = bucket.capacityFp := by
  unfold refill
  dsimp only
  split
  · rfl
  · split <;> rfl

theorem refill_rateFpPerNs (bucket : TokenBucket) (nowNs : UInt64) :
    (bucket.refill nowNs).rateFpPerNs = bucket.rateFpPerNs := by
  unfold refill
  dsimp only
  split
  · rfl
  · split <;> rfl

/-- A call succeeds exactly when the refilled bucket holds a whole token. -/
theorem tryConsume_fst_iff (bucket : TokenBucket) (nowNs : UInt64) :
    (bucket.tryConsume nowNs).1 = true ↔
      1024 ≤ (bucket.refill nowNs).tokens.toInt := by
  unfold tryConsume
  dsimp only
  rw [← tokenScale_toInt, ← Int64.le_iff_toInt_le]
  split
  · next enough => simpa using enough
  · next short => simpa using short

/-- A call whose product fits succeeds exactly when the sum is a whole token at
least and does not overflow. -/
theorem tryConsume_iff
    {bucket : TokenBucket}
    {nowNs : UInt64}
    (capacity : 1024 ≤ bucket.capacityFp.toInt)
    (rateNonneg : 0 ≤ bucket.rateFpPerNs.toInt)
    (fits : ProductFits bucket nowNs) :
    (bucket.tryConsume nowNs).1 = true ↔
      1024 ≤ bucket.unclamped nowNs ∧ bucket.unclamped nowNs < 2 ^ 63 := by
  have low := bucket.tokens.le_toInt
  have high := bucket.tokens.toInt_lt
  rw [tryConsume_fst_iff]
  unfold unclamped
  rcases rateNonneg.eq_or_lt with zero | positive
  · rw [refill_of_rate_zero zero.symm, ← zero, mul_zero, add_zero]
    exact (and_iff_left high).symm
  · have product := refill_product positive fits
    have productNonneg : 0 ≤ ((nowNs - bucket.lastRefillNs).toNat : Int) *
        bucket.rateFpPerNs.toInt :=
      Int.mul_nonneg (Int.natCast_nonneg _) positive.le
    unfold ProductFits at fits
    unfold refill
    dsimp only
    split
    next stopped =>
      rw [stopped, UInt64.toNat_zero, Int.ofNat_zero, zero_mul, add_zero]
      exact (and_iff_left high).symm
    next =>
      split
      next nothing =>
        rw [Int64.le_iff_toInt_le, product, Int64.toInt_zero] at nothing
        omega
      next =>
        rw [FixedWidth.toInt_min]
        by_cases sumFits : bucket.tokens.toInt +
            ((nowNs - bucket.lastRefillNs).toNat : Int) *
              bucket.rateFpPerNs.toInt < 2 ^ 63
        · rw [FixedWidth.toInt_add_of_fits, product] <;> omega
        · -- The sum wraps around to a negative number.
          rw [Int64.toInt_add, product,
            FixedWidth.bmod_two_pow_64_of_large (by omega) (by omega)]
          omega

/-- Every call whose refill fits keeps the bucket well formed. -/
theorem WellFormed.tryConsume
    (wellFormed : WellFormed capacityTokens tokensPerSecond bucket)
    (rateNonneg : 0 ≤ unitsPerNs tokensPerSecond)
    (capacityNonneg : 0 ≤ capacityTokens)
    (fits : RefillFits bucket nowNs) :
    WellFormed capacityTokens tokensPerSecond
      (bucket.tryConsume nowNs).2 := by
  have nonneg := wellFormed.nonneg
  have refilled := refill_tokens wellFormed rateNonneg fits
  have earned : 0 ≤ ((nowNs - bucket.lastRefillNs).toNat : Int) *
      unitsPerNs tokensPerSecond :=
    Int.mul_nonneg (Int.natCast_nonneg _) rateNonneg
  have bound := (bucket.refill nowNs).tokens.toInt_lt
  unfold TokenBucket.tryConsume
  dsimp only
  split
  · next enough =>
      rw [ge_iff_le, Int64.le_iff_toInt_le, tokenScale_toInt] at enough
      have consumed :
          ((bucket.refill nowNs).tokens - tokenScale).toInt =
            (bucket.refill nowNs).tokens.toInt - 1024 := by
        rw [FixedWidth.toInt_sub_of_fits] <;> rw [tokenScale_toInt] <;> omega
      refine ⟨?_, ?_, ?_, ?_⟩ <;> dsimp only
      · rw [refill_capacityFp, wellFormed.capacity]
      · rw [refill_rateFpPerNs, wellFormed.rate]
      · omega
      · omega
  · refine ⟨?_, ?_, ?_, ?_⟩ <;> dsimp only
    · rw [refill_capacityFp, wellFormed.capacity]
    · rw [refill_rateFpPerNs, wellFormed.rate]
    · omega
    · omega

end Refill

section Runs

variable {capacityTokens tokensPerSecond : Int64}

/-- In a well-formed bucket the sum of a refill fits with the product. -/
theorem WellFormed.refillFits
    {capacityTokens tokensPerSecond : Int}
    {bucket : TokenBucket}
    (wellFormed : WellFormed capacityTokens tokensPerSecond bucket)
    (sumsFit : SumsFit capacityTokens tokensPerSecond)
    {nowNs : UInt64}
    (fits : ProductFits bucket nowNs) :
    RefillFits bucket nowNs := by
  refine ⟨fits, ?_⟩
  have capped := wellFormed.capped
  unfold unclamped
  unfold ProductFits at fits
  rw [wellFormed.rate] at fits ⊢
  have full := sumsFit _ fits
  omega

/-- When no sum overflows, every reachable bucket is well formed. -/
theorem wellFormed_of_reachable
    (capacityNonneg : 0 ≤ capacityTokens.toInt)
    (capacityFits : capacityTokens.toInt * 1024 < 2 ^ 63)
    (rateNonneg : 0 ≤ tokensPerSecond.toInt)
    (rateFits : tokensPerSecond.toInt * 1024 < 2 ^ 63)
    (sumsFit : SumsFit capacityTokens.toInt tokensPerSecond.toInt)
    {bucket : TokenBucket}
    (reachable : Reachable capacityTokens tokensPerSecond bucket) :
    WellFormed capacityTokens.toInt tokensPerSecond.toInt bucket := by
  obtain ⟨startNs, calls, meets, ran⟩ := reachable
  refine Machine.invariant_of_run_of_meets ?_
    (wellFormed_create capacityNonneg capacityFits rateNonneg rateFits
      startNs).1 meets ran
  intro state nowNs next wellFormed fits stepped
  rw [step, Option.some.injEq] at stepped
  subst next
  exact wellFormed.tryConsume (unitsPerNs_nonneg rateNonneg) capacityNonneg
    (wellFormed.refillFits sumsFit fits)

/-- Every call keeps the capacity and the rate. -/
theorem tryConsume_fixed (bucket : TokenBucket) (nowNs : UInt64) :
    (bucket.tryConsume nowNs).2.capacityFp = bucket.capacityFp ∧
      (bucket.tryConsume nowNs).2.rateFpPerNs = bucket.rateFpPerNs := by
  unfold tryConsume
  dsimp only
  split <;> exact ⟨refill_capacityFp bucket nowNs, refill_rateFpPerNs bucket nowNs⟩

/-- Every reachable bucket has the capacity and the rate it was built with. -/
theorem fixed_of_reachable
    (capacityNonneg : 0 ≤ capacityTokens.toInt)
    (capacityFits : capacityTokens.toInt * 1024 < 2 ^ 63)
    (rateNonneg : 0 ≤ tokensPerSecond.toInt)
    (rateFits : tokensPerSecond.toInt * 1024 < 2 ^ 63)
    {bucket : TokenBucket}
    (reachable : Reachable capacityTokens tokensPerSecond bucket) :
    bucket.capacityFp.toInt = capacityTokens.toInt * 1024 ∧
      bucket.rateFpPerNs.toInt = unitsPerNs tokensPerSecond.toInt := by
  obtain ⟨startNs, calls, -, ran⟩ := reachable
  have built := (wellFormed_create capacityNonneg capacityFits rateNonneg
    rateFits startNs).1
  refine @Machine.invariant_of_run _ _ step
    (fun state => state.capacityFp.toInt = capacityTokens.toInt * 1024 ∧
      state.rateFpPerNs.toInt = unitsPerNs tokensPerSecond.toInt)
    ?_ _ _ _ ⟨built.capacity, built.rate⟩ ran
  intro state nowNs next fixed stepped
  rw [step, Option.some.injEq] at stepped
  subst next
  have kept := tryConsume_fixed state nowNs
  rwa [kept.1, kept.2]

/-- A refill at the time of the last one does nothing. -/
theorem refill_self (bucket : TokenBucket) :
    bucket.refill bucket.lastRefillNs = bucket := by
  unfold refill
  rw [UInt64.sub_self]
  rfl

/-- A call at the time of the last refill takes one token of a bucket that has
one, and its product fits. -/
theorem tryConsume_self
    {bucket : TokenBucket}
    (enough : 1024 ≤ bucket.tokens.toInt) :
    ProductFits bucket bucket.lastRefillNs ∧
      step bucket bucket.lastRefillNs =
        some { bucket with tokens := bucket.tokens - tokenScale } := by
  constructor
  · unfold ProductFits
    rw [UInt64.sub_self]
    simp only [UInt64.toNat_zero, Int.ofNat_zero, Int.zero_mul]
    decide
  · unfold step TokenBucket.tryConsume
    dsimp only
    rw [refill_self, if_pos]
    rw [ge_iff_le, Int64.le_iff_toInt_le, tokenScale_toInt]
    exact enough

/-- Calls at the time of the last refill can use up every token. -/
theorem exists_drained
    (count : Nat)
    (bucket : TokenBucket)
    (holds : bucket.tokens.toInt = count * 1024) :
    ∃ calls, Machine.RunMeets step ProductFits bucket calls ∧
      Machine.run step bucket calls = some { bucket with tokens := 0 } := by
  induction count generalizing bucket with
  | zero =>
      refine ⟨[], trivial, ?_⟩
      have empty : bucket.tokens = 0 :=
        Int64.toInt_inj.mp (by rw [holds]; rfl)
      rw [Machine.run_nil, ← empty]
  | succ count inductionHypothesis =>
      have bound := bucket.tokens.toInt_lt
      have enough : 1024 ≤ bucket.tokens.toInt := by omega
      obtain ⟨fits, stepped⟩ := tryConsume_self enough
      have consumed : (bucket.tokens - tokenScale).toInt = count * 1024 := by
        rw [FixedWidth.toInt_sub_of_fits] <;> rw [tokenScale_toInt] <;> omega
      obtain ⟨calls, meets, ran⟩ := inductionHypothesis
        { bucket with tokens := bucket.tokens - tokenScale } consumed
      refine ⟨bucket.lastRefillNs :: calls, ⟨fits, ?_⟩, ?_⟩
      · intro next nextStepped
        rw [stepped, Option.some.injEq] at nextStepped
        exact nextStepped ▸ meets
      · rw [Machine.run_cons_eq_some_iff]
        exact ⟨_, stepped, ran⟩

/-- Some reachable bucket is empty, with its last refill at time zero. -/
theorem reachable_empty
    (capacityNonneg : 0 ≤ capacityTokens.toInt)
    (capacityFits : capacityTokens.toInt * 1024 < 2 ^ 63)
    (rateNonneg : 0 ≤ tokensPerSecond.toInt)
    (rateFits : tokensPerSecond.toInt * 1024 < 2 ^ 63) :
    Reachable capacityTokens tokensPerSecond
      { create capacityTokens tokensPerSecond 0 with tokens := 0 } := by
  have full := (wellFormed_create capacityNonneg capacityFits rateNonneg
    rateFits 0).2
  obtain ⟨calls, meets, ran⟩ :=
    exists_drained capacityTokens.toInt.toNat
      (create capacityTokens tokensPerSecond 0) (by omega)
  exact ⟨0, calls, meets, ran⟩

theorem nsPerToken_bounds {rate : Int} (positive : 1 ≤ rate) :
    1 ≤ nsPerToken rate ∧ nsPerToken rate * rate ≤ 1000000000 + rate - 1 ∧
      nsPerToken rate ≤ 1000000000 := by
  unfold nsPerToken
  refine ⟨?_, Int.ediv_mul_le _ (by omega), ?_⟩
  · rw [Int.le_ediv_iff_mul_le (by omega)]
    omega
  · refine Int.le_of_lt_add_one ((Int.ediv_lt_iff_lt_mul (by omega)).2 ?_)
    nlinarith

/-- One token's worth of waiting never overflows the product. -/
theorem nsPerToken_mul_unitsPerNs_lt
    {rate : Int}
    (positive : 1 ≤ rate)
    (rateFits : rate * 1024 < 2 ^ 63) :
    nsPerToken rate * unitsPerNs rate < 2 ^ 63 := by
  obtain ⟨waitPositive, waitBound, _⟩ := nsPerToken_bounds positive
  have unitsBound : unitsPerNs rate * 1000000000 ≤ rate * 1024 :=
    Int.ediv_mul_le _ (by omega)
  have scaled : nsPerToken rate * unitsPerNs rate * 1000000000 ≤
      1024 * (1000000000 + rate - 1) := by
    calc
      nsPerToken rate * unitsPerNs rate * 1000000000 =
          nsPerToken rate * (unitsPerNs rate * 1000000000) := by ring
      _ ≤ nsPerToken rate * (rate * 1024) :=
        Int.mul_le_mul_of_nonneg_left unitsBound (by omega)
      _ = 1024 * (nsPerToken rate * rate) := by ring
      _ ≤ 1024 * (1000000000 + rate - 1) := by omega
  omega

section BuiltAtZero

variable
  (capacityNonneg : 0 ≤ capacityTokens.toInt)
  (capacityFits : capacityTokens.toInt * 1024 < 2 ^ 63)
  (rateNonneg : 0 ≤ tokensPerSecond.toInt)
  (rateFits : tokensPerSecond.toInt * 1024 < 2 ^ 63)
  {nowNs : UInt64}
  (fits : (nowNs.toNat : Int) * unitsPerNs tokensPerSecond.toInt < 2 ^ 63)

theorem elapsed_create (tokens : Int64) (nowNs : UInt64) :
    nowNs - ({ create capacityTokens tokensPerSecond 0 with
      tokens } : TokenBucket).lastRefillNs = nowNs := by
  change nowNs - 0 = nowNs
  rw [UInt64.sub_zero]

include capacityNonneg capacityFits rateNonneg rateFits fits

/-- The time of a call is the time since the last refill. -/
theorem productFits_create (tokens : Int64) :
    ProductFits { create capacityTokens tokensPerSecond 0 with tokens }
      nowNs := by
  have wellFormed := (wellFormed_create capacityNonneg capacityFits rateNonneg
    rateFits 0).1
  unfold ProductFits
  rw [elapsed_create]
  exact wellFormed.rate ▸ fits

/-- A call at such a bucket succeeds exactly when the sum of its tokens and of
what has been earned is a whole token at least and does not overflow. -/
theorem tryConsume_create_iff
    (capacityPositive : 1 ≤ capacityTokens.toInt)
    (tokens : Int64) :
    (({ create capacityTokens tokensPerSecond 0 with
      tokens } : TokenBucket).tryConsume nowNs).1 = true ↔
      1024 ≤ tokens.toInt +
          (nowNs.toNat : Int) * unitsPerNs tokensPerSecond.toInt ∧
        tokens.toInt +
          (nowNs.toNat : Int) * unitsPerNs tokensPerSecond.toInt < 2 ^ 63 := by
  have wellFormed := (wellFormed_create capacityNonneg capacityFits rateNonneg
    rateFits 0).1
  have capacity := wellFormed.capacity
  have rate := wellFormed.rate
  have decided := @tryConsume_iff
    { create capacityTokens tokensPerSecond 0 with tokens } nowNs
    (by dsimp only; omega)
    (by dsimp only; rw [rate]; exact unitsPerNs_nonneg rateNonneg)
    (productFits_create capacityNonneg capacityFits rateNonneg rateFits fits
      tokens)
  unfold unclamped at decided
  rw [elapsed_create, rate] at decided
  exact decided

end BuiltAtZero

/-- With a product of the waiting time that fits, a sum that overflows does so
after some time that is long enough. -/
theorem exists_overflow_after
    {capacityTokens tokensPerSecond wait : Int}
    (rateNonneg : 0 ≤ unitsPerNs tokensPerSecond)
    (waitNonneg : 0 ≤ wait)
    (waitFits : wait * unitsPerNs tokensPerSecond < 2 ^ 63)
    (overflows : ¬ SumsFit capacityTokens tokensPerSecond) :
    ∃ elapsed : Nat, wait ≤ elapsed ∧
      (elapsed : Int) * unitsPerNs tokensPerSecond < 2 ^ 63 ∧
      2 ^ 63 ≤ capacityTokens * 1024 +
        (elapsed : Int) * unitsPerNs tokensPerSecond := by
  simp only [SumsFit, not_forall, not_lt] at overflows
  obtain ⟨elapsed, fits, tooLarge⟩ := overflows
  by_cases late : wait ≤ elapsed
  · exact ⟨elapsed, late, fits, tooLarge⟩
  · have whole : (wait.toNat : Int) = wait := Int.toNat_of_nonneg waitNonneg
    have more : (elapsed : Int) * unitsPerNs tokensPerSecond ≤
        wait * unitsPerNs tokensPerSecond :=
      Int.mul_le_mul_of_nonneg_right (by omega) rateNonneg
    refine ⟨wait.toNat, whole.ge, ?_, ?_⟩
    · rw [whole]
      exact waitFits
    · rw [whole]
      omega

theorem toNat_ofNat_of_small {elapsed : Nat} (small : (elapsed : Int) < 2 ^ 64) :
    ((UInt64.ofNat elapsed).toNat : Int) = elapsed := by
  rw [UInt64.toNat_ofNat_of_lt' (by change _ < 2 ^ 64; omega)]

section Waiting

variable
  (capacityPositive : 1 ≤ capacityTokens.toInt)
  (capacityFits : capacityTokens.toInt * 1024 < 2 ^ 63)
  (ratePositive : 1 ≤ tokensPerSecond.toInt)
  (rateFits : tokensPerSecond.toInt * 1024 < 2 ^ 63)

include capacityPositive capacityFits ratePositive rateFits

/-- At every reachable bucket the call succeeds exactly when the sum is a whole
token at least and does not overflow. -/
theorem tryConsume_iff_of_reachable
    {bucket : TokenBucket}
    (reachable : Reachable capacityTokens tokensPerSecond bucket)
    {nowNs : UInt64}
    (fits : ProductFits bucket nowNs) :
    (bucket.tryConsume nowNs).1 = true ↔
      1024 ≤ bucket.unclamped nowNs ∧ bucket.unclamped nowNs < 2 ^ 63 := by
  obtain ⟨capacity, rate⟩ := fixed_of_reachable (by omega) capacityFits
    (by omega) rateFits reachable
  have rateNonneg : 0 ≤ unitsPerNs tokensPerSecond.toInt :=
    unitsPerNs_nonneg (by omega)
  exact tryConsume_iff (by omega) (by omega) fits

section Succeeding

variable
  (succeeds : ∀ bucket, Reachable capacityTokens tokensPerSecond bucket →
    ∀ nowNs : UInt64,
      nsPerToken tokensPerSecond.toInt ≤
          (nowNs.toNat : Int) - bucket.lastRefillNs.toNat →
        ProductFits bucket nowNs → (bucket.tryConsume nowNs).1 = true)

include succeeds

/-- A bucket that was used up shows that the truncated rate earns a token. -/
theorem earns_of_succeeds :
    1024 ≤ nsPerToken tokensPerSecond.toInt *
      unitsPerNs tokensPerSecond.toInt := by
  have capacityNonneg : 0 ≤ capacityTokens.toInt := by omega
  have rateNonneg : 0 ≤ tokensPerSecond.toInt := by omega
  obtain ⟨waitPositive, -, waitSmall⟩ := nsPerToken_bounds ratePositive
  have fits := nsPerToken_mul_unitsPerNs_lt ratePositive rateFits
  have wait := @toNat_ofNat_of_small (nsPerToken tokensPerSecond.toInt).toNat
    (by omega)
  rw [Int.toNat_of_nonneg (by omega)] at wait
  rw [← wait] at fits
  have success := succeeds _
    (reachable_empty capacityNonneg capacityFits rateNonneg rateFits) _
    (by rw [wait]; change _ ≤ _ - ((0 : Nat) : Int); omega)
    (productFits_create capacityNonneg capacityFits rateNonneg rateFits fits 0)
  rw [tryConsume_create_iff capacityNonneg capacityFits rateNonneg rateFits
    fits capacityPositive, Int64.toInt_zero, zero_add, wait] at success
  exact success.1

/-- A full bucket shows that no sum overflows. -/
theorem sumsFit_of_succeeds :
    SumsFit capacityTokens.toInt tokensPerSecond.toInt := by
  have capacityNonneg : 0 ≤ capacityTokens.toInt := by omega
  have rateNonneg : 0 ≤ tokensPerSecond.toInt := by omega
  obtain ⟨waitPositive, -, -⟩ := nsPerToken_bounds ratePositive
  have earns := earns_of_succeeds capacityPositive capacityFits ratePositive
    rateFits succeeds
  have unitsNonneg := unitsPerNs_nonneg rateNonneg
  have unitsPositive : 1 ≤ unitsPerNs tokensPerSecond.toInt := by
    by_contra notPositive
    rw [show unitsPerNs tokensPerSecond.toInt = 0 by omega] at earns
    omega
  by_contra overflows
  obtain ⟨elapsed, late, fits, tooLarge⟩ := exists_overflow_after unitsNonneg
    (by omega) (nsPerToken_mul_unitsPerNs_lt ratePositive rateFits) overflows
  have small : (elapsed : Int) ≤
      (elapsed : Int) * unitsPerNs tokensPerSecond.toInt :=
    le_mul_of_one_le_right (Int.natCast_nonneg _) unitsPositive
  have time := toNat_ofNat_of_small (show (elapsed : Int) < 2 ^ 64 by omega)
  rw [← time] at fits tooLarge
  have success := succeeds (create capacityTokens tokensPerSecond 0)
    ⟨0, [], trivial, rfl⟩ (UInt64.ofNat elapsed)
    (by rw [time]; change _ ≤ _ - ((0 : Nat) : Int); omega)
    (productFits_create capacityNonneg capacityFits rateNonneg rateFits fits _)
  have full := (wellFormed_create capacityNonneg capacityFits rateNonneg
    rateFits 0).2
  have sumFits := ((tryConsume_create_iff capacityNonneg capacityFits
    rateNonneg rateFits fits capacityPositive
    (create capacityTokens tokensPerSecond 0).tokens).mp success).2
  omega

end Succeeding

/-- At a reachable bucket and any time a call succeeds exactly when the sum of
the tokens and of what the truncated rate has earned is a whole token at least
and does not overflow.  So every caller that has waited for one token's worth of
time succeeds, exactly when the truncated rate earns a whole token in that time
and the sum with a full bucket never overflows. -/
theorem tryConsume_after_wait_iff :
    (∀ bucket, Reachable capacityTokens tokensPerSecond bucket →
      ∀ nowNs : UInt64, ProductFits bucket nowNs →
        ((bucket.tryConsume nowNs).1 = true ↔
          1024 ≤ bucket.unclamped nowNs ∧ bucket.unclamped nowNs < 2 ^ 63)) ∧
    ((∀ bucket, Reachable capacityTokens tokensPerSecond bucket →
      ∀ nowNs : UInt64,
        nsPerToken tokensPerSecond.toInt ≤
            (nowNs.toNat : Int) - bucket.lastRefillNs.toNat →
          ProductFits bucket nowNs → (bucket.tryConsume nowNs).1 = true) ↔
      1024 ≤ nsPerToken tokensPerSecond.toInt *
          unitsPerNs tokensPerSecond.toInt ∧
        SumsFit capacityTokens.toInt tokensPerSecond.toInt) := by
  have atEveryTime := @tryConsume_iff_of_reachable _ _ capacityPositive
    capacityFits ratePositive rateFits
  refine ⟨fun bucket reachable nowNs fits => atEveryTime reachable fits, ?_, ?_⟩
  · intro succeeds
    exact ⟨earns_of_succeeds capacityPositive capacityFits ratePositive rateFits
        succeeds,
      sumsFit_of_succeeds capacityPositive capacityFits ratePositive rateFits
        succeeds⟩
  · rintro ⟨earns, sumsFit⟩ bucket reachable nowNs waited fits
    have wellFormed := wellFormed_of_reachable (by omega) capacityFits
      (by omega) rateFits sumsFit reachable
    have nonneg := wellFormed.nonneg
    obtain ⟨waitPositive, -, -⟩ := nsPerToken_bounds ratePositive
    have elapsed : ((nowNs - bucket.lastRefillNs).toNat : Int) =
        (nowNs.toNat : Int) - bucket.lastRefillNs.toNat := by
      rw [FixedWidth.toNat_sub_of_le (by omega)]
      omega
    have earned : nsPerToken tokensPerSecond.toInt *
          unitsPerNs tokensPerSecond.toInt ≤
        ((nowNs - bucket.lastRefillNs).toNat : Int) *
          unitsPerNs tokensPerSecond.toInt :=
      Int.mul_le_mul_of_nonneg_right (by omega) (unitsPerNs_nonneg (by omega))
    refine (atEveryTime reachable fits).mpr
      ⟨?_, (wellFormed.refillFits sumsFit fits).2⟩
    unfold unclamped
    rw [wellFormed.rate]
    omega

end Waiting

/-- At three thousand million tokens a second every nanosecond earns three
tokens, and no sum with one token overflows: the token that was used up at time
zero is there again a nanosecond later. -/
theorem tryConsume_after_wait_nanosecond :
    ((create 1 3000000000 0).tryConsume 0).2.tokens = 0 ∧
      (((create 1 3000000000 0).tryConsume 0).2.tryConsume 1).1 = true := by
  have reachable : Reachable 1 3000000000
      ((create 1 3000000000 0).tryConsume 0).2 :=
    ⟨0, [0], ⟨by decide, fun _ _ => trivial⟩, rfl⟩
  have capacityPositive : 1 ≤ (1 : Int64).toInt := by decide
  have ratePositive : 1 ≤ (3000000000 : Int64).toInt := by decide
  have units : unitsPerNs (3000000000 : Int64).toInt = 3072 := by decide
  have sumsFit : SumsFit (1 : Int64).toInt (3000000000 : Int64).toInt := by
    intro elapsed fits
    rw [units] at fits ⊢
    change 1 * 1024 + (elapsed : Int) * 3072 < 2 ^ 63
    omega
  refine ⟨by decide, ?_⟩
  exact (tryConsume_after_wait_iff capacityPositive (by decide) ratePositive
    (by decide)).2.mpr ⟨by decide, sumsFit⟩ _ reachable 1 (by decide) (by decide)

/-- At the default rate of 500 tokens a second a bucket of one token, used up
at time zero, is still empty an hour later; and a full bucket of `2 ^ 52` tokens
refuses a call after `2 ^ 52` nanoseconds at a thousand million tokens a
second. -/
theorem tryConsume_after_hour_fails :
    (∃ bucket nowNs, Reachable 1 500 bucket ∧
      nsPerToken (500 : Int64).toInt ≤
        (nowNs.toNat : Int) - bucket.lastRefillNs.toNat ∧
      ProductFits bucket nowNs ∧ (bucket.tryConsume nowNs).1 = false) ∧
    ∃ bucket nowNs, Reachable 4503599627370496 1000000000 bucket ∧
      nsPerToken (1000000000 : Int64).toInt ≤
        (nowNs.toNat : Int) - bucket.lastRefillNs.toNat ∧
      ProductFits bucket nowNs ∧ (bucket.tryConsume nowNs).1 = false := by
  constructor
  · refine ⟨((create 1 500 0).tryConsume 0).2, 3600000000000,
      ⟨0, [0], ⟨?_, fun _ _ => trivial⟩, rfl⟩, ?_, ?_, ?_⟩
    · decide
    · decide
    · decide
    · decide
  · refine ⟨create 4503599627370496 1000000000 0, 4503599627370496,
      ⟨0, [], trivial, rfl⟩, ?_, ?_, ?_⟩
    · decide
    · decide
    · decide

end Runs

end TokenBucket
end Sharding
end Fre
