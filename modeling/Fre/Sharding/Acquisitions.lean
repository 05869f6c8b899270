import Fre.Sharding.TenantRouter

/-!
# What acquisitions cost

A burst takes the tokens of a fresh bucket one by one, as many as the
fixed-point capacity of the bucket holds.  `try_acquire` takes its token before
it looks at the concurrency cap, and on a rejection by the cap it gives back the
slot but not the token.
-/

namespace Fre
namespace Sharding

open Foundation

namespace TokenBucket

/-- The answers of a number of `try_consume` calls at one time. -/
def burst (bucket : TokenBucket) (nowNs : UInt64) : Nat → List Bool
  | 0 => []
  | count + 1 =>
      let consumed := bucket.tryConsume nowNs
      consumed.1 :: consumed.2.burst nowNs count

/-- The answers when exactly the first `capacity` calls succeed. -/
def wholeBurst (capacity : Int64) (count : Nat) : List Bool :=
  (List.range count).map fun index : Nat =>
    decide ((index : Int) < capacity.toInt)

/-- A call without time for a refill: it succeeds if there is a token, and
leaves one less for the calls after it. -/
theorem tryConsume_at_refill (bucket : TokenBucket) :
    ∃ left : Int64,
      bucket.tryConsume bucket.lastRefillNs =
        (decide (1024 ≤ bucket.tokens.toInt), { bucket with tokens := left }) ∧
      ∀ index : Nat, ((index : Int) + 1) * 1024 ≤ left.toInt ↔
        ((index : Int) + 2) * 1024 ≤ bucket.tokens.toInt := by
  have bound := bucket.tokens.toInt_lt
  have scale : bucket.tokens ≥ tokenScale ↔ 1024 ≤ bucket.tokens.toInt := by
    rw [ge_iff_le, Int64.le_iff_toInt_le, tokenScale_toInt]
  unfold tryConsume
  rw [refill_self]
  by_cases enough : 1024 ≤ bucket.tokens.toInt
  · have paid : (bucket.tokens - tokenScale).toInt =
        bucket.tokens.toInt - 1024 := by
      rw [FixedWidth.toInt_sub_of_fits] <;> rw [tokenScale_toInt] <;> omega
    refine ⟨bucket.tokens - tokenScale, ?_, fun index => ?_⟩
    · rw [if_pos (scale.mpr enough), decide_eq_true enough]
    · omega
  · refine ⟨bucket.tokens, ?_, fun index => ?_⟩
    · rw [if_neg (scale.not.mpr enough), decide_eq_false enough]
    · omega

/-- Without time for a refill, a call succeeds as long as the bucket holds a
token for it and for every call before it. -/
theorem burst_eq
    (bucket : TokenBucket)
    (count : Nat) :
    bucket.burst bucket.lastRefillNs count =
      (List.range count).map fun index : Nat =>
        decide (((index : Int) + 1) * 1024 ≤ bucket.tokens.toInt) := by
  induction count generalizing bucket with
  | zero => rfl
  | succ count inductionHypothesis =>
      obtain ⟨left, consumed, fewer⟩ := bucket.tryConsume_at_refill
      have rest := inductionHypothesis { bucket with tokens := left }
      dsimp only at rest
      rw [List.range_succ_eq_map, List.map_cons, List.map_map, burst, consumed]
      dsimp only
      rw [rest, List.cons.injEq]
      refine ⟨by simp, List.map_congr_left fun index _ => ?_⟩
      simp only [Function.comp_apply, Nat.cast_succ, decide_eq_decide, fewer]
      omega

/-- The whole capacity is available as a burst, at the time at which the bucket
is made, exactly when the capacity survives its scaling by 1024. -/
theorem whole_burst_available_iff
    (capacity tokensPerSecond : Int64)
    (nowNs : UInt64)
    (positive : 1 ≤ capacity.toInt) :
    (∀ count, (create capacity tokensPerSecond nowNs).burst nowNs count =
      wholeBurst capacity count) ↔ capacity.toInt < 2 ^ 53 := by
  have answers : ∀ count,
      (create capacity tokensPerSecond nowNs).burst nowNs count =
        (List.range count).map fun index : Nat =>
          decide (((index : Int) + 1) * 1024 ≤
            (create capacity tokensPerSecond nowNs).tokens.toInt) :=
    burst_eq (create capacity tokensPerSecond nowNs)
  constructor
  · intro whole
    have last := whole capacity.toInt.toNat
    have bound := (create capacity tokensPerSecond nowNs).tokens.toInt_lt
    rw [answers, wholeBurst, List.map_inj_left] at last
    have holds := last (capacity.toInt.toNat - 1)
      (List.mem_range.mpr (by omega))
    rw [decide_eq_decide] at holds
    omega
  · intro small count
    have product : (create capacity tokensPerSecond nowNs).tokens.toInt =
        capacity.toInt * 1024 := by
      change (capacity * tokenScale).toInt = _
      rw [FixedWidth.toInt_mul_of_fits] <;> rw [tokenScale_toInt] <;> omega
    rw [answers, wholeBurst]
    refine List.map_congr_left fun index _ => ?_
    rw [decide_eq_decide]
    omega

/-- A burst of ten, as in the default test, and the eleventh call. -/
theorem whole_burst_ten :
    (create 10 1 0).burst 0 11 = List.replicate 10 true ++ [false] :=
  (whole_burst_available_iff 10 1 0 (by decide)).mpr (by decide) 11

/-- A capacity of `2 ^ 54` is scaled to zero, and the first call fails. -/
theorem large_capacity_empty :
    1 ≤ (18014398509481984 : Int64).toInt ∧
      (create 18014398509481984 1 0).burst 0 1 ≠
        wholeBurst 18014398509481984 1 := by
  decide

end TokenBucket

namespace TenantState

/-- The bucket of a call that finds no token is only refilled. -/
theorem tryAcquire_of_short
    {state : TenantState}
    {nowNs : UInt64}
    (short : (state.bucket.refill nowNs).tokens < tokenScale)
    (tenantId : String) :
    state.tryAcquire tenantId nowNs = (.error ⟨.exhausted, tenantId⟩,
      { state with bucket := state.bucket.refill nowNs }) := by
  have consumed : state.bucket.tryConsume nowNs =
      (false, state.bucket.refill nowNs) := by
    unfold TokenBucket.tryConsume
    dsimp only
    rw [if_neg (by rwa [ge_iff_le, Int64.not_le])]
  unfold tryAcquire
  rw [consumed]
  rfl

/-- The bucket after a call that finds a token. -/
def charged (state : TenantState) (nowNs : UInt64) : TokenBucket :=
  { state.bucket.refill nowNs with
    tokens := (state.bucket.refill nowNs).tokens - tokenScale }

theorem charged_tokens_ne
    {state : TenantState}
    {nowNs : UInt64}
    (enough : ¬ (state.bucket.refill nowNs).tokens < tokenScale) :
    (state.charged nowNs).tokens ≠ (state.bucket.refill nowNs).tokens := by
  have bound := (state.bucket.refill nowNs).tokens.toInt_lt
  rw [Int64.lt_iff_toInt_lt, TokenBucket.tokenScale_toInt] at enough
  have paid : (state.charged nowNs).tokens.toInt =
      (state.bucket.refill nowNs).tokens.toInt - 1024 := by
    change ((state.bucket.refill nowNs).tokens - tokenScale).toInt = _
    rw [FixedWidth.toInt_sub_of_fits] <;>
      rw [TokenBucket.tokenScale_toInt] <;> omega
  intro same
  rw [same] at paid
  omega

/-- A call that finds a token pays it, whatever the cap says. -/
theorem tryAcquire_of_enough
    {state : TenantState}
    {nowNs : UInt64}
    (enough : ¬ (state.bucket.refill nowNs).tokens < tokenScale)
    (tenantId : String) :
    state.tryAcquire tenantId nowNs =
      if state.inFlight < state.maxConcurrent then
        (.ok (), { state with
          bucket := state.charged nowNs
          inFlight := state.inFlight + 1 })
      else
        (.error ⟨.concurrencyCapReached, tenantId⟩,
          { state with bucket := state.charged nowNs }) := by
  have consumed : state.bucket.tryConsume nowNs =
      (true, state.charged nowNs) := by
    unfold TokenBucket.tryConsume
    dsimp only
    rw [if_pos (by rwa [ge_iff_le, ← Int64.not_lt])]
    rfl
  have undone : state.inFlight + 1 - 1 = state.inFlight :=
    Int32.add_sub_cancel _ _
  unfold tryAcquire
  rw [consumed]
  dsimp only
  rw [if_neg (by simp), undone]
  by_cases free : state.inFlight < state.maxConcurrent
  · rw [if_pos free, if_neg (by rwa [ge_iff_le, Int32.not_le])]
  · rw [if_neg free, if_pos (by rwa [ge_iff_le, ← Int32.not_lt])]

end TenantState

namespace TenantRouter

/-- If the acquisition at this time is rejected, the tenant has afterwards the
slots it had before and the tokens that the refill alone gives. -/
def RejectionIsFree (router : TenantRouter) (tenantId : String)
    (createdNs nowNs : UInt64) (state : TenantState) : Prop :=
  ∀ error next,
    router.call (.tryAcquire tenantId createdNs nowNs) =
        some (.acquired (.error error), next) →
      ∃ after, next.tenants.lookup tenantId = some after ∧
        after.inFlight = state.inFlight ∧
        after.bucket.tokens = (state.bucket.refill nowNs).tokens

/-- What the call leaves in the table for a tenant that is there or is
created. -/
theorem call_tryAcquire
    {router found : TenantRouter}
    {tenantId : String}
    {createdNs : UInt64}
    {state : TenantState}
    (tenant : router.getOrCreateTenant tenantId createdNs = some (state, found))
    (nowNs : UInt64) :
    router.call (.tryAcquire tenantId createdNs nowNs) =
      some (.acquired (state.tryAcquire tenantId nowNs).1,
        found.setTenant tenantId (state.tryAcquire tenantId nowNs).2) := by
  rw [call, tenant]
  rfl

/-- A rejected acquisition costs nothing exactly when it is not the cap that
rejects it. -/
theorem rejection_is_free_iff
    {router found : TenantRouter}
    {tenantId : String}
    {createdNs : UInt64}
    {state : TenantState}
    (tenant : router.getOrCreateTenant tenantId createdNs = some (state, found))
    (nowNs : UInt64) :
    router.RejectionIsFree tenantId createdNs nowNs state ↔
      (state.bucket.refill nowNs).tokens < tokenScale ∨
        state.inFlight < state.maxConcurrent := by
  unfold RejectionIsFree
  rw [call_tryAcquire tenant]
  by_cases short : (state.bucket.refill nowNs).tokens < tokenScale
  · simp only [short, true_or, iff_true]
    rw [TenantState.tryAcquire_of_short short]
    intro error next called
    cases called
    exact ⟨_, AList.lookup_insert _, rfl, rfl⟩
  · simp only [short, false_or]
    rw [TenantState.tryAcquire_of_enough short]
    split
    next free =>
      simp only [free, iff_true]
      intro error next called
      cases called
    next full =>
      simp only [full, iff_false]
      intro isFree
      obtain ⟨after, entry, -, tokens⟩ := isFree _ _ rfl
      rw [setTenant, AList.lookup_insert, Option.some_inj] at entry
      rw [← entry] at tokens
      exact TenantState.charged_tokens_ne short tokens

/-- A tenant with a single token and no slot. -/
def fullTenant : TenantRouter :=
  .create (fun _ => 0) 64 {} { bucketCapacity := 1, maxConcurrent := 0 }

/-- Without a token in the bucket the rejection costs nothing. -/
theorem rejection_is_free_exhausted :
    (TenantRouter.create (fun _ => 0) 64 {}
      { bucketCapacity := 0 }).RejectionIsFree "acme" 0 0
        (.create [9, 15, 13, 8] { bucketCapacity := 0 } 0) := by
  have tenant : (TenantRouter.create (fun _ => 0) 64 {}
      { bucketCapacity := 0 }).getOrCreateTenant "acme" 0 =
        some (.create [9, 15, 13, 8] { bucketCapacity := 0 } 0, _) := rfl
  exact (rejection_is_free_iff tenant 0).mpr (.inl (by decide))

/-- The first call is rejected by the cap and takes the only token, so that the
second one is rejected for lack of tokens. -/
theorem capped_call_pays :
    (Unwinding.answers call fullTenant
        [.tryAcquire "acme" 0 0, .tryAcquire "acme" 0 0]).map
          (List.map fun answered => answered.2) =
      some [.acquired (.error ⟨.concurrencyCapReached, "acme"⟩),
        .acquired (.error ⟨.exhausted, "acme"⟩)] ∧
      ¬ fullTenant.RejectionIsFree "acme" 0 0
        (.create [9, 15, 13, 8] fullTenant.rateCfg 0) := by
  refine ⟨rfl, ?_⟩
  intro isFree
  obtain ⟨after, entry, -, tokens⟩ := isFree _ _ rfl
  rw [setTenant, AList.lookup_insert, Option.some_inj] at entry
  rw [← entry] at tokens
  exact absurd tokens (by decide)

end TenantRouter

end Sharding
end Fre
