import Fre.Foundation.Threads
import Fre.Sharding.TokenBucket

/-!
# The token bucket under contention

`try_consume` refills and consumes in two loops over two atomics, and any
number of callers go through them at once.  Every load and every
`compare_exchange_weak` is a step of its own, and an exchange may fail for no
reason.  A caller whose clock reading is older than the last refill sees a
difference that has wrapped around; read as a signed number it is negative, so
nothing is added.
-/

namespace Fre
namespace Sharding
namespace BucketContention

open Foundation TokenBucket

/-- Where a call of `try_consume` stands: before the load of the last refill,
at the exchange that claims the elapsed time, before the load and at the
exchange of the refill, before the load and at the exchange that consumes. -/
inductive Phase
  | loadRefill
  | refilling (prevNs : UInt64)
  | loadTokens (add : Int64)
  | adding (add cur : Int64)
  | loadConsume
  | consuming (cur : Int64)
  | returned (consumed : Bool)
  deriving DecidableEq, Repr

/-- One call, with its clock reading. -/
structure Call where
  nowNs : UInt64
  phase : Phase := .loadRefill
  deriving DecidableEq, Repr

/-- The bucket and the calls in order of invocation. -/
structure System where
  bucket : TokenBucket
  calls : List Call
  deriving DecidableEq, Repr

/-- What can happen next.  An exchange fails spuriously if the step says
so. -/
inductive Action
  | call (nowNs : UInt64)
  | advance (index : Nat) (spurious : Bool)
  deriving DecidableEq, Repr

/-- The next step of a call: where it stands afterwards, and the bucket. -/
def Call.advance (call : Call) (spurious : Bool) (bucket : TokenBucket) :
    Phase × TokenBucket :=
  match call.phase with
  | .loadRefill => (.refilling bucket.lastRefillNs, bucket)
  | .refilling prevNs =>
      let elapsed := call.nowNs - prevNs
      if elapsed = 0 then (.loadConsume, bucket)
      else
        let add := elapsed.toInt64 * bucket.rateFpPerNs
        if add ≤ 0 then (.loadConsume, bucket)
        else if bucket.lastRefillNs = prevNs ∧ spurious = false then
          (.loadTokens add, { bucket with lastRefillNs := call.nowNs })
        else (.refilling bucket.lastRefillNs, bucket)
  | .loadTokens add => (.adding add bucket.tokens, bucket)
  | .adding add cur =>
      if bucket.tokens = cur ∧ spurious = false then
        (.loadConsume,
          { bucket with tokens := min (cur + add) bucket.capacityFp })
      else (.adding add bucket.tokens, bucket)
  | .loadConsume => (.consuming bucket.tokens, bucket)
  | .consuming cur =>
      if cur ≥ tokenScale then
        if bucket.tokens = cur ∧ spurious = false then
          (.returned true, { bucket with tokens := cur - tokenScale })
        else (.consuming bucket.tokens, bucket)
      else (.returned false, bucket)
  | .returned consumed => (.returned consumed, bucket)

/-- The call has returned. -/
def Call.hasReturned (call : Call) : Bool :=
  match call.phase with
  | .returned _ => true
  | _ => false

/-- The call has returned true. -/
def Call.hasConsumed (call : Call) : Bool :=
  call.phase = .returned true

/-- One step of the system. -/
def step (system : System) : Action → Option System
  | .call nowNs =>
      some { system with calls := system.calls ++ [{ nowNs }] }
  | .advance index spurious =>
      match system.calls[index]? with
      | none => none
      | some call =>
          if call.hasReturned then none
          else
            let reached := call.advance spurious system.bucket
            some {
              bucket := reached.2
              calls := system.calls.set index
                { call with phase := reached.1 } }

/-- A new bucket and no call. -/
def System.initial
    (capacityTokens tokensPerSecond : Int64)
    (startNs : UInt64) : System where
  bucket := create capacityTokens tokensPerSecond startNs
  calls := []

/-- Number of calls that have returned true. -/
def System.consumed (system : System) : Nat :=
  system.calls.countP Call.hasConsumed

/-- The latest clock reading used, the one of the construction included. -/
def System.latestNs (system : System) (startNs : UInt64) : Nat :=
  (system.calls.map fun call => call.nowNs.toNat).foldr max startNs.toNat

/-! ## Overflow -/

/-- The product of the exact elapsed time and the rate fits into 64 bits. -/
def Phase.ProductFits (bucket : TokenBucket) (nowNs : UInt64) : Phase → Prop
  | .refilling prevNs =>
      -2 ^ 63 ≤ ((nowNs.toNat : Int) - prevNs.toNat) *
          bucket.rateFpPerNs.toInt ∧
        ((nowNs.toNat : Int) - prevNs.toNat) *
          bucket.rateFpPerNs.toInt < 2 ^ 63
  | _ => True

/-- The sum that is clamped to the capacity fits into 64 bits. -/
def Phase.SumFits : Phase → Prop
  | .adding add cur => cur.toInt + add.toInt < 2 ^ 63
  | _ => True

instance (bucket : TokenBucket) (nowNs : UInt64) (phase : Phase) :
    Decidable (phase.ProductFits bucket nowNs) :=
  match phase with
  | .refilling _ => inferInstanceAs (Decidable (_ ∧ _))
  | .loadRefill => .isTrue trivial
  | .loadTokens _ => .isTrue trivial
  | .adding _ _ => .isTrue trivial
  | .loadConsume => .isTrue trivial
  | .consuming _ => .isTrue trivial
  | .returned _ => .isTrue trivial

instance (phase : Phase) : Decidable phase.SumFits :=
  match phase with
  | .adding _ _ => inferInstanceAs (Decidable (_ < _))
  | .loadRefill => .isTrue trivial
  | .refilling _ => .isTrue trivial
  | .loadTokens _ => .isTrue trivial
  | .loadConsume => .isTrue trivial
  | .consuming _ => .isTrue trivial
  | .returned _ => .isTrue trivial

/-- The products of a call fit. -/
def Call.ProductFits (bucket : TokenBucket) (call : Call) : Prop :=
  call.phase.ProductFits bucket call.nowNs

/-- The sums of a call fit. -/
def Call.SumFits (_ : TokenBucket) (call : Call) : Prop :=
  call.phase.SumFits

instance (bucket : TokenBucket) (call : Call) :
    Decidable (call.ProductFits bucket) :=
  inferInstanceAs (Decidable (call.phase.ProductFits bucket call.nowNs))

instance (bucket : TokenBucket) (call : Call) :
    Decidable (call.SumFits bucket) :=
  inferInstanceAs (Decidable call.phase.SumFits)

/-- A condition on the call that takes the step. -/
def AtStep
    (condition : TokenBucket → Call → Prop)
    (system : System) : Action → Prop
  | .call _ => True
  | .advance index _ =>
      ∀ call ∈ system.calls[index]?, condition system.bucket call

instance
    (condition : TokenBucket → Call → Prop)
    [∀ bucket call, Decidable (condition bucket call)]
    (system : System)
    (action : Action) :
    Decidable (AtStep condition system action) :=
  match action with
  | .call _ => .isTrue trivial
  | .advance index _ =>
      inferInstanceAs (Decidable
        (∀ call ∈ system.calls[index]?, condition system.bucket call))

/-! ## What one step of a call does -/

/-- A positive product that fits is exact, and the reading is later than the
refill it is compared with. -/
theorem add_exact
    {nowNs prevNs : UInt64}
    {rate : Int64}
    (rateNonneg : 0 ≤ rate.toInt)
    (low : -2 ^ 63 ≤ ((nowNs.toNat : Int) - prevNs.toNat) * rate.toInt)
    (high : ((nowNs.toNat : Int) - prevNs.toNat) * rate.toInt < 2 ^ 63)
    (positive : ¬(nowNs - prevNs).toInt64 * rate ≤ 0) :
    ((nowNs - prevNs).toInt64 * rate).toInt =
        ((nowNs.toNat : Int) - prevNs.toNat) * rate.toInt ∧
      prevNs.toNat < nowNs.toNat := by
  have rateNonzero : rate.toInt ≠ 0 := by
    intro zero
    have rateZero : rate = 0 := Int64.toInt_inj.mp zero
    rw [rateZero, Int64.mul_zero] at positive
    exact positive (by decide)
  have ratePositive : 1 ≤ rate.toInt := by omega
  have elapsed : (nowNs - prevNs).toInt64.toInt =
      (nowNs.toNat : Int) - prevNs.toNat := by
    apply FixedWidth.toInt_toInt64_sub_of_fits
    · nlinarith
    · nlinarith
  have product : ((nowNs - prevNs).toInt64 * rate).toInt =
      ((nowNs.toNat : Int) - prevNs.toNat) * rate.toInt := by
    rw [FixedWidth.toInt_mul_of_fits] <;> rw [elapsed]
    · exact low
    · exact high
  refine ⟨product, ?_⟩
  rw [Int64.le_iff_toInt_le, product, Int64.toInt_zero, not_le] at positive
  have later := (mul_pos_iff_of_pos_right ratePositive).mp positive
  omega

/-- Fixed-point units that a call has taken out of the elapsed time or out of
the bucket: a refill it has claimed and not added yet, or the token it has
consumed. -/
def Phase.holds : Phase → Int
  | .loadTokens add => add.toInt
  | .adding add _ => add.toInt
  | .returned true => 1024
  | _ => 0

/-- The four things a step of a call can do: nothing to the bucket, claim the
elapsed time, add what was claimed, or consume a token. -/
theorem advance_cases
    (call : Call)
    (spurious : Bool)
    {bucket : TokenBucket}
    (rateNonneg : 0 ≤ bucket.rateFpPerNs.toInt)
    (productFits : call.ProductFits bucket)
    (running : call.hasReturned = false) :
    ((call.advance spurious bucket).2 = bucket ∧
        (call.advance spurious bucket).1.holds = call.phase.holds) ∨
      (∃ add : Int64, call.phase.holds = 0 ∧
        bucket.lastRefillNs.toNat < call.nowNs.toNat ∧
        add.toInt = ((call.nowNs.toNat : Int) - bucket.lastRefillNs.toNat) *
          bucket.rateFpPerNs.toInt ∧
        call.advance spurious bucket =
          (.loadTokens add, { bucket with lastRefillNs := call.nowNs })) ∨
      (∃ add, call.phase = .adding add bucket.tokens ∧
        call.advance spurious bucket =
          (.loadConsume, { bucket with
            tokens := min (bucket.tokens + add) bucket.capacityFp })) ∨
      (1024 ≤ bucket.tokens.toInt ∧ call.phase.holds = 0 ∧
        call.advance spurious bucket =
          (.returned true, { bucket with
            tokens := bucket.tokens - tokenScale })) := by
  unfold Call.advance
  unfold Call.ProductFits at productFits
  cases phase : call.phase with
  | loadRefill => exact .inl ⟨rfl, rfl⟩
  | refilling prevNs =>
      rw [phase] at productFits
      dsimp only
      split
      · exact .inl ⟨rfl, rfl⟩
      · split
        · exact .inl ⟨rfl, rfl⟩
        · next positive =>
            split
            · next exchanged =>
                obtain ⟨rfl, -⟩ := exchanged
                obtain ⟨exact, later⟩ := add_exact rateNonneg productFits.1
                  productFits.2 positive
                exact .inr (.inl ⟨_, rfl, later, exact, rfl⟩)
            · exact .inl ⟨rfl, rfl⟩
  | loadTokens add => exact .inl ⟨rfl, rfl⟩
  | adding add cur =>
      dsimp only
      split
      · next exchanged =>
          obtain ⟨rfl, -⟩ := exchanged
          exact .inr (.inr (.inl ⟨add, rfl, rfl⟩))
      · exact .inl ⟨rfl, rfl⟩
  | loadConsume => exact .inl ⟨rfl, rfl⟩
  | consuming cur =>
      dsimp only
      split
      · next enough =>
          split
          · next exchanged =>
              obtain ⟨rfl, -⟩ := exchanged
              rw [ge_iff_le, Int64.le_iff_toInt_le, tokenScale_toInt] at enough
              exact .inr (.inr (.inr ⟨enough, rfl, rfl⟩))
          · exact .inl ⟨rfl, rfl⟩
      · exact .inl ⟨rfl, rfl⟩
  | returned consumed => simp [Call.hasReturned, phase] at running

/-! ## The latest clock reading -/

theorem startNs_le_latestNs (system : System) (startNs : UInt64) :
    startNs.toNat ≤ system.latestNs startNs := by
  unfold System.latestNs
  induction system.calls with
  | nil => exact le_rfl
  | cons call rest inductionHypothesis =>
      exact le_max_of_le_right inductionHypothesis

theorem nowNs_le_latestNs
    {system : System}
    {call : Call}
    (member : call ∈ system.calls)
    (startNs : UInt64) :
    call.nowNs.toNat ≤ system.latestNs startNs := by
  obtain ⟨bucket, calls⟩ := system
  unfold System.latestNs
  induction calls with
  | nil => cases member
  | cons first rest inductionHypothesis =>
      rcases List.mem_cons.1 member with rfl | later
      · exact le_max_left _ _
      · exact le_max_of_le_right (inductionHypothesis later)

theorem latestNs_append (bucket other : TokenBucket) (calls : List Call)
    (new : Call) (startNs : UInt64) :
    System.latestNs ⟨bucket, calls⟩ startNs ≤
      System.latestNs ⟨other, calls ++ [new]⟩ startNs := by
  unfold System.latestNs
  induction calls with
  | nil => exact le_max_right _ _
  | cons first rest inductionHypothesis =>
      exact max_le_max_left _ inductionHypothesis

theorem latestNs_set
    {system : System}
    {index : Nat}
    {call : Call}
    (present : system.calls[index]? = some call)
    (bucket : TokenBucket)
    (phase : Phase)
    (startNs : UInt64) :
    System.latestNs
        ⟨bucket, system.calls.set index { call with phase }⟩ startNs =
      system.latestNs startNs := by
  have sameReadings :
      (system.calls.set index { call with phase }).map (fun other =>
        other.nowNs.toNat) = system.calls.map fun other =>
          other.nowNs.toNat := by
    have inRange := (List.getElem?_eq_some_iff.1 present).1
    apply List.ext_getElem?
    intro other
    rw [List.getElem?_map, List.getElem?_map]
    by_cases same : index = other
    · subst other
      rw [List.getElem?_set_self inRange, present]
      rfl
    · rw [List.getElem?_set_ne same]
  unfold System.latestNs
  rw [sameReadings]

/-! ## The budget -/

/-- Tokens in the bucket, tokens consumed and refills on their way are
covered by the capacity and the time up to the last refill. -/
structure Bounded
    (capacityTokens tokensPerSecond : Int)
    (startNs : UInt64)
    (system : System) : Prop where
  wellFormed : WellFormed capacityTokens tokensPerSecond system.bucket
  holdsNonneg : ∀ call ∈ system.calls, 0 ≤ call.phase.holds
  budget : system.bucket.tokens.toInt +
      (system.calls.map fun call => call.phase.holds).sum ≤
    capacityTokens * 1024 + unitsPerNs tokensPerSecond *
      ((system.bucket.lastRefillNs.toNat : Int) - startNs.toNat)
  lastUsed : system.bucket.lastRefillNs.toNat ≤ system.latestNs startNs

section Steps

variable {capacityTokens tokensPerSecond : Int} {startNs : UInt64}

/-- A step of one call, from what it does to the bucket and to what the call
holds. -/
theorem Bounded.moved
    {system : System}
    (bounded : Bounded capacityTokens tokensPerSecond startNs system)
    {index : Nat}
    {call : Call}
    (present : system.calls[index]? = some call)
    {bucket : TokenBucket}
    {phase : Phase}
    (wellFormed : WellFormed capacityTokens tokensPerSecond bucket)
    (nonneg : 0 ≤ phase.holds)
    (covered : bucket.tokens.toInt + phase.holds ≤
      system.bucket.tokens.toInt + call.phase.holds +
        unitsPerNs tokensPerSecond * ((bucket.lastRefillNs.toNat : Int) -
          system.bucket.lastRefillNs.toNat))
    (lastUsed : bucket.lastRefillNs = system.bucket.lastRefillNs ∨
      bucket.lastRefillNs = call.nowNs) :
    Bounded capacityTokens tokensPerSecond startNs
      ⟨bucket, system.calls.set index { call with phase }⟩ where
  wellFormed := wellFormed
  holdsNonneg := Threads.forall_mem_set bounded.holdsNonneg nonneg
  budget := by
    have before := bounded.budget
    have moved := Threads.sum_map_set_add
      (fun call : Call => call.phase.holds) present { call with phase }
    dsimp only at moved ⊢
    have split : unitsPerNs tokensPerSecond *
        ((bucket.lastRefillNs.toNat : Int) - startNs.toNat) =
          unitsPerNs tokensPerSecond *
            ((system.bucket.lastRefillNs.toNat : Int) - startNs.toNat) +
          unitsPerNs tokensPerSecond * ((bucket.lastRefillNs.toNat : Int) -
            system.bucket.lastRefillNs.toNat) := by
      ring
    omega
  lastUsed := by
    rw [latestNs_set present]
    rcases lastUsed with same | now
    · rw [same]
      exact bounded.lastUsed
    · rw [now]
      exact nowNs_le_latestNs (List.mem_of_getElem? present) startNs

/-- A step of a call whose product and sum fit keeps the budget, and never
sets the last refill back. -/
theorem Bounded.advanced
    {system : System}
    (bounded : Bounded capacityTokens tokensPerSecond startNs system)
    (capacityNonneg : 0 ≤ capacityTokens)
    (rateNonneg : 0 ≤ unitsPerNs tokensPerSecond)
    {index : Nat}
    {call : Call}
    (present : system.calls[index]? = some call)
    (running : call.hasReturned = false)
    (productFits : call.ProductFits system.bucket)
    (sumFits : call.SumFits system.bucket)
    (spurious : Bool) :
    Bounded capacityTokens tokensPerSecond startNs
        ⟨(call.advance spurious system.bucket).2, system.calls.set index
          { call with phase := (call.advance spurious system.bucket).1 }⟩ ∧
      system.bucket.lastRefillNs ≤
        (call.advance spurious system.bucket).2.lastRefillNs := by
  have wellFormed := bounded.wellFormed
  have callNonneg := bounded.holdsNonneg call (List.mem_of_getElem? present)
  have exactRate := wellFormed.rate
  have nonneg := wellFormed.nonneg
  have capped := wellFormed.capped
  rcases advance_cases call spurious (by rw [exactRate]; exact rateNonneg)
      productFits running with
    ⟨sameBucket, sameHolds⟩ | ⟨add, holds, later, product, advanced⟩ |
    ⟨add, phase, advanced⟩ | ⟨enough, holds, advanced⟩
  · rw [sameBucket]
    refine ⟨bounded.moved present wellFormed ?_ ?_ (.inl rfl),
      UInt64.le_refl _⟩
    · rw [sameHolds]
      exact callNonneg
    · rw [sameHolds]
      simp
  · rw [advanced]
    refine ⟨bounded.moved present ?_ ?_ ?_ (.inr rfl), ?_⟩
    · exact ⟨wellFormed.capacity, exactRate, nonneg, capped⟩
    · change 0 ≤ add.toInt
      rw [product, exactRate]
      exact Int.mul_nonneg (by omega) rateNonneg
    · change system.bucket.tokens.toInt + add.toInt ≤ _
      rw [product, exactRate, holds]
      dsimp only
      linarith
    · rw [UInt64.le_iff_toNat_le]
      exact later.le
  · have sum : (system.bucket.tokens + add).toInt =
        system.bucket.tokens.toInt + add.toInt := by
      unfold Call.SumFits at sumFits
      rw [phase] at sumFits callNonneg
      change 0 ≤ add.toInt at callNonneg
      change system.bucket.tokens.toInt + add.toInt < 2 ^ 63 at sumFits
      exact FixedWidth.toInt_add_of_fits (by omega) sumFits
    rw [phase] at callNonneg
    change 0 ≤ add.toInt at callNonneg
    have clamped :
        (min (system.bucket.tokens + add) system.bucket.capacityFp).toInt =
          min (system.bucket.tokens.toInt + add.toInt)
            (capacityTokens * 1024) := by
      rw [FixedWidth.toInt_min, sum, wellFormed.capacity]
    rw [advanced]
    refine ⟨bounded.moved present ?_ le_rfl ?_ (.inl rfl), UInt64.le_refl _⟩
    · refine ⟨wellFormed.capacity, exactRate, ?_, ?_⟩
      · dsimp only
        omega
      · dsimp only
        omega
    · rw [phase]
      change (min _ _ : Int64).toInt + 0 ≤ _ + add.toInt + _
      rw [clamped]
      simp
  · have consumed : (system.bucket.tokens - tokenScale).toInt =
        system.bucket.tokens.toInt - 1024 := by
      have bound := system.bucket.tokens.toInt_lt
      rw [FixedWidth.toInt_sub_of_fits] <;> rw [tokenScale_toInt] <;> omega
    rw [advanced]
    have nonnegToken : (0 : Int) ≤ 1024 := by decide
    refine ⟨bounded.moved present ?_ nonnegToken ?_ (.inl rfl),
      UInt64.le_refl _⟩
    · refine ⟨wellFormed.capacity, exactRate, ?_, ?_⟩
      · dsimp only
        omega
      · dsimp only
        omega
    · change (system.bucket.tokens - tokenScale).toInt + 1024 ≤ _
      rw [consumed, holds]
      simp

/-- The conditions on overflow at one step. -/
def StepFits (system : System) (action : Action) : Prop :=
  AtStep Call.ProductFits system action ∧ AtStep Call.SumFits system action

theorem bounded_step
    (capacityNonneg : 0 ≤ capacityTokens)
    (rateNonneg : 0 ≤ unitsPerNs tokensPerSecond)
    (system : System)
    (action : Action)
    (next : System)
    (bounded : Bounded capacityTokens tokensPerSecond startNs system)
    (fits : StepFits system action)
    (stepped : step system action = some next) :
    Bounded capacityTokens tokensPerSecond startNs next ∧
      system.bucket.lastRefillNs ≤ next.bucket.lastRefillNs := by
  cases action with
  | call nowNs =>
      cases stepped
      refine ⟨⟨bounded.wellFormed, ?_, ?_, ?_⟩, UInt64.le_refl _⟩
      · exact Threads.forall_mem_concat bounded.holdsNonneg le_rfl
      · have newHolds : ({ nowNs } : Call).phase.holds = 0 := rfl
        have sameHeld :
            ((system.calls ++ [({ nowNs } : Call)]).map fun call =>
              call.phase.holds).sum =
                (system.calls.map fun call => call.phase.holds).sum := by
          simp only [List.map_append, List.map_singleton, List.sum_append,
            List.sum_singleton, newHolds, add_zero]
        have budget := bounded.budget
        rw [← sameHeld] at budget
        exact budget
      · exact bounded.lastUsed.trans (latestNs_append _ _ _ _ _)
  | advance index spurious =>
      simp only [step] at stepped
      split at stepped
      · cases stepped
      · next call present =>
          split at stepped
          · cases stepped
          · next running =>
              cases stepped
              exact bounded.advanced capacityNonneg rateNonneg present
                (by simpa using running) (fits.1 call present)
                (fits.2 call present) spurious

theorem bounded_run
    (capacityNonneg : 0 ≤ capacityTokens)
    (rateNonneg : 0 ≤ unitsPerNs tokensPerSecond)
    {system final : System}
    {actions : List Action}
    (bounded : Bounded capacityTokens tokensPerSecond startNs system)
    (fits : Machine.RunMeets step StepFits system actions)
    (ran : Machine.run step system actions = some final) :
    Bounded capacityTokens tokensPerSecond startNs final ∧
      system.bucket.lastRefillNs ≤ final.bucket.lastRefillNs := by
  have preserved (reached : System) (action : Action) (next : System)
      (holds : Bounded capacityTokens tokensPerSecond startNs reached ∧
        system.bucket.lastRefillNs ≤ reached.bucket.lastRefillNs)
      (stepFits : StepFits reached action)
      (stepped : step reached action = some next) :
      Bounded capacityTokens tokensPerSecond startNs next ∧
        system.bucket.lastRefillNs ≤ next.bucket.lastRefillNs := by
    obtain ⟨nextBounded, notEarlier⟩ := bounded_step capacityNonneg rateNonneg
      reached action next holds.1 stepFits stepped
    exact ⟨nextBounded, UInt64.le_trans holds.2 notEarlier⟩
  exact Machine.invariant_of_run_of_meets preserved
    ⟨bounded, UInt64.le_refl _⟩ fits ran

end Steps

theorem bounded_initial
    {capacityTokens tokensPerSecond : Int64}
    (capacityNonneg : 0 ≤ capacityTokens.toInt)
    (capacityFits : capacityTokens.toInt * 1024 < 2 ^ 63)
    (rateNonneg : 0 ≤ tokensPerSecond.toInt)
    (rateFits : tokensPerSecond.toInt * 1024 < 2 ^ 63)
    (startNs : UInt64) :
    Bounded capacityTokens.toInt tokensPerSecond.toInt startNs
      (System.initial capacityTokens tokensPerSecond startNs) := by
  obtain ⟨wellFormed, full⟩ := wellFormed_create capacityNonneg capacityFits
    rateNonneg rateFits startNs
  refine ⟨wellFormed, nofun, ?_, ?_⟩
  · have noTime : (System.initial capacityTokens tokensPerSecond
        startNs).bucket.lastRefillNs = startNs := rfl
    rw [noTime, sub_self, mul_zero, add_zero]
    change (create capacityTokens tokensPerSecond startNs).tokens.toInt + 0 ≤ _
    rw [full, add_zero]
  · exact startNs_le_latestNs _ startNs

/-- Every consumed token is held by its call. -/
theorem consumed_le_holds
    {calls : List Call}
    (nonneg : ∀ call ∈ calls, 0 ≤ call.phase.holds) :
    1024 * (calls.countP Call.hasConsumed : Int) ≤
      (calls.map fun call => call.phase.holds).sum := by
  induction calls with
  | nil => exact le_rfl
  | cons call rest inductionHypothesis =>
      have restBound := inductionHypothesis fun other member =>
        nonneg other (List.mem_cons_of_mem call member)
      have callNonneg := nonneg call List.mem_cons_self
      rw [List.map_cons, List.sum_cons, List.countP_cons]
      split
      · next consumed =>
          have phase : call.phase = .returned true := by
            simpa [Call.hasConsumed] using consumed
          have token : call.phase.holds = 1024 := by
            rw [phase]
            rfl
          push_cast
          omega
      · push_cast
        omega

/-- The truncated rate earns no more than the configured one. -/
theorem units_mul_le
    {rate elapsed bound : Int}
    (rateNonneg : 0 ≤ rate)
    (elapsedNonneg : 0 ≤ elapsed)
    (atMost : elapsed ≤ bound) :
    unitsPerNs rate * elapsed * 1000000000 ≤ 1024 * (rate * bound) := by
  have truncated : unitsPerNs rate * 1000000000 ≤ rate * 1024 :=
    Int.ediv_mul_le _ (by decide)
  calc
    unitsPerNs rate * elapsed * 1000000000 =
        unitsPerNs rate * 1000000000 * elapsed := by ring
    _ ≤ rate * 1024 * elapsed :=
      Int.mul_le_mul_of_nonneg_right truncated elapsedNonneg
    _ ≤ rate * 1024 * bound :=
      Int.mul_le_mul_of_nonneg_left atMost (by omega)
    _ = 1024 * (rate * bound) := by ring

/-- In every run of any number of concurrent calls whose products and sums do
not overflow, the tokens stay between zero and the capacity, the last refill
is never set back, and no more calls have returned true than the capacity and
the configured rate over the time up to the latest clock reading allow. -/
theorem bucket_upper_bound
    (capacityTokens tokensPerSecond : Int64)
    (capacityNonneg : 0 ≤ capacityTokens.toInt)
    (capacityFits : capacityTokens.toInt * 1024 < 2 ^ 63)
    (rateNonneg : 0 ≤ tokensPerSecond.toInt)
    (rateFits : tokensPerSecond.toInt * 1024 < 2 ^ 63)
    (startNs : UInt64)
    (actions : List Action)
    (final : System)
    (productsFit : Machine.RunMeets step (AtStep Call.ProductFits)
      (System.initial capacityTokens tokensPerSecond startNs) actions)
    (sumsFit : Machine.RunMeets step (AtStep Call.SumFits)
      (System.initial capacityTokens tokensPerSecond startNs) actions)
    (ran : Machine.run step
      (System.initial capacityTokens tokensPerSecond startNs) actions =
        some final) :
    (0 ≤ final.bucket.tokens.toInt ∧
      final.bucket.tokens.toInt ≤ final.bucket.capacityFp.toInt) ∧
    (∀ before after middle, actions = before ++ after →
      Machine.run step
          (System.initial capacityTokens tokensPerSecond startNs) before =
        some middle →
      middle.bucket.lastRefillNs ≤ final.bucket.lastRefillNs) ∧
    (final.consumed : ℚ) ≤ capacityTokens.toInt +
      tokensPerSecond.toInt * ((final.latestNs startNs : ℚ) - startNs.toNat) /
        10 ^ 9 := by
  have unitsNonneg := unitsPerNs_nonneg rateNonneg
  have initial := bounded_initial capacityNonneg capacityFits rateNonneg
    rateFits startNs
  have fits : Machine.RunMeets step StepFits
      (System.initial capacityTokens tokensPerSecond startNs) actions :=
    productsFit.and sumsFit
  obtain ⟨bounded, started⟩ :=
    bounded_run capacityNonneg unitsNonneg initial fits ran
  refine ⟨⟨bounded.wellFormed.nonneg, ?_⟩, ?_, ?_⟩
  · rw [bounded.wellFormed.capacity]
    exact bounded.wellFormed.capped
  · intro before after middle split beforeRan
    subst split
    obtain ⟨reached, reachedRan, afterRan⟩ :=
      (Machine.run_append_eq_some_iff _ _ _ _ _).1 ran
    rw [beforeRan, Option.some.injEq] at reachedRan
    subst reached
    have middleBounded := (bounded_run capacityNonneg unitsNonneg initial
      (fits.of_append_left) beforeRan).1
    exact (bounded_run capacityNonneg unitsNonneg middleBounded
      (fits.of_append beforeRan) afterRan).2
  · have held := consumed_le_holds bounded.holdsNonneg
    have budget := bounded.budget
    have nonneg := bounded.wellFormed.nonneg
    have notBefore : startNs.toNat ≤ final.bucket.lastRefillNs.toNat :=
      UInt64.le_iff_toNat_le.1 started
    have lastUsed := bounded.lastUsed
    have elapsedNonneg :
        0 ≤ (final.bucket.lastRefillNs.toNat : Int) - startNs.toNat := by
      omega
    have atMost : (final.bucket.lastRefillNs.toNat : Int) - startNs.toNat ≤
        (final.latestNs startNs : Int) - startNs.toNat := by
      omega
    have earned := units_mul_le rateNonneg elapsedNonneg atMost
    have scaled : (final.consumed : Int) * 1000000000 ≤
        capacityTokens.toInt * 1000000000 + tokensPerSecond.toInt *
          ((final.latestNs startNs : Int) - startNs.toNat) := by
      unfold System.consumed
      omega
    have scaledRational : (final.consumed : ℚ) * 1000000000 ≤
        capacityTokens.toInt * 1000000000 + tokensPerSecond.toInt *
          ((final.latestNs startNs : ℚ) - startNs.toNat) := by
      exact_mod_cast scaled
    linarith

/-- Two calls at 1024 nanoseconds after the construction race for the refill
of a bucket of one token; the loser has a stale reading. -/
def raceForRefill : List Action :=
  [.call 1024, .call 512, .advance 0 false, .advance 1 false,
    .advance 0 true, .advance 0 false, .advance 1 false, .advance 1 false,
    .advance 0 false, .advance 0 false, .advance 0 false, .advance 0 false,
    .advance 1 false, .advance 1 false]

/-- At 976563 tokens a second only one of them gets a token. -/
theorem bucket_upper_bound_race :
    ∃ final, Machine.run step (System.initial 1 976563 0) raceForRefill =
        some final ∧
      (final.consumed : ℚ) ≤ (1 : Int64).toInt +
        (976563 : Int64).toInt * ((final.latestNs 0 : ℚ) -
          (0 : UInt64).toNat) / 10 ^ 9 := by
  refine ⟨_, (Option.some_get (by decide +kernel)).symm, ?_⟩
  exact (bucket_upper_bound 1 976563 (by decide) (by decide) (by decide)
    (by decide) 0 raceForRefill _ (by decide +kernel) (by decide +kernel)
    (Option.some_get (by decide +kernel)).symm).2.2

/-- A full bucket of `2 ^ 52` tokens, refilled `2 ^ 52` nanoseconds later at
one token a nanosecond: the product fits, but the sum wraps around before it
is clamped, and the tokens are negative. -/
theorem refill_sum_overflows :
    (4503599627370496 : Int64).toInt * 1024 < 2 ^ 63 ∧
      (1000000000 : Int64).toInt * 1024 < 2 ^ 63 ∧ ∃ final,
      Machine.RunMeets step (AtStep Call.ProductFits)
        (System.initial 4503599627370496 1000000000 0)
        [.call 4503599627370496, .advance 0 false, .advance 0 false,
          .advance 0 false, .advance 0 false] ∧
      Machine.run step (System.initial 4503599627370496 1000000000 0)
        [.call 4503599627370496, .advance 0 false, .advance 0 false,
          .advance 0 false, .advance 0 false] = some final ∧
      final.bucket.tokens.toInt < 0 := by
  refine ⟨by decide, by decide, _, by decide +kernel,
    (Option.some_get (by decide +kernel)).symm, ?_⟩
  decide +kernel

end BucketContention
end Sharding
end Fre
