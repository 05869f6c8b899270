import Fre.Foundation.Unwinding
import Fre.Sharding.AssignCells
import Fre.Sharding.TokenBucket
import Mathlib.Data.List.AList

/-!
# The tenant router

`TenantRouter` creates the state of a tenant at its first call: its cells, a
full token bucket and a counter of evaluations in flight.  All tenants are in
one table, but a call looks at and changes the entry of its own tenant only.
-/

namespace Fre
namespace Sharding

open Foundation

/-- `TenantState`. -/
structure TenantState where
  cellIndices : List UInt32
  bucket : TokenBucket
  inFlight : Int32 := 0
  maxConcurrent : Int32
  deriving DecidableEq

/-- `TenantRouter::Impl`, with `std::hash` and the bound on the iterations of
the assignment. -/
structure TenantRouter where
  hash : String → UInt64
  fuel : Nat
  shardCfg : ShardingConfig
  rateCfg : RateLimitConfig
  tenants : AList fun _ : String => TenantState

namespace TenantState

/-- The constructor, at clock reading `createdNs`. -/
def create (cells : List UInt32) (rate : RateLimitConfig)
    (createdNs : UInt64) : TenantState where
  cellIndices := cells
  bucket := .create rate.bucketCapacity rate.tokensPerSecond createdNs
  maxConcurrent := rate.maxConcurrent

/-- `try_acquire` on the state of its tenant, at clock reading `nowNs`. -/
def tryAcquire (state : TenantState) (tenantId : String) (nowNs : UInt64) :
    Except RateLimitError Unit × TenantState :=
  let consumed := state.bucket.tryConsume nowNs
  let state := { state with bucket := consumed.2 }
  if !consumed.1 then (.error ⟨.exhausted, tenantId⟩, state)
  else
    let prev := state.inFlight
    let state := { state with inFlight := state.inFlight + 1 }
    if prev ≥ state.maxConcurrent then
      (.error ⟨.concurrencyCapReached, tenantId⟩,
        { state with inFlight := state.inFlight - 1 })
    else (.ok (), state)

/-- `release` on the state of its tenant. -/
def release (state : TenantState) : TenantState :=
  { state with inFlight := state.inFlight - 1 }

end TenantState

namespace TenantRouter

/-- A new router. -/
def create
    (hash : String → UInt64)
    (fuel : Nat)
    (shardCfg : ShardingConfig)
    (rateCfg : RateLimitConfig) : TenantRouter where
  hash := hash
  fuel := fuel
  shardCfg := shardCfg
  rateCfg := rateCfg
  tenants := ∅

/-- The calls of the router with their clock readings: the one the bucket of a
new tenant starts with, and the one of `try_consume`. -/
inductive Call
  | tryAcquire (tenantId : String) (createdNs nowNs : UInt64)
  | release (tenantId : String)
  | cellsFor (tenantId : String) (createdNs : UInt64)
  deriving DecidableEq, Repr

/-- The tenant a call is made for. -/
def Call.tenantId : Call → String
  | .tryAcquire tenantId _ _ => tenantId
  | .release tenantId => tenantId
  | .cellsFor tenantId _ => tenantId

/-- What a call returns; for `cells_for` the cells that the span shows. -/
inductive Answer
  | acquired (result : Except RateLimitError Unit)
  | released
  | cells (indices : List UInt32)

/-- The state of a tenant that is not in the table yet; none when the
assignment of its cells does not return. -/
def newTenant
    (router : TenantRouter)
    (tenantId : String)
    (createdNs : UInt64) : Option TenantState :=
  (assignCells router.hash router.fuel tenantId router.shardCfg.numCells
    router.shardCfg.cellsPerTenant).map fun cells =>
      .create cells router.rateCfg createdNs

/-- The router with the entry of a tenant replaced. -/
def setTenant
    (router : TenantRouter)
    (tenantId : String)
    (state : TenantState) : TenantRouter :=
  { router with tenants := router.tenants.insert tenantId state }

/-- `get_or_create_tenant`. -/
def getOrCreateTenant
    (router : TenantRouter)
    (tenantId : String)
    (createdNs : UInt64) : Option (TenantState × TenantRouter) :=
  match router.tenants.lookup tenantId with
  | some state => some (state, router)
  | none =>
      (router.newTenant tenantId createdNs).map fun state =>
        (state, router.setTenant tenantId state)

/-- One call. -/
def call (router : TenantRouter) : Call → Option (Answer × TenantRouter)
  | .tryAcquire tenantId createdNs nowNs =>
      (router.getOrCreateTenant tenantId createdNs).map fun found =>
        let result := found.1.tryAcquire tenantId nowNs
        (.acquired result.1, found.2.setTenant tenantId result.2)
  | .release tenantId =>
      match router.tenants.lookup tenantId with
      | some state =>
          some (.released, router.setTenant tenantId state.release)
      | none => some (.released, router)
  | .cellsFor tenantId createdNs =>
      (router.getOrCreateTenant tenantId createdNs).map fun found =>
        (.cells found.1.cellIndices, found.2)

/-! ## The entry of one tenant -/

/-- The router as one tenant sees it: its own entry only. -/
def only (tenantId : String) (router : TenantRouter) : TenantRouter :=
  { router with
    tenants :=
      match router.tenants.lookup tenantId with
      | some state => AList.singleton tenantId state
      | none => ∅ }

theorem lookup_only (tenantId : String) (router : TenantRouter) :
    (only tenantId router).tenants.lookup tenantId =
      router.tenants.lookup tenantId := by
  unfold only
  cases router.tenants.lookup tenantId with
  | some state =>
      dsimp only
      rw [← AList.insert_empty, AList.lookup_insert]
  | none => simp

/-- A tenant sees what is written to its entry. -/
theorem only_setTenant
    (tenantId : String)
    (router : TenantRouter)
    (state : TenantState) :
    only tenantId (router.setTenant tenantId state) =
      (only tenantId router).setTenant tenantId state := by
  unfold only setTenant
  simp only [AList.lookup_insert]
  cases router.tenants.lookup tenantId with
  | some old => rw [AList.insert_singleton_eq]
  | none => simp [AList.insert_empty]

/-- A tenant does not see what is written to another entry. -/
theorem only_setTenant_of_ne
    {tenantId other : String}
    (different : tenantId ≠ other)
    (router : TenantRouter)
    (state : TenantState) :
    only tenantId (router.setTenant other state) = only tenantId router := by
  unfold only setTenant
  simp only [AList.lookup_insert_ne different]

theorem newTenant_only
    (tenantId : String)
    (router : TenantRouter)
    (createdNs : UInt64) :
    (only tenantId router).newTenant tenantId createdNs =
      router.newTenant tenantId createdNs := rfl

/-- A tenant is found or created as in a router of its own. -/
theorem getOrCreateTenant_only
    (tenantId : String)
    (router : TenantRouter)
    (createdNs : UInt64) :
    (only tenantId router).getOrCreateTenant tenantId createdNs =
      (router.getOrCreateTenant tenantId createdNs).map fun found =>
        (found.1, only tenantId found.2) := by
  unfold getOrCreateTenant
  rw [lookup_only, newTenant_only]
  cases router.tenants.lookup tenantId with
  | some state => rfl
  | none =>
      cases router.newTenant tenantId createdNs with
      | none => rfl
      | some state => simp [only_setTenant]

theorem getOrCreateTenant_of_ne
    {tenantId other : String}
    (different : tenantId ≠ other)
    {router next : TenantRouter}
    {createdNs : UInt64}
    {state : TenantState}
    (found : router.getOrCreateTenant other createdNs = some (state, next)) :
    only tenantId next = only tenantId router := by
  unfold getOrCreateTenant at found
  split at found
  · cases found
    rfl
  · obtain ⟨created, -, same⟩ := Option.map_eq_some_iff.1 found
    rw [← (Prod.mk.inj same).2]
    exact only_setTenant_of_ne different router created

/-- A call of a tenant is answered as by a router of its own. -/
theorem call_only
    (router : TenantRouter)
    (request : Call) :
    (only request.tenantId router).call request =
      (router.call request).map fun answered =>
        (answered.1, only request.tenantId answered.2) := by
  cases request with
  | tryAcquire tenantId createdNs nowNs =>
      simp only [call, Call.tenantId]
      rw [getOrCreateTenant_only, Option.map_map, Option.map_map]
      congr 1
      funext found
      simp only [Function.comp_apply, only_setTenant]
  | release tenantId =>
      simp only [call, Call.tenantId]
      rw [lookup_only]
      cases router.tenants.lookup tenantId with
      | none => rfl
      | some state => simp [only_setTenant]
  | cellsFor tenantId createdNs =>
      simp only [call, Call.tenantId]
      rw [getOrCreateTenant_only, Option.map_map, Option.map_map]
      rfl

/-- A call of another tenant does not show. -/
theorem call_of_ne
    {tenantId : String}
    {router next : TenantRouter}
    {request : Call}
    {answer : Answer}
    (different : tenantId ≠ request.tenantId)
    (answered : router.call request = some (answer, next)) :
    only tenantId next = only tenantId router := by
  cases request with
  | tryAcquire other createdNs nowNs =>
      change tenantId ≠ other at different
      obtain ⟨⟨state, found⟩, created, same⟩ :=
        Option.map_eq_some_iff.1 answered
      cases same
      rw [only_setTenant_of_ne different]
      exact getOrCreateTenant_of_ne different created
  | release other =>
      simp only [call] at answered
      split at answered
      · cases answered
        exact only_setTenant_of_ne different router _
      · cases answered
        rfl
  | cellsFor other createdNs =>
      obtain ⟨⟨state, found⟩, created, same⟩ :=
        Option.map_eq_some_iff.1 answered
      cases same
      exact getOrCreateTenant_of_ne different created

/-- The calls of a tenant. -/
def Call.isOf (tenantId : String) (request : Call) : Bool :=
  request.tenantId = tenantId

/-- Each tenant sees a router of its own. -/
theorem unwinds (tenantId : String) :
    Unwinding.Unwinds call call (only tenantId) (Call.isOf tenantId) where
  keeps := by
    intro router request answer next other answered
    have different : tenantId ≠ request.tenantId := by
      simpa [Call.isOf, eq_comm] using other
    exact call_of_ne different answered
  follows := by
    intro router request answer next own answered
    have same : request.tenantId = tenantId := by
      simpa [Call.isOf] using own
    subst same
    rw [call_only, answered]
    rfl

/-! ## Runs -/

/-- The cells of a tenant can be assigned. -/
def Assigns (router : TenantRouter) (tenantId : String) : Prop :=
  (assignCells router.hash router.fuel tenantId router.shardCfg.numCells
    router.shardCfg.cellsPerTenant).isSome

theorem getOrCreateTenant_answered
    {router : TenantRouter}
    {tenantId : String}
    (assigns : router.Assigns tenantId)
    (createdNs : UInt64) :
    ∃ state next,
      router.getOrCreateTenant tenantId createdNs = some (state, next) ∧
        ∀ other, next.Assigns other ↔ router.Assigns other := by
  unfold getOrCreateTenant
  cases router.tenants.lookup tenantId with
  | some state => exact ⟨state, router, rfl, fun _ => Iff.rfl⟩
  | none =>
      obtain ⟨cells, assigned⟩ := Option.isSome_iff_exists.1 assigns
      refine ⟨.create cells router.rateCfg createdNs,
        router.setTenant tenantId (.create cells router.rateCfg createdNs),
        ?_, fun _ => Iff.rfl⟩
      simp [newTenant, assigned]

/-- A call of a tenant whose cells can be assigned is answered, and no call
changes which tenants these are. -/
theorem call_answered
    {router : TenantRouter}
    {request : Call}
    (assigns : router.Assigns request.tenantId) :
    ∃ answer next, router.call request = some (answer, next) ∧
      ∀ tenantId, next.Assigns tenantId ↔ router.Assigns tenantId := by
  cases request with
  | tryAcquire tenantId createdNs nowNs =>
      obtain ⟨state, next, created, kept⟩ :=
        getOrCreateTenant_answered assigns createdNs
      refine ⟨.acquired (state.tryAcquire tenantId nowNs).1,
        next.setTenant tenantId (state.tryAcquire tenantId nowNs).2, ?_, kept⟩
      exact congrArg (Option.map _) created
  | release tenantId =>
      simp only [call]
      split
      · exact ⟨_, _, rfl, fun _ => Iff.rfl⟩
      · exact ⟨_, _, rfl, fun _ => Iff.rfl⟩
  | cellsFor tenantId createdNs =>
      obtain ⟨state, next, created, kept⟩ :=
        getOrCreateTenant_answered assigns createdNs
      refine ⟨.cells state.cellIndices, next, ?_, kept⟩
      exact congrArg (Option.map _) created

/-- A run of calls of tenants whose cells can be assigned is answered. -/
theorem answers_of_assigns
    {router : TenantRouter}
    {requests : List Call}
    (assigns : ∀ request ∈ requests, router.Assigns request.tenantId) :
    ∃ given, Unwinding.answers call router requests = some given := by
  induction requests generalizing router with
  | nil => exact ⟨[], rfl⟩
  | cons request rest inductionHypothesis =>
      obtain ⟨answer, next, answered, kept⟩ :=
        call_answered (assigns request List.mem_cons_self)
      obtain ⟨given, restAnswered⟩ :=
        inductionHypothesis fun other member =>
          (kept other.tenantId).2
            (assigns other (List.mem_cons_of_mem request member))
      exact ⟨(request, answer) :: given, by
        simp [Unwinding.answers, answered, restAnswered]⟩

/-- Tenants do not influence each other.  In every two runs of router calls
that contain the same calls of a tenant at the same times, whatever calls of
other tenants are mixed in, every call of the tenant returns the same. -/
theorem tenants_do_not_interfere
    (hash : String → UInt64)
    (fuel : Nat)
    (shardCfg : ShardingConfig)
    (rateCfg : RateLimitConfig)
    (tenantId : String)
    (first second : List Call)
    (assigns : ∀ request ∈ first ++ second,
      (assignCells hash fuel request.tenantId shardCfg.numCells
        shardCfg.cellsPerTenant).isSome)
    (sameCalls : first.filter (Call.isOf tenantId) =
      second.filter (Call.isOf tenantId)) :
    ∃ firstGiven secondGiven,
      Unwinding.answers call (create hash fuel shardCfg rateCfg) first =
          some firstGiven ∧
        Unwinding.answers call (create hash fuel shardCfg rateCfg) second =
          some secondGiven ∧
        Unwinding.answersTo (Call.isOf tenantId) firstGiven =
          Unwinding.answersTo (Call.isOf tenantId) secondGiven := by
  have firstAssigns : ∀ request ∈ first,
      (create hash fuel shardCfg rateCfg).Assigns request.tenantId :=
    fun request member => assigns request (List.mem_append_left second member)
  have secondAssigns : ∀ request ∈ second,
      (create hash fuel shardCfg rateCfg).Assigns request.tenantId :=
    fun request member => assigns request (List.mem_append_right first member)
  obtain ⟨firstGiven, firstAnswered⟩ := answers_of_assigns firstAssigns
  obtain ⟨secondGiven, secondAnswered⟩ := answers_of_assigns secondAssigns
  exact ⟨firstGiven, secondGiven, firstAnswered, secondAnswered,
    (unwinds tenantId).answersTo_eq rfl sameCalls firstAnswered
      secondAnswered⟩

/-- The last call of tenant "globex" gets the same answer with and without a
burst of "acme" before it, each with a bucket of one token. -/
theorem tenants_do_not_interfere_burst :
    ∃ firstGiven secondGiven,
      Unwinding.answers call
          (create (fun _ => 0) 64 {} { bucketCapacity := 1 })
          [.tryAcquire "acme" 0 0, .tryAcquire "acme" 1 1, .release "acme",
            .tryAcquire "globex" 2 3, .cellsFor "globex" 4] =
        some firstGiven ∧
      Unwinding.answers call
          (create (fun _ => 0) 64 {} { bucketCapacity := 1 })
          [.tryAcquire "globex" 2 3, .cellsFor "globex" 4] =
        some secondGiven ∧
      Unwinding.answersTo (Call.isOf "globex") firstGiven =
        Unwinding.answersTo (Call.isOf "globex") secondGiven :=
  tenants_do_not_interfere (fun _ => 0) 64 {} { bucketCapacity := 1 } "globex"
    [.tryAcquire "acme" 0 0, .tryAcquire "acme" 1 1, .release "acme",
      .tryAcquire "globex" 2 3, .cellsFor "globex" 4]
    [.tryAcquire "globex" 2 3, .cellsFor "globex" 4]
    (by decide) (by decide)

end TenantRouter
end Sharding
end Fre
