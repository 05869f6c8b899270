import Fre.Foundation.Machine
import Fre.Pipeline.PipelineConfig
import Fre.Sharding.TenantRouter

/-!
# The strand of a tenant

`submit` and `submit_sync` spawn on the first strand that `cells_for` returns,
without looking whether there is one.  The indices of a tenant are always below
the number of strands; whether there is an index at all depends on the
configuration, because the check of the sharding lets a tenant have no cells.
-/

namespace Fre
namespace Pipeline
namespace Dispatch

open Foundation Sharding

/-- The strands that the constructor of the router creates, by their number. -/
def strands (router : TenantRouter) : List UInt32 :=
  (List.range router.shardCfg.numCells.toNat).map UInt32.ofNat

/-- The pointers that `cells_for` collects; none when an index is beyond the
strands. -/
def cellPtrs (router : TenantRouter) (cellIndices : List UInt32) :
    Option (List UInt32) :=
  cellIndices.mapM fun idx => (strands router)[idx.toNat]?

/-- A call of the router, as a step that leaves its answer aside. -/
def step (router : TenantRouter) (call : TenantRouter.Call) :
    Option TenantRouter :=
  (router.call call).map Prod.snd

/-- The indices of the tenant are those of strands, and `cells_for` returns a
span with a first strand. -/
structure HasStrand (router : TenantRouter) (tenant : TenantState) : Prop where
  below : ∀ idx ∈ tenant.cellIndices, idx.toNat < (strands router).length
  first : ∃ strand others,
    cellPtrs router tenant.cellIndices = some (strand :: others)

/-! ### The cells in the table -/

/-- The cells of every tenant in the table are those of its assignment, under
the configuration the router was created with. -/
structure Assigned
    (hash : String → UInt64)
    (fuel : Nat)
    (sharding : ShardingConfig)
    (router : TenantRouter) : Prop where
  sameHash : router.hash = hash
  sameFuel : router.fuel = fuel
  sameSharding : router.shardCfg = sharding
  cells : ∀ tenantId tenant, router.tenants.lookup tenantId = some tenant →
    assignCells hash fuel tenantId sharding.numCells sharding.cellsPerTenant =
      some tenant.cellIndices

section Assignments

variable {hash : String → UInt64} {fuel : Nat} {sharding : ShardingConfig}
  {router : TenantRouter}

theorem assigned_create (rateLimit : RateLimitConfig) :
    Assigned hash fuel sharding (.create hash fuel sharding rateLimit) where
  sameHash := rfl
  sameFuel := rfl
  sameSharding := rfl
  cells := by
    intro tenantId tenant found
    simp [TenantRouter.create] at found

/-- An entry with the cells of its tenant may be written. -/
theorem Assigned.setTenant
    (assigned : Assigned hash fuel sharding router)
    {tenantId : String}
    {tenant : TenantState}
    (cells : assignCells hash fuel tenantId sharding.numCells
      sharding.cellsPerTenant = some tenant.cellIndices) :
    Assigned hash fuel sharding (router.setTenant tenantId tenant) where
  sameHash := assigned.sameHash
  sameFuel := assigned.sameFuel
  sameSharding := assigned.sameSharding
  cells := by
    intro other entry found
    by_cases same : other = tenantId
    · subst same
      rw [TenantRouter.setTenant, AList.lookup_insert, Option.some_inj] at found
      rw [← found]
      exact cells
    · rw [TenantRouter.setTenant, AList.lookup_insert_ne same] at found
      exact assigned.cells other entry found

/-- A tenant that is found or created has the cells of its assignment. -/
theorem Assigned.getOrCreateTenant
    (assigned : Assigned hash fuel sharding router)
    {tenantId : String}
    {createdNs : UInt64}
    {tenant : TenantState}
    {next : TenantRouter}
    (found : router.getOrCreateTenant tenantId createdNs =
      some (tenant, next)) :
    assignCells hash fuel tenantId sharding.numCells sharding.cellsPerTenant =
        some tenant.cellIndices ∧
      Assigned hash fuel sharding next := by
  unfold TenantRouter.getOrCreateTenant at found
  split at found
  next state present =>
    cases found
    exact ⟨assigned.cells tenantId tenant present, assigned⟩
  next absent =>
    obtain ⟨state, created, same⟩ := Option.map_eq_some_iff.mp found
    cases same
    obtain ⟨cells, returned, rfl⟩ := Option.map_eq_some_iff.mp created
    rw [assigned.sameHash, assigned.sameFuel, assigned.sameSharding] at returned
    exact ⟨returned, assigned.setTenant returned⟩

/-- No acquisition changes the cells of a tenant. -/
theorem cellIndices_tryAcquire
    (tenant : TenantState)
    (tenantId : String)
    (nowNs : UInt64) :
    (tenant.tryAcquire tenantId nowNs).2.cellIndices = tenant.cellIndices := by
  unfold TenantState.tryAcquire
  dsimp only
  split
  · rfl
  · split
    · rfl
    · rfl

theorem assigned_step
    (assigned : Assigned hash fuel sharding router)
    {call : TenantRouter.Call}
    {next : TenantRouter}
    (stepped : step router call = some next) :
    Assigned hash fuel sharding next := by
  obtain ⟨⟨answer, after⟩, called, rfl⟩ := Option.map_eq_some_iff.mp stepped
  cases call with
  | tryAcquire tenantId createdNs nowNs =>
      obtain ⟨⟨tenant, found⟩, created, same⟩ :=
        Option.map_eq_some_iff.mp called
      cases same
      obtain ⟨cells, foundAssigned⟩ := assigned.getOrCreateTenant created
      refine foundAssigned.setTenant ?_
      rw [cellIndices_tryAcquire]
      exact cells
  | release tenantId =>
      simp only [TenantRouter.call] at called
      split at called
      next tenant present =>
        cases called
        exact assigned.setTenant (assigned.cells tenantId tenant present)
      next =>
        cases called
        exact assigned
  | cellsFor tenantId createdNs =>
      obtain ⟨⟨tenant, found⟩, created, same⟩ :=
        Option.map_eq_some_iff.mp called
      cases same
      exact (assigned.getOrCreateTenant created).2

end Assignments

/-! ### The span -/

theorem length_strands (router : TenantRouter) :
    (strands router).length = router.shardCfg.numCells.toNat := by
  rw [strands, List.length_map, List.length_range]

/-- Below the number of strands, every index is the number of its strand. -/
theorem cellPtrs_eq_some
    {router : TenantRouter}
    {cellIndices : List UInt32}
    (below : ∀ idx ∈ cellIndices, idx.toNat < (strands router).length) :
    cellPtrs router cellIndices = some cellIndices := by
  unfold cellPtrs
  induction cellIndices with
  | nil => rfl
  | cons idx rest inductionHypothesis =>
      have inRange := below idx List.mem_cons_self
      have strand : (strands router)[idx.toNat]? = some idx := by
        rw [List.getElem?_eq_getElem inRange]
        simp [strands]
      rw [List.mapM_cons, strand, inductionHypothesis fun other member =>
        below other (List.mem_cons_of_mem idx member)]
      rfl

/-- In every state of the router of an accepted configuration, a tenant whose
cells are assigned has a strand to spawn on exactly when the configuration
gives a tenant at least one cell. -/
theorem hasStrand_iff
    {builder : Builder}
    {config : PipelineConfig}
    (accepted : builder.build = some (.ok config))
    {hash : String → UInt64}
    {fuel : Nat}
    {calls : List TenantRouter.Call}
    {router : TenantRouter}
    (ran : Machine.run step
      (.create hash fuel config.sharding config.rateLimit) calls = some router)
    {tenantId : String}
    {createdNs : UInt64}
    {tenant : TenantState}
    {next : TenantRouter}
    (returned : router.getOrCreateTenant tenantId createdNs =
      some (tenant, next)) :
    HasStrand router tenant ↔ 1 ≤ config.sharding.cellsPerTenant := by
  have assigned : Assigned hash fuel config.sharding router :=
    Machine.invariant_of_run
      (fun _ _ _ before stepped => assigned_step before stepped)
      (assigned_create config.rateLimit) ran
  obtain ⟨cells, -⟩ := assigned.getOrCreateTenant returned
  have fewer := (ShardingConfig.validate_eq_none_iff _).mp
    (Builder.checks_of_build accepted).1
  obtain ⟨length, -, small⟩ := assignCells_spec hash (by omega) cells
  have below : ∀ idx ∈ tenant.cellIndices,
      idx.toNat < (strands router).length := by
    intro idx member
    rw [length_strands, assigned.sameSharding]
    exact UInt32.lt_iff_toNat_lt.mp (small idx member)
  have one : (1 : UInt32).toNat = 1 := rfl
  rw [UInt32.le_iff_toNat_le, one]
  constructor
  · intro hasStrand
    obtain ⟨strand, others, pointers⟩ := hasStrand.first
    rw [cellPtrs_eq_some below, Option.some_inj] at pointers
    rw [pointers, List.length_cons] at length
    omega
  · intro positive
    refine ⟨below, ?_⟩
    rw [cellPtrs_eq_some below]
    cases indices : tenant.cellIndices with
    | nil =>
        rw [indices, List.length_nil] at length
        omega
    | cons idx rest => exact ⟨idx, rest, rfl⟩

/-- The builder of a configuration with one emission target and a number of
cells per tenant. -/
def cellsBuilder (cellsPerTenant : UInt32) : Builder where
  config :=
    { sharding := { cellsPerTenant }
      emitConfig := { targets := 1 } }
  hasEmit := true

/-- With four cells a tenant has a strand. -/
theorem hasStrand_fourCells :
    ∃ tenant next,
      (TenantRouter.create (fun _ => 0) 64 { cellsPerTenant := 4 }
          {}).getOrCreateTenant "acme" 0 = some (tenant, next) ∧
        HasStrand (.create (fun _ => 0) 64 { cellsPerTenant := 4 } {})
          tenant := by
  have returned : ((TenantRouter.create (fun _ => 0) 64 { cellsPerTenant := 4 }
      {}).getOrCreateTenant "acme" 0).isSome := by
    decide
  obtain ⟨⟨tenant, next⟩, found⟩ := Option.isSome_iff_exists.mp returned
  refine ⟨tenant, next, found, ?_⟩
  exact (hasStrand_iff (show (cellsBuilder 4).build =
    some (.ok (cellsBuilder 4).config) by rfl) (show Machine.run step _ [] = _
      by rfl) found).mpr (by decide)

/-- The builder accepts a configuration that gives a tenant no cells. -/
theorem no_strand_without_cells :
    (cellsBuilder 0).build = some (.ok (cellsBuilder 0).config) ∧
      ∃ tenant next,
        (TenantRouter.create (fun _ => 0) 0 (cellsBuilder 0).config.sharding
            (cellsBuilder 0).config.rateLimit).getOrCreateTenant "acme" 0 =
          some (tenant, next) ∧
        ¬ HasStrand (.create (fun _ => 0) 0 (cellsBuilder 0).config.sharding
            (cellsBuilder 0).config.rateLimit) tenant := by
  refine ⟨rfl, _, _, rfl, ?_⟩
  intro hasStrand
  obtain ⟨strand, others, pointers⟩ := hasStrand.first
  cases pointers

end Dispatch
end Pipeline
end Fre
