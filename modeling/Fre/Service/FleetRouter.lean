import Fre.Sharding.AssignCells
import Mathlib.Data.Finset.Filter

/-!
# Fleet-level shuffle sharding

`FleetRouter` applies the cell assignment one level higher: a tenant belongs to
`instances_per_tenant` of the `fleet_size` service instances.  Each instance
repeats the assignment and looks for its own number in the list.
-/

namespace Fre
namespace Service

open Foundation Sharding

/-- `InstanceInfo`. -/
structure InstanceInfo where
  id : UInt32
  address : String
  deriving DecidableEq, Repr

/-- `FleetConfig`. -/
structure FleetConfig where
  instanceId : UInt32 := 0
  fleetSize : UInt32 := 1
  instancesPerTenant : UInt32 := 2
  topology : List InstanceInfo := []
  deriving DecidableEq, Repr

/-- The loop of `assign_instances` from iteration `i` on, with the instances
found so far. -/
def assignInstancesLoop
    (h : UInt64)
    (fleetSize instancesPerTenant : UInt32) :
    Nat → UInt32 → List UInt32 → Option (List UInt32)
  | fuel, i, result =>
      if result.length < instancesPerTenant.toNat then
        match fuel with
        | 0 => none
        | fuel + 1 =>
            let seed := (kHashSeeds[i.toNat]?).getD (i * 0x9e3779b9)
            let owner :=
              ((h ^^^ (seed + i).toUInt64) % fleetSize.toUInt64).toUInt32
            let result := if owner ∈ result then result else result ++ [owner]
            if result.length = fleetSize.toNat then some result
            else
              assignInstancesLoop h fleetSize instancesPerTenant fuel (i + 1)
                result
      else some result

/-- `assign_instances` for a tenant id, with a bound on the number of
iterations. -/
def assignInstances
    (hash : String → UInt64)
    (fuel : Nat)
    (tenantId : String)
    (fleetSize instancesPerTenant : UInt32) : Option (List UInt32) :=
  assignInstancesLoop (hash tenantId) fleetSize instancesPerTenant fuel 0 []

theorem seed_eq_getD (i : UInt32) :
    seed i = (kHashSeeds[i.toNat]?).getD (i * 0x9e3779b9) := by
  unfold seed
  cases kHashSeeds[i.toNat]? <;> rfl

theorem assignInstancesLoop_eq
    (h : UInt64)
    (fleetSize instancesPerTenant : UInt32)
    (fuel : Nat)
    (i : UInt32)
    (result : List UInt32) :
    assignInstancesLoop h fleetSize instancesPerTenant fuel i result =
      assignLoop h fleetSize instancesPerTenant fuel i result := by
  induction fuel generalizing i result with
  | zero => rfl
  | succ fuel inductionHypothesis =>
      unfold assignInstancesLoop assignLoop
      simp only [candidateCell, seed_eq_getD, inductionHypothesis]

/-- The assignment of instances is the one of cells. -/
theorem assignInstances_eq
    (hash : String → UInt64)
    (fuel : Nat)
    (tenantId : String)
    (fleetSize instancesPerTenant : UInt32) :
    assignInstances hash fuel tenantId fleetSize instancesPerTenant =
      assignCells hash fuel tenantId fleetSize instancesPerTenant :=
  assignInstancesLoop_eq (hash tenantId) fleetSize instancesPerTenant fuel 0 []

/-- Asking for more cells keeps those of the smaller assignment in front.
Whenever the larger assignment returns, the smaller one returns its beginning;
both lists are free of repetitions and stay below the number of cells; and the
instances of a fleet are assigned in the same way. -/
theorem raising_k_keeps_cells
    (hash : String → UInt64)
    (tenantId : String)
    (numCells fewer more : UInt32)
    (positive : 1 ≤ numCells)
    (ordered : fewer ≤ more) :
    (∀ fuelMore larger,
      assignCells hash fuelMore tenantId numCells more = some larger →
        larger.Nodup ∧ (∀ cell ∈ larger, cell < numCells) ∧
        (∃ fuel smaller,
          assignCells hash fuel tenantId numCells fewer = some smaller) ∧
        ∀ fuel smaller,
          assignCells hash fuel tenantId numCells fewer = some smaller →
            smaller = larger.take (min fewer.toNat numCells.toNat)) ∧
    ∀ fuel wanted,
      assignInstances hash fuel tenantId numCells wanted =
        assignCells hash fuel tenantId numCells wanted := by
  have positiveCount : 0 < numCells.toNat := UInt32.le_iff_toNat_le.mp positive
  refine ⟨fun fuelMore larger returned => ?_, fun fuel wanted =>
    assignInstances_eq hash fuel tenantId numCells wanted⟩
  obtain ⟨-, nodup, below⟩ := assignCells_spec hash positiveCount returned
  refine ⟨nodup, below, ?_⟩
  simp only [assignCells_eq_collect] at returned ⊢
  exact DistinctScan.collect_of_more positiveCount
    (UInt32.le_iff_toNat_le.mp ordered) returned

/-- Two cells of sixteen are the first two of four. -/
theorem raising_k_keeps_first_cells :
    ∃ fuel, assignCells (fun _ => 0) fuel "acme" 16 2 = some [9, 15] := by
  have returned : assignCells (fun _ => 0) 8 "acme" 16 4 =
      some [9, 15, 13, 8] := by decide
  obtain ⟨-, -, ⟨fuel, smaller, smallerReturned⟩, beginning⟩ :=
    (raising_k_keeps_cells (fun _ => 0) "acme" 16 2 4 (by decide)
      (by decide)).1 8 _ returned
  refine ⟨fuel, smallerReturned.trans ?_⟩
  rw [beginning fuel smaller smallerReturned]
  rfl

namespace FleetRouter

/-- `FleetRouter::owns`, with a bound on the iterations of the assignment. -/
def owns
    (hash : String → UInt64)
    (fuel : Nat)
    (config : FleetConfig)
    (tenantId : String) : Option Bool :=
  if config.fleetSize ≤ 1 then some true
  else
    (assignInstances hash fuel tenantId config.fleetSize
      config.instancesPerTenant).map fun owners =>
        decide (config.instanceId ∈ owners)

/-- The configuration of another instance of the same fleet. -/
def atInstance (config : FleetConfig) (instanceId : UInt32) : FleetConfig :=
  { config with instanceId }

/-- The instances of a fleet whose router accepts the tenant. -/
def owners
    (hash : String → UInt64)
    (fuel : Nat)
    (config : FleetConfig)
    (tenantId : String) : Finset Nat :=
  (Finset.range config.fleetSize.toNat).filter fun number =>
    owns hash fuel (atInstance config (UInt32.ofNat number)) tenantId =
      some true

section Fleet

variable (hash : String → UInt64) (config : FleetConfig) (tenantId : String)

theorem owns_atInstance
    (several : 2 ≤ config.fleetSize.toNat)
    (fuel : Nat)
    (instanceId : UInt32) :
    owns hash fuel (atInstance config instanceId) tenantId =
      (assignInstances hash fuel tenantId config.fleetSize
        config.instancesPerTenant).map fun owners =>
          decide (instanceId ∈ owners) := by
  have notSingle : ¬config.fleetSize ≤ 1 := by
    rw [UInt32.le_iff_toNat_le]
    change ¬config.fleetSize.toNat ≤ 1
    omega
  exact if_neg notSingle

/-- The owners are the instances of the assignment. -/
theorem owners_eq
    (several : 2 ≤ config.fleetSize.toNat)
    {fuel : Nat}
    {assigned : List UInt32}
    (returned : assignInstances hash fuel tenantId config.fleetSize
      config.instancesPerTenant = some assigned) :
    owners hash fuel config tenantId =
      (assigned.map UInt32.toNat).toFinset := by
  obtain ⟨_, _, below⟩ := assignCells_spec hash (by omega)
    ((assignInstances_eq hash fuel tenantId _ _).symm.trans returned)
  ext number
  simp only [owners, owns_atInstance hash config tenantId several, returned,
    Option.map_some, Option.some.injEq, decide_eq_true_eq, Finset.mem_filter,
    Finset.mem_range, List.mem_toFinset, List.mem_map]
  constructor
  · rintro ⟨bound, member⟩
    refine ⟨UInt32.ofNat number, member, ?_⟩
    exact UInt32.toNat_ofNat_of_lt' (bound.trans config.fleetSize.toNat_lt)
  · rintro ⟨instanceId, member, rfl⟩
    rw [UInt32.ofNat_toNat]
    exact ⟨UInt32.lt_iff_toNat_lt.mp (below instanceId member), member⟩

theorem card_owners
    (several : 2 ≤ config.fleetSize.toNat)
    {fuel : Nat}
    {assigned : List UInt32}
    (returned : assignInstances hash fuel tenantId config.fleetSize
      config.instancesPerTenant = some assigned) :
    (owners hash fuel config tenantId).card =
      min config.instancesPerTenant.toNat config.fleetSize.toNat := by
  obtain ⟨length, nodup, _⟩ := assignCells_spec hash (by omega)
    ((assignInstances_eq hash fuel tenantId _ _).symm.trans returned)
  have distinct : (assigned.map UInt32.toNat).Nodup :=
    nodup.map fun _ _ => UInt32.toNat_inj.mp
  rw [owners_eq hash config tenantId several returned,
    List.toFinset_card_of_nodup distinct, List.length_map, length]

/-- For every tenant and every fleet of at least two instances, the assignment
ends and exactly `min(K, N)` of the `N` instances own the tenant, if and only
if the probe sequence reaches that many instances for this hash. -/
theorem owners_exact_iff
    (several : 2 ≤ config.fleetSize.toNat) :
    (∃ fuel assigned,
      assignInstances hash fuel tenantId config.fleetSize
          config.instancesPerTenant = some assigned ∧
        (owners hash fuel config tenantId).card =
          min config.instancesPerTenant.toNat config.fleetSize.toNat) ↔
      min config.instancesPerTenant.toNat config.fleetSize.toNat ≤
        availableCells (hash tenantId) config.fleetSize := by
  have returns := exists_assignCells_iff hash tenantId
    (show 0 < config.fleetSize.toNat by omega) config.instancesPerTenant
  simp only [← assignInstances_eq] at returns
  rw [← returns]
  constructor
  · rintro ⟨fuel, assigned, returned, _⟩
    exact ⟨fuel, assigned, returned⟩
  · rintro ⟨fuel, assigned, returned⟩
    exact ⟨fuel, assigned, returned,
      card_owners hash config tenantId several returned⟩

end Fleet

/-- Two owners in a fleet of three, with the default `K`. -/
theorem owners_exact_three :
    ∃ fuel assigned,
      assignInstances (fun _ => 0) fuel "acme" 3 2 = some assigned ∧
        (owners (fun _ => 0) fuel { fleetSize := 3 } "acme").card = 2 :=
  (owners_exact_iff (fun _ => 0) { fleetSize := 3 } "acme" (by decide)).2
    (by decide)

/-- A fleet of eight in which every instance is to own every tenant: the
assignment never returns for a tenant of hash 0. -/
theorem owns_never_returns :
    ¬∃ fuel assigned,
      assignInstances (fun _ => 0) fuel "acme" 8 8 = some assigned := by
  simp only [assignInstances_eq]
  rw [exists_assignCells_iff _ _ (by decide)]
  decide

end FleetRouter
end Service
end Fre
