import Fre.Service.FleetRouter

/-!
# Redirect hints

An instance that does not own a tenant answers with the addresses of the
instances that do.  `redirect_hint` walks the owners and, for each of them, the
topology up to the first entry with an address, and puts a comma before every
address but the first.
-/

namespace Fre
namespace Service
namespace FleetRouter

open Foundation Sharding

/-- The entry has the id and an address. -/
def lists (id : UInt32) (info : InstanceInfo) : Bool :=
  info.id == id && !info.address.isEmpty

/-- The inner loop of `redirect_hint` on the stream and the flag `first`: the
first address listed for the id is written, and the loop is left. -/
def writeAddress (id : UInt32) : List InstanceInfo → String × Bool →
    String × Bool
  | [], out => out
  | info :: rest, (oss, first) =>
      if lists id info then
        let oss := if !first then oss ++ "," else oss
        (oss ++ info.address, false)
      else writeAddress id rest (oss, first)

/-- `FleetRouter::redirect_hint`, with a bound on the iterations of the
assignment. -/
def redirectHint
    (hash : String → UInt64)
    (fuel : Nat)
    (config : FleetConfig)
    (tenantId : String) : Option String :=
  if config.fleetSize ≤ 1 || config.topology.isEmpty then some ""
  else
    (assignInstances hash fuel tenantId config.fleetSize
      config.instancesPerTenant).map fun ownerIds =>
        (ownerIds.foldl (fun out id => writeAddress id config.topology out)
          ("", true)).1

/-! ### The addresses of the owners -/

/-- The first non-empty address listed for an instance. -/
def listedAddress (topology : List InstanceInfo) (id : UInt32) :
    Option String :=
  (topology.find? (lists id)).map InstanceInfo.address

/-- The stream and the flag after some addresses. -/
def written (addresses : List String) : String × Bool :=
  (",".intercalate addresses, addresses.isEmpty)

theorem written_concat (addresses : List String) (address : String) :
    written (addresses ++ [address]) =
      ((if !(written addresses).2 then (written addresses).1 ++ ","
        else (written addresses).1) ++ address, false) := by
  unfold written
  cases addresses with
  | nil => simp
  | cons first rest =>
      rw [String.intercalate_append_of_ne_nil (by simp) (by simp)]
      simp

/-- The inner loop writes the listed address, if there is one. -/
theorem writeAddress_written
    (id : UInt32)
    (topology : List InstanceInfo)
    (addresses : List String) :
    writeAddress id topology (written addresses) =
      written (addresses ++ (listedAddress topology id).toList) := by
  unfold listedAddress
  induction topology with
  | nil => simp [writeAddress]
  | cons info rest inductionHypothesis =>
      rw [writeAddress]
      split
      next listed =>
        rw [List.find?_cons_of_pos listed]
        exact (written_concat addresses info.address).symm
      next notListed =>
        rw [List.find?_cons_of_neg notListed]
        exact inductionHypothesis

/-- The outer loop writes the listed addresses of the owners in their order. -/
theorem foldl_writeAddress
    (topology : List InstanceInfo)
    (ownerIds : List UInt32)
    (addresses : List String) :
    ownerIds.foldl (fun out id => writeAddress id topology out)
        (written addresses) =
      written (addresses ++ ownerIds.filterMap (listedAddress topology)) := by
  induction ownerIds generalizing addresses with
  | nil => simp
  | cons id rest inductionHypothesis =>
      rw [List.foldl_cons, writeAddress_written, inductionHypothesis,
        List.append_assoc]
      cases listed : listedAddress topology id with
      | none => rw [List.filterMap_cons_none listed]; rfl
      | some address => rw [List.filterMap_cons_some listed]; rfl

/-- A listed address is not empty and stands in an entry of its instance. -/
theorem exists_of_listedAddress
    {topology : List InstanceInfo}
    {id : UInt32}
    {address : String}
    (listed : listedAddress topology id = some address) :
    address ≠ "" ∧ ∃ info ∈ topology, info.id = id ∧ info.address = address := by
  obtain ⟨info, found, rfl⟩ := Option.map_eq_some_iff.mp listed
  have entry := List.find?_some found
  simp only [lists, Bool.and_eq_true, beq_iff_eq, Bool.not_eq_true',
    String.isEmpty_eq_false_iff] at entry
  exact ⟨entry.2, info, List.mem_of_find?_eq_some found, entry.1, rfl⟩

/-- Only the entries of an instance decide which address is listed for it. -/
theorem listedAddress_filter
    (topology : List InstanceInfo)
    {kept : InstanceInfo → Bool}
    {id : UInt32}
    (keeps : ∀ info, info.id = id → kept info = true) :
    listedAddress (topology.filter kept) id = listedAddress topology id := by
  unfold listedAddress
  rw [List.find?_filter]
  congr 2
  funext info
  by_cases own : info.id = id
  · simp [keeps info own]
  · simp [lists, own]

/-- The hint names exactly the owners: whatever instance is asked, it joins the
first non-empty addresses listed for the instances that own the tenant, none of
them twice; no item is empty, each is the address of an owner, and entries of
other instances have no part in it. -/
structure NamesOwners
    (hash : String → UInt64)
    (fuel : Nat)
    (config : FleetConfig)
    (tenantId : String)
    (ownerIds : List UInt32) : Prop where
  distinct : ownerIds.Nodup
  owners : ∀ id, id ∈ ownerIds ↔
    owns hash fuel (atInstance config id) tenantId = some true
  hint : ∀ instanceId,
    redirectHint hash fuel (atInstance config instanceId) tenantId =
      some (",".intercalate
        (ownerIds.filterMap (listedAddress config.topology)))
  items : ∀ item ∈ ownerIds.filterMap (listedAddress config.topology),
    item ≠ "" ∧ ∃ id ∈ ownerIds, ∃ info ∈ config.topology,
      info.id = id ∧ info.address = item
  ownersOnly : ∀ topology : List InstanceInfo,
    (topology.filter fun info => info.id ∈ ownerIds) =
        (config.topology.filter fun info => info.id ∈ ownerIds) →
      redirectHint hash fuel { config with topology } tenantId =
        redirectHint hash fuel config tenantId

section Fleet

variable (hash : String → UInt64) {config : FleetConfig} {tenantId : String}
  {fuel : Nat} {ownerIds : List UInt32}

/-- The hint is the comma-separated list of the owners' addresses. -/
theorem redirectHint_eq
    (several : 2 ≤ config.fleetSize.toNat)
    (returned : assignInstances hash fuel tenantId config.fleetSize
      config.instancesPerTenant = some ownerIds) :
    redirectHint hash fuel config tenantId =
      some (",".intercalate
        (ownerIds.filterMap (listedAddress config.topology))) := by
  have notSingle : ¬config.fleetSize ≤ 1 := by
    rw [UInt32.le_iff_toNat_le]
    change ¬config.fleetSize.toNat ≤ 1
    omega
  unfold redirectHint
  cases topology : config.topology with
  | nil =>
      have none : ownerIds.filterMap (listedAddress []) = [] := by
        simp [listedAddress]
      simp [none]
  | cons info rest =>
      rw [if_neg (by simp [notSingle]), returned, Option.map_some]
      have written := foldl_writeAddress (info :: rest) ownerIds []
      rw [List.nil_append] at written
      exact congrArg (fun out : String × Bool => some out.1) written

/-- The addresses of the owners come from the entries of the owners. -/
theorem filterMap_listedAddress_congr
    {first second : List InstanceInfo}
    (same : (first.filter fun info => info.id ∈ ownerIds) =
      second.filter fun info => info.id ∈ ownerIds) :
    ownerIds.filterMap (listedAddress first) =
      ownerIds.filterMap (listedAddress second) := by
  refine List.filterMap_congr fun id member => ?_
  have keeps : ∀ info : InstanceInfo, info.id = id →
      decide (info.id ∈ ownerIds) = true := by
    rintro info rfl
    exact decide_eq_true member
  rw [← listedAddress_filter first keeps, same,
    listedAddress_filter second keeps]

/-- In every fleet of at least two instances, the hints for a tenant whose
owners are assigned name exactly the owners. -/
theorem redirect_hint_names_owners
    (several : 2 ≤ config.fleetSize.toNat)
    (returned : assignInstances hash fuel tenantId config.fleetSize
      config.instancesPerTenant = some ownerIds) :
    NamesOwners hash fuel config tenantId ownerIds where
  distinct := by
    rw [assignInstances_eq] at returned
    exact (assignCells_spec hash (by omega) returned).2.1
  owners := by
    intro id
    rw [owns_atInstance hash config tenantId several, returned]
    simp
  hint := fun instanceId =>
    redirectHint_eq hash (show 2 ≤ (atInstance config instanceId).fleetSize.toNat
      from several) returned
  items := by
    intro item member
    obtain ⟨id, owner, listed⟩ := List.mem_filterMap.mp member
    obtain ⟨nonempty, entry⟩ := exists_of_listedAddress listed
    exact ⟨nonempty, id, owner, entry⟩
  ownersOnly := by
    intro topology same
    have changed := redirectHint_eq hash
      (show 2 ≤ ({ config with topology } : FleetConfig).fleetSize.toNat
        from several) returned
    rw [changed, redirectHint_eq hash several returned]
    dsimp only
    rw [filterMap_listedAddress_congr same]

end Fleet

/-- A fleet of three in which instance 1 is listed first without an address. -/
def threeInstances : FleetConfig where
  fleetSize := 3
  topology := [⟨2, "c:80"⟩, ⟨1, ""⟩, ⟨1, "b:80"⟩, ⟨0, "a:80"⟩, ⟨1, "b:81"⟩]

/-- The hint for a tenant of instances 0 and 1. -/
theorem redirect_hint_names_two_owners :
    redirectHint (fun _ => 0) 8 threeInstances "acme" = some "a:80,b:80" := by
  have returned : assignInstances (fun _ => 0) 8 "acme" 3 2 = some [0, 1] := by
    decide
  have names : NamesOwners (fun _ => 0) 8 threeInstances "acme" [0, 1] :=
    redirect_hint_names_owners (fun _ => 0) (by decide) returned
  exact names.hint 0

end FleetRouter
end Service
end Fre
