import Fre.Foundation.Components
import Fre.Service.FleetRouter
import Fre.Service.Program
import Mathlib.Algebra.Order.BigOperators.Group.Finset

/-!
# A fleet of service programs

Every instance of a fleet runs `fre-service` with its own number and the same
sizes.  The instances do not talk to each other; the gate in front of `submit`
keeps the state of a tenant on the instances that own it.
-/

namespace Fre
namespace Service
namespace Fleet

open Foundation Pipeline Sharding ConnectionThread

/-! ### One instance -/

/-- What an instance has of a tenant is what it owns: the entries of its router
and the events that its connections submit. -/
structure Gated (hash : String → UInt64) (fuel : Nat) (fleet : FleetConfig)
    (state : Program.State) : Prop where
  sameFleet : state.impl.fleetRouter = some fleet
  sameHash : state.impl.router.hash = hash
  sameFuel : state.impl.router.fuel = fuel
  entries : ∀ tenantId,
    (state.impl.router.tenants.lookup tenantId).isSome = true →
      FleetRouter.owns hash fuel fleet tenantId = some true
  events : ∀ position ∈ state.connections, ∀ event,
    position.event = some event →
      FleetRouter.owns hash fuel fleet event.tenantId = some true

section Instance

variable {hash : String → UInt64}
variable {fuel : Nat}
variable {fleet : FleetConfig}
variable {config : PipelineConfig}
variable {state next : Program.State}
variable {action : Program.Action}

theorem Gated.owns
    (gated : Gated hash fuel fleet state)
    (tenantId : String) :
    state.impl.owns tenantId =
      FleetRouter.owns hash fuel fleet tenantId := by
  unfold Connection.Impl.owns
  rw [gated.sameFleet, gated.sameHash, gated.sameFuel]

theorem Gated.of_eq
    (gated : Gated hash fuel fleet state)
    (sameConnections : next.connections = state.connections)
    (sameRouter : next.impl.router = state.impl.router)
    (sameFleet : next.impl.fleetRouter = state.impl.fleetRouter) :
    Gated hash fuel fleet next where
  sameFleet := sameFleet.trans gated.sameFleet
  sameHash := sameRouter ▸ gated.sameHash
  sameFuel := sameRouter ▸ gated.sameFuel
  entries := sameRouter ▸ gated.entries
  events := sameConnections ▸ gated.events

/-- Every step of an instance keeps the gate. -/
theorem gated_of_step
    (gated : Gated hash fuel fleet state)
    (stepped : Program.step config state action = some next) :
    Gated hash fuel fleet next := by
  cases Program.stepped_of_step stepped with
  | main sameConnections sameRouter sameFleet _ _ =>
      exact gated.of_eq sameConnections sameRouter sameFleet
  | accepted =>
      refine ⟨gated.sameFleet, gated.sameHash, gated.sameFuel, gated.entries, ?_⟩
      exact Threads.forall_mem_concat gated.events nofun
  | @advanced connection environment impl position after present advanced =>
      have access := access_of_advance advanced
      have own := gated.events position (List.mem_of_getElem? present)
      have sameHash : impl.router.hash = hash := by
        rw [access.config]
        exact gated.sameHash
      have sameFuel : impl.router.fuel = fuel := by
        rw [access.config]
        exact gated.sameFuel
      refine ⟨access.fleet.trans gated.sameFleet, sameHash, sameFuel, ?_, ?_⟩
      · intro tenantId found
        by_cases isOwn : ∃ event, position.event = some event ∧
            event.tenantId = tenantId
        · obtain ⟨event, isEvent, rfl⟩ := isOwn
          exact own event isEvent
        · refine gated.entries tenantId ?_
          rw [← access.others tenantId fun event isEvent same =>
            isOwn ⟨event, isEvent, same⟩]
          exact found
      · refine Threads.forall_mem_set gated.events fun event isEvent => ?_
        rcases access.event event isEvent with before | owned
        · exact own event before
        · exact (gated.owns event.tenantId).symm.trans owned
  | ranEvent _ _ sameConnections sameRouter sameFleet _ _ =>
      exact gated.of_eq sameConnections sameRouter sameFleet

theorem gated_of_run
    {actions : List Program.Action}
    (ran : Machine.run (Program.step config)
      (Program.initial hash fuel config (some fleet)) actions = some state) :
    Gated hash fuel fleet state := by
  refine Machine.invariant_of_run (fun _ _ _ => gated_of_step) ?_ ran
  exact ⟨rfl, rfl, rfl, nofun, nofun⟩

end Instance

/-! ### The fleet -/

/-- The instances of a fleet before their first step, each with a configuration
of its own for its pipeline. -/
def initial (hash : String → UInt64) (fuel : Nat) (fleet : FleetConfig)
    (configs : Nat → PipelineConfig) : List Program.State :=
  (List.range fleet.fleetSize.toNat).map fun number =>
    Program.initial hash fuel (configs number)
      (some (FleetRouter.atInstance fleet (UInt32.ofNat number)))

/-- One step of one instance. -/
def step (configs : Nat → PipelineConfig) :
    List Program.State → Nat × Program.Action → Option (List Program.State) :=
  Components.step fun number => Program.step (configs number)

/-- An instance has state of a tenant, or an event of it under way. -/
def touches (tenantId : String) (state : Program.State) : Bool :=
  (state.impl.router.tenants.lookup tenantId).isSome ||
    state.connections.any fun position =>
      position.event.any fun event => event.tenantId = tenantId

/-- The instances that have anything of a tenant. -/
def touched (tenantId : String) (states : List Program.State) : Finset Nat :=
  (Finset.range states.length).filter fun number =>
    states[number]?.any (touches tenantId)

theorem owns_of_touches
    {hash : String → UInt64}
    {fuel : Nat}
    {fleet : FleetConfig}
    {state : Program.State}
    {tenantId : String}
    (gated : Gated hash fuel fleet state)
    (isTouched : touches tenantId state = true) :
    FleetRouter.owns hash fuel fleet tenantId = some true := by
  rcases Bool.or_eq_true_iff.mp isTouched with found | submitted
  · exact gated.entries tenantId found
  · obtain ⟨position, member, submits⟩ := List.any_eq_true.mp submitted
    obtain ⟨event, isEvent, same⟩ := (Option.any_eq_true _ _).mp submits
    rw [← of_decide_eq_true same]
    exact gated.events position member event isEvent

section Runs

variable {hash : String → UInt64}
variable {fuel : Nat}
variable {fleet : FleetConfig}
variable {configs : Nat → PipelineConfig}
variable {actions : List (Nat × Program.Action)}
variable {final : List Program.State}

/-- Every instance of a fleet makes a run of its own. -/
theorem exists_run_of_instance
    (ran : Machine.run (step configs) (initial hash fuel fleet configs) actions =
      some final)
    {number : Nat}
    (inRange : number < fleet.fleetSize.toNat) :
    ∃ state, final[number]? = some state ∧
      Machine.run (Program.step (configs number))
        (Program.initial hash fuel (configs number)
          (some (FleetRouter.atInstance fleet (UInt32.ofNat number))))
        (Components.actionsOf number actions) = some state := by
  refine Components.run_component ran ?_
  simp [initial, inRange]

theorem length_of_fleet_run
    (ran : Machine.run (step configs) (initial hash fuel fleet configs) actions =
      some final) :
    final.length = fleet.fleetSize.toNat := by
  rw [Components.length_of_run ran]
  simp [initial]

theorem touched_subset_owners
    (ran : Machine.run (step configs) (initial hash fuel fleet configs) actions =
      some final)
    (tenantId : String) :
    touched tenantId final ⊆ FleetRouter.owners hash fuel fleet tenantId := by
  intro number member
  obtain ⟨inRange, isTouched⟩ := Finset.mem_filter.mp member
  rw [length_of_fleet_run ran] at inRange
  obtain ⟨state, present, ownRan⟩ :=
    exists_run_of_instance ran (Finset.mem_range.mp inRange)
  rw [present] at isTouched
  exact Finset.mem_filter.mpr
    ⟨inRange, owns_of_touches (gated_of_run ownRan) isTouched⟩

theorem card_touched_le
    (several : 2 ≤ fleet.fleetSize.toNat)
    (ran : Machine.run (step configs) (initial hash fuel fleet configs) actions =
      some final)
    (tenantId : String) :
    (touched tenantId final).card ≤
      min fleet.instancesPerTenant.toNat fleet.fleetSize.toNat := by
  have subset := touched_subset_owners ran tenantId
  by_cases nobody : touched tenantId final = ∅
  · rw [nobody]
    exact Nat.zero_le _
  · obtain ⟨number, member⟩ := Finset.nonempty_iff_ne_empty.mpr nobody
    obtain ⟨-, owned⟩ := Finset.mem_filter.mp (subset member)
    rw [FleetRouter.owns_atInstance hash fleet tenantId several] at owned
    obtain ⟨assigned, returned, -⟩ := Option.map_eq_some_iff.mp owned
    rw [← FleetRouter.card_owners hash fleet tenantId several returned]
    exact Finset.card_le_card subset

/-- A connection with a slot of a tenant has an event of it. -/
theorem touches_of_granted
    {state : Program.State}
    {tenantId : String}
    (positive : 0 < Program.granted state tenantId) :
    touches tenantId state = true := by
  obtain ⟨position, member, isGranted⟩ := List.countP_pos_iff.mp positive
  refine Bool.or_eq_true_iff.mpr (.inr (List.any_eq_true.mpr
    ⟨position, member, ?_⟩))
  cases position <;> first | exact isGranted | cases isGranted

/-- The slots of a tenant on an instance, zero if there is no such instance. -/
def grantedAt (states : List Program.State) (tenantId : String)
    (number : Nat) : Nat :=
  match states[number]? with
  | some state => Program.granted state tenantId
  | none => 0

/-- An instance that has nothing of a tenant has given it no slot. -/
theorem grantedAt_of_not_touched
    {tenantId : String}
    {number : Nat}
    (notTouched : number ∉ touched tenantId final) :
    grantedAt final tenantId number = 0 := by
  unfold grantedAt
  cases present : final[number]? with
  | none => rfl
  | some state =>
      obtain ⟨inRange, -⟩ := List.getElem?_eq_some_iff.mp present
      refine Nat.eq_zero_of_not_pos fun positive => notTouched ?_
      refine Finset.mem_filter.mpr ⟨Finset.mem_range.mpr inRange, ?_⟩
      rw [present]
      exact touches_of_granted positive

/-- Whatever clients post to the instances of a fleet, and however the threads
of all instances are interleaved, the instances that have anything of a tenant
are owners of it, and they are at most `min(K, N)`; on all of them together the
tenant has at most that many times the slots of the cap, where all instances have
the same cap and none has had `2 ^ 31` connections. -/
theorem tenant_stays_on_owners
    (several : 2 ≤ fleet.fleetSize.toNat)
    (ran : Machine.run (step configs) (initial hash fuel fleet configs) actions =
      some final)
    (tenantId : String) :
    touched tenantId final ⊆ FleetRouter.owners hash fuel fleet tenantId ∧
      (touched tenantId final).card ≤
        min fleet.instancesPerTenant.toNat fleet.fleetSize.toNat ∧
      ((∀ state ∈ final, state.connections.length < 2 ^ 31) →
        ∀ maxConcurrent : Int32, (∀ number,
          (configs number).rateLimit.maxConcurrent = maxConcurrent) →
        ∑ number ∈ Finset.range fleet.fleetSize.toNat,
            grantedAt final tenantId number ≤
          min fleet.instancesPerTenant.toNat fleet.fleetSize.toNat *
            maxConcurrent.toInt.toNat) := by
  have atMost := card_touched_le several ran tenantId
  refine ⟨touched_subset_owners ran tenantId, atMost, ?_⟩
  intro few maxConcurrent sameCap
  have inRange : touched tenantId final ⊆
      Finset.range fleet.fleetSize.toNat := by
    rw [← length_of_fleet_run ran]
    exact Finset.filter_subset _ _
  have capped : ∀ number ∈ touched tenantId final,
      grantedAt final tenantId number ≤ maxConcurrent.toInt.toNat := by
    intro number member
    obtain ⟨state, present, ownRan⟩ :=
      exists_run_of_instance ran (Finset.mem_range.mp (inRange member))
    have exactly := Program.slotsExact_of_run ownRan
      (few state (List.mem_of_getElem? present))
    have belowCap := exactly.belowCap tenantId
    rw [sameCap number] at belowCap
    rw [grantedAt, present]
    dsimp only
    omega
  rw [← Finset.sum_subset inRange fun number _ notTouched =>
    grantedAt_of_not_touched notTouched]
  calc ∑ number ∈ touched tenantId final, grantedAt final tenantId number
      ≤ (touched tenantId final).card * maxConcurrent.toInt.toNat :=
        Finset.sum_le_card_nsmul _ _ _ capped
    _ ≤ _ := Nat.mul_le_mul_right _ atMost

end Runs

/-- A fleet of three, with two owners for each tenant. -/
def three : FleetConfig where
  fleetSize := 3

/-- An instance starts and reads an event, which an owner goes on to submit. -/
def readEvent : List Program.Action :=
  [.start {}, .check, .accept Program.eventText,
    .advance 0 Connection.eventEnvironment]

/-- All three instances get the event; the first goes on until the event has a
slot. -/
def postToAll : List (Nat × Program.Action) :=
  (readEvent.map fun action => (0, action)) ++
    (readEvent.map fun action => (1, action)) ++
    (readEvent.map fun action => (2, action)) ++
    List.replicate 3 (0, .advance 0 Connection.eventEnvironment)

/-- The run of these steps. -/
def postToAllRun := Machine.run (step fun _ => Program.oneSlot)
  (initial (fun _ => 0) 8 three fun _ => Program.oneSlot) postToAll

theorem postToAll_connects :
    postToAllRun.any (fun final =>
      (∀ state ∈ final, state.connections.length < 2 ^ 31) ∧
        touched "t1" final = {0, 1} ∧ grantedAt final "t1" 0 = 1) = true := by
  decide +kernel

/-- Two of the three have something of the tenant, and on all of them together
it has at most two slots. -/
theorem tenant_stays_on_owners_postToAll :
    ∃ final, postToAllRun = some final ∧
      {0, 1} ⊆ FleetRouter.owners (fun _ => 0) 8 three "t1" ∧
      ∑ number ∈ Finset.range 3, grantedAt final "t1" number ≤ 2 := by
  obtain ⟨final, ran, reached⟩ :=
    (Option.any_eq_true _ _).mp postToAll_connects
  obtain ⟨few, isTouched, -⟩ := of_decide_eq_true reached
  obtain ⟨onOwners, -, capped⟩ :=
    tenant_stays_on_owners (by decide) ran "t1"
  rw [isTouched] at onOwners
  exact ⟨final, ran, onOwners, capped few 1 fun _ => rfl⟩

end Fleet
end Service
end Fre
