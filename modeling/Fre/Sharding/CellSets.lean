import Fre.Sharding.AssignCells
import Mathlib.Data.Set.Card

/-!
# Cell sets of a power of two

With a power of two of cells, the remainder of a candidate is the remainder of
its mask with some bits flipped, and the hash says which.  The cells of every
tenant are those of hash zero with the same bits flipped, so there are no more
cell sets than cells.
-/

namespace Fre
namespace Sharding

open Foundation

/-- The remainder of the hash, as a cell. -/
def hashCell (h : UInt64) (numCells : UInt32) : UInt32 :=
  (h % numCells.toUInt64).toUInt32

section PowerOfTwo

variable {numCells : UInt32} {k : Nat} (power : numCells.toNat = 2 ^ k)

include power

theorem hashCell_toNat (h : UInt64) :
    (hashCell h numCells).toNat = h.toNat % 2 ^ k := by
  have bound : h.toNat % 2 ^ k < 2 ^ 32 := by
    rw [← power]
    exact (Nat.mod_lt _ (by rw [power]; positivity)).trans numCells.toNat_lt
  unfold hashCell
  rw [UInt64.toNat_toUInt32, UInt64.toNat_mod, UInt32.toNat_toUInt64, power,
    Nat.mod_eq_of_lt bound]

/-- A candidate is the one of hash zero with the bits of the remainder
flipped. -/
theorem candidates_xor (h : UInt64) (count : Nat) :
    candidates h numCells count =
      candidates 0 numCells count ^^^ hashCell h numCells := by
  have positive : 0 < numCells.toNat := by
    rw [power]
    positivity
  apply UInt32.toNat_inj.mp
  rw [UInt32.toNat_xor, hashCell_toNat power]
  unfold candidates
  rw [candidateCell_toNat h positive, candidateCell_toNat 0 positive, power,
    UInt64.toNat_zero, Nat.zero_xor, Nat.xor_mod_two_pow, Nat.xor_comm]

/-- The cells of a tenant are those of hash zero with the bits of the remainder
flipped; one assignment returns exactly when the other does. -/
theorem assignCells_eq_map_xor
    (hash : String → UInt64)
    (fuel : Nat)
    (tenantId : String)
    (cellsPerTenant : UInt32) :
    assignCells hash fuel tenantId numCells cellsPerTenant =
      (assignCells (fun _ => 0) fuel tenantId numCells cellsPerTenant).map
        (List.map fun cell => cell ^^^ hashCell (hash tenantId) numCells) := by
  have injective : Function.Injective fun cell : UInt32 =>
      cell ^^^ hashCell (hash tenantId) numCells := by
    intro first second same
    exact (UInt32.xor_left_inj _).mp same
  have renamed : candidates (hash tenantId) numCells = fun count =>
      candidates 0 numCells count ^^^ hashCell (hash tenantId) numCells :=
    funext (candidates_xor power (hash tenantId))
  rw [assignCells_eq_collect, assignCells_eq_collect, renamed]
  exact DistinctScan.collect_map injective fuel 0 []

end PowerOfTwo

/-- Two assignments of hash zero return the same cells, for every tenant. -/
theorem assignCells_zero_unique
    {numCells cellsPerTenant : UInt32}
    (positive : 0 < numCells.toNat)
    {fuel otherFuel : Nat}
    {tenantId otherTenant : String}
    {cells otherCells : List UInt32}
    (returned : assignCells (fun _ => 0) fuel tenantId numCells
      cellsPerTenant = some cells)
    (otherReturned : assignCells (fun _ => 0) otherFuel otherTenant numCells
      cellsPerTenant = some otherCells) :
    cells = otherCells := by
  rw [assignCells_eq_collect] at returned otherReturned
  exact DistinctScan.collect_unique positive returned otherReturned

/-- The cell sets that the assignment gives to tenants of any hash. -/
def cellSets (numCells cellsPerTenant : UInt32) : Set (Finset UInt32) :=
  { cellSet | ∃ hash fuel tenantId cells,
      assignCells hash fuel tenantId numCells cellsPerTenant = some cells ∧
        cellSet = cells.toFinset }

/-- The cell set with the bits of a number flipped in every cell. -/
def flippedCells (cells : List UInt32) (remainder : Nat) : Finset UInt32 :=
  (cells.map fun cell => cell ^^^ UInt32.ofNat remainder).toFinset

section Shape

variable {numCells : UInt32} {k : Nat} (power : numCells.toNat = 2 ^ k)

include power

/-- With the assignment of hash zero, every cell set comes from a remainder. -/
theorem cellSets_subset
    {cellsPerTenant : UInt32}
    {fuel : Nat}
    {tenantId : String}
    {cells : List UInt32}
    (returned : assignCells (fun _ => 0) fuel tenantId numCells
      cellsPerTenant = some cells) :
    cellSets numCells cellsPerTenant ⊆
      ((Finset.range numCells.toNat).image (flippedCells cells) :
        Finset (Finset UInt32)) := by
  have positive : 0 < numCells.toNat := by
    rw [power]
    positivity
  rintro cellSet ⟨hash, otherFuel, otherTenant, otherCells, otherReturned, rfl⟩
  rw [assignCells_eq_map_xor power] at otherReturned
  obtain ⟨zeroCells, zeroReturned, rfl⟩ :=
    Option.map_eq_some_iff.mp otherReturned
  obtain rfl := assignCells_zero_unique positive returned zeroReturned
  rw [Finset.mem_coe, Finset.mem_image]
  refine ⟨(hashCell (hash otherTenant) numCells).toNat, ?_, ?_⟩
  · rw [Finset.mem_range, hashCell_toNat power, power]
    exact Nat.mod_lt _ (by positivity)
  · rw [flippedCells, UInt32.ofNat_toNat]

/-- There are at most as many cell sets as cells. -/
theorem encard_cellSets_le (cellsPerTenant : UInt32) :
    (cellSets numCells cellsPerTenant).encard ≤ numCells.toNat := by
  by_cases returns : ∃ fuel cells,
      assignCells (fun _ => 0) fuel "" numCells cellsPerTenant = some cells
  · obtain ⟨fuel, cells, returned⟩ := returns
    calc
      (cellSets numCells cellsPerTenant).encard ≤
          (((Finset.range numCells.toNat).image (flippedCells cells) :
            Finset (Finset UInt32)) : Set (Finset UInt32)).encard :=
        Set.encard_le_encard (cellSets_subset power returned)
      _ = ((Finset.range numCells.toNat).image (flippedCells cells)).card :=
        Set.encard_coe_eq_coe_finsetCard _
      _ ≤ numCells.toNat := by
        have atMost : ((Finset.range numCells.toNat).image
            (flippedCells cells)).card ≤ (Finset.range numCells.toNat).card :=
          Finset.card_image_le
        rw [Finset.card_range] at atMost
        exact_mod_cast atMost
  · have empty : cellSets numCells cellsPerTenant = ∅ := by
      refine Set.eq_empty_iff_forall_notMem.mpr ?_
      rintro cellSet ⟨hash, fuel, tenantId, cells, returned, -⟩
      rw [assignCells_eq_map_xor power] at returned
      obtain ⟨zeroCells, zeroReturned, -⟩ := Option.map_eq_some_iff.mp returned
      exact returns ⟨fuel, zeroCells, zeroReturned⟩
    rw [empty, Set.encard_empty]
    exact zero_le

/-- The shape of power-of-two sharding.  The assignment of every hash is that
of hash zero with every entry xored with the remainder of the hash, so that the
cell set depends on the remainder only, and there are no more cell sets than
cells. -/
theorem power_of_two_shape (cellsPerTenant : UInt32) :
    (∀ hash fuel tenantId,
      assignCells hash fuel tenantId numCells cellsPerTenant =
        (assignCells (fun _ => 0) fuel tenantId numCells cellsPerTenant).map
          (List.map fun cell => cell ^^^ hashCell (hash tenantId) numCells)) ∧
    (∀ hash fuel tenantId cells otherHash otherFuel otherTenant otherCells,
      assignCells hash fuel tenantId numCells cellsPerTenant = some cells →
      assignCells otherHash otherFuel otherTenant numCells cellsPerTenant =
        some otherCells →
      (hash tenantId).toNat % numCells.toNat =
        (otherHash otherTenant).toNat % numCells.toNat →
      cells.toFinset = otherCells.toFinset) ∧
    (cellSets numCells cellsPerTenant).encard ≤ numCells.toNat := by
  have positive : 0 < numCells.toNat := by
    rw [power]
    positivity
  refine ⟨fun hash fuel tenantId =>
    assignCells_eq_map_xor power hash fuel tenantId cellsPerTenant, ?_,
    encard_cellSets_le power cellsPerTenant⟩
  intro hash fuel tenantId cells otherHash otherFuel otherTenant otherCells
    returned otherReturned sameRemainder
  rw [assignCells_eq_map_xor power] at returned otherReturned
  obtain ⟨zeroCells, zeroReturned, rfl⟩ := Option.map_eq_some_iff.mp returned
  obtain ⟨otherZero, otherZeroReturned, rfl⟩ :=
    Option.map_eq_some_iff.mp otherReturned
  have sameCell : hashCell (hash tenantId) numCells =
      hashCell (otherHash otherTenant) numCells := by
    apply UInt32.toNat_inj.mp
    rw [hashCell_toNat power, hashCell_toNat power, ← power, sameRemainder]
  rw [assignCells_zero_unique positive zeroReturned otherZeroReturned, sameCell]

end Shape

/-- With the default configuration, the tenants of all hashes have at most
sixteen cell sets, and hash five gives the cells of hash zero xored with
five. -/
theorem power_of_two_shape_sixteen :
    assignCells (fun _ => 5) 8 "acme" 16 4 = some [9 ^^^ 5, 15 ^^^ 5,
        13 ^^^ 5, 8 ^^^ 5] ∧
      (cellSets 16 4).encard ≤ 16 := by
  obtain ⟨flipped, -, few⟩ :=
    power_of_two_shape (show (16 : UInt32).toNat = 2 ^ 4 by decide) 4
  refine ⟨?_, few⟩
  rw [flipped (fun _ => 5) 8 "acme"]
  decide

end Sharding
end Fre
