import Fre.Sharding.Config
import Fre.Foundation.DistinctScan
import Fre.Foundation.Residues
import Mathlib.Tactic.IntervalCases

/-!
# Shuffle-shard cell assignment

`assign_cells` walks the candidates `(h xor (seed + i)) % num_cells` for
`i = 0, 1, 2, …` with a 32-bit counter and keeps each cell the first time it
appears.  From the ninth candidate on, `seed + i` is a multiple of an even
constant, so apart from the eight table seeds only even masks are ever tried.
The loop returns exactly when the residues that these masks can reach are at
least as many as the cells wanted; `availableCells` counts them in closed
form.
-/

namespace Fre
namespace Sharding

open Foundation

/-- `k_hash_seeds`. -/
def kHashSeeds : List UInt32 :=
  [0x9e3779b9, 0x6c62272e, 0x94d049bb, 0xe9546b25,
    0x12e15e35, 0x3b1d8f2b, 0x7c9e4ab3, 0x4f5a1c9f]

/-- The seed of iteration `i`: the table first, then a Weyl sequence. -/
def seed (i : UInt32) : UInt32 :=
  match kHashSeeds[i.toNat]? with
  | some value => value
  | none => i * 0x9e3779b9

/-- The cell tried in iteration `i`. -/
def candidateCell (h : UInt64) (numCells i : UInt32) : UInt32 :=
  ((h ^^^ (seed i + i).toUInt64) % numCells.toUInt64).toUInt32

/-- The loop of `assign_cells` from iteration `i` on, with the cells assigned
so far.  The counter `i` wraps around at `2 ^ 32`; running out of fuel gives
`none`. -/
def assignLoop
    (h : UInt64)
    (numCells cellsPerTenant : UInt32) :
    Nat → UInt32 → List UInt32 → Option (List UInt32)
  | fuel, i, cells =>
      if cells.length < cellsPerTenant.toNat then
        match fuel with
        | 0 => none
        | fuel + 1 =>
            let cell := candidateCell h numCells i
            let cells := if cell ∈ cells then cells else cells ++ [cell]
            if cells.length = numCells.toNat then some cells
            else assignLoop h numCells cellsPerTenant fuel (i + 1) cells
      else some cells

/-- `assign_cells` for a tenant id, with `std::hash` as a parameter and a
bound on the number of iterations. -/
def assignCells
    (hash : String → UInt64)
    (fuel : Nat)
    (tenantId : String)
    (numCells cellsPerTenant : UInt32) : Option (List UInt32) :=
  assignLoop (hash tenantId) numCells cellsPerTenant fuel 0 []

/-- The loop is the generic collection loop over the candidate cells. -/
theorem assignLoop_eq_collect
    (h : UInt64)
    (numCells cellsPerTenant : UInt32)
    (fuel index : Nat)
    (cells : List UInt32) :
    assignLoop h numCells cellsPerTenant fuel (UInt32.ofNat index) cells =
      DistinctScan.collect
        (fun count => candidateCell h numCells (UInt32.ofNat count))
        cellsPerTenant.toNat numCells.toNat fuel index cells := by
  induction fuel generalizing index cells with
  | zero => rfl
  | succ fuel inductionHypothesis =>
      unfold assignLoop DistinctScan.collect
      have next : UInt32.ofNat index + 1 = UInt32.ofNat (index + 1) := by
        rw [UInt32.ofNat_add]
        rfl
      simp only [next, inductionHypothesis, DistinctScan.pushNew]
      congr

/-! ## The masks that are tried -/

/-- The odd masks `seed + i`: they all come from the table. -/
def oddMasks : List Nat :=
  [0x9e3779b9, 0x6c62272f, 0x94d049bd, 0x12e15e39, 0x7c9e4ab9]

/-- The masks the loop can try: every even 32-bit number and five odd
ones. -/
def masks : Finset Nat :=
  (Finset.range (2 ^ 32)).filter fun mask => mask % 2 = 0 ∨ mask ∈ oddMasks

theorem mask_of_ge_eight (i : UInt32) (late : 8 ≤ i.toNat) :
    (seed i + i).toNat = i.toNat * 0x9e3779ba % 2 ^ 32 := by
  have pastTable : kHashSeeds[i.toNat]? = none :=
    List.getElem?_eq_none late
  unfold seed
  rw [pastTable]
  dsimp only
  rw [UInt32.toNat_add, UInt32.toNat_mul, Nat.mod_add_mod]
  exact congrArg (· % 2 ^ 32) (Nat.mul_succ i.toNat 0x9e3779b9).symm

theorem mask_of_lt_eight (i : Nat) (early : i < 8) :
    (seed (UInt32.ofNat i) + UInt32.ofNat i).toNat % 2 = 0 ∨
      (seed (UInt32.ofNat i) + UInt32.ofNat i).toNat ∈ oddMasks := by
  interval_cases i <;> decide

/-- Every even mask is tried: the constant of the Weyl sequence is twice an
odd number, which is invertible modulo `2 ^ 31`. -/
theorem exists_index_of_even
    (mask : Nat)
    (bound : mask < 2 ^ 32)
    (even : mask % 2 = 0) :
    ∃ i : UInt32, (seed i + i).toNat = mask := by
  have indexBound : mask / 2 * 828308341 % 2 ^ 31 + 2 ^ 31 < 2 ^ 32 := by omega
  refine ⟨UInt32.ofNat (mask / 2 * 828308341 % 2 ^ 31 + 2 ^ 31), ?_⟩
  have index : (UInt32.ofNat (mask / 2 * 828308341 % 2 ^ 31 + 2 ^ 31)).toNat =
      mask / 2 * 828308341 % 2 ^ 31 + 2 ^ 31 :=
    UInt32.toNat_ofNat_of_lt' indexBound
  rw [mask_of_ge_eight _ (by rw [index]; omega), index]
  omega

theorem exists_index_of_odd
    (mask : Nat)
    (member : mask ∈ oddMasks) :
    ∃ i : UInt32, (seed i + i).toNat = mask := by
  simp only [oddMasks, List.mem_cons, List.not_mem_nil, or_false] at member
  rcases member with rfl | rfl | rfl | rfl | rfl
  · exact ⟨0, by decide⟩
  · exact ⟨1, by decide⟩
  · exact ⟨2, by decide⟩
  · exact ⟨4, by decide⟩
  · exact ⟨6, by decide⟩

/-- Exactly the masks of `masks` are tried. -/
theorem mem_masks_iff (mask : Nat) :
    mask ∈ masks ↔ ∃ i : UInt32, (seed i + i).toNat = mask := by
  unfold masks
  rw [Finset.mem_filter, Finset.mem_range]
  constructor
  · rintro ⟨bound, even | odd⟩
    · exact exists_index_of_even mask bound even
    · exact exists_index_of_odd mask odd
  · rintro ⟨i, rfl⟩
    refine ⟨(seed i + i).toNat_lt, ?_⟩
    by_cases late : 8 ≤ i.toNat
    · left
      rw [mask_of_ge_eight i late]
      omega
    · have early := mask_of_lt_eight i.toNat (by omega)
      rwa [UInt32.ofNat_toNat] at early

/-! ## Counting the reachable cells -/

/-- Cells reached by some mask. -/
def reachableCells (h : UInt64) (numCells : UInt32) : Finset Nat :=
  masks.image fun mask => (h.toNat ^^^ mask) % numCells.toNat

/-- The odd masks whose candidate differs from every candidate of an even
mask modulo an odd `n` above `2 ^ 31`: neither one modulus below nor one above
it is there another 32-bit number. -/
def loneMasks (h : UInt64) (n : Nat) : List Nat :=
  oddMasks.filter fun mask =>
    (h.toNat ^^^ mask) % 2 ^ 32 < n ∧ 2 ^ 32 ≤ (h.toNat ^^^ mask) % 2 ^ 32 + n

/-- Number of cells the loop can ever assign, in closed form.  For an even
number of cells, the half with the parity of `h` and what the odd masks add;
for an odd number, all of them as long as they fit twice into 32 bits, else
one for each even mask and one for each lone odd mask. -/
def availableCells (h : UInt64) (numCells : UInt32) : Nat :=
  let n := numCells.toNat
  if n % 2 = 0 then
    n / 2 + (oddMasks.map fun mask => (h.toNat ^^^ mask) % n).toFinset.card
  else if 2 * n ≤ 2 ^ 32 then n
  else 2 ^ 31 + (loneMasks h n).length

theorem candidateCell_toNat
    (h : UInt64)
    {numCells : UInt32}
    (positive : 0 < numCells.toNat)
    (i : UInt32) :
    (candidateCell h numCells i).toNat =
      (h.toNat ^^^ (seed i + i).toNat) % numCells.toNat := by
  unfold candidateCell
  rw [UInt64.toNat_toUInt32, UInt64.toNat_mod, UInt64.toNat_xor,
    UInt32.toNat_toUInt64, UInt32.toNat_toUInt64]
  exact Nat.mod_eq_of_lt ((Nat.mod_lt _ positive).trans numCells.toNat_lt)

/-- One period of the counter tries exactly the reachable cells. -/
theorem image_candidateCell
    (h : UInt64)
    {numCells : UInt32}
    (positive : 0 < numCells.toNat) :
    ((Finset.range (2 ^ 32)).image fun index =>
        candidateCell h numCells (UInt32.ofNat index)).image UInt32.toNat =
      reachableCells h numCells := by
  ext cell
  simp only [reachableCells, Finset.mem_image, Finset.mem_range,
    exists_exists_and_eq_and, mem_masks_iff, exists_exists_eq_and,
    candidateCell_toNat h positive]
  constructor
  · rintro ⟨index, _, rfl⟩
    exact ⟨UInt32.ofNat index, rfl⟩
  · rintro ⟨i, rfl⟩
    exact ⟨i.toNat, i.toNat_lt, by rw [UInt32.ofNat_toNat]⟩

theorem card_image_candidateCell
    (h : UInt64)
    {numCells : UInt32}
    (positive : 0 < numCells.toNat) :
    ((Finset.range (2 ^ 32)).image fun index =>
        candidateCell h numCells (UInt32.ofNat index)).card =
      (reachableCells h numCells).card := by
  rw [← image_candidateCell h positive,
    Finset.card_image_of_injective _ fun _ _ => UInt32.toNat_inj.mp]

/-- The high half of the hash, as the even base of all candidates. -/
def hashBase (h : UInt64) : Nat := h.toNat / 2 ^ 32 * 2 ^ 32

theorem xor_mask_eq (h : UInt64) {mask : Nat} (bound : mask < 2 ^ 32) :
    h.toNat ^^^ mask =
      hashBase h + (h.toNat ^^^ mask) % 2 ^ 32 := by
  rw [Nat.xor_mod_two_pow, Nat.mod_eq_of_lt bound]
  exact Residues.xor_eq_add_of_lt h.toNat bound

/-- Cells reached by the even masks. -/
def evenCells (h : UInt64) (numCells : UInt32) : Finset Nat :=
  Residues.parityResidues (hashBase h) (2 ^ 32) (h.toNat % 2) numCells.toNat

/-- Cells reached by the odd masks. -/
def oddCells (h : UInt64) (numCells : UInt32) : Finset Nat :=
  (oddMasks.map fun mask => (h.toNat ^^^ mask) % numCells.toNat).toFinset

theorem oddMasks_bound {mask : Nat} (member : mask ∈ oddMasks) :
    mask < 2 ^ 32 ∧ mask % 2 = 1 := by
  have all : ∀ mask ∈ oddMasks, mask < 2 ^ 32 ∧ mask % 2 = 1 := by decide
  exact all mask member

/-- The even masks give the numbers of the parity of `h` above its base. -/
theorem reachableCells_eq (h : UInt64) (numCells : UInt32) :
    reachableCells h numCells =
      evenCells h numCells ∪ oddCells h numCells := by
  ext cell
  rw [Finset.mem_union, evenCells, Residues.mem_parityResidues, oddCells,
    List.mem_toFinset, List.mem_map, reachableCells, Finset.mem_image]
  constructor
  · rintro ⟨mask, member, rfl⟩
    rw [masks, Finset.mem_filter, Finset.mem_range] at member
    obtain ⟨bound, even | odd⟩ := member
    · left
      refine ⟨(h.toNat ^^^ mask) % 2 ^ 32, Nat.mod_lt _ (by norm_num), ?_, ?_⟩
      · rw [Nat.mod_mod_of_dvd _ (by norm_num), Nat.xor_mod_two_eq]
        omega
      · rw [← xor_mask_eq h bound]
    · exact Or.inr ⟨mask, odd, rfl⟩
  · rintro (⟨low, bound, parity, rfl⟩ | ⟨mask, odd, rfl⟩)
    · have maskBound : h.toNat % 2 ^ 32 ^^^ low < 2 ^ 32 :=
        Nat.xor_lt_two_pow (Nat.mod_lt _ (by norm_num)) bound
      refine ⟨h.toNat % 2 ^ 32 ^^^ low, ?_, ?_⟩
      · rw [masks, Finset.mem_filter, Finset.mem_range]
        refine ⟨maskBound, Or.inl ?_⟩
        rw [Nat.xor_mod_two_eq]
        omega
      · rw [xor_mask_eq h maskBound, Nat.xor_mod_two_pow,
          Nat.mod_eq_of_lt maskBound, ← Nat.xor_assoc, Nat.xor_self,
          Nat.zero_xor]
    · refine ⟨mask, ?_, rfl⟩
      rw [masks, Finset.mem_filter, Finset.mem_range]
      exact ⟨(oddMasks_bound odd).1, Or.inr odd⟩

theorem card_reachableCells_of_even
    (h : UInt64)
    {numCells : UInt32}
    (positive : 0 < numCells.toNat)
    (even : numCells.toNat % 2 = 0) :
    (reachableCells h numCells).card =
      numCells.toNat / 2 + (oddCells h numCells).card := by
  have baseEven : hashBase h % 2 = 0 := by
    unfold hashBase
    omega
  have fits : numCells.toNat ≤ 2 ^ 32 := numCells.toNat_lt.le
  have evenEq : evenCells h numCells =
      (Finset.range numCells.toNat).filter
        fun residue => residue % 2 = h.toNat % 2 :=
    Residues.parityResidues_of_even positive baseEven even fits
  have disjoint : Disjoint (evenCells h numCells) (oddCells h numCells) := by
    rw [evenEq, Finset.disjoint_left]
    intro cell evenMember oddMember
    rw [Finset.mem_filter] at evenMember
    rw [oddCells, List.mem_toFinset, List.mem_map] at oddMember
    obtain ⟨mask, member, rfl⟩ := oddMember
    have parity := evenMember.2
    rw [Nat.mod_mod_of_dvd _ (Nat.dvd_of_mod_eq_zero even),
      Nat.xor_mod_two_eq] at parity
    have := (oddMasks_bound member).2
    omega
  rw [reachableCells_eq, Finset.card_union_of_disjoint disjoint, evenEq,
    Residues.card_filter_parity even (Nat.mod_lt _ (by norm_num))]

theorem card_reachableCells_of_odd
    (h : UInt64)
    {numCells : UInt32}
    (odd : numCells.toNat % 2 = 1)
    (fits : 2 * numCells.toNat ≤ 2 ^ 32) :
    (reachableCells h numCells).card = numCells.toNat := by
  have evenEq : evenCells h numCells = Finset.range numCells.toNat :=
    Residues.parityResidues_of_odd (Nat.mod_lt _ (by norm_num)) odd fits
  have oddSubset : oddCells h numCells ⊆ Finset.range numCells.toNat := by
    intro cell member
    rw [oddCells, List.mem_toFinset, List.mem_map] at member
    obtain ⟨mask, _, rfl⟩ := member
    exact Finset.mem_range.mpr (Nat.mod_lt _ (by omega))
  rw [reachableCells_eq, evenEq, Finset.union_eq_left.mpr oddSubset,
    Finset.card_range]

theorem xor_mask_parity
    (h : UInt64)
    {mask : Nat}
    (member : mask ∈ oddMasks) :
    (h.toNat ^^^ mask) % 2 ^ 32 % 2 ≠ h.toNat % 2 := by
  rw [Nat.mod_mod_of_dvd _ (by norm_num), Nat.xor_mod_two_eq]
  have := (oddMasks_bound member).2
  omega

/-- With an odd number of cells above `2 ^ 31` no two odd masks reach the same
cell. -/
theorem odd_cells_injective
    (h : UInt64)
    {numCells : UInt32}
    (odd : numCells.toNat % 2 = 1)
    (large : 2 ^ 32 < 2 * numCells.toNat)
    {left right : Nat}
    (leftMember : left ∈ oddMasks)
    (rightMember : right ∈ oddMasks)
    (same : (h.toNat ^^^ left) % numCells.toNat =
      (h.toNat ^^^ right) % numCells.toNat) :
    left = right := by
  have leftBound := (oddMasks_bound leftMember).1
  have rightBound := (oddMasks_bound rightMember).1
  have leftParity := xor_mask_parity h leftMember
  have rightParity := xor_mask_parity h rightMember
  rw [xor_mask_eq h leftBound, xor_mask_eq h rightBound] at same
  have lowEqual := Residues.eq_of_mod_eq_of_parity odd large
    (Nat.mod_lt _ (by norm_num)) (Nat.mod_lt _ (by norm_num))
    (by omega) same
  have xorEqual : h.toNat ^^^ left = h.toNat ^^^ right := by
    rw [xor_mask_eq h leftBound, xor_mask_eq h rightBound, lowEqual]
  exact Nat.xor_right_injective xorEqual

/-- A lone mask is an odd mask that reaches a cell no even mask reaches. -/
theorem mem_loneMasks_iff
    (h : UInt64)
    {numCells : UInt32}
    (odd : numCells.toNat % 2 = 1)
    (large : 2 ^ 32 < 2 * numCells.toNat)
    (mask : Nat) :
    mask ∈ loneMasks h numCells.toNat ↔
      mask ∈ oddMasks ∧
        (h.toNat ^^^ mask) % numCells.toNat ∉ evenCells h numCells := by
  rw [loneMasks, List.mem_filter, decide_eq_true_iff]
  refine and_congr_right fun member => ?_
  have residue : (h.toNat ^^^ mask) % numCells.toNat =
      (hashBase h + (h.toNat ^^^ mask) % 2 ^ 32) % numCells.toNat := by
    rw [← xor_mask_eq h (oddMasks_bound member).1]
  rw [residue, evenCells,
    Residues.mod_mem_parityResidues_iff_of_large odd large
      (Nat.mod_lt _ (by norm_num)) (Nat.mod_lt _ (by norm_num))
      (xor_mask_parity h member), not_not]

theorem card_reachableCells_of_large
    (h : UInt64)
    {numCells : UInt32}
    (odd : numCells.toNat % 2 = 1)
    (large : 2 ^ 32 < 2 * numCells.toNat) :
    (reachableCells h numCells).card =
      2 ^ 31 + (loneMasks h numCells.toNat).length := by
  have evenCard : (evenCells h numCells).card = 2 ^ 31 :=
    Residues.card_parityResidues_of_large (Nat.mod_lt _ (by norm_num))
      (by norm_num) odd large
  have newCells : oddCells h numCells \ evenCells h numCells =
      ((loneMasks h numCells.toNat).map
        fun mask => (h.toNat ^^^ mask) % numCells.toNat).toFinset := by
    ext cell
    simp only [Finset.mem_sdiff, oddCells, List.mem_toFinset, List.mem_map,
      mem_loneMasks_iff h odd large]
    constructor
    · rintro ⟨⟨mask, member, rfl⟩, new⟩
      exact ⟨mask, ⟨member, new⟩, rfl⟩
    · rintro ⟨mask, ⟨member, new⟩, rfl⟩
      exact ⟨⟨mask, member, rfl⟩, new⟩
  have distinct : ((loneMasks h numCells.toNat).map
      fun mask => (h.toNat ^^^ mask) % numCells.toNat).Nodup := by
    refine List.Nodup.map_on ?_ (List.Nodup.filter _ (by decide))
    intro left leftKept right rightKept same
    exact odd_cells_injective h odd large (List.mem_filter.mp leftKept).1
      (List.mem_filter.mp rightKept).1 same
  rw [reachableCells_eq, Finset.union_comm, ← Finset.sdiff_union_self_eq_union,
    Finset.card_union_of_disjoint Finset.sdiff_disjoint, evenCard, newCells,
    List.toFinset_card_of_nodup distinct, List.length_map, Nat.add_comm]

/-- The closed form counts the reachable cells. -/
theorem card_reachableCells
    (h : UInt64)
    {numCells : UInt32}
    (positive : 0 < numCells.toNat) :
    (reachableCells h numCells).card = availableCells h numCells := by
  unfold availableCells
  dsimp only
  split
  · next even => exact card_reachableCells_of_even h positive even
  · next notEven =>
      split
      · next fits => exact card_reachableCells_of_odd h (by omega) fits
      · next large =>
          exact card_reachableCells_of_large h (by omega) (by omega)

/-! ## When the assignment returns -/

/-- The candidate cells in the order the loop tries them. -/
def candidates (h : UInt64) (numCells : UInt32) (count : Nat) : UInt32 :=
  candidateCell h numCells (UInt32.ofNat count)

/-- The 32-bit counter makes the candidates periodic. -/
theorem candidates_mod (h : UInt64) (numCells : UInt32) (count : Nat) :
    candidates h numCells (count % 2 ^ 32) = candidates h numCells count := by
  unfold candidates
  rw [UInt32.ofNat_mod_size]

theorem candidates_lt
    (h : UInt64)
    {numCells : UInt32}
    (positive : 0 < numCells.toNat)
    (count : Nat) :
    candidates h numCells count < numCells := by
  rw [UInt32.lt_iff_toNat_lt, candidates, candidateCell_toNat h positive]
  exact Nat.mod_lt _ positive

theorem assignCells_eq_collect
    (hash : String → UInt64)
    (fuel : Nat)
    (tenantId : String)
    (numCells cellsPerTenant : UInt32) :
    assignCells hash fuel tenantId numCells cellsPerTenant =
      DistinctScan.collect (candidates (hash tenantId) numCells)
        cellsPerTenant.toNat numCells.toNat fuel 0 [] :=
  assignLoop_eq_collect (hash tenantId) numCells cellsPerTenant fuel 0 []

/-- The loop returns at all exactly when enough cells are available. -/
theorem exists_assignCells_iff
    (hash : String → UInt64)
    (tenantId : String)
    {numCells : UInt32}
    (positive : 0 < numCells.toNat)
    (cellsPerTenant : UInt32) :
    (∃ fuel cells,
      assignCells hash fuel tenantId numCells cellsPerTenant = some cells) ↔
      min cellsPerTenant.toNat numCells.toNat ≤
        availableCells (hash tenantId) numCells := by
  simp only [assignCells_eq_collect]
  rw [DistinctScan.exists_collect_iff_of_periodic positive (by norm_num)
    (candidates_mod (hash tenantId) numCells)]
  rw [← card_reachableCells _ positive, ← card_image_candidateCell _ positive]
  rfl

/-- Whatever the assignment returns are distinct cells of the router, as many
as were asked for or all of them. -/
theorem assignCells_spec
    (hash : String → UInt64)
    {fuel : Nat}
    {tenantId : String}
    {numCells cellsPerTenant : UInt32}
    (positive : 0 < numCells.toNat)
    {cells : List UInt32}
    (returned : assignCells hash fuel tenantId numCells cellsPerTenant =
      some cells) :
    cells.length = min cellsPerTenant.toNat numCells.toNat ∧ cells.Nodup ∧
      ∀ cell ∈ cells, cell < numCells := by
  rw [assignCells_eq_collect] at returned
  obtain ⟨length, count, rfl⟩ := DistinctScan.collect_eq_some
    (by simpa using positive) (Nat.zero_le _) returned
  refine ⟨length, DistinctScan.nodup_scan _ count, ?_⟩
  intro cell member
  obtain ⟨index, _, rfl⟩ := (DistinctScan.mem_scan _ count cell).1 member
  exact candidates_lt _ positive index

/-- For every configuration the builder accepts and every tenant, the
assignment ends with as many distinct cells as configured exactly when that
many cells are available. -/
theorem assignCells_complete_iff
    (hash : String → UInt64)
    (tenantId : String)
    (config : ShardingConfig)
    (accepted : config.validate = none) :
    (∃ fuel cells,
      assignCells hash fuel tenantId config.numCells config.cellsPerTenant =
          some cells ∧
        cells.length = config.cellsPerTenant.toNat ∧ cells.Nodup ∧
          ∀ cell ∈ cells, cell < config.numCells) ↔
      config.cellsPerTenant.toNat ≤
        availableCells (hash tenantId) config.numCells := by
  rw [ShardingConfig.validate_eq_none_iff] at accepted
  have positive : 0 < config.numCells.toNat := by omega
  have wanted : min config.cellsPerTenant.toNat config.numCells.toNat =
      config.cellsPerTenant.toNat := by omega
  have returns :=
    exists_assignCells_iff hash tenantId positive config.cellsPerTenant
  rw [wanted] at returns
  rw [← returns]
  constructor
  · rintro ⟨fuel, cells, returned, _⟩
    exact ⟨fuel, cells, returned⟩
  · rintro ⟨fuel, cells, returned⟩
    obtain ⟨length, nodup, below⟩ := assignCells_spec hash positive returned
    exact ⟨fuel, cells, returned, length.trans wanted, nodup, below⟩

/-- Four cells of sixteen are always available, as in the default
configuration. -/
theorem assignCells_complete_default :
    ShardingConfig.validate {} = none ∧
      ∃ fuel cells,
        assignCells (fun _ => 0) fuel "acme" 16 4 = some cells ∧
          cells.length = 4 ∧ cells.Nodup ∧ ∀ cell ∈ cells, cell < 16 :=
  ⟨by decide, (assignCells_complete_iff (fun _ => 0) "acme" {} (by decide)).2
    (by decide)⟩

/-- Twelve cells of sixteen are accepted by the builder, but no number of
iterations assigns them. -/
theorem assignCells_never_returns :
    ShardingConfig.validate { numCells := 16, cellsPerTenant := 12 } = none ∧
      ¬∃ fuel cells,
        assignCells (fun _ => 0) fuel "acme" 16 12 = some cells := by
  refine ⟨by decide, ?_⟩
  rw [exists_assignCells_iff _ _ (by decide)]
  decide

end Sharding
end Fre
