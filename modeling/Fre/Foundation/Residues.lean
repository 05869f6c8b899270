import Mathlib.Data.Finset.Card
import Mathlib.Data.Finset.Image
import Mathlib.Data.Nat.Bitwise
import Mathlib.Data.Nat.ModEq

/-!
# Residues of the numbers of one parity

Take the numbers `base + low` where `low` runs over the numbers of one parity
below an even `width`, with `base` even.  How many residues they leave modulo
`modulus` depends only on the parity and the size of the modulus: half of the
residues when it is even, all of them when it is odd and at most half the
width, and one for each number when it is odd and larger.
-/

namespace Foundation
namespace Residues

/-- Residues of the numbers `base + low` with `low < width` of one parity. -/
def parityResidues (base width parity modulus : Nat) : Finset Nat :=
  ((Finset.range width).filter fun low => low % 2 = parity).image
    fun low => (base + low) % modulus

theorem mem_parityResidues (base width parity modulus residue : Nat) :
    residue ∈ parityResidues base width parity modulus ↔
      ∃ low < width, low % 2 = parity ∧ (base + low) % modulus = residue := by
  simp [parityResidues, and_assoc]

/-- Numbers below an even bound split evenly by parity. -/
theorem card_filter_parity
    {bound parity : Nat}
    (boundEven : bound % 2 = 0)
    (binary : parity < 2) :
    ((Finset.range bound).filter fun low => low % 2 = parity).card =
      bound / 2 := by
  have halves : ((Finset.range bound).filter fun low => low % 2 = parity) =
      (Finset.range (bound / 2)).image fun index => 2 * index + parity := by
    ext low
    simp only [Finset.mem_filter, Finset.mem_range, Finset.mem_image]
    constructor
    · rintro ⟨below, matching⟩
      exact ⟨low / 2, by omega, by omega⟩
    · rintro ⟨index, below, rfl⟩
      exact ⟨by omega, by omega⟩
  have injective : Function.Injective fun index => 2 * index + parity := by
    intro left right equal
    dsimp only at equal
    omega
  rw [halves, Finset.card_image_of_injective _ injective, Finset.card_range]

/-- A window as long as the modulus hits every residue. -/
theorem exists_mod_eq
    (base modulus residue : Nat)
    (below : residue < modulus) :
    ∃ low < modulus, (base + low) % modulus = residue := by
  refine ⟨(residue + (modulus - base % modulus)) % modulus,
    Nat.mod_lt _ (by omega), ?_⟩
  have baseBelow : base % modulus < modulus := Nat.mod_lt _ (by omega)
  rw [Nat.add_mod_mod, ← Nat.mod_add_mod,
    show base % modulus + (residue + (modulus - base % modulus)) =
      residue + modulus by omega,
    Nat.add_mod_right, Nat.mod_eq_of_lt below]

/-- Modulo an even number the parity survives, and every residue of that
parity occurs. -/
theorem parityResidues_of_even
    {base width parity modulus : Nat}
    (positive : 0 < modulus)
    (baseEven : base % 2 = 0)
    (modulusEven : modulus % 2 = 0)
    (fits : modulus ≤ width) :
    parityResidues base width parity modulus =
      (Finset.range modulus).filter fun residue => residue % 2 = parity := by
  have parityKept (number : Nat) : number % modulus % 2 = number % 2 :=
    Nat.mod_mod_of_dvd number (Nat.dvd_of_mod_eq_zero modulusEven)
  ext residue
  rw [mem_parityResidues, Finset.mem_filter, Finset.mem_range]
  constructor
  · rintro ⟨low, bound, matching, rfl⟩
    exact ⟨Nat.mod_lt _ positive, by rw [parityKept]; omega⟩
  · rintro ⟨below, matching⟩
    obtain ⟨low, bound, hits⟩ := exists_mod_eq base modulus residue below
    have kept := parityKept (base + low)
    exact ⟨low, by omega, by omega, hits⟩

/-- Modulo an odd number at most half the width every residue occurs. -/
theorem parityResidues_of_odd
    {base width parity modulus : Nat}
    (binary : parity < 2)
    (modulusOdd : modulus % 2 = 1)
    (fits : 2 * modulus ≤ width) :
    parityResidues base width parity modulus = Finset.range modulus := by
  ext residue
  rw [mem_parityResidues, Finset.mem_range]
  constructor
  · rintro ⟨low, _, _, rfl⟩
    exact Nat.mod_lt _ (by omega)
  · intro below
    obtain ⟨low, bound, hits⟩ := exists_mod_eq base modulus residue below
    by_cases matching : low % 2 = parity
    · exact ⟨low, by omega, matching, hits⟩
    · refine ⟨low + modulus, by omega, by omega, ?_⟩
      rw [← Nat.add_assoc, Nat.add_mod_right]
      exact hits

/-- Numbers of one window that agree modulo `modulus` differ by a multiple
of it. -/
theorem eq_add_mul_of_mod_eq
    {base modulus small large : Nat}
    (le : small ≤ large)
    (same : (base + small) % modulus = (base + large) % modulus) :
    ∃ factor, large = small + modulus * factor := by
  obtain ⟨factor, difference⟩ :=
    (Nat.modEq_iff_dvd' (Nat.add_le_add_left le base)).mp same
  exact ⟨factor, by omega⟩

/-- Modulo an odd number above half the width two different numbers of one
parity never agree. -/
theorem eq_of_mod_eq_of_parity
    {base width modulus left right : Nat}
    (modulusOdd : modulus % 2 = 1)
    (large : width < 2 * modulus)
    (leftBound : left < width)
    (rightBound : right < width)
    (parity : left % 2 = right % 2)
    (same : (base + left) % modulus = (base + right) % modulus) :
    left = right := by
  wlog ordered : left ≤ right generalizing left right
  · exact (this rightBound leftBound parity.symm same.symm (by omega)).symm
  obtain ⟨factor, rfl⟩ := eq_add_mul_of_mod_eq ordered same
  have factorEven : factor % 2 = 0 := by
    have productEven : modulus * factor % 2 = 0 := by omega
    rw [Nat.mul_mod, modulusOdd, Nat.one_mul, Nat.mod_mod] at productEven
    exact productEven
  have factorSmall : factor < 2 := by
    by_contra tooLarge
    have := Nat.mul_le_mul_left modulus (Nat.le_of_not_lt tooLarge)
    omega
  rw [show factor = 0 by omega]
  omega

/-- Modulo an odd number above half the width each number has its own
residue. -/
theorem card_parityResidues_of_large
    {base width parity modulus : Nat}
    (binary : parity < 2)
    (widthEven : width % 2 = 0)
    (modulusOdd : modulus % 2 = 1)
    (large : width < 2 * modulus) :
    (parityResidues base width parity modulus).card = width / 2 := by
  unfold parityResidues
  rw [Finset.card_image_of_injOn, card_filter_parity widthEven binary]
  intro left leftMember right rightMember same
  simp only [Finset.coe_filter, Finset.mem_range, Set.mem_ofPred_eq]
    at leftMember rightMember
  exact eq_of_mod_eq_of_parity modulusOdd large leftMember.1 rightMember.1
    (leftMember.2.trans rightMember.2.symm) same

/-- A number of the other parity repeats a residue exactly when the number
one modulus below or above it is still in the window. -/
theorem mod_mem_parityResidues_iff_of_large
    {base width parity modulus other : Nat}
    (modulusOdd : modulus % 2 = 1)
    (large : width < 2 * modulus)
    (otherBound : other < width)
    (binary : parity < 2)
    (otherParity : other % 2 ≠ parity) :
    (base + other) % modulus ∈ parityResidues base width parity modulus ↔
      ¬(other < modulus ∧ width ≤ other + modulus) := by
  rw [mem_parityResidues]
  constructor
  · rintro ⟨low, bound, matching, same⟩ ⟨otherSmall, otherLarge⟩
    have factorOne (factor : Nat) (positive : factor ≠ 0) :
        modulus ≤ modulus * factor :=
      Nat.le_mul_of_pos_right modulus (Nat.pos_of_ne_zero positive)
    rcases Nat.le_total low other with le | le
    · obtain ⟨factor, equal⟩ := eq_add_mul_of_mod_eq le same
      by_cases zero : factor = 0
      · subst zero
        omega
      · have := factorOne factor zero
        omega
    · obtain ⟨factor, equal⟩ := eq_add_mul_of_mod_eq le same.symm
      by_cases zero : factor = 0
      · subst zero
        omega
      · have := factorOne factor zero
        omega
  · intro inside
    by_cases below : modulus ≤ other
    · refine ⟨other - modulus, by omega, by omega, ?_⟩
      have := Nat.add_mod_right (base + (other - modulus)) modulus
      rwa [show base + (other - modulus) + modulus = base + other by omega,
        eq_comm] at this
    · refine ⟨other + modulus, by omega, by omega, ?_⟩
      rw [← Nat.add_assoc, Nat.add_mod_right]

/-- Flipping bits below `2 ^ bits` keeps the bits above. -/
theorem xor_eq_add_of_lt
    (number : Nat)
    {mask bits : Nat}
    (small : mask < 2 ^ bits) :
    number ^^^ mask =
      number / 2 ^ bits * 2 ^ bits + (number % 2 ^ bits ^^^ mask) := by
  have high : (number ^^^ mask) / 2 ^ bits = number / 2 ^ bits := by
    rw [Nat.xor_div_two_pow, Nat.div_eq_of_lt small, Nat.xor_zero]
  have low : (number ^^^ mask) % 2 ^ bits = number % 2 ^ bits ^^^ mask := by
    rw [Nat.xor_mod_two_pow, Nat.mod_eq_of_lt small]
  rw [← high, ← low]
  exact (Nat.div_add_mod' _ _).symm

end Residues
end Foundation
