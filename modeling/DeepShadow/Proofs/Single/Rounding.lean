import Mathlib.Algebra.Order.Ring.Nat
import DeepShadow.Single.Arithmetic

/-!
# Rounding keeps the order

Every sum is rounded from a whole number of units.  Rounding does not turn two
numbers of units around, and a number of units that some word stands for is
rounded to this word.  Nothing else about rounding is needed to compare rounded
sums.
-/

namespace DeepShadow
namespace Single

/-! ## Quotients -/

theorem roundQuotient_mono
    {first second : Nat}
    (ordered : first ≤ second)
    (den : Nat) :
    roundQuotient first den ≤ roundQuotient second den := by
  have floors : first / den ≤ second / den := Nat.div_le_div_right ordered
  have firstSplit := Nat.div_add_mod' first den
  have secondSplit := Nat.div_add_mod' second den
  rcases Nat.eq_or_lt_of_le floors with same | below
  · -- Within one quotient the remainders decide.
    have remainders : first % den ≤ second % den := by
      rw [same] at firstSplit
      omega
    simp only [roundQuotient, same]
    split_ifs <;> omega
  · simp only [roundQuotient]
    split_ifs <;> omega

theorem roundQuotient_mul
    {den : Nat}
    (positive : 0 < den)
    (num : Nat) :
    roundQuotient (num * den) den = num := by
  simp [roundQuotient, Nat.mul_div_cancel _ positive, positive]

theorem roundQuotient_mul_mul
    {factor : Nat}
    (positive : 0 < factor)
    (num den : Nat) :
    roundQuotient (num * factor) (den * factor) = roundQuotient num den := by
  have lt_iff (left right : Nat) : left * factor < right * factor ↔ left < right :=
    Nat.mul_lt_mul_right positive
  simp only [roundQuotient, Nat.mul_div_mul_right _ _ positive, Nat.mul_mod_mul_right,
    ← Nat.mul_assoc, lt_iff]

/-! ## Units -/

/-- The magnitude word nearest to a number of units. -/
def roundUnits (count : Nat) : Nat := nearestMagnitude count 1 0

/-- The absolute value of a finite word, in units. -/
def units (x : Single) : Nat := x.significand <<< x.exponent

/-- The exponent of the word nearest to a number of units. -/
def exponentOf (count : Nat) : Nat := count.log2 - 23

/-- The magnitude word nearest to a number of units, before it is cut off at the
infinity. -/
def unboundedMagnitude (count : Nat) : Nat :=
  exponentOf count * 0x800000 + roundQuotient count (2 ^ exponentOf count)

theorem roundUnits_eq (count : Nat) :
    roundUnits count = min (unboundedMagnitude count) infinityMagnitude := by
  rcases Nat.eq_zero_or_pos count with rfl | positive
  · decide
  · simp [roundUnits, nearestMagnitude, Nat.ne_of_gt positive, Nat.shiftLeft_eq,
      unboundedMagnitude, exponentOf]

/-- The place of the leading bit, counted from the exponent. -/
theorem lt_two_pow_exponentOf (count : Nat) :
    count < 0x1000000 * 2 ^ exponentOf count := by
  rcases Nat.eq_zero_or_pos count with rfl | positive
  · decide
  calc count < 2 ^ (count.log2 + 1) := Nat.lt_log2_self
    _ ≤ 2 ^ (24 + exponentOf count) := Nat.pow_le_pow_right (by decide) (by
        simp only [exponentOf]
        omega)
    _ = 0x1000000 * 2 ^ exponentOf count := Nat.pow_add _ _ _

theorem two_pow_exponentOf_le
    {count : Nat}
    (scaled : 0 < exponentOf count) :
    0x800000 * 2 ^ exponentOf count ≤ count := by
  have nonzero : count ≠ 0 := by
    rintro rfl
    exact absurd scaled (by decide)
  have place : 23 + exponentOf count = count.log2 := by
    simp only [exponentOf] at scaled ⊢
    omega
  calc 0x800000 * 2 ^ exponentOf count = 2 ^ (23 + exponentOf count) := by rw [Nat.pow_add]
    _ = 2 ^ count.log2 := by rw [place]
    _ ≤ count := Nat.log2_self_le nonzero

theorem exponentOf_eq
    {count exponent : Nat}
    (lower : 0x800000 * 2 ^ exponent ≤ count)
    (upper : count < 0x1000000 * 2 ^ exponent) :
    exponentOf count = exponent := by
  have nonzero : count ≠ 0 :=
    Nat.ne_of_gt (Nat.lt_of_lt_of_le (Nat.mul_pos (by decide) (Nat.two_pow_pos _)) lower)
  have log : count.log2 = 23 + exponent := by
    rw [Nat.log2_eq_iff nonzero, Nat.add_right_comm, Nat.pow_add, Nat.pow_add]
    exact ⟨lower, upper⟩
  simp [exponentOf, log]

theorem log2_mono
    {first second : Nat}
    (ordered : first ≤ second) :
    first.log2 ≤ second.log2 := by
  rcases Nat.eq_zero_or_pos first with rfl | positive
  · simp
  · rw [Nat.le_log2 (by omega)]
    exact Nat.le_trans (Nat.log2_self_le (by omega)) ordered

theorem exponentOf_mono
    {first second : Nat}
    (ordered : first ≤ second) :
    exponentOf first ≤ exponentOf second :=
  Nat.sub_le_sub_right (log2_mono ordered) 23

/-- The significand that numbers of units are rounded to has at most twenty-four
bits, or carries. -/
theorem unboundedMagnitude_le (count : Nat) :
    unboundedMagnitude count ≤ exponentOf count * 0x800000 + 0x1000000 := by
  have bound := roundQuotient_mono (Nat.le_of_lt (lt_two_pow_exponentOf count))
    (2 ^ exponentOf count)
  rw [roundQuotient_mul (Nat.two_pow_pos _)] at bound
  simp only [unboundedMagnitude]
  omega

theorem le_unboundedMagnitude
    {count : Nat}
    (scaled : 0 < exponentOf count) :
    exponentOf count * 0x800000 + 0x800000 ≤ unboundedMagnitude count := by
  have bound := roundQuotient_mono (two_pow_exponentOf_le scaled) (2 ^ exponentOf count)
  rw [roundQuotient_mul (Nat.two_pow_pos _)] at bound
  simp only [unboundedMagnitude]
  omega

theorem roundUnits_mono
    {first second : Nat}
    (ordered : first ≤ second) :
    roundUnits first ≤ roundUnits second := by
  have unbounded : unboundedMagnitude first ≤ unboundedMagnitude second := by
    rcases Nat.eq_or_lt_of_le (exponentOf_mono ordered) with same | below
    · have quotients := roundQuotient_mono ordered (2 ^ exponentOf second)
      simp only [unboundedMagnitude, same]
      omega
    · -- The smaller one is at most the power of two from which the larger one starts.
      have upper := unboundedMagnitude_le first
      have scaled : 0 < exponentOf second := Nat.zero_lt_of_lt below
      have lower := le_unboundedMagnitude scaled
      omega
  simp only [roundUnits_eq]
  omega

@[simp] theorem roundUnits_zero : roundUnits 0 = 0 := by decide

theorem roundUnits_le (count : Nat) : roundUnits count ≤ infinityMagnitude := by
  rw [roundUnits_eq]
  exact Nat.min_le_right _ _

/-- A finite word is the one nearest to its own number of units. -/
theorem roundUnits_units
    {x : Single}
    (finite : x.isFinite = true) :
    roundUnits x.units = x.magnitude := by
  have bound : x.magnitude < infinityMagnitude := by simpa [isFinite] using finite
  have split := x.magnitude_eq
  have exponent_eq : x.exponent = x.magnitude / 0x800000 - 1 := rfl
  have units_eq : x.units = x.significand * 2 ^ x.exponent := Nat.shiftLeft_eq _ _
  have scale : exponentOf x.units = x.exponent := by
    rcases Nat.eq_zero_or_pos x.exponent with zero | positive
    · have small : x.units.log2 < 24 ∨ x.units = 0 := by
        rw [units_eq, zero, Nat.pow_zero, Nat.mul_one]
        rcases Nat.eq_zero_or_pos x.significand with none | some
        · exact Or.inr none
        · refine Or.inl ((Nat.log2_lt (Nat.ne_of_gt some)).mpr ?_)
          omega
      rcases small with small | none
      · simp only [exponentOf, zero]
        omega
      · rw [none, zero]
        decide
    · apply exponentOf_eq
      · rw [units_eq]
        exact Nat.mul_le_mul_right _ (by omega)
      · rw [units_eq]
        exact Nat.mul_lt_mul_of_pos_right (by omega) (Nat.two_pow_pos _)
  have unbounded : unboundedMagnitude x.units = x.magnitude := by
    rw [unboundedMagnitude, scale, units_eq, roundQuotient_mul (Nat.two_pow_pos _), split]
  rw [roundUnits_eq, unbounded]
  omega

/-- A sum with a scale of its own is rounded like the units that it stands for. -/
theorem nearestMagnitude_one
    (count scale : Nat) :
    nearestMagnitude count 1 scale = roundUnits (count <<< scale) := by
  rcases Nat.eq_zero_or_pos count with rfl | positive
  · simp [nearestMagnitude]
  have nonzero := Nat.ne_of_gt positive
  have shifted : count <<< scale ≠ 0 := by simp [Nat.shiftLeft_eq, nonzero]
  have log : (count <<< scale).log2 = count.log2 + scale := by
    rw [Nat.log2_eq_iff shifted, Nat.shiftLeft_eq, Nat.add_right_comm, Nat.pow_add, Nat.pow_add]
    exact ⟨Nat.mul_le_mul_right _ (Nat.log2_self_le nonzero),
      Nat.mul_lt_mul_of_pos_right Nat.lt_log2_self (Nat.two_pow_pos _)⟩
  simp only [roundUnits, nearestMagnitude, nonzero, shifted, if_false, Nat.div_one, log,
    Nat.add_zero]
  generalize count.log2 + scale - 23 = exponent
  have quotients : roundQuotient (count <<< (scale - exponent)) (1 <<< (exponent - scale)) =
      roundQuotient (count <<< scale <<< (0 - exponent)) (1 <<< (exponent - 0)) := by
    simp only [Nat.shiftLeft_eq, Nat.one_mul, Nat.zero_sub, Nat.pow_zero, Nat.mul_one, Nat.sub_zero]
    rcases Nat.le_total exponent scale with coarse | fine
    · obtain ⟨rest, rfl⟩ := Nat.exists_eq_add_of_le coarse
      rw [Nat.add_sub_cancel_left, Nat.sub_eq_zero_of_le coarse, Nat.pow_add,
        Nat.mul_left_comm, Nat.mul_comm (2 ^ exponent), roundQuotient_mul (Nat.two_pow_pos _)]
      simpa using roundQuotient_mul Nat.one_pos (count * 2 ^ rest)
    · obtain ⟨rest, rfl⟩ := Nat.exists_eq_add_of_le fine
      rw [Nat.add_sub_cancel_left, Nat.sub_eq_zero_of_le fine, Nat.pow_zero, Nat.mul_one,
        Nat.pow_add, Nat.mul_comm (2 ^ scale), roundQuotient_mul_mul (Nat.two_pow_pos _)]
  simp only [quotients, Nat.sub_zero]

end Single
end DeepShadow
