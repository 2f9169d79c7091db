import Mathlib.Algebra.Order.Field.Basic
import Mathlib.Algebra.Order.Ring.Abs
import Mathlib.Data.Rat.Cast.Order
import Mathlib.Tactic.FieldSimp
import Mathlib.Tactic.Linarith
import Mathlib.Tactic.NormNum
import Mathlib.Tactic.Positivity
import Mathlib.Tactic.Ring
import DeepShadow.Proofs.Single.Results

/-!
# The word nearest to a quotient

The word that an exact quotient is rounded to has a significand of twenty-four bits, with
the leading one set unless the exponent is the least.  It is at most half of its last place
away from the quotient.
-/

namespace DeepShadow
namespace Single

/-! ## Rounded quotients -/

/-- The integer nearest to a quotient is at most one half away from it. -/
theorem roundQuotient_near
    {den : Nat}
    (positive : 0 < den)
    (num : Nat) :
    2 * num ≤ 2 * (roundQuotient num den * den) + den ∧
      2 * (roundQuotient num den * den) ≤ 2 * num + den := by
  have split := Nat.div_add_mod' num den
  have bound := Nat.mod_lt num positive
  have next : (num / den + 1) * den = num / den * den + den := Nat.succ_mul _ _
  have even : (num / den + num / den % 2) * den = num / den * den + num / den % 2 * den :=
    Nat.add_mul _ _ _
  unfold roundQuotient
  dsimp only
  split_ifs with below above
  · omega
  · omega
  · rcases Nat.mod_two_eq_zero_or_one (num / den) with parity | parity
    · rw [parity] at even ⊢
      omega
    · rw [parity] at even ⊢
      omega

variable {num den scale : Nat}

/-- The exponent of the word nearest to a quotient of units. -/
def nearestExponent (num den scale : Nat) : Nat := (num / den).log2 + scale - 23

/-- The significand of the word nearest to a quotient of units. -/
def nearestSignificand (num den scale : Nat) : Nat :=
  roundQuotient (num * 2 ^ (scale - nearestExponent num den scale))
    (den * 2 ^ (nearestExponent num den scale - scale))

theorem nearestMagnitude_eq (some : num ≠ 0) :
    nearestMagnitude num den scale =
      min (nearestExponent num den scale * 0x800000 + nearestSignificand num den scale)
        infinityMagnitude := by
  rw [nearestMagnitude, if_neg some]
  simp only [Nat.shiftLeft_eq]
  rfl

section Nearest

variable (positive : 0 < den)

include positive

/-- The scaled quotient and the exact number of units. -/
theorem scaled_quotient_eq (num scale exponent : Nat) :
    ((num * 2 ^ (scale - exponent) : Nat) : ℚ) / ((den * 2 ^ (exponent - scale) : Nat) : ℚ) *
        2 ^ exponent =
      num / den * 2 ^ scale := by
  have some : (den : ℚ) ≠ 0 := by exact_mod_cast Nat.ne_of_gt positive
  push_cast
  rcases Nat.le_total exponent scale with coarse | fine
  · obtain ⟨rest, rfl⟩ := Nat.exists_eq_add_of_le coarse
    rw [Nat.add_sub_cancel_left, Nat.sub_eq_zero_of_le coarse, pow_zero, pow_add]
    field_simp
  · obtain ⟨rest, rfl⟩ := Nat.exists_eq_add_of_le fine
    rw [Nat.add_sub_cancel_left, Nat.sub_eq_zero_of_le fine, pow_zero, pow_add]
    field_simp

/-- The word nearest to a quotient is at most half of its last place away. -/
theorem nearestSignificand_near (num scale : Nat) :
    |((nearestSignificand num den scale * 2 ^ nearestExponent num den scale : Nat) : ℚ) -
        num / den * 2 ^ scale| ≤
      2 ^ nearestExponent num den scale / 2 := by
  unfold nearestSignificand
  rw [← scaled_quotient_eq positive num scale (nearestExponent num den scale)]
  generalize nearestExponent num den scale = exponent
  have denPositive : 0 < den * 2 ^ (exponent - scale) := Nat.mul_pos positive (Nat.two_pow_pos _)
  obtain ⟨lower, upper⟩ := roundQuotient_near denPositive (num * 2 ^ (scale - exponent))
  generalize num * 2 ^ (scale - exponent) = scaledNum at *
  generalize den * 2 ^ (exponent - scale) = scaledDen at *
  generalize roundQuotient scaledNum scaledDen = rounded at *
  have castPositive : (0 : ℚ) < scaledDen := by exact_mod_cast denPositive
  have lowerCast : 2 * (scaledNum : ℚ) ≤ 2 * (rounded * scaledDen) + scaledDen := by
    exact_mod_cast lower
  have upperCast : 2 * (rounded * scaledDen : ℚ) ≤ 2 * scaledNum + scaledDen := by
    exact_mod_cast upper
  have near : |(rounded : ℚ) - scaledNum / scaledDen| ≤ 1 / 2 := by
    rw [abs_le, le_sub_iff_add_le, sub_le_iff_le_add, ← le_sub_iff_add_le', div_le_iff₀ castPositive,
      ← sub_le_iff_le_add', le_div_iff₀ castPositive]
    constructor
    · linarith
    · linarith
  have power : (0 : ℚ) ≤ 2 ^ exponent := by positivity
  calc |((rounded * 2 ^ exponent : Nat) : ℚ) - scaledNum / scaledDen * 2 ^ exponent|
      = |(rounded : ℚ) - scaledNum / scaledDen| * 2 ^ exponent := by
        rw [← abs_of_nonneg power, ← abs_mul, abs_of_nonneg power, sub_mul]
        push_cast
        rfl
    _ ≤ 1 / 2 * 2 ^ exponent := mul_le_mul_of_nonneg_right near power
    _ = 2 ^ exponent / 2 := by ring

/-- A quotient is below twice the power of two at its leading bit. -/
theorem quotient_lt (num : Nat) : (num : ℚ) / den < 2 ^ ((num / den).log2 + 1) := by
  have castPositive : (0 : ℚ) < den := by exact_mod_cast positive
  rw [div_lt_iff₀ castPositive]
  have above : num < 2 ^ ((num / den).log2 + 1) * den :=
    (Nat.div_lt_iff_lt_mul positive).mp Nat.lt_log2_self
  exact_mod_cast above

/-- A quotient that is at least one is at least the power of two at its leading bit. -/
theorem le_quotient (some : num / den ≠ 0) : (2 : ℚ) ^ (num / den).log2 ≤ num / den := by
  have castPositive : (0 : ℚ) < den := by exact_mod_cast positive
  rw [le_div_iff₀ castPositive]
  have below : 2 ^ (num / den).log2 * den ≤ num :=
    (Nat.le_div_iff_mul_le positive).mp (Nat.log2_self_le some)
  exact_mod_cast below

section Bounds

variable (whole : num ≠ 0) (scaled : scale = 0 ∨ den = 1)

include whole scaled

theorem two_pow_nearestExponent_le (shifted : 0 < nearestExponent num den scale) :
    (2 : ℚ) ^ (nearestExponent num den scale + 23) ≤ num / den * 2 ^ scale := by
  have place : nearestExponent num den scale + 23 = (num / den).log2 + scale := by
    unfold nearestExponent at shifted ⊢
    omega
  have some : num / den ≠ 0 := by
    rcases scaled with rfl | rfl
    · intro none
      rw [nearestExponent, none] at shifted
      exact absurd shifted (by decide)
    · rwa [Nat.div_one]
  rw [place, pow_add]
  exact mul_le_mul_of_nonneg_right (le_quotient positive some) (by positivity)

/-- The significand has at most twenty-four bits, or carries, and the leading one of them is
set unless the exponent is the least. -/
theorem nearestSignificand_bounds :
    nearestSignificand num den scale ≤ 0x1000000 ∧
      (nearestExponent num den scale = 0 ∨ 0x800000 ≤ nearestSignificand num den scale) := by
  have denPositive : 0 < den * 2 ^ (nearestExponent num den scale - scale) :=
    Nat.mul_pos positive (Nat.two_pow_pos _)
  have castPositive : (0 : ℚ) < (den * 2 ^ (nearestExponent num den scale - scale) : Nat) := by
    exact_mod_cast denPositive
  have quotient_eq := scaled_quotient_eq positive num scale (nearestExponent num den scale)
  have power : (0 : ℚ) < 2 ^ nearestExponent num den scale := by positivity
  have leading : (num / den).log2 + 1 + scale ≤ 24 + nearestExponent num den scale := by
    unfold nearestExponent
    omega
  constructor
  · have below : ((num * 2 ^ (scale - nearestExponent num den scale) : Nat) : ℚ) /
        ((den * 2 ^ (nearestExponent num den scale - scale) : Nat) : ℚ) ≤ 2 ^ 24 := by
      apply le_of_mul_le_mul_right _ power
      rw [quotient_eq]
      calc (num : ℚ) / den * 2 ^ scale
          ≤ 2 ^ ((num / den).log2 + 1) * 2 ^ scale :=
            mul_le_mul_of_nonneg_right (quotient_lt positive num).le (by positivity)
        _ = 2 ^ ((num / den).log2 + 1 + scale) := (pow_add _ _ _).symm
        _ ≤ 2 ^ (24 + nearestExponent num den scale) :=
            pow_le_pow_right₀ (by norm_num) leading
        _ = 2 ^ 24 * 2 ^ nearestExponent num den scale := pow_add _ _ _
    rw [div_le_iff₀ castPositive] at below
    have ordered : num * 2 ^ (scale - nearestExponent num den scale) ≤
        0x1000000 * (den * 2 ^ (nearestExponent num den scale - scale)) := by
      exact_mod_cast below
    have bound := roundQuotient_mono ordered (den * 2 ^ (nearestExponent num den scale - scale))
    rwa [roundQuotient_mul denPositive] at bound
  · refine (Nat.eq_zero_or_pos _).imp_right fun shifted => ?_
    have above : (2 : ℚ) ^ 23 ≤ ((num * 2 ^ (scale - nearestExponent num den scale) : Nat) : ℚ) /
        ((den * 2 ^ (nearestExponent num den scale - scale) : Nat) : ℚ) := by
      apply le_of_mul_le_mul_right _ power
      rw [quotient_eq, ← pow_add, Nat.add_comm]
      exact two_pow_nearestExponent_le positive whole scaled shifted
    rw [le_div_iff₀ castPositive] at above
    have ordered : 0x800000 * (den * 2 ^ (nearestExponent num den scale - scale)) ≤
        num * 2 ^ (scale - nearestExponent num den scale) := by
      exact_mod_cast above
    have bound := roundQuotient_mono ordered (den * 2 ^ (nearestExponent num den scale - scale))
    rwa [roundQuotient_mul denPositive] at bound

end Bounds
end Nearest

/-! ## Units of the nearest word -/

/-- A word that is made of an exponent and a significand stands for the significand,
shifted by the exponent, also where the significand carries. -/
theorem units_ofMagnitude
    {magnitudeExponent magnitudeSignificand : Nat}
    (negative : Bool)
    (bound : magnitudeExponent * 0x800000 + magnitudeSignificand < 0x80000000)
    (upper : magnitudeSignificand ≤ 0x1000000)
    (lower : magnitudeExponent = 0 ∨ 0x800000 ≤ magnitudeSignificand) :
    (ofMagnitude negative (magnitudeExponent * 0x800000 + magnitudeSignificand)).units =
      magnitudeSignificand * 2 ^ magnitudeExponent := by
  rw [units, significand, exponent, magnitude_ofMagnitude bound, Nat.shiftLeft_eq]
  rcases Nat.eq_or_lt_of_le upper with carries | fits
  · have place : (magnitudeExponent * 0x800000 + magnitudeSignificand) / 0x800000 - 1 =
        magnitudeExponent + 1 := by omega
    rw [place, carries, Nat.pow_succ]
    have rest : magnitudeExponent * 0x800000 + 0x1000000 - (magnitudeExponent + 1) * 0x800000 =
        0x800000 := by omega
    rw [rest]
    ring
  · have place : (magnitudeExponent * 0x800000 + magnitudeSignificand) / 0x800000 - 1 =
        magnitudeExponent := by omega
    rw [place, Nat.add_sub_cancel_left]

section Units

variable (positive : 0 < den) (scaled : scale = 0 ∨ den = 1) (negative : Bool)

include positive scaled

/-- Where it is not cut off, the word nearest to a quotient stands for its significand. -/
theorem units_nearestMagnitude
    (whole : num ≠ 0)
    (small : nearestExponent num den scale * 0x800000 + nearestSignificand num den scale <
      infinityMagnitude) :
    (ofMagnitude negative (nearestMagnitude num den scale)).units =
      nearestSignificand num den scale * 2 ^ nearestExponent num den scale := by
  obtain ⟨upper, lower⟩ := nearestSignificand_bounds positive whole scaled
  rw [nearestMagnitude_eq whole, Nat.min_eq_left (Nat.le_of_lt small)]
  exact units_ofMagnitude negative (Nat.lt_trans small (by decide)) upper lower

/-- The word nearest to a number below two is finite and at most `2 ^ (-24)` away. -/
theorem nearestMagnitude_near (below : (num : ℚ) / den * 2 ^ scale < 2 ^ 150) :
    nearestMagnitude num den scale < infinityMagnitude ∧
      |((ofMagnitude negative (nearestMagnitude num den scale)).units : ℚ) -
        num / den * 2 ^ scale| ≤ 2 ^ 125 := by
  rcases Nat.eq_zero_or_pos num with rfl | some
  · have noUnits : (ofMagnitude negative 0).units = 0 := by cases negative <;> decide
    rw [nearestMagnitude_zero, noUnits]
    norm_num [infinityMagnitude]
  have whole : num ≠ 0 := Nat.ne_of_gt some
  have exponentBound : nearestExponent num den scale ≤ 126 := by
    rcases Nat.eq_zero_or_pos (nearestExponent num den scale) with none | shifted
    · omega
    · have power := (two_pow_nearestExponent_le positive whole scaled shifted).trans_lt below
      have places := (pow_lt_pow_iff_right₀ (by norm_num)).mp power
      omega
  have bound := (nearestSignificand_bounds positive whole scaled).1
  have small : nearestExponent num den scale * 0x800000 + nearestSignificand num den scale <
      infinityMagnitude := by
    unfold infinityMagnitude
    omega
  refine ⟨?_, ?_⟩
  · rw [nearestMagnitude_eq whole, Nat.min_eq_left (Nat.le_of_lt small)]
    exact small
  · rw [units_nearestMagnitude positive scaled negative whole small]
    calc _ ≤ (2 : ℚ) ^ nearestExponent num den scale / 2 :=
          nearestSignificand_near positive num scale
      _ ≤ 2 ^ 126 / 2 := by
          have powers : (2 : ℚ) ^ nearestExponent num den scale ≤ 2 ^ 126 :=
            pow_le_pow_right₀ (by norm_num) exponentBound
          linarith
      _ = 2 ^ 125 := by norm_num

end Units

/-! ## Reduced quotients -/

/-- The word nearest to a quotient does not depend on how the quotient is reduced. -/
theorem nearestMagnitude_mul_mul
    {factor : Nat}
    (positive : 0 < factor)
    (num den : Nat) :
    nearestMagnitude (num * factor) (den * factor) 0 = nearestMagnitude num den 0 := by
  rcases Nat.eq_zero_or_pos num with rfl | some
  · rw [Nat.zero_mul, nearestMagnitude_zero, nearestMagnitude_zero]
  have exponents : nearestExponent (num * factor) (den * factor) 0 = nearestExponent num den 0 := by
    rw [nearestExponent, nearestExponent, Nat.mul_div_mul_right _ _ positive]
  have significands :
      nearestSignificand (num * factor) (den * factor) 0 = nearestSignificand num den 0 := by
    rw [nearestSignificand, nearestSignificand, exponents, Nat.mul_right_comm num,
      Nat.mul_right_comm den, roundQuotient_mul_mul positive]
  rw [nearestMagnitude_eq (Nat.ne_of_gt some),
    nearestMagnitude_eq (Nat.ne_of_gt (Nat.mul_pos some positive)), exponents, significands]

/-- A multiple of the divisor is a number of units. -/
theorem nearestMagnitude_mul
    (positive : 0 < den)
    (count : Nat) :
    nearestMagnitude (count * den) den 0 = roundUnits count := by
  have reduced := nearestMagnitude_mul_mul positive count 1
  rwa [Nat.one_mul] at reduced

/-- A scale is a factor of the dividend. -/
theorem nearestMagnitude_scale
    (scaled : scale = 0 ∨ den = 1) :
    nearestMagnitude num den scale = nearestMagnitude (num * 2 ^ scale) den 0 := by
  rcases scaled with rfl | rfl
  · rw [Nat.pow_zero, Nat.mul_one]
  · rw [nearestMagnitude_one, Nat.shiftLeft_eq, roundUnits]

/-! ## Products and quotients of words -/

variable {x y : Single}

theorem units_zero : zero.units = 0 := by decide

theorem units_one : one.units = 2 ^ 149 := by decide

theorem units_eq_zero_iff (finite : x.isFinite = true) : x.units = 0 ↔ x.magnitude = 0 := by
  constructor
  · intro nothing
    rw [← roundUnits_units finite, nothing, roundUnits_zero]
  · intro nothing
    exact (units_congr (y := zero) nothing).trans units_zero

section Finite

variable (finite : x.isFinite = true) (finiteToo : y.isFinite = true)

include finite finiteToo

/-- A product of finite words is rounded from the product of their units. -/
theorem mul_eq :
    x * y = ofMagnitude (x.negative != y.negative)
      (nearestMagnitude (x.units * y.units) (2 ^ 149) 0) := by
  have product_eq : x * y = x.mul y := rfl
  rw [product_eq, mul]
  simp only [isNaN_of_isFinite finite, isNaN_of_isFinite finiteToo, isInfinite_of_isFinite finite,
    isInfinite_of_isFinite finiteToo, Bool.false_eq_true, Bool.or_self, if_false, units,
    Nat.shiftLeft_eq, Nat.one_mul]
  have units_mul : x.significand * 2 ^ x.exponent * (y.significand * 2 ^ y.exponent) =
      x.significand * y.significand * 2 ^ (x.exponent + y.exponent) := by
    rw [Nat.pow_add]
    ring
  rw [units_mul]
  congr 1
  rcases Nat.le_total (x.exponent + y.exponent) 149 with small | large
  · have split : 2 ^ 149 = 2 ^ (149 - (x.exponent + y.exponent)) * 2 ^ (x.exponent + y.exponent) := by
      rw [← Nat.pow_add, Nat.sub_add_cancel small]
    rw [Nat.sub_eq_zero_of_le small, split, nearestMagnitude_mul_mul (Nat.two_pow_pos _)]
  · obtain ⟨rest, sum_eq⟩ := Nat.exists_eq_add_of_le large
    rw [Nat.sub_eq_zero_of_le large, Nat.pow_zero, nearestMagnitude_scale (Or.inr rfl), sum_eq,
      Nat.add_sub_cancel_left, Nat.pow_add, Nat.mul_comm (2 ^ 149), ← Nat.mul_assoc,
      nearestMagnitude_mul (Nat.two_pow_pos _)]
    rfl

/-- A quotient of finite words is rounded from the quotient of their units. -/
theorem div_eq (some : y.magnitude ≠ 0) :
    x / y = ofMagnitude (x.negative != y.negative)
      (nearestMagnitude (x.units * 2 ^ 149) y.units 0) := by
  have quotient_eq : x / y = x.div y := rfl
  have notZero : y.isZero = false := by simpa [isZero] using some
  have scaled : x.significand <<< (149 + x.exponent) = x.units * 2 ^ 149 := by
    rw [units, Nat.shiftLeft_eq, Nat.shiftLeft_eq, Nat.add_comm, Nat.pow_add, Nat.mul_assoc]
  rw [quotient_eq, div]
  simp only [isNaN_of_isFinite finite, isNaN_of_isFinite finiteToo, isInfinite_of_isFinite finite,
    isInfinite_of_isFinite finiteToo, notZero, Bool.false_eq_true, if_false, scaled]
  rfl

end Finite

end Single
end DeepShadow
