import DeepShadow.Proofs.Single.Order

/-!
# Results without rounding

A number of units with at most twenty-four binary digits, followed by zeros, has a word of
its own, and every operation whose result is such a number gives it exactly.  So counts are
added exactly, a number taken from itself leaves nothing, and nothing can be added to it.
-/

namespace DeepShadow
namespace Single

variable {x y : Single}

/-! ## Quotients in place -/

/-- A quotient of twenty-four binary digits, the first of them set unless it stands in the
last place, is rounded where it stands. -/
theorem nearestMagnitude_shifted
    {num den place : Nat}
    (positive : 0 < den)
    (upper : num < 0x1000000 * den)
    (lower : place = 0 ∨ 0x800000 * den ≤ num) :
    nearestMagnitude (num * 2 ^ place) den 0 =
      min (place * 0x800000 + roundQuotient num den) infinityMagnitude := by
  rcases Nat.eq_zero_or_pos num with rfl | some
  · have nothing : roundQuotient 0 den = 0 := by simp [roundQuotient, positive]
    have first : place = 0 := by
      rcases lower with first | impossible
      · exact first
      · omega
    rw [Nat.zero_mul, nearestMagnitude_zero, nothing, first]
    rfl
  have whole : num * 2 ^ place ≠ 0 := Nat.ne_of_gt (Nat.mul_pos some (Nat.two_pow_pos _))
  have exponent_eq : nearestExponent (num * 2 ^ place) den 0 = place := by
    rcases lower with rfl | lower
    · have small : num / den < 2 ^ 24 := (Nat.div_lt_iff_lt_mul positive).mpr upper
      rcases Nat.eq_zero_or_pos (num / den) with none | quotientPositive
      · rw [nearestExponent, Nat.pow_zero, Nat.mul_one, none]
        rfl
      · have digits := (Nat.log2_lt (Nat.ne_of_gt quotientPositive)).mpr small
        rw [nearestExponent, Nat.pow_zero, Nat.mul_one]
        omega
    · have atLeast : 2 ^ (23 + place) ≤ num * 2 ^ place / den := by
        rw [Nat.le_div_iff_mul_le positive, Nat.pow_add, Nat.mul_right_comm]
        exact Nat.mul_le_mul_right _ lower
      have below : num * 2 ^ place / den < 2 ^ (23 + place + 1) := by
        rw [Nat.div_lt_iff_lt_mul positive, Nat.add_right_comm, Nat.pow_add, Nat.mul_right_comm]
        exact Nat.mul_lt_mul_of_pos_right upper (Nat.two_pow_pos _)
      have quotientPositive := Nat.lt_of_lt_of_le (Nat.two_pow_pos _) atLeast
      rw [nearestExponent,
        (Nat.log2_eq_iff (Nat.ne_of_gt quotientPositive)).mpr ⟨atLeast, below⟩]
      omega
  have significand_eq : nearestSignificand (num * 2 ^ place) den 0 = roundQuotient num den := by
    rw [nearestSignificand, exponent_eq, Nat.zero_sub, Nat.pow_zero, Nat.mul_one, Nat.sub_zero,
      roundQuotient_mul_mul (Nat.two_pow_pos _)]
  rw [nearestMagnitude_eq whole, exponent_eq, significand_eq]

/-- Half an integer and more is rounded to one of the integers next to it. -/
theorem units_roundUnits
    {count den place : Nat}
    (positive : 0 < den)
    (small : place < 253)
    (upper : count < 0x1000000 * den)
    (lower : place = 0 ∨ 0x800000 * den ≤ count) :
    (ofMagnitude false (nearestMagnitude (count * 2 ^ place) den 0)).IsLevel ∧
      (ofMagnitude false (nearestMagnitude (count * 2 ^ place) den 0)).units =
        roundQuotient count den * 2 ^ place := by
  have atMost : roundQuotient count den ≤ 0x1000000 := by
    have ordered := roundQuotient_mono (Nat.le_of_lt upper) den
    rwa [roundQuotient_mul positive] at ordered
  have atLeast : place = 0 ∨ 0x800000 ≤ roundQuotient count den := by
    refine lower.imp_right fun leading => ?_
    have ordered := roundQuotient_mono leading den
    rwa [roundQuotient_mul positive] at ordered
  have finite : place * 0x800000 + roundQuotient count den < infinityMagnitude := by
    unfold infinityMagnitude
    omega
  rw [nearestMagnitude_shifted positive upper lower, Nat.min_eq_left (Nat.le_of_lt finite)]
  exact ⟨isLevel_ofMagnitude finite,
    units_ofMagnitude false (Nat.lt_trans finite (by decide)) atMost atLeast⟩

/-- Twenty-four binary digits in any place have a word of their own. -/
theorem exactly_roundUnits
    {count place : Nat}
    (digits : count < 0x1000000)
    (small : place < 253) :
    (ofMagnitude false (roundUnits (count * 2 ^ place))).IsLevel ∧
      (ofMagnitude false (roundUnits (count * 2 ^ place))).units = count * 2 ^ place := by
  induction place generalizing count with
  | zero =>
      have rounded := units_roundUnits Nat.one_pos small (by omega : count < 0x1000000 * 1)
        (Or.inl rfl)
      have whole : roundQuotient count 1 = count := by
        simpa using roundQuotient_mul Nat.one_pos count
      rwa [whole] at rounded
  | succ place inductionHypothesis =>
      rcases Nat.lt_or_ge count 0x800000 with short | long
      · -- The digits can be moved up by one place.
        have moved : count * 2 ^ (place + 1) = count * 2 * 2 ^ place := by
          rw [Nat.pow_succ, Nat.mul_comm (2 ^ place), Nat.mul_assoc]
        rw [moved]
        exact inductionHypothesis (by omega) (by omega)
      · have rounded := units_roundUnits Nat.one_pos small (by omega : count < 0x1000000 * 1)
          (Or.inr (by omega))
        have whole : roundQuotient count 1 = count := by
          simpa using roundQuotient_mul Nat.one_pos count
        rwa [whole] at rounded

/-! ## Nothing -/

/-- A number taken from itself leaves nothing. -/
theorem sub_self (finite : x.isFinite = true) : x - x = zero := by
  have negFinite : (-x).isFinite = true := (isFinite_neg x).trans finite
  have opposite : x.signedUnits + (-x).signedUnits = 0 := by
    unfold signedUnits
    rw [negative_neg, units_congr (magnitude_neg x)]
    cases x.negative with
    | false => simp
    | true => simp
  rw [sub_eq_add (isNaN_of_isFinite finite), add_of_isFinite finite negFinite, if_pos opposite,
    negative_neg, Bool.and_not_self]
  rfl

/-- There are two words for nothing. -/
theorem eq_zero_or_of_magnitude_eq_zero
    (nothing : x.magnitude = 0) :
    x = zero ∨ x = ofMagnitude true 0 := by
  cases sign : x.negative with
  | false => exact Or.inl (eq_of_negative_of_magnitude sign nothing)
  | true =>
      right
      apply eq_of_negative_of_magnitude
      · rw [sign, negative_ofMagnitude (by decide)]
      · rw [nothing, magnitude_ofMagnitude (by decide)]

/-- The number with the sign taken from a zero. -/
def unsignedZero (x : Single) : Single := if x.magnitude = 0 then zero else x

/-- Nothing is added to a number, except that a zero loses its sign. -/
theorem add_zero (finite : x.isFinite = true) : x + zero = x.unsignedZero := by
  have noUnits : zero.signedUnits = 0 := by decide
  rw [add_of_isFinite finite (by decide), noUnits, Int.add_zero, unsignedZero]
  have zero_iff : x.signedUnits = 0 ↔ x.magnitude = 0 := by
    rw [← units_eq_zero_iff finite, signedUnits]
    split_ifs
    · omega
    · omega
  simp only [zero_iff]
  split_ifs with nothing
  · rw [Bool.and_comm]
    rfl
  · have count : x.signedUnits.natAbs = x.units := by
      unfold signedUnits
      split_ifs
      · omega
      · omega
    have sign_eq : decide (x.signedUnits < 0) = x.negative := by
      have some : x.units ≠ 0 := fun none => nothing ((units_eq_zero_iff finite).mp none)
      unfold signedUnits
      cases x.negative with
      | false => simp
      | true =>
          rw [if_pos rfl]
          exact decide_eq_true (by omega)
    rw [count, sign_eq, roundUnits_units finite]
    apply eq_of_negative_of_magnitude
    · exact negative_ofMagnitude x.magnitude_lt
    · exact magnitude_ofMagnitude x.magnitude_lt

/-- A number compares like the number with the sign taken from a zero. -/
theorem le_unsignedZero_iff : y ≤ x.unsignedZero ↔ y ≤ x := by
  by_cases nothing : x.magnitude = 0
  · rcases eq_zero_or_of_magnitude_eq_zero nothing with rfl | rfl
    · rfl
    · have signedKey : (ofMagnitude true 0).key = zero.key := by decide
      have isNumber : (ofMagnitude true 0).isNaN = zero.isNaN := by decide
      rw [unsignedZero, if_pos nothing, le_iff_key, le_iff_key, signedKey, isNumber]
  · rw [unsignedZero, if_neg nothing]

/-- Of a zero of either sign nothing is left as a whole number, whatever it is multiplied
with. -/
theorem toWord_mul_eq_zero (nothing : x.magnitude = 0) (y : Single) : (x * y).toWord = 0 := by
  cases finite : y.isFinite with
  | true =>
      have product := magnitude_mul_eq_zero nothing finite
      have noSignificand : (x * y).significand = 0 := by
        rw [significand, product, Nat.zero_sub]
      rw [toWord, noSignificand]
      simp
  | false =>
      have notNumber := isNaN_mul_of_magnitude_eq_zero nothing finite
      rw [toWord, notNumber]
      rfl

theorem unsignedZero_unsignedZero (x : Single) : x.unsignedZero.unsignedZero = x.unsignedZero := by
  by_cases nothing : x.magnitude = 0
  · rw [unsignedZero, unsignedZero, if_pos nothing]
    rfl
  · rw [unsignedZero, unsignedZero, if_neg nothing, if_neg nothing]

theorem isFinite_unsignedZero (finite : x.isFinite = true) : x.unsignedZero.isFinite = true := by
  unfold unsignedZero
  split_ifs
  · decide
  · exact finite

/-- Nothing times a number without a sign is nothing. -/
theorem IsLevel.zero_mul (level : x.IsLevel) : zero * x = zero := by
  apply eq_of_negative_of_magnitude (isLevel_zero.mul level).sign
  exact magnitude_zero_mul level.finite

/-- A number is the product of itself and one. -/
theorem IsLevel.mul_one (level : x.IsLevel) : x * one = x := by
  apply eq_of_negative_of_magnitude
  · rw [(level.mul isLevel_one).sign, level.sign]
  · rw [level.magnitude_mul isLevel_one, units_one, nearestMagnitude_mul (Nat.two_pow_pos _),
      roundUnits_units level.finite]

/-- A number above zero is in itself once. -/
theorem IsLevel.div_self
    (level : x.IsLevel)
    (positive : zero < x) :
    x / x = one := by
  apply eq_of_negative_of_magnitude (level.amount.div level positive).sign
  rw [level.magnitude_div positive level, nearestMagnitude_self (level.units_pos positive)]

/-! ## Counts -/

/-- A count of twenty-four binary digits is a number of whole ones. -/
theorem exactly_ofNat
    {count : Nat}
    (digits : count < 0x1000000) :
    (ofNat count).IsLevel ∧ (ofNat count).units = count * 2 ^ 149 := by
  rw [ofNat_eq, Nat.shiftLeft_eq]
  exact exactly_roundUnits digits (by decide)

section Counts

variable {first second : Nat}
variable (digits : first < 0x1000000) (digitsToo : second < 0x1000000)

include digits digitsToo

/-- Counts are added exactly, as far as their sum is exact. -/
theorem ofNat_add : ofNat first + ofNat second = ofNat (first + second) := by
  obtain ⟨level, units_eq⟩ := exactly_ofNat digits
  obtain ⟨levelToo, unitsToo_eq⟩ := exactly_ofNat digitsToo
  rw [level.add_eq levelToo, units_eq, unitsToo_eq, ← Nat.add_mul, ofNat_eq, Nat.shiftLeft_eq]

/-- Counts are multiplied exactly, as far as their product is exact. -/
theorem ofNat_mul : ofNat first * ofNat second = ofNat (first * second) := by
  obtain ⟨level, units_eq⟩ := exactly_ofNat digits
  obtain ⟨levelToo, unitsToo_eq⟩ := exactly_ofNat digitsToo
  have product_eq : first * 2 ^ 149 * (second * 2 ^ 149) =
      first * second * 2 ^ 149 * 2 ^ 149 := by ring
  rw [mul_eq level.finite levelToo.finite, level.sign, levelToo.sign, bne_self_eq_false, units_eq,
    unitsToo_eq, product_eq, nearestMagnitude_mul (Nat.two_pow_pos _), ofNat_eq, Nat.shiftLeft_eq]

end Counts
end Single
end DeepShadow
