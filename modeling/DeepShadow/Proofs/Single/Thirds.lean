import DeepShadow.Proofs.Single.Exact

/-!
# The mean of three equal numbers

A mean of three is their sum, divided by three, and both are rounded.  Three times a number
has up to two binary digits more than the number.  Where it has one more, what rounding adds
or takes is less than half of a third, and the division takes it back.  Where it has two
more, and lies in the middle between two words, rounding adds or takes two thirds of the last
digit, and the mean is one of the neighbors of the number.
-/

namespace DeepShadow
namespace Single

variable {x : Single}

/-! ## Parts of a word -/

theorem significand_lt (x : Single) : x.significand < 0x1000000 := by
  have split := x.magnitude_eq
  have exponent_eq : x.exponent = x.magnitude / 0x800000 - 1 := rfl
  omega

/-- The first digit is set unless the exponent is the least. -/
theorem exponent_eq_zero_or (x : Single) : x.exponent = 0 ∨ 0x800000 ≤ x.significand := by
  have split := x.magnitude_eq
  have exponent_eq : x.exponent = x.magnitude / 0x800000 - 1 := rfl
  omega

theorem units_eq (x : Single) : x.units = x.significand * 2 ^ x.exponent := Nat.shiftLeft_eq _ _

theorem magnitude_one : one.magnitude = 0x3f800000 := by decide

/-- A number up to one ends far in front of the infinity. -/
theorem IsLevel.exponent_le
    (level : x.IsLevel)
    (atMost : x ≤ one) :
    x.exponent ≤ 126 := by
  have magnitudes := (level.le_iff isLevel_one).mp atMost
  rw [magnitude_one] at magnitudes
  have exponent_eq : x.exponent = x.magnitude / 0x800000 - 1 := rfl
  omega

/-! ## Three times a significand -/

/-- Three times a significand, rounded to a significand in its place. -/
def nearestTriple (digits : Nat) : Nat :=
  if 3 * digits < 0x1000000 then 3 * digits
  else if 3 * digits < 0x2000000 then roundQuotient (3 * digits) 2 * 2
  else roundQuotient (3 * digits) 4 * 4

/-- The significand of the mean of three numbers with the same significand. -/
def meanSignificand (digits : Nat) : Nat :=
  if 0xaaaaab ≤ digits ∧ digits % 4 = 2 then
    if digits % 8 = 2 then digits + 1 else digits - 1
  else digits

theorem nearestTriple_bounds
    {digits : Nat}
    (bound : digits < 0x1000000) :
    nearestTriple digits < 0x1000000 * 3 ∧
      (0x800000 ≤ digits -> 0x800000 * 3 ≤ nearestTriple digits) := by
  unfold nearestTriple roundQuotient
  dsimp only
  split_ifs <;> omega

/-- A third of the rounded triple is rounded back, except in the middle between two words. -/
theorem roundQuotient_nearestTriple
    {digits : Nat}
    (bound : digits < 0x1000000) :
    roundQuotient (nearestTriple digits) 3 = meanSignificand digits := by
  have back {triple result : Nat} (near : triple ≤ 3 * result + 1 ∧ 3 * result ≤ triple + 1) :
      roundQuotient triple 3 = result := by
    unfold roundQuotient
    dsimp only
    split_ifs <;> omega
  apply back
  unfold nearestTriple meanSignificand roundQuotient
  dsimp only
  split_ifs <;> omega

/-! ## Three times a number -/

/-- The sum of three equal numbers is rounded once. -/
theorem IsLevel.triple
    (level : x.IsLevel)
    (small : x.exponent ≤ 126) :
    (x + x + x).IsLevel ∧
      (x + x + x).units = nearestTriple x.significand * 2 ^ x.exponent := by
  have digits := x.significand_lt
  have leading := x.exponent_eq_zero_or
  obtain ⟨twice, twice_units⟩ := exactly_roundUnits digits (by omega : x.exponent + 1 < 253)
  have double_eq : x + x =
      ofMagnitude false (roundUnits (x.significand * 2 ^ (x.exponent + 1))) := by
    rw [level.add_eq level, ← Nat.mul_two, units_eq, Nat.pow_succ, Nat.mul_assoc]
  have sum_eq : x + x + x =
      ofMagnitude false (roundUnits (3 * x.significand * 2 ^ x.exponent)) := by
    rw [double_eq, twice.add_eq level, twice_units, units_eq, Nat.pow_succ]
    congr 2
    ring
  -- Rounded in a place of their own, the units are a quotient by the power of this place.
  have rounded {den place : Nat} (power : den = 2 ^ place) :
      roundUnits (3 * x.significand * 2 ^ x.exponent) =
        nearestMagnitude (3 * x.significand * 2 ^ (x.exponent + place)) den 0 := by
    rw [← nearestMagnitude_mul (power ▸ Nat.two_pow_pos place), power, Nat.pow_add, Nat.mul_assoc]
  rw [sum_eq]
  unfold nearestTriple
  split_ifs with fits oneMore
  · exact exactly_roundUnits fits (by omega)
  · rw [rounded (by norm_num : 2 = 2 ^ 1)]
    obtain ⟨triple, units_eq⟩ := units_roundUnits Nat.two_pos (by omega : x.exponent + 1 < 253)
      (by omega : 3 * x.significand < 0x1000000 * 2) (Or.inr (by omega))
    exact ⟨triple, by rw [units_eq, Nat.pow_succ, Nat.mul_comm (2 ^ _), Nat.mul_assoc]⟩
  · rw [rounded (by norm_num : 4 = 2 ^ 2)]
    obtain ⟨triple, units_eq⟩ := units_roundUnits (by decide : 0 < 4)
      (by omega : x.exponent + 2 < 253) (by omega : 3 * x.significand < 0x1000000 * 4)
      (Or.inr (by omega))
    exact ⟨triple, by rw [units_eq, Nat.pow_add, Nat.mul_comm (2 ^ _), Nat.mul_assoc]⟩

/-! ## The mean -/

/-- The mean of three equal numbers between zero and one. -/
def settled (x : Single) : Single :=
  ofMagnitude x.negative (x.exponent * 0x800000 + meanSignificand x.significand)

theorem meanSignificand_lt
    {digits : Nat}
    (bound : digits < 0x1000000) :
    meanSignificand digits < 0x1000000 ∧
      (0x800000 ≤ digits -> 0x800000 ≤ meanSignificand digits) := by
  unfold meanSignificand
  split_ifs <;> omega

/-- The mean of three equal numbers. -/
theorem IsLevel.mean_eq
    (level : x.IsLevel)
    (atMost : x ≤ one) :
    (x + x + x) / ofNat 3 = x.settled := by
  have small := level.exponent_le atMost
  have digits := x.significand_lt
  obtain ⟨triple, triple_units⟩ := level.triple small
  obtain ⟨three, three_units⟩ := exactly_ofNat (by decide : 3 < 0x1000000)
  have positive : zero < ofNat 3 := by decide +kernel
  obtain ⟨upper, lower⟩ := nearestTriple_bounds digits
  obtain ⟨meanBound, -⟩ := meanSignificand_lt digits
  have bounded : x.exponent * 0x800000 + meanSignificand x.significand < infinityMagnitude := by
    unfold infinityMagnitude
    omega
  have inRange := Nat.lt_trans bounded (by decide : infinityMagnitude < 0x80000000)
  apply eq_of_negative_of_magnitude
  · rw [(triple.amount.div three positive).sign, settled, level.sign, negative_ofMagnitude inRange]
  · rw [three.magnitude_div positive triple, triple_units, three_units,
      nearestMagnitude_mul_mul (Nat.two_pow_pos _),
      nearestMagnitude_shifted (by decide) upper (x.exponent_eq_zero_or.imp_right lower),
      roundQuotient_nearestTriple digits, Nat.min_eq_left (Nat.le_of_lt bounded), settled,
      magnitude_ofMagnitude inRange]

/-! ## Numbers from zero to one -/

/-- A number is from zero to one; the zero may have a sign. -/
structure InUnit (x : Single) : Prop where
  zero_le : zero ≤ x
  le_one : x ≤ one

/-- The numbers whose triple lies in the middle between two words. -/
def Strays (x : Single) : Prop := 0xaaaaab ≤ x.significand ∧ x.significand % 4 = 2

instance (x : Single) : Decidable x.Strays := inferInstanceAs (Decidable (_ ∧ _))

theorem InUnit.magnitude_le (inUnit : x.InUnit) : x.magnitude ≤ 0x3f800000 := by
  rw [← magnitude_one]
  exact magnitude_le_of_le inUnit.zero_le inUnit.le_one

/-- A number from zero to one is a level or the zero with a sign. -/
theorem InUnit.isLevel_or (inUnit : x.InUnit) : x.IsLevel ∨ x = ofMagnitude true 0 := by
  have bound := inUnit.magnitude_le
  have finite : x.isFinite = true := by
    rw [isFinite, decide_eq_true_eq, infinityMagnitude]
    omega
  cases sign : x.negative with
  | false => exact Or.inl ⟨sign, finite⟩
  | true =>
      rcases eq_zero_or_of_magnitude_eq_zero ((zero_le_iff.mp inUnit.zero_le).2 sign) with
        rfl | signed
      · exact Or.inl isLevel_zero
      · exact Or.inr signed

/-- The mean of three equal numbers from zero to one. -/
theorem InUnit.mean_eq (inUnit : x.InUnit) : (x + x + x) / ofNat 3 = x.settled := by
  rcases inUnit.isLevel_or with level | rfl
  · exact level.mean_eq inUnit.le_one
  · decide +kernel

theorem InUnit.magnitude_settled (inUnit : x.InUnit) :
    x.settled.negative = x.negative ∧
      x.settled.magnitude = x.exponent * 0x800000 + meanSignificand x.significand := by
  have bound := inUnit.magnitude_le
  have exponent_eq : x.exponent = x.magnitude / 0x800000 - 1 := rfl
  have digits := (meanSignificand_lt x.significand_lt).1
  have inRange : x.exponent * 0x800000 + meanSignificand x.significand < 0x80000000 := by omega
  exact ⟨negative_ofMagnitude inRange, magnitude_ofMagnitude inRange⟩

/-- The mean of three equal numbers lies in the place of the numbers. -/
theorem InUnit.significand_settled (inUnit : x.InUnit) :
    x.settled.significand = meanSignificand x.significand := by
  have magnitude_eq := inUnit.magnitude_settled.2
  have split := x.settled.magnitude_eq
  have exponent_eq : x.settled.exponent = x.settled.magnitude / 0x800000 - 1 := rfl
  have leading := x.exponent_eq_zero_or
  obtain ⟨upper, lower⟩ := meanSignificand_lt x.significand_lt
  omega

/-- A mean that is not the number is one of its neighbors. -/
theorem InUnit.settled_near (inUnit : x.InUnit) :
    x.settled.magnitude ≤ x.magnitude + 1 ∧ x.magnitude ≤ x.settled.magnitude + 1 := by
  rw [inUnit.magnitude_settled.2, x.magnitude_eq]
  unfold meanSignificand
  split_ifs <;> omega

/-- The numbers that are the mean of three of them. -/
theorem InUnit.settled_eq_iff (inUnit : x.InUnit) : x.settled = x ↔ ¬x.Strays := by
  obtain ⟨sign, magnitude_eq⟩ := inUnit.magnitude_settled
  have split := x.magnitude_eq
  constructor
  · intro same
    rw [same] at magnitude_eq
    unfold meanSignificand at magnitude_eq
    unfold Strays
    split_ifs at magnitude_eq <;> omega
  · intro notStray
    unfold Strays at notStray
    apply eq_of_negative_of_magnitude sign
    rw [magnitude_eq, split, meanSignificand, if_neg notStray]

/-- A mean is not changed any more. -/
theorem InUnit.not_strays_settled (inUnit : x.InUnit) : ¬x.settled.Strays := by
  rw [Strays, inUnit.significand_settled]
  unfold meanSignificand
  split_ifs <;> omega

/-- A mean of numbers from zero to one is from zero to one. -/
theorem InUnit.settled (inUnit : x.InUnit) : x.settled.InUnit := by
  have bound := inUnit.magnitude_le
  obtain ⟨sign, magnitude_eq⟩ := inUnit.magnitude_settled
  by_cases stray : x.Strays
  · have level : x.IsLevel := by
      rcases inUnit.isLevel_or with level | rfl
      · exact level
      · exact absurd stray (by decide +kernel)
    have below : x.settled.magnitude ≤ one.magnitude := by
      rw [magnitude_one]
      have split := x.magnitude_eq
      have exponent_eq : x.exponent = x.magnitude / 0x800000 - 1 := rfl
      obtain ⟨lower, digits⟩ := stray
      have near := inUnit.settled_near.1
      omega
    have settledLevel : x.settled.IsLevel := by
      refine ⟨sign.trans level.sign, ?_⟩
      rw [isFinite, decide_eq_true_eq]
      exact Nat.lt_of_le_of_lt below (by decide)
    exact ⟨settledLevel.zero_le, (settledLevel.le_iff isLevel_one).mpr below⟩
  · rwa [inUnit.settled_eq_iff.mpr stray]

theorem InUnit.settled_settled (inUnit : x.InUnit) : x.settled.settled = x.settled :=
  inUnit.settled.settled_eq_iff.mpr inUnit.not_strays_settled

end Single
end DeepShadow
