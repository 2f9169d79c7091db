import DeepShadow.Proofs.Single.Results

/-!
# Lowering a visibility

A visibility is a finite number with a positive sign.  At a hit a change that is
not above zero, or is not a number, is added to it, and the sum is brought back to
zero where it is not above.  This leaves a visibility, which is not above the one
before it; and of two visibilities the smaller one stays the smaller one.
-/

namespace DeepShadow
namespace Single

variable {x y change : Single}

/-! ## Levels -/

/-- What visibilities are: finite words without a sign. -/
structure IsLevel (x : Single) : Prop where
  sign : x.negative = false
  finite : x.isFinite = true

theorem isLevel_zero : zero.IsLevel := ⟨by decide, by decide⟩

theorem isLevel_one : one.IsLevel := ⟨by decide, by decide⟩

theorem isLevel_ofMagnitude
    {magnitude : Nat}
    (bound : magnitude < infinityMagnitude) :
    (ofMagnitude false magnitude).IsLevel := by
  have small : magnitude < 0x80000000 := Nat.lt_trans bound (by decide)
  exact ⟨negative_ofMagnitude small, by simpa [isFinite, small] using bound⟩

theorem IsLevel.magnitude_lt (level : x.IsLevel) : x.magnitude < infinityMagnitude := by
  simpa [isFinite] using level.finite

theorem IsLevel.key_eq (level : x.IsLevel) : x.key = x.magnitude := by
  simp [key, level.sign]

/-- Levels compare like their magnitudes. -/
theorem IsLevel.le_iff
    (level : x.IsLevel)
    (levelToo : y.IsLevel) :
    x ≤ y ↔ x.magnitude ≤ y.magnitude := by
  rw [le_iff_key, level.key_eq, levelToo.key_eq]
  simp [isNaN_of_isFinite level.finite, isNaN_of_isFinite levelToo.finite]

theorem IsLevel.zero_le (level : x.IsLevel) : zero ≤ x := by
  rw [zero_le_iff]
  exact ⟨isNaN_of_isFinite level.finite, fun sign => absurd (level.sign ▸ sign) (by decide)⟩

/-- A level that is not above zero is zero. -/
theorem IsLevel.eq_zero
    (level : x.IsLevel)
    (notAbove : x ≤ zero) :
    x = zero := by
  exact eq_of_negative_of_magnitude level.sign
    (Nat.le_zero.mp ((level.le_iff isLevel_zero).mp notAbove))

theorem clampNonNegative_of_not_lt (notAbove : ¬zero < x) : x.clampNonNegative = zero := by
  simp [clampNonNegative, notAbove]

theorem IsLevel.clampNonNegative_eq (level : x.IsLevel) : x.clampNonNegative = x := by
  by_cases above : zero < x
  · simp [clampNonNegative, above]
  · rw [clampNonNegative_of_not_lt above]
    have nothing : x.magnitude = 0 := by
      simpa [zero_lt_iff, isNaN_of_isFinite level.finite, level.sign] using above
    exact (eq_of_negative_of_magnitude level.sign nothing).symm

/-! ## Lowering -/

/-- What is left of a visibility after a change. -/
def lower (level change : Single) : Single := (level + change).clampNonNegative

/-- The level left after a change that is not above zero. -/
theorem IsLevel.lower_eq
    (level : x.IsLevel)
    (notAbove : ¬zero < change) :
    x.lower change =
      ofMagnitude false (if change.isFinite then roundUnits (x.units - change.units) else 0) := by
  have zero_eq : ofMagnitude false 0 = zero := rfl
  by_cases finite : change.isFinite = true
  · have rounded : roundUnits (x.units - change.units) < infinityMagnitude :=
      Nat.lt_of_le_of_lt (roundUnits_mono (Nat.sub_le _ _))
        (roundUnits_units level.finite ▸ level.magnitude_lt)
    have levelUnits : x.signedUnits = x.units := by simp [signedUnits, level.sign]
    rw [if_pos finite, lower, add_of_isFinite level.finite finite, levelUnits,
      signedUnits_of_not_lt finite notAbove]
    rcases Nat.lt_trichotomy x.units change.units with below | same | above
    · have negative : (x.units : Int) + -(change.units : Int) < 0 := by omega
      rw [if_neg (Int.ne_of_lt negative), decide_eq_true negative, Nat.sub_eq_zero_of_le (by omega),
        roundUnits_zero, zero_eq]
      apply clampNonNegative_of_not_lt
      apply not_zero_lt_of_negative
      exact negative_ofMagnitude (Nat.lt_of_le_of_lt (roundUnits_le _) (by decide))
    · have nothing : (x.units : Int) + -(change.units : Int) = 0 := by omega
      rw [if_pos nothing, level.sign, Bool.false_and, same, Nat.sub_self, roundUnits_zero]
      exact clampNonNegative_of_not_lt (by decide)
    · have positive : ¬(x.units : Int) + -(change.units : Int) < 0 := by omega
      have some : (x.units : Int) + -(change.units : Int) ≠ 0 := by omega
      have count : ((x.units : Int) + -(change.units : Int)).natAbs = x.units - change.units := by
        omega
      rw [if_neg some, decide_eq_false positive, count]
      exact (isLevel_ofMagnitude rounded).clampNonNegative_eq
  · rw [if_neg finite, zero_eq]
    apply clampNonNegative_of_not_lt
    have levelNumber := isNaN_of_isFinite level.finite
    have sum_eq : x + change = x.add change := rfl
    rw [sum_eq, add]
    by_cases notNumber : change.isNaN = true
    · simp only [levelNumber, notNumber, Bool.false_eq_true, if_false, if_true]
      exact not_zero_lt_of_isNaN (isNaN_quiet notNumber)
    · -- What is neither finite nor a NaN is an infinity, and handed on.
      have infinite := isInfinite_of_not_finite (Bool.not_eq_true _ ▸ finite) notNumber
      simp only [levelNumber, notNumber, isInfinite_of_isFinite level.finite, infinite,
        Bool.false_eq_true, if_false, if_true]
      exact notAbove

theorem IsLevel.lower
    (level : x.IsLevel)
    (notAbove : ¬zero < change) :
    (x.lower change).IsLevel := by
  rw [level.lower_eq notAbove]
  apply isLevel_ofMagnitude
  split_ifs
  · exact Nat.lt_of_le_of_lt (roundUnits_mono (Nat.sub_le _ _))
      (roundUnits_units level.finite ▸ level.magnitude_lt)
  · decide

/-- Lowering keeps the order of levels. -/
theorem IsLevel.lower_le_lower
    (level : x.IsLevel)
    (levelToo : y.IsLevel)
    (ordered : x ≤ y)
    (notAbove : ¬zero < change) :
    x.lower change ≤ y.lower change := by
  have magnitudes := (level.le_iff levelToo).mp ordered
  have counts := units_le_units level.finite levelToo.finite magnitudes
  rw [(level.lower notAbove).le_iff (levelToo.lower notAbove), level.lower_eq notAbove,
    levelToo.lower_eq notAbove]
  split_ifs
  · have bound (count : Nat) : roundUnits count < 0x80000000 :=
      Nat.lt_of_le_of_lt (roundUnits_le _) (by decide)
    rw [magnitude_ofMagnitude (bound _), magnitude_ofMagnitude (bound _)]
    exact roundUnits_mono (Nat.sub_le_sub_right counts _)
  · exact Nat.le_refl _

/-- Lowering does not raise a level. -/
theorem IsLevel.lower_le
    (level : x.IsLevel)
    (notAbove : ¬zero < change) :
    x.lower change ≤ x := by
  rw [(level.lower notAbove).le_iff level, level.lower_eq notAbove]
  split_ifs
  · rw [magnitude_ofMagnitude (Nat.lt_of_le_of_lt (roundUnits_le _) (by decide))]
    calc roundUnits (x.units - change.units)
        ≤ roundUnits x.units := roundUnits_mono (Nat.sub_le _ _)
      _ = x.magnitude := roundUnits_units level.finite
  · exact Nat.zero_le _

/-- A zero of either sign changes nothing. -/
theorem IsLevel.lower_of_magnitude_eq_zero
    (level : x.IsLevel)
    (nothing : change.magnitude = 0) :
    x.lower change = x := by
  have finite : change.isFinite = true := by simp [isFinite, nothing, infinityMagnitude]
  have noUnits : change.units = 0 := (units_congr (y := zero) nothing).trans (by decide)
  rw [level.lower_eq (not_zero_lt_of_magnitude_eq_zero nothing), if_pos finite, noUnits,
    Nat.sub_zero, roundUnits_units level.finite]
  have bound := x.magnitude_lt
  exact eq_of_negative_of_magnitude (by rw [negative_ofMagnitude bound, level.sign])
    (magnitude_ofMagnitude bound)

/-- Nothing is left after a change that is not finite. -/
theorem IsLevel.lower_of_not_finite
    (level : x.IsLevel)
    (notAbove : ¬zero < change)
    (notFinite : change.isFinite = false) :
    x.lower change = zero := by
  rw [level.lower_eq notAbove, notFinite]
  rfl

/-- An opaque surface seen by the only weight leaves nothing. -/
theorem IsLevel.lower_share_alone
    {weight : Single}
    (level : x.IsLevel)
    (atMost : x ≤ one)
    (positive : zero < weight) :
    x.lower (one * (-weight / (zero + weight))) = zero := by
  rw [zero_add_of_zero_lt positive]
  rcases neg_div_self positive with share_eq | notNumber
  · have whole : one * -one = -one := by decide +kernel
    have ordered := units_le_units level.finite isLevel_one.finite
      ((level.le_iff isLevel_one).mp atMost)
    have units_eq : (-one).units = one.units := units_congr (by decide)
    rw [share_eq, whole, level.lower_eq (by decide), if_pos (by decide), units_eq,
      Nat.sub_eq_zero_of_le ordered, roundUnits_zero]
    rfl
  · have product_eq : one * (-weight / weight) = one.mul (-weight / weight) := rfl
    have oneNumber : one.isNaN = false := by decide
    have productNotNumber : (one * (-weight / weight)).isNaN = true := by
      rw [product_eq, mul]
      simp only [oneNumber, notNumber, Bool.false_eq_true, if_false, if_true]
      exact isNaN_quiet notNumber
    exact level.lower_of_not_finite (not_zero_lt_of_isNaN productNotNumber)
      (isFinite_eq_false_of_isNaN productNotNumber)

end Single
end DeepShadow
