import DeepShadow.Proofs.Single.Accuracy

/-!
# Products and quotients in order

A product or a quotient is rounded from a quotient of natural numbers.  Rounding keeps their
order: a larger factor gives a larger product, and a larger dividend a larger quotient.  A
number that is multiplied and then divided by the same number comes back, or one of the two
next to it does, as long as the product is finite.
-/

namespace DeepShadow
namespace Single

variable {x y z : Single} {den : Nat}

/-! ## Quotients of natural numbers -/

theorem nearestMagnitude_mono
    (positive : 0 < den)
    {first second : Nat}
    (ordered : first ≤ second) :
    nearestMagnitude first den 0 ≤ nearestMagnitude second den 0 := by
  rcases Nat.eq_zero_or_pos first with rfl | some
  · rw [nearestMagnitude_zero]
    exact Nat.zero_le _
  have whole : first ≠ 0 := Nat.ne_of_gt some
  have wholeToo : second ≠ 0 := Nat.ne_of_gt (Nat.lt_of_lt_of_le some ordered)
  have exponents : nearestExponent first den 0 ≤ nearestExponent second den 0 :=
    Nat.sub_le_sub_right (log2_mono (Nat.div_le_div_right ordered)) 23
  have unbounded : nearestExponent first den 0 * 0x800000 + nearestSignificand first den 0 ≤
      nearestExponent second den 0 * 0x800000 + nearestSignificand second den 0 := by
    rcases Nat.eq_or_lt_of_le exponents with same | below
    · have significands : nearestSignificand first den 0 ≤ nearestSignificand second den 0 := by
        unfold nearestSignificand
        rw [same]
        exact roundQuotient_mono (Nat.mul_le_mul_right _ ordered) _
      omega
    · -- The smaller one is at most the power of two from which the larger one starts.
      have upper := (nearestSignificand_bounds positive whole (Or.inl rfl)).1
      have lower := (nearestSignificand_bounds positive wholeToo (Or.inl rfl)).2
      omega
  rw [nearestMagnitude_eq whole, nearestMagnitude_eq wholeToo]
  omega

/-! ## Results as words -/

/-- A word without a sign is an amount where it is not above the infinity. -/
theorem isAmount_ofMagnitude
    {magnitude : Nat}
    (bound : magnitude ≤ infinityMagnitude) :
    (ofMagnitude false magnitude).IsAmount := by
  have small : magnitude < 0x80000000 := Nat.lt_of_le_of_lt bound (by decide)
  refine ⟨?_, negative_ofMagnitude small⟩
  rw [isNaN, magnitude_ofMagnitude small]
  exact decide_eq_false (Nat.not_lt.mpr bound)

/-- An amount is at most infinite. -/
theorem IsAmount.le_infinity (amount : x.IsAmount) : x ≤ ofMagnitude false infinityMagnitude := by
  rw [amount.le_iff (isAmount_ofMagnitude (Nat.le_refl _)), magnitude_ofMagnitude (by decide)]
  exact amount.magnitude_le

/-! ## Order of results -/

/-- What is above a number that is not below zero has no sign. -/
theorem isAmount_of_lt
    (notBelow : zero ≤ x)
    (below : x < y) :
    y.IsAmount := by
  have keys := (le_iff_key.mp notBelow).2.2
  rw [lt_iff_key] at below
  refine isAmount_of_zero_lt (lt_iff_key.mpr ⟨by decide, below.2.1, ?_⟩)
  exact Int.lt_of_le_of_lt keys below.2.2

/-- A number that is neither above nor below a positive one is the same word. -/
theorem eq_of_le_of_not_lt
    (positive : zero < y)
    (ordered : x ≤ y)
    (notBelow : ¬x < y) :
    x = y := by
  obtain ⟨isNumber, isNumberToo, keys⟩ := le_iff_key.mp ordered
  obtain ⟨-, sign, some⟩ := zero_lt_iff.mp positive
  have keys_eq : x.key = y.key := by
    rw [lt_iff_key] at notBelow
    have notLess : ¬x.key < y.key := fun less => notBelow ⟨isNumber, isNumberToo, less⟩
    omega
  unfold key at keys_eq
  rw [sign] at keys_eq
  cases signToo : x.negative with
  | false =>
      rw [signToo] at keys_eq
      exact eq_of_negative_of_magnitude (signToo.trans sign.symm) (Int.ofNat_inj.mp keys_eq)
  | true =>
      simp only [signToo, if_true, Bool.false_eq_true, if_false] at keys_eq
      omega

/-- A product of numbers without a sign has none. -/
theorem IsLevel.mul
    (level : x.IsLevel)
    (levelToo : y.IsLevel) :
    (x * y).IsAmount := by
  rw [mul_eq level.finite levelToo.finite, level.sign, levelToo.sign]
  exact isAmount_ofMagnitude (nearestMagnitude_le _ _ _)

theorem IsLevel.magnitude_mul
    (level : x.IsLevel)
    (levelToo : y.IsLevel) :
    (x * y).magnitude = nearestMagnitude (x.units * y.units) (2 ^ 149) 0 := by
  rw [mul_eq level.finite levelToo.finite, magnitude_ofMagnitude (nearestMagnitude_lt _ _ _)]

theorem IsLevel.mul_zero (level : x.IsLevel) : x * zero = zero := by
  apply eq_of_negative_of_magnitude (level.mul isLevel_zero).sign
  rw [level.magnitude_mul isLevel_zero, units_zero, Nat.mul_zero, nearestMagnitude_zero]
  rfl

theorem IsLevel.mul_le_mul
    (level : x.IsLevel)
    (levelToo : y.IsLevel)
    (levelThree : z.IsLevel)
    (ordered : y ≤ z) :
    x * y ≤ x * z := by
  rw [(level.mul levelToo).le_iff (level.mul levelThree), level.magnitude_mul levelToo,
    level.magnitude_mul levelThree]
  apply nearestMagnitude_mono (Nat.two_pow_pos _)
  apply Nat.mul_le_mul_left
  exact units_le_units levelToo.finite levelThree.finite
    ((levelToo.le_iff levelThree).mp ordered)

section Divisor

variable (level : y.IsLevel) (positive : zero < y)

include level positive

theorem IsLevel.units_pos : 0 < y.units := by
  refine Nat.pos_of_ne_zero fun nothing => ?_
  exact (zero_lt_iff.mp positive).2.2 ((units_eq_zero_iff level.finite).mp nothing)

theorem IsLevel.magnitude_div (levelToo : x.IsLevel) :
    (x / y).magnitude = nearestMagnitude (x.units * 2 ^ 149) y.units 0 := by
  rw [div_eq levelToo.finite level.finite (zero_lt_iff.mp positive).2.2,
    magnitude_ofMagnitude (nearestMagnitude_lt _ _ _)]

omit positive in
/-- The infinity divided by a number is the infinity. -/
theorem IsAmount.div_eq_infinity
    (amount : x.IsAmount)
    (infinite : x.isFinite = false) :
    x / y = ofMagnitude false infinityMagnitude := by
  have quotient_eq : x / y = x.div y := rfl
  have isInfinite := isInfinite_of_not_finite infinite (by simp [amount.isNumber])
  rw [quotient_eq, div]
  simp only [amount.isNumber, isInfinite, isNaN_of_isFinite level.finite,
    isInfinite_of_isFinite level.finite, amount.sign, level.sign, Bool.false_eq_true, if_false,
    if_true, bne_self_eq_false]

theorem IsAmount.div (amount : x.IsAmount) : (x / y).IsAmount := by
  cases finite : x.isFinite with
  | true =>
      rw [div_eq finite level.finite (zero_lt_iff.mp positive).2.2, amount.sign, level.sign]
      exact isAmount_ofMagnitude (nearestMagnitude_le _ _ _)
  | false =>
      rw [amount.div_eq_infinity level finite]
      exact isAmount_ofMagnitude (Nat.le_refl _)

theorem IsLevel.zero_div : zero / y = zero := by
  apply eq_of_negative_of_magnitude (isLevel_zero.amount.div level positive).sign
  rw [level.magnitude_div positive isLevel_zero, units_zero, Nat.zero_mul, nearestMagnitude_zero]
  rfl

theorem IsAmount.div_le_div
    (amount : x.IsAmount)
    (amountToo : z.IsAmount)
    (ordered : x ≤ z) :
    x / y ≤ z / y := by
  rw [(amount.div level positive).le_iff (amountToo.div level positive)]
  have magnitudes := (amount.le_iff amountToo).mp ordered
  cases finite : z.isFinite with
  | true =>
      have levelOfLarger : z.IsLevel := ⟨amountToo.sign, finite⟩
      have levelOfSmaller : x.IsLevel := ⟨amount.sign, isFinite_of_le amount.zero_le ordered finite⟩
      rw [level.magnitude_div positive levelOfSmaller, level.magnitude_div positive levelOfLarger]
      apply nearestMagnitude_mono (level.units_pos positive)
      exact Nat.mul_le_mul_right _ (units_le_units levelOfSmaller.finite finite magnitudes)
  | false =>
      rw [amountToo.div_eq_infinity level finite, magnitude_ofMagnitude (by decide)]
      exact (amount.div level positive).magnitude_le

end Divisor

/-! ## Neighbors -/

/-- The units of the next word, which may carry into the next exponent. -/
theorem units_succ
    (finite : x.isFinite = true) :
    (ofMagnitude false (x.magnitude + 1)).units = x.units + 2 ^ x.exponent ∧
      x.units + 2 ^ x.exponent ≤ 2 ^ 24 * 2 ^ x.exponent := by
  have bound : x.magnitude < infinityMagnitude := by simpa [isFinite] using finite
  have split := x.magnitude_eq
  have exponent_eq : x.exponent = x.magnitude / 0x800000 - 1 := rfl
  have units_eq : x.units = x.significand * 2 ^ x.exponent := Nat.shiftLeft_eq _ _
  have carries : x.significand + 1 ≤ 0x1000000 := by omega
  rw [units_eq, ← Nat.succ_mul]
  refine ⟨?_, Nat.mul_le_mul_right _ carries⟩
  rw [split, Nat.add_assoc]
  apply units_ofMagnitude
  · unfold infinityMagnitude at bound
    omega
  · exact carries
  · omega

/-- Two finite numbers differ by a unit at least, and by the `2 ^ 24`th part of the larger
one. -/
theorem IsLevel.units_gap
    (level : x.IsLevel)
    (levelToo : y.IsLevel)
    (below : x.magnitude < y.magnitude) :
    ∃ gap, y.units = x.units + gap ∧ 0 < gap ∧ y.units ≤ 2 ^ 24 * gap := by
  have bound := levelToo.magnitude_lt
  have before := isLevel_ofMagnitude (Nat.lt_of_le_of_lt (Nat.sub_le y.magnitude 1) bound)
  have before_eq : (ofMagnitude false (y.magnitude - 1)).magnitude = y.magnitude - 1 :=
    magnitude_ofMagnitude (Nat.lt_of_le_of_lt (Nat.sub_le _ 1) y.magnitude_lt)
  have notAbove : x.units ≤ (ofMagnitude false (y.magnitude - 1)).units := by
    apply units_le_units level.finite before.finite
    omega
  obtain ⟨next_eq, power⟩ := units_succ before.finite
  have next_units : (ofMagnitude false (y.magnitude - 1 + 1)).units = y.units :=
    units_congr (by rw [Nat.sub_add_cancel (Nat.zero_lt_of_lt below),
      magnitude_ofMagnitude y.magnitude_lt])
  rw [before_eq, next_units] at next_eq
  rw [← next_eq] at power
  have positive := Nat.two_pow_pos (ofMagnitude false (y.magnitude - 1)).exponent
  exact ⟨y.units - x.units, by omega, by omega, by omega⟩

/-! ## Products divided again -/

section Again

variable (level : x.IsLevel) (levelToo : y.IsLevel)

include level levelToo

/-- A finite product is at most half a unit away from the exact one, or the `2 ^ 24`th part
of it. -/
theorem IsLevel.mul_error (finite : (x * y).isFinite = true) :
    |((x * y).units : ℚ) * 2 ^ 149 - (x.units : ℚ) * y.units| ≤ 2 ^ 149 / 2 ∨
      |((x * y).units : ℚ) * 2 ^ 149 - (x.units : ℚ) * y.units| ≤
        (x.units : ℚ) * y.units / 2 ^ 24 := by
  have magnitude_eq := level.magnitude_mul levelToo
  have product_eq := mul_eq level.finite levelToo.finite
  rw [level.sign, levelToo.sign, bne_self_eq_false] at product_eq
  have small : (x * y).magnitude < infinityMagnitude := by simpa [isFinite] using finite
  rcases Nat.eq_zero_or_pos (x.units * y.units) with nothing | some
  · rw [nothing, nearestMagnitude_zero] at magnitude_eq
    have noUnits := (units_eq_zero_iff finite).mpr magnitude_eq
    have exact_eq : (x.units : ℚ) * y.units = 0 := by exact_mod_cast nothing
    left
    rw [noUnits, exact_eq]
    norm_num
  have whole := Nat.ne_of_gt some
  have units_eq : (x * y).units = nearestSignificand (x.units * y.units) (2 ^ 149) 0 *
      2 ^ nearestExponent (x.units * y.units) (2 ^ 149) 0 := by
    rw [product_eq]
    apply units_nearestMagnitude (Nat.two_pow_pos _) (Or.inl rfl) false whole
    rw [nearestMagnitude_eq whole] at magnitude_eq
    omega
  have near := nearestSignificand_near (Nat.two_pow_pos 149) (x.units * y.units) 0
  rw [← units_eq] at near
  have exact_eq : ((x.units * y.units : Nat) : ℚ) / ((2 ^ 149 : Nat) : ℚ) * 2 ^ 0 =
      (x.units : ℚ) * y.units / 2 ^ 149 := by
    push_cast
    ring
  rw [exact_eq] at near
  have scaled : |((x * y).units : ℚ) * 2 ^ 149 - (x.units : ℚ) * y.units| =
      |((x * y).units : ℚ) - (x.units : ℚ) * y.units / 2 ^ 149| * 2 ^ 149 := by
    rw [← abs_of_pos (by positivity : (0 : ℚ) < 2 ^ 149), ← abs_mul,
      abs_of_pos (by positivity : (0 : ℚ) < 2 ^ 149), sub_mul, div_mul_cancel₀ _ (by positivity)]
  rw [scaled]
  rcases Nat.eq_zero_or_pos (nearestExponent (x.units * y.units) (2 ^ 149) 0) with none | shifted
  · left
    rw [none] at near
    linarith
  · right
    have power := two_pow_nearestExponent_le (Nat.two_pow_pos 149) whole (Or.inl rfl) shifted
    rw [exact_eq, pow_add, le_div_iff₀ (by positivity)] at power
    linarith

variable (large : one ≤ y)

include large

/-- What rounding a product adds to it, or takes from it, is less than what a neighbor of the
first factor would. -/
theorem IsLevel.mul_gap
    (finite : (x * y).isFinite = true)
    {gap : Nat}
    (positive : 0 < gap)
    (wide : x.units ≤ 2 ^ 24 * gap) :
    (x * y).units * 2 ^ 149 ≤ (x.units + gap) * y.units ∧
      x.units * y.units ≤ (x * y).units * 2 ^ 149 + gap * y.units := by
  have largeUnits : 2 ^ 149 ≤ y.units := by
    rw [← units_one]
    exact units_le_units (by decide) levelToo.finite ((isLevel_one.le_iff levelToo).mp large)
  have castLarge : (2 : ℚ) ^ 149 ≤ y.units := by exact_mod_cast largeUnits
  have castGap : (1 : ℚ) ≤ gap := by exact_mod_cast positive
  have castWide : (x.units : ℚ) ≤ 2 ^ 24 * gap := by exact_mod_cast wide
  have units_nonneg : (0 : ℚ) ≤ y.units := Nat.cast_nonneg _
  have error : |((x * y).units : ℚ) * 2 ^ 149 - (x.units : ℚ) * y.units| ≤
      (gap : ℚ) * y.units := by
    rcases level.mul_error levelToo finite with half | part
    · calc _ ≤ (2 : ℚ) ^ 149 / 2 := half
        _ ≤ y.units := by linarith
        _ ≤ gap * y.units := le_mul_of_one_le_left units_nonneg castGap
    · calc _ ≤ (x.units : ℚ) * y.units / 2 ^ 24 := part
        _ = x.units / 2 ^ 24 * y.units := by ring
        _ ≤ gap * y.units := by
          apply mul_le_mul_of_nonneg_right _ units_nonneg
          rw [div_le_iff₀ (by positivity)]
          linarith
  obtain ⟨lower, upper⟩ := abs_le.mp error
  constructor
  · have above : ((x * y).units : ℚ) * 2 ^ 149 ≤ (x.units + gap) * y.units := by linarith
    exact_mod_cast above
  · have below : (x.units : ℚ) * y.units ≤ (x * y).units * 2 ^ 149 + gap * y.units := by
      linarith
    exact_mod_cast below

omit level in
theorem IsLevel.zero_lt_of_one_le : zero < y := by
  rw [zero_lt_iff]
  refine ⟨levelToo.amount.isNumber, levelToo.sign, fun nothing => ?_⟩
  have magnitudes := (isLevel_one.le_iff levelToo).mp large
  rw [nothing] at magnitudes
  exact absurd magnitudes (by decide)

/-- A number that is multiplied and divided by the same one stays between its neighbors, as
long as the product is finite. -/
theorem IsLevel.mul_div_near (finite : (x * y).isFinite = true) :
    (∀ below, below < x -> below ≤ x * y / y) ∧ ∀ above, x < above -> x * y / y ≤ above := by
  have positive := levelToo.zero_lt_of_one_le large
  have product : (x * y).IsLevel := ⟨(level.mul levelToo).sign, finite⟩
  have amount : (x * y / y).IsAmount := product.amount.div levelToo positive
  have magnitude_eq := levelToo.magnitude_div positive product
  have unitsPositive := levelToo.units_pos positive
  constructor
  · intro below ordered
    have isNumber := (lt_iff_key.mp ordered).1
    cases sign : below.negative with
    | true =>
        refine le_trans (?_ : below ≤ zero) amount.zero_le
        rw [← not_lt_iff (by decide) isNumber]
        exact not_zero_lt_of_negative sign
    | false =>
        have isAmount : below.IsAmount := ⟨isNumber, sign⟩
        have isLevel : below.IsLevel :=
          ⟨sign, isFinite_of_le isAmount.zero_le (le_of_lt ordered) level.finite⟩
        have magnitudes : below.magnitude < x.magnitude := by
          rw [← Nat.not_le, ← level.le_iff isLevel, ← not_lt_iff isNumber level.amount.isNumber,
            not_not]
          exact ordered
        obtain ⟨gap, gap_eq, some, wide⟩ := isLevel.units_gap level magnitudes
        obtain ⟨-, notBelow⟩ := level.mul_gap levelToo large finite some wide
        rw [isAmount.le_iff amount, magnitude_eq, ← roundUnits_units isLevel.finite,
          ← nearestMagnitude_mul unitsPositive]
        apply nearestMagnitude_mono unitsPositive
        rw [gap_eq, Nat.add_mul] at notBelow
        omega
  · intro above ordered
    have isAmount : above.IsAmount := isAmount_of_lt level.zero_le ordered
    rw [amount.le_iff isAmount]
    cases aboveFinite : above.isFinite with
    | false =>
        rw [isAmount.magnitude_eq_of_not_finite aboveFinite]
        exact amount.magnitude_le
    | true =>
        have isLevel : above.IsLevel := ⟨isAmount.sign, aboveFinite⟩
        have magnitudes : x.magnitude < above.magnitude := by
          rw [← Nat.not_le, ← isLevel.le_iff level,
            ← not_lt_iff level.amount.isNumber isAmount.isNumber, not_not]
          exact ordered
        obtain ⟨gap, gap_eq, some, wide⟩ := level.units_gap isLevel magnitudes
        obtain ⟨notAbove, -⟩ := level.mul_gap levelToo large finite some
          (Nat.le_trans (gap_eq ▸ Nat.le_add_right _ _) wide)
        rw [magnitude_eq, ← roundUnits_units isLevel.finite, ← nearestMagnitude_mul unitsPositive,
          gap_eq]
        exact nearestMagnitude_mono unitsPositive notAbove

/-- A number that is multiplied without rounding comes back. -/
theorem IsLevel.mul_div_eq
    (finite : (x * y).isFinite = true)
    (exactly : (x * y).toRat = x.toRat * y.toRat) :
    x * y / y = x := by
  have positive := levelToo.zero_lt_of_one_le large
  have product : (x * y).IsLevel := ⟨(level.mul levelToo).sign, finite⟩
  have units_eq : (x * y).units * 2 ^ 149 = x.units * y.units := by
    rw [product.toRat_eq, level.toRat_eq, levelToo.toRat_eq] at exactly
    have cast : ((x * y).units : ℚ) * 2 ^ 149 = x.units * y.units := by
      field_simp at exactly
      linarith
    exact_mod_cast cast
  apply eq_of_negative_of_magnitude
  · rw [(product.amount.div levelToo positive).sign, level.sign]
  · rw [levelToo.magnitude_div positive product, units_eq,
      nearestMagnitude_mul (levelToo.units_pos positive), roundUnits_units level.finite]

end Again

/-! ## Counts -/

/-- A count is rounded from its units. -/
theorem ofNat_eq (count : Nat) : ofNat count = ofMagnitude false (roundUnits (count <<< 149)) := by
  rw [ofNat, nearestMagnitude_one]

theorem magnitude_ofNat (count : Nat) : (ofNat count).magnitude = roundUnits (count <<< 149) := by
  rw [ofNat_eq, magnitude_ofMagnitude (Nat.lt_of_le_of_lt (roundUnits_le _) (by decide))]

theorem magnitude_ofNat_mono
    {first second : Nat}
    (ordered : first ≤ second) :
    (ofNat first).magnitude ≤ (ofNat second).magnitude := by
  rw [magnitude_ofNat, magnitude_ofNat]
  apply roundUnits_mono
  rw [Nat.shiftLeft_eq, Nat.shiftLeft_eq]
  exact Nat.mul_le_mul_right _ ordered

/-- A 32-bit count is far below the infinity. -/
theorem isLevel_ofNat
    {count : Nat}
    (bound : count < 2 ^ 32) :
    (ofNat count).IsLevel := by
  have small : (ofNat (2 ^ 32)).magnitude < infinityMagnitude := by decide +kernel
  rw [ofNat_eq]
  apply isLevel_ofMagnitude
  rw [← magnitude_ofNat]
  exact Nat.lt_of_le_of_lt (magnitude_ofNat_mono (Nat.le_of_lt bound)) small

theorem ofNat_le_ofNat
    {first second : Nat}
    (ordered : first ≤ second)
    (bound : second < 2 ^ 32) :
    ofNat first ≤ ofNat second :=
  ((isLevel_ofNat (Nat.lt_of_le_of_lt ordered bound)).le_iff (isLevel_ofNat bound)).mpr
    (magnitude_ofNat_mono ordered)

theorem ofNat_zero : ofNat 0 = zero := by decide +kernel

theorem ofNat_one : ofNat 1 = one := by decide +kernel

theorem one_le_ofNat
    {count : Nat}
    (positive : 0 < count)
    (bound : count < 2 ^ 32) :
    one ≤ ofNat count := by
  rw [← ofNat_one]
  exact ofNat_le_ofNat positive bound

end Single
end DeepShadow
