import DeepShadow.Proofs.Single.Rounding
import DeepShadow.Proofs.Visibility.Bisection

/-!
# Signs and sizes of results

A word is its sign and its magnitude.  A sum of finite words is the rounded sum of
their units; of a product or a quotient only the sign is needed, and whether it can
be above zero.
-/

namespace DeepShadow
namespace Single

variable {x y : Single}

/-! ## Words by sign and magnitude -/

theorem magnitude_lt (x : Single) : x.magnitude < 0x80000000 := Nat.mod_lt _ (by decide)

theorem toNat_bits (x : Single) :
    x.bits.toNat = if x.negative then 0x80000000 + x.magnitude else x.magnitude := by
  have bound := x.bits.toNat_lt
  have sign : x.negative = true ↔ 0x80000000 ≤ x.bits.toNat := by
    simp [negative, UInt32.le_iff_toNat_le]
  simp only [magnitude]
  by_cases negative : 0x80000000 ≤ x.bits.toNat
  · rw [if_pos (sign.mpr negative)]
    omega
  · rw [if_neg (mt sign.mp negative)]
    omega

/-- Sign and magnitude make the word. -/
theorem eq_of_negative_of_magnitude
    (signs : x.negative = y.negative)
    (magnitudes : x.magnitude = y.magnitude) :
    x = y := by
  have bits : x.bits = y.bits := by
    rw [← UInt32.toNat_inj, toNat_bits, toNat_bits, signs, magnitudes]
  cases x
  cases y
  cases bits
  rfl

section OfMagnitude

variable {sign : Bool} {magnitude : Nat} (bound : magnitude < 0x80000000)

include bound

theorem toNat_bits_ofMagnitude :
    (ofMagnitude sign magnitude).bits.toNat =
      if sign then 0x80000000 + magnitude else magnitude := by
  cases sign
  · exact UInt32.toNat_ofNat_of_lt' (Nat.lt_trans bound (by decide))
  · exact UInt32.toNat_ofNat_of_lt' (show 0x80000000 + magnitude < UInt32.size by
      simp only [UInt32.size]
      omega)

@[simp] theorem magnitude_ofMagnitude : (ofMagnitude sign magnitude).magnitude = magnitude := by
  simp only [Single.magnitude, toNat_bits_ofMagnitude bound]
  split_ifs <;> omega

@[simp] theorem negative_ofMagnitude : (ofMagnitude sign magnitude).negative = sign := by
  simp only [negative, UInt32.le_iff_toNat_le, toNat_bits_ofMagnitude bound]
  cases sign
  · simpa using bound
  · simp

end OfMagnitude

theorem lt_iff_key :
    x < y ↔ x.isNaN = false ∧ y.isNaN = false ∧ x.key < y.key := by
  rw [← lt_iff]
  simp [lt, and_assoc]

theorem le_of_lt (below : x < y) : x ≤ y := by
  rw [lt_iff_key] at below
  exact le_iff_key.mpr ⟨below.1, below.2.1, Int.le_of_lt below.2.2⟩

theorem isNaN_of_isFinite (finite : x.isFinite = true) : x.isNaN = false := by
  simp only [isFinite, isNaN, decide_eq_true_eq, decide_eq_false_iff_not] at finite ⊢
  omega

theorem isFinite_eq_false_of_isNaN (notNumber : x.isNaN = true) : x.isFinite = false := by
  rw [← Bool.not_eq_true]
  intro finite
  rw [isNaN_of_isFinite finite] at notNumber
  cases notNumber

theorem isInfinite_of_isFinite (finite : x.isFinite = true) : x.isInfinite = false := by
  simp only [isFinite, isInfinite, decide_eq_true_eq, beq_eq_false_iff_ne] at finite ⊢
  omega

theorem isNaN_quiet (notNumber : x.isNaN = true) : x.quiet.isNaN = true := by
  simp only [isNaN, decide_eq_true_eq] at notNumber ⊢
  have kept : x.magnitude ≤ x.quiet.magnitude := by
    simp only [magnitude, quiet, UInt32.toNat_or]
    rw [show (0x80000000 : Nat) = 2 ^ 31 from rfl, Nat.or_mod_two_pow]
    exact Nat.left_le_or
  exact Nat.lt_of_lt_of_le notNumber kept

/-- What is neither finite nor a NaN is an infinity. -/
theorem isInfinite_of_not_finite
    (notFinite : x.isFinite = false)
    (isNumber : ¬x.isNaN = true) :
    x.isInfinite = true := by
  simp only [isNaN, isFinite, isInfinite, decide_eq_true_eq, decide_eq_false_iff_not,
    beq_iff_eq] at notFinite isNumber ⊢
  omega

/-! ## Signs turned over -/

theorem magnitude_neg (x : Single) : (-x).magnitude = x.magnitude :=
  magnitude_ofMagnitude x.magnitude_lt

theorem negative_neg (x : Single) : (-x).negative = !x.negative :=
  negative_ofMagnitude x.magnitude_lt

theorem isFinite_neg (x : Single) : (-x).isFinite = x.isFinite := by
  rw [isFinite, magnitude_neg, isFinite]

/-- A number is taken away by adding it with its sign turned over. -/
theorem sub_eq_add
    (isNumber : y.isNaN = false)
    (x : Single) :
    x - y = x + -y := by
  have sub_eq : x - y = x.sub y := rfl
  rw [sub_eq, sub, if_neg (by simp [isNumber])]
  rfl

/-! ## Numbers below and above zero -/

theorem zero_lt_iff :
    zero < x ↔ x.isNaN = false ∧ x.negative = false ∧ x.magnitude ≠ 0 := by
  have zeroNumber : zero.isNaN = false := by decide
  have zeroKey : zero.key = 0 := by decide
  rw [lt_iff_key, zeroKey]
  simp only [zeroNumber, true_and, key]
  refine and_congr_right fun _ => ?_
  split_ifs with sign
  · simp [sign]
  · simp [sign, Nat.pos_iff_ne_zero]

theorem zero_le_iff :
    zero ≤ x ↔ x.isNaN = false ∧ (x.negative = true -> x.magnitude = 0) := by
  have zeroNumber : zero.isNaN = false := by decide
  have zeroKey : zero.key = 0 := by decide
  rw [le_iff_key, zeroKey]
  simp only [zeroNumber, true_and, key]
  refine and_congr_right fun _ => ?_
  split_ifs with sign
  · simp only [sign, true_implies]
    omega
  · simp [sign]

theorem not_zero_lt_of_isNaN (notNumber : x.isNaN = true) : ¬zero < x := by
  simp [zero_lt_iff, notNumber]

theorem not_zero_lt_of_negative (sign : x.negative = true) : ¬zero < x := by
  simp [zero_lt_iff, sign]

theorem not_zero_lt_of_magnitude_eq_zero (nothing : x.magnitude = 0) : ¬zero < x := by
  rw [zero_lt_iff]
  exact fun above => above.2.2 nothing

theorem magnitude_le_of_le
    (notBelow : zero ≤ x)
    (ordered : x ≤ y) :
    x.magnitude ≤ y.magnitude := by
  have keys := (le_iff_key.mp ordered).2.2
  have key_eq {word : Single} (notBelow : zero ≤ word) : word.key = word.magnitude := by
    have sign := (zero_le_iff.mp notBelow).2
    simp only [key]
    split_ifs with negative
    · simp [sign negative]
    · rfl
  rw [key_eq notBelow, key_eq (le_trans notBelow ordered)] at keys
  exact Int.ofNat_le.mp keys

/-- Numbers are in the total order of words as they are in size. -/
theorem le_of_totalKey_le
    (isNumber : x.isNaN = false)
    (isNumberToo : y.isNaN = false)
    (ordered : x.totalKey ≤ y.totalKey) :
    x ≤ y := by
  refine le_iff_key.mpr ⟨isNumber, isNumberToo, ?_⟩
  simp only [totalKey, key] at ordered ⊢
  split_ifs at ordered ⊢ <;> omega

/-- What lies between zero and a finite number is finite. -/
theorem isFinite_of_le
    (notBelow : zero ≤ x)
    (ordered : x ≤ y)
    (finite : y.isFinite = true) :
    x.isFinite = true := by
  have magnitudes := magnitude_le_of_le notBelow ordered
  simp only [isFinite, decide_eq_true_eq] at finite ⊢
  exact Nat.lt_of_le_of_lt magnitudes finite

/-! ## The larger of two numbers -/

theorem not_lt_iff
    (isNumber : x.isNaN = false)
    (isNumberToo : y.isNaN = false) :
    ¬x < y ↔ y ≤ x := by
  simp [lt_iff_key, le_iff_key, isNumber, isNumberToo]

theorem max_eq_or (x y : Single) : x.max y = x ∨ x.max y = y := by
  unfold max
  split_ifs
  · exact Or.inr rfl
  · exact Or.inr rfl
  · exact Or.inl rfl

theorem le_max_left (isNumber : x.isNaN = false) (y : Single) : x ≤ x.max y := by
  unfold max
  rw [if_neg (Bool.not_eq_true _ ▸ isNumber)]
  split_ifs with below
  · exact le_of_lt below
  · exact (not_lt_iff isNumber isNumber).mp fun above => absurd (lt_iff_key.mp above).2.2
      (Int.lt_irrefl _)

/-- The larger of two numbers is at most a bound where both of them are. -/
theorem max_le_iff
    {z : Single}
    (isNumber : x.isNaN = false)
    (isNumberToo : y.isNaN = false) :
    x.max y ≤ z ↔ x ≤ z ∧ y ≤ z := by
  constructor
  · intro bounded
    have yNumber : y ≤ y := le_iff_key.mpr ⟨isNumberToo, isNumberToo, Int.le_refl _⟩
    exact ⟨le_trans (le_max_left isNumber y) bounded,
      le_trans (le_max yNumber x) bounded⟩
  · rintro ⟨xBounded, yBounded⟩
    rcases max_eq_or x y with max_eq | max_eq
    · rwa [max_eq]
    · rwa [max_eq]

/-- Where the second of two numbers is not below zero, the larger one is finite where
neither of them is positive infinity. -/
theorem isFinite_max_iff
    (isNumber : x.isNaN = false)
    (notBelow : zero ≤ y) :
    (x.max y).isFinite = true ↔ (x.max zero).isFinite = true ∧ y.isFinite = true := by
  have zeroNumber : zero ≤ zero := by decide
  have first := le_max_left isNumber y
  have second := le_max (le_self_of_le notBelow) x
  constructor
  · intro finite
    refine ⟨?_, isFinite_of_le notBelow second finite⟩
    have notBelowMax : zero ≤ x.max zero := le_max zeroNumber x
    refine isFinite_of_le notBelowMax ((max_le_iff isNumber (by decide)).mpr ⟨first, ?_⟩) finite
    exact le_trans notBelow second
  · rintro ⟨xFinite, yFinite⟩
    rcases max_eq_or x y with max_eq | max_eq
    · rw [max_eq] at second ⊢
      exact isFinite_of_le (le_trans notBelow second) (le_max_left isNumber zero) xFinite
    · rwa [max_eq]

/-- The only number whose positive part is not finite is positive infinity. -/
theorem isFinite_max_zero_iff (isNumber : x.isNaN = false) :
    (x.max zero).isFinite = true ↔ x ≠ ofMagnitude false infinityMagnitude := by
  constructor
  · rintro finite rfl
    exact absurd finite (by decide)
  · intro notInfinite
    rcases max_eq_or x zero with max_eq | max_eq
    · have notBelow : zero ≤ x := max_eq ▸ le_max (by decide) x
      have sign := (zero_le_iff.mp notBelow).2
      rw [max_eq, isFinite, decide_eq_true_eq]
      have bound : x.magnitude ≤ infinityMagnitude := Nat.not_lt.mp (of_decide_eq_false isNumber)
      refine Nat.lt_of_le_of_ne bound fun magnitude_eq => notInfinite ?_
      apply eq_of_negative_of_magnitude
      · rw [negative_ofMagnitude (by decide), ← Bool.not_eq_true]
        exact fun negative => absurd (magnitude_eq.symm.trans (sign negative)) (by decide)
      · rw [magnitude_ofMagnitude (by decide), magnitude_eq]
    · rw [max_eq]
      decide

theorem units_congr (magnitudes : x.magnitude = y.magnitude) : x.units = y.units := by
  simp only [units, significand, exponent, magnitudes]

/-- Finite words with a larger magnitude stand for more units. -/
theorem units_le_units
    (finite : x.isFinite = true)
    (finiteToo : y.isFinite = true)
    (magnitudes : x.magnitude ≤ y.magnitude) :
    x.units ≤ y.units := by
  by_contra larger
  have rounded := roundUnits_mono (Nat.le_of_lt (Nat.not_le.mp larger))
  rw [roundUnits_units finite, roundUnits_units finiteToo] at rounded
  exact larger (Nat.le_of_eq (units_congr (Nat.le_antisymm magnitudes rounded)))

/-! ## Sums -/

/-- A finite word in units, with its sign. -/
def signedUnits (x : Single) : Int := if x.negative then -(x.units : Int) else x.units

theorem signedUnits_eq (x : Single) :
    x.signedUnits = x.signedSignificand * ((1 <<< x.exponent : Nat) : Int) := by
  simp only [signedUnits, signedSignificand, units, Nat.shiftLeft_eq, Nat.one_mul]
  split_ifs
  · rw [Int.neg_mul, Int.natCast_mul]
  · rw [Int.natCast_mul]

theorem signedUnits_of_zero_le (notBelow : zero ≤ x) : x.signedUnits = x.units := by
  cases sign : x.negative with
  | false => simp [signedUnits, sign]
  | true =>
      have noUnits : x.units = 0 :=
        (units_congr (y := zero) ((zero_le_iff.mp notBelow).2 sign)).trans (by decide)
      simp [signedUnits, noUnits]

/-- A finite word that is not above zero takes away its units. -/
theorem signedUnits_of_not_lt
    (finite : x.isFinite = true)
    (notAbove : ¬zero < x) :
    x.signedUnits = -(x.units : Int) := by
  cases sign : x.negative with
  | true => simp [signedUnits, sign]
  | false =>
      have nothing : x.magnitude = 0 := by
        simpa [zero_lt_iff, isNaN_of_isFinite finite, sign] using notAbove
      have zeroUnits : x.units = zero.units := units_congr nothing
      simp only [signedUnits, sign, zeroUnits]
      decide

theorem add_of_isFinite
    (finite : x.isFinite = true)
    (finiteToo : y.isFinite = true) :
    x + y =
      if x.signedUnits + y.signedUnits = 0 then ofMagnitude (x.negative && y.negative) 0
      else ofMagnitude (x.signedUnits + y.signedUnits < 0)
        (roundUnits (x.signedUnits + y.signedUnits).natAbs) := by
  have sum_eq : x + y = x.add y := rfl
  have unscaled (word : Single) (covers : min x.exponent y.exponent ≤ word.exponent) :
      word.signedSignificand *
          ((1 <<< (word.exponent - min x.exponent y.exponent) : Nat) : Int) *
        ((1 <<< min x.exponent y.exponent : Nat) : Int) = word.signedUnits := by
    rw [signedUnits_eq, Int.mul_assoc]
    norm_cast
    rw [Nat.one_shiftLeft, Nat.one_shiftLeft, Nat.one_shiftLeft, ← Nat.pow_add,
      Nat.sub_add_cancel covers]
  have left := unscaled x (Nat.min_le_left _ _)
  have right := unscaled y (Nat.min_le_right _ _)
  rw [sum_eq, ← left, ← right, ← Int.add_mul, add]
  simp only [isNaN_of_isFinite finite, isNaN_of_isFinite finiteToo, isInfinite_of_isFinite finite,
    isInfinite_of_isFinite finiteToo, Bool.false_eq_true, if_false]
  generalize x.signedSignificand *
    ((1 <<< (x.exponent - min x.exponent y.exponent) : Nat) : Int) +
      y.signedSignificand *
        ((1 <<< (y.exponent - min x.exponent y.exponent) : Nat) : Int) = sum
  generalize min x.exponent y.exponent = scale
  have positive : (0 : Int) < ((1 <<< scale : Nat) : Int) := by
    rw [Nat.one_shiftLeft]
    exact_mod_cast Nat.two_pow_pos scale
  have zero_iff : sum * ((1 <<< scale : Nat) : Int) = 0 ↔ sum = 0 := by
    rw [Int.mul_eq_zero]
    exact or_iff_left (Int.ne_of_gt positive)
  have negative_iff : sum * ((1 <<< scale : Nat) : Int) < 0 ↔ sum < 0 := by
    constructor
    · intro below
      by_contra notBelow
      exact absurd (Int.mul_nonneg (Int.not_lt.mp notBelow) (Int.le_of_lt positive)) (by omega)
    · intro below
      exact Int.mul_neg_of_neg_of_pos below positive
  have units_eq : (sum * ((1 <<< scale : Nat) : Int)).natAbs = sum.natAbs <<< scale := by
    rw [Int.natAbs_mul, Int.natAbs_natCast, Nat.one_shiftLeft, Nat.shiftLeft_eq]
  simp only [zero_iff, negative_iff, units_eq, nearestMagnitude_one]

/-- A sum of numbers that are not below zero is above zero where one of them is. -/
theorem zero_lt_add
    (notBelow : zero ≤ x)
    (above : zero < y) :
    zero < x + y := by
  obtain ⟨number, sign⟩ := zero_le_iff.mp notBelow
  obtain ⟨numberToo, signToo, some⟩ := zero_lt_iff.mp above
  have sum_eq : x + y = x.add y := rfl
  by_cases infinite : x.isInfinite = true
  · have magnitude_eq : x.magnitude = infinityMagnitude := by simpa [isInfinite] using infinite
    have positive : x.negative = false := by
      rw [← Bool.not_eq_true]
      intro negative
      exact absurd (magnitude_eq.symm.trans (sign negative)) (by decide)
    rw [sum_eq, add]
    simp only [number, numberToo, infinite, positive, signToo, Bool.false_eq_true, if_false,
      if_true, bne_self_eq_false, Bool.and_false]
    exact zero_lt_iff.mpr ⟨number, positive, by rw [magnitude_eq]; decide⟩
  by_cases infiniteToo : y.isInfinite = true
  · rw [sum_eq, add]
    simp only [number, numberToo, infinite, infiniteToo, Bool.false_eq_true, if_false, if_true]
    exact above
  have finite_of {word : Single} (number : word.isNaN = false) (bounded : ¬word.isInfinite = true) :
      word.isFinite = true := by
    simp only [isNaN, isInfinite, isFinite, decide_eq_false_iff_not, decide_eq_true_eq,
      beq_iff_eq] at *
    omega
  have finite := finite_of number infinite
  have finiteToo := finite_of numberToo infiniteToo
  have rounded : y.magnitude ≤ roundUnits (x.units + y.units) := by
    rw [← roundUnits_units finiteToo]
    exact roundUnits_mono (Nat.le_add_left _ _)
  have unitsAbove : y.units ≠ 0 := by
    intro none
    have magnitude_eq := roundUnits_units finiteToo
    rw [none, roundUnits_zero] at magnitude_eq
    exact some magnitude_eq.symm
  have yLevel : zero ≤ y := zero_le_iff.mpr ⟨numberToo, by simp [signToo]⟩
  have bound : roundUnits (x.units + y.units) ≤ infinityMagnitude := roundUnits_le _
  have small : roundUnits (x.units + y.units) < 0x80000000 := Nat.lt_of_le_of_lt bound (by decide)
  have count : ((x.units : Int) + (y.units : Int)).natAbs = x.units + y.units := by omega
  rw [add_of_isFinite finite finiteToo, signedUnits_of_zero_le notBelow,
    signedUnits_of_zero_le yLevel, if_neg (by omega), decide_eq_false (by omega), count, zero_lt_iff,
    isNaN, magnitude_ofMagnitude small, negative_ofMagnitude small]
  exact ⟨decide_eq_false (Nat.not_lt.mpr bound), rfl, by omega⟩

/-- The distance of two finite numbers that are not below zero is finite. -/
theorem isFinite_sub
    (notBelow : zero ≤ x)
    (ordered : x ≤ y)
    (finite : x.isFinite = true)
    (finiteToo : y.isFinite = true) :
    (y - x).isFinite = true := by
  have negFinite : (-x).isFinite = true := (isFinite_neg x).trans finite
  have negAbove : ¬zero < -x := by
    cases sign : x.negative with
    | false => exact not_zero_lt_of_negative (by rw [negative_neg, sign, Bool.not_false])
    | true =>
        apply not_zero_lt_of_magnitude_eq_zero
        rw [magnitude_neg]
        exact (zero_le_iff.mp notBelow).2 sign
  have counts := units_le_units finite finiteToo (magnitude_le_of_le notBelow ordered)
  have below : roundUnits (y.units - x.units) < infinityMagnitude := by
    refine Nat.lt_of_le_of_lt (roundUnits_mono (Nat.sub_le _ _)) ?_
    rw [roundUnits_units finiteToo]
    simpa [isFinite] using finiteToo
  rw [sub_eq_add (isNaN_of_isFinite finite), add_of_isFinite finiteToo negFinite,
    signedUnits_of_zero_le (le_trans notBelow ordered), signedUnits_of_not_lt negFinite negAbove,
    units_congr (magnitude_neg x)]
  have count : ((y.units : Int) + -(x.units : Int)).natAbs = y.units - x.units := by omega
  rw [count]
  split_ifs
  · simp [isFinite, infinityMagnitude]
  · simp only [isFinite, magnitude_ofMagnitude (Nat.lt_trans below (by decide)), decide_eq_true_eq]
    exact below

/-- The distance from an infinity, or from what is not a number, is not finite. -/
theorem isFinite_sub_eq_false (notFinite : x.isFinite = false) : (x - y).isFinite = false := by
  have difference_eq : x - y = x.sub y := rfl
  rw [difference_eq, sub]
  by_cases notNumber : x.isNaN = true
  · rw [add, if_pos notNumber]
    split_ifs
    · exact isFinite_eq_false_of_isNaN (isNaN_quiet notNumber)
    · exact isFinite_eq_false_of_isNaN (isNaN_quiet notNumber)
  by_cases notNumberToo : y.isNaN = true
  · rw [if_pos notNumberToo, if_neg notNumber]
    exact isFinite_eq_false_of_isNaN (isNaN_quiet notNumberToo)
  rw [if_neg notNumberToo, add, if_neg notNumber]
  have infinite := isInfinite_of_not_finite notFinite notNumber
  split_ifs
  · exact isFinite_eq_false_of_isNaN (isNaN_quiet ‹_›)
  · decide
  · exact notFinite

/-! ## Products and quotients -/

@[simp] theorem nearestMagnitude_zero (den scale : Nat) : nearestMagnitude 0 den scale = 0 := by
  simp [nearestMagnitude]

theorem nearestMagnitude_le (num den scale : Nat) :
    nearestMagnitude num den scale ≤ infinityMagnitude := by
  simp only [nearestMagnitude]
  split_ifs
  · exact Nat.zero_le _
  · exact Nat.min_le_right _ _

theorem nearestMagnitude_lt (num den scale : Nat) :
    nearestMagnitude num den scale < 0x80000000 :=
  Nat.lt_of_le_of_lt (nearestMagnitude_le _ _ _) (by decide)

/-- A share of an opacity that is not below zero is not above zero. -/
theorem not_zero_lt_mul
    (opacity : ¬x < zero)
    (share : y.isNaN = true ∨ y.negative = true) :
    ¬zero < x * y := by
  have product_eq : x * y = x.mul y := rfl
  rw [product_eq, mul]
  by_cases notNumber : x.isNaN = true
  · rw [if_pos notNumber]
    exact not_zero_lt_of_isNaN (isNaN_quiet notNumber)
  rw [if_neg notNumber]
  by_cases notNumberToo : y.isNaN = true
  · rw [if_pos notNumberToo]
    exact not_zero_lt_of_isNaN (isNaN_quiet notNumberToo)
  rw [if_neg notNumberToo]
  have shareSign : y.negative = true := share.resolve_left notNumberToo
  cases sign : x.negative with
  | false =>
      simp only [shareSign]
      split_ifs
      · exact not_zero_lt_of_isNaN (by decide)
      · exact not_zero_lt_of_negative (negative_ofMagnitude (by decide))
      · exact not_zero_lt_of_negative (negative_ofMagnitude (nearestMagnitude_lt _ _ _))
  | true =>
      -- Of the words with a sign only the negative zero is not below zero.
      have nothing : x.magnitude = 0 := by
        have zeroNumber : zero.isNaN = false := by decide
        have zeroKey : zero.key = 0 := by decide
        rw [lt_iff_key, zeroKey] at opacity
        simp only [zeroNumber, notNumber, key, sign, if_true, true_and] at opacity
        omega
      have isZero : x.isZero = true := by simp [isZero, nothing]
      have noSignificand : x.significand = 0 := by simp [significand, nothing]
      simp only [isZero, noSignificand, Bool.true_or, if_true, Nat.zero_mul, nearestMagnitude_zero]
      split_ifs
      · exact not_zero_lt_of_isNaN (by decide)
      · exact not_zero_lt_of_magnitude_eq_zero (magnitude_ofMagnitude (by decide))

/-- A negative word divided by one without a sign is negative or not a number. -/
theorem negative_div
    (sign : x.negative = true)
    (divisor : y.isNaN = true ∨ y.negative = false) :
    (x / y).isNaN = true ∨ (x / y).negative = true := by
  have quotient_eq : x / y = x.div y := rfl
  rw [quotient_eq, div]
  by_cases notNumber : x.isNaN = true
  · rw [if_pos notNumber]
    exact Or.inl (isNaN_quiet notNumber)
  rw [if_neg notNumber]
  by_cases notNumberToo : y.isNaN = true
  · rw [if_pos notNumberToo]
    exact Or.inl (isNaN_quiet notNumberToo)
  rw [if_neg notNumberToo]
  have divisorSign : y.negative = false := divisor.resolve_left notNumberToo
  simp only [sign, divisorSign]
  split_ifs
  · exact Or.inl (by decide)
  · exact Or.inr (negative_ofMagnitude (by decide))
  · exact Or.inr (negative_ofMagnitude (by decide))
  · exact Or.inl (by decide)
  · exact Or.inr (negative_ofMagnitude (by decide))
  · exact Or.inr (negative_ofMagnitude (nearestMagnitude_lt _ _ _))

/-- A zero of either sign times a finite number is one. -/
theorem magnitude_mul_eq_zero
    (nothing : x.magnitude = 0)
    (finite : y.isFinite = true) :
    (x * y).magnitude = 0 := by
  have product_eq : x * y = x.mul y := rfl
  have xFinite : x.isFinite = true := by simp [isFinite, nothing, infinityMagnitude]
  have noSignificand : x.significand = 0 := by simp [significand, nothing]
  rw [product_eq, mul]
  simp only [isNaN_of_isFinite xFinite, isNaN_of_isFinite finite, isInfinite_of_isFinite xFinite,
    isInfinite_of_isFinite finite, noSignificand, Bool.false_eq_true, Bool.or_self, if_false,
    Nat.zero_mul, nearestMagnitude_zero]
  exact magnitude_ofMagnitude (by decide)

/-- Nothing times a finite number is nothing. -/
theorem magnitude_zero_mul (finite : x.isFinite = true) : (zero * x).magnitude = 0 :=
  magnitude_mul_eq_zero (by decide) finite

/-- A zero of either sign times an infinity is not a number, and neither is a zero times a
NaN. -/
theorem isNaN_mul_of_magnitude_eq_zero
    (nothing : x.magnitude = 0)
    (notFinite : y.isFinite = false) :
    (x * y).isNaN = true := by
  have product_eq : x * y = x.mul y := rfl
  have xFinite : x.isFinite = true := by simp [isFinite, nothing, infinityMagnitude]
  have isZero : x.isZero = true := by simp [isZero, nothing]
  rw [product_eq, mul]
  simp only [isNaN_of_isFinite xFinite, Bool.false_eq_true, if_false]
  by_cases notNumber : y.isNaN = true
  · rw [if_pos notNumber]
    exact isNaN_quiet notNumber
  · rw [if_neg notNumber]
    simp only [isInfinite_of_not_finite notFinite notNumber, isZero, Bool.or_true,
      Bool.true_or, if_true]
    decide

/-- Nothing times an infinity is not a number, and neither is nothing times a NaN. -/
theorem isNaN_zero_mul (notFinite : x.isFinite = false) : (zero * x).isNaN = true :=
  isNaN_mul_of_magnitude_eq_zero (by decide) notFinite

/-- Nothing times anything is not above zero. -/
theorem not_zero_lt_zero_mul (x : Single) : ¬zero < zero * x := by
  cases finite : x.isFinite with
  | true => exact not_zero_lt_of_magnitude_eq_zero (magnitude_zero_mul finite)
  | false => exact not_zero_lt_of_isNaN (isNaN_zero_mul finite)

/-! ## A number and itself -/

theorem zero_add_of_zero_lt (positive : zero < x) : zero + x = x := by
  obtain ⟨isNumber, sign, some⟩ := zero_lt_iff.mp positive
  cases finite : x.isFinite with
  | true =>
      have units_eq := signedUnits_of_zero_le (le_of_lt positive)
      have rounded := roundUnits_units finite
      have noUnits : zero.signedUnits = 0 := by decide
      have someUnits : x.units ≠ 0 := by
        intro nothing
        rw [nothing, roundUnits_zero] at rounded
        exact some rounded.symm
      have zeroFinite : zero.isFinite = true := by decide
      rw [add_of_isFinite zeroFinite finite, noUnits, units_eq, Int.zero_add, Int.natAbs_natCast,
        if_neg (Int.natCast_ne_zero.mpr someUnits), rounded,
        decide_eq_false (Int.not_lt.mpr (Int.natCast_nonneg _))]
      apply eq_of_negative_of_magnitude
      · rw [negative_ofMagnitude x.magnitude_lt, sign]
      · rw [magnitude_ofMagnitude x.magnitude_lt]
  | false =>
      have sum_eq : zero + x = zero.add x := rfl
      have zeroNumber : zero.isNaN = false := by decide
      have zeroFinite : zero.isInfinite = false := by decide
      have infinite := isInfinite_of_not_finite finite (Bool.not_eq_true _ ▸ isNumber)
      rw [sum_eq, add]
      simp [zeroNumber, zeroFinite, isNumber, infinite]

/-- A number divided by itself is one. -/
theorem nearestMagnitude_self
    {den : Nat}
    (positive : 0 < den) :
    nearestMagnitude (den * 2 ^ 149) den 0 = one.magnitude := by
  have some : den * 2 ^ 149 ≠ 0 := Nat.ne_of_gt (Nat.mul_pos positive (by decide))
  have quotient_eq : den * 2 ^ 149 / den = 2 ^ 149 := Nat.mul_div_cancel_left _ positive
  have split : den * 2 ^ 149 = 2 ^ 23 * (den * 2 ^ 126) := by
    rw [Nat.mul_left_comm, ← Nat.pow_add]
  rw [nearestMagnitude, if_neg some, quotient_eq, Nat.log2_two_pow]
  simp only [Nat.add_zero, Nat.reduceSub, Nat.zero_sub, Nat.shiftLeft_eq, Nat.pow_zero, Nat.mul_one]
  rw [split, roundQuotient_mul (Nat.mul_pos positive (by decide))]
  decide

/-- Minus a positive number divided by the number is minus one, or has no meaning where
the number is infinite. -/
theorem neg_div_self (positive : zero < x) : -x / x = -one ∨ (-x / x).isNaN = true := by
  obtain ⟨isNumber, sign, some⟩ := zero_lt_iff.mp positive
  have quotient_eq : -x / x = (-x).div x := rfl
  have isNumberToo : (-x).isNaN = false := by rw [isNaN, magnitude_neg, ← isNaN, isNumber]
  have negSign : (-x).negative = true := by rw [negative_neg, sign, Bool.not_false]
  have exponent_eq : (-x).exponent = x.exponent := by rw [exponent, magnitude_neg, exponent]
  have significand_eq : (-x).significand = x.significand := by
    rw [significand, magnitude_neg, exponent_eq, significand]
  have notZero : x.isZero = false := by simpa [isZero] using some
  rw [quotient_eq, div]
  simp only [isNumber, isNumberToo, Bool.false_eq_true, if_false, sign, negSign, notZero]
  cases infinite : x.isInfinite with
  | true =>
      have infiniteToo : (-x).isInfinite = true := by
        rw [isInfinite, magnitude_neg, ← isInfinite, infinite]
      have invalidNumber : invalid.isNaN = true := by decide
      rw [infiniteToo]
      exact Or.inr invalidNumber
  | false =>
      have notInfiniteToo : (-x).isInfinite = false := by
        rw [isInfinite, magnitude_neg, ← isInfinite, infinite]
      have significandPositive : 0 < x.significand := by
        have split := x.magnitude_eq
        have exponent_def : x.exponent = x.magnitude / 0x800000 - 1 := rfl
        omega
      have scaled : x.significand <<< (149 + x.exponent) =
          x.significand <<< x.exponent * 2 ^ 149 := by
        rw [Nat.shiftLeft_eq, Nat.shiftLeft_eq, Nat.pow_add, Nat.mul_assoc,
          Nat.mul_comm (2 ^ 149)]
      have positiveUnits : 0 < x.significand <<< x.exponent := by
        rw [Nat.shiftLeft_eq]
        exact Nat.mul_pos significandPositive (Nat.two_pow_pos _)
      rw [notInfiniteToo, exponent_eq, significand_eq, scaled, nearestMagnitude_self positiveUnits]
      exact Or.inl rfl

end Single
end DeepShadow
