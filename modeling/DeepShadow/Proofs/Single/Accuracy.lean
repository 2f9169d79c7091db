import DeepShadow.Proofs.Single.Lowering
import DeepShadow.Proofs.Single.Nearest

/-!
# How far results are from the exact ones

A finite word stands for a rational number.  Every operation gives a word whose number is
next to the exact result: at most `2 ^ (-24)` away where the result is below two, and at most
the `2 ^ 24`th part of the result away for sums of any size.
-/

namespace DeepShadow
namespace Single

/-! ## Numbers -/

/-- The number that a finite word stands for. -/
def toRat (x : Single) : ℚ := x.signedUnits / 2 ^ 149

/-- By how much a result below two can differ from the exact one. -/
def roundOff : ℚ := 1 / 2 ^ 24

/-- Minus one for a set sign bit, and one for none. -/
def signFactor (negative : Bool) : ℚ := if negative then -1 else 1

variable {x y : Single}

theorem toRat_eq (x : Single) : x.toRat = signFactor x.negative * (x.units / 2 ^ 149) := by
  unfold toRat signedUnits signFactor
  split_ifs
  · push_cast
    ring
  · push_cast
    ring

theorem abs_signFactor (negative : Bool) : |signFactor negative| = 1 := by
  cases negative <;> norm_num [signFactor]

theorem signFactor_bne (left right : Bool) :
    signFactor (left != right) = signFactor left * signFactor right := by
  cases left <;> cases right <;> norm_num [signFactor]

/-- A number below two, in units. -/
theorem lt_of_abs_signFactor_mul_lt
    {exact : ℚ}
    {negative : Bool}
    (notBelow : 0 ≤ exact)
    (below : |signFactor negative * (exact / 2 ^ 149)| < 2) :
    exact < 2 ^ 150 := by
  rw [abs_mul, abs_signFactor, one_mul, abs_of_nonneg (by positivity),
    div_lt_iff₀ (by positivity)] at below
  exact below.trans_eq (by norm_num)

theorem toRat_ofMagnitude
    {magnitude : Nat}
    (bound : magnitude < 0x80000000)
    (negative : Bool) :
    (ofMagnitude negative magnitude).toRat =
      signFactor negative * ((ofMagnitude negative magnitude).units / 2 ^ 149) := by
  rw [toRat_eq, negative_ofMagnitude bound]

/-- A word next to a number of units stands for a number next to theirs. -/
theorem toRat_near
    {magnitude : Nat}
    {exact : ℚ}
    {negative : Bool}
    (near : magnitude < infinityMagnitude ∧
      |((ofMagnitude negative magnitude).units : ℚ) - exact| ≤ 2 ^ 125) :
    (ofMagnitude negative magnitude).isFinite = true ∧
      |(ofMagnitude negative magnitude).toRat - signFactor negative * (exact / 2 ^ 149)| ≤
        roundOff := by
  obtain ⟨small, near⟩ := near
  have bound : magnitude < 0x80000000 := Nat.lt_trans small (by decide)
  refine ⟨by simpa [isFinite, bound] using small, ?_⟩
  rw [toRat_ofMagnitude bound, ← mul_sub, ← sub_div, abs_mul, abs_signFactor, one_mul, abs_div,
    abs_of_pos (by positivity : (0 : ℚ) < 2 ^ 149), div_le_iff₀ (by positivity)]
  calc _ ≤ (2 : ℚ) ^ 125 := near
    _ = roundOff * 2 ^ 149 := by norm_num [roundOff]

theorem toRat_of_magnitude_eq_zero (nothing : x.magnitude = 0) : x.toRat = 0 := by
  have noUnits : x.units = 0 := (units_congr (y := zero) nothing).trans units_zero
  rw [toRat_eq, noUnits]
  norm_num

theorem IsLevel.toRat_eq (level : x.IsLevel) : x.toRat = x.units / 2 ^ 149 := by
  rw [Single.toRat_eq, level.sign]
  exact one_mul _

theorem toRat_of_zero_le (notBelow : zero ≤ x) : x.toRat = x.units / 2 ^ 149 := by
  rw [toRat, signedUnits_of_zero_le notBelow]
  rfl

theorem toRat_nonneg (notBelow : zero ≤ x) : 0 ≤ x.toRat := by
  rw [toRat_of_zero_le notBelow]
  positivity

theorem toRat_le_toRat
    (notBelow : zero ≤ x)
    (ordered : x ≤ y)
    (finite : y.isFinite = true) :
    x.toRat ≤ y.toRat := by
  have counts := units_le_units (isFinite_of_le notBelow ordered finite) finite
    (magnitude_le_of_le notBelow ordered)
  rw [toRat_of_zero_le notBelow, toRat_of_zero_le (le_trans notBelow ordered)]
  exact div_le_div_of_nonneg_right (by exact_mod_cast counts) (by positivity)

@[simp] theorem toRat_zero : zero.toRat = 0 := toRat_of_magnitude_eq_zero (by decide)

@[simp] theorem toRat_one : one.toRat = 1 := by
  rw [isLevel_one.toRat_eq, units_one]
  norm_num

theorem toRat_pos (positive : zero < x) (finite : x.isFinite = true) : 0 < x.toRat := by
  have some : x.units ≠ 0 := fun nothing =>
    (zero_lt_iff.mp positive).2.2 ((units_eq_zero_iff finite).mp nothing)
  rw [toRat_of_zero_le (le_of_lt positive)]
  have castPositive : (0 : ℚ) < x.units := by exact_mod_cast Nat.pos_of_ne_zero some
  positivity

/-! ## Results below two -/

section Results

variable (finite : x.isFinite = true) (finiteToo : y.isFinite = true)

include finite finiteToo

theorem mul_near (below : |x.toRat * y.toRat| < 2) :
    (x * y).isFinite = true ∧ |(x * y).toRat - x.toRat * y.toRat| ≤ roundOff := by
  have exact_eq : ((x.units * y.units : Nat) : ℚ) / ((2 ^ 149 : Nat) : ℚ) * 2 ^ 0 =
      x.units * y.units / 2 ^ 149 := by
    push_cast
    ring
  have toRat_mul_eq : x.toRat * y.toRat =
      signFactor (x.negative != y.negative) * ((x.units * y.units / 2 ^ 149) / 2 ^ 149) := by
    rw [toRat_eq, toRat_eq, signFactor_bne]
    ring
  rw [mul_eq finite finiteToo]
  rw [toRat_mul_eq, ← exact_eq] at below ⊢
  apply toRat_near
  apply nearestMagnitude_near (Nat.two_pow_pos _) (Or.inl rfl)
  exact lt_of_abs_signFactor_mul_lt (by positivity) below

theorem div_near
    (some : y.magnitude ≠ 0)
    (below : |x.toRat / y.toRat| < 2) :
    (x / y).isFinite = true ∧ |(x / y).toRat - x.toRat / y.toRat| ≤ roundOff := by
  have unitsPositive : 0 < y.units :=
    Nat.pos_of_ne_zero fun nothing => some ((units_eq_zero_iff finiteToo).mp nothing)
  have castPositive : (0 : ℚ) < y.units := by exact_mod_cast unitsPositive
  have exact_eq : ((x.units * 2 ^ 149 : Nat) : ℚ) / y.units * 2 ^ 0 =
      x.units * 2 ^ 149 / y.units := by
    push_cast
    ring
  have toRat_div_eq : x.toRat / y.toRat =
      signFactor (x.negative != y.negative) * ((x.units * 2 ^ 149 / y.units) / 2 ^ 149) := by
    rw [toRat_eq, toRat_eq, signFactor_bne]
    have signs : signFactor x.negative / signFactor y.negative =
        signFactor x.negative * signFactor y.negative := by
      cases x.negative <;> cases y.negative <;> norm_num [signFactor]
    rw [← signs]
    field_simp
  rw [div_eq finite finiteToo some]
  rw [toRat_div_eq, ← exact_eq] at below ⊢
  apply toRat_near
  apply nearestMagnitude_near unitsPositive (Or.inl rfl)
  exact lt_of_abs_signFactor_mul_lt (by positivity) below

theorem add_near (below : |x.toRat + y.toRat| < 2) :
    (x + y).isFinite = true ∧ |(x + y).toRat - (x.toRat + y.toRat)| ≤ roundOff := by
  have toRat_add_eq : x.toRat + y.toRat = ((x.signedUnits + y.signedUnits : Int) : ℚ) / 2 ^ 149 := by
    unfold toRat
    push_cast
    ring
  rw [add_of_isFinite finite finiteToo]
  rw [toRat_add_eq] at below ⊢
  generalize x.signedUnits + y.signedUnits = sum at *
  split_ifs with nothing
  · rw [nothing, toRat_of_magnitude_eq_zero (magnitude_ofMagnitude (by decide))]
    norm_num [isFinite, infinityMagnitude, roundOff]
  · have exact_eq : (sum : ℚ) / 2 ^ 149 =
        signFactor (decide (sum < 0)) * (((sum.natAbs : ℚ) / ((1 : Nat) : ℚ) * 2 ^ 0) / 2 ^ 149) := by
      rw [Nat.cast_natAbs, Int.cast_abs]
      by_cases negative : sum < 0
      · have castNegative : (sum : ℚ) < 0 := by exact_mod_cast negative
        rw [decide_eq_true negative, abs_of_neg castNegative]
        norm_num [signFactor]
        ring
      · have castNonneg : (0 : ℚ) ≤ sum := by exact_mod_cast Int.not_lt.mp negative
        rw [decide_eq_false negative, abs_of_nonneg castNonneg]
        norm_num [signFactor]
    rw [exact_eq] at below ⊢
    apply toRat_near
    apply nearestMagnitude_near Nat.one_pos (Or.inl rfl)
    exact lt_of_abs_signFactor_mul_lt (by positivity) below

end Results

/-- What is left of a level after a change that is not above zero. -/
theorem IsLevel.toRat_lower
    (level : x.IsLevel)
    (atMost : x ≤ one)
    (finite : y.isFinite = true)
    (above : -2 < y.toRat)
    (notAbove : ¬zero < y) :
    x.toRat + y.toRat - roundOff ≤ (x.lower y).toRat := by
  have levelBounds : 0 ≤ x.toRat ∧ x.toRat ≤ 1 := by
    refine ⟨toRat_nonneg level.zero_le, ?_⟩
    rw [← toRat_one]
    exact toRat_le_toRat level.zero_le atMost isLevel_one.finite
  have changeBound : y.toRat ≤ 0 := by
    rw [toRat, signedUnits_of_not_lt finite notAbove]
    push_cast
    exact div_nonpos_of_nonpos_of_nonneg (by simp) (by positivity)
  have below : |x.toRat + y.toRat| < 2 := by
    rw [abs_lt]
    constructor <;> linarith
  obtain ⟨sumFinite, near⟩ := add_near level.finite finite below
  have sum_le : (x + y).toRat ≤ (x.lower y).toRat := by
    unfold Single.lower clampNonNegative
    split_ifs with positive
    · exact le_rfl
    · rw [toRat_zero, toRat, signedUnits_of_not_lt sumFinite positive]
      push_cast
      exact div_nonpos_of_nonpos_of_nonneg (by simp) (by positivity)
  linarith [(abs_le.mp near).1]

/-! ## Sums of any size -/

/-- A number without a sign, which may be infinite. -/
structure IsAmount (x : Single) : Prop where
  isNumber : x.isNaN = false
  sign : x.negative = false

theorem isAmount_of_zero_lt (positive : zero < x) : x.IsAmount :=
  ⟨(zero_lt_iff.mp positive).1, (zero_lt_iff.mp positive).2.1⟩

theorem IsLevel.amount (level : x.IsLevel) : x.IsAmount :=
  ⟨isNaN_of_isFinite level.finite, level.sign⟩

theorem IsAmount.zero_le (amount : x.IsAmount) : zero ≤ x :=
  zero_le_iff.mpr ⟨amount.isNumber, fun negative => absurd (amount.sign ▸ negative) (by decide)⟩

/-- Amounts compare like their magnitudes. -/
theorem IsAmount.le_iff
    (amount : x.IsAmount)
    (amountToo : y.IsAmount) :
    x ≤ y ↔ x.magnitude ≤ y.magnitude := by
  rw [le_iff_key, key, key, amount.sign, amountToo.sign]
  simp [amount.isNumber, amountToo.isNumber]

theorem IsAmount.magnitude_le (amount : x.IsAmount) : x.magnitude ≤ infinityMagnitude :=
  Nat.not_lt.mp (of_decide_eq_false amount.isNumber)

theorem IsAmount.magnitude_eq_of_not_finite
    (amount : x.IsAmount)
    (notFinite : x.isFinite = false) :
    x.magnitude = infinityMagnitude :=
  Nat.le_antisymm amount.magnitude_le (Nat.not_lt.mp (of_decide_eq_false notFinite))

/-- The sum of two levels is rounded from the sum of their units. -/
theorem IsLevel.add_eq
    (level : x.IsLevel)
    (levelToo : y.IsLevel) :
    x + y = ofMagnitude false (roundUnits (x.units + y.units)) := by
  rw [add_of_isFinite level.finite levelToo.finite, signedUnits_of_zero_le level.zero_le,
    signedUnits_of_zero_le levelToo.zero_le, level.sign, Bool.false_and]
  have count : ((x.units : Int) + (y.units : Int)).natAbs = x.units + y.units := by omega
  have notNegative : ¬(x.units : Int) + (y.units : Int) < 0 := by omega
  rw [count, decide_eq_false notNegative]
  split_ifs with nothing
  · have noUnits : x.units + y.units = 0 := by omega
    rw [noUnits, roundUnits_zero]
  · rfl

/-- An amount that is not finite takes over a sum. -/
theorem IsAmount.add_eq
    (amount : x.IsAmount)
    (amountToo : y.IsAmount)
    (notFinite : x.isFinite = false ∨ y.isFinite = false) :
    x + y = if x.isFinite then y else x := by
  have sum_eq : x + y = x.add y := rfl
  have infinite_iff {word : Single} (isAmount : word.IsAmount) :
      word.isInfinite = !word.isFinite := by
    have bound := isAmount.magnitude_le
    rw [isInfinite, isFinite, Bool.eq_iff_iff]
    simp only [beq_iff_eq, Bool.not_eq_true', decide_eq_false_iff_not]
    omega
  rw [sum_eq, add]
  simp only [amount.isNumber, amountToo.isNumber, amount.sign, amountToo.sign,
    infinite_iff amount, infinite_iff amountToo, bne_self_eq_false, Bool.and_false,
    Bool.false_eq_true, if_false]
  cases finite : x.isFinite with
  | true => simp [notFinite.resolve_left (by simp [finite])]
  | false => simp

/-- A sum of amounts is one, and at least each of them. -/
theorem IsAmount.add
    (amount : x.IsAmount)
    (amountToo : y.IsAmount) :
    (x + y).IsAmount ∧ x ≤ x + y ∧ y ≤ x + y := by
  have sum : (x + y).IsAmount ∧ x.magnitude ≤ (x + y).magnitude ∧
      y.magnitude ≤ (x + y).magnitude := by
    by_cases finite : x.isFinite = true ∧ y.isFinite = true
    · have magnitudeBound := roundUnits_le (x.units + y.units)
      have bound : roundUnits (x.units + y.units) < 0x80000000 :=
        Nat.lt_of_le_of_lt magnitudeBound (by decide)
      rw [IsLevel.add_eq ⟨amount.sign, finite.1⟩ ⟨amountToo.sign, finite.2⟩,
        magnitude_ofMagnitude bound]
      refine ⟨⟨?_, negative_ofMagnitude bound⟩, ?_, ?_⟩
      · rw [isNaN, magnitude_ofMagnitude bound]
        exact decide_eq_false (Nat.not_lt.mpr magnitudeBound)
      · rw [← roundUnits_units finite.1]
        exact roundUnits_mono (Nat.le_add_right _ _)
      · rw [← roundUnits_units finite.2]
        exact roundUnits_mono (Nat.le_add_left _ _)
    · rw [not_and_or, Bool.not_eq_true, Bool.not_eq_true] at finite
      rw [amount.add_eq amountToo finite]
      split_ifs with xFinite
      · have infinite := amountToo.magnitude_eq_of_not_finite (finite.resolve_left (by simp [xFinite]))
        exact ⟨amountToo, infinite ▸ amount.magnitude_le, Nat.le_refl _⟩
      · have infinite := amount.magnitude_eq_of_not_finite (Bool.not_eq_true _ ▸ xFinite)
        exact ⟨amount, Nat.le_refl _, infinite ▸ amountToo.magnitude_le⟩
  exact ⟨sum.1, (amount.le_iff sum.1).mpr sum.2.1, (amountToo.le_iff sum.1).mpr sum.2.2⟩

/-- A rounded number of units loses at most the `2 ^ 24`th part of itself. -/
theorem le_units_roundUnits
    {count : Nat}
    (small : roundUnits count < infinityMagnitude) :
    (count : ℚ) * (1 - roundOff) ≤ (ofMagnitude false (roundUnits count)).units := by
  rcases Nat.eq_zero_or_pos count with rfl | some
  · norm_num
  have whole : count ≠ 0 := Nat.ne_of_gt some
  have units_eq : (ofMagnitude false (roundUnits count)).units =
      nearestSignificand count 1 0 * 2 ^ nearestExponent count 1 0 := by
    apply units_nearestMagnitude Nat.one_pos (Or.inl rfl) false whole
    have cut : roundUnits count = _ := nearestMagnitude_eq whole
    omega
  have near := nearestSignificand_near Nat.one_pos count 0
  rw [Nat.cast_one, div_one, pow_zero, mul_one] at near
  rw [units_eq]
  rcases Nat.eq_zero_or_pos (nearestExponent count 1 0) with none | shifted
  · -- A number of units that fits into the significand is not rounded.
    have exactly : nearestSignificand count 1 0 = count := by
      rw [nearestSignificand, none]
      simpa using roundQuotient_mul Nat.one_pos count
    have nonneg : (0 : ℚ) ≤ count * roundOff := by
      unfold roundOff
      positivity
    rw [none, exactly, pow_zero, mul_one]
    linarith
  · have power := two_pow_nearestExponent_le Nat.one_pos whole (Or.inl rfl) shifted
    rw [Nat.cast_one, div_one, pow_zero, mul_one, pow_add] at power
    have lower := (abs_le.mp near).1
    have loss : (2 : ℚ) ^ nearestExponent count 1 0 / 2 ≤ count * roundOff := by
      rw [roundOff]
      linarith
    linarith

/-- A finite sum of levels loses less than the `2 ^ 24`th part of itself. -/
theorem IsLevel.add_near
    (level : x.IsLevel)
    (levelToo : y.IsLevel)
    (finite : (x + y).isFinite = true) :
    (x.toRat + y.toRat) * (1 - roundOff) ≤ (x + y).toRat := by
  have sum_eq := level.add_eq levelToo
  have bound : roundUnits (x.units + y.units) < 0x80000000 :=
    Nat.lt_of_le_of_lt (roundUnits_le _) (by decide)
  have sumLevel : (x + y).IsLevel := ⟨by rw [sum_eq, negative_ofMagnitude bound], finite⟩
  have relative : ((x.units + y.units : Nat) : ℚ) * (1 - roundOff) ≤ (x + y).units := by
    rw [sum_eq, isFinite, magnitude_ofMagnitude bound] at finite
    rw [sum_eq]
    exact le_units_roundUnits (of_decide_eq_true finite)
  rw [sumLevel.toRat_eq, level.toRat_eq, levelToo.toRat_eq, ← add_div, div_mul_eq_mul_div]
  apply div_le_div_of_nonneg_right _ (by positivity)
  exact_mod_cast relative

section Totals

variable {list : List Single} (amount : x.IsAmount) (amounts : ∀ word ∈ list, word.IsAmount)

include amount amounts

/-- A sum of a list of amounts is one, and at least each of them. -/
theorem le_foldl_add :
    (list.foldl (· + ·) x).IsAmount ∧ x ≤ list.foldl (· + ·) x ∧
      ∀ word ∈ list, word ≤ list.foldl (· + ·) x := by
  induction list generalizing x with
  | nil => exact ⟨amount, (amount.le_iff amount).mpr (Nat.le_refl _), by simp⟩
  | cons word rest inductionHypothesis =>
      obtain ⟨first, others⟩ := List.forall_mem_cons.mp amounts
      obtain ⟨sum, startBelow, wordBelow⟩ := amount.add first
      obtain ⟨total, below, restBelow⟩ := inductionHypothesis sum others
      exact ⟨total, le_trans startBelow below,
        List.forall_mem_cons.mpr ⟨le_trans wordBelow below, restBelow⟩⟩

/-- A finite sum of amounts loses less than the `2 ^ 24`th part of itself with each
addition. -/
theorem foldl_add_near (finite : (list.foldl (· + ·) x).isFinite = true) :
    (x.toRat + (list.map toRat).sum) * (1 - roundOff) ^ list.length ≤
      (list.foldl (· + ·) x).toRat := by
  induction list generalizing x with
  | nil => simp
  | cons word rest inductionHypothesis =>
      obtain ⟨first, others⟩ := List.forall_mem_cons.mp amounts
      obtain ⟨sum, startBelow, wordBelow⟩ := amount.add first
      -- What is added up to a finite number is finite itself.
      have sumFinite := isFinite_of_le sum.zero_le (le_foldl_add sum others).2.1 finite
      have startLevel : x.IsLevel := ⟨amount.sign, isFinite_of_le amount.zero_le startBelow sumFinite⟩
      have wordLevel : word.IsLevel := ⟨first.sign, isFinite_of_le first.zero_le wordBelow sumFinite⟩
      have unit : 0 ≤ 1 - roundOff ∧ 1 - roundOff ≤ 1 := by norm_num [roundOff]
      have restNonneg : 0 ≤ (rest.map toRat).sum := by
        apply List.sum_nonneg
        intro number isNumber
        obtain ⟨other, inRest, rfl⟩ := List.mem_map.mp isNumber
        exact toRat_nonneg (others other inRest).zero_le
      have shrunk : (rest.map toRat).sum * (1 - roundOff) ≤ (rest.map toRat).sum :=
        mul_le_of_le_one_right restNonneg unit.2
      calc (x.toRat + ((word :: rest).map toRat).sum) * (1 - roundOff) ^ (rest.length + 1)
          = ((x.toRat + word.toRat) * (1 - roundOff) +
              (rest.map toRat).sum * (1 - roundOff)) * (1 - roundOff) ^ rest.length := by
            rw [List.map_cons, List.sum_cons, pow_succ]
            ring
        _ ≤ ((x + word).toRat + (rest.map toRat).sum) * (1 - roundOff) ^ rest.length := by
            apply mul_le_mul_of_nonneg_right _ (pow_nonneg unit.1 _)
            exact add_le_add (startLevel.add_near wordLevel sumFinite) shrunk
        _ ≤ (rest.foldl (· + ·) (x + word)).toRat := inductionHypothesis sum others finite

end Totals
end Single
end DeepShadow
