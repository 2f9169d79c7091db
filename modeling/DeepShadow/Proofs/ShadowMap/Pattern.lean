import DeepShadow.Proofs.Single.Exact
import DeepShadow.ShadowMap

/-!
# The pattern of a filter

A filter takes its samples in a square pattern, which has the least side with enough samples.
The weights of the samples are numbers without a sign.  A color that is taken for each sample
is summed exactly where it is white or black, and the sum of the white samples times the
rounded share of one of them is one, but for three sides.
-/

namespace DeepShadow
namespace ShadowMap

open Single

/-! ## The side -/

/-- The side of a pattern is the least one with enough samples. -/
theorem filterSide_spec (samples : Nat) :
    samples ≤ filterSide samples * filterSide samples ∧
      ∀ side < filterSide samples, side * side < samples := by
  have enough : samples ≤ samples * samples := Nat.le_mul_self samples
  unfold filterSide
  cases found : (List.range (samples + 1)).find? fun side => samples ≤ side * side with
  | none =>
      have missed := List.find?_eq_none.mp found samples (List.mem_range.mpr (Nat.lt_succ_self _))
      simp [enough] at missed
  | some side =>
      obtain ⟨reaches, -, least⟩ := List.find?_range_eq_some.mp found
      refine ⟨by simpa using reaches, fun smaller below => ?_⟩
      simpa using least smaller below

theorem filterSide_eq_iff {samples side : Nat} :
    filterSide samples = side ↔
      samples ≤ side * side ∧ ∀ smaller < side, smaller * smaller < samples := by
  obtain ⟨reaches, least⟩ := filterSide_spec samples
  constructor
  · rintro rfl
    exact ⟨reaches, least⟩
  · rintro ⟨reachesToo, leastToo⟩
    rcases Nat.lt_trichotomy (filterSide samples) side with below | same | above
    · exact absurd reaches (Nat.not_le.mpr (leastToo _ below))
    · exact same
    · exact absurd reachesToo (Nat.not_le.mpr (least _ above))

theorem filterSide_le
    {samples : Nat}
    (notAbove : samples ≤ maxSamples) :
    filterSide samples ≤ 64 := by
  by_contra above
  have enough := (filterSide_spec samples).2 64 (by omega)
  unfold maxSamples at notAbove
  omega

/-- The side of the pattern that is taken for a number of samples. -/
def side (samples : Nat) : Nat := filterSide (min (max samples 1) maxSamples)

theorem side_bounds (samples : Nat) : 1 ≤ side samples ∧ side samples ≤ 64 := by
  refine ⟨Nat.pos_of_ne_zero fun nothing => ?_, filterSide_le (Nat.min_le_right _ _)⟩
  have reaches : min (max samples 1) maxSamples ≤ side samples * side samples :=
    (filterSide_spec _).1
  rw [nothing] at reaches
  unfold maxSamples at reaches
  omega

/-- The numbers of samples with a side that is not the first or the last one. -/
theorem side_eq_iff
    {samples before : Nat}
    (some : 0 < before)
    (notLast : before < 63) :
    side samples = before + 1 ↔
      before * before < samples ∧ samples ≤ (before + 1) * (before + 1) := by
  have positive : 0 < before * before := Nat.mul_pos some some
  have bound : (before + 1) * (before + 1) < 4096 :=
    Nat.mul_lt_mul_of_le_of_lt (by omega : before + 1 ≤ 64) (by omega : before + 1 < 64) (by decide)
  rw [side, filterSide_eq_iff, maxSamples]
  constructor
  · rintro ⟨reaches, least⟩
    have smaller := least before (Nat.lt_succ_self _)
    omega
  · rintro ⟨above, notAbove⟩
    refine ⟨by omega, fun smaller below => ?_⟩
    have squares := Nat.mul_le_mul (Nat.le_of_lt_succ below) (Nat.le_of_lt_succ below)
    omega

/-! ## Weights -/

/-- A part of one is at most one. -/
theorem isLevel_reciprocal
    {count : Nat}
    (some : 0 < count)
    (bound : count < 2 ^ 32) :
    (one / ofNat count).IsLevel ∧ one / ofNat count ≤ one := by
  have level := isLevel_ofNat bound
  have atLeast := one_le_ofNat some bound
  have positive := level.zero_lt_of_one_le atLeast
  have amount := isLevel_one.amount.div level positive
  have atMost : one / ofNat count ≤ one := by
    conv_rhs => rw [← level.div_self positive]
    exact isLevel_one.amount.div_le_div level positive level.amount atLeast
  exact ⟨⟨amount.sign, isFinite_of_le amount.zero_le atMost isLevel_one.finite⟩, atMost⟩

/-- The weights of the samples are numbers without a sign. -/
theorem isLevel_of_mem_filterWeights
    {side : Nat}
    (digits : side < 0x800000)
    {weights : Single × Single}
    (member : weights ∈ filterWeights side) :
    weights.1.IsLevel ∧ weights.2.IsLevel := by
  have isLevel {index : Nat} (inside : index < side) :
      ((ofNat index + half) * (one / ofNat side)).IsLevel := by
    obtain ⟨step, atMost⟩ := isLevel_reciprocal (Nat.zero_lt_of_lt inside)
      (by omega : side < 2 ^ 32)
    obtain ⟨whole, whole_units⟩ := exactly_ofNat (by omega : index < 0x1000000)
    have halfLevel : half.IsLevel := ⟨by decide, by decide⟩
    have half_units : half.units = 2 ^ 148 := by decide
    have place_eq : ofNat index + half =
        ofMagnitude false (roundUnits ((2 * index + 1) * 2 ^ 148)) := by
      have scale : (2 : Nat) ^ 149 = 2 * 2 ^ 148 := by norm_num
      rw [whole.add_eq halfLevel, whole_units, half_units, scale, ← Nat.mul_assoc,
        Nat.mul_comm index, Nat.add_mul, Nat.one_mul]
    obtain ⟨place, -⟩ := exactly_roundUnits (by omega : 2 * index + 1 < 0x1000000)
      (by decide : 148 < 253)
    rw [place_eq]
    have product := place.mul_le_mul step isLevel_one atMost
    rw [place.mul_one] at product
    have amount := place.mul step
    exact ⟨amount.sign, isFinite_of_le amount.zero_le product place.finite⟩
  obtain ⟨row, rowInside, columns⟩ := List.mem_flatMap.mp member
  obtain ⟨column, columnInside, rfl⟩ := List.mem_map.mp columns
  exact ⟨isLevel (List.mem_range.mp columnInside), isLevel (List.mem_range.mp rowInside)⟩

theorem length_filterWeights (side : Nat) : (filterWeights side).length = side * side := by
  simp [filterWeights, List.length_flatMap]

/-! ## Sums of one color -/

/-- A color is summed channel by channel. -/
theorem foldl_add_color
    {α : Type}
    (values : List α)
    (start color : Color) :
    values.foldl (fun sum _ => sum + color) start =
      ⟨values.foldl (fun sum _ => sum + color.red) start.red,
        values.foldl (fun sum _ => sum + color.green) start.green,
        values.foldl (fun sum _ => sum + color.blue) start.blue⟩ := by
  induction values generalizing start with
  | nil => rfl
  | cons first others inductionHypothesis => exact inductionHypothesis (start + color)

/-- Ones are counted. -/
theorem foldl_add_one
    {α : Type}
    (values : List α)
    {start : Nat}
    (digits : start + values.length < 0x1000000) :
    values.foldl (fun sum _ => sum + one) (ofNat start) = ofNat (start + values.length) := by
  induction values generalizing start with
  | nil => rfl
  | cons first others inductionHypothesis =>
      rw [List.length_cons] at digits ⊢
      have next_eq : ofNat start + one = ofNat (start + 1) := by
        rw [← ofNat_one, ofNat_add (by omega) (by decide)]
      rw [List.foldl_cons, next_eq, inductionHypothesis (by omega)]
      congr 1
      omega

/-- Zeros of either sign leave nothing. -/
theorem foldl_add_nothing
    {α : Type}
    (values : List α)
    {x : Single}
    (nothing : x.magnitude = 0) :
    values.foldl (fun sum _ => sum + x) zero = zero := by
  have sum_eq : zero + x = zero := by
    rcases eq_zero_or_of_magnitude_eq_zero nothing with rfl | rfl
    · decide +kernel
    · decide +kernel
  induction values with
  | nil => rfl
  | cons first others inductionHypothesis => rwa [List.foldl_cons, sum_eq]

/-! ## Averages -/

/-- The share of one sample. -/
def share (samples : Nat) : Single := one / (ofNat (side samples) * ofNat (side samples))

/-- The numbers of samples for which the shares of all samples make less than one. -/
def Dims (samples : Nat) : Prop :=
  (100 < samples ∧ samples ≤ 121) ∨ (441 < samples ∧ samples ≤ 484) ∨
    (1849 < samples ∧ samples ≤ 1936)

instance (samples : Nat) : Decidable (Dims samples) := inferInstanceAs (Decidable (_ ∨ _))

theorem dims_iff {samples : Nat} :
    Dims samples ↔ side samples = 11 ∨ side samples = 22 ∨ side samples = 44 := by
  rw [side_eq_iff (by decide) (by decide), side_eq_iff (by decide) (by decide),
    side_eq_iff (by decide) (by decide)]
  rfl

/-- The shares of all samples make one, or the word in front of it. -/
theorem count_mul_share (samples : Nat) :
    ofNat (side samples * side samples) * share samples =
      if Dims samples then ⟨0x3f7fffff⟩ else one := by
  obtain ⟨first, last⟩ := side_bounds samples
  have bounded : side samples ∈ List.range' 1 64 := by
    rw [List.mem_range'_1]
    omega
  have products : ∀ side ∈ List.range' 1 64,
      ofNat (side * side) * (one / (ofNat side * ofNat side)) =
        if side = 11 ∨ side = 22 ∨ side = 44 then ⟨0x3f7fffff⟩ else one := by
    decide +kernel
  rw [share, products _ bounded]
  simp only [dims_iff]

theorem isLevel_share (samples : Nat) : (share samples).IsLevel := by
  obtain ⟨first, last⟩ := side_bounds samples
  have squares : side samples * side samples ≤ 64 * 64 := Nat.mul_le_mul last last
  rw [share, ofNat_mul (by omega) (by omega)]
  exact (isLevel_reciprocal (Nat.mul_pos first first) (by omega)).1

end ShadowMap
end DeepShadow
