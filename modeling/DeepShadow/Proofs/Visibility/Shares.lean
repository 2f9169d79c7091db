import DeepShadow.Proofs.Single.Accuracy
import DeepShadow.Proofs.Visibility.Refinement

/-!
# The shares of the subsamples

The share of a subsample is its weight as a part of the weights of all subsamples that
contribute, negated and rounded.  It is finite as soon as its own weight is, whatever the
other weights are.
-/

namespace DeepShadow
namespace Single

variable {x weight total : Single}

/-! ## Parts of a total -/

theorem toRat_neg (x : Single) : (-x).toRat = -x.toRat := by
  have neg_eq : -x = ofMagnitude (!x.negative) x.magnitude := rfl
  have factor : signFactor (!x.negative) = -signFactor x.negative := by
    cases x.negative <;> norm_num [signFactor]
  rw [neg_eq, toRat_ofMagnitude x.magnitude_lt, toRat_eq, factor,
    units_congr (magnitude_ofMagnitude x.magnitude_lt)]
  ring

/-- The exact part of a weight in a rounded total, which is nothing in an infinite one. -/
def portion (total weight : Single) : ℚ :=
  if total.isFinite then weight.toRat / total.toRat else 0

section Part

variable (positive : zero < weight) (ordered : weight ≤ total) (amount : total.IsAmount)

include positive ordered amount

theorem portion_bounds : 0 ≤ portion total weight ∧ portion total weight ≤ 1 := by
  unfold portion
  split_ifs with finite
  · have notBelow := le_of_lt positive
    exact ⟨div_nonneg (toRat_nonneg notBelow) (toRat_nonneg amount.zero_le),
      div_le_one_of_le₀ (toRat_le_toRat notBelow ordered finite) (toRat_nonneg amount.zero_le)⟩
  · exact ⟨le_rfl, zero_le_one⟩

/-- A finite weight that is divided by a total and negated is next to its exact part. -/
theorem neg_div_near (finite : weight.isFinite = true) :
    (-weight / total).isFinite = true ∧
      |(-weight / total).toRat + portion total weight| ≤ roundOff := by
  have bounds := portion_bounds positive ordered amount
  have negFinite : (-weight).isFinite = true := (isFinite_neg weight).trans finite
  unfold portion at bounds ⊢
  cases totalFinite : total.isFinite with
  | true =>
      rw [totalFinite, if_pos rfl] at bounds
      rw [if_pos rfl]
      have some : total.magnitude ≠ 0 := by
        have weightSome := (zero_lt_iff.mp positive).2.2
        have magnitudes := magnitude_le_of_le (le_of_lt positive) ordered
        omega
      have quotient_eq : (-weight).toRat / total.toRat = -(weight.toRat / total.toRat) := by
        rw [toRat_neg, neg_div]
      have below : |(-weight).toRat / total.toRat| < 2 := by
        rw [quotient_eq, abs_neg, abs_of_nonneg bounds.1]
        linarith
      have near := div_near negFinite totalFinite some below
      rwa [quotient_eq, sub_neg_eq_add] at near
  | false =>
      have infinite : total.isInfinite = true :=
        isInfinite_of_not_finite totalFinite (by simp [amount.isNumber])
      have quotient_eq : -weight / total = ofMagnitude ((-weight).negative != total.negative) 0 := by
        have div_eq : -weight / total = (-weight).div total := rfl
        rw [div_eq, div]
        simp [isNaN_of_isFinite negFinite, amount.isNumber, isInfinite_of_isFinite negFinite,
          infinite]
      have nothing : (-weight / total).magnitude = 0 := by
        rw [quotient_eq, magnitude_ofMagnitude (by decide)]
      refine ⟨by simp [isFinite, nothing, infinityMagnitude], ?_⟩
      rw [toRat_of_magnitude_eq_zero nothing]
      norm_num [roundOff]

end Part
end Single

namespace Merge

variable {subsamples : List Subsample} {subsample : Subsample}

/-! ## The sum of the weights -/

/-- The weights of the subsamples that contribute. -/
def contributedWeights (subsamples : List Subsample) : List Single :=
  (subsamples.filter Subsample.contributes).map Subsample.weight

theorem totalWeight_eq (subsamples : List Subsample) :
    totalWeight subsamples = (contributedWeights subsamples).foldl (· + ·) Single.zero :=
  List.foldl_map.symm

theorem amount_contributedWeights :
    ∀ weight ∈ contributedWeights subsamples, weight.IsAmount := by
  intro weight isWeight
  obtain ⟨subsample, isContributor, rfl⟩ := List.mem_map.mp isWeight
  exact Single.isAmount_of_zero_lt (zero_lt_weight (List.mem_filter.mp isContributor).2)

theorem amount_totalWeight (subsamples : List Subsample) : (totalWeight subsamples).IsAmount := by
  rw [totalWeight_eq]
  exact (Single.le_foldl_add Single.isLevel_zero.amount amount_contributedWeights).1

/-- The exact sum of the weights of the subsamples that contribute. -/
def exactWeight (subsamples : List Subsample) : ℚ :=
  ((contributedWeights subsamples).map Single.toRat).sum

/-- A finite sum of the weights loses less than the `2 ^ 24`th part of itself with each
weight. -/
theorem exactWeight_near (finite : (totalWeight subsamples).isFinite = true) :
    exactWeight subsamples * (1 - Single.roundOff) ^ (contributedWeights subsamples).length ≤
      (totalWeight subsamples).toRat := by
  rw [totalWeight_eq] at finite ⊢
  have near := Single.foldl_add_near Single.isLevel_zero.amount amount_contributedWeights finite
  rwa [Single.toRat_zero, zero_add] at near

section Share

variable (isSubsample : subsample ∈ subsamples) (contributes : subsample.contributes = true)

include isSubsample contributes

theorem weight_le_totalWeight : subsample.weight ≤ totalWeight subsamples := by
  rw [totalWeight_eq]
  apply (Single.le_foldl_add Single.isLevel_zero.amount amount_contributedWeights).2.2
  exact List.mem_map.mpr ⟨subsample, List.mem_filter.mpr ⟨isSubsample, contributes⟩, rfl⟩

/-- The share of a subsample that contributes with a finite weight is finite, and next to
the exact one. -/
theorem share_near (finite : subsample.weight.isFinite = true) :
    (-subsample.weight / totalWeight subsamples).isFinite = true ∧
      |(-subsample.weight / totalWeight subsamples).toRat +
        Single.portion (totalWeight subsamples) subsample.weight| ≤ Single.roundOff :=
  Single.neg_div_near (zero_lt_weight contributes) (weight_le_totalWeight isSubsample contributes)
    (amount_totalWeight subsamples) finite

theorem portion_share_bounds :
    0 ≤ Single.portion (totalWeight subsamples) subsample.weight ∧
      Single.portion (totalWeight subsamples) subsample.weight ≤ 1 :=
  Single.portion_bounds (zero_lt_weight contributes)
    (weight_le_totalWeight isSubsample contributes) (amount_totalWeight subsamples)

end Share
end Merge
end DeepShadow
