import Mathlib.Algebra.Order.BigOperators.Group.List
import Mathlib.Algebra.Order.Ring.Pow
import DeepShadow.Proofs.Visibility.Reordering
import DeepShadow.Proofs.Visibility.Shares

/-!
# What is left uncovered

Subsamples that hit nothing have no share in the visibility of their pixel.  Among the others
each hit takes no more than its opacity of the share of its subsample, up to the rounding of
the share, of their product and of the visibility that is left.
-/

namespace DeepShadow

/-- A hit that can be taken up to a depth: it lies there, or its depth is not a number and it is
moved to the one before. -/
def Hit.IsReached (depth : Single) (hit : Hit) : Prop :=
  hit.depth.isNaN = true ∨ hit.depth ≤ depth

instance (depth : Single) : DecidablePred (Hit.IsReached depth) :=
  fun hit => inferInstanceAs (Decidable (hit.depth.isNaN = true ∨ hit.depth ≤ depth))

/-- A hit whose opacity lies between zero and one. -/
def Hit.Translucent (hit : Hit) : Prop :=
  ∀ channel, Single.zero ≤ hit.opacity.value channel ∧ hit.opacity.value channel ≤ Single.one

instance (hit : Hit) : Decidable hit.Translucent :=
  decidable_of_iff
    ((Single.zero ≤ hit.opacity.red ∧ hit.opacity.red ≤ Single.one) ∧
      (Single.zero ≤ hit.opacity.green ∧ hit.opacity.green ≤ Single.one) ∧
        Single.zero ≤ hit.opacity.blue ∧ hit.opacity.blue ≤ Single.one)
    ⟨fun ⟨red, green, blue⟩ => fun | .red => red | .green => green | .blue => blue,
      fun translucent => ⟨translucent .red, translucent .green, translucent .blue⟩⟩

theorem Hit.Translucent.occluding {hit : Hit} (translucent : hit.Translucent) : hit.Occluding := by
  intro channel below
  have ordered := (Single.le_iff_key.mp (translucent channel).1).2.2
  have reversed := (Single.lt_iff_key.mp below).2.2
  omega

namespace Merge

variable {previous : Node} {cursor next : Cursor} {queue hits : List Cursor}
variable {depth : Single} {channel : Channel}

/-! ## One hit -/

/-- What a hit takes at most from the visibility in a channel. -/
def loss (channel : Channel) (hit : Hit) (share : Single) : ℚ :=
  |(hit.opacity.value channel).toRat| * |share.toRat| + 2 * Single.roundOff

theorem loss_nonneg (channel : Channel) (hit : Hit) (share : Single) : 0 ≤ loss channel hit share := by
  unfold loss Single.roundOff
  positivity

/-- A cursor that takes parts of the visibility only. -/
structure Cursor.Fair (cursor : Cursor) : Prop where
  translucent : ∀ hit ∈ cursor.hit :: cursor.behind, hit.Translucent
  finite : cursor.share.isFinite = true
  negative : cursor.share.negative = true
  atMost : |cursor.share.toRat| ≤ 1 + Single.roundOff

theorem Cursor.Fair.advance
    (fair : cursor.Fair)
    (advanced : cursor.advance = some next) :
    next.Fair := by
  obtain ⟨-, behind_eq, -, share_eq, -⟩ := Cursor.advance_eq_some_iff.mp advanced
  refine ⟨fun hit isBehind => fair.translucent hit (List.mem_cons_of_mem _ (behind_eq ▸ isBehind)),
    ?_, ?_, ?_⟩
  · exact share_eq ▸ fair.finite
  · exact share_eq ▸ fair.negative
  · exact share_eq ▸ fair.atMost

theorem Cursor.Fair.lowers (fair : cursor.Fair) : cursor.delta.Lowers :=
  (fair.translucent cursor.hit List.mem_cons_self).occluding.lowers (Or.inr fair.negative)

/-- A hit leaves at least the visibility without its loss. -/
theorem Cursor.Fair.toRat_lower
    {visibility : Color}
    (fair : cursor.Fair)
    (level : visibility.IsLevel)
    (atMost : visibility.AtMost Color.white)
    (channel : Channel) :
    (visibility.value channel).toRat - loss channel cursor.hit cursor.share ≤
      ((visibility.lower cursor.delta).value channel).toRat := by
  obtain ⟨notBelow, below⟩ := fair.translucent cursor.hit List.mem_cons_self channel
  have opacityFinite := Single.isFinite_of_le notBelow below (by decide)
  have opacityBounds : |(cursor.hit.opacity.value channel).toRat| ≤ 1 := by
    rw [abs_of_nonneg (Single.toRat_nonneg notBelow), ← Single.toRat_one]
    exact Single.toRat_le_toRat notBelow below (by decide)
  have product : |(cursor.hit.opacity.value channel).toRat * cursor.share.toRat| ≤
      1 + Single.roundOff := by
    rw [abs_mul]
    exact (mul_le_of_le_one_left (abs_nonneg _) opacityBounds).trans fair.atMost
  have small : Single.roundOff < 1 / 4 := by norm_num [Single.roundOff]
  obtain ⟨deltaFinite, near⟩ := Single.mul_near opacityFinite fair.finite (by linarith)
  have delta_eq : cursor.delta.value channel = cursor.hit.opacity.value channel * cursor.share :=
    Color.value_mul _ _ _
  have whole : visibility.value channel ≤ Single.one := by
    have ordered := atMost channel
    rwa [Color.value_white] at ordered
  have nearBelow := (abs_le.mp near).1
  have productBelow := (abs_le.mp product).1
  rw [← delta_eq] at deltaFinite nearBelow
  have lowered := (level channel).toRat_lower whole deltaFinite (by linarith) (fair.lowers channel)
  have taken_le := neg_abs_le ((cursor.hit.opacity.value channel).toRat * cursor.share.toRat)
  rw [abs_mul] at taken_le
  rw [Color.value_lower, loss]
  linarith

/-! ## All hits -/

/-- What a hit takes at most up to a depth. -/
def lossUpTo (depth : Single) (channel : Channel) (hit : Hit) (share : Single) : ℚ :=
  if hit.IsReached depth then loss channel hit share else 0

theorem lossUpTo_nonneg (depth : Single) (channel : Channel) (hit : Hit) (share : Single) :
    0 ≤ lossUpTo depth channel hit share := by
  unfold lossUpTo
  split_ifs
  · exact loss_nonneg channel hit share
  · exact le_rfl

/-- A hit whose nodes lie up to a depth is reached there. -/
theorem isReached_of_max_le
    {hit : Hit}
    {last : Single}
    (ahead : hit.depth.max last ≤ depth) :
    hit.IsReached depth := by
  cases notNumber : hit.depth.isNaN with
  | true => exact Or.inl notNumber
  | false => exact Or.inr (Single.le_trans (Single.le_max_left notNumber last) ahead)

/-- A hit that is reached, and not at infinity, is at a finite depth. -/
theorem isFinite_max_of_isReached
    {hit : Hit}
    {last : Single}
    (reached : hit.IsReached depth)
    (bounded : hit.depth ≤ depth -> (hit.depth.max Single.zero).isFinite = true)
    (notBelow : Single.zero ≤ last)
    (finite : last.isFinite = true) :
    (hit.depth.max last).isFinite = true := by
  cases notNumber : hit.depth.isNaN with
  | true =>
      rw [Single.max, if_pos notNumber]
      exact finite
  | false =>
      have below := reached.resolve_left (by simp [notNumber])
      exact (Single.isFinite_max_iff notNumber notBelow).mpr ⟨bounded below, finite⟩

/-- Up to a finite depth the visibility is at least the one at the start without the losses of
the hits that are reached. -/
theorem toRat_visibilityAt_nodesOf
    (level : previous.visibility.IsLevel)
    (atMost : previous.visibility.AtMost Color.white)
    (notBelow : Single.zero ≤ previous.depth)
    (finite : previous.depth.isFinite = true)
    (start : previous.depth ≤ depth)
    (fair : ∀ cursor ∈ hits, cursor.Fair)
    (bounded : ∀ cursor ∈ hits,
      cursor.hit.depth ≤ depth -> (cursor.hit.depth.max Single.zero).isFinite = true)
    (channel : Channel) :
    (previous.visibility.value channel).toRat -
        (hits.map fun cursor => lossUpTo depth channel cursor.hit cursor.share).sum ≤
      (((Curve.mk (previous :: nodesOf previous hits)).visibilityAt depth).value
        channel).toRat := by
  induction hits generalizing previous with
  | nil =>
      rw [nodesOf, visibilityAt_singleton start]
      simp
  | cons cursor hits inductionHypothesis =>
      obtain ⟨first, others⟩ := List.forall_mem_cons.mp fair
      obtain ⟨firstBounded, othersBounded⟩ := List.forall_mem_cons.mp bounded
      obtain ⟨before_depth, after_depth⟩ := depth_step previous cursor
      have restNonneg : 0 ≤ (hits.map fun cursor =>
          lossUpTo depth channel cursor.hit cursor.share).sum := by
        apply List.sum_nonneg
        intro number isNumber
        obtain ⟨other, -, rfl⟩ := List.mem_map.mp isNumber
        exact lossUpTo_nonneg _ _ _ _
      rw [List.map_cons, List.sum_cons, nodesOf, visibilityAt_cons_cons start, before_depth]
      by_cases ahead : cursor.hit.depth.max previous.depth ≤ depth
      · have isReached := isReached_of_max_le ahead
        have maxFinite := isFinite_max_of_isReached isReached firstBounded notBelow finite
        have ordered := Single.le_max (Single.le_self_of_le notBelow) cursor.hit.depth
        have before_eq : (step previous cursor).1.visibility = previous.visibility :=
          lower_slope level notBelow ordered finite maxFinite
        have after_eq : (step previous cursor).2.visibility =
            previous.visibility.lower cursor.delta := by
          rw [(visibility_step previous cursor).2, before_eq]
        have lowered := first.toRat_lower level atMost channel
        have beforeReached : (step previous cursor).1.depth ≤ depth := before_depth ▸ ahead
        have afterReached : (step previous cursor).2.depth ≤ depth := after_depth ▸ ahead
        rw [if_pos ahead, visibilityAt_cons_cons beforeReached, if_pos afterReached, lossUpTo,
          if_pos isReached]
        split
        next =>
          rw [visibilityAt_singleton afterReached, after_eq]
          linarith
        next =>
          have afterLevel : (step previous cursor).2.visibility.IsLevel :=
            after_eq ▸ level.lower first.lowers
          have afterAtMost : (step previous cursor).2.visibility.AtMost Color.white :=
            after_eq ▸ (level.lower_atMost first.lowers).trans atMost
          have behind := inductionHypothesis afterLevel afterAtMost
            (after_depth ▸ Single.le_trans notBelow ordered) (after_depth ▸ maxFinite) afterReached
            others othersBounded
          rw [after_eq] at behind
          linarith
      · have firstNonneg := lossUpTo_nonneg depth channel cursor.hit cursor.share
        rw [if_neg ahead]
        linarith

/-! ## Sums over the hits -/

/-- What is summed over the hits that are taken is at most the sum over all hits of the
queue. -/
theorem sum_taken_le
    {amount : Hit -> Single -> ℚ}
    (nonneg : ∀ hit share, 0 ≤ amount hit share)
    (queue : List Cursor) :
    ((taken queue).map fun cursor => amount cursor.hit cursor.share).sum ≤
      (queue.map fun cursor =>
        ((cursor.hit :: cursor.behind).map fun hit => amount hit cursor.share).sum).sum := by
  fun_induction taken queue with
  | case1 => simp
  | case2 cursor rest inductionHypothesis =>
      have behindNonneg : 0 ≤ (cursor.behind.map fun hit => amount hit cursor.share).sum := by
        apply List.sum_nonneg
        intro number isNumber
        obtain ⟨hit, -, rfl⟩ := List.mem_map.mp isNumber
        exact nonneg hit cursor.share
      -- The cursor is put back with the hits behind it, or not at all.
      have requeued : ((requeue cursor rest).map fun cursor =>
          ((cursor.hit :: cursor.behind).map fun hit => amount hit cursor.share).sum).sum ≤
            (cursor.behind.map fun hit => amount hit cursor.share).sum +
              (rest.map fun cursor =>
                ((cursor.hit :: cursor.behind).map fun hit => amount hit cursor.share).sum).sum := by
        unfold requeue
        cases advanced : cursor.advance with
        | none => simpa using behindNonneg
        | some next =>
            obtain ⟨-, behind_eq, -, share_eq, -⟩ := Cursor.advance_eq_some_iff.mp advanced
            rw [((enqueue_perm next rest).map _).sum_eq, List.map_cons, List.sum_cons, behind_eq,
              share_eq]
      rw [List.map_cons, List.sum_cons, List.map_cons, List.sum_cons, List.map_cons, List.sum_cons]
      linarith

variable {subsamples : List Subsample} {subsample : Subsample}

/-- What the cursors at the first hits are asked for is known from the subsamples. -/
theorem map_cursors
    {Result : Type}
    (ask : Single -> List Hit -> Result)
    (subsamples : List Subsample) :
    (cursors subsamples).map (fun cursor => ask cursor.share (cursor.hit :: cursor.behind)) =
      (subsamples.filter Subsample.contributes).map fun subsample =>
        ask (-subsample.weight / totalWeight subsamples) subsample.hits.toList := by
  have asked : (cursors subsamples).map
      (fun cursor => ask cursor.share (cursor.hit :: cursor.behind)) =
        ((cursors subsamples).map (Cursor.renumber fun _ => 0)).map
          fun cursor => ask cursor.share (cursor.hit :: cursor.behind) := by
    rw [List.map_map]
    rfl
  rw [asked, cursors_unnumbered]
  clear asked
  generalize totalWeight subsamples = total
  induction subsamples with
  | nil => rfl
  | cons subsample rest inductionHypothesis =>
      cases contributes : subsample.contributes with
      | false =>
          have notFirst : firstCursor total 0 subsample = none := by
            simp [firstCursor, contributes]
          rw [List.filterMap_cons, notFirst, List.filter_cons_of_neg (by simp [contributes])]
          exact inductionHypothesis
      | true =>
          obtain ⟨hit, behind, toList_eq⟩ := toList_eq_cons contributes
          rw [List.filterMap_cons, List.filter_cons_of_pos contributes, List.map_cons, toList_eq,
            ← inductionHypothesis]
          simp [firstCursor, contributes, toList_eq]

/-! ## The losses of all subsamples -/

/-- The opacities of the hits of a subsample that are reached up to a depth, added up. -/
def covered (depth : Single) (channel : Channel) (subsample : Subsample) : ℚ :=
  (subsample.hits.toList.map fun hit =>
    if hit.IsReached depth then (hit.opacity.value channel).toRat else 0).sum

/-- The weights of the subsamples that contribute, each times what is covered of it. -/
def coveredWeight (depth : Single) (channel : Channel) (subsamples : List Subsample) : ℚ :=
  ((subsamples.filter Subsample.contributes).map fun subsample =>
    subsample.weight.toRat * covered depth channel subsample).sum

/-- The sum of the weights of the subsamples that contribute and have no hit up to a depth. -/
def clearWeight (depth : Single) (subsamples : List Subsample) : ℚ :=
  ((subsamples.filter fun subsample => subsample.contributes &&
    !subsample.hits.toList.any (Hit.IsReached depth)).map fun subsample =>
      subsample.weight.toRat).sum

/-- The part of the rounded total that each unit of weight has. -/
def rate (total : Single) : ℚ := if total.isFinite then 1 / total.toRat else 0

theorem portion_eq (total weight : Single) : Single.portion total weight = weight.toRat * rate total := by
  unfold Single.portion rate
  split_ifs
  · rw [mul_one_div]
  · rw [mul_zero]

/-- A subsample takes at most its exact part of what is covered, and three roundings for each
hit. -/
theorem sum_lossUpTo_le
    {subsample : Subsample}
    {share : Single}
    {part : ℚ}
    (translucent : ∀ hit ∈ subsample.hits.toList, hit.Translucent)
    (near : |share.toRat| ≤ part + Single.roundOff)
    (depth : Single)
    (channel : Channel) :
    (subsample.hits.toList.map fun hit => lossUpTo depth channel hit share).sum ≤
      part * covered depth channel subsample + 3 * Single.roundOff * subsample.hits.length := by
  unfold covered Hits.length
  generalize subsample.hits.toList = hits at translucent
  induction hits with
  | nil => simp
  | cons hit hits inductionHypothesis =>
      obtain ⟨first, others⟩ := List.forall_mem_cons.mp translucent
      have behind := inductionHypothesis others
      have small : 0 ≤ Single.roundOff := by norm_num [Single.roundOff]
      rw [List.map_cons, List.sum_cons, List.map_cons, List.sum_cons, List.length_cons, lossUpTo]
      push_cast
      split_ifs with reached
      · obtain ⟨notBelow, below⟩ := first channel
        have opacityNonneg := Single.toRat_nonneg notBelow
        have opacityBound : (hit.opacity.value channel).toRat ≤ 1 := by
          rw [← Single.toRat_one]
          exact Single.toRat_le_toRat notBelow below (by decide)
        have rounded := mul_le_of_le_one_left small opacityBound
        have product := mul_le_mul_of_nonneg_left near opacityNonneg
        rw [loss, abs_of_nonneg opacityNonneg]
        linarith
      · linarith

section Coverage

variable (finite : ∀ subsample ∈ subsamples, subsample.weight.isFinite = true)
variable (translucent : ∀ subsample ∈ subsamples, ∀ hit ∈ subsample.hits.toList, hit.Translucent)

include finite

/-- Each subsample that contributes has a finite negative share, next to its exact part. -/
theorem share_bounds
    {subsample : Subsample}
    (isSubsample : subsample ∈ subsamples)
    (contributes : subsample.contributes = true) :
    (-subsample.weight / totalWeight subsamples).isFinite = true ∧
      (-subsample.weight / totalWeight subsamples).negative = true ∧
      |(-subsample.weight / totalWeight subsamples).toRat| ≤
        Single.portion (totalWeight subsamples) subsample.weight + Single.roundOff := by
  obtain ⟨shareFinite, near⟩ := share_near isSubsample contributes (finite _ isSubsample)
  have bounds := portion_share_bounds isSubsample contributes
  have sign := (negative_share isSubsample contributes).resolve_left
    (by simp [Single.isNaN_of_isFinite shareFinite])
  refine ⟨shareFinite, sign, ?_⟩
  have nearBounds := abs_le.mp near
  rw [abs_le]
  constructor
  · linarith
  · linarith

include translucent

theorem fair_initial : ∀ cursor ∈ initial subsamples, cursor.Fair := by
  intro cursor isQueued
  have isFirst := (foldr_enqueue_perm (cursors subsamples)).mem_iff.mp isQueued
  obtain ⟨subsample, found, contributes, toList_eq, share_eq, -⟩ := mem_cursors isFirst
  have isSubsample := List.mem_of_getElem? found
  obtain ⟨shareFinite, sign, near⟩ := share_bounds finite isSubsample contributes
  have bounds := portion_share_bounds isSubsample contributes
  refine ⟨toList_eq ▸ translucent subsample isSubsample, share_eq ▸ shareFinite, share_eq ▸ sign, ?_⟩
  rw [share_eq]
  linarith

/-- All hits together take at most the exact parts of what is covered, and three roundings
each. -/
theorem sum_taken_lossUpTo_le (depth : Single) (channel : Channel) :
    ((taken (initial subsamples)).map fun cursor =>
      lossUpTo depth channel cursor.hit cursor.share).sum ≤
        rate (totalWeight subsamples) * coveredWeight depth channel subsamples +
          3 * Single.roundOff * contributedHits subsamples := by
  have initialPerm : (initial subsamples).Perm (cursors subsamples) :=
    foldr_enqueue_perm (cursors subsamples)
  calc _ ≤ ((initial subsamples).map fun cursor => ((cursor.hit :: cursor.behind).map fun hit =>
          lossUpTo depth channel hit cursor.share).sum).sum :=
        sum_taken_le (lossUpTo_nonneg depth channel) _
    _ = ((subsamples.filter Subsample.contributes).map fun subsample =>
          (subsample.hits.toList.map fun hit => lossUpTo depth channel hit
            (-subsample.weight / totalWeight subsamples)).sum).sum := by
        rw [(initialPerm.map _).sum_eq, map_cursors fun share hits =>
          (hits.map fun hit => lossUpTo depth channel hit share).sum]
    _ ≤ ((subsamples.filter Subsample.contributes).map fun subsample =>
          Single.portion (totalWeight subsamples) subsample.weight *
            covered depth channel subsample +
              3 * Single.roundOff * subsample.hits.length).sum := by
        apply List.sum_le_sum
        intro subsample isContributor
        obtain ⟨isSubsample, contributes⟩ := List.mem_filter.mp isContributor
        exact sum_lossUpTo_le (translucent subsample isSubsample)
          (share_bounds finite isSubsample contributes).2.2 depth channel
    _ = rate (totalWeight subsamples) * coveredWeight depth channel subsamples +
          3 * Single.roundOff * contributedHits subsamples := by
        unfold coveredWeight contributedHits
        generalize subsamples.filter Subsample.contributes = contributors
        induction contributors with
        | nil => simp
        | cons subsample rest inductionHypothesis =>
            rw [List.map_cons, List.sum_cons, inductionHypothesis, portion_eq]
            simp only [List.map_cons, List.sum_cons]
            push_cast
            ring

/-- The visibility is at least one without the exact parts of what is covered, and without
three roundings for each hit. -/
theorem le_toRat_visibilityAt
    (bounded : ∀ subsample ∈ subsamples, ∀ hit ∈ subsample.hits.toList,
      hit.depth ≤ depth -> (hit.depth.max Single.zero).isFinite = true)
    (channel : Channel) :
    1 - (rate (totalWeight subsamples) * coveredWeight depth channel subsamples +
        3 * Single.roundOff * contributedHits subsamples) ≤
      (((merge subsamples).visibilityAt depth).value channel).toRat := by
  have losses := sum_taken_lossUpTo_le finite translucent depth channel
  have merge_eq : merge subsamples =
      ⟨Node.start :: nodesOf Node.start (taken (initial subsamples))⟩ := by
    rw [← nodes_merge_eq]
  rw [merge_eq]
  by_cases reached : Single.zero ≤ depth
  · have startLevel : Node.start.visibility.IsLevel := Color.isLevel_white
    have fair := forall_taken (fair_initial finite translucent)
      fun _ _ ofCursor advanced => ofCursor.advance advanced
    have visible := toRat_visibilityAt_nodesOf startLevel startLevel.atMost_self (by decide)
      (by decide) reached fair (forall_hit_taken (forall_hits_initial bounded)) channel
    have white_eq : (Node.start.visibility.value channel).toRat = 1 := by
      rw [Node.start, Color.value_white, Single.toRat_one]
    linarith
  · have before : ¬Node.start.depth ≤ depth := reached
    have nonneg : 0 ≤ ((taken (initial subsamples)).map fun cursor =>
        lossUpTo depth channel cursor.hit cursor.share).sum := by
      apply List.sum_nonneg
      intro number isNumber
      obtain ⟨cursor, -, rfl⟩ := List.mem_map.mp isNumber
      exact lossUpTo_nonneg _ _ _ _
    simp only [Curve.visibilityAt, before, decide_false, Bool.false_eq_true, not_false_eq_true,
      List.takeWhile_cons_of_neg, List.getLast?_nil, Color.value_white, Single.toRat_one]
    linarith

end Coverage

/-! ## The rounded total -/

/-- A total that was rounded down raises a part of it by two roundings for each weight at
most, as long as it is no more than the whole. -/
theorem sub_div_le_of_rate
    {visible cover weight part : ℚ}
    {count hits : Nat}
    (visibleNonneg : 0 ≤ visible)
    (coverNonneg : 0 ≤ cover)
    (positive : 0 < weight)
    (partNonneg : 0 ≤ part)
    (rounded : part * (weight * (1 - Single.roundOff) ^ count) ≤ 1)
    (fewer : count ≤ hits)
    (below : 1 - (part * cover + 3 * Single.roundOff * hits) ≤ visible) :
    1 - cover / weight - 5 * Single.roundOff * hits ≤ visible := by
  have small : 0 ≤ Single.roundOff ∧ Single.roundOff ≤ 2 := by norm_num [Single.roundOff]
  have castFewer : (count : ℚ) * Single.roundOff ≤ hits * Single.roundOff :=
    mul_le_mul_of_nonneg_right (by exact_mod_cast fewer) small.1
  have countNonneg : 0 ≤ (count : ℚ) * Single.roundOff := mul_nonneg (Nat.cast_nonneg _) small.1
  have quotientNonneg : 0 ≤ cover / weight := div_nonneg coverNonneg positive.le
  have whole : part * cover = part * weight * (cover / weight) := by field_simp
  by_cases covers : 1 ≤ cover / weight
  · linarith
  by_cases many : 1 / 2 < count * Single.roundOff
  · linarith
  have power : 1 - count * Single.roundOff ≤ (1 - Single.roundOff) ^ count := by
    have bernoulli := one_add_mul_le_pow (a := -Single.roundOff) (by linarith) count
    rwa [mul_neg, ← sub_eq_add_neg, ← sub_eq_add_neg] at bernoulli
  have wholeNonneg : 0 ≤ part * weight := mul_nonneg partNonneg positive.le
  have product : part * weight * (1 - count * Single.roundOff) ≤ 1 := by
    rw [← mul_assoc] at rounded
    exact (mul_le_mul_of_nonneg_left power wholeNonneg).trans rounded
  have half : part * weight * (1 / 2) ≤ part * weight * (1 - count * Single.roundOff) :=
    mul_le_mul_of_nonneg_left (by linarith) wholeNonneg
  have lost : part * weight * (count * Single.roundOff) ≤ 2 * (count * Single.roundOff) :=
    mul_le_mul_of_nonneg_right (by linarith) countNonneg
  have raised : part * weight * (cover / weight) ≤
      (1 + 2 * (count * Single.roundOff)) * (cover / weight) :=
    mul_le_mul_of_nonneg_right (by linarith) quotientNonneg
  have less : count * Single.roundOff * (cover / weight) ≤ count * Single.roundOff * 1 :=
    mul_le_mul_of_nonneg_left (by linarith) countNonneg
  linarith

theorem rate_bounds
    (isSubsample : subsample ∈ subsamples)
    (contributes : subsample.contributes = true) :
    0 ≤ rate (totalWeight subsamples) ∧
      rate (totalWeight subsamples) * (exactWeight subsamples *
        (1 - Single.roundOff) ^ (contributedWeights subsamples).length) ≤ 1 := by
  unfold rate
  split_ifs with totalFinite
  · have above := Single.toRat_pos (zero_lt_totalWeight isSubsample contributes) totalFinite
    refine ⟨by positivity, ?_⟩
    rw [one_div_mul_eq_div]
    exact div_le_one_of_le₀ (exactWeight_near totalFinite) above.le
  · exact ⟨le_rfl, by norm_num⟩

theorem length_contributedWeights_le (subsamples : List Subsample) :
    (contributedWeights subsamples).length ≤ contributedHits subsamples := by
  have some : ∀ count ∈ (subsamples.filter Subsample.contributes).map
      fun subsample => subsample.hits.length, 1 ≤ count := by
    intro count isCount
    obtain ⟨subsample, isContributor, rfl⟩ := List.mem_map.mp isCount
    obtain ⟨hit, behind, toList_eq⟩ := toList_eq_cons (List.mem_filter.mp isContributor).2
    simp [Hits.length, toList_eq]
  have bound := List.length_le_sum_of_one_le _ some
  rw [List.length_map] at bound
  rwa [contributedWeights, List.length_map]

/-- The visibility of a merge is nowhere below zero. -/
theorem toRat_visibilityAt_nonneg
    (occluding : ∀ subsample ∈ subsamples, ∀ hit ∈ subsample.hits.toList, hit.Occluding)
    (depth : Single)
    (channel : Channel) :
    0 ≤ (((merge subsamples).visibilityAt depth).value channel).toRat := by
  have levels : ∀ node ∈ (merge subsamples).nodes, node.visibility.IsLevel := by
    obtain ⟨behind, nodes_eq⟩ := head_merge subsamples
    have descending := descending_merge occluding
    rw [nodes_eq] at descending ⊢
    exact List.forall_mem_cons.mpr ⟨Color.isLevel_white,
      fun node isBehind => ((List.pairwise_cons.mp descending).1 node isBehind).1⟩
  have level : ((merge subsamples).visibilityAt depth).IsLevel := by
    unfold Curve.visibilityAt
    split
    next => exact Color.isLevel_white
    next node found =>
      exact levels node ((List.takeWhile_prefix _).subset (List.mem_of_getLast? found))
  exact Single.toRat_nonneg (level channel).zero_le

theorem exactWeight_nonneg (subsamples : List Subsample) : 0 ≤ exactWeight subsamples := by
  apply List.sum_nonneg
  intro number isNumber
  obtain ⟨weight, isWeight, rfl⟩ := List.mem_map.mp isNumber
  exact Single.toRat_nonneg (amount_contributedWeights weight isWeight).zero_le

/-- What is covered of a subsample with translucent hits is not below zero. -/
theorem covered_nonneg
    (translucent : ∀ hit ∈ subsample.hits.toList, hit.Translucent)
    (depth : Single)
    (channel : Channel) :
    0 ≤ covered depth channel subsample := by
  apply List.sum_nonneg
  intro number isNumber
  obtain ⟨hit, isHit, rfl⟩ := List.mem_map.mp isNumber
  split_ifs
  · exact Single.toRat_nonneg (translucent hit isHit channel).1
  · exact le_rfl

section Total

variable (finite : ∀ subsample ∈ subsamples, subsample.weight.isFinite = true)

include finite

theorem exactWeight_pos
    (isSubsample : subsample ∈ subsamples)
    (contributes : subsample.contributes = true) :
    0 < exactWeight subsamples := by
  apply List.sum_pos
  · intro number isNumber
    obtain ⟨weight, isWeight, rfl⟩ := List.mem_map.mp isNumber
    obtain ⟨other, isContributor, rfl⟩ := List.mem_map.mp isWeight
    obtain ⟨isOther, otherContributes⟩ := List.mem_filter.mp isContributor
    exact Single.toRat_pos (zero_lt_weight otherContributes) (finite other isOther)
  · have isContributor := List.mem_filter.mpr ⟨isSubsample, contributes⟩
    exact List.ne_nil_of_mem (List.mem_map_of_mem (List.mem_map_of_mem isContributor))

/-- The visibility at a depth is at least one without the covered part of the weights that
contribute, up to five roundings for each hit. -/
theorem one_sub_covered_le
    (translucent : ∀ subsample ∈ subsamples, ∀ hit ∈ subsample.hits.toList, hit.Translucent)
    (bounded : ∀ subsample ∈ subsamples, ∀ hit ∈ subsample.hits.toList,
      hit.depth ≤ depth -> (hit.depth.max Single.zero).isFinite = true)
    (channel : Channel) :
    1 - coveredWeight depth channel subsamples / exactWeight subsamples -
        5 * Single.roundOff * contributedHits subsamples ≤
      (((merge subsamples).visibilityAt depth).value channel).toRat := by
  have below := le_toRat_visibilityAt finite translucent bounded channel
  have hitsNonneg : 0 ≤ Single.roundOff * contributedHits subsamples :=
    mul_nonneg (by norm_num [Single.roundOff]) (Nat.cast_nonneg _)
  cases contributors_eq : subsamples.filter Subsample.contributes with
  | nil =>
      have nothing : coveredWeight depth channel subsamples = 0 := by
        rw [coveredWeight, contributors_eq, List.map_nil, List.sum_nil]
      rw [nothing, mul_zero] at below
      rw [nothing, zero_div]
      linarith
  | cons subsample rest =>
      have isContributor : subsample ∈ subsamples.filter Subsample.contributes := by
        rw [contributors_eq]
        exact List.mem_cons_self
      obtain ⟨isSubsample, contributes⟩ := List.mem_filter.mp isContributor
      have coverNonneg : 0 ≤ coveredWeight depth channel subsamples := by
        apply List.sum_nonneg
        intro number isNumber
        obtain ⟨other, isOther, rfl⟩ := List.mem_map.mp isNumber
        obtain ⟨inSubsamples, otherContributes⟩ := List.mem_filter.mp isOther
        exact mul_nonneg (Single.toRat_nonneg (Single.le_of_lt (zero_lt_weight otherContributes)))
          (covered_nonneg (translucent other inSubsamples) depth channel)
      obtain ⟨rateNonneg, rounded⟩ := rate_bounds isSubsample contributes
      have occluding : ∀ subsample ∈ subsamples, ∀ hit ∈ subsample.hits.toList, hit.Occluding :=
        fun other inSubsamples hit isHit => (translucent other inSubsamples hit isHit).occluding
      exact sub_div_le_of_rate (toRat_visibilityAt_nonneg occluding depth channel) coverNonneg
        (exactWeight_pos finite isSubsample contributes) rateNonneg rounded
        (length_contributedWeights_le subsamples) below

/-- Where no more than the whole of each subsample is covered, the weights that are not
covered are those of the subsamples without a hit. -/
theorem coveredWeight_le
    (whole : ∀ subsample ∈ subsamples, covered depth channel subsample ≤ 1) :
    coveredWeight depth channel subsamples ≤
      exactWeight subsamples - clearWeight depth subsamples := by
  unfold coveredWeight exactWeight contributedWeights clearWeight
  induction subsamples with
  | nil => simp
  | cons subsample rest inductionHypothesis =>
      obtain ⟨firstFinite, restFinite⟩ := List.forall_mem_cons.mp finite
      obtain ⟨firstWhole, restWhole⟩ := List.forall_mem_cons.mp whole
      have behind := inductionHypothesis restFinite restWhole
      cases contributes : subsample.contributes with
      | false => simpa [contributes] using behind
      | true =>
          have weightNonneg := Single.toRat_nonneg (Single.le_of_lt (zero_lt_weight contributes))
          rw [List.filter_cons_of_pos contributes]
          simp only [List.map_cons, List.sum_cons, List.filter_cons, contributes, Bool.true_and]
          cases reached : subsample.hits.toList.any (Hit.IsReached depth) with
          | true =>
              have part := mul_le_of_le_one_right weightNonneg firstWhole
              simp only [Bool.not_true, Bool.false_eq_true, if_false]
              linarith
          | false =>
              have nothing : covered depth channel subsample = 0 := by
                unfold covered
                rw [List.any_eq_false] at reached
                apply List.sum_eq_zero
                intro number isNumber
                obtain ⟨hit, isHit, rfl⟩ := List.mem_map.mp isNumber
                exact if_neg (by simpa using reached hit isHit)
              simp only [nothing, Bool.not_false, if_true, List.map_cons, List.sum_cons, mul_zero]
              linarith

end Total
end Merge

namespace PartlyCovered

/-- An opaque surface at depth one, and a subsample of the same weight that hits nothing. -/
def subsamples : List Subsample :=
  [⟨Single.one, .solid (Hit.ofDepth Single.one)⟩, ⟨Single.one, .layered []⟩]

/-- A pane in front of a part of a pixel, with a surface in front of another part. -/
def panes : List Subsample :=
  [⟨Single.one, .layered [⟨Single.one, Color.gray Single.half⟩]⟩,
    ⟨Single.ofNat 2, .solid (Hit.ofDepth (Single.ofNat 2))⟩, ⟨Single.one, .layered []⟩]

end PartlyCovered

end DeepShadow
