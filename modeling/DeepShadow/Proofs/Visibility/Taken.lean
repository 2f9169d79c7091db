import DeepShadow.Proofs.Visibility.Descent

/-!
# The order in which hits are taken

In which order a merge takes the hits does not depend on the visibility that is left.
The nodes are those of the hits taken one after the other, until nothing is left.  At
each depth that is a number, the visibility is what the hits up to this depth leave.
-/

namespace DeepShadow
namespace Merge

variable {previous : Node} {cursor : Cursor} {queue hits : List Cursor}
variable {visibility other : Color} {depth : Single}

/-- The cursors of a queue at all hits that are looked at, in the order in which the hits
are taken. -/
def taken : List Cursor -> List Cursor
  | [] => []
  | cursor :: rest => cursor :: taken (requeue cursor rest)
termination_by queue => remaining queue
decreasing_by exact remaining_requeue_lt cursor rest

/-- The nodes of hits taken one after the other, until nothing is left. -/
def nodesOf (previous : Node) : List Cursor -> List Node
  | [] => []
  | cursor :: hits =>
      (step previous cursor).1 :: (step previous cursor).2 ::
        if (step previous cursor).2.visibility.isBlack then []
        else nodesOf (step previous cursor).2 hits

/-- The nodes of a merge with enough rounds. -/
theorem nodesFrom_eq_nodesOf
    {count : Nat}
    (enough : remaining queue ≤ count) :
    nodesFrom previous count queue = nodesOf previous (taken queue) := by
  induction count generalizing previous queue with
  | zero =>
      cases queue with
      | nil => simp [taken, nodesOf, nodesFrom]
      | cons cursor rest =>
          simp only [remaining, List.map_cons, List.sum_cons] at enough
          omega
  | succ count inductionHypothesis =>
      cases queue with
      | nil => simp [taken, nodesOf, nodesFrom]
      | cons cursor rest =>
          have fewer := remaining_requeue_lt cursor rest
          rw [nodesFrom_cons, taken, nodesOf, inductionHypothesis (by omega)]

/-- What holds of all cursors of a queue, and of a cursor at its next hit if it holds of
the cursor, holds wherever a hit is taken. -/
theorem forall_taken
    {property : Cursor -> Prop}
    (holds : ∀ cursor ∈ queue, property cursor)
    (advances : ∀ cursor next, property cursor -> cursor.advance = some next -> property next) :
    ∀ cursor ∈ taken queue, property cursor := by
  fun_induction taken queue with
  | case1 => exact fun _ isTaken => absurd isTaken List.not_mem_nil
  | case2 cursor rest inductionHypothesis =>
      obtain ⟨first, others⟩ := List.forall_mem_cons.mp holds
      refine List.forall_mem_cons.mpr ⟨first, inductionHypothesis fun other isQueued => ?_⟩
      rcases mem_requeue isQueued with inRest | advanced
      · exact others other inRest
      · exact advances cursor other first advanced

/-- What holds of all hits of a queue holds of the hits that are taken. -/
theorem forall_hit_taken
    {property : Hit -> Prop}
    (holds : ∀ cursor ∈ queue, ∀ hit ∈ cursor.hit :: cursor.behind, property hit) :
    ∀ cursor ∈ taken queue, property cursor.hit := by
  have ofHits := forall_taken holds fun cursor next ofCursor advanced hit isBehind => by
    rw [← (Cursor.advance_eq_some_iff.mp advanced).2.1] at isBehind
    exact ofCursor hit (List.mem_cons_of_mem _ isBehind)
  exact fun cursor isTaken => ofHits cursor isTaken cursor.hit List.mem_cons_self

/-! ## Mapped cursors -/

section Mapped

variable {function : Cursor -> Cursor}

/-- Cursors that keep their order are put into their places as before. -/
theorem enqueue_map
    (kept : ∀ other ∈ queue,
      (function cursor).isBefore (function other) = cursor.isBefore other) :
    (enqueue cursor queue).map function = enqueue (function cursor) (queue.map function) := by
  induction queue with
  | nil => rfl
  | cons first rest inductionHypothesis =>
      obtain ⟨keptFirst, keptRest⟩ := List.forall_mem_cons.mp kept
      rw [enqueue, List.map_cons, enqueue, keptFirst]
      split
      · rfl
      · rw [List.map_cons, inductionHypothesis keptRest]

theorem foldr_enqueue_map
    (kept : queue.Pairwise fun left right =>
      (function left).isBefore (function right) = left.isBefore right) :
    (queue.foldr enqueue []).map function = (queue.map function).foldr enqueue [] := by
  induction queue with
  | nil => rfl
  | cons cursor rest inductionHypothesis =>
      obtain ⟨keptFirst, keptRest⟩ := List.pairwise_cons.mp kept
      rw [List.map_cons, List.foldr_cons, List.foldr_cons, ← inductionHypothesis keptRest]
      exact enqueue_map fun other isQueued =>
        keptFirst other ((foldr_enqueue_perm rest).mem_iff.mp isQueued)

theorem requeue_map
    {rest : List Cursor}
    (advance_eq : (function cursor).advance = cursor.advance.map function)
    (kept : ∀ next, cursor.advance = some next -> ∀ other ∈ rest,
      (function next).isBefore (function other) = next.isBefore other) :
    requeue (function cursor) (rest.map function) = (requeue cursor rest).map function := by
  unfold requeue
  rw [advance_eq]
  cases advanced : cursor.advance with
  | none => rfl
  | some next => exact (enqueue_map (kept next advanced)).symm

/-- Nodes are made of the hits and the shares alone. -/
theorem nodesOf_map
    (hit_eq : ∀ cursor, (function cursor).hit = cursor.hit)
    (share_eq : ∀ cursor, (function cursor).share = cursor.share)
    (previous : Node)
    (hits : List Cursor) :
    nodesOf previous (hits.map function) = nodesOf previous hits := by
  induction hits generalizing previous with
  | nil => rfl
  | cons cursor hits inductionHypothesis =>
      have step_eq : step previous (function cursor) = step previous cursor := by
        rw [step, step, Cursor.delta, Cursor.delta, hit_eq, share_eq]
      rw [List.map_cons, nodesOf, nodesOf, step_eq, inductionHypothesis]

end Mapped

/-! ## What is left at a depth -/

/-- What a hit leaves of a visibility.  Nothing is left in front of an infinite depth. -/
def crossed (visibility : Color) (cursor : Cursor) : Color :=
  (if (cursor.hit.depth.max Single.zero).isFinite then visibility else Color.black).lower
    cursor.delta

/-- What the hits up to a depth leave of a visibility. -/
def seen (depth : Single) (visibility : Color) : List Cursor -> Color
  | [] => visibility
  | cursor :: hits =>
      if cursor.hit.depth ≤ depth then seen depth (crossed visibility cursor) hits
      else visibility

section Crossed

variable (lowers : cursor.delta.Lowers) (level : visibility.IsLevel)

include lowers level

theorem level_crossed : (crossed visibility cursor).IsLevel := by
  unfold crossed
  split
  · exact level.lower lowers
  · exact Color.isLevel_black.lower lowers

theorem crossed_atMost : (crossed visibility cursor).AtMost visibility := by
  unfold crossed
  split
  · exact level.lower_atMost lowers
  · exact (Color.isLevel_black.lower_atMost lowers).trans level.black_atMost

theorem crossed_atMost_crossed
    (levelToo : other.IsLevel)
    (ordered : visibility.AtMost other) :
    (crossed visibility cursor).AtMost (crossed other cursor) := by
  unfold crossed
  split
  · exact level.lower_atMost_lower lowers levelToo ordered
  · exact (Color.isLevel_black.lower lowers).atMost_self

end Crossed

section Seen

variable (lowers : ∀ cursor ∈ hits, cursor.delta.Lowers) (level : visibility.IsLevel)

include lowers level

theorem seen_atMost (depth : Single) : (seen depth visibility hits).AtMost visibility := by
  induction hits generalizing visibility with
  | nil => exact level.atMost_self
  | cons cursor hits inductionHypothesis =>
      obtain ⟨first, others⟩ := List.forall_mem_cons.mp lowers
      unfold seen
      split
      · exact (inductionHypothesis others (level_crossed first level)).trans
          (crossed_atMost first level)
      · exact level.atMost_self

theorem level_seen (depth : Single) : (seen depth visibility hits).IsLevel := by
  induction hits generalizing visibility with
  | nil => exact level
  | cons cursor hits inductionHypothesis =>
      obtain ⟨first, others⟩ := List.forall_mem_cons.mp lowers
      unfold seen
      split
      · exact inductionHypothesis others (level_crossed first level)
      · exact level

theorem seen_of_isBlack
    (isBlack : visibility.isBlack = true)
    (depth : Single) :
    seen depth visibility hits = visibility := by
  have stays := (seen_atMost lowers level depth).isBlack isBlack
  rw [(level_seen lowers level depth).eq_black stays, level.eq_black isBlack]

end Seen

/-! ## Nodes -/

/-- What holds of the last node between two rounds. -/
structure Between (node : Node) : Prop where
  level : node.visibility.IsLevel
  notBelow : Single.zero ≤ node.depth
  isBlack_of_infinite : node.depth.isFinite = false -> node.visibility.isBlack = true

theorem between_start : Between Node.start :=
  ⟨Color.isLevel_white, by decide, fun infinite => absurd infinite (by decide)⟩

section Step

variable (between : Between previous)
variable (isNumber : cursor.hit.depth.isNaN = false)

include between isNumber

/-- The visibility in front of a hit is that behind the last one, as long as the depth is
finite. -/
theorem Between.visibility_before :
    (step previous cursor).1.visibility =
      if (cursor.hit.depth.max Single.zero).isFinite then previous.visibility
      else Color.black := by
  rw [(visibility_step previous cursor).1]
  have ordered := Single.le_max (Single.le_self_of_le between.notBelow) cursor.hit.depth
  have finite_iff := Single.isFinite_max_iff isNumber between.notBelow
  cases finite : (cursor.hit.depth.max previous.depth).isFinite with
  | true =>
      obtain ⟨hitFinite, previousFinite⟩ := finite_iff.mp finite
      rw [if_pos hitFinite]
      exact lower_slope between.level between.notBelow ordered previousFinite finite
  | false =>
      have nothing : previous.visibility.lower
          (slope * (cursor.hit.depth.max previous.depth - previous.depth)) = Color.black := by
        apply between.level.lower_of_isNaN (lowers_slope _)
        intro channel
        rw [slope, Color.value_mul, Color.value_black]
        exact Single.isNaN_zero_mul (Single.isFinite_sub_eq_false finite)
      rw [nothing]
      split
      next hitFinite =>
        -- The last node is at an infinite depth already, where nothing was left.
        have previousInfinite : previous.depth.isFinite = false := by
          rw [← Bool.not_eq_true] at finite ⊢
          exact fun previousFinite => finite (finite_iff.mpr ⟨hitFinite, previousFinite⟩)
        exact (between.level.eq_black (between.isBlack_of_infinite previousInfinite)).symm
      next => rfl

theorem Between.visibility_after :
    (step previous cursor).2.visibility = crossed previous.visibility cursor := by
  rw [(visibility_step previous cursor).2, between.visibility_before isNumber]
  rfl

theorem Between.next (lowers : cursor.delta.Lowers) : Between (step previous cursor).2 := by
  have ordered := Single.le_max (Single.le_self_of_le between.notBelow) cursor.hit.depth
  obtain ⟨-, afterLevel, afterAtMost⟩ := level_step between.level lowers
  refine ⟨afterLevel, Single.le_trans between.notBelow ordered, fun infinite => ?_⟩
  refine afterAtMost.isBlack ?_
  rw [between.visibility_before isNumber]
  split
  next hitFinite =>
    apply between.isBlack_of_infinite
    rw [← Bool.not_eq_true] at infinite ⊢
    exact fun previousFinite => infinite
      ((Single.isFinite_max_iff isNumber between.notBelow).mpr ⟨hitFinite, previousFinite⟩)
  next => rfl

end Step

/-- The visibility at a depth on a curve that goes on behind a node at most at this
depth. -/
theorem visibilityAt_cons_cons
    {node : Node}
    {nodes : List Node}
    (reached : previous.depth ≤ depth) :
    (Curve.mk (previous :: node :: nodes)).visibilityAt depth =
      if node.depth ≤ depth then (Curve.mk (node :: nodes)).visibilityAt depth
      else previous.visibility := by
  by_cases ahead : node.depth ≤ depth
  · simp [Curve.visibilityAt, reached, ahead]
  · simp [Curve.visibilityAt, reached, ahead]

theorem visibilityAt_singleton (reached : previous.depth ≤ depth) :
    (Curve.mk [previous]).visibilityAt depth = previous.visibility := by
  simp [Curve.visibilityAt, reached]

/-- The visibility at a depth is what the hits up to this depth leave. -/
theorem Between.visibilityAt_nodesOf
    (between : Between previous)
    (reached : previous.depth ≤ depth)
    (lowers : ∀ cursor ∈ hits, cursor.delta.Lowers)
    (numbers : ∀ cursor ∈ hits, cursor.hit.depth.isNaN = false) :
    (Curve.mk (previous :: nodesOf previous hits)).visibilityAt depth =
      seen depth previous.visibility hits := by
  induction hits generalizing previous with
  | nil => exact visibilityAt_singleton reached
  | cons cursor hits inductionHypothesis =>
      obtain ⟨firstLowers, othersLower⟩ := List.forall_mem_cons.mp lowers
      obtain ⟨isNumber, otherNumbers⟩ := List.forall_mem_cons.mp numbers
      have depths : cursor.hit.depth.max previous.depth ≤ depth ↔ cursor.hit.depth ≤ depth := by
        rw [Single.max_le_iff isNumber (Single.zero_le_iff.mp between.notBelow).1,
          and_iff_left reached]
      obtain ⟨before_depth, after_depth⟩ := depth_step previous cursor
      have after := between.next isNumber firstLowers
      have visibility_eq := between.visibility_after isNumber
      unfold nodesOf seen
      rw [visibilityAt_cons_cons reached, before_depth]
      by_cases ahead : cursor.hit.depth ≤ depth
      · have afterReached : (step previous cursor).2.depth ≤ depth := by
          rw [after_depth]
          exact depths.mpr ahead
        have beforeReached : (step previous cursor).1.depth ≤ depth := by
          rw [before_depth]
          exact depths.mpr ahead
        rw [if_pos (depths.mpr ahead), if_pos ahead, visibilityAt_cons_cons beforeReached,
          if_pos afterReached, ← visibility_eq]
        split
        next isBlack =>
          rw [visibilityAt_singleton afterReached,
            seen_of_isBlack othersLower after.level isBlack]
        next => exact inductionHypothesis after afterReached othersLower otherNumbers
      · rw [if_neg (mt depths.mp ahead), if_neg ahead]

/-! ## The whole merge -/

variable {subsamples : List Subsample}

theorem initial_eq_nil (notAbove : totalWeight subsamples ≤ Single.zero) :
    initial subsamples = [] := by
  refine List.eq_nil_iff_forall_not_mem.mpr fun cursor isQueued => ?_
  have isFirst := (foldr_enqueue_perm (cursors subsamples)).mem_iff.mp isQueued
  obtain ⟨subsample, found, contributes, -⟩ := mem_cursors isFirst
  have above := zero_lt_totalWeight (List.mem_of_getElem? found) contributes
  have keys := (Single.le_iff_key.mp notAbove).2.2
  have reversed := (Single.lt_iff_key.mp above).2.2
  omega

/-- The nodes of a merge are those of its hits in the order in which they are taken. -/
theorem nodes_merge_eq (subsamples : List Subsample) :
    (merge subsamples).nodes =
      Node.start :: nodesOf Node.start (taken (initial subsamples)) := by
  unfold merge
  split
  next notAbove =>
    rw [initial_eq_nil notAbove, taken]
    rfl
  next =>
    exact congrArg (List.cons Node.start) (nodesFrom_eq_nodesOf (remaining_initial_le subsamples))

/-- All depths of a cursor are numbers. -/
def Cursor.IsNumbered (cursor : Cursor) : Prop :=
  ∀ hit ∈ cursor.hit :: cursor.behind, hit.depth.isNaN = false

theorem Cursor.IsNumbered.advance
    {next : Cursor}
    (numbered : cursor.IsNumbered)
    (advanced : cursor.advance = some next) :
    next.IsNumbered := by
  have behind_eq := (Cursor.advance_eq_some_iff.mp advanced).2.1
  exact fun hit isBehind => numbered hit (List.mem_cons_of_mem _ (behind_eq ▸ isBehind))

theorem numbered_initial
    (numbers : ∀ subsample ∈ subsamples, ∀ hit ∈ subsample.hits.toList,
      hit.depth.isNaN = false) :
    ∀ cursor ∈ initial subsamples, cursor.IsNumbered :=
  forall_hits_initial numbers

theorem lowers_taken
    (occluding : ∀ cursor ∈ queue, cursor.Occluding) :
    ∀ cursor ∈ taken queue, cursor.delta.Lowers :=
  fun cursor isTaken => (forall_taken occluding
    (fun _ _ ofCursor advanced => ofCursor.advance advanced) cursor isTaken).lowers

/-- The visibility of a merge is what the hits up to the depth leave, from depth zero
on. -/
theorem visibilityAt_merge
    (occluding : ∀ cursor ∈ initial subsamples, cursor.Occluding)
    (numbered : ∀ cursor ∈ initial subsamples, cursor.IsNumbered)
    (depth : Single) :
    (merge subsamples).visibilityAt depth =
      if Single.zero ≤ depth then seen depth Color.white (taken (initial subsamples))
      else Color.white := by
  have merge_eq : merge subsamples =
      ⟨Node.start :: nodesOf Node.start (taken (initial subsamples))⟩ := by
    rw [← nodes_merge_eq]
  have lowers := lowers_taken occluding
  have numbers : ∀ cursor ∈ taken (initial subsamples), cursor.hit.depth.isNaN = false :=
    forall_hit_taken numbered
  rw [merge_eq]
  split
  next reached => exact between_start.visibilityAt_nodesOf reached lowers numbers
  next before =>
    have start : ¬Node.start.depth ≤ depth := before
    simp [Curve.visibilityAt, start]

end Merge
end DeepShadow
