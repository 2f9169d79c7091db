import DeepShadow.Proofs.Visibility.ClearHits

/-!
# Visibility between hits

Each hit that is taken makes two nodes at one depth.  The first of them has the visibility of
the node in front, so that visibility changes at hits only.  The exception are hits at positive
infinity: the distance to them is infinite, nothing times infinity is not a number, and so
nothing is left in front of such a hit already.
-/

namespace DeepShadow

/-! ## Nodes that repeat the one in front -/

/-- A node with the visibility of the one in front of it can be left out. -/
theorem Curve.visibilityAt_without_repeated
    {front behind : List Node}
    {last repeated : Node}
    (ascending : Curve.Ascending ⟨front ++ last :: repeated :: behind⟩)
    (same : repeated.visibility = last.visibility)
    (depth : Single) :
    Curve.visibilityAt ⟨front ++ last :: behind⟩ depth =
      Curve.visibilityAt ⟨front ++ last :: repeated :: behind⟩ depth := by
  simp only [Curve.visibilityAt, List.takeWhile_append]
  by_cases whole : (front.takeWhile fun node => decide (node.depth ≤ depth)).length = front.length
  · rw [if_pos whole, if_pos whole]
    by_cases reached : last.depth ≤ depth
    · by_cases reachedToo : repeated.depth ≤ depth
      · cases found : (behind.takeWhile fun node => node.depth ≤ depth).getLast? with
        | none => simp [reached, reachedToo, List.getLast?_cons, found, same]
        | some node => simp [reached, reachedToo, List.getLast?_cons, found]
      · have nothing : (behind.takeWhile fun node => node.depth ≤ depth) = [] := by
          cases behind with
          | nil => rfl
          | cons node behind =>
              have ordered : repeated.depth ≤ node.depth := by
                have sorted := (List.pairwise_append.mp ascending).2.1
                exact (List.pairwise_cons.mp (List.pairwise_cons.mp sorted).2).1 node
                  List.mem_cons_self
              have beyond : ¬node.depth ≤ depth :=
                fun below => reachedToo (Single.le_trans ordered below)
              simp [beyond]
        simp [reached, reachedToo, nothing]
    · simp [reached]
  · rw [if_neg whole, if_neg whole]

/-- Two nodes with the visibility of the one in front of them can be left out. -/
theorem Curve.Ascending.visibilityAt_without_pair
    {curve : Curve}
    {index : Nat}
    {front before after : Node}
    (ascending : curve.Ascending)
    (isFront : curve.nodes[index]? = some front)
    (isBefore : curve.nodes[index + 1]? = some before)
    (isAfter : curve.nodes[index + 2]? = some after)
    (same : before.visibility = front.visibility)
    (sameToo : after.visibility = front.visibility)
    (depth : Single) :
    Curve.visibilityAt ⟨curve.nodes.take (index + 1) ++ curve.nodes.drop (index + 3)⟩ depth =
      curve.visibilityAt depth := by
  obtain ⟨frontBound, rfl⟩ := List.getElem?_eq_some_iff.mp isFront
  obtain ⟨beforeBound, rfl⟩ := List.getElem?_eq_some_iff.mp isBefore
  obtain ⟨afterBound, rfl⟩ := List.getElem?_eq_some_iff.mp isAfter
  have whole : curve.nodes = curve.nodes.take index ++ curve.nodes[index] ::
      curve.nodes[index + 1] :: curve.nodes[index + 2] :: curve.nodes.drop (index + 3) := by
    rw [← List.drop_eq_getElem_cons, ← List.drop_eq_getElem_cons, ← List.drop_eq_getElem_cons,
      List.take_append_drop]
  have taken_eq : curve.nodes.take (index + 1) ++ curve.nodes.drop (index + 3) =
      curve.nodes.take index ++ curve.nodes[index] :: curve.nodes.drop (index + 3) := by
    rw [List.take_succ_eq_append_getElem frontBound, List.append_assoc, List.singleton_append]
  have split : Curve.Ascending ⟨curve.nodes.take index ++ curve.nodes[index] ::
      curve.nodes[index + 1] :: curve.nodes[index + 2] :: curve.nodes.drop (index + 3)⟩ :=
    whole ▸ ascending
  have fewer : Curve.Ascending ⟨curve.nodes.take index ++ curve.nodes[index] ::
      curve.nodes[index + 2] :: curve.nodes.drop (index + 3)⟩ :=
    split.sublist ((List.Sublist.refl _).append ((List.sublist_cons_self _ _).cons_cons _))
  have curve_eq : curve = ⟨curve.nodes.take index ++ curve.nodes[index] ::
      curve.nodes[index + 1] :: curve.nodes[index + 2] :: curve.nodes.drop (index + 3)⟩ :=
    congrArg Curve.mk whole
  rw [taken_eq, Curve.visibilityAt_without_repeated fewer sameToo,
    Curve.visibilityAt_without_repeated split same, ← curve_eq]

namespace Merge

variable {previous : Node} {hits : List Cursor}

/-- The two nodes of a hit that is taken, behind those of the hits before. -/
theorem Between.nodes_of_hit
    (between : Between previous)
    (lowers : ∀ cursor ∈ hits, cursor.delta.Lowers)
    (numbers : ∀ cursor ∈ hits, cursor.hit.depth.isNaN = false)
    {index : Nat}
    {front before : Node}
    (isFront : (previous :: nodesOf previous hits)[2 * index]? = some front)
    (isBefore : (previous :: nodesOf previous hits)[2 * index + 1]? = some before) :
    ∃ cursor after, hits[index]? = some cursor ∧
      (previous :: nodesOf previous hits)[2 * index + 2]? = some after ∧
      after.depth = before.depth ∧
      before.visibility = (if before.depth.isFinite then front.visibility else Color.black) ∧
      before.visibility.IsLevel ∧
      after.visibility = before.visibility.lower cursor.delta := by
  induction index generalizing previous hits with
  | zero =>
      cases hits with
      | nil => cases isBefore
      | cons cursor hits =>
          obtain ⟨firstLowers, -⟩ := List.forall_mem_cons.mp lowers
          obtain ⟨isNumber, -⟩ := List.forall_mem_cons.mp numbers
          obtain rfl : previous = front := Option.some.inj isFront
          obtain rfl : (step previous cursor).1 = before := Option.some.inj isBefore
          obtain ⟨before_depth, after_depth⟩ := depth_step previous cursor
          refine ⟨cursor, (step previous cursor).2, rfl, rfl, after_depth.trans before_depth.symm,
            ?_, (level_step between.level firstLowers).1.1, (visibility_step previous cursor).2⟩
          rw [between.visibility_before isNumber, before_depth]
          have finite_iff := Single.isFinite_max_iff isNumber between.notBelow
          cases finite : (cursor.hit.depth.max previous.depth).isFinite with
          | true => rw [if_pos (finite_iff.mp finite).1, if_pos rfl]
          | false =>
              split
              next hitFinite =>
                have previousInfinite : previous.depth.isFinite = false := by
                  rw [← Bool.not_eq_true] at finite ⊢
                  exact fun previousFinite => finite (finite_iff.mpr ⟨hitFinite, previousFinite⟩)
                exact between.level.eq_black (between.isBlack_of_infinite previousInfinite)
              next => rfl
  | succ index inductionHypothesis =>
      cases hits with
      | nil => cases isBefore
      | cons cursor hits =>
          obtain ⟨firstLowers, othersLower⟩ := List.forall_mem_cons.mp lowers
          obtain ⟨isNumber, otherNumbers⟩ := List.forall_mem_cons.mp numbers
          have shifted : 2 * (index + 1) = 2 * index + 1 + 1 := by omega
          rw [nodesOf, shifted] at isFront isBefore ⊢
          simp only [List.getElem?_cons_succ] at isFront isBefore ⊢
          split at isFront
          next isBlack =>
            -- Nothing follows the black node, so that there is no node in front of another hit.
            rw [if_pos isBlack] at isBefore
            cases isBefore
          next visible =>
            rw [if_neg visible] at isBefore ⊢
            exact inductionHypothesis (between.next isNumber firstLowers) othersLower otherNumbers
              isFront isBefore

/-- The share with which a hit is taken is that of a subsample that contributes. -/
theorem share_of_taken
    {subsamples : List Subsample}
    {cursor : Cursor}
    (isTaken : cursor ∈ taken (initial subsamples)) :
    ∃ subsample, subsamples[cursor.subsample]? = some subsample ∧ subsample.contributes = true ∧
      cursor.share = -subsample.weight / totalWeight subsamples := by
  have first : ∀ cursor ∈ initial subsamples, ∃ subsample,
      subsamples[cursor.subsample]? = some subsample ∧ subsample.contributes = true ∧
        cursor.share = -subsample.weight / totalWeight subsamples := by
    intro cursor isQueued
    have isFirst := (foldr_enqueue_perm (cursors subsamples)).mem_iff.mp isQueued
    obtain ⟨subsample, found, contributes, -, share_eq, -⟩ := mem_cursors isFirst
    exact ⟨subsample, found, contributes, share_eq⟩
  refine forall_taken first ?_ cursor isTaken
  intro cursor next ofCursor advanced
  obtain ⟨-, -, subsample_eq, share_eq, -⟩ := Cursor.advance_eq_some_iff.mp advanced
  rwa [subsample_eq, share_eq]

end Merge

/-- Each hit that is taken makes two nodes at one depth, and the first of them has the
visibility of the node in front of it, or none where the depth is infinite.  Where the hit is
clear and of a finite weight, and the depth is finite, the two nodes can be left out.  A
subsample of a finite weight can go without a clear hit that is not at positive infinity and
does not keep a hit in front of it back, as long as another hit is left to the subsample. -/
theorem merge_constant_between_hits
    (subsamples : List Subsample)
    (occluding : ∀ subsample ∈ subsamples, ∀ hit ∈ subsample.hits.toList, hit.Occluding)
    (numbers : ∀ subsample ∈ subsamples, ∀ hit ∈ subsample.hits.toList,
      hit.depth.isNaN = false) :
    (∀ index front before,
      (merge subsamples).nodes[2 * index]? = some front ->
      (merge subsamples).nodes[2 * index + 1]? = some before ->
        before.visibility = (if before.depth.isFinite then front.visibility else Color.black) ∧
        ∃ cursor after, (Merge.taken (Merge.initial subsamples))[index]? = some cursor ∧
          (merge subsamples).nodes[2 * index + 2]? = some after ∧ after.depth = before.depth ∧
          (cursor.hit.IsClear ->
            (∀ subsample ∈ subsamples[cursor.subsample]?, subsample.weight.isFinite = true) ->
            before.depth.isFinite = true ->
              after.visibility = front.visibility ∧
              ∀ depth, Curve.visibilityAt ⟨(merge subsamples).nodes.take (2 * index + 1) ++
                  (merge subsamples).nodes.drop (2 * index + 3)⟩ depth =
                (merge subsamples).visibilityAt depth)) ∧
    ∀ front behind weight hits clear others,
      subsamples = front ++ ⟨weight, .layered (hits ++ clear :: others)⟩ :: behind ->
      weight.isFinite = true -> clear.IsClear ->
      clear.depth ≠ Single.ofMagnitude false Single.infinityMagnitude ->
      (∀ hit ∈ others.head?, clear.depth.totalKey ≤ hit.depth.totalKey) -> hits ++ others ≠ [] ->
        ∀ depth, (merge (front ++ ⟨weight, .layered (hits ++ others)⟩ :: behind)).visibilityAt
            depth =
          (merge subsamples).visibilityAt depth := by
  constructor
  · intro index front before isFront isBefore
    have ascending := ascending_merge subsamples
    have lowers := Merge.lowers_taken (Merge.occluding_initial occluding)
    have takenNumbers := Merge.forall_hit_taken (Merge.numbered_initial numbers)
    have nodes_eq := Merge.nodes_merge_eq subsamples
    rw [nodes_eq] at isFront isBefore
    obtain ⟨cursor, after, found, isAfter, depth_eq, before_eq, beforeLevel, after_eq⟩ :=
      Merge.between_start.nodes_of_hit lowers takenNumbers isFront isBefore
    rw [← nodes_eq] at isFront isBefore isAfter
    refine ⟨before_eq, cursor, after, found, isAfter, depth_eq, fun isClear weightFinite finite => ?_⟩
    obtain ⟨subsample, isSubsample, contributes, share_eq⟩ :=
      Merge.share_of_taken (List.mem_of_getElem? found)
    have shareFinite : cursor.share.isFinite = true :=
      share_eq ▸ (Merge.share_near (List.mem_of_getElem? isSubsample) contributes
        (weightFinite subsample isSubsample)).1
    rw [if_pos finite] at before_eq
    rw [Merge.lower_of_isClear isClear shareFinite beforeLevel, before_eq] at after_eq
    exact ⟨after_eq, ascending.visibilityAt_without_pair isFront isBefore isAfter before_eq after_eq⟩
  · rintro front behind weight hits clear others rfl finite isClear notInfinite ahead left depth
    have isNumber : clear.depth.isNaN = false :=
      numbers ⟨weight, .layered (hits ++ clear :: others)⟩ (by simp) clear (by simp [Hits.toList])
    exact (Merge.visibilityAt_without_clear occluding numbers finite ahead left isClear
      ((Single.isFinite_max_zero_iff isNumber).mpr notInfinite) depth).symm

namespace ClearPane

/-- A pane that takes nothing, at a depth. -/
def clear (depth : Single) : Hit := ⟨depth, Color.black⟩

/-- Two panes with a clear one in between, and an opaque surface at the depth of the latter. -/
def subsamples : List Subsample :=
  [⟨Single.one, .layered [⟨Single.one, Color.gray Single.half⟩, clear (Single.ofNat 2),
      ⟨Single.ofNat 3, Color.gray Single.half⟩]⟩,
    ⟨Single.one, .solid (Hit.ofDepth (Single.ofNat 2))⟩]

/-- The same without the clear pane. -/
def without : List Subsample :=
  [⟨Single.one, .layered [⟨Single.one, Color.gray Single.half⟩,
      ⟨Single.ofNat 3, Color.gray Single.half⟩]⟩,
    ⟨Single.one, .solid (Hit.ofDepth (Single.ofNat 2))⟩]

/-- Positive infinity. -/
def infinity : Single := Single.ofMagnitude false Single.infinityMagnitude

theorem isClear_clear (depth : Single) : (clear depth).IsClear := by
  intro channel
  rw [clear, Color.value_black]
  rfl

end ClearPane

open ClearPane in
/-- The two nodes of the clear pane repeat the one in front of them, and neither they nor the
pane are missed anywhere. -/
theorem merge_constant_between_hits_clearPane :
    (∀ subsample ∈ subsamples, ∀ hit ∈ subsample.hits.toList, hit.Occluding) ∧
      (∀ subsample ∈ subsamples, ∀ hit ∈ subsample.hits.toList, hit.depth.isNaN = false) ∧
      (merge subsamples).nodes.length = 9 ∧
      (∀ depth, Curve.visibilityAt ⟨(merge subsamples).nodes.take 3 ++
          (merge subsamples).nodes.drop 5⟩ depth = (merge subsamples).visibilityAt depth) ∧
      ∀ depth, (merge without).visibilityAt depth = (merge subsamples).visibilityAt depth := by
  have occluding : ∀ subsample ∈ subsamples, ∀ hit ∈ subsample.hits.toList, hit.Occluding := by
    decide +kernel
  have numbers : ∀ subsample ∈ subsamples, ∀ hit ∈ subsample.hits.toList,
      hit.depth.isNaN = false := by decide +kernel
  have second (queue : List Merge.Cursor) : (Merge.taken queue)[1]? =
      queue.head?.bind fun cursor => (Merge.requeue cursor queue.tail).head? := by
    cases queue with
    | nil =>
        rw [Merge.taken]
        rfl
    | cons cursor rest =>
        rw [Merge.taken, List.getElem?_cons_succ, ← List.head?_eq_getElem?, Merge.head?_taken]
        rfl
  have isFront : (merge subsamples).nodes[2]? =
      some ⟨Single.one, Color.gray (Single.half + Single.half * Single.half)⟩ := by decide +kernel
  have isBefore : (merge subsamples).nodes[3]? = some
      ⟨Single.ofNat 2, Color.gray (Single.half + Single.half * Single.half)⟩ := by decide +kernel
  obtain ⟨nodes, without_eq⟩ := merge_constant_between_hits subsamples occluding numbers
  obtain ⟨-, cursor, after, found, -, -, repeated⟩ := nodes 1 _ _ isFront isBefore
  have hit_eq : some cursor.hit = some (clear (Single.ofNat 2)) := by
    have hits := congrArg (Option.map Merge.Cursor.hit) found
    rw [second] at hits
    exact hits.symm.trans (by decide +kernel)
  have isClear : cursor.hit.IsClear := Option.some.inj hit_eq ▸ isClear_clear _
  have weights : ∀ subsample ∈ subsamples[cursor.subsample]?, subsample.weight.isFinite = true := by
    have all : ∀ subsample ∈ subsamples, subsample.weight.isFinite = true := by decide +kernel
    exact fun subsample isSubsample => all subsample (List.mem_of_getElem? isSubsample)
  refine ⟨occluding, numbers, by decide +kernel, (repeated isClear weights (by decide +kernel)).2, ?_⟩
  exact without_eq [] [⟨Single.one, .solid (Hit.ofDepth (Single.ofNat 2))⟩] Single.one
    [⟨Single.one, Color.gray Single.half⟩] (clear (Single.ofNat 2))
    [⟨Single.ofNat 3, Color.gray Single.half⟩] rfl (by decide +kernel) (isClear_clear _)
    (by decide +kernel) (by decide +kernel) (by decide +kernel)

open ClearPane in
/-- A clear pane at positive infinity takes everything: the node in front of it is black
already. -/
theorem clear_at_infinity_black :
    (∀ hit ∈ [clear infinity], hit.IsClear ∧ hit.depth.isNaN = false) ∧
      (merge [⟨Single.one, .layered [clear infinity]⟩]).nodes =
        [Node.start, ⟨infinity, Color.black⟩, ⟨infinity, Color.black⟩] ∧
      (merge [⟨Single.one, .layered [clear infinity]⟩]).visibilityAt infinity = Color.black ∧
      Node.start.visibility ≠ Color.black := by
  refine ⟨?_, by decide +kernel, by decide +kernel, by decide +kernel⟩
  intro hit isHit
  rw [List.mem_singleton.mp isHit]
  exact ⟨isClear_clear _, by decide⟩

end DeepShadow
