import DeepShadow.Proofs.Visibility.Rounds

/-!
# Merged curves descend

As long as no opacity is below zero, the visibility of a merged curve starts at one and
does not increase from node to node, whatever the weights and the depths are.  Weights
and depths that are no numbers, or that are infinite, make the visibility drop to zero at
worst.
-/

namespace DeepShadow
namespace Merge

variable {previous : Node} {cursor next : Cursor} {queue : List Cursor}

/-! ## One round -/

/-- No hit of the cursor adds to the visibility. -/
structure Cursor.Occluding (cursor : Cursor) : Prop where
  hits : ∀ hit ∈ cursor.hit :: cursor.behind, hit.Occluding
  share : cursor.share.isNaN = true ∨ cursor.share.negative = true

theorem Cursor.Occluding.lowers (occluding : cursor.Occluding) : cursor.delta.Lowers :=
  (occluding.hits cursor.hit List.mem_cons_self).lowers occluding.share

theorem Cursor.Occluding.advance
    (occluding : cursor.Occluding)
    (advanced : cursor.advance = some next) :
    next.Occluding := by
  obtain ⟨-, behind_eq, -, share_eq, -⟩ := Cursor.advance_eq_some_iff.mp advanced
  refine ⟨fun hit isBehind => occluding.hits hit (List.mem_cons_of_mem _ ?_), ?_⟩
  · rwa [behind_eq]
  · exact share_eq ▸ occluding.share

theorem occluding_requeue
    {rest : List Cursor}
    (occluding : ∀ other ∈ cursor :: rest, other.Occluding) :
    ∀ other ∈ requeue cursor rest, other.Occluding := by
  intro other isQueued
  rcases mem_requeue isQueued with inRest | advanced
  · exact occluding other (List.mem_cons_of_mem _ inRest)
  · exact (occluding cursor List.mem_cons_self).advance advanced

/-- Between hits the visibility does not increase. -/
theorem lowers_slope (distance : Single) : (slope * distance).Lowers := by
  intro channel
  rw [slope, Color.value_mul, Color.value_black]
  exact Single.not_zero_lt_zero_mul distance

/-- The visibility in front of a hit, and behind it. -/
theorem visibility_step (previous : Node) (cursor : Cursor) :
    (step previous cursor).1.visibility = previous.visibility.lower
        (slope * (cursor.hit.depth.max previous.depth - previous.depth)) ∧
      (step previous cursor).2.visibility =
        (step previous cursor).1.visibility.lower cursor.delta :=
  ⟨rfl, rfl⟩

/-- The nodes of a hit are levels, each at most the one in front. -/
theorem level_step
    (level : previous.visibility.IsLevel)
    (lowers : cursor.delta.Lowers) :
    ((step previous cursor).1.visibility.IsLevel ∧
        (step previous cursor).1.visibility.AtMost previous.visibility) ∧
      (step previous cursor).2.visibility.IsLevel ∧
        (step previous cursor).2.visibility.AtMost (step previous cursor).1.visibility := by
  obtain ⟨before_eq, after_eq⟩ := visibility_step previous cursor
  have beforeLevel : (step previous cursor).1.visibility.IsLevel :=
    before_eq ▸ level.lower (lowers_slope _)
  rw [after_eq]
  refine ⟨⟨beforeLevel, ?_⟩, beforeLevel.lower lowers, beforeLevel.lower_atMost lowers⟩
  rw [before_eq]
  exact level.lower_atMost (lowers_slope _)

/-! ## All rounds -/

/-- The nodes behind a level are levels, each at most the one in front. -/
theorem descending_nodesFrom
    (level : previous.visibility.IsLevel)
    (occluding : ∀ cursor ∈ queue, cursor.Occluding)
    (count : Nat) :
    (previous :: nodesFrom previous count queue).IsChain fun first second =>
      second.visibility.IsLevel ∧ second.visibility.AtMost first.visibility := by
  induction count generalizing previous queue with
  | zero =>
      rw [nodesFrom]
      exact List.isChain_singleton _
  | succ count inductionHypothesis =>
      cases queue with
      | nil => exact List.isChain_singleton _
      | cons cursor rest =>
          obtain ⟨before, after⟩ :=
            level_step level (occluding cursor List.mem_cons_self).lowers
          rw [nodesFrom_cons, List.isChain_cons_cons, List.isChain_cons_cons]
          refine ⟨before, after, ?_⟩
          split
          · exact List.isChain_singleton _
          · exact inductionHypothesis after.1 (occluding_requeue occluding)

/-- Each hit makes two nodes. -/
theorem length_nodesFrom (previous : Node) (count : Nat) (queue : List Cursor) :
    ∃ crossed ≤ remaining queue, (nodesFrom previous count queue).length = 2 * crossed := by
  induction count generalizing previous queue with
  | zero => exact ⟨0, Nat.zero_le _, rfl⟩
  | succ count inductionHypothesis =>
      cases queue with
      | nil => exact ⟨0, Nat.zero_le _, rfl⟩
      | cons cursor rest =>
          rw [nodesFrom_cons]
          split
          · refine ⟨1, ?_, rfl⟩
            simp only [remaining, List.map_cons, List.sum_cons]
            omega
          · obtain ⟨crossed, bound, length_eq⟩ :=
              inductionHypothesis (step previous cursor).2 (requeue cursor rest)
            have fewer := remaining_requeue_lt cursor rest
            refine ⟨crossed + 1, by omega, ?_⟩
            rw [List.length_cons, List.length_cons, length_eq]
            omega

/-- Nothing follows the black node behind a hit. -/
theorem length_of_isBlack
    {count index : Nat}
    {node : Node}
    (found : (nodesFrom previous count queue)[2 * index + 1]? = some node)
    (black : node.visibility.isBlack = true) :
    (nodesFrom previous count queue).length = 2 * index + 2 := by
  induction count generalizing previous queue index with
  | zero => cases found
  | succ count inductionHypothesis =>
      cases queue with
      | nil => cases found
      | cons cursor rest =>
          rw [nodesFrom_cons] at found ⊢
          cases index with
          | zero =>
              cases found
              rw [if_pos black]
              rfl
          | succ index =>
              have shifted : 2 * (index + 1) + 1 = 2 * index + 1 + 1 + 1 := by omega
              rw [shifted, List.getElem?_cons_succ, List.getElem?_cons_succ] at found
              split at found
              next => cases found
              next visible =>
                rw [if_neg visible, List.length_cons, List.length_cons, inductionHypothesis found]
                omega

/-! ## The first round -/

variable {subsamples : List Subsample}

/-- What holds of all hits of the subsamples holds of all hits of the queued cursors. -/
theorem forall_hits_initial
    {property : Hit -> Prop}
    (holds : ∀ subsample ∈ subsamples, ∀ hit ∈ subsample.hits.toList, property hit) :
    ∀ cursor ∈ initial subsamples, ∀ hit ∈ cursor.hit :: cursor.behind, property hit := by
  intro cursor isQueued
  have isFirst := (foldr_enqueue_perm (cursors subsamples)).mem_iff.mp isQueued
  obtain ⟨subsample, found, -, toList_eq, -⟩ := mem_cursors isFirst
  rw [← toList_eq]
  exact holds subsample (List.mem_of_getElem? found)

theorem occluding_initial
    (occluding : ∀ subsample ∈ subsamples, ∀ hit ∈ subsample.hits.toList, hit.Occluding) :
    ∀ cursor ∈ initial subsamples, cursor.Occluding := by
  intro cursor isQueued
  have isFirst := (foldr_enqueue_perm (cursors subsamples)).mem_iff.mp isQueued
  obtain ⟨subsample, found, contributes, -, share_eq, -⟩ := mem_cursors isFirst
  exact ⟨forall_hits_initial occluding cursor isQueued,
    share_eq ▸ negative_share (List.mem_of_getElem? found) contributes⟩

end Merge

section Descent

variable {subsamples : List Subsample}

/-- The nodes of a merge are those behind the start, in a round for each hit. -/
theorem nodes_merge_cases (subsamples : List Subsample) :
    (merge subsamples).nodes = [Node.start] ∨
      (merge subsamples).nodes = Node.start ::
        Merge.nodesFrom Node.start (Merge.hitCount subsamples) (Merge.initial subsamples) := by
  unfold merge
  split
  · exact Or.inl rfl
  · exact Or.inr rfl

theorem descending_merge
    (occluding : ∀ subsample ∈ subsamples, ∀ hit ∈ subsample.hits.toList, hit.Occluding) :
    (merge subsamples).nodes.Pairwise fun first second =>
      second.visibility.IsLevel ∧ second.visibility.AtMost first.visibility := by
  have transitive : IsTrans Node fun first second =>
      second.visibility.IsLevel ∧ second.visibility.AtMost first.visibility :=
    ⟨fun _ _ _ first second => ⟨second.1, second.2.trans first.2⟩⟩
  rcases nodes_merge_cases subsamples with nodes_eq | nodes_eq
  · rw [nodes_eq]
    exact List.pairwise_singleton _ _
  · rw [nodes_eq]
    exact (Merge.descending_nodesFrom Color.isLevel_white (Merge.occluding_initial occluding)
      _).pairwise

end Descent

/-- For any subsamples without an opacity below zero, whatever their weights and depths
are, no round of the merge fails.  The merged curve starts with full visibility at depth
zero and has two nodes for each crossed hit.  Its depths are numbers that do not decrease,
its visibilities lie between zero and one and do not increase, and nothing follows the
black node behind a hit. -/
theorem merge_descends
    (subsamples : List Subsample)
    (occluding : ∀ subsample ∈ subsamples, ∀ hit ∈ subsample.hits.toList, hit.Occluding) :
    Merge.loop subsamples = .ok (merge subsamples) ∧
      (merge subsamples).nodes.head? = some Node.start ∧
      (∃ crossed ≤ Merge.contributedHits subsamples,
        (merge subsamples).nodes.length = 1 + 2 * crossed) ∧
      (∀ node ∈ (merge subsamples).nodes, node.depth.isNaN = false ∧
        ∀ channel, Single.zero ≤ node.visibility.value channel ∧
          node.visibility.value channel ≤ Single.one) ∧
      ((merge subsamples).nodes.Pairwise fun first second =>
        first.depth ≤ second.depth ∧ second.visibility.AtMost first.visibility) ∧
      ∀ index node, 0 < index -> (merge subsamples).nodes[2 * index]? = some node ->
        node.visibility.isBlack = true -> (merge subsamples).nodes.length = 2 * index + 1 := by
  obtain ⟨behind, head_eq⟩ := head_merge subsamples
  have ascending : (merge subsamples).nodes.Pairwise fun first second =>
      first.depth ≤ second.depth := ascending_merge subsamples
  have descending := descending_merge occluding
  have start_eq : (merge subsamples).nodes.head? = some Node.start := by
    rw [head_eq, List.head?_cons]
  refine ⟨Merge.loop_eq_ok subsamples, start_eq, ?_, ?_, ?_, ?_⟩
  · rcases nodes_merge_cases subsamples with nodes_eq | nodes_eq
    · exact ⟨0, Nat.zero_le _, by rw [nodes_eq]; rfl⟩
    · obtain ⟨crossed, bound, length_eq⟩ := Merge.length_nodesFrom Node.start
        (Merge.hitCount subsamples) (Merge.initial subsamples)
      rw [Merge.remaining_initial, Merge.length_crossings] at bound
      refine ⟨crossed, bound, ?_⟩
      rw [nodes_eq, List.length_cons, length_eq, Nat.add_comm]
  · -- Each node is the start, or behind it and so at most as bright.
    intro node isNode
    rw [head_eq] at ascending descending isNode
    have startBounds : Node.start.depth.isNaN = false ∧ ∀ channel,
        Single.zero ≤ Node.start.visibility.value channel ∧
          Node.start.visibility.value channel ≤ Single.one := by
      refine ⟨by decide, fun channel => ?_⟩
      rw [Node.start, Color.value_white]
      decide
    rcases List.mem_cons.mp isNode with rfl | isBehind
    · exact startBounds
    · have depths := (List.pairwise_cons.mp ascending).1 node isBehind
      obtain ⟨level, atMost⟩ := (List.pairwise_cons.mp descending).1 node isBehind
      refine ⟨(Single.le_iff_key.mp depths).2.1, fun channel => ⟨(level channel).zero_le, ?_⟩⟩
      exact Single.le_trans (atMost channel) (startBounds.2 channel).2
  · exact ascending.and (descending.imp fun holds => holds.2)
  · intro index node positive found black
    obtain ⟨before, rfl⟩ := Nat.exists_eq_add_one.mpr positive
    have shifted : 2 * (before + 1) = 2 * before + 1 + 1 := by omega
    rcases nodes_merge_cases subsamples with nodes_eq | nodes_eq
    · rw [nodes_eq, shifted] at found
      cases found
    · rw [nodes_eq, shifted, List.getElem?_cons_succ] at found
      rw [nodes_eq, List.length_cons, Merge.length_of_isBlack found black, shifted]

namespace StrayHits

/-- Positive infinity, which is also the magnitude of the negative one. -/
def infinity (negative : Bool) : Single := .ofMagnitude negative Single.infinityMagnitude

/-- Three subsamples with stray words: hits out of order, at depths that are infinite or no
numbers, an opacity that is no number in one channel, and a weight that is no number. -/
def subsamples : List Subsample :=
  [⟨Single.one, .layered [⟨Single.ofNat 2, Color.gray Single.half⟩,
      ⟨infinity true, Color.gray Single.half⟩, ⟨Single.invalid, Color.gray Single.half⟩]⟩,
    ⟨Single.one, .solid ⟨infinity false, ⟨Single.invalid, Single.one, Single.one⟩⟩⟩,
    ⟨Single.invalid, .solid (Hit.ofDepth Single.one)⟩]

end StrayHits

/-- The three hits of the first subsample are taken at depth two, and the infinite depth
makes the visibility in front of the last hit drop to zero. -/
theorem merge_descends_strayHits :
    (∀ subsample ∈ StrayHits.subsamples, ∀ hit ∈ subsample.hits.toList, hit.Occluding) ∧
      Merge.loop StrayHits.subsamples = .ok (merge StrayHits.subsamples) ∧
      (merge StrayHits.subsamples).nodes.map Node.depth =
        Single.zero :: List.replicate 6 (Single.ofNat 2) ++
          List.replicate 2 (StrayHits.infinity false) ∧
      (merge StrayHits.subsamples).nodes[7]? =
        some ⟨StrayHits.infinity false, Color.black⟩ := by
  have occluding : ∀ subsample ∈ StrayHits.subsamples, ∀ hit ∈ subsample.hits.toList,
      hit.Occluding := by decide +kernel
  obtain ⟨noFailure, -⟩ := merge_descends StrayHits.subsamples occluding
  exact ⟨occluding, noFailure, by decide +kernel, by decide +kernel⟩

end DeepShadow
