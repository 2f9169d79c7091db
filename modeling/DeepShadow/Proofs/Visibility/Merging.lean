import Mathlib.Data.List.Chain
import DeepShadow.Merge
import DeepShadow.Proofs.Visibility.Bisection

/-!
# Merged curves

Whatever the subsamples of a pixel are, their merged curve starts with full
visibility at depth zero, and its depths are numbers that do not decrease: a hit
whose depth is not a number, or that lies in front of the last node, is moved to
the last node.
-/

namespace DeepShadow

namespace Merge

/-- The two nodes of a hit lie at one depth, which is not in front of the node before
them. -/
theorem depth_step
    (previous : Node)
    (cursor : Cursor) :
    (step previous cursor).1.depth = cursor.hit.depth.max previous.depth ∧
      (step previous cursor).2.depth = cursor.hit.depth.max previous.depth := by
  unfold step
  exact ⟨rfl, rfl⟩

/-- The nodes behind a node do not lie in front of it, and their depths do not
decrease. -/
theorem ascending_nodesFrom
    {previous : Node}
    (isNumber : previous.depth ≤ previous.depth)
    (count : Nat)
    (queue : List Cursor) :
    (previous :: nodesFrom previous count queue).IsChain fun first second =>
      first.depth ≤ second.depth := by
  induction count generalizing previous queue with
  | zero =>
      rw [nodesFrom]
      exact List.isChain_singleton _
  | succ count inductionHypothesis =>
      cases queue with
      | nil =>
          rw [nodesFrom]
          · exact List.isChain_singleton _
          · intro impossible
            cases impossible
      | cons cursor rest =>
          obtain ⟨before_eq, after_eq⟩ := depth_step previous cursor
          have ordered := Single.le_max isNumber cursor.hit.depth
          have stays := Single.le_self_of_le ordered
          -- The larger depth is a number although that of the hit may not be one.
          rw [nodesFrom, List.isChain_cons_cons, List.isChain_cons_cons, before_eq, after_eq]
          refine ⟨ordered, stays, ?_⟩
          have afterIsNumber : (step previous cursor).2.depth ≤
              (step previous cursor).2.depth := by
            rw [after_eq]
            exact stays
          split
          · exact List.isChain_singleton _
          · exact inductionHypothesis afterIsNumber _

end Merge

/-- A merged curve starts with full visibility at depth zero. -/
theorem head_merge (subsamples : List Subsample) :
    ∃ behind, (merge subsamples).nodes = Node.start :: behind := by
  unfold merge
  split
  · exact ⟨[], rfl⟩
  · exact ⟨_, rfl⟩

/-- The depths of a merged curve do not decrease. -/
theorem ascending_merge (subsamples : List Subsample) : (merge subsamples).Ascending := by
  have startIsNumber : Node.start.depth ≤ Node.start.depth := by decide
  unfold Curve.Ascending merge
  split
  · exact List.pairwise_singleton _ _
  · have chain := Merge.ascending_nodesFrom startIsNumber (Merge.hitCount subsamples)
      ((Merge.cursors subsamples).foldr Merge.enqueue [])
    have transitive : IsTrans Node fun first second => first.depth ≤ second.depth :=
      ⟨fun _ _ _ first second => Single.le_trans first second⟩
    exact chain.pairwise

/-- A merged curve with one node is the one that never occludes anything. -/
theorem merge_of_isFullyVisible
    {subsamples : List Subsample}
    (single : (merge subsamples).isFullyVisible = true) :
    (merge subsamples).nodes = [Node.start] := by
  obtain ⟨behind, nodes_eq⟩ := head_merge subsamples
  unfold Curve.isFullyVisible Curve.length at single
  rw [nodes_eq, beq_iff_eq, List.length_cons, Nat.add_eq_right, List.length_eq_zero_iff] at single
  rw [nodes_eq, single]

end DeepShadow
