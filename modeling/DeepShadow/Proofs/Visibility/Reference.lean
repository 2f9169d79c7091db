import Mathlib.Data.List.Chain
import Mathlib.Data.List.Sort
import DeepShadow.Merge
import DeepShadow.Proofs.Visibility.Levels

/-!
# The fold over all crossings

The visibility function of a pixel can be read without a queue: all hits of the
subsamples that contribute are sorted, and the visibility is lowered by one after the
other.  What lies behind the first black node of this curve can be cut off without a
trace.
-/

namespace DeepShadow

/-- A hit of a subsample that contributes, with its place among all hits. -/
structure Crossing where
  /-- The number of the subsample. -/
  subsample : Nat
  /-- The number of the hit among those of its subsample. -/
  index : Nat
  /-- The share of the subsample in the visibility, negated. -/
  share : Single
  hit : Hit
deriving DecidableEq, Repr

namespace Crossing

/-- By depth in the total order of words, then by subsample, then by hit. -/
def isAhead (left right : Crossing) : Bool :=
  let first := left.hit.depth.totalKey
  let second := right.hit.depth.totalKey
  first < second ∨ first = second ∧
    (left.subsample < right.subsample ∨ left.subsample = right.subsample ∧
      left.index ≤ right.index)

/-- The numbers of the subsample and of the hit. -/
def place (crossing : Crossing) : Nat × Nat := (crossing.subsample, crossing.index)

/-- The change of visibility at the hit. -/
def change (crossing : Crossing) : Color := crossing.hit.opacity * crossing.share

/-- A proper hit of a subsample with a negative share. -/
structure Proper (crossing : Crossing) : Prop where
  hit : crossing.hit.Proper
  share : crossing.share.isNaN = true ∨ crossing.share.negative = true

theorem Proper.lowers
    {crossing : Crossing}
    (proper : crossing.Proper) :
    crossing.change.Lowers := proper.hit.lowers proper.share

variable {left middle right : Crossing}

theorem isAhead_iff :
    left.isAhead right = true ↔
      left.hit.depth.totalKey < right.hit.depth.totalKey ∨
        left.hit.depth.totalKey = right.hit.depth.totalKey ∧
          (left.subsample < right.subsample ∨
            left.subsample = right.subsample ∧ left.index ≤ right.index) := by
  simp [isAhead]

theorem isAhead_trans
    (first : left.isAhead middle = true)
    (second : middle.isAhead right = true) :
    left.isAhead right = true := by
  rw [isAhead_iff] at first second ⊢
  omega

theorem isAhead_total (left right : Crossing) :
    (left.isAhead right || right.isAhead left) = true := by
  rw [Bool.or_eq_true, isAhead_iff, isAhead_iff]
  omega

/-- Crossings that are each ahead of the other one have the same place. -/
theorem place_eq
    (ahead : left.isAhead right = true)
    (behind : right.isAhead left = true) :
    left.place = right.place := by
  rw [isAhead_iff] at ahead behind
  have subsamples : left.subsample = right.subsample := by omega
  have indices : left.index = right.index := by omega
  simp [place, subsamples, indices]

end Crossing

/-- The crossings of the hits of a subsample, the first of them with the number
`first`. -/
def crossingsFrom (subsample : Nat) (share : Single) (first : Nat) (hits : List Hit) :
    List Crossing :=
  (hits.zipIdx first).map fun (hit, index) => ⟨subsample, index, share, hit⟩

/-- The crossings of all subsamples that contribute. -/
def crossings (subsamples : List Subsample) : List Crossing :=
  let total := Merge.totalWeight subsamples
  subsamples.zipIdx.flatMap fun (subsample, number) =>
    if subsample.contributes then
      crossingsFrom number (-subsample.weight / total) 0 subsample.hits.toList
    else []

/-- Crossings from front to back. -/
def inOrder (crossings : List Crossing) : List Crossing := crossings.mergeSort Crossing.isAhead

/-- The two nodes of each crossing behind a node: the visibility in front of it, and
what it leaves. -/
def folded (previous : Node) : List Crossing -> List Node
  | [] => []
  | crossing :: behind =>
      let depth := crossing.hit.depth.max previous.depth
      let visibility := (previous.visibility + crossing.change).clampNonNegative
      ⟨depth, previous.visibility⟩ :: ⟨depth, visibility⟩ :: folded ⟨depth, visibility⟩ behind

/-- The curve with the nodes of all crossings. -/
def reference (subsamples : List Subsample) : Curve :=
  ⟨Node.start :: folded Node.start (inOrder (crossings subsamples))⟩

/-- The nodes up to the first black one, or all nodes where none is black. -/
def upToBlack (nodes : List Node) : List Node :=
  nodes.take (nodes.findIdx (fun node => node.visibility.isBlack) + 1)

/-! ## Sorting -/

section Sorting

variable {left right behind : List Crossing} {first : Crossing}

theorem inOrder_perm (crossings : List Crossing) : (inOrder crossings).Perm crossings :=
  List.mergeSort_perm crossings Crossing.isAhead

theorem pairwise_inOrder (crossings : List Crossing) :
    (inOrder crossings).Pairwise fun front behind => front.isAhead behind = true := by
  apply List.pairwise_mergeSort
  · intro left middle right
    exact Crossing.isAhead_trans
  · exact Crossing.isAhead_total

/-- Crossings with different places are sorted in one way only. -/
theorem eq_of_perm
    (places : (left.map Crossing.place).Nodup)
    (perm : left.Perm right)
    (leftSorted : left.Pairwise fun front behind => front.isAhead behind = true)
    (rightSorted : right.Pairwise fun front behind => front.isAhead behind = true) :
    left = right := by
  apply List.Perm.eq_of_pairwise _ leftSorted rightSorted perm
  intro one other inLeft inRight ahead behind
  exact List.inj_on_of_nodup_map places inLeft (perm.mem_iff.mpr inRight)
    (Crossing.place_eq ahead behind)

/-- The crossing that is ahead of all others comes first. -/
theorem inOrder_eq_cons
    (places : (left.map Crossing.place).Nodup)
    (perm : left.Perm (first :: behind))
    (ahead : ∀ crossing ∈ behind, first.isAhead crossing = true) :
    inOrder left = first :: inOrder behind := by
  have sorted : (inOrder left).Perm left := inOrder_perm left
  have sameBehind : (first :: behind).Perm (first :: inOrder behind) :=
    (inOrder_perm behind).symm.cons first
  apply eq_of_perm ((sorted.map Crossing.place).nodup_iff.mpr places)
    ((sorted.trans perm).trans sameBehind) (pairwise_inOrder left)
  apply List.pairwise_cons.mpr
  refine ⟨?_, pairwise_inOrder behind⟩
  intro crossing inBehind
  exact ahead crossing ((inOrder_perm behind).mem_iff.mp inBehind)

end Sorting

/-- Each crossing gives two nodes. -/
@[simp] theorem length_folded (previous : Node) (list : List Crossing) :
    (folded previous list).length = 2 * list.length := by
  induction list generalizing previous with
  | nil => rfl
  | cons crossing behind inductionHypothesis =>
      simp only [folded, List.length_cons, inductionHypothesis]
      omega

/-! ## Cutting off behind black -/

section Cutting

variable {previous : Node} {nodes front behind : List Node} {list : List Crossing}

theorem upToBlack_cons (node : Node) (nodes : List Node) :
    upToBlack (node :: nodes) =
      if node.visibility.isBlack then [node] else node :: upToBlack nodes := by
  by_cases black : node.visibility.isBlack = true
  · simp [upToBlack, List.findIdx_cons, black]
  · simp [upToBlack, List.findIdx_cons, black]

/-- The last node may be followed by any that have its visibility. -/
theorem visibilityAt_append
    {last : Node}
    (last_eq : front.getLast? = some last)
    (same : ∀ node ∈ behind, node.visibility = last.visibility)
    (depth : Single) :
    Curve.visibilityAt ⟨front ++ behind⟩ depth = Curve.visibilityAt ⟨front⟩ depth := by
  simp only [Curve.visibilityAt, List.takeWhile_append]
  by_cases whole : (front.takeWhile fun node => decide (node.depth ≤ depth)).length = front.length
  · have all : (front.takeWhile fun node => decide (node.depth ≤ depth)) = front :=
      (List.takeWhile_prefix _).eq_of_length whole
    rw [if_pos whole, all, List.getLast?_append, last_eq]
    cases found : (behind.takeWhile fun node => decide (node.depth ≤ depth)).getLast? with
    | none => rfl
    | some node =>
        exact same node ((List.takeWhile_prefix _).subset (List.mem_of_getLast? found))
  · rw [if_neg whole]

/-- Where black is followed by nothing but black, what is behind it is not missed. -/
theorem visibilityAt_upToBlack
    (stays : nodes.Pairwise fun first second =>
      first.visibility.isBlack = true -> second.visibility = first.visibility)
    (depth : Single) :
    Curve.visibilityAt ⟨upToBlack nodes⟩ depth = Curve.visibilityAt ⟨nodes⟩ depth := by
  let black := nodes.findIdx fun node => node.visibility.isBlack
  rcases Nat.lt_or_ge black nodes.length with found | none
  · have isBlack : nodes[black].visibility.isBlack = true := List.findIdx_getElem (w := found)
    have last_eq : (nodes.take (black + 1)).getLast? = some nodes[black] := by
      rw [List.take_succ_eq_append_getElem found, List.getLast?_concat]
    have same : ∀ node ∈ nodes.drop (black + 1), node.visibility = nodes[black].visibility := by
      intro node inBehind
      obtain ⟨offset, bound, rfl⟩ := List.mem_drop_iff_getElem.mp inBehind
      exact List.pairwise_iff_getElem.mp stays _ _ found _ (by omega) isBlack
    have split := visibilityAt_append last_eq same depth
    rw [List.take_append_drop] at split
    exact split.symm
  · rw [upToBlack, List.take_of_length_le (Nat.le_succ_of_le none)]

/-- Behind a black node of the fold all nodes have its visibility. -/
theorem stays_folded
    (level : previous.visibility.IsLevel)
    (proper : ∀ crossing ∈ list, crossing.Proper) :
    (previous :: folded previous list).Pairwise fun first second =>
      first.visibility.isBlack = true -> second.visibility = first.visibility := by
  have transitive : IsTrans Node fun first second =>
      first.visibility.isBlack = true -> second.visibility = first.visibility := by
    constructor
    intro first second third toSecond toThird black
    have second_eq := toSecond black
    exact (toThird (second_eq ▸ black)).trans second_eq
  apply List.IsChain.pairwise
  induction list generalizing previous with
  | nil => exact List.isChain_singleton _
  | cons crossing behind inductionHypothesis =>
      have lowers := (proper crossing List.mem_cons_self).lowers
      apply List.IsChain.cons_cons
      · intro _
        rfl
      apply List.IsChain.cons_cons
      · exact level.lower_of_isBlack lowers
      apply inductionHypothesis (level.lower lowers)
      intro other inBehind
      exact proper other (List.mem_cons_of_mem _ inBehind)

end Cutting

end DeepShadow
