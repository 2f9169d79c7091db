import Mathlib.Data.Nat.Log
import DeepShadow.Proofs.Visibility.WholeNodes

/-!
# What a bisection looks at

A bisection keeps the numbers of the nodes that it looks at.  All of them are nodes of its
curve, and there are no more of them than the number of nodes has binary digits, whether the
depths ascend or not.  It ends at a place with a node at or before the depth in front of it,
and none at it.  Where the depths ascend, this is the place behind the last node at or before
the depth, which also gives the answer of a curve that is not stored.
-/

namespace DeepShadow

namespace StoredCurve

/-- Bisects the nodes, and lists the nodes that are looked at. -/
def search
    (curve : StoredCurve)
    (depth : Single)
    (low high : Nat) : Except Violation (Nat × List Nat) :=
  if low < high then do
    let middle := low + (high - low) / 2
    if (← curve.depth middle) ≤ depth then
      let (place, visited) ← curve.search depth (middle + 1) high
      return (place, middle :: visited)
    else
      let (place, visited) ← curve.search depth low middle
      return (place, middle :: visited)
  else .ok (low, [])
termination_by high - low

variable {curve : StoredCurve} {depth : Single} {low high : Nat}

/-- Listing the nodes does not change the place that is found. -/
theorem bisect_eq_map_search (curve : StoredCurve) (depth : Single) (low high : Nat) :
    curve.bisect depth low high = (curve.search depth low high).map Prod.fst := by
  fun_induction bisect curve depth low high with
  | case1 low high below middle inductionBehind inductionBefore =>
      rw [search, if_pos below]
      simp only [bind, Except.bind]
      cases curve.depth middle with
      | error violation => rfl
      | ok other =>
          simp only
          split
          · rw [inductionBehind]
            cases curve.search depth (middle + 1) high with
            | error violation => rfl
            | ok found => rfl
          · rw [inductionBefore]
            cases curve.search depth low middle with
            | error violation => rfl
            | ok found => rfl
  | case2 low high notBelow =>
      rw [search, if_neg notBelow]
      rfl

/-- What a bisection from `low` to `high` finds, and what it has looked at. -/
structure Found
    (curve : StoredCurve)
    (depth : Single)
    (low high place : Nat)
    (visited : List Nat) : Prop where
  low_le : low ≤ place
  le_high : place ≤ high
  visited_lt : ∀ index ∈ visited, index < curve.length
  /-- Each node that is looked at halves what is left. -/
  length_le : visited.length ≤ Nat.clog 2 (high - low + 1)
  before : low < place -> ∃ other, curve.depth (place - 1) = .ok other ∧ other ≤ depth
  behind : place < high -> ∃ other, curve.depth place = .ok other ∧ ¬other ≤ depth

/-- One node and the search of at most half of the others. -/
theorem succ_clog_half_le
    {count rest : Nat}
    (some : 0 < count)
    (half : rest ≤ count / 2) :
    Nat.clog 2 (rest + 1) + 1 ≤ Nat.clog 2 (count + 1) := by
  rw [Nat.clog_of_one_lt (by decide) (by omega : 1 < count + 1)]
  exact Nat.succ_le_succ (Nat.clog_mono_right 2 (by omega))

/-- A bisection of whole nodes finds a place, in whatever order the depths are. -/
theorem Whole.search_eq_ok
    (whole : curve.Whole)
    (depth : Single)
    {low high : Nat}
    (ordered : low ≤ high)
    (inside : high ≤ curve.length) :
    ∃ place visited, curve.search depth low high = .ok (place, visited) ∧
      Found curve depth low high place visited := by
  fun_induction search curve depth low high with
  | case1 low high below middle inductionBehind inductionBefore =>
      have middle_eq : middle = low + (high - low) / 2 := rfl
      obtain ⟨other, depth_eq⟩ := whole.depth_eq_ok (by omega : middle < curve.length)
      rw [depth_eq]
      simp only [bind, Except.bind]
      split
      next isBefore =>
        obtain ⟨place, visited, searched, found⟩ := inductionBehind (by omega) inside
        rw [searched]
        refine ⟨place, middle :: visited, rfl, ?_⟩
        exact
          { low_le := by have := found.low_le; omega
            le_high := found.le_high
            visited_lt := List.forall_mem_cons.mpr ⟨by omega, found.visited_lt⟩
            length_le := Nat.le_trans (Nat.succ_le_succ found.length_le)
              (succ_clog_half_le (by omega) (by omega))
            before := fun _ => by
              rcases Nat.eq_or_lt_of_le found.low_le with first | later
              · rw [← first, Nat.add_sub_cancel]
                exact ⟨other, depth_eq, isBefore⟩
              · exact found.before later
            behind := found.behind }
      next isBehind =>
        obtain ⟨place, visited, searched, found⟩ := inductionBefore (by omega) (by omega)
        rw [searched]
        refine ⟨place, middle :: visited, rfl, ?_⟩
        exact
          { low_le := found.low_le
            le_high := by have := found.le_high; omega
            visited_lt := List.forall_mem_cons.mpr ⟨by omega, found.visited_lt⟩
            length_le := Nat.le_trans (Nat.succ_le_succ found.length_le)
              (succ_clog_half_le (by omega) (by omega))
            before := found.before
            behind := fun _ => by
              rcases Nat.eq_or_lt_of_le found.le_high with last | earlier
              · rw [last]
                exact ⟨other, depth_eq, isBehind⟩
              · exact found.behind earlier }
  | case2 low high notBelow =>
      refine ⟨low, [], rfl, ?_⟩
      exact
        { low_le := Nat.le_refl _
          le_high := ordered
          visited_lt := by simp
          length_le := Nat.zero_le _
          before := fun below => absurd below (Nat.lt_irrefl _)
          behind := fun below => absurd below notBelow }

/-- The answer at the place that was found: the node in front of it, which lies at or before
the depth, or full visibility. -/
structure AnsweredAt
    (curve : StoredCurve)
    (depth : Single)
    (place : Nat)
    (color : Color) : Prop where
  answer_eq : curve.visibilityAt depth = .ok color
  white_of_zero : place = 0 -> color = Color.white
  node_of_succ : ∀ index, place = index + 1 ->
    ∃ other, curve.node index = .ok ⟨other, color⟩ ∧ other ≤ depth

/-- A lookup in a curve of whole nodes reads nodes of the curve only. -/
theorem Whole.exists_found
    (whole : curve.Whole)
    (depth : Single) :
    ∃ place visited color, curve.search depth 0 curve.length = .ok (place, visited) ∧
      Found curve depth 0 curve.length place visited ∧ AnsweredAt curve depth place color := by
  obtain ⟨place, visited, searched, found⟩ :=
    whole.search_eq_ok depth (Nat.zero_le _) (Nat.le_refl curve.length)
  have bisected : curve.bisect depth 0 curve.length = .ok place := by
    rw [bisect_eq_map_search, searched]
    rfl
  cases place with
  | zero =>
      refine ⟨0, visited, Color.white, searched, found, ?_, fun _ => rfl, fun _ impossible => ?_⟩
      · rw [visibilityAt, bisected]
        rfl
      · cases impossible
  | succ count =>
      obtain ⟨other, depth_eq, isBefore⟩ := found.before (Nat.succ_pos count)
      obtain ⟨color, color_eq⟩ := whole.visibility_eq_ok found.le_high
      refine ⟨count + 1, visited, color, searched, found, ?_, fun impossible => ?_, ?_⟩
      · rw [visibilityAt, bisected]
        exact color_eq
      · cases impossible
      · intro index place_eq
        obtain rfl := Nat.succ.inj place_eq
        refine ⟨other, ?_, isBefore⟩
        rw [Nat.add_sub_cancel] at depth_eq
        rw [node, depth_eq, color_eq]
        rfl

end StoredCurve

/-! ## The last node -/

namespace Curve

variable {curve : Curve} {channels : Nat}

/-- The last node at or before a depth, wherever it stands. -/
def lastUpTo (curve : Curve) (depth : Single) : Option Node :=
  (curve.nodes.filter fun node => node.depth ≤ depth).getLast?

/-- Where depths do not decrease, the nodes at or before a depth come first. -/
theorem Ascending.filter_eq_takeWhile
    (ascending : curve.Ascending)
    (depth : Single) :
    (curve.nodes.filter fun node => node.depth ≤ depth) =
      curve.nodes.takeWhile fun node => node.depth ≤ depth := by
  obtain ⟨nodes⟩ := curve
  unfold Ascending at ascending
  induction nodes with
  | nil => rfl
  | cons first others inductionHypothesis =>
      obtain ⟨ordered, othersAscending⟩ := List.pairwise_cons.mp ascending
      rw [List.filter_cons, List.takeWhile_cons]
      by_cases isBefore : first.depth ≤ depth
      · simp only [isBefore, decide_true, if_true, inductionHypothesis othersAscending]
      · -- What follows a node behind the depth lies behind it too.
        have noOther : others.filter (fun node => node.depth ≤ depth) = [] := by
          rw [List.filter_eq_nil_iff]
          intro node member
          rw [decide_eq_true_eq]
          exact fun before => isBefore (Single.le_trans (ordered node member) before)
        simp only [isBefore, decide_false, Bool.false_eq_true, if_false, noOther]

/-- A curve has at a depth what its last node at or before the depth has. -/
theorem Ascending.visibilityAt_eq
    (ascending : curve.Ascending)
    (depth : Single) :
    curve.visibilityAt depth =
      ((curve.lastUpTo depth).map Node.visibility).getD Color.white := by
  unfold visibilityAt lastUpTo
  rw [ascending.filter_eq_takeWhile]
  cases (curve.nodes.takeWhile fun node => node.depth ≤ depth).getLast? with
  | none => rfl
  | some node => rfl

/-- What is written of a curve is taken as a stored curve. -/
theorem ofData_stored
    (supported : supportedChannels channels = true)
    (curve : Curve) :
    StoredCurve.ofData channels (curve.stored channels).toArray =
      .ok (StoredCurve.ofCurve channels curve) := by
  apply StoredCurve.ofData_eq_ok supported
  rw [List.size_toArray, stored, length_flatMap_stored supported]
  exact Nat.dvd_mul_left _ _

/-- A curve that is written and looked up by bisection has at every depth what its last node
at or before the depth has, with the mean of the channels where only one is stored, and so
has the curve itself.  A bisection of any whole nodes ends, looks only at nodes that lie in
the data, and answers with one of them or with full visibility. -/
theorem stored_answers_alike :
    (∀ (curve : Curve) (channels : Nat),
      curve.Ascending -> channels = 1 ∨ channels = 3 ->
        ∃ data stored, curve.flatten channels = .ok data ∧
          StoredCurve.ofData channels data.toArray = .ok stored ∧
          ∀ depth,
            curve.visibilityAt depth =
              ((curve.lastUpTo depth).map Node.visibility).getD Color.white ∧
            stored.visibilityAt depth =
              .ok (if channels = 1 then Color.gray (curve.visibilityAt depth).mean
                else curve.visibilityAt depth)) ∧
    ∀ (channels : Nat) (data : Array Single),
      channels = 1 ∨ channels = 3 -> channels + 1 ∣ data.size ->
        ∃ stored, StoredCurve.ofData channels data = .ok stored ∧
          ∀ depth, ∃ place visited color,
            stored.bisect depth 0 stored.length = .ok place ∧
            stored.search depth 0 stored.length = .ok (place, visited) ∧
            stored.Found depth 0 stored.length place visited ∧
            stored.AnsweredAt depth place color ∧
            (∀ index, index ∈ visited ∨ place = index + 1 ->
              (index + 1) * (channels + 1) ≤ data.size) := by
  refine ⟨fun curve channels ascending isSupported => ?_, fun channels data isSupported nodes => ?_⟩
  · have supported := supportedChannels_iff.mpr isSupported
    refine ⟨_, _, flatten_eq_ok supported curve, ofData_stored supported curve, fun depth => ?_⟩
    exact ⟨ascending.visibilityAt_eq depth, ascending.visibilityAt_ofCurve supported depth⟩
  · have supported := supportedChannels_iff.mpr isSupported
    have whole := StoredCurve.whole_of_dvd supported nodes
    refine ⟨_, StoredCurve.ofData_eq_ok supported nodes, fun depth => ?_⟩
    obtain ⟨place, visited, color, searched, found, answered⟩ := whole.exists_found depth
    refine ⟨place, visited, color, ?_, searched, found, answered, fun index isRead => ?_⟩
    · rw [StoredCurve.bisect_eq_map_search, searched]
      rfl
    · have inside : index < StoredCurve.length ⟨channels, data⟩ := by
        rcases isRead with isVisited | rfl
        · exact found.visited_lt index isVisited
        · exact found.le_high
      have ends := whole.node_le inside
      rwa [← Nat.succ_mul] at ends

namespace RepeatedDepths

/-- A curve with two nodes at one depth. -/
def stepped : Curve :=
  ⟨[Node.start, ⟨Single.ofNat 5, Color.white⟩, ⟨Single.ofNat 5, Color.gray Single.half⟩,
    ⟨Single.ofNat 10, Color.black⟩]⟩

/-- Three nodes that are not in order, the first one at no number. -/
def unsorted : Array Single :=
  #[Single.invalid, Single.one, Single.ofNat 3, Single.zero, Single.one, Single.half]

theorem ascending_stepped : stepped.Ascending := by
  unfold Ascending
  decide +kernel

end RepeatedDepths

open RepeatedDepths in
/-- At a depth with two nodes, the stored curve has what the second one has; in nodes that are
not in order, a bisection looks at two of the three. -/
theorem stored_answers_alike_repeatedDepths :
    (∃ data stored, stepped.flatten 1 = .ok data ∧
      StoredCurve.ofData 1 data.toArray = .ok stored ∧
      stored.visibilityAt (Single.ofNat 5) = .ok (Color.gray Single.half)) ∧
    ∃ stored visited, StoredCurve.ofData 1 unsorted = .ok stored ∧
      stored.search Single.one 0 stored.length = .ok (0, visited) ∧ visited = [1, 0] ∧
      stored.visibilityAt Single.one = .ok Color.white := by
  obtain ⟨owned, run⟩ := stored_answers_alike
  constructor
  · obtain ⟨data, stored, written, taken, looked⟩ := owned stepped 1 ascending_stepped (Or.inl rfl)
    have half_eq : Color.gray (stepped.visibilityAt (Single.ofNat 5)).mean =
        Color.gray Single.half := by
      decide +kernel
    refine ⟨data, stored, written, taken, ?_⟩
    rw [(looked (Single.ofNat 5)).2, if_pos rfl, half_eq]
  · obtain ⟨stored, taken, looked⟩ := run 1 unsorted (Or.inl rfl) (by decide)
    obtain ⟨place, visited, color, -, searched, -, answered, -⟩ := looked Single.one
    have taken_eq := StoredCurve.ofData_eq_ok (by decide : supportedChannels 1 = true)
      (by decide : 2 ∣ unsorted.size)
    obtain rfl := Except.ok.inj (taken_eq.symm.trans taken)
    have listed : StoredCurve.search ⟨1, unsorted⟩ Single.one 0 3 = .ok (0, [1, 0]) := by
      decide +kernel
    obtain ⟨rfl, rfl⟩ := Prod.mk.inj (Except.ok.inj (listed.symm.trans searched))
    refine ⟨_, _, taken, searched, rfl, ?_⟩
    rw [answered.answer_eq, answered.white_of_zero rfl]

end Curve
end DeepShadow
