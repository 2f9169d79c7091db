import DeepShadow.Proofs.Visibility.Merging
import DeepShadow.Proofs.Visibility.Refinement

/-!
# The rounds of a merge

The merge is also a loop whose queue has the numbers of hits in place of the hits.  Each
round looks up a hit by its numbers and appends two nodes to the curve.  A number can be
wrong and a node can lie in front of the last one, but for no subsamples this happens:
the loop ends, with the merged curve.
-/

namespace DeepShadow
namespace Merge

/-- What can go wrong in a round. -/
inductive Failure
  | noSubsample (number : Nat)
  | noHit (index count : Nat)
  | misplacedNode (violation : Violation)
  /-- There are hits left behind the last round. -/
  | unfinished
deriving DecidableEq, Repr

/-- A hit in the queue of the loop, by its numbers. -/
structure Place where
  depth : Single
  subsample : Nat
  index : Nat
  /-- The visibility left to the subsample in front of the hit. -/
  running : Color
deriving DecidableEq, Repr

namespace Place

/-- Whether the hit at one place is taken before that at another. -/
def isBefore (left right : Place) : Bool :=
  left.depth.totalKey < right.depth.totalKey ||
    (left.depth.totalKey == right.depth.totalKey && left.subsample < right.subsample)

/-- Puts a place into a queue. -/
def enqueue (place : Place) : List Place -> List Place
  | [] => [place]
  | first :: rest =>
      if place.isBefore first then place :: first :: rest else first :: enqueue place rest

/-- The queue behind a round that goes on with a place. -/
def requeue (next : Option Place) (rest : List Place) : List Place :=
  match next with
  | some next => next.enqueue rest
  | none => rest

/-- The place of the first hit of a subsample that contributes. -/
def first (number : Nat) (subsample : Subsample) : Option Place :=
  match subsample.contributes, subsample.hits.get? 0 with
  | true, some hit => some ⟨hit.depth, number, 0, Color.white⟩
  | _, _ => none

end Place

/-- The subsample with a number. -/
def subsampleAt (subsamples : List Subsample) (number : Nat) : Except Failure Subsample :=
  match subsamples[number]? with
  | some subsample => .ok subsample
  | none => .error (.noSubsample number)

/-- The hit with a number. -/
def hitAt (hits : Hits) (index : Nat) : Except Failure Hit :=
  match hits.get? index with
  | some hit => .ok hit
  | none => .error (.noHit index hits.length)

/-- One round for a curve and its last node: the curve with two more nodes, the last of
them, and the place of the next hit of the subsample where it is still looked at. -/
def round
    (subsamples : List Subsample)
    (curve : Curve)
    (previous : Node)
    (place : Place) : Except Failure (Curve × Node × Option Place) := do
  let subsample ← subsampleAt subsamples place.subsample
  let hit ← hitAt subsample.hits place.index
  let depth := hit.depth.max previous.depth
  let delta := hit.opacity * (-subsample.weight / totalWeight subsamples)
  let before := (previous.visibility + slope * (depth - previous.depth)).clampNonNegative
  let after := (before + delta).clampNonNegative
  let curve ← (curve.push ⟨depth, before⟩).mapError .misplacedNode
  let curve ← (curve.push ⟨depth, after⟩).mapError .misplacedNode
  let next :=
    if place.running.isBlack then none
    else (subsample.hits.get? (place.index + 1)).map fun next =>
      { depth := next.depth
        subsample := place.subsample
        index := place.index + 1
        running := (place.running + delta).clampNonNegative }
  return (curve, ⟨depth, after⟩, next)

/-- No more than `count` rounds, as long as there are places and the last node is not
black. -/
def rounds
    (subsamples : List Subsample) :
    Nat -> Curve -> Node -> List Place -> Except Failure Curve
  | _, curve, _, [] => .ok curve
  | 0, _, _, _ :: _ => .error .unfinished
  | count + 1, curve, previous, place :: rest => do
      let (curve, last, next) ← round subsamples curve previous place
      if last.visibility.isBlack then return curve
      rounds subsamples count curve last (Place.requeue next rest)

/-- The merge as a loop. -/
def loop (subsamples : List Subsample) : Except Failure Curve :=
  if totalWeight subsamples ≤ Single.zero then .ok Curve.fullyVisible
  else
    let places := subsamples.zipIdx.filterMap fun numbered => Place.first numbered.2 numbered.1
    rounds subsamples (hitCount subsamples) Curve.fullyVisible Node.start
      (places.foldr Place.enqueue [])

/-! ## Hits left -/

/-- The number of hits of all cursors of a queue, with those behind. -/
def remaining (queue : List Cursor) : Nat :=
  (queue.map fun cursor => cursor.behind.length + 1).sum

variable {lengths : Nat -> Nat} {cursor : Cursor} {queue rest : List Cursor}

theorem length_pending (lengths : Nat -> Nat) (queue : List Cursor) :
    (pending lengths queue).length = remaining queue := by
  simp [pending, remaining, List.length_flatMap, Cursor.pending, crossingsFrom]

theorem remaining_perm {left right : List Cursor} (perm : left.Perm right) :
    remaining left = remaining right :=
  (perm.map _).sum_nat

/-- Each round takes at least one hit. -/
theorem remaining_requeue_lt (cursor : Cursor) (rest : List Cursor) :
    remaining (requeue cursor rest) < remaining (cursor :: rest) := by
  cases advanced : cursor.advance with
  | none =>
      simp only [requeue, advanced, remaining, List.map_cons, List.sum_cons]
      omega
  | some next =>
      have behind_eq := (Cursor.advance_eq_some_iff.mp advanced).2.1
      rw [requeue, advanced, remaining_perm (enqueue_perm next rest)]
      simp only [remaining, List.map_cons, List.sum_cons, behind_eq, List.length_cons]
      omega

theorem remaining_initial (subsamples : List Subsample) :
    remaining (initial subsamples) = (crossings subsamples).length := by
  rw [initial, remaining_perm (foldr_enqueue_perm (cursors subsamples)),
    ← length_pending (hitsOf subsamples), pending_cursors]

theorem remaining_initial_le (subsamples : List Subsample) :
    remaining (initial subsamples) ≤ hitCount subsamples := by
  rw [remaining_initial]
  exact length_crossings_le subsamples

/-! ## Places of cursors -/

/-- A place is that of the hit of a cursor. -/
structure Place.Marks
    (subsamples : List Subsample)
    (place : Place)
    (cursor : Cursor) : Prop where
  depth_eq : place.depth = cursor.hit.depth
  subsample_eq : place.subsample = cursor.subsample
  running_eq : place.running = cursor.running
  stored : ∃ subsample, subsamples[cursor.subsample]? = some subsample ∧
    subsample.hits.toList.drop place.index = cursor.hit :: cursor.behind ∧
    cursor.share = -subsample.weight / totalWeight subsamples

section Places

variable {subsamples : List Subsample} {place : Place} {places : List Place}

theorem Place.Marks.isBefore_eq
    {other : Place}
    {otherCursor : Cursor}
    (marks : place.Marks subsamples cursor)
    (otherMarks : other.Marks subsamples otherCursor) :
    place.isBefore other = cursor.isBefore otherCursor := by
  rw [Place.isBefore, Cursor.isBefore, marks.depth_eq, marks.subsample_eq, otherMarks.depth_eq,
    otherMarks.subsample_eq]

theorem Place.Marks.enqueue
    (marks : place.Marks subsamples cursor)
    (queued : List.Forall₂ (Place.Marks subsamples) places queue) :
    List.Forall₂ (Place.Marks subsamples) (place.enqueue places)
      (Merge.enqueue cursor queue) := by
  induction queued with
  | nil => exact .cons marks .nil
  | cons firstMarks restMarks inductionHypothesis =>
      rw [Place.enqueue, Merge.enqueue, marks.isBefore_eq firstMarks]
      split
      · exact .cons marks (.cons firstMarks restMarks)
      · exact .cons firstMarks inductionHypothesis

theorem marks_requeue
    {next : Option Place}
    (marks : Option.Rel (Place.Marks subsamples) next cursor.advance)
    (queued : List.Forall₂ (Place.Marks subsamples) places rest) :
    List.Forall₂ (Place.Marks subsamples) (Place.requeue next places)
      (requeue cursor rest) := by
  unfold Place.requeue requeue
  generalize cursor.advance = following at marks
  cases marks with
  | none => exact queued
  | some nextMarks => exact nextMarks.enqueue queued

theorem marks_foldr_enqueue
    (queued : List.Forall₂ (Place.Marks subsamples) places queue) :
    List.Forall₂ (Place.Marks subsamples) (places.foldr Place.enqueue [])
      (queue.foldr Merge.enqueue []) := by
  induction queued with
  | nil => exact .nil
  | cons firstMarks restMarks inductionHypothesis => exact firstMarks.enqueue inductionHypothesis

/-- The first places are those of the first cursors. -/
theorem marks_first (subsamples : List Subsample) :
    List.Forall₂ (Place.Marks subsamples)
      (subsamples.zipIdx.filterMap fun numbered => Place.first numbered.2 numbered.1)
      (cursors subsamples) := by
  rw [cursors_eq]
  have stored : ∀ numbered ∈ subsamples.zipIdx, subsamples[numbered.2]? = some numbered.1 :=
    fun numbered isNumbered => List.mk_mem_zipIdx_iff_getElem?.mp isNumbered
  generalize subsamples.zipIdx = numbereds at stored
  induction numbereds with
  | nil => exact .nil
  | cons numbered rest inductionHypothesis =>
      have restMarks := inductionHypothesis fun other inRest =>
        stored other (List.mem_cons_of_mem _ inRest)
      have found := stored numbered List.mem_cons_self
      rw [List.filterMap_cons, List.filterMap_cons]
      cases contributes : numbered.1.contributes with
      | false =>
          simp only [Place.first, firstCursor, contributes]
          exact restMarks
      | true =>
          obtain ⟨hit, behind, toList_eq⟩ := toList_eq_cons contributes
          simp only [Place.first, firstCursor, contributes, Hits.get?, toList_eq,
            List.getElem?_cons_zero]
          exact .cons ⟨rfl, rfl, rfl, numbered.1, found, toList_eq, rfl⟩ restMarks

/-! ## No round fails -/

variable {curve : Curve} {previous : Node}

theorem push_eq_ok
    (node : Node)
    (isLast : curve.nodes.getLast? = some previous)
    (ordered : previous.depth ≤ node.depth) :
    curve.push node = .ok ⟨curve.nodes ++ [node]⟩ := by
  simp only [Curve.push, isLast, if_pos ordered]

/-- A round appends the two nodes of its hit, and goes on with the next hit of the
cursor. -/
theorem round_eq_ok
    (marks : place.Marks subsamples cursor)
    (isLast : curve.nodes.getLast? = some previous)
    (isNumber : previous.depth ≤ previous.depth) :
    ∃ next, round subsamples curve previous place =
        .ok (⟨curve.nodes ++ [(step previous cursor).1, (step previous cursor).2]⟩,
          (step previous cursor).2, next) ∧
      Option.Rel (Place.Marks subsamples) next cursor.advance := by
  obtain ⟨subsample, found, dropped, share_eq⟩ := marks.stored
  have ordered := Single.le_max isNumber cursor.hit.depth
  have hit_eq : subsample.hits.get? place.index = some cursor.hit := by
    rw [Hits.get?, ← List.head?_drop, dropped, List.head?_cons]
  have next_eq : subsample.hits.get? (place.index + 1) = cursor.behind.head? := by
    rw [Hits.get?, ← List.head?_drop, ← List.tail_drop, dropped, List.tail_cons]
  have delta_eq : cursor.hit.opacity * (-subsample.weight / totalWeight subsamples) =
      cursor.delta := by
    rw [Cursor.delta, share_eq]
  have before := push_eq_ok (step previous cursor).1 isLast ordered
  have beforeIsLast : (Curve.mk (curve.nodes ++ [(step previous cursor).1])).nodes.getLast? =
      some (step previous cursor).1 := List.getLast?_concat
  have after := push_eq_ok (step previous cursor).2 beforeIsLast (Single.le_self_of_le ordered)
  simp only [step, List.append_assoc, List.cons_append, List.nil_append] at before after
  simp only [round, subsampleAt, marks.subsample_eq, found, hitAt, hit_eq, delta_eq, next_eq,
    bind, Except.bind, before, after, Except.mapError]
  refine ⟨_, rfl, ?_⟩
  rw [Cursor.advance, marks.running_eq]
  cases behind_eq : cursor.behind with
  | nil =>
      simp only [List.head?_nil, Option.map_none, ite_self]
      exact .none
  | cons hit behind =>
      split
      · exact .none
      · have behindDropped : subsample.hits.toList.drop (place.index + 1) = hit :: behind := by
          rw [← List.tail_drop, dropped, List.tail_cons, behind_eq]
        exact .some ⟨rfl, rfl, rfl, subsample, found, behindDropped, share_eq⟩

/-- The rounds append the nodes of the merge. -/
theorem rounds_eq_ok
    {count : Nat}
    (queued : List.Forall₂ (Place.Marks subsamples) places queue)
    (isLast : curve.nodes.getLast? = some previous)
    (isNumber : previous.depth ≤ previous.depth)
    (enough : remaining queue ≤ count) :
    rounds subsamples count curve previous places =
      .ok ⟨curve.nodes ++ nodesFrom previous count queue⟩ := by
  induction count generalizing curve previous places queue with
  | zero =>
      cases queued with
      | nil => simp [rounds, nodesFrom]
      | cons marks restMarks =>
          simp only [remaining, List.map_cons, List.sum_cons] at enough
          omega
  | succ count inductionHypothesis =>
      cases queued with
      | nil => simp [rounds, nodesFrom]
      | @cons place cursor places rest marks restMarks =>
          obtain ⟨next, round_eq, next_marks⟩ := round_eq_ok marks isLast isNumber
          have stays := Single.le_self_of_le (Single.le_max isNumber cursor.hit.depth)
          have enoughBehind : remaining (requeue cursor rest) ≤ count :=
            Nat.le_of_lt_succ (Nat.lt_of_lt_of_le (remaining_requeue_lt cursor rest) enough)
          have requeued := marks_requeue next_marks restMarks
          have afterIsLast :
              (Curve.mk
                (curve.nodes ++ [(step previous cursor).1, (step previous cursor).2])).nodes.getLast? =
                some (step previous cursor).2 := by simp
          have behind := inductionHypothesis requeued afterIsLast stays enoughBehind
          simp only [rounds, round_eq, bind, Except.bind, nodesFrom_cons, behind]
          split
          · rfl
          · simp

end Places

/-- The loop never fails, whatever the subsamples are, and gives the merged curve. -/
theorem loop_eq_ok (subsamples : List Subsample) : loop subsamples = .ok (merge subsamples) := by
  unfold loop merge
  split
  · rfl
  · exact rounds_eq_ok (marks_foldr_enqueue (marks_first subsamples)) rfl (by decide)
      (remaining_initial_le subsamples)

end Merge
end DeepShadow
