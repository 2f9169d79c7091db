import DeepShadow.Proofs.Visibility.Reference

/-!
# The queue of cursors

The crossings still to come are those of the hits of all queued cursors, and of the
hits behind them.  The first cursor of a sorted queue is at the crossing that is ahead
of all others, and putting the cursor back at its next hit takes this crossing away
and no other one.
-/

namespace DeepShadow
namespace Merge

/-! ## Crossings of a cursor -/

theorem mem_crossingsFrom
    {crossing : Crossing}
    {subsample first : Nat}
    {share : Single}
    {hits : List Hit} :
    crossing ∈ crossingsFrom subsample share first hits ↔
      crossing.subsample = subsample ∧ crossing.share = share ∧ first ≤ crossing.index ∧
        hits[crossing.index - first]? = some crossing.hit := by
  simp only [crossingsFrom, List.mem_map, Prod.exists, List.mk_mem_zipIdx_iff_le_and_getElem?_sub]
  constructor
  · rintro ⟨hit, index, ⟨behind, found⟩, rfl⟩
    exact ⟨rfl, rfl, behind, found⟩
  · rintro ⟨rfl, rfl, behind, found⟩
    exact ⟨crossing.hit, crossing.index, ⟨behind, found⟩, rfl⟩

theorem crossingsFrom_cons
    (subsample first : Nat)
    (share : Single)
    (hit : Hit)
    (hits : List Hit) :
    crossingsFrom subsample share first (hit :: hits) =
      ⟨subsample, first, share, hit⟩ :: crossingsFrom subsample share (first + 1) hits := by
  simp [crossingsFrom, List.zipIdx_cons]

theorem places_crossingsFrom
    (subsample first : Nat)
    (share : Single)
    (hits : List Hit) :
    ((crossingsFrom subsample share first hits).map Crossing.place).Nodup := by
  have places : (crossingsFrom subsample share first hits).map Crossing.place =
      (List.range' first hits.length).map fun index => (subsample, index) := by
    rw [← List.zipIdx_map_snd, List.map_map, crossingsFrom, List.map_map]
    rfl
  rw [places]
  apply List.Nodup.map _ List.nodup_range'
  intro first second same
  simpa using same

namespace Cursor

/-- The number of the hit of a cursor, for the numbers of hits of all subsamples. -/
def index (lengths : Nat -> Nat) (cursor : Cursor) : Nat :=
  lengths cursor.subsample - (cursor.behind.length + 1)

/-- The crossing of the hit of a cursor. -/
def crossing (lengths : Nat -> Nat) (cursor : Cursor) : Crossing :=
  ⟨cursor.subsample, cursor.index lengths, cursor.share, cursor.hit⟩

/-- The crossings of the hit of a cursor and of those behind it. -/
def pending (lengths : Nat -> Nat) (cursor : Cursor) : List Crossing :=
  crossingsFrom cursor.subsample cursor.share (cursor.index lengths)
    (cursor.hit :: cursor.behind)

/-- What holds of each cursor in a queue. -/
structure Regular (lengths : Nat -> Nat) (cursor : Cursor) : Prop where
  counted : cursor.behind.length < lengths cursor.subsample
  proper : ∀ hit ∈ cursor.hit :: cursor.behind, hit.Proper
  ascending : (cursor.hit :: cursor.behind).Pairwise fun front behind =>
    front.depth.totalKey ≤ behind.depth.totalKey
  share : cursor.share.isNaN = true ∨ cursor.share.negative = true
  running : cursor.running.IsLevel

variable {lengths : Nat -> Nat} {left middle right cursor next : Cursor}

theorem isBefore_iff :
    left.isBefore right = true ↔
      left.hit.depth.totalKey < right.hit.depth.totalKey ∨
        left.hit.depth.totalKey = right.hit.depth.totalKey ∧
          left.subsample < right.subsample := by
  simp [isBefore]

theorem isBefore_eq_false_trans
    (first : middle.isBefore left = false)
    (second : right.isBefore middle = false) :
    right.isBefore left = false := by
  rw [← Bool.not_eq_true, isBefore_iff] at first second ⊢
  omega

theorem isBefore_eq_false_of_isBefore (ahead : left.isBefore right = true) :
    right.isBefore left = false := by
  rw [← Bool.not_eq_true, isBefore_iff]
  rw [isBefore_iff] at ahead
  omega

theorem pending_eq_cons (lengths : Nat -> Nat) (cursor : Cursor) :
    cursor.pending lengths = cursor.crossing lengths ::
      crossingsFrom cursor.subsample cursor.share (cursor.index lengths + 1) cursor.behind :=
  crossingsFrom_cons _ _ _ _ _

/-- A cursor whose running visibility is not used up is put at its next hit. -/
theorem advance_eq
    (visible : cursor.running.isBlack = false)
    {hit : Hit}
    {behind : List Hit}
    (behind_eq : cursor.behind = hit :: behind) :
    cursor.advance = some
      { cursor with hit, behind, running := cursor.running.lower cursor.delta } := by
  simp [advance, behind_eq, visible, Color.lower]

/-- The cursor at the next hit, where the running visibility is not used up. -/
theorem advance_eq_some_iff :
    cursor.advance = some next ↔
      cursor.running.isBlack = false ∧ cursor.behind = next.hit :: next.behind ∧
        next.subsample = cursor.subsample ∧ next.share = cursor.share ∧
        next.running = cursor.running.lower cursor.delta := by
  constructor
  · intro advanced
    simp only [advance] at advanced
    split at advanced
    next => cases advanced
    next hit behind behind_eq =>
      split at advanced
      next => cases advanced
      next visible =>
        cases advanced
        exact ⟨Bool.not_eq_true _ ▸ visible, behind_eq, rfl, rfl, rfl⟩
  · rintro ⟨visible, behind_eq, subsample_eq, share_eq, running_eq⟩
    rw [advance_eq visible behind_eq, ← subsample_eq, ← share_eq, ← running_eq]

namespace Regular

variable (regular : cursor.Regular lengths)

include regular

theorem lowers : cursor.delta.Lowers :=
  (regular.proper cursor.hit List.mem_cons_self).lowers regular.share

theorem advance (found : cursor.advance = some next) :
    next.Regular lengths ∧ next.subsample = cursor.subsample ∧
      next.running = cursor.running.lower cursor.delta := by
  obtain ⟨-, behind_eq, subsample_eq, share_eq, running_eq⟩ := advance_eq_some_iff.mp found
  have counted := regular.counted
  have proper := regular.proper
  have ascending := regular.ascending
  rw [behind_eq] at counted proper ascending
  refine ⟨⟨?_, ?_, ascending.tail, share_eq ▸ regular.share, ?_⟩, subsample_eq, running_eq⟩
  · rw [subsample_eq]
    exact Nat.lt_of_succ_lt counted
  · exact fun other inBehind => proper other (List.mem_cons_of_mem _ inBehind)
  · exact running_eq ▸ regular.running.lower regular.lowers

/-- The crossing of the hit is ahead of those behind it. -/
theorem isAhead_of_mem
    {crossing : Crossing}
    (isPending : crossing ∈ cursor.pending lengths) :
    (cursor.crossing lengths).isAhead crossing = true := by
  obtain ⟨subsample_eq, -, behind, found⟩ := mem_crossingsFrom.mp isPending
  have ordered : cursor.hit.depth.totalKey ≤ crossing.hit.depth.totalKey := by
    rcases List.mem_cons.mp (List.mem_of_getElem? found) with same | inBehind
    · exact Int.le_of_eq (by rw [same])
    · exact (List.pairwise_cons.mp regular.ascending).1 _ inBehind
  rw [Crossing.isAhead_iff]
  simp only [Cursor.crossing]
  omega

theorem proper_of_mem
    {crossing : Crossing}
    (isPending : crossing ∈ cursor.pending lengths) :
    crossing.Proper := by
  obtain ⟨-, share_eq, -, found⟩ := mem_crossingsFrom.mp isPending
  exact ⟨regular.proper _ (List.mem_of_getElem? found), share_eq ▸ regular.share⟩

end Regular
end Cursor

/-! ## Queues -/

/-- The crossings of all cursors of a queue. -/
def pending (lengths : Nat -> Nat) (queue : List Cursor) : List Crossing :=
  queue.flatMap (Cursor.pending lengths)

/-- No cursor of the queue is before one in front of it. -/
def Sorted (queue : List Cursor) : Prop :=
  queue.Pairwise fun first second => second.isBefore first = false

/-- The queue behind a round of the merge. -/
def requeue (cursor : Cursor) (rest : List Cursor) : List Cursor :=
  match cursor.advance with
  | some next => enqueue next rest
  | none => rest

variable {lengths : Nat -> Nat} {cursor other : Cursor} {queue rest : List Cursor}

theorem enqueue_perm (cursor : Cursor) (queue : List Cursor) :
    (enqueue cursor queue).Perm (cursor :: queue) := by
  induction queue with
  | nil => exact List.Perm.refl _
  | cons first rest inductionHypothesis =>
      rw [enqueue]
      split
      · exact List.Perm.refl _
      · exact (inductionHypothesis.cons first).trans (List.Perm.swap cursor first rest)

theorem sorted_enqueue
    (cursor : Cursor)
    (sorted : Sorted queue) :
    Sorted (enqueue cursor queue) := by
  induction queue with
  | nil => exact List.pairwise_singleton _ _
  | cons first rest inductionHypothesis =>
      obtain ⟨firstSorted, restSorted⟩ := List.pairwise_cons.mp sorted
      rw [enqueue]
      split
      next ahead =>
        have notBefore := Cursor.isBefore_eq_false_of_isBefore ahead
        apply List.Pairwise.cons _ sorted
        intro other inQueue
        rcases List.mem_cons.mp inQueue with rfl | inRest
        · exact notBefore
        · exact Cursor.isBefore_eq_false_trans notBefore (firstSorted other inRest)
      next notAhead =>
        apply List.Pairwise.cons _ (inductionHypothesis restSorted)
        intro other inQueue
        rcases List.mem_cons.mp ((enqueue_perm cursor rest).mem_iff.mp inQueue) with rfl | inRest
        · exact Bool.not_eq_true _ ▸ notAhead
        · exact firstSorted other inRest

theorem foldr_enqueue_perm (queue : List Cursor) :
    (queue.foldr enqueue []).Perm queue := by
  induction queue with
  | nil => exact List.Perm.refl _
  | cons cursor rest inductionHypothesis =>
      exact (enqueue_perm cursor _).trans (inductionHypothesis.cons cursor)

theorem sorted_foldr_enqueue (queue : List Cursor) : Sorted (queue.foldr enqueue []) := by
  induction queue with
  | nil => exact List.Pairwise.nil
  | cons cursor rest inductionHypothesis => exact sorted_enqueue cursor inductionHypothesis

/-- A cursor of the queue behind a round is one of those that were waiting, or the
cursor of the round at its next hit. -/
theorem mem_requeue (isQueued : other ∈ requeue cursor rest) :
    other ∈ rest ∨ cursor.advance = some other := by
  cases advanced : cursor.advance with
  | none =>
      rw [requeue, advanced] at isQueued
      exact Or.inl isQueued
  | some next =>
      rw [requeue, advanced] at isQueued
      rcases List.mem_cons.mp ((enqueue_perm next rest).mem_iff.mp isQueued) with rfl | inRest
      · exact Or.inr rfl
      · exact Or.inl inRest

/-- A round leaves cursors of different subsamples. -/
theorem distinct_requeue
    (distinct : ((cursor :: rest).map Cursor.subsample).Nodup) :
    ((requeue cursor rest).map Cursor.subsample).Nodup := by
  unfold requeue
  cases advanced : cursor.advance with
  | none => exact (List.nodup_cons.mp distinct).2
  | some next =>
      have subsample_eq := (Cursor.advance_eq_some_iff.mp advanced).2.2.1
      rw [((enqueue_perm next rest).map Cursor.subsample).nodup_iff, List.map_cons, subsample_eq]
      exact distinct

theorem pending_perm {left right : List Cursor} (perm : left.Perm right) :
    (pending lengths left).Perm (pending lengths right) :=
  perm.flatMap_right _

/-- A round takes away the crossing of its cursor, and no other one. -/
theorem pending_cons_perm
    (regular : cursor.Regular lengths)
    (visible : cursor.running.isBlack = false)
    (rest : List Cursor) :
    (pending lengths (cursor :: rest)).Perm
      (cursor.crossing lengths :: pending lengths (requeue cursor rest)) := by
  rw [pending, List.flatMap_cons, Cursor.pending_eq_cons, List.cons_append]
  apply List.Perm.cons
  cases behind_eq : cursor.behind with
  | nil =>
      have advance_eq : cursor.advance = none := by simp [Cursor.advance, behind_eq]
      simp [requeue, advance_eq, pending, crossingsFrom]
  | cons hit behind =>
      have counted := regular.counted
      rw [behind_eq, List.length_cons] at counted
      let next : Cursor := { cursor with hit, behind, running := cursor.running.lower cursor.delta }
      have index_eq : cursor.index lengths + 1 = next.index lengths := by
        simp only [Cursor.index, behind_eq, List.length_cons, next]
        omega
      have queue_eq : requeue cursor rest = enqueue next rest := by
        rw [requeue, Cursor.advance_eq visible behind_eq]
      rw [queue_eq, index_eq]
      exact (pending_perm (enqueue_perm next rest)).symm

/-- Cursors of different subsamples have crossings with different places. -/
theorem places_pending (distinct : (queue.map Cursor.subsample).Nodup) :
    ((pending lengths queue).map Crossing.place).Nodup := by
  rw [pending, List.map_flatMap, List.nodup_flatMap]
  refine ⟨fun cursor _ => places_crossingsFrom _ _ _ _, ?_⟩
  apply (List.pairwise_map.mp distinct).imp
  intro left right different place inLeft inRight
  obtain ⟨first, firstPending, rfl⟩ := List.mem_map.mp inLeft
  obtain ⟨second, secondPending, same⟩ := List.mem_map.mp inRight
  have subsamples : second.subsample = first.subsample := congrArg Prod.fst same
  rw [(mem_crossingsFrom.mp firstPending).1, (mem_crossingsFrom.mp secondPending).1] at subsamples
  exact different subsamples.symm

/-- The first cursor of a sorted queue is at the crossing that is ahead of all. -/
theorem isAhead_of_mem_pending
    (regular : ∀ other ∈ cursor :: rest, other.Regular lengths)
    (sorted : Sorted (cursor :: rest))
    (distinct : ((cursor :: rest).map Cursor.subsample).Nodup)
    {crossing : Crossing}
    (isPending : crossing ∈ pending lengths (cursor :: rest)) :
    (cursor.crossing lengths).isAhead crossing = true := by
  obtain ⟨other, isQueued, isPendingOfOther⟩ := List.mem_flatMap.mp isPending
  rcases List.mem_cons.mp isQueued with rfl | inRest
  · exact (regular other isQueued).isAhead_of_mem isPendingOfOther
  have toOther := (List.pairwise_cons.mp sorted).1 other inRest
  have different : cursor.subsample ≠ other.subsample :=
    (List.pairwise_cons.mp (List.pairwise_map.mp distinct)).1 other inRest
  have fromOther := (regular other isQueued).isAhead_of_mem isPendingOfOther
  have subsample_eq := (mem_crossingsFrom.mp isPendingOfOther).1
  rw [← Bool.not_eq_true, Cursor.isBefore_iff] at toOther
  rw [Crossing.isAhead_iff] at fromOther ⊢
  simp only [Cursor.crossing] at fromOther ⊢
  omega

end Merge
end DeepShadow
