import DeepShadow.Proofs.Visibility.Queue

/-!
# The merge is the fold over all crossings

In front of each round of the merge the visibility that is left is nowhere above the
running visibility of any queued cursor.  A cursor with nothing left to be seen of it
is therefore met only when nothing is left at all, and no hit is passed over before
the curve ends.  The nodes of the merge are those of the fold over all crossings, up to
the first black one, and at each depth both curves have the same visibility.
-/

namespace DeepShadow
namespace Merge

variable {lengths : Nat -> Nat} {previous : Node} {cursor : Cursor} {queue rest : List Cursor}

/-- What holds in front of each round of the merge. -/
structure Sound (lengths : Nat -> Nat) (previous : Node) (queue : List Cursor) : Prop where
  level : previous.visibility.IsLevel
  notBelow : Single.zero ≤ previous.depth
  finite : previous.depth.isFinite = true
  regular : ∀ cursor ∈ queue, cursor.Regular lengths
  atMost : ∀ cursor ∈ queue, previous.visibility.AtMost cursor.running
  sorted : Sorted queue
  distinct : (queue.map Cursor.subsample).Nodup

/-! ## One round -/

/-- The node just behind the hit of a cursor. -/
def nodeBehind (previous : Node) (cursor : Cursor) : Node :=
  ⟨cursor.hit.depth.max previous.depth, previous.visibility.lower cursor.delta⟩

/-- A round leaves the queue behind its cursor to the next one. -/
theorem nodesFrom_cons (count : Nat) :
    nodesFrom previous (count + 1) (cursor :: rest) =
      (step previous cursor).1 :: (step previous cursor).2 ::
        if (step previous cursor).2.visibility.isBlack then []
        else nodesFrom (step previous cursor).2 count (requeue cursor rest) := rfl

/-- Between finite depths the visibility does not change. -/
theorem lower_slope
    {depth : Single}
    (level : previous.visibility.IsLevel)
    (notBelow : Single.zero ≤ previous.depth)
    (ordered : previous.depth ≤ depth)
    (finite : previous.depth.isFinite = true)
    (finiteToo : depth.isFinite = true) :
    previous.visibility.lower (slope * (depth - previous.depth)) = previous.visibility := by
  apply level.lower_of_magnitude_eq_zero
  intro channel
  rw [slope, Color.value_mul, Color.value_black]
  exact Single.magnitude_zero_mul (Single.isFinite_sub notBelow ordered finite finiteToo)

section Round

variable (sound : Sound lengths previous (cursor :: rest))

include sound

theorem Sound.head : cursor.Regular lengths := sound.regular cursor List.mem_cons_self

theorem Sound.depth_le : previous.depth ≤ cursor.hit.depth.max previous.depth :=
  Single.le_max (Single.le_self_of_le sound.notBelow) _

theorem Sound.isFinite_max : (cursor.hit.depth.max previous.depth).isFinite = true := by
  have hitFinite := (sound.head.proper cursor.hit List.mem_cons_self).depth
  simp only [Single.max]
  split_ifs
  · exact sound.finite
  · exact sound.finite
  · exact hitFinite

/-- Between hits the visibility does not change, and a hit lowers it. -/
theorem Sound.step_eq :
    step previous cursor =
      (⟨cursor.hit.depth.max previous.depth, previous.visibility⟩,
        nodeBehind previous cursor) := by
  have before := lower_slope sound.level sound.notBelow sound.depth_le sound.finite
    sound.isFinite_max
  rw [Color.lower] at before
  simp only [step, before, nodeBehind, Color.lower]

/-- While something is left to be seen, something is left of each queued cursor. -/
theorem Sound.visible (notBlack : previous.visibility.isBlack = false) :
    cursor.running.isBlack = false := by
  rw [← Bool.not_eq_true] at notBlack ⊢
  exact mt (sound.atMost cursor List.mem_cons_self).isBlack notBlack

/-- A round keeps what holds in front of it. -/
theorem Sound.next : Sound lengths (nodeBehind previous cursor) (requeue cursor rest) := by
  have lowers := sound.head.lowers
  have restRegular : ∀ other ∈ rest, other.Regular lengths :=
    fun other inRest => sound.regular other (List.mem_cons_of_mem _ inRest)
  obtain ⟨-, restSorted⟩ := List.pairwise_cons.mp sound.sorted
  refine ⟨sound.level.lower lowers, Single.le_trans sound.notBelow sound.depth_le,
    sound.isFinite_max, ?_, ?_, ?_, ?_⟩
  · intro other isQueued
    rcases mem_requeue isQueued with inRest | advanced
    · exact restRegular other inRest
    · exact (sound.head.advance advanced).1
  · intro other isQueued
    rcases mem_requeue isQueued with inRest | advanced
    · exact (sound.level.lower_atMost lowers).trans
        (sound.atMost other (List.mem_cons_of_mem _ inRest))
    · rw [(sound.head.advance advanced).2.2]
      exact sound.level.lower_atMost_lower lowers sound.head.running
        (sound.atMost cursor List.mem_cons_self)
  · rw [requeue]
    split
    · exact sorted_enqueue _ restSorted
    · exact restSorted
  · exact distinct_requeue sound.distinct

end Round

/-! ## All rounds -/

/-- The nodes of the merge are those of the fold over the crossings still to come, up
to the first black one. -/
theorem Sound.nodesFrom_eq
    {count : Nat}
    (sound : Sound lengths previous queue)
    (notBlack : previous.visibility.isBlack = false)
    (enough : (pending lengths queue).length ≤ count) :
    nodesFrom previous count queue =
      upToBlack (folded previous (inOrder (pending lengths queue))) := by
  induction count generalizing previous queue with
  | zero =>
      have nothing : pending lengths queue = [] :=
        List.length_eq_zero_iff.mp (Nat.le_zero.mp enough)
      simp [nodesFrom, nothing, inOrder, folded, upToBlack]
  | succ count inductionHypothesis =>
      cases queue with
      | nil => simp [nodesFrom, pending, inOrder, folded, upToBlack]
      | cons cursor rest =>
          have perm := pending_cons_perm sound.head (sound.visible notBlack) rest
          have ahead : ∀ crossing ∈ pending lengths (requeue cursor rest),
              (cursor.crossing lengths).isAhead crossing = true := by
            intro crossing isPending
            apply isAhead_of_mem_pending sound.regular sound.sorted sound.distinct
            exact perm.mem_iff.mpr (List.mem_cons_of_mem _ isPending)
          have enoughBehind : (pending lengths (requeue cursor rest)).length ≤ count := by
            rw [perm.length_eq, List.length_cons] at enough
            exact Nat.le_of_succ_le_succ enough
          rw [nodesFrom_cons, sound.step_eq, inOrder_eq_cons (places_pending sound.distinct) perm
            ahead]
          have folded_eq : folded previous
              (cursor.crossing lengths :: inOrder (pending lengths (requeue cursor rest))) =
                ⟨cursor.hit.depth.max previous.depth, previous.visibility⟩ ::
                  nodeBehind previous cursor :: folded (nodeBehind previous cursor)
                    (inOrder (pending lengths (requeue cursor rest))) := rfl
          simp only [folded_eq, upToBlack_cons, notBlack, Bool.false_eq_true, if_false]
          split
          · rfl
          next visible =>
            rw [Bool.not_eq_true] at visible
            rw [inductionHypothesis sound.next visible enoughBehind]

/-! ## The first round -/

/-- The number of hits of each subsample. -/
def hitsOf (subsamples : List Subsample) (number : Nat) : Nat :=
  (subsamples[number]?.map fun subsample => subsample.hits.length).getD 0

/-- The sorted queue of the first hits. -/
def initial (subsamples : List Subsample) : List Cursor :=
  (cursors subsamples).foldr enqueue []

/-- The cursor at the first hit of a subsample that contributes. -/
def firstCursor (total : Single) (number : Nat) (subsample : Subsample) : Option Cursor :=
  match subsample.contributes, subsample.hits.toList with
  | true, hit :: behind => some
      { subsample := number
        share := -subsample.weight / total
        hit
        behind
        running := Color.white }
  | _, _ => none

theorem cursors_eq (subsamples : List Subsample) :
    cursors subsamples = subsamples.zipIdx.filterMap fun numbered =>
      firstCursor (totalWeight subsamples) numbered.2 numbered.1 := rfl

theorem of_firstCursor_eq_some
    {total : Single}
    {number : Nat}
    {subsample : Subsample}
    (cursor_eq : firstCursor total number subsample = some cursor) :
    cursor.subsample = number ∧ subsample.contributes = true ∧
      subsample.hits.toList = cursor.hit :: cursor.behind ∧
      cursor.share = -subsample.weight / total ∧ cursor.running = Color.white := by
  simp only [firstCursor] at cursor_eq
  split at cursor_eq
  next hit behind contributes toList_eq =>
    cases cursor_eq
    exact ⟨rfl, contributes, toList_eq, rfl, rfl⟩
  next => cases cursor_eq

section Initial

variable {subsamples : List Subsample} {subsample : Subsample} {number : Nat}

theorem zero_lt_weight (contributes : subsample.contributes = true) :
    Single.zero < subsample.weight := by
  simp only [Subsample.contributes, Bool.and_eq_true, decide_eq_true_eq] at contributes
  exact contributes.1

theorem toList_eq_cons (contributes : subsample.contributes = true) :
    ∃ hit behind, subsample.hits.toList = hit :: behind := by
  simp only [Subsample.contributes, Hits.isEmpty, Bool.and_eq_true, Bool.not_eq_true',
    List.isEmpty_eq_false_iff] at contributes
  exact List.exists_cons_of_ne_nil contributes.2

theorem zero_lt_foldl_weight
    {total : Single}
    (notBelow : Single.zero ≤ total)
    (positive : ∀ subsample ∈ subsamples, Single.zero < subsample.weight)
    (some : Single.zero < total ∨ subsamples ≠ []) :
    Single.zero < subsamples.foldl (fun total subsample => total + subsample.weight) total := by
  induction subsamples generalizing total with
  | nil => simpa using some
  | cons first rest inductionHypothesis =>
      have above := Single.zero_lt_add notBelow (positive first List.mem_cons_self)
      apply inductionHypothesis (Single.le_of_lt above)
      · exact fun other inRest => positive other (List.mem_cons_of_mem _ inRest)
      · exact Or.inl above

/-- The weights add up to a positive number as soon as a subsample contributes. -/
theorem zero_lt_totalWeight
    (isSubsample : subsample ∈ subsamples)
    (contributes : subsample.contributes = true) :
    Single.zero < totalWeight subsamples := by
  apply zero_lt_foldl_weight (by decide)
  · intro other isContributor
    exact zero_lt_weight (List.mem_filter.mp isContributor).2
  · right
    exact List.ne_nil_of_mem (List.mem_filter.mpr ⟨isSubsample, contributes⟩)

/-- The share of a subsample that contributes is negative or not a number. -/
theorem negative_share
    (isSubsample : subsample ∈ subsamples)
    (contributes : subsample.contributes = true) :
    (-subsample.weight / totalWeight subsamples).isNaN = true ∨
      (-subsample.weight / totalWeight subsamples).negative = true := by
  apply Single.negative_div
  · obtain ⟨-, positive, -⟩ := Single.zero_lt_iff.mp (zero_lt_weight contributes)
    rw [Single.negative_neg, positive, Bool.not_false]
  · exact Or.inr (Single.zero_lt_iff.mp (zero_lt_totalWeight isSubsample contributes)).2.1

theorem pending_cursors (subsamples : List Subsample) :
    pending (hitsOf subsamples) (cursors subsamples) = crossings subsamples := by
  simp only [pending, cursors_eq, crossings, List.filterMap_eq_flatMap_toList, List.flatMap_assoc]
  apply List.flatMap_congr
  rintro ⟨subsample, number⟩ isNumbered
  have found := List.mk_mem_zipIdx_iff_getElem?.mp isNumbered
  cases contributes : subsample.contributes with
  | false => simp [firstCursor, contributes]
  | true =>
      obtain ⟨hit, behind, toList_eq⟩ := toList_eq_cons contributes
      have length_eq : hitsOf subsamples number = behind.length + 1 := by
        simp [hitsOf, found, Hits.length, toList_eq]
      simp [firstCursor, contributes, toList_eq, Cursor.pending, Cursor.index, length_eq]

theorem mem_cursors (isFirst : cursor ∈ cursors subsamples) :
    ∃ subsample, subsamples[cursor.subsample]? = some subsample ∧
      subsample.contributes = true ∧ subsample.hits.toList = cursor.hit :: cursor.behind ∧
      cursor.share = -subsample.weight / totalWeight subsamples ∧
      cursor.running = Color.white := by
  rw [cursors_eq] at isFirst
  obtain ⟨⟨subsample, number⟩, isNumbered, cursor_eq⟩ := List.mem_filterMap.mp isFirst
  obtain ⟨rfl, contributes, toList_eq, rest⟩ := of_firstCursor_eq_some cursor_eq
  exact ⟨subsample, List.mk_mem_zipIdx_iff_getElem?.mp isNumbered, contributes, toList_eq, rest⟩

theorem distinct_cursors (subsamples : List Subsample) :
    ((cursors subsamples).map Cursor.subsample).Nodup := by
  have numbers : (subsamples.zipIdx.map Prod.snd).Nodup := by
    rw [List.zipIdx_map_snd]
    exact List.nodup_range'
  rw [cursors_eq]
  apply List.pairwise_map.mpr
  apply List.Pairwise.filterMap _ _ (List.pairwise_map.mp numbers)
  intro first second different left left_eq right right_eq
  rw [(of_firstCursor_eq_some left_eq).1, (of_firstCursor_eq_some right_eq).1]
  exact different

/-- The first round is sound where the hits of all subsamples are in order. -/
theorem sound_initial (ordered : ∀ subsample ∈ subsamples, subsample.Ordered) :
    Sound (hitsOf subsamples) Node.start (initial subsamples) := by
  have perm := foldr_enqueue_perm (cursors subsamples)
  have running : ∀ cursor ∈ initial subsamples, cursor.running = Color.white := by
    intro cursor isQueued
    obtain ⟨_, -, -, -, -, running_eq⟩ := mem_cursors (perm.mem_iff.mp isQueued)
    exact running_eq
  refine ⟨Color.isLevel_white, by decide, by decide, ?_, ?_, sorted_foldr_enqueue _, ?_⟩
  · intro cursor isQueued
    obtain ⟨subsample, found, contributes, toList_eq, share_eq, -⟩ :=
      mem_cursors (perm.mem_iff.mp isQueued)
    have isSubsample := List.mem_of_getElem? found
    have proper := (ordered subsample isSubsample).proper
    have ascending := (ordered subsample isSubsample).ascending
    rw [toList_eq] at proper ascending
    refine ⟨?_, proper, ascending, ?_, ?_⟩
    · simp [hitsOf, found, Hits.length, toList_eq]
    · exact share_eq ▸ negative_share isSubsample contributes
    · exact running cursor isQueued ▸ Color.isLevel_white
  · intro cursor isQueued
    rw [running cursor isQueued]
    exact Color.isLevel_white.atMost_self
  · exact (perm.map Cursor.subsample).nodup_iff.mpr (distinct_cursors subsamples)

/-- The number of hits of the subsamples that contribute. -/
def contributedHits (subsamples : List Subsample) : Nat :=
  ((subsamples.filter Subsample.contributes).map fun subsample => subsample.hits.length).sum

theorem length_crossings (subsamples : List Subsample) :
    (crossings subsamples).length = contributedHits subsamples := by
  have counted (total : Single) (first : Nat) :
      ((subsamples.zipIdx first).flatMap fun numbered =>
        if numbered.1.contributes then
          crossingsFrom numbered.2 (-numbered.1.weight / total) 0 numbered.1.hits.toList
        else []).length = contributedHits subsamples := by
    induction subsamples generalizing first with
    | nil => rfl
    | cons subsample rest inductionHypothesis =>
        rw [List.zipIdx_cons, List.flatMap_cons, List.length_append,
          inductionHypothesis (first + 1)]
        cases contributes : subsample.contributes with
        | false => simp [contributedHits, contributes]
        | true => simp [contributedHits, contributes, crossingsFrom, Hits.length]
  exact counted _ 0

theorem length_crossings_le (subsamples : List Subsample) :
    (crossings subsamples).length ≤ hitCount subsamples := by
  rw [length_crossings]
  induction subsamples with
  | nil => exact Nat.le_refl _
  | cons subsample rest inductionHypothesis =>
      unfold contributedHits
      rw [List.filter_cons]
      split
      · exact Nat.add_le_add_left inductionHypothesis _
      · exact Nat.le_trans inductionHypothesis (Nat.le_add_left _ _)

theorem crossings_proper
    (ordered : ∀ subsample ∈ subsamples, subsample.Ordered) :
    ∀ crossing ∈ inOrder (crossings subsamples), crossing.Proper := by
  intro crossing isCrossing
  rw [(inOrder_perm _).mem_iff, ← pending_cursors,
    ← (pending_perm (foldr_enqueue_perm (cursors subsamples))).mem_iff] at isCrossing
  obtain ⟨cursor, isQueued, isPending⟩ := List.mem_flatMap.mp isCrossing
  exact ((sound_initial ordered).regular cursor isQueued).proper_of_mem isPending

end Initial

/-- The last node and the queue in front of each round of the merge, and those that its
last round leaves. -/
inductive Visits (subsamples : List Subsample) : Node -> List Cursor -> Prop
  | start : Visits subsamples Node.start (initial subsamples)
  | round {previous : Node} {cursor : Cursor} {rest : List Cursor}
      (visited : Visits subsamples previous (cursor :: rest))
      (notBlack : previous.visibility.isBlack = false) :
      Visits subsamples (step previous cursor).2 (requeue cursor rest)

/-- What holds in front of the first round holds in front of all. -/
theorem Visits.sound
    {subsamples : List Subsample}
    (ordered : ∀ subsample ∈ subsamples, subsample.Ordered)
    (visited : Visits subsamples previous queue) :
    Sound (hitsOf subsamples) previous queue := by
  induction visited with
  | start => exact sound_initial ordered
  | round visited notBlack inductionHypothesis =>
      rw [inductionHypothesis.step_eq]
      exact inductionHypothesis.next

/-- The nodes of the merge are those of the fold up to the first black one. -/
theorem nodes_merge
    {subsamples : List Subsample}
    (ordered : ∀ subsample ∈ subsamples, subsample.Ordered) :
    (merge subsamples).nodes = upToBlack (reference subsamples).nodes := by
  have visible : Node.start.visibility.isBlack = false := by decide
  simp only [reference, upToBlack_cons, visible, Bool.false_eq_true, if_false, merge]
  split
  next notAbove =>
    -- Without a contributor there are no crossings.
    have none : crossings subsamples = [] := by
      simp only [crossings, List.flatMap_eq_nil_iff]
      rintro ⟨subsample, number⟩ isNumbered
      have isSubsample := List.mem_of_getElem? (List.mk_mem_zipIdx_iff_getElem?.mp isNumbered)
      apply if_neg
      intro contributes
      have below := (Single.le_iff_key.mp notAbove).2.2
      have above := (Single.lt_iff_key.mp (zero_lt_totalWeight isSubsample contributes)).2.2
      omega
    simp [none, inOrder, folded, upToBlack, Curve.fullyVisible]
  next =>
    have perm : (pending (hitsOf subsamples) (initial subsamples)).Perm (crossings subsamples) :=
      pending_cursors subsamples ▸ pending_perm (foldr_enqueue_perm (cursors subsamples))
    have sound := sound_initial ordered
    have places : ((pending (hitsOf subsamples) (initial subsamples)).map Crossing.place).Nodup :=
      places_pending sound.distinct
    have sorted_eq : inOrder (pending (hitsOf subsamples) (initial subsamples)) =
        inOrder (crossings subsamples) := by
      apply eq_of_perm _ _ (pairwise_inOrder _) (pairwise_inOrder _)
      · exact ((inOrder_perm _).map Crossing.place).nodup_iff.mpr places
      · exact ((inOrder_perm _).trans perm).trans (inOrder_perm _).symm
    have enough : (pending (hitsOf subsamples) (initial subsamples)).length ≤
        hitCount subsamples := by
      rw [perm.length_eq]
      exact length_crossings_le subsamples
    rw [← sorted_eq]
    exact congrArg (List.cons Node.start) (sound.nodesFrom_eq visible enough)

end Merge

/-- Where the hits of all subsamples are in order, the merge gives the nodes of the fold
over all crossings up to the first black one, and at each depth the visibility of the
whole fold; in front of each of its rounds and behind the last one, the visibility that
is left is nowhere above what is left to a queued subsample. -/
theorem merge_refines_reference
    (subsamples : List Subsample)
    (ordered : ∀ subsample ∈ subsamples, subsample.Ordered) :
    (merge subsamples).nodes = upToBlack (reference subsamples).nodes ∧
      (∀ depth, (merge subsamples).visibilityAt depth =
        (reference subsamples).visibilityAt depth) ∧
      ∀ previous queue, Merge.Visits subsamples previous queue ->
        ∀ cursor ∈ queue, previous.visibility.AtMost cursor.running := by
  have nodes_eq := Merge.nodes_merge ordered
  refine ⟨nodes_eq, ?_, ?_⟩
  · intro depth
    have level : Node.start.visibility.IsLevel := Color.isLevel_white
    have stays := stays_folded level (Merge.crossings_proper ordered)
    have answer := visibilityAt_upToBlack stays depth
    have merge_eq : merge subsamples = ⟨upToBlack (reference subsamples).nodes⟩ := by
      rw [← nodes_eq]
    rw [merge_eq]
    exact answer
  · intro previous queue visited
    exact (visited.sound ordered).atMost

namespace TwoSurfaces

/-- Two subsamples with the same weight, each with two opaque surfaces; the surface at
depth one half is on both of their ways. -/
def subsamples : List Subsample :=
  [⟨Single.one, .layered [Hit.ofDepth Single.half, Hit.ofDepth (Single.ofNat 3)]⟩,
    ⟨Single.one, .layered [Hit.ofDepth Single.half, Hit.ofDepth (Single.ofNat 2)]⟩]

theorem ordered_pair
    {front behind : Single}
    (frontFinite : front.isFinite = true)
    (behindFinite : behind.isFinite = true)
    (ascending : front.totalKey ≤ behind.totalKey) :
    Subsample.Ordered ⟨Single.one, .layered [Hit.ofDepth front, Hit.ofDepth behind]⟩ := by
  constructor
  · simp [Hits.toList, Hit.proper_ofDepth frontFinite, Hit.proper_ofDepth behindFinite]
  · simpa [Hits.toList, Hit.ofDepth] using ascending

theorem ordered : ∀ subsample ∈ subsamples, subsample.Ordered := by
  simp only [subsamples, List.forall_mem_cons, List.not_mem_nil, false_imp_iff, implies_true,
    and_true]
  constructor
  · exact ordered_pair (by decide) (by decide +kernel) (by decide +kernel)
  · exact ordered_pair (by decide) (by decide +kernel) (by decide +kernel)

end TwoSurfaces

/-- Both surfaces at depth one half are taken, and those behind them are left out: four
crossings make nine nodes, of which the first five are merged. -/
theorem merge_refines_reference_twoSurfaces :
    (∀ subsample ∈ TwoSurfaces.subsamples, subsample.Ordered) ∧
      (reference TwoSurfaces.subsamples).nodes.length = 9 ∧
      (merge TwoSurfaces.subsamples).nodes =
        [Node.start, ⟨Single.half, Color.white⟩, ⟨Single.half, Color.gray Single.half⟩,
          ⟨Single.half, Color.gray Single.half⟩, ⟨Single.half, Color.black⟩] ∧
      upToBlack (reference TwoSurfaces.subsamples).nodes =
        (merge TwoSurfaces.subsamples).nodes ∧
      (reference TwoSurfaces.subsamples).visibilityAt Single.one = Color.black := by
  have crossingCount : (crossings TwoSurfaces.subsamples).length = 4 := by decide +kernel
  have count : (reference TwoSurfaces.subsamples).nodes.length = 9 := by
    simp [reference, (inOrder_perm _).length_eq, crossingCount]
  have nodes : (merge TwoSurfaces.subsamples).nodes =
      [Node.start, ⟨Single.half, Color.white⟩, ⟨Single.half, Color.gray Single.half⟩,
        ⟨Single.half, Color.gray Single.half⟩, ⟨Single.half, Color.black⟩] := by
    decide +kernel
  have answer : (merge TwoSurfaces.subsamples).visibilityAt Single.one = Color.black := by
    decide +kernel
  obtain ⟨nodes_eq, answers, -⟩ :=
    merge_refines_reference TwoSurfaces.subsamples TwoSurfaces.ordered
  exact ⟨TwoSurfaces.ordered, count, nodes, nodes_eq.symm, (answers Single.one).symm.trans answer⟩

end DeepShadow
