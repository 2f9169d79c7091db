import DeepShadow.Proofs.Visibility.Hidden
import DeepShadow.Proofs.Visibility.Reordering
import DeepShadow.Proofs.Visibility.Shares

/-!
# Hits that take nothing

A hit without opacity takes nothing from the visibility.  A subsample can go without it, as
long as its next hit is not taken earlier then, and another hit is left to it: without any
hit its weight would not count among those of the others.
-/

namespace DeepShadow

/-- A hit with no opacity in any channel. -/
def Hit.IsClear (hit : Hit) : Prop := ∀ channel, (hit.opacity.value channel).magnitude = 0

namespace Merge

variable {cursor other next : Cursor} {queue rest : List Cursor}
variable {visibility : Color} {depth : Single} {clear : Hit}

/-! ## Crossing a clear hit -/

/-- A clear hit of a finite share lowers no visibility. -/
theorem lower_of_isClear
    (isClear : cursor.hit.IsClear)
    (finite : cursor.share.isFinite = true)
    (level : visibility.IsLevel) :
    visibility.lower cursor.delta = visibility := by
  apply level.lower_of_magnitude_eq_zero
  intro channel
  rw [Cursor.delta, Color.value_mul]
  exact Single.magnitude_mul_eq_zero (isClear channel) finite

/-- It leaves the visibility in front of it, unless it lies at infinity. -/
theorem crossed_of_isClear
    (isClear : cursor.hit.IsClear)
    (finite : cursor.share.isFinite = true)
    (bounded : (cursor.hit.depth.max Single.zero).isFinite = true)
    (level : visibility.IsLevel) :
    crossed visibility cursor = visibility := by
  rw [crossed, if_pos bounded, lower_of_isClear isClear finite level]

/-- A clear hit changes nothing that is seen, where nothing behind it lies in front of it. -/
theorem seen_cons_of_isClear
    {hits : List Cursor}
    (isClear : cursor.hit.IsClear)
    (finite : cursor.share.isFinite = true)
    (bounded : (cursor.hit.depth.max Single.zero).isFinite = true)
    (level : visibility.IsLevel)
    (ahead : ∀ next ∈ hits.head?, cursor.hit.depth ≤ next.hit.depth) :
    seen depth visibility (cursor :: hits) = seen depth visibility hits := by
  rw [seen, crossed_of_isClear isClear finite bounded level]
  split
  next => rfl
  next behindDepth => exact (Hides.seen_of_ahead behindDepth ahead visibility).symm

/-! ## What holds while something is left to be seen -/

/-- What holds of a cursor with a visibility that is left in front of its hit. -/
structure Cursor.Awaits (visibility : Color) (cursor : Cursor) : Prop where
  occluding : cursor.Occluding
  numbered : cursor.IsNumbered
  level : cursor.running.IsLevel
  atMost : visibility.AtMost cursor.running

section Awaits

variable (level : visibility.IsLevel) (awaits : cursor.Awaits visibility)

include level awaits

/-- The other cursors wait with what a hit leaves. -/
theorem Cursor.Awaits.cross (others : other.Awaits visibility) :
    other.Awaits (crossed visibility cursor) :=
  ⟨others.occluding, others.numbered, others.level,
    (crossed_atMost awaits.occluding.lowers level).trans others.atMost⟩

/-- A cursor waits at its next hit with what its hit leaves. -/
theorem Cursor.Awaits.advance (advanced : cursor.advance = some next) :
    next.Awaits (crossed visibility cursor) := by
  obtain ⟨-, -, -, -, running_eq⟩ := Cursor.advance_eq_some_iff.mp advanced
  have lowers := awaits.occluding.lowers
  refine ⟨awaits.occluding.advance advanced, awaits.numbered.advance advanced, ?_, ?_⟩
  · exact running_eq ▸ awaits.level.lower lowers
  · rw [running_eq, crossed]
    split
    · exact level.lower_atMost_lower lowers awaits.level awaits.atMost
    · exact Color.isLevel_black.lower_atMost_lower lowers awaits.level awaits.level.black_atMost

theorem awaits_requeue (others : ∀ other ∈ rest, other.Awaits visibility) :
    ∀ other ∈ requeue cursor rest, other.Awaits (crossed visibility cursor) := by
  intro other isQueued
  rcases mem_requeue isQueued with inRest | advanced
  · exact awaits.cross level (others other inRest)
  · exact awaits.advance level advanced

end Awaits

/-! ## Going without a clear hit -/

/-- A cursor, and what it is without a clear hit that it has or will come to. -/
inductive GoesWithout (clear : Hit) : Cursor -> Option Cursor -> Prop
  | last {cursor : Cursor}
      (hit_eq : cursor.hit = clear)
      (behind_eq : cursor.behind = []) :
      GoesWithout clear cursor none
  | here {cursor : Cursor} {hit : Hit} {behind : List Hit}
      (hit_eq : cursor.hit = clear)
      (behind_eq : cursor.behind = hit :: behind)
      (ahead : clear.depth.totalKey ≤ hit.depth.totalKey) :
      GoesWithout clear cursor (some { cursor with hit, behind })
  | later {cursor : Cursor} {front behind : List Hit}
      (behind_eq : cursor.behind = front ++ clear :: behind)
      (ahead : ∀ hit ∈ behind.head?, clear.depth.totalKey ≤ hit.depth.totalKey) :
      GoesWithout clear cursor (some { cursor with behind := front ++ behind })

/-- A queue with a cursor, if there is one. -/
def enqueueAny (cursor : Option Cursor) (queue : List Cursor) : List Cursor :=
  match cursor with
  | some cursor => enqueue cursor queue
  | none => queue

theorem requeue_eq (cursor : Cursor) (queue : List Cursor) :
    requeue cursor queue = enqueueAny cursor.advance queue := rfl

namespace GoesWithout

variable {without : Option Cursor}

/-- The cursor that goes without the hit is another one of the same subsample, with some of
the hits. -/
theorem of_some (goes : GoesWithout clear cursor (some other)) :
    other.subsample = cursor.subsample ∧ other.share = cursor.share ∧
      other.running = cursor.running ∧
      (other.hit :: other.behind).Sublist (cursor.hit :: cursor.behind) ∧
      cursor.hit.depth.totalKey ≤ other.hit.depth.totalKey := by
  cases goes with
  | here hit_eq behind_eq ahead =>
      exact ⟨rfl, rfl, rfl, behind_eq ▸ List.sublist_cons_self _ _, hit_eq ▸ ahead⟩
  | later behind_eq ahead =>
      refine ⟨rfl, rfl, rfl, ?_, Int.le_refl _⟩
      rw [behind_eq]
      exact ((List.Sublist.refl _).append (List.sublist_cons_self _ _)).cons_cons _

theorem awaits
    (goes : GoesWithout clear cursor (some other))
    (awaits : cursor.Awaits visibility) :
    other.Awaits visibility := by
  obtain ⟨-, share_eq, running_eq, sublist, -⟩ := goes.of_some
  refine ⟨⟨fun hit isHit => awaits.occluding.hits hit (sublist.subset isHit), ?_⟩,
    fun hit isHit => awaits.numbered hit (sublist.subset isHit), ?_, ?_⟩
  · exact share_eq ▸ awaits.occluding.share
  · exact running_eq ▸ awaits.level
  · exact running_eq ▸ awaits.atMost

theorem awaits_enqueueAny
    (goes : GoesWithout clear cursor without)
    (allAwait : ∀ other ∈ cursor :: queue, other.Awaits visibility) :
    ∀ other ∈ enqueueAny without queue, other.Awaits visibility := by
  obtain ⟨first, others⟩ := List.forall_mem_cons.mp allAwait
  cases without with
  | none => exact others
  | some without =>
      intro other isQueued
      rcases List.mem_cons.mp ((enqueue_perm without queue).mem_iff.mp isQueued) with rfl | inQueue
      · exact goes.awaits first
      · exact others other inQueue

/-- A cursor of which something is left goes on to the hit behind. -/
theorem advance_of_visible
    {hit : Hit}
    {behind : List Hit}
    (visible : cursor.running.isBlack = false)
    (behind_eq : cursor.behind = hit :: behind) :
    cursor.advance =
      some { cursor with hit, behind, running := cursor.running.lower cursor.delta } :=
  Cursor.advance_eq_some_iff.mpr ⟨visible, behind_eq, rfl, rfl, rfl⟩

/-- Both cursors go on to hits of which the second one goes without the clear one. -/
theorem advance
    {front behind : List Hit}
    (behind_eq : cursor.behind = front ++ clear :: behind)
    (ahead : ∀ hit ∈ behind.head?, clear.depth.totalKey ≤ hit.depth.totalKey)
    (visible : cursor.running.isBlack = false) :
    ∃ next, cursor.advance = some next ∧
      GoesWithout clear next { cursor with behind := front ++ behind }.advance := by
  cases front with
  | nil =>
      refine ⟨_, advance_of_visible visible behind_eq, ?_⟩
      cases behind with
      | nil => exact .last rfl rfl
      | cons hit behind =>
          have advance_eq : { cursor with behind := [] ++ hit :: behind }.advance = _ :=
            advance_of_visible visible rfl
          rw [advance_eq]
          exact .here rfl rfl (ahead hit List.head?_cons)
  | cons hit front =>
      refine ⟨_, advance_of_visible visible behind_eq, ?_⟩
      have advance_eq : { cursor with behind := hit :: front ++ behind }.advance = _ :=
        advance_of_visible visible rfl
      rw [advance_eq]
      exact .later rfl ahead

/-- What is queued behind another cursor is so without the clear hit. -/
theorem enqueueAny_cons
    {first : Cursor}
    (goes : GoesWithout clear cursor without)
    (behind : cursor.isBefore first = false) :
    enqueueAny without (first :: queue) = first :: enqueueAny without queue := by
  cases without with
  | none => rfl
  | some without =>
      obtain ⟨subsample_eq, -, -, -, keys⟩ := goes.of_some
      have behindToo : without.isBefore first = false := by
        rw [← Bool.not_eq_true, Cursor.isBefore_iff] at behind ⊢
        omega
      rw [enqueueAny, enqueueAny, enqueue, behindToo]
      rfl

/-- The first hit without the clear one is not in front of it. -/
theorem ahead_enqueueAny
    (goes : GoesWithout clear cursor without)
    (before : ∀ first ∈ queue.head?, cursor.isBefore first = true)
    (awaits : ∀ other ∈ cursor :: queue, other.Awaits visibility) :
    ∀ next ∈ (taken (enqueueAny without queue)).head?, cursor.hit.depth ≤ next.hit.depth := by
  have number := (awaits cursor List.mem_cons_self).numbered cursor.hit List.mem_cons_self
  have numbers := goes.awaits_enqueueAny awaits
  intro next isNext
  rw [head?_taken] at isNext
  have nextNumber := (numbers next (List.mem_of_mem_head? isNext)).numbered _ List.mem_cons_self
  refine Single.le_of_totalKey_le number nextNumber ?_
  cases without with
  | none =>
      have ordered := Cursor.isBefore_iff.mp (before next isNext)
      omega
  | some without =>
      rcases enqueue_cases without queue with ⟨queue_eq, -⟩ | ⟨first, rest, rfl, queue_eq⟩
      · rw [enqueueAny, queue_eq] at isNext
        cases isNext
        exact goes.of_some.2.2.2.2
      · rw [enqueueAny, queue_eq] at isNext
        cases isNext
        have ordered := Cursor.isBefore_iff.mp (before _ List.head?_cons)
        omega

/-- A cursor with the hit of one that stands in front of a queue stands there as well. -/
theorem enqueue_of_before
    (subsample_eq : other.subsample = cursor.subsample)
    (hit_eq : other.hit = cursor.hit)
    (before : ∀ first ∈ queue.head?, cursor.isBefore first = true) :
    enqueue other queue = other :: queue := by
  cases queue with
  | nil => rfl
  | cons first rest =>
      have beforeFirst : other.isBefore first = true := by
        rw [Cursor.isBefore_iff, subsample_eq, hit_eq, ← Cursor.isBefore_iff]
        exact before first List.head?_cons
      exact if_pos beforeFirst

/-- A cursor of another subsample that is put back into the queue does not see what goes
without the clear hit. -/
theorem requeue_enqueueAny
    {front : Cursor}
    (goes : GoesWithout clear cursor without)
    (different : cursor.subsample ≠ front.subsample)
    (rest : List Cursor) :
    requeue front (enqueueAny without rest) = enqueueAny without (requeue front rest) := by
  cases without with
  | none => rfl
  | some without => exact requeue_enqueue (goes.of_some.1 ▸ different) rest

/-- The cursors of the subsamples whose cursors are queued stay those of the same subsamples. -/
theorem different_requeue
    {front : Cursor}
    (different : ∀ other ∈ front :: rest, cursor.subsample ≠ other.subsample) :
    ∀ other ∈ requeue front rest, cursor.subsample ≠ other.subsample := by
  obtain ⟨frontDifferent, restDifferent⟩ := List.forall_mem_cons.mp different
  intro other isQueued
  rcases mem_requeue isQueued with inRest | advanced
  · exact restDifferent other inRest
  · exact (Cursor.advance_eq_some_iff.mp advanced).2.2.1 ▸ frontDifferent

/-- Nothing more is seen of either queue where nothing is left. -/
theorem seen_eq_of_isBlack
    (goes : GoesWithout clear cursor without)
    (level : visibility.IsLevel)
    (isBlack : visibility.isBlack = true)
    (awaits : ∀ other ∈ cursor :: queue, other.Awaits visibility) :
    seen depth visibility (taken (enqueue cursor queue)) =
      seen depth visibility (taken (enqueueAny without queue)) := by
  have lowers : ∀ other ∈ taken (enqueue cursor queue), other.delta.Lowers :=
    lowers_taken fun other isQueued =>
      (awaits other ((enqueue_perm cursor queue).mem_iff.mp isQueued)).occluding
  have lowersWithout : ∀ other ∈ taken (enqueueAny without queue), other.delta.Lowers :=
    lowers_taken fun other isQueued => (goes.awaits_enqueueAny awaits other isQueued).occluding
  rw [seen_of_isBlack lowers level isBlack, seen_of_isBlack lowersWithout level isBlack]

/-- Without the clear hit the same is seen at each depth. -/
theorem seen_eq
    (goes : GoesWithout clear cursor without)
    (isClear : clear.IsClear)
    (finite : cursor.share.isFinite = true)
    (bounded : (clear.depth.max Single.zero).isFinite = true)
    (different : ∀ other ∈ queue, cursor.subsample ≠ other.subsample)
    (level : visibility.IsLevel)
    (awaits : ∀ other ∈ cursor :: queue, other.Awaits visibility) :
    seen depth visibility (taken (enqueue cursor queue)) =
      seen depth visibility (taken (enqueueAny without queue)) := by
  induction count_eq : remaining (enqueue cursor queue) using Nat.strong_induction_on
    generalizing cursor queue without visibility with
  | _ count inductionHypothesis =>
      cases visible : visibility.isBlack with
      | true => exact goes.seen_eq_of_isBlack level visible awaits
      | false =>
          obtain ⟨first, others⟩ := List.forall_mem_cons.mp awaits
          have running : cursor.running.isBlack = false := by
            rw [← Bool.not_eq_true] at visible ⊢
            exact mt first.atMost.isBlack visible
          rcases enqueue_cases cursor queue with ⟨queue_eq, before⟩ | ⟨front, rest, rfl, queue_eq⟩
          · have fewer := remaining_requeue_lt cursor queue
            have ahead := goes.ahead_enqueueAny before awaits
            rw [queue_eq] at count_eq ⊢
            rw [taken]
            cases goes with
            | last hit_eq behind_eq =>
                have stops : cursor.advance = none := by simp [Cursor.advance, behind_eq]
                rw [requeue_eq, stops]
                exact seen_cons_of_isClear (hit_eq ▸ isClear) finite (hit_eq ▸ bounded) level ahead
            | here hit_eq behind_eq isAhead =>
                have running_eq := lower_of_isClear (hit_eq ▸ isClear) finite first.level
                rw [requeue_eq, advance_of_visible running behind_eq, running_eq]
                exact seen_cons_of_isClear (hit_eq ▸ isClear) finite (hit_eq ▸ bounded) level ahead
            | @later front behind behind_eq isAhead =>
                -- Both queues lose their first hit, and the clear one is still to come.
                obtain ⟨next, advanced, goesOn⟩ := advance behind_eq isAhead running
                obtain ⟨-, -, subsample_eq, share_eq, -⟩ :=
                  Cursor.advance_eq_some_iff.mp advanced
                have awaitsNext := List.forall_mem_cons.mpr ⟨first.advance level advanced,
                  fun other inQueue => first.cross level (others other inQueue)⟩
                have without_eq : enqueue { cursor with behind := front ++ behind } queue =
                    { cursor with behind := front ++ behind } :: queue :=
                  enqueue_of_before rfl rfl before
                rw [requeue, advanced] at fewer
                rw [enqueueAny, without_eq, taken, seen, seen, requeue_eq, requeue_eq, advanced]
                split
                next =>
                  exact inductionHypothesis _ (count_eq ▸ fewer) goesOn (share_eq ▸ finite)
                    (subsample_eq ▸ different) (level_crossed first.occluding.lowers level)
                    awaitsNext rfl
                next => rfl
          · -- A hit of another subsample is the first one of both queues.
            have frontDifferent := different front List.mem_cons_self
            obtain ⟨frontAwaits, restAwait⟩ := List.forall_mem_cons.mp others
            have behind : cursor.isBefore front = false := by
              rw [← Bool.not_eq_true]
              intro before
              rw [enqueue, if_pos before] at queue_eq
              exact frontDifferent (congrArg Cursor.subsample (List.cons.inj queue_eq).1)
            have fewer := remaining_requeue_lt front (enqueue cursor rest)
            have awaitsNext := List.forall_mem_cons.mpr ⟨frontAwaits.cross level first,
              awaits_requeue level frontAwaits restAwait⟩
            rw [queue_eq] at count_eq ⊢
            rw [requeue_enqueue frontDifferent] at fewer
            rw [goes.enqueueAny_cons behind, taken, taken, seen, seen,
              requeue_enqueue frontDifferent, goes.requeue_enqueueAny frontDifferent]
            split
            next =>
              exact inductionHypothesis _ (count_eq ▸ fewer) goes finite
                (different_requeue different) (level_crossed frontAwaits.occluding.lowers level)
                awaitsNext rfl
            next => rfl

end GoesWithout

/-! ## Subsamples with and without a clear hit -/

/-- The cursor of one subsample is put into the queue of all others. -/
theorem foldr_enqueue_append_cons
    {front behind : List Cursor}
    (different : ∀ other ∈ front, other.subsample ≠ cursor.subsample) :
    (front ++ cursor :: behind).foldr enqueue [] =
      enqueue cursor ((front ++ behind).foldr enqueue []) := by
  induction front with
  | nil => rfl
  | cons first front inductionHypothesis =>
      obtain ⟨firstDifferent, others⟩ := List.forall_mem_cons.mp different
      rw [List.cons_append, List.foldr_cons, inductionHypothesis others, List.cons_append,
        List.foldr_cons, enqueue_comm firstDifferent]

section Around

variable {front behind : List Subsample} {subsample : Subsample} {total : Single}

/-- The cursors of the subsamples in front of one and behind it. -/
def cursorsAround (total : Single) (front behind : List Subsample) : List Cursor :=
  (front.zipIdx.filterMap fun numbered => firstCursor total numbered.2 numbered.1) ++
    (behind.zipIdx (front.length + 1)).filterMap fun numbered =>
      firstCursor total numbered.2 numbered.1

theorem different_cursorsAround
    (total : Single)
    (front behind : List Subsample) :
    ∀ cursor ∈ cursorsAround total front behind, cursor.subsample ≠ front.length := by
  intro cursor isAround
  rcases List.mem_append.mp isAround with inFront | inBehind
  · obtain ⟨numbered, isNumbered, isFirst⟩ := List.mem_filterMap.mp inFront
    rw [(of_firstCursor_eq_some isFirst).1]
    have bound := (List.mem_zipIdx isNumbered).2.1
    omega
  · obtain ⟨numbered, isNumbered, isFirst⟩ := List.mem_filterMap.mp inBehind
    rw [(of_firstCursor_eq_some isFirst).1]
    have bound := (List.mem_zipIdx isNumbered).1
    omega

theorem initial_append_cons
    (isFirst : firstCursor (totalWeight (front ++ subsample :: behind)) front.length subsample =
      some cursor) :
    initial (front ++ subsample :: behind) =
      enqueue cursor ((cursorsAround (totalWeight (front ++ subsample :: behind)) front
        behind).foldr enqueue []) := by
  have different := different_cursorsAround (totalWeight (front ++ subsample :: behind)) front behind
  rw [initial, cursors_eq, List.zipIdx_append, List.filterMap_append, Nat.zero_add,
    List.zipIdx_cons, List.filterMap_cons, isFirst]
  apply foldr_enqueue_append_cons
  intro other inFront
  rw [(of_firstCursor_eq_some isFirst).1]
  exact different other (List.mem_append_left _ inFront)

end Around

/-- The subsample with a weight and hits. -/
theorem firstCursor_layered
    {weight : Single}
    (positive : Single.zero < weight)
    (total : Single)
    (number : Nat)
    (hit : Hit)
    (behind : List Hit) :
    firstCursor total number ⟨weight, .layered (hit :: behind)⟩ =
      some ⟨number, -weight / total, hit, behind, Color.white⟩ := by
  have contributes : Subsample.contributes ⟨weight, .layered (hit :: behind)⟩ = true := by
    rw [Subsample.contributes, decide_eq_true positive]
    rfl
  rw [firstCursor, contributes]
  rfl

/-- Another subsample of the same weight, of which both contribute or none, leaves the sum of
the weights. -/
theorem totalWeight_append_cons
    {subsample instead : Subsample}
    (weights : instead.weight = subsample.weight)
    (contributes : instead.contributes = subsample.contributes)
    (front behind : List Subsample) :
    totalWeight (front ++ instead :: behind) = totalWeight (front ++ subsample :: behind) := by
  rw [totalWeight_eq, totalWeight_eq, contributedWeights, contributedWeights, List.filter_append,
    List.filter_append, List.filter_cons, List.filter_cons, contributes]
  split
  · simp only [List.map_append, List.map_cons, weights]
  · rfl

theorem awaits_initial
    {subsamples : List Subsample}
    (occluding : ∀ subsample ∈ subsamples, ∀ hit ∈ subsample.hits.toList, hit.Occluding)
    (numbers : ∀ subsample ∈ subsamples, ∀ hit ∈ subsample.hits.toList,
      hit.depth.isNaN = false) :
    ∀ cursor ∈ initial subsamples, cursor.Awaits Color.white := by
  intro cursor isQueued
  have isFirst := (foldr_enqueue_perm (cursors subsamples)).mem_iff.mp isQueued
  obtain ⟨_, -, -, -, -, running_eq⟩ := mem_cursors isFirst
  refine ⟨occluding_initial occluding cursor isQueued, numbered_initial numbers cursor isQueued,
    ?_, ?_⟩
  · exact running_eq ▸ Color.isLevel_white
  · exact running_eq ▸ Color.isLevel_white.atMost_self

section Without

variable {front behind : List Subsample} {subsample instead : Subsample} {without : Cursor}

/-- Where the first cursor of a subsample goes without a clear hit, the same is seen. -/
theorem visibilityAt_of_goesWithout
    (occluding : ∀ other ∈ front ++ subsample :: behind, ∀ hit ∈ other.hits.toList, hit.Occluding)
    (numbers : ∀ other ∈ front ++ subsample :: behind, ∀ hit ∈ other.hits.toList,
      hit.depth.isNaN = false)
    (weights : instead.weight = subsample.weight)
    (finite : subsample.weight.isFinite = true)
    (isFirst : firstCursor (totalWeight (front ++ subsample :: behind)) front.length subsample =
      some cursor)
    (isFirstInstead : firstCursor (totalWeight (front ++ subsample :: behind)) front.length instead =
      some without)
    (goes : GoesWithout clear cursor (some without))
    (isClear : clear.IsClear)
    (bounded : (clear.depth.max Single.zero).isFinite = true)
    (depth : Single) :
    (merge (front ++ subsample :: behind)).visibilityAt depth =
      (merge (front ++ instead :: behind)).visibilityAt depth := by
  obtain ⟨number_eq, contributes, -, share_eq, -⟩ := of_firstCursor_eq_some isFirst
  have total_eq : totalWeight (front ++ instead :: behind) =
      totalWeight (front ++ subsample :: behind) :=
    totalWeight_append_cons weights ((of_firstCursor_eq_some isFirstInstead).2.1.trans
      contributes.symm) front behind
  have shareFinite : cursor.share.isFinite = true :=
    share_eq ▸ (share_near (by simp) contributes finite).1
  have initial_eq := initial_append_cons isFirst
  have instead_eq := initial_append_cons (total_eq ▸ isFirstInstead)
  rw [total_eq] at instead_eq
  have awaits := awaits_initial occluding numbers
  have different := different_cursorsAround (totalWeight (front ++ subsample :: behind)) front behind
  have queuePerm := foldr_enqueue_perm
    (cursorsAround (totalWeight (front ++ subsample :: behind)) front behind)
  generalize (cursorsAround (totalWeight (front ++ subsample :: behind)) front behind).foldr
    enqueue [] = queue at initial_eq instead_eq queuePerm
  have allAwait : ∀ other ∈ cursor :: queue, other.Awaits Color.white := fun other isQueued =>
    awaits other (initial_eq ▸ (enqueue_perm cursor queue).mem_iff.mpr isQueued)
  have insteadAwait : ∀ other ∈ initial (front ++ instead :: behind), other.Awaits Color.white := by
    rw [instead_eq]
    exact goes.awaits_enqueueAny allAwait
  rw [visibilityAt_merge (fun other isQueued => (awaits other isQueued).occluding)
      (fun other isQueued => (awaits other isQueued).numbered),
    visibilityAt_merge (fun other isQueued => (insteadAwait other isQueued).occluding)
      (fun other isQueued => (insteadAwait other isQueued).numbered), initial_eq, instead_eq]
  split
  · apply goes.seen_eq isClear shareFinite bounded _ Color.isLevel_white allAwait
    intro other inQueue
    rw [number_eq]
    exact (different other (queuePerm.mem_iff.mp inQueue)).symm
  · rfl

/-- What is seen of subsamples is seen without a clear hit of one of them. -/
theorem visibilityAt_without_clear
    {weight : Single}
    {hits others : List Hit}
    (occluding : ∀ other ∈ front ++ ⟨weight, .layered (hits ++ clear :: others)⟩ :: behind,
      ∀ hit ∈ other.hits.toList, hit.Occluding)
    (numbers : ∀ other ∈ front ++ ⟨weight, .layered (hits ++ clear :: others)⟩ :: behind,
      ∀ hit ∈ other.hits.toList, hit.depth.isNaN = false)
    (finite : weight.isFinite = true)
    (ahead : ∀ hit ∈ others.head?, clear.depth.totalKey ≤ hit.depth.totalKey)
    (left : hits ++ others ≠ [])
    (isClear : clear.IsClear)
    (bounded : (clear.depth.max Single.zero).isFinite = true)
    (depth : Single) :
    (merge (front ++ ⟨weight, .layered (hits ++ clear :: others)⟩ :: behind)).visibilityAt depth =
      (merge (front ++ ⟨weight, .layered (hits ++ others)⟩ :: behind)).visibilityAt depth := by
  by_cases positive : Single.zero < weight
  · cases hits with
    | nil =>
        obtain ⟨hit, others, rfl⟩ := List.exists_cons_of_ne_nil left
        refine visibilityAt_of_goesWithout occluding numbers ?_ finite
          (firstCursor_layered positive _ _ _ _) (firstCursor_layered positive _ _ _ _) ?_ isClear
          bounded depth
        · rfl
        · exact .here rfl rfl (ahead hit List.head?_cons)
    | cons hit hits =>
        refine visibilityAt_of_goesWithout occluding numbers ?_ finite
          (firstCursor_layered positive _ _ _ _) (firstCursor_layered positive _ _ _ _) ?_ isClear
          bounded depth
        · rfl
        · exact .later rfl ahead
  · have weightless (hits : List Hit) :
        merge (front ++ [⟨weight, .layered hits⟩] ++ behind) = merge (front ++ behind) :=
      merge_insert_weightless front behind (by simpa using positive)
    simp only [List.append_assoc, List.singleton_append] at weightless
    rw [weightless, weightless]

end Without
end Merge
end DeepShadow
