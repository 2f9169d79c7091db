import DeepShadow.Proofs.Visibility.Taken

/-!
# Hits behind an opaque one

Nothing is left of its ray behind an opaque hit of a subsample.  The merge does not see
this: it goes on as long as something is left of the running visibility, which starts
from white and of which a hit takes only the share of the subsample.  So the hits behind
an opaque one are left out where no other subsample contributes, and where nothing is
left of the pixel.  Elsewhere they are taken, and lower the visibility once more.
-/

namespace DeepShadow

/-- The hits up to the first opaque one, or all where none is opaque. -/
def upToOpaque : List Hit -> List Hit
  | [] => []
  | hit :: behind => hit :: if hit.opacity = Color.white then [] else upToOpaque behind

/-- The hits up to the first one in front of which nothing is left of the running
visibility, for a share and what is left in front of all. -/
def upToUsedUp (share : Single) : Color -> List Hit -> List Hit
  | _, [] => []
  | running, hit :: behind =>
      hit ::
        if running.isBlack then []
        else upToUsedUp share (running.lower (hit.opacity * share)) behind

namespace Subsample

/-- The subsample with some of its hits, chosen for its share of a weight. -/
def cutBy
    (total : Single)
    (cut : Single -> Color -> List Hit -> List Hit)
    (subsample : Subsample) : Subsample :=
  { subsample with
    hits := .layered (cut (-subsample.weight / total) Color.white subsample.hits.toList) }

/-- The subsample without the hits behind the first opaque one. -/
def upToOpaque (subsample : Subsample) : Subsample :=
  { subsample with hits := .layered (DeepShadow.upToOpaque subsample.hits.toList) }

/-- The subsample without the hits behind the first one in front of which nothing is left
of its running visibility. -/
def upToUsedUp (total : Single) (subsample : Subsample) : Subsample :=
  subsample.cutBy total DeepShadow.upToUsedUp

/-- The hits behind the first opaque one. -/
def hidden (subsample : Subsample) : List Hit :=
  subsample.hits.toList.drop (DeepShadow.upToOpaque subsample.hits.toList).length

end Subsample

namespace Merge

variable {previous : Node} {cursor next : Cursor} {queue rest hits : List Cursor}
variable {subsamples : List Subsample} {index number : Nat} {total : Single}
variable {cut : Single -> Color -> List Hit -> List Hit}

/-! ## Cutting subsamples -/

/-- Some hits of a list are kept, always with the first one. -/
structure KeepsFirst (cut : Single -> Color -> List Hit -> List Hit) : Prop where
  nil : ∀ share running, cut share running [] = []
  cons : ∀ share running hit behind, ∃ kept, cut share running (hit :: behind) = hit :: kept

theorem keepsFirst_upToOpaque : KeepsFirst fun _ _ => upToOpaque :=
  ⟨fun _ _ => rfl, fun _ _ _ _ => ⟨_, rfl⟩⟩

theorem keepsFirst_upToUsedUp : KeepsFirst upToUsedUp :=
  ⟨fun _ _ => rfl, fun _ _ _ _ => ⟨_, rfl⟩⟩

/-- The cursor of a subsample with some of its hits. -/
def Cursor.cutBy
    (index : Nat)
    (cut : Single -> Color -> List Hit -> List Hit)
    (cursor : Cursor) : Cursor :=
  if cursor.subsample = index then
    { cursor with behind := (cut cursor.share cursor.running (cursor.hit :: cursor.behind)).tail }
  else cursor

theorem Cursor.cutBy_of_ne (different : cursor.subsample ≠ index) :
    cursor.cutBy index cut = cursor :=
  if_neg different

theorem map_cutBy_of_ne (different : ∀ cursor ∈ queue, cursor.subsample ≠ index) :
    queue.map (Cursor.cutBy index cut) = queue :=
  (List.map_congr_left fun cursor isQueued =>
    Cursor.cutBy_of_ne (different cursor isQueued)).trans (List.map_id _)

@[simp] theorem Cursor.hit_cutBy : (cursor.cutBy index cut).hit = cursor.hit := by
  unfold cutBy
  split <;> rfl

@[simp] theorem Cursor.subsample_cutBy :
    (cursor.cutBy index cut).subsample = cursor.subsample := by
  unfold cutBy
  split <;> rfl

@[simp] theorem Cursor.share_cutBy : (cursor.cutBy index cut).share = cursor.share := by
  unfold cutBy
  split <;> rfl

@[simp] theorem Cursor.delta_cutBy : (cursor.cutBy index cut).delta = cursor.delta := by
  rw [delta, delta, hit_cutBy, share_cutBy]

theorem toList_cutBy (subsample : Subsample) :
    (subsample.cutBy total cut).hits.toList =
      cut (-subsample.weight / total) Color.white subsample.hits.toList := rfl

section Cutting

variable (keepsFirst : KeepsFirst cut)

include keepsFirst

theorem contributes_cutBy (subsample : Subsample) :
    (subsample.cutBy total cut).contributes = subsample.contributes := by
  have weight_eq : (subsample.cutBy total cut).weight = subsample.weight := rfl
  unfold Subsample.contributes Hits.isEmpty
  rw [weight_eq, toList_cutBy]
  cases subsample.hits.toList with
  | nil => rw [keepsFirst.nil]
  | cons hit behind =>
      obtain ⟨kept, cut_eq⟩ := keepsFirst.cons (-subsample.weight / total) Color.white hit behind
      rw [cut_eq]
      rfl

/-- The weights are added up as before. -/
theorem totalWeight_modify_cutBy (subsamples : List Subsample) (index : Nat) :
    totalWeight (subsamples.modify index (Subsample.cutBy total cut)) =
      totalWeight subsamples := by
  have weights : ((subsamples.modify index (Subsample.cutBy total cut)).filter
        Subsample.contributes).map Subsample.weight =
      (subsamples.filter Subsample.contributes).map Subsample.weight := by
    induction subsamples generalizing index with
    | nil => simp
    | cons subsample rest inductionHypothesis =>
        cases index with
        | zero =>
            simp only [List.modify_zero_cons, List.filter_cons, contributes_cutBy keepsFirst]
            split <;> rfl
        | succ index =>
            simp only [List.modify_succ_cons, List.filter_cons]
            split
            · simp only [List.map_cons, inductionHypothesis]
            · exact inductionHypothesis index
  unfold totalWeight
  rw [← List.foldl_map, weights, List.foldl_map]

theorem firstCursor_cutBy (number : Nat) (subsample : Subsample) :
    firstCursor total number (subsample.cutBy total cut) =
      (firstCursor total number subsample).map (Cursor.cutBy number cut) := by
  have weight_eq : (subsample.cutBy total cut).weight = subsample.weight := rfl
  unfold firstCursor
  rw [contributes_cutBy keepsFirst, toList_cutBy, weight_eq]
  cases subsample.contributes with
  | false => rfl
  | true =>
      cases subsample.hits.toList with
      | nil => rw [keepsFirst.nil]; rfl
      | cons hit behind =>
          obtain ⟨kept, cut_eq⟩ :=
            keepsFirst.cons (-subsample.weight / total) Color.white hit behind
          simp [Cursor.cutBy, cut_eq]

theorem cursors_modify_cutBy (subsamples : List Subsample) (index : Nat) :
    cursors (subsamples.modify index (Subsample.cutBy (totalWeight subsamples) cut)) =
      (cursors subsamples).map (Cursor.cutBy index cut) := by
  rw [cursors_eq, cursors_eq, totalWeight_modify_cutBy keepsFirst]
  have numbered (total : Single) (first : Nat) :
      ((subsamples.modify index (Subsample.cutBy total cut)).zipIdx first).filterMap
          (fun numbered => firstCursor total numbered.2 numbered.1) =
        ((subsamples.zipIdx first).filterMap
          fun numbered => firstCursor total numbered.2 numbered.1).map
            (Cursor.cutBy (first + index) cut) := by
    induction subsamples generalizing first index with
    | nil => simp
    | cons subsample rest inductionHypothesis =>
        have number_eq {cursor : Cursor} {number : Nat} {subsample : Subsample}
            (isFirst : firstCursor total number subsample = some cursor) :
            cursor.subsample = number := (of_firstCursor_eq_some isFirst).1
        cases index with
        | zero =>
            -- The cursors behind the first one have greater numbers.
            have others : ∀ cursor ∈ (rest.zipIdx (first + 1)).filterMap
                fun numbered => firstCursor total numbered.2 numbered.1,
                cursor.subsample ≠ first := by
              intro cursor isLater
              obtain ⟨numbered, isNumbered, isFirst⟩ := List.mem_filterMap.mp isLater
              rw [number_eq isFirst]
              exact Nat.ne_of_gt (List.mem_zipIdx isNumbered).1
            rw [List.modify_zero_cons, List.zipIdx_cons, List.zipIdx_cons, List.filterMap_cons,
              List.filterMap_cons, firstCursor_cutBy keepsFirst]
            cases firstCursor total first subsample with
            | none => exact (map_cutBy_of_ne others).symm
            | some cursor => exact congrArg (List.cons _) (map_cutBy_of_ne others).symm
        | succ index =>
            have later := inductionHypothesis index (first + 1)
            rw [Nat.add_assoc, Nat.add_comm 1 index] at later
            rw [List.modify_succ_cons, List.zipIdx_cons, List.zipIdx_cons, List.filterMap_cons,
              List.filterMap_cons]
            cases isFirst : firstCursor total first subsample with
            | none => exact later
            | some cursor =>
                have different : cursor.subsample ≠ first + (index + 1) := by
                  rw [number_eq isFirst]
                  omega
                simp only [List.map_cons, Cursor.cutBy_of_ne different, later]
  simpa using numbered (totalWeight subsamples) 0

end Cutting

theorem isBefore_cutBy (cursor other : Cursor) :
    (cursor.cutBy index cut).isBefore (other.cutBy index cut) = cursor.isBefore other := by
  simp [Cursor.isBefore]

theorem initial_modify_cutBy
    (keepsFirst : KeepsFirst cut)
    (subsamples : List Subsample)
    (index : Nat) :
    initial (subsamples.modify index (Subsample.cutBy (totalWeight subsamples) cut)) =
      (initial subsamples).map (Cursor.cutBy index cut) := by
  unfold initial
  rw [cursors_modify_cutBy keepsFirst]
  exact (foldr_enqueue_map (List.pairwise_of_forall isBefore_cutBy)).symm

theorem requeue_cutBy
    (advance_eq : (cursor.cutBy index cut).advance = cursor.advance.map (Cursor.cutBy index cut))
    (rest : List Cursor) :
    requeue (cursor.cutBy index cut) (rest.map (Cursor.cutBy index cut)) =
      (requeue cursor rest).map (Cursor.cutBy index cut) :=
  requeue_map advance_eq fun _ _ _ _ => isBefore_cutBy _ _

/-! ## Hits behind a used up running visibility -/

theorem advance_cutBy_upToUsedUp (cursor : Cursor) :
    (cursor.cutBy index upToUsedUp).advance =
      cursor.advance.map (Cursor.cutBy index upToUsedUp) := by
  by_cases here : cursor.subsample = index
  swap
  · rw [Cursor.cutBy_of_ne here]
    cases advanced : cursor.advance with
    | none => rfl
    | some next =>
        have subsample_eq := (Cursor.advance_eq_some_iff.mp advanced).2.2.1
        rw [Option.map_some, Cursor.cutBy_of_ne (subsample_eq ▸ here)]
  cases behind_eq : cursor.behind with
  | nil => simp [Cursor.advance, Cursor.cutBy, here, upToUsedUp, behind_eq]
  | cons hit behind =>
      by_cases visible : cursor.running.isBlack = true
      · simp [Cursor.advance, Cursor.cutBy, here, upToUsedUp, behind_eq, visible]
      · simp [Cursor.advance, Cursor.cutBy, here, upToUsedUp, behind_eq, visible, Cursor.delta,
          Color.lower]

/-- Hits behind one in front of which nothing is left of the running visibility are not
looked at. -/
theorem taken_cutBy_upToUsedUp (queue : List Cursor) :
    taken (queue.map (Cursor.cutBy index upToUsedUp)) =
      (taken queue).map (Cursor.cutBy index upToUsedUp) := by
  fun_induction taken queue with
  | case1 => rw [List.map_nil, taken]
  | case2 cursor rest inductionHypothesis =>
      rw [List.map_cons, taken, requeue_cutBy (advance_cutBy_upToUsedUp cursor),
        inductionHypothesis, List.map_cons]

theorem nodes_merge_upToUsedUp (subsamples : List Subsample) (index : Nat) :
    (merge (subsamples.modify index
        (Subsample.upToUsedUp (totalWeight subsamples)))).nodes =
      (merge subsamples).nodes := by
  unfold Subsample.upToUsedUp
  rw [nodes_merge_eq, nodes_merge_eq, initial_modify_cutBy keepsFirst_upToUsedUp,
    taken_cutBy_upToUsedUp, nodesOf_map (fun _ => Cursor.hit_cutBy) fun _ => Cursor.share_cutBy]

/-! ## The only subsample that contributes -/

/-- A share with which an opaque hit leaves nothing. -/
def IsFull (share : Single) : Prop :=
  ∀ visibility : Color, visibility.IsLevel -> visibility.AtMost Color.white ->
    visibility.lower (Color.white * share) = Color.black

/-- The share of a weight in a sum of it alone is full. -/
theorem isFull_share
    {weight : Single}
    (positive : Single.zero < weight) :
    IsFull (-weight / (Single.zero + weight)) := by
  intro visibility level atMost
  apply Color.eq_of_value
  intro channel
  rw [Color.value_lower, Color.value_mul, Color.value_white, Color.value_black]
  exact (level channel).lower_share_alone (Color.value_white channel ▸ atMost channel) positive

theorem advance_cutBy_upToOpaque
    (notCut : cursor.subsample = index -> cursor.hit.opacity ≠ Color.white) :
    (cursor.cutBy index fun _ _ => upToOpaque).advance =
      cursor.advance.map (Cursor.cutBy index fun _ _ => upToOpaque) := by
  by_cases here : cursor.subsample = index
  swap
  · rw [Cursor.cutBy_of_ne here]
    cases advanced : cursor.advance with
    | none => rfl
    | some next =>
        have subsample_eq := (Cursor.advance_eq_some_iff.mp advanced).2.2.1
        rw [Option.map_some, Cursor.cutBy_of_ne (subsample_eq ▸ here)]
  cases behind_eq : cursor.behind with
  | nil => simp [Cursor.advance, Cursor.cutBy, here, upToOpaque, behind_eq]
  | cons hit behind =>
      by_cases visible : cursor.running.isBlack = true
      · simp [Cursor.advance, Cursor.cutBy, here, upToOpaque, behind_eq, visible, notCut here]
      · simp [Cursor.advance, Cursor.cutBy, here, upToOpaque, behind_eq, visible, notCut here,
          Cursor.delta]

/-- An opaque hit with a full share leaves nothing. -/
theorem isBlack_of_isFull
    (level : previous.visibility.IsLevel)
    (atMost : previous.visibility.AtMost Color.white)
    (occluding : cursor.Occluding)
    (full : IsFull cursor.share)
    (isOpaque : cursor.hit.opacity = Color.white) :
    (step previous cursor).2.visibility.isBlack = true := by
  obtain ⟨⟨beforeLevel, beforeAtMost⟩, -⟩ := level_step level occluding.lowers
  have nothing := full _ beforeLevel (beforeAtMost.trans atMost)
  rw [(visibility_step previous cursor).2, Cursor.delta, isOpaque, nothing]
  rfl

/-- The merge of a single subsample with a full share ends with its first opaque hit. -/
theorem nodesOf_alone
    (level : previous.visibility.IsLevel)
    (atMost : previous.visibility.AtMost Color.white)
    (occluding : cursor.Occluding)
    (full : IsFull cursor.share) :
    nodesOf previous (taken [cursor.cutBy index fun _ _ => upToOpaque]) =
      nodesOf previous (taken [cursor]) := by
  induction count_eq : cursor.behind.length using Nat.strong_induction_on
    generalizing cursor previous with
  | _ count inductionHypothesis =>
      have step_eq : step previous (cursor.cutBy index fun _ _ => upToOpaque) =
          step previous cursor := by simp [step]
      obtain ⟨⟨beforeLevel, beforeAtMost⟩, afterLevel, afterAtMost⟩ :=
        level_step level occluding.lowers
      rw [taken, taken, nodesOf, nodesOf, step_eq]
      by_cases isOpaque : cursor.hit.opacity = Color.white
      · have isBlack := isBlack_of_isFull level atMost occluding full isOpaque
        rw [if_pos isBlack, if_pos isBlack]
      · have queue_eq := requeue_cutBy (advance_cutBy_upToOpaque fun _ : cursor.subsample = index =>
          isOpaque) []
        rw [List.map_nil] at queue_eq
        rw [queue_eq, requeue]
        cases advanced : cursor.advance with
        | none => rfl
        | some next =>
            obtain ⟨-, behind_eq, -, share_eq, -⟩ := Cursor.advance_eq_some_iff.mp advanced
            have fewer : next.behind.length < count := by
              rw [← count_eq, behind_eq, List.length_cons]
              exact Nat.lt_succ_self _
            have rest_eq := inductionHypothesis _ fewer afterLevel
              (afterAtMost.trans (beforeAtMost.trans atMost)) (occluding.advance advanced)
              (share_eq ▸ full) rfl
            simp only [enqueue, List.map_cons, List.map_nil, rest_eq]

/-- No other subsample contributes. -/
def Alone (subsamples : List Subsample) (index : Nat) : Prop :=
  ∀ number other, subsamples[number]? = some other -> other.contributes = true ->
    number = index

theorem filter_of_alone
    {subsample : Subsample}
    (alone : Alone subsamples index)
    (found : subsamples[index]? = some subsample)
    (contributes : subsample.contributes = true) :
    subsamples.filter Subsample.contributes = [subsample] := by
  induction subsamples generalizing index with
  | nil => cases found
  | cons first rest inductionHypothesis =>
      cases index with
      | zero =>
          cases found
          have others : rest.filter Subsample.contributes = [] := by
            refine List.filter_eq_nil_iff.mpr fun other inRest otherContributes => ?_
            obtain ⟨number, found⟩ := List.getElem?_of_mem inRest
            exact absurd (alone (number + 1) other found otherContributes) (Nat.succ_ne_zero _)
          rw [List.filter_cons_of_pos contributes, others]
      | succ index =>
          have notFirst : ¬first.contributes = true := fun firstContributes =>
            absurd (alone 0 first rfl firstContributes) (Nat.zero_ne_add_one _)
          rw [List.filter_cons_of_neg notFirst]
          refine inductionHypothesis (fun number other found contributes => ?_) found
          exact Nat.succ.inj (alone (number + 1) other found contributes)

theorem merge_upToOpaque_of_alone
    (alone : Alone subsamples index)
    (occluding : ∀ subsample ∈ subsamples, ∀ hit ∈ subsample.hits.toList, hit.Occluding) :
    merge (subsamples.modify index Subsample.upToOpaque) = merge subsamples := by
  have cut_eq : Subsample.upToOpaque = Subsample.cutBy (totalWeight subsamples)
      fun _ _ => DeepShadow.upToOpaque := rfl
  have perm := foldr_enqueue_perm (cursors subsamples)
  have here : ∀ cursor ∈ initial subsamples, cursor.subsample = index ∧ IsFull cursor.share := by
    intro cursor isQueued
    obtain ⟨subsample, found, contributes, -, share_eq, -⟩ := mem_cursors (perm.mem_iff.mp isQueued)
    have here := alone _ subsample found contributes
    have total_eq : totalWeight subsamples = Single.zero + subsample.weight := by
      rw [totalWeight, filter_of_alone alone (here ▸ found) contributes]
      rfl
    rw [share_eq, total_eq]
    exact ⟨here, isFull_share (zero_lt_weight contributes)⟩
  have distinct : ((initial subsamples).map Cursor.subsample).Nodup :=
    (perm.map Cursor.subsample).nodup_iff.mpr (distinct_cursors subsamples)
  have allOccluding := occluding_initial occluding
  have nodes_eq : (merge (subsamples.modify index Subsample.upToOpaque)).nodes =
      (merge subsamples).nodes := by
    rw [nodes_merge_eq, nodes_merge_eq, cut_eq, initial_modify_cutBy keepsFirst_upToOpaque]
    match initial subsamples, here, distinct, allOccluding with
    | [], _, _, _ => rfl
    | [cursor], here, _, allOccluding =>
        exact congrArg (List.cons Node.start) (nodesOf_alone Color.isLevel_white
          Color.isLevel_white.atMost_self (allOccluding cursor List.mem_cons_self)
          (here cursor List.mem_cons_self).2)
    | first :: second :: _, here, distinct, _ =>
        -- Two cursors of one subsample are not in the queue.
        have same : first.subsample = second.subsample :=
          (here first List.mem_cons_self).1.trans
            (here second (List.mem_cons_of_mem _ List.mem_cons_self)).1.symm
        simp [same] at distinct
  exact congrArg Curve.mk nodes_eq

/-! ## Hits taken in between -/

/-- Hits that are taken with some hidden ones, and without them.  A hidden hit is not
behind the next hit that is taken without it. -/
inductive Hides (Hidden : Hit -> Prop) : List Cursor -> List Cursor -> Prop
  | nil : Hides Hidden [] []
  | shown {cursor other : Cursor} {hits others : List Cursor}
      (hit_eq : other.hit = cursor.hit)
      (share_eq : other.share = cursor.share)
      (behind : Hides Hidden hits others) :
      Hides Hidden (cursor :: hits) (other :: others)
  | hidden {cursor : Cursor} {hits others : List Cursor}
      (isHidden : Hidden cursor.hit)
      (ahead : ∀ next ∈ others.head?, cursor.hit.depth ≤ next.hit.depth)
      (behind : Hides Hidden hits others) :
      Hides Hidden (cursor :: hits) others

namespace Hides

variable {Hidden : Hit -> Prop} {others : List Cursor}

theorem refl (hits : List Cursor) : Hides Hidden hits hits := by
  induction hits with
  | nil => exact .nil
  | cons cursor hits inductionHypothesis => exact .shown rfl rfl inductionHypothesis

section Seen

variable {visibility other : Color} {depth : Single}

theorem crossed_eq
    {shown : Cursor}
    (hit_eq : shown.hit = cursor.hit)
    (share_eq : shown.share = cursor.share)
    (visibility : Color) :
    crossed visibility shown = crossed visibility cursor := by
  rw [crossed, crossed, Cursor.delta, Cursor.delta, hit_eq, share_eq]

/-- A hidden hit behind a depth is followed by hits behind this depth only. -/
theorem seen_of_ahead
    (behindDepth : ¬cursor.hit.depth ≤ depth)
    (ahead : ∀ next ∈ others.head?, cursor.hit.depth ≤ next.hit.depth)
    (visibility : Color) :
    seen depth visibility others = visibility := by
  cases others with
  | nil => rfl
  | cons next others =>
      exact if_neg fun reached =>
        behindDepth (Single.le_trans (ahead next List.head?_cons) reached)

/-- With the hidden hits nothing becomes brighter. -/
theorem seen_atMost_seen
    (hides : Hides Hidden hits others)
    (lowers : ∀ cursor ∈ hits, cursor.delta.Lowers)
    (level : visibility.IsLevel)
    (levelToo : other.IsLevel)
    (ordered : visibility.AtMost other)
    (depth : Single) :
    (seen depth visibility hits).AtMost (seen depth other others) := by
  induction hides generalizing visibility other with
  | nil => exact ordered
  | shown hit_eq share_eq behind inductionHypothesis =>
      obtain ⟨first, rest⟩ := List.forall_mem_cons.mp lowers
      rw [seen, seen, hit_eq, crossed_eq hit_eq share_eq]
      split
      · exact inductionHypothesis rest (level_crossed first level) (level_crossed first levelToo)
          (crossed_atMost_crossed first level levelToo ordered)
      · exact ordered
  | hidden isHidden ahead behind inductionHypothesis =>
      obtain ⟨first, rest⟩ := List.forall_mem_cons.mp lowers
      rw [seen]
      split
      · exact inductionHypothesis rest (level_crossed first level) levelToo
          ((crossed_atMost first level).trans ordered)
      next behindDepth =>
        rw [seen_of_ahead behindDepth ahead]
        exact ordered

/-- In front of all hidden hits nothing changes. -/
theorem seen_eq_seen
    (hides : Hides Hidden hits others)
    (inFront : ∀ hit, Hidden hit -> ¬hit.depth ≤ depth) :
    seen depth visibility hits = seen depth visibility others := by
  induction hides generalizing visibility with
  | nil => rfl
  | shown hit_eq share_eq behind inductionHypothesis =>
      rw [seen, seen, hit_eq, crossed_eq hit_eq share_eq]
      split
      · exact inductionHypothesis
      · rfl
  | hidden isHidden ahead behind inductionHypothesis =>
      have behindDepth := inFront _ isHidden
      rw [seen, if_neg behindDepth, seen_of_ahead behindDepth ahead]

end Seen

end Hides

/-! ## The queue with hidden hits -/

/-- It does not matter which of two cursors of different subsamples is put into a queue
first. -/
theorem enqueue_comm
    (different : cursor.subsample ≠ next.subsample)
    (queue : List Cursor) :
    enqueue cursor (enqueue next queue) = enqueue next (enqueue cursor queue) := by
  have total : cursor.isBefore next = !next.isBefore cursor := by
    rw [Bool.eq_not, ne_eq, Bool.eq_iff_iff, Cursor.isBefore_iff, Cursor.isBefore_iff]
    omega
  induction queue with
  | nil => cases order : next.isBefore cursor <;> simp [enqueue, total, order]
  | cons first rest inductionHypothesis =>
      have between {left right : Cursor}
          (leftBefore : left.isBefore first = true)
          (rightBehind : right.isBefore first = false) :
          left.isBefore right = true := by
        rw [← Bool.not_eq_true] at rightBehind
        rw [Cursor.isBefore_iff] at leftBefore rightBehind ⊢
        omega
      cases left : cursor.isBefore first with
      | true =>
          cases right : next.isBefore first with
          | true => cases order : next.isBefore cursor <;> simp [enqueue, total, order, left, right]
          | false =>
              have order : next.isBefore cursor = false := by simpa [between left right] using total
              simp [enqueue, left, right, order]
      | false =>
          cases right : next.isBefore first with
          | true =>
              have order : cursor.isBefore next = false := by simp [total, between right left]
              simp [enqueue, left, right, order]
          | false => simp [enqueue, left, right, inductionHypothesis]

theorem requeue_enqueue
    (different : next.subsample ≠ cursor.subsample)
    (rest : List Cursor) :
    requeue cursor (enqueue next rest) = enqueue next (requeue cursor rest) := by
  unfold requeue
  cases advanced : cursor.advance with
  | none => rfl
  | some following =>
      have subsample_eq := (Cursor.advance_eq_some_iff.mp advanced).2.2.1
      exact enqueue_comm (fun same => different (same.symm.trans subsample_eq)) rest

theorem enqueue_cases (cursor : Cursor) (queue : List Cursor) :
    (enqueue cursor queue = cursor :: queue ∧
        ∀ first ∈ queue.head?, cursor.isBefore first = true) ∨
      ∃ first rest, queue = first :: rest ∧
        enqueue cursor queue = first :: enqueue cursor rest := by
  cases queue with
  | nil => exact Or.inl ⟨rfl, by simp⟩
  | cons first rest =>
      rw [enqueue]
      split
      next before => exact Or.inl ⟨rfl, by simpa using before⟩
      next => exact Or.inr ⟨first, rest, rfl, rfl⟩

theorem head?_taken (queue : List Cursor) : (taken queue).head? = queue.head? := by
  cases queue with
  | nil => rw [taken]
  | cons cursor rest => rw [taken]; rfl

section Hiding

variable {Hidden : Hit -> Prop}

/-- A cursor whose hits are all hidden is taken in between those of other subsamples. -/
theorem hides_enqueue
    (different : ∀ other ∈ queue, cursor.subsample ≠ other.subsample)
    (allHidden : ∀ hit ∈ cursor.hit :: cursor.behind, Hidden hit)
    (cursorNumbered : cursor.IsNumbered)
    (numbered : ∀ other ∈ queue, other.IsNumbered) :
    Hides Hidden (taken (enqueue cursor queue)) (taken queue) := by
  induction count_eq : remaining (enqueue cursor queue) using Nat.strong_induction_on
    generalizing cursor queue with
  | _ count inductionHypothesis =>
      rcases enqueue_cases cursor queue with ⟨queue_eq, before⟩ | ⟨first, rest, rfl, queue_eq⟩
      · have fewer := remaining_requeue_lt cursor queue
        rw [queue_eq] at count_eq ⊢
        rw [taken]
        refine .hidden (allHidden cursor.hit List.mem_cons_self) ?_ ?_
        · intro first isFirst
          rw [head?_taken] at isFirst
          have ordered := Cursor.isBefore_iff.mp (before first isFirst)
          exact Single.le_of_totalKey_le (cursorNumbered _ List.mem_cons_self)
            (numbered first (List.mem_of_mem_head? isFirst) _ List.mem_cons_self) (by omega)
        · rw [requeue] at fewer ⊢
          cases advanced : cursor.advance with
          | none => exact Hides.refl _
          | some next =>
              obtain ⟨-, behind_eq, subsample_eq, -⟩ := Cursor.advance_eq_some_iff.mp advanced
              rw [advanced] at fewer
              refine inductionHypothesis _ (count_eq ▸ fewer) ?_ ?_
                (cursorNumbered.advance advanced) numbered rfl
              · rwa [subsample_eq]
              · exact fun hit isBehind =>
                  allHidden hit (List.mem_cons_of_mem _ (behind_eq ▸ isBehind))
      · obtain ⟨firstDifferent, restDifferent⟩ := List.forall_mem_cons.mp different
        obtain ⟨firstNumbered, restNumbered⟩ := List.forall_mem_cons.mp numbered
        have fewer := remaining_requeue_lt first (enqueue cursor rest)
        rw [queue_eq] at count_eq ⊢
        rw [requeue_enqueue firstDifferent] at fewer
        rw [taken, taken, requeue_enqueue firstDifferent]
        refine .shown rfl rfl (inductionHypothesis _ (count_eq ▸ fewer) ?_ allHidden
          cursorNumbered ?_ rfl)
        · intro other isQueued
          rcases mem_requeue isQueued with inRest | advanced
          · exact restDifferent other inRest
          · exact (Cursor.advance_eq_some_iff.mp advanced).2.2.1 ▸ firstDifferent
        · intro other isQueued
          rcases mem_requeue isQueued with inRest | advanced
          · exact restNumbered other inRest
          · exact firstNumbered.advance advanced

/-- The hits behind the opaque one of a subsample are taken in between the others. -/
theorem hides_cutBy_upToOpaque
    (distinct : (queue.map Cursor.subsample).Nodup)
    (numbered : ∀ cursor ∈ queue, cursor.IsNumbered)
    (areHidden : ∀ cursor ∈ queue, cursor.subsample = index ->
      ∀ hit ∈ (cursor.hit :: cursor.behind).drop (upToOpaque (cursor.hit :: cursor.behind)).length,
        Hidden hit) :
    Hides Hidden (taken queue)
      (taken (queue.map (Cursor.cutBy index fun _ _ => upToOpaque))) := by
  fun_induction taken queue with
  | case1 =>
      rw [List.map_nil, taken]
      exact .nil
  | case2 cursor rest inductionHypothesis =>
      obtain ⟨cursorNumbered, restNumbered⟩ := List.forall_mem_cons.mp numbered
      obtain ⟨cursorHidden, restHidden⟩ := List.forall_mem_cons.mp areHidden
      rw [List.map_cons, taken]
      refine .shown Cursor.hit_cutBy Cursor.share_cutBy ?_
      by_cases cutHere : cursor.subsample = index ∧ cursor.hit.opacity = Color.white
      · obtain ⟨here, isOpaque⟩ := cutHere
        have different : ∀ other ∈ rest, cursor.subsample ≠ other.subsample :=
          fun other inRest => (List.pairwise_cons.mp (List.pairwise_map.mp distinct)).1 other inRest
        have rest_eq : rest.map (Cursor.cutBy index fun _ _ => upToOpaque) = rest :=
          map_cutBy_of_ne fun other inRest => here ▸ (different other inRest).symm
        have advance_eq : (cursor.cutBy index fun _ _ => upToOpaque).advance = none := by
          simp [Cursor.advance, Cursor.cutBy, here, upToOpaque, isOpaque]
        rw [rest_eq, requeue, requeue, advance_eq]
        cases advanced : cursor.advance with
        | none => exact Hides.refl _
        | some next =>
            obtain ⟨-, behind_eq, subsample_eq, -⟩ := Cursor.advance_eq_some_iff.mp advanced
            have behindHidden := cursorHidden here
            simp only [upToOpaque, isOpaque, if_true, List.length_singleton, List.drop_one,
              List.tail_cons, behind_eq] at behindHidden
            exact hides_enqueue (by rwa [subsample_eq]) behindHidden
              (cursorNumbered.advance advanced) restNumbered
      · rw [requeue_cutBy (advance_cutBy_upToOpaque fun here isOpaque => cutHere ⟨here, isOpaque⟩)]
        refine inductionHypothesis (distinct_requeue distinct) ?_ ?_
        · intro other isQueued
          rcases mem_requeue isQueued with inRest | advanced
          · exact restNumbered other inRest
          · exact cursorNumbered.advance advanced
        · intro other isQueued
          rcases mem_requeue isQueued with inRest | advanced
          · exact restHidden other inRest
          · obtain ⟨-, behind_eq, subsample_eq, -⟩ := Cursor.advance_eq_some_iff.mp advanced
            intro here
            have behindHidden := cursorHidden (subsample_eq ▸ here)
            have notOpaque : cursor.hit.opacity ≠ Color.white :=
              fun isOpaque => cutHere ⟨subsample_eq ▸ here, isOpaque⟩
            rwa [upToOpaque, if_neg notOpaque, List.length_cons, List.drop_succ_cons,
              behind_eq] at behindHidden

end Hiding

/-! ## The whole merge -/

theorem subset_upToOpaque (hits : List Hit) : upToOpaque hits ⊆ hits := by
  induction hits with
  | nil => exact List.Subset.refl _
  | cons hit behind inductionHypothesis =>
      rw [upToOpaque]
      split
      · exact List.cons_subset_cons hit (List.nil_subset _)
      · exact List.cons_subset_cons hit inductionHypothesis

/-- A cursor without the hits behind an opaque one has no other hits. -/
theorem forall_hits_cutBy_upToOpaque
    {property : Hit -> Prop}
    (holds : ∀ hit ∈ cursor.hit :: cursor.behind, property hit) :
    ∀ hit ∈ (cursor.cutBy index fun _ _ => upToOpaque).hit ::
      (cursor.cutBy index fun _ _ => upToOpaque).behind, property hit := by
  by_cases here : cursor.subsample = index
  · have hits_eq : (cursor.cutBy index fun _ _ => upToOpaque).hit ::
        (cursor.cutBy index fun _ _ => upToOpaque).behind =
          upToOpaque (cursor.hit :: cursor.behind) := by
      simp [Cursor.cutBy, here, upToOpaque]
    rw [hits_eq]
    exact fun hit isKept => holds hit (subset_upToOpaque _ isKept)
  · rwa [Cursor.cutBy_of_ne here]

/-- A hit is behind the first opaque one of the subsample with a number. -/
def HiddenAt (subsamples : List Subsample) (index : Nat) (hit : Hit) : Prop :=
  ∃ subsample, subsamples[index]? = some subsample ∧ hit ∈ subsample.hidden

/-- Without the hits behind an opaque one of a subsample, the visibility is nowhere lower.
It is the same in front of all these hits, and where nothing is left without them. -/
theorem visibilityAt_upToOpaque
    (occluding : ∀ subsample ∈ subsamples, ∀ hit ∈ subsample.hits.toList, hit.Occluding)
    (numbers : ∀ subsample ∈ subsamples, ∀ hit ∈ subsample.hits.toList,
      hit.depth.isNaN = false)
    (index : Nat)
    (depth : Single) :
    ((merge subsamples).visibilityAt depth).AtMost
        ((merge (subsamples.modify index Subsample.upToOpaque)).visibilityAt depth) ∧
      ((∀ hit, HiddenAt subsamples index hit -> ¬hit.depth ≤ depth) ∨
          ((merge (subsamples.modify index Subsample.upToOpaque)).visibilityAt
            depth).isBlack = true ->
        (merge (subsamples.modify index Subsample.upToOpaque)).visibilityAt depth =
          (merge subsamples).visibilityAt depth) := by
  have perm := foldr_enqueue_perm (cursors subsamples)
  have distinct : ((initial subsamples).map Cursor.subsample).Nodup :=
    (perm.map Cursor.subsample).nodup_iff.mpr (distinct_cursors subsamples)
  have queueOccluding := occluding_initial occluding
  have queueNumbered := numbered_initial numbers
  have cutOccluding : ∀ cursor ∈ (initial subsamples).map
      (Cursor.cutBy index fun _ _ => upToOpaque), cursor.Occluding := by
    refine List.forall_mem_map.mpr fun cursor isQueued => ⟨?_, ?_⟩
    · exact forall_hits_cutBy_upToOpaque (queueOccluding cursor isQueued).hits
    · rw [Cursor.share_cutBy]
      exact (queueOccluding cursor isQueued).share
  have cutNumbered : ∀ cursor ∈ (initial subsamples).map
      (Cursor.cutBy index fun _ _ => upToOpaque), cursor.IsNumbered :=
    List.forall_mem_map.mpr fun cursor isQueued =>
      forall_hits_cutBy_upToOpaque (queueNumbered cursor isQueued)
  have areHidden : ∀ cursor ∈ initial subsamples, cursor.subsample = index ->
      ∀ hit ∈ (cursor.hit :: cursor.behind).drop (upToOpaque (cursor.hit :: cursor.behind)).length,
        HiddenAt subsamples index hit := by
    rintro cursor isQueued rfl hit isHidden
    obtain ⟨subsample, found, -, toList_eq, -⟩ := mem_cursors (perm.mem_iff.mp isQueued)
    refine ⟨subsample, found, ?_⟩
    rwa [Subsample.hidden, toList_eq]
  have hides := hides_cutBy_upToOpaque distinct queueNumbered areHidden
  have cut_eq : initial (subsamples.modify index Subsample.upToOpaque) =
      (initial subsamples).map (Cursor.cutBy index fun _ _ => upToOpaque) :=
    initial_modify_cutBy keepsFirst_upToOpaque subsamples index
  rw [← cut_eq] at cutOccluding cutNumbered hides
  have white := Color.isLevel_white
  have lowers := lowers_taken queueOccluding
  have cutLowers := lowers_taken cutOccluding
  rw [visibilityAt_merge queueOccluding queueNumbered,
    visibilityAt_merge cutOccluding cutNumbered]
  split
  · have atMost := hides.seen_atMost_seen lowers white white white.atMost_self
    refine ⟨atMost depth, ?_⟩
    rintro (inFront | isBlack)
    · exact (hides.seen_eq_seen inFront).symm
    · rw [(level_seen cutLowers white depth).eq_black isBlack,
        (level_seen lowers white depth).eq_black ((atMost depth).isBlack isBlack)]
  · exact ⟨white.atMost_self, fun _ => rfl⟩

end Merge

namespace HiddenSurface

/-- Two subsamples with the same weight.  The first one has an opaque surface at depth one
and another one at depth two, which it cannot see. -/
def subsamples : List Subsample :=
  [⟨Single.one, .layered [Hit.ofDepth Single.one, Hit.ofDepth (Single.ofNat 2)]⟩,
    ⟨Single.one, .solid (Hit.ofDepth (Single.ofNat 3))⟩]

/-- One and a half. -/
def between : Single := Single.one + Single.half

end HiddenSurface

end DeepShadow
