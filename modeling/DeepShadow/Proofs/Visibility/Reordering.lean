import DeepShadow.Proofs.Visibility.Taken

/-!
# The order of the subsamples

A merge tells subsamples apart by their numbers, and these decide only between hits at one
depth.  So the numbers do not matter as long as they decide in the same way: subsamples
that do not contribute can be left out, and subsamples without a common depth can be given
in any order.
-/

namespace DeepShadow

namespace Subsample

/-- No hit of one subsample lies at the depth of a hit of the other. -/
def Apart (left right : Subsample) : Prop :=
  ∀ hit ∈ left.hits.toList, ∀ other ∈ right.hits.toList,
    hit.depth.totalKey ≠ other.depth.totalKey

theorem Apart.symm {left right : Subsample} (apart : left.Apart right) : right.Apart left :=
  fun hit isRight other isLeft => (apart other isLeft hit isRight).symm

instance (left right : Subsample) : Decidable (left.Apart right) :=
  inferInstanceAs (Decidable (∀ hit ∈ left.hits.toList, ∀ other ∈ right.hits.toList,
    hit.depth.totalKey ≠ other.depth.totalKey))

end Subsample

namespace Merge

variable {number : Nat -> Nat} {cursor next left right : Cursor} {queue rest : List Cursor}

/-! ## Other numbers -/

/-- The cursor with another number for its subsample. -/
def Cursor.renumber (number : Nat -> Nat) (cursor : Cursor) : Cursor :=
  { cursor with subsample := number cursor.subsample }

/-- Other numbers decide between the hits of two cursors as their own numbers do. -/
def KeepsTies (number : Nat -> Nat) (left right : Cursor) : Prop :=
  ∀ hit ∈ left.hit :: left.behind, ∀ other ∈ right.hit :: right.behind,
    hit.depth.totalKey = other.depth.totalKey ->
      (number left.subsample < number right.subsample ↔ left.subsample < right.subsample) ∧
        (number right.subsample < number left.subsample ↔ right.subsample < left.subsample)

theorem KeepsTies.symm (keeps : KeepsTies number left right) : KeepsTies number right left :=
  fun hit isRight other isLeft same => (keeps other isLeft hit isRight same.symm).symm

theorem KeepsTies.isBefore_eq (keeps : KeepsTies number left right) :
    (left.renumber number).isBefore (right.renumber number) = left.isBefore right := by
  have ties := keeps left.hit List.mem_cons_self right.hit List.mem_cons_self
  rw [Bool.eq_iff_iff, Cursor.isBefore_iff, Cursor.isBefore_iff]
  exact or_congr_right (and_congr_right fun same => (ties same).1)

/-- The next hit of a cursor is one of its hits. -/
theorem KeepsTies.advance
    (keeps : KeepsTies number cursor right)
    (advanced : cursor.advance = some next) :
    KeepsTies number next right := by
  obtain ⟨-, behind_eq, subsample_eq, -⟩ := Cursor.advance_eq_some_iff.mp advanced
  intro hit isBehind other isOther same
  rw [subsample_eq]
  exact keeps hit (List.mem_cons_of_mem _ (behind_eq ▸ isBehind)) other isOther same

theorem advance_renumber (number : Nat -> Nat) (cursor : Cursor) :
    (cursor.renumber number).advance = cursor.advance.map (Cursor.renumber number) := by
  cases behind_eq : cursor.behind with
  | nil => simp [Cursor.advance, Cursor.renumber, behind_eq]
  | cons hit behind =>
      by_cases used : cursor.running.isBlack = true
      · simp [Cursor.advance, Cursor.renumber, behind_eq, used]
      · simp [Cursor.advance, Cursor.renumber, Cursor.delta, behind_eq, used]

/-- A round leaves a queue in which the numbers decide as before. -/
theorem keepsTies_requeue
    (keeps : (cursor :: rest).Pairwise (KeepsTies number)) :
    (requeue cursor rest).Pairwise (KeepsTies number) := by
  obtain ⟨ofCursor, ofRest⟩ := List.pairwise_cons.mp keeps
  unfold requeue
  cases advanced : cursor.advance with
  | none => exact ofRest
  | some next =>
      refine ((enqueue_perm next rest).pairwise_iff KeepsTies.symm).mpr ?_
      exact ofRest.cons fun other inRest => (ofCursor other inRest).advance advanced

/-- The hits are taken in the same order under other numbers. -/
theorem taken_renumber (keeps : queue.Pairwise (KeepsTies number)) :
    taken (queue.map (Cursor.renumber number)) =
      (taken queue).map (Cursor.renumber number) := by
  fun_induction taken queue with
  | case1 => rw [List.map_nil, taken]
  | case2 cursor rest inductionHypothesis =>
      have requeued : requeue (cursor.renumber number) (rest.map (Cursor.renumber number)) =
          (requeue cursor rest).map (Cursor.renumber number) := by
        apply requeue_map (advance_renumber number cursor)
        intro next advanced other inRest
        exact (((List.pairwise_cons.mp keeps).1 other inRest).advance advanced).isBefore_eq
      rw [List.map_cons, taken, requeued, inductionHypothesis (keepsTies_requeue keeps),
        List.map_cons]

theorem nodesOf_renumber (number : Nat -> Nat) (previous : Node) (hits : List Cursor) :
    nodesOf previous (hits.map (Cursor.renumber number)) = nodesOf previous hits := by
  apply nodesOf_map
  · exact fun _ => rfl
  · exact fun _ => rfl

/-- The nodes of a merge are made from the cursors at the first hits under other numbers. -/
theorem nodes_merge_renumber
    {subsamples : List Subsample}
    (keeps : (cursors subsamples).Pairwise (KeepsTies number)) :
    (merge subsamples).nodes = Node.start :: nodesOf Node.start
      (taken (((cursors subsamples).map (Cursor.renumber number)).foldr enqueue [])) := by
  have perm := foldr_enqueue_perm (cursors subsamples)
  rw [nodes_merge_eq, initial, ← foldr_enqueue_map (keeps.imp KeepsTies.isBefore_eq),
    taken_renumber ((perm.pairwise_iff KeepsTies.symm).mpr keeps), nodesOf_renumber]

theorem firstCursor_renumber (total : Single) (place : Nat) (subsample : Subsample) :
    (firstCursor total place subsample).map (Cursor.renumber number) =
      firstCursor total (number place) subsample := by
  unfold firstCursor
  split <;> rfl

/-! ## Subsamples that do not contribute -/

/-- The number of subsamples that contribute in front of the one with a number. -/
def rank (subsamples : List Subsample) (number : Nat) : Nat :=
  (subsamples.take number).countP Subsample.contributes

theorem rank_mono
    (subsamples : List Subsample)
    {first second : Nat}
    (ordered : first ≤ second) :
    rank subsamples first ≤ rank subsamples second :=
  (List.take_prefix_take_left ordered).sublist.countP_le

/-- Of two subsamples, of which the first one contributes, the one in front has the
smaller rank. -/
theorem rank_lt
    {subsamples : List Subsample}
    {subsample : Subsample}
    {first second : Nat}
    (found : subsamples[first]? = some subsample)
    (contributes : subsample.contributes = true)
    (inFront : first < second) :
    rank subsamples first < rank subsamples second := by
  obtain ⟨bound, rfl⟩ := List.getElem?_eq_some_iff.mp found
  have next : rank subsamples (first + 1) = rank subsamples first + 1 := by
    rw [rank, List.take_succ_eq_append_getElem bound, List.countP_append, List.countP_singleton,
      if_pos contributes]
    rfl
  exact Nat.lt_of_lt_of_le (Nat.lt_of_lt_of_eq (Nat.lt_succ_self _) next.symm)
    (rank_mono subsamples inFront)

theorem keepsTies_rank (subsamples : List Subsample) :
    (cursors subsamples).Pairwise (KeepsTies (rank subsamples)) := by
  apply List.pairwise_of_forall_mem_list
  intro left isLeft right isRight _ _ _ _ _
  obtain ⟨_, leftFound, leftContributes, -⟩ := mem_cursors isLeft
  obtain ⟨_, rightFound, rightContributes, -⟩ := mem_cursors isRight
  have ordered {one other : Cursor}
      (smaller : ∀ second, one.subsample < second ->
        rank subsamples one.subsample < rank subsamples second) :
      rank subsamples one.subsample < rank subsamples other.subsample ↔
        one.subsample < other.subsample := by
    refine ⟨fun below => ?_, smaller other.subsample⟩
    by_contra notInFront
    exact absurd (rank_mono subsamples (Nat.le_of_not_lt notInFront)) (Nat.not_le_of_lt below)
  exact ⟨ordered fun _ => rank_lt leftFound leftContributes,
    ordered fun _ => rank_lt rightFound rightContributes⟩

theorem totalWeight_filter (subsamples : List Subsample) :
    totalWeight (subsamples.filter Subsample.contributes) = totalWeight subsamples := by
  rw [totalWeight, totalWeight, List.filter_filter]
  simp only [Bool.and_self]

/-- Among the subsamples that contribute each one is numbered by its rank. -/
theorem cursors_filter (subsamples : List Subsample) :
    cursors (subsamples.filter Subsample.contributes) =
      (cursors subsamples).map (Cursor.renumber (rank subsamples)) := by
  have numbered (total : Single) (place first : Nat) :
      ((subsamples.filter Subsample.contributes).zipIdx place).filterMap
          (fun numbered => firstCursor total numbered.2 numbered.1) =
        (subsamples.zipIdx first).filterMap fun numbered =>
          firstCursor total (place + rank subsamples (numbered.2 - first)) numbered.1 := by
    induction subsamples generalizing place first with
    | nil => rfl
    | cons subsample rest inductionHypothesis =>
        rw [List.zipIdx_cons, List.filterMap_cons, Nat.sub_self]
        cases contributes : subsample.contributes with
        | false =>
            have notFirst : firstCursor total (place + rank (subsample :: rest) 0) subsample =
                none := by
              simp [firstCursor, contributes]
            rw [List.filter_cons_of_neg (by simp [contributes]), notFirst,
              inductionHypothesis place (first + 1)]
            apply List.filterMap_congr
            rintro ⟨other, number⟩ isNumbered
            have behind := (List.mem_zipIdx isNumbered).1
            have number_eq : number - first = number - (first + 1) + 1 := by omega
            simp [number_eq, rank, contributes]
        | true =>
            have later : ((rest.filter Subsample.contributes).zipIdx (place + 1)).filterMap
                (fun numbered => firstCursor total numbered.2 numbered.1) =
                (rest.zipIdx (first + 1)).filterMap fun numbered =>
                  firstCursor total (place + rank (subsample :: rest) (numbered.2 - first))
                    numbered.1 := by
              rw [inductionHypothesis (place + 1) (first + 1)]
              apply List.filterMap_congr
              rintro ⟨other, number⟩ isNumbered
              have behind := (List.mem_zipIdx isNumbered).1
              have number_eq : number - first = number - (first + 1) + 1 := by omega
              simp only [number_eq, rank, List.take_succ_cons, List.countP_cons, contributes,
                if_true]
              congr 1
              omega
            rw [List.filter_cons_of_pos contributes, List.zipIdx_cons, List.filterMap_cons, later]
            simp [rank]
  rw [cursors_eq, cursors_eq, totalWeight_filter, List.map_filterMap, numbered _ 0 0]
  apply List.filterMap_congr
  intro numbered _
  rw [firstCursor_renumber, Nat.sub_zero, Nat.zero_add]

/-- Subsamples that do not contribute can be left out. -/
theorem merge_filter_contributes (subsamples : List Subsample) :
    merge (subsamples.filter Subsample.contributes) = merge subsamples := by
  have nodes_eq : (merge (subsamples.filter Subsample.contributes)).nodes =
      (merge subsamples).nodes := by
    rw [nodes_merge_renumber (keepsTies_rank subsamples), ← cursors_filter, nodes_merge_eq,
      initial]
  exact congrArg Curve.mk nodes_eq

/-! ## Subsamples without a common depth -/

/-- The hits of two cursors lie at different depths. -/
def Cursor.Apart (left right : Cursor) : Prop :=
  ∀ hit ∈ left.hit :: left.behind, ∀ other ∈ right.hit :: right.behind,
    hit.depth.totalKey ≠ other.depth.totalKey

instance : Std.Symm Cursor.Apart :=
  ⟨fun _ _ apart hit isRight other isLeft => (apart other isLeft hit isRight).symm⟩

/-- Where no depths are the same, the numbers decide nothing. -/
theorem Cursor.Apart.keepsTies (apart : left.Apart right) : KeepsTies number left right :=
  fun hit isLeft other isRight same => absurd same (apart hit isLeft other isRight)

/-- Cursors without a common depth are queued in one order only. -/
theorem foldr_enqueue_eq_of_perm
    {cursors others : List Cursor}
    (perm : cursors.Perm others)
    (apart : cursors.Pairwise Cursor.Apart) :
    cursors.foldr enqueue [] = others.foldr enqueue [] := by
  have leftPerm := foldr_enqueue_perm cursors
  have bothPerm := leftPerm.trans (perm.trans (foldr_enqueue_perm others).symm)
  refine List.Perm.eq_of_pairwise ?_ (sorted_foldr_enqueue cursors) (sorted_foldr_enqueue others)
    bothPerm
  intro one other isOne isOther notBehind notBefore
  have inCursors := leftPerm.mem_iff.mp isOne
  have otherInCursors := leftPerm.mem_iff.mp (bothPerm.mem_iff.mpr isOther)
  by_contra different
  have depths := apart.forall inCursors otherInCursors different one.hit List.mem_cons_self
    other.hit List.mem_cons_self
  rw [← Bool.not_eq_true, Cursor.isBefore_iff] at notBehind notBefore
  omega

section Reordered

variable {subsamples others : List Subsample}

/-- The cursors of subsamples without a common depth have no common depth. -/
theorem apart_cursors
    (apart : (subsamples.filter Subsample.contributes).Pairwise Subsample.Apart) :
    (cursors subsamples).Pairwise Cursor.Apart := by
  have numbered : subsamples.zipIdx.Pairwise fun one other =>
      one.1.contributes = true -> other.1.contributes = true -> one.1.Apart other.1 := by
    have unnumbered := List.pairwise_filter.mp apart
    rw [← List.zipIdx_map_fst 0 subsamples] at unnumbered
    exact List.pairwise_map.mp unnumbered
  rw [cursors_eq]
  refine numbered.filterMap _ fun one other apart left left_eq right right_eq => ?_
  obtain ⟨-, leftContributes, left_hits, -⟩ := of_firstCursor_eq_some left_eq
  obtain ⟨-, rightContributes, right_hits, -⟩ := of_firstCursor_eq_some right_eq
  unfold Cursor.Apart
  rw [← left_hits, ← right_hits]
  exact apart leftContributes rightContributes

/-- Without numbers, the cursors at the first hits are known from the subsamples alone. -/
theorem cursors_unnumbered (subsamples : List Subsample) :
    (cursors subsamples).map (Cursor.renumber fun _ => 0) =
      subsamples.filterMap (firstCursor (totalWeight subsamples) 0) := by
  rw [cursors_eq, List.map_filterMap]
  conv_rhs => rw [← List.zipIdx_map_fst 0 subsamples, List.filterMap_map]
  apply List.filterMap_congr
  intro numbered _
  rw [firstCursor_renumber, List.zipIdx_map_fst]
  rfl

/-- The order of subsamples without a common depth does not matter, where their weights
are added up to the same sum. -/
theorem merge_eq_of_perm
    (perm : subsamples.Perm others)
    (apart : (subsamples.filter Subsample.contributes).Pairwise Subsample.Apart)
    (sums : totalWeight subsamples = totalWeight others) :
    merge subsamples = merge others := by
  have otherApart : (others.filter Subsample.contributes).Pairwise Subsample.Apart :=
    ((perm.filter _).pairwise_iff Subsample.Apart.symm).mp apart
  have cursorsApart := apart_cursors apart
  have unnumberedPerm : ((cursors subsamples).map (Cursor.renumber fun _ => 0)).Perm
      ((cursors others).map (Cursor.renumber fun _ => 0)) := by
    rw [cursors_unnumbered, cursors_unnumbered, sums]
    exact perm.filterMap _
  have unnumberedApart : ((cursors subsamples).map (Cursor.renumber fun _ => 0)).Pairwise
      Cursor.Apart := List.pairwise_map.mpr cursorsApart
  have nodes_eq : (merge subsamples).nodes = (merge others).nodes := by
    rw [nodes_merge_renumber (cursorsApart.imp Cursor.Apart.keepsTies),
      nodes_merge_renumber ((apart_cursors otherApart).imp Cursor.Apart.keepsTies),
      foldr_enqueue_eq_of_perm unnumberedPerm unnumberedApart]
  exact congrArg Curve.mk nodes_eq

/-- Subsamples whose weight is not above zero can be put in anywhere. -/
theorem merge_insert_weightless
    (front behind : List Subsample)
    {inserted : List Subsample}
    (weightless : ∀ subsample ∈ inserted, ¬Single.zero < subsample.weight) :
    merge (front ++ inserted ++ behind) = merge (front ++ behind) := by
  have idle : inserted.filter Subsample.contributes = [] :=
    List.filter_eq_nil_iff.mpr fun subsample isInserted contributes =>
      weightless subsample isInserted (zero_lt_weight contributes)
  rw [← merge_filter_contributes, ← merge_filter_contributes (front ++ behind)]
  simp only [List.filter_append, idle, List.append_nil]

end Reordered
end Merge

/-- The order of the subsamples is irrelevant where no two of them have hits at one depth
and where their weights are added up to the same sum.  Subsamples whose weight is zero,
negative or not a number change nothing, wherever they are put in. -/
theorem merge_reordered :
    (∀ subsamples others : List Subsample, subsamples.Perm others ->
      (subsamples.filter Subsample.contributes).Pairwise Subsample.Apart ->
      Merge.totalWeight subsamples = Merge.totalWeight others ->
      merge subsamples = merge others) ∧
    ∀ front inserted behind : List Subsample,
      (∀ subsample ∈ inserted, ¬Single.zero < subsample.weight) ->
      merge (front ++ inserted ++ behind) = merge (front ++ behind) :=
  ⟨fun _ _ => Merge.merge_eq_of_perm,
    fun front _ behind => Merge.merge_insert_weightless front behind⟩

namespace ThreePanes

/-- A pane at three depths, the second and third of them the same. -/
def layered : Subsample :=
  ⟨Single.one, .layered [⟨Single.one, Color.gray Single.half⟩,
    ⟨Single.ofNat 3, Color.gray Single.half⟩, ⟨Single.ofNat 3, Color.gray Single.half⟩]⟩

/-- An opaque surface in between, with twice the weight. -/
def solid : Subsample := ⟨Single.ofNat 2, .solid (Hit.ofDepth (Single.ofNat 2))⟩

/-- A subsample that hits nothing. -/
def clear : Subsample := ⟨Single.one, .layered []⟩

/-- Surfaces whose weights are zero, negative and not a number. -/
def weightless : List Subsample :=
  [Single.zero, -Single.one, Single.invalid].map fun weight =>
    ⟨weight, .solid (Hit.ofDepth Single.half)⟩

end ThreePanes

open ThreePanes in
/-- The merge of a pane and of a surface between its layers, in both orders, and with
weightless surfaces in front of everything. -/
theorem merge_reordered_threePanes :
    [layered, clear, solid].Perm [solid, layered, clear] ∧
      ([layered, clear, solid].filter Subsample.contributes).Pairwise Subsample.Apart ∧
      Merge.totalWeight [layered, clear, solid] = Merge.totalWeight [solid, layered, clear] ∧
      (∀ subsample ∈ weightless, ¬Single.zero < subsample.weight) ∧
      merge ([solid] ++ weightless ++ [layered, clear]) = merge [layered, clear, solid] ∧
      (merge [layered, clear, solid]).nodes.length = 7 := by
  have perm : [layered, clear, solid].Perm [solid, layered, clear] := by decide +kernel
  have apart : ([layered, clear, solid].filter Subsample.contributes).Pairwise Subsample.Apart := by
    decide +kernel
  have sums : Merge.totalWeight [layered, clear, solid] =
      Merge.totalWeight [solid, layered, clear] := by decide +kernel
  have withoutWeight : ∀ subsample ∈ weightless, ¬Single.zero < subsample.weight := by
    decide +kernel
  obtain ⟨reordered, inserted⟩ := merge_reordered
  refine ⟨perm, apart, sums, withoutWeight, ?_, by decide +kernel⟩
  exact (inserted [solid] weightless [layered, clear] withoutWeight).trans
    (reordered _ _ perm apart sums).symm

end DeepShadow
