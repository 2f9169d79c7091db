import DeepShadow.Proofs.Assembly.Canvas

/-!
# The strips of a region

A strip shows the runs of the pixels of one row: it knows how many nodes each of
them has, and its values are the runs one behind the other.  The strips of a
region show its runs row by row.
-/

namespace DeepShadow
namespace Assembly

open Region (nodeTotal)

namespace Strip

/-- A strip holds the given runs. -/
structure Shows
    (channels : Nat)
    (runs : List (List Single))
    (strip : Strip) : Prop where
  areRuns : ∀ run ∈ runs, IsRun channels run
  lengths_eq : strip.lengths = nodeCounts channels runs
  values_eq : strip.values channels = .ok runs.flatten

variable {channels : Nat} {runs : List (List Single)} {strip : Strip}

theorem Shows.isNeglectable_iff (shows : strip.Shows channels runs) :
    strip.isNeglectable = true ↔ ∀ count ∈ nodeCounts channels runs, count = 1 := by
  unfold isNeglectable
  rw [shows.lengths_eq, List.all_eq_true]
  simp only [beq_iff_eq]

/-- The first node of every merged curve is stored as full visibility. -/
theorem flattenNode_start (supported : supportedChannels channels = true) :
    Curve.flattenNode channels Node.start = .ok (Tile.visibleNode channels) := by
  unfold supportedChannels at supported
  rw [Bool.or_eq_true, beq_iff_eq, beq_iff_eq] at supported
  rcases supported with rfl | rfl
  · decide +kernel
  · rfl

theorem mapM_replicate_ok
    {α β ε : Type}
    {function : α -> Except ε β}
    {value : α}
    {result : β}
    (succeeds : function value = .ok result)
    (count : Nat) :
    (List.replicate count value).mapM function = .ok (List.replicate count result) := by
  induction count with
  | zero => rfl
  | succ count inductionHypothesis =>
      rw [List.replicate_succ, List.mapM_cons, succeeds, inductionHypothesis]
      rfl

theorem shows_unoccluded
    (supported : supportedChannels channels = true)
    (width : Nat) :
    (Strip.unoccluded width).Shows channels
      (List.replicate width (Tile.visibleNode channels)) := by
  refine ⟨?_, ?_, ?_⟩
  · intro run member
    rw [List.eq_of_mem_replicate member]
    exact isRun_visibleNode channels
  · have one : (Tile.visibleNode channels).length / (channels + 1) = 1 := by
      unfold Tile.visibleNode
      rw [List.length_cons, List.length_replicate, Nat.div_self (Nat.succ_pos channels)]
    unfold nodeCounts lengths
    rw [List.map_replicate, one]
  · simp only [values, mapM_replicate_ok (flattenNode_start supported)]
    rfl

theorem shows_curves
    {lengths : List Nat}
    {values : List Single}
    (enough : values.length = nodeTotal lengths * (channels + 1))
    (positive : ∀ length ∈ lengths, 0 < length) :
    (Strip.curves lengths values).Shows channels (splitRuns (channels + 1) lengths values) :=
  { areRuns := isRun_splitRuns enough positive
    lengths_eq := (nodeCounts_splitRuns enough).symm
    values_eq := congrArg Except.ok (splitRuns_eq enough).1.symm }

@[simp] theorem length_cut
    (width stride rows : Nat)
    (lengths : List Nat)
    (values : List Single) :
    (cut width stride rows lengths values).length = rows := by
  induction rows generalizing lengths values with
  | zero => rfl
  | succ rows inductionHypothesis => rw [cut, List.length_cons, inductionHypothesis]

/-- Each strip that is cut has the curves of one row. -/
theorem length_lengths_of_mem_cut
    {width stride rows : Nat}
    {lengths : List Nat}
    {values : List Single}
    (count : lengths.length = width * rows) :
    ∀ strip ∈ cut width stride rows lengths values, strip.lengths.length = width := by
  induction rows generalizing lengths values with
  | zero =>
      intro strip member
      cases member
  | succ rows inductionHypothesis =>
      rw [Nat.mul_succ] at count
      intro strip member
      rw [cut, List.mem_cons] at member
      rcases member with rfl | inRest
      · show (lengths.take width).length = width
        rw [List.length_take, count]
        omega
      · refine inductionHypothesis ?_ strip inRest
        rw [List.length_drop, count]
        omega

/-- Each strip that is cut from curves holds the runs of its row. -/
theorem getElem?_cut
    {width : Nat}
    {rows : Nat}
    {lengths : List Nat}
    {values : List Single}
    (count : lengths.length = width * rows)
    (enough : values.length = nodeTotal lengths * (channels + 1))
    (positive : ∀ length ∈ lengths, 0 < length) :
    ∀ row, row < rows -> ∃ strip,
      (cut width (channels + 1) rows lengths values)[row]? = some strip ∧
      strip.Shows channels
        (((splitRuns (channels + 1) lengths values).drop (row * width)).take width) := by
  induction rows generalizing lengths values with
  | zero => exact fun row bound => absurd bound (Nat.not_lt_zero row)
  | succ rows inductionHypothesis =>
      have firstCount : (lengths.take width).length = width := by
        rw [List.length_take, count, Nat.mul_succ]
        omega
      have restCount : (lengths.drop width).length = width * rows := by
        rw [List.length_drop, count, Nat.mul_succ]
        omega
      have total : nodeTotal lengths =
          nodeTotal (lengths.take width) + nodeTotal (lengths.drop width) := by
        rw [← Region.nodeTotal_append, List.take_append_drop]
      have firstEnough :
          (values.take (nodeTotal (lengths.take width) * (channels + 1))).length =
            nodeTotal (lengths.take width) * (channels + 1) := by
        rw [List.length_take, enough, total, Nat.add_mul]
        omega
      have restEnough :
          (values.drop (nodeTotal (lengths.take width) * (channels + 1))).length =
            nodeTotal (lengths.drop width) * (channels + 1) := by
        rw [List.length_drop, enough, total, Nat.add_mul]
        omega
      have split : splitRuns (channels + 1) lengths values =
          splitRuns (channels + 1) (lengths.take width)
              (values.take (nodeTotal (lengths.take width) * (channels + 1))) ++
            splitRuns (channels + 1) (lengths.drop width)
              (values.drop (nodeTotal (lengths.take width) * (channels + 1))) := by
        rw [← splitRuns_append, List.take_append_drop]
      have restShows := inductionHypothesis restCount restEnough
        fun length member => positive length (List.mem_of_mem_drop member)
      intro row bound
      rw [cut, split]
      cases row with
      | zero =>
          refine ⟨_, rfl, ?_⟩
          have firstRuns : width = (splitRuns (channels + 1) (lengths.take width)
              (values.take (nodeTotal (lengths.take width) * (channels + 1)))).length := by
            rw [length_splitRuns, firstCount]
          rw [Nat.zero_mul, List.drop_zero, List.take_left' firstRuns.symm]
          exact shows_curves firstEnough fun length member =>
            positive length (List.mem_of_mem_take member)
      | succ row =>
          obtain ⟨strip, found, shows⟩ := restShows row (Nat.lt_of_succ_lt_succ bound)
          refine ⟨strip, found, ?_⟩
          have index : (row + 1) * width = (splitRuns (channels + 1) (lengths.take width)
              (values.take (nodeTotal (lengths.take width) * (channels + 1)))).length +
                row * width := by
            rw [length_splitRuns, firstCount, Nat.succ_mul, Nat.add_comm]
          rw [index, List.drop_length_add_append]
          exact shows

/-- The runs of one row of a region. -/
theorem take_drop_runs
    {region : Region}
    (wellFormed : region.WellFormed)
    {row : Nat}
    (bound : row < region.bounds.height) :
    (region.runs.drop (row * region.bounds.width)).take region.bounds.width =
      (List.range' region.bounds.left region.bounds.width).map fun x =>
        region.runAt x (region.bounds.top + row) := by
  have inside : row * region.bounds.width + region.bounds.width ≤ region.runs.length := by
    rw [wellFormed.length_runs, Rectangle.pixelCount, ← Nat.succ_mul, Nat.mul_comm]
    exact Nat.mul_le_mul_left _ bound
  apply List.ext_getElem?
  intro column
  by_cases columnBound : column < region.bounds.width
  · have indexBound : row * region.bounds.width + column < region.runs.length := by omega
    rw [List.getElem?_take_of_lt columnBound, List.getElem?_drop, List.getElem?_map,
      List.getElem?_range' columnBound, List.getElem?_eq_getElem indexBound]
    unfold Region.runAt Region.pixelIndex
    simp only [Option.map_some, Nat.one_mul, Nat.add_sub_cancel_left]
    rw [List.getD_eq_getElem?_getD, List.getElem?_eq_getElem indexBound]
    rfl
  · rw [List.getElem?_eq_none, List.getElem?_eq_none]
    · rw [List.length_map, List.length_range']
      omega
    · rw [List.length_take]
      omega

/-- There is a strip for each row of a rectangle, with its pixels. -/
structure Cover (strips : List Strip) (bounds : Rectangle) : Prop where
  length_eq : strips.length = bounds.height
  width_eq : ∀ strip ∈ strips, strip.lengths.length = bounds.width

/-- A region has a strip for each of its rows. -/
@[simp] theorem length_ofRegion (region : Region) :
    (ofRegion region).length = region.bounds.height := by
  unfold ofRegion
  cases region.lengths with
  | none => exact List.length_replicate
  | some lengths => exact length_cut _ _ _ _ _

/-- The strips of a region are the rows of its rectangle. -/
theorem cover_ofRegion
    {region : Region}
    (wellFormed : region.WellFormed) :
    Cover (ofRegion region) region.bounds := by
  refine ⟨length_ofRegion region, ?_⟩
  intro strip member
  unfold ofRegion at member
  cases carried : region.lengths with
  | none =>
      rw [carried] at member
      rw [List.eq_of_mem_replicate member]
      exact List.length_replicate
  | some lengths =>
      rw [carried] at member
      exact length_lengths_of_mem_cut (wellFormed lengths carried).1 strip member

/-- The strips of a region show its rows. -/
theorem getElem?_ofRegion
    {region : Region}
    (supported : supportedChannels region.channels = true)
    (wellFormed : region.WellFormed) :
    ∀ row, row < region.bounds.height -> ∃ strip, (ofRegion region)[row]? = some strip ∧
      strip.Shows region.channels
        ((List.range' region.bounds.left region.bounds.width).map fun x =>
          region.runAt x (region.bounds.top + row)) := by
  intro row bound
  rw [← take_drop_runs wellFormed bound]
  unfold ofRegion Region.runs
  cases carried : region.lengths with
  | none =>
      refine ⟨.unoccluded region.bounds.width, ?_, ?_⟩
      · simp only [List.getElem?_replicate, if_pos bound]
      · have inside : region.bounds.width ≤
            region.bounds.pixelCount - row * region.bounds.width := by
          rw [Rectangle.pixelCount, Nat.mul_comm row, ← Nat.mul_sub]
          exact Nat.le_mul_of_pos_right _ (Nat.sub_pos_of_lt bound)
        simp only
        rw [List.drop_replicate, List.take_replicate, Nat.min_eq_left inside]
        exact shows_unoccluded supported _
  | some lengths =>
      obtain ⟨count, positive, enough⟩ := wellFormed lengths carried
      exact getElem?_cut count enough positive row bound

end Strip
end Assembly
end DeepShadow
