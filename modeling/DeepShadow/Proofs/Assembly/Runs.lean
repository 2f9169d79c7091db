import Mathlib.Data.List.Basic
import DeepShadow.Assembly.PendingTile
import DeepShadow.Proofs.Grid.Pixels
import DeepShadow.Proofs.Tile.WellFormed
import DeepShadow.Proofs.Visibility.WholeNodes

/-!
# Tiles from the runs of their pixels

What a pixel contributes to a tile is a run: the stored form of the nodes of its
curve.  A tile is the runs of its pixels, one behind the other, with the number
of nodes in front of each; from the tile the run of each pixel is read back.
-/

namespace DeepShadow

/-! ## Sums of lengths -/

namespace Region

@[simp] theorem nodeTotal_nil : nodeTotal [] = 0 := rfl

@[simp] theorem nodeTotal_cons (length : Nat) (lengths : List Nat) :
    nodeTotal (length :: lengths) = length + nodeTotal lengths := rfl

@[simp] theorem nodeTotal_append (first second : List Nat) :
    nodeTotal (first ++ second) = nodeTotal first + nodeTotal second := by
  induction first with
  | nil => simp
  | cons length lengths inductionHypothesis =>
      rw [List.cons_append, nodeTotal_cons, nodeTotal_cons, inductionHypothesis, Nat.add_assoc]

theorem nodeTotal_replicate_one (count : Nat) : nodeTotal (List.replicate count 1) = count := by
  induction count with
  | zero => rfl
  | succ count inductionHypothesis =>
      rw [List.replicate_succ, nodeTotal_cons, inductionHypothesis, Nat.add_comm]

theorem le_nodeTotal_of_mem
    {lengths : List Nat}
    {length : Nat}
    (member : length ∈ lengths) :
    length ≤ nodeTotal lengths := by
  obtain ⟨front, behind, rfl⟩ := List.append_of_mem member
  rw [nodeTotal_append, nodeTotal_cons]
  omega

theorem nodeTotal_take_succ
    {lengths : List Nat}
    {index : Nat}
    (bound : index < lengths.length) :
    nodeTotal (lengths.take (index + 1)) = nodeTotal (lengths.take index) + lengths[index] := by
  rw [List.take_succ_eq_append_getElem bound, nodeTotal_append]
  rfl

theorem nodeTotal_take_le
    (lengths : List Nat)
    (count : Nat) :
    nodeTotal (lengths.take count) ≤ nodeTotal lengths := by
  calc nodeTotal (lengths.take count)
      ≤ nodeTotal (lengths.take count) + nodeTotal (lengths.drop count) := Nat.le_add_right _ _
    _ = nodeTotal lengths := by rw [← nodeTotal_append, List.take_append_drop]

end Region

open Region (nodeTotal)

/-! ## Runs -/

/-- A run consists of one or more whole nodes. -/
def IsRun (channels : Nat) (run : List Single) : Prop :=
  ∃ count, 0 < count ∧ run.length = count * (channels + 1)

/-- The number of nodes of each of several runs. -/
def nodeCounts (channels : Nat) (runs : List (List Single)) : List Nat :=
  runs.map fun run => run.length / (channels + 1)

@[simp] theorem length_nodeCounts (channels : Nat) (runs : List (List Single)) :
    (nodeCounts channels runs).length = runs.length := List.length_map _

theorem nodeCounts_append (channels : Nat) (first second : List (List Single)) :
    nodeCounts channels (first ++ second) =
      nodeCounts channels first ++ nodeCounts channels second := List.map_append

theorem IsRun.length_eq
    {channels : Nat}
    {run : List Single}
    (isRun : IsRun channels run) :
    run.length / (channels + 1) * (channels + 1) = run.length := by
  obtain ⟨count, _, length_eq⟩ := isRun
  rw [length_eq, Nat.mul_div_cancel _ (Nat.succ_pos channels)]

/-- The values of several runs are as many as their nodes take. -/
theorem length_flatten_runs
    {channels : Nat}
    {runs : List (List Single)}
    (areRuns : ∀ run ∈ runs, IsRun channels run) :
    runs.flatten.length = nodeTotal (nodeCounts channels runs) * (channels + 1) := by
  induction runs with
  | nil => simp [nodeCounts]
  | cons run runs inductionHypothesis =>
      have isRun := areRuns run List.mem_cons_self
      have rest := inductionHypothesis fun other member =>
        areRuns other (List.mem_cons_of_mem _ member)
      unfold nodeCounts at rest ⊢
      rw [List.flatten_cons, List.length_append, rest, List.map_cons, Region.nodeTotal_cons,
        Nat.add_mul, isRun.length_eq]

/-! ## Offsets -/

namespace Assembly.PendingTile

/-- The totals behind each of some lengths, counted from `total`. -/
def totals (total : Nat) : List Nat -> List Nat
  | [] => []
  | length :: lengths => (total + length) :: totals (total + length) lengths

theorem foldl_offsets
    (lengths : List Nat)
    (taken : Array UInt32)
    (total : Nat) :
    (lengths.foldl
      (fun (offsets, total) length =>
        let total := total + UInt32.ofNat length
        (offsets.push total, total))
      (taken, UInt32.ofNat total)).1 =
        taken ++ ((totals total lengths).map UInt32.ofNat).toArray := by
  induction lengths generalizing taken total with
  | nil => simp [totals]
  | cons length lengths inductionHypothesis =>
      rw [List.foldl_cons]
      simp only [← UInt32.ofNat_add]
      rw [inductionHypothesis]
      simp [totals]

theorem totals_eq (total : Nat) (lengths : List Nat) :
    totals total lengths =
      (List.range lengths.length).map fun index =>
        total + nodeTotal (lengths.take (index + 1)) := by
  induction lengths generalizing total with
  | nil => rfl
  | cons length lengths inductionHypothesis =>
      rw [totals, inductionHypothesis, List.length_cons, List.range_succ_eq_map, List.map_cons,
        List.map_map]
      simp [Function.comp_def, Nat.add_assoc]

/-- The offset of a curve is the number of nodes in front of it, as a word. -/
theorem offsets_eq (lengths : List Nat) :
    offsets lengths =
      ((List.range (lengths.length + 1)).map fun index =>
        UInt32.ofNat (nodeTotal (lengths.take index))).toArray := by
  unfold offsets
  rw [show (0 : UInt32) = UInt32.ofNat 0 from rfl, foldl_offsets, totals_eq,
    List.range_succ_eq_map]
  simp [Function.comp_def]

@[simp] theorem size_offsets (lengths : List Nat) :
    (offsets lengths).size = lengths.length + 1 := by
  rw [offsets_eq]
  simp

theorem getElem?_offsets
    {lengths : List Nat}
    {index : Nat}
    (bound : index ≤ lengths.length) :
    (offsets lengths)[index]? = some (UInt32.ofNat (nodeTotal (lengths.take index))) := by
  rw [offsets_eq, List.getElem?_toArray, List.getElem?_map,
    List.getElem?_range (Nat.lt_succ_of_le bound)]
  rfl

/-- Offsets do not overflow where all nodes together can be counted. -/
theorem toNat_getD_offsets
    {lengths : List Nat}
    (countable : nodeTotal lengths < 0x100000000)
    {index : Nat}
    (bound : index ≤ lengths.length) :
    ((offsets lengths).getD index 0).toNat = nodeTotal (lengths.take index) := by
  rw [Array.getD_eq_getD_getElem?, getElem?_offsets bound, Option.getD_some, UInt32.toNat_ofNat']
  exact Nat.mod_eq_of_lt (Nat.lt_of_le_of_lt (Region.nodeTotal_take_le lengths index) countable)

end Assembly.PendingTile

open Assembly (PendingTile)

/-! ## The tile -/

namespace Tile

/-- The tile whose pixels have the given runs. -/
def ofRuns (placement : Placement) (channels : Nat) (runs : List (List Single)) : Tile :=
  { placement
    channels
    offsets := PendingTile.offsets (nodeCounts channels runs)
    values := runs.flatten.toArray }

variable {placement : Placement} {channels : Nat} {runs : List (List Single)}

/-- One run for each pixel makes a tile, where its nodes can be counted. -/
theorem ofParts_ofRuns
    (supported : supportedChannels channels = true)
    (onePerPixel : runs.length = placement.pixelCount)
    (areRuns : ∀ run ∈ runs, IsRun channels run)
    (countable : nodeTotal (nodeCounts channels runs) < 0x100000000) :
    ofParts placement channels (PendingTile.offsets (nodeCounts channels runs))
      runs.flatten.toArray = .ok (ofRuns placement channels runs) := by
  have count : (nodeCounts channels runs).length = placement.pixelCount := by
    rw [length_nodeCounts, onePerPixel]
  rw [ofParts_eq_ok_iff]
  refine ⟨⟨supported, ?_, ?_, ?_, ?_⟩, rfl⟩
  · rw [PendingTile.size_offsets, length_nodeCounts, onePerPixel]
  · apply UInt32.toNat_inj.mp
    rw [PendingTile.toNat_getD_offsets countable (Nat.zero_le _)]
    rfl
  · unfold firstDecrease
    rw [Option.map_eq_none_iff, List.find?_eq_none]
    intro index member decrease
    rw [PendingTile.size_offsets, Nat.add_sub_cancel, List.mem_range] at member
    rw [decide_eq_true_eq, UInt32.lt_iff_toNat_lt,
      PendingTile.toNat_getD_offsets countable member,
      PendingTile.toNat_getD_offsets countable (Nat.le_of_lt member),
      Region.nodeTotal_take_succ member] at decrease
    omega
  · rw [PendingTile.toNat_getD_offsets countable (Nat.le_of_eq count.symm),
      List.take_of_length_le (Nat.le_of_eq count), ← length_flatten_runs areRuns]
    exact List.size_toArray

/-- The values of a run lie behind those of the runs in front of it. -/
theorem extract_flatten
    (areRuns : ∀ run ∈ runs, IsRun channels run)
    {index : Nat}
    (bound : index < runs.length) :
    runs.flatten.toArray.extract
      (nodeTotal ((nodeCounts channels runs).take index) * (channels + 1))
      (nodeTotal ((nodeCounts channels runs).take (index + 1)) * (channels + 1)) =
        runs[index].toArray := by
  have split : runs.flatten =
      (runs.take index).flatten ++ (runs[index] ++ (runs.drop (index + 1)).flatten) := by
    conv_lhs => rw [← List.take_append_drop index runs, List.flatten_append]
    rw [List.drop_eq_getElem_cons bound, List.flatten_cons]
  have start : nodeTotal ((nodeCounts channels runs).take index) * (channels + 1) =
      (runs.take index).flatten.length := by
    rw [length_flatten_runs fun run member => areRuns run (List.mem_of_mem_take member)]
    unfold nodeCounts
    rw [List.map_take]
  have countBound : index < (nodeCounts channels runs).length := by
    rw [length_nodeCounts]
    exact bound
  have last : (nodeCounts channels runs)[index] * (channels + 1) = runs[index].length := by
    simp only [nodeCounts, List.getElem_map]
    exact (areRuns _ (List.getElem_mem bound)).length_eq
  rw [Region.nodeTotal_take_succ countBound, Nat.add_mul, start, last, List.extract_toArray,
    List.extract_eq_take_drop, split, List.drop_left, Nat.add_sub_cancel_left, List.take_left]

/-- A run is stored as it is. -/
theorem ofData_run
    {run : List Single}
    (supported : supportedChannels channels = true)
    (isRun : IsRun channels run) :
    StoredCurve.ofData channels run.toArray = .ok ⟨channels, run.toArray⟩ := by
  obtain ⟨count, _, length_eq⟩ := isRun
  apply StoredCurve.ofData_eq_ok supported
  rw [List.size_toArray, length_eq]
  exact Nat.dvd_mul_left _ _

/-- The run of a pixel is read back from the tile. -/
theorem curve_ofRuns
    (supported : supportedChannels channels = true)
    (onePerPixel : runs.length = placement.pixelCount)
    (areRuns : ∀ run ∈ runs, IsRun channels run)
    (countable : nodeTotal (nodeCounts channels runs) < 0x100000000)
    {x y : Nat}
    (insideX : x < placement.width)
    (insideY : y < placement.height) :
    (ofRuns placement channels runs).curve x y =
      .ok ⟨channels, (runs.getD (y * placement.width + x) []).toArray⟩ := by
  have bound : y * placement.width + x < runs.length := by
    rw [onePerPixel]
    exact Placement.index_lt insideX insideY
  have countBound : y * placement.width + x < (nodeCounts channels runs).length := by
    rw [length_nodeCounts]
    exact bound
  have ordered : nodeTotal ((nodeCounts channels runs).take (y * placement.width + x)) *
      (channels + 1) ≤
        nodeTotal ((nodeCounts channels runs).take (y * placement.width + x + 1)) *
          (channels + 1) := by
    rw [Region.nodeTotal_take_succ countBound]
    exact Nat.mul_le_mul_right _ (Nat.le_add_right _ _)
  have inValues : nodeTotal ((nodeCounts channels runs).take (y * placement.width + x + 1)) *
      (channels + 1) ≤ runs.flatten.toArray.size := by
    rw [List.size_toArray, length_flatten_runs areRuns]
    exact Nat.mul_le_mul_right _ (Region.nodeTotal_take_le _ _)
  unfold curve
  rw [if_pos ⟨insideX, insideY⟩]
  simp only [ofRuns, PendingTile.getElem?_offsets countBound,
    PendingTile.getElem?_offsets (Nat.le_of_lt countBound), UInt32.toNat_ofNat']
  rw [Nat.mod_eq_of_lt (Nat.lt_of_le_of_lt (Region.nodeTotal_take_le _ _) countable),
    Nat.mod_eq_of_lt (Nat.lt_of_le_of_lt (Region.nodeTotal_take_le _ _) countable),
    if_pos ⟨ordered, inValues⟩, extract_flatten areRuns bound,
    List.getD_eq_getElem?_getD, List.getElem?_eq_getElem bound, Option.getD_some]
  exact ofData_run supported (areRuns _ (List.getElem_mem bound))

/-- A tile has to be stored where one of its pixels has more than one node. -/
theorem isNeglectable_ofRuns
    (countable : nodeTotal (nodeCounts channels runs) < 0x100000000) :
    (ofRuns placement channels runs).isNeglectable = true ↔
      ∀ count ∈ nodeCounts channels runs, count = 1 := by
  have difference : ∀ index (bound : index < (nodeCounts channels runs).length),
      (PendingTile.offsets (nodeCounts channels runs)).getD (index + 1) 0 -
        (PendingTile.offsets (nodeCounts channels runs)).getD index 0 =
          UInt32.ofNat (nodeCounts channels runs)[index] := by
    intro index bound
    rw [Array.getD_eq_getD_getElem?, Array.getD_eq_getD_getElem?,
      PendingTile.getElem?_offsets bound, PendingTile.getElem?_offsets (Nat.le_of_lt bound),
      Region.nodeTotal_take_succ bound, Option.getD_some, Option.getD_some, UInt32.ofNat_add,
      UInt32.add_comm, UInt32.add_sub_cancel]
  have wordIsOne : ∀ index (bound : index < (nodeCounts channels runs).length),
      UInt32.ofNat (nodeCounts channels runs)[index] = 1 ↔
        (nodeCounts channels runs)[index] = 1 := by
    intro index bound
    have total := Region.nodeTotal_take_le (nodeCounts channels runs) (index + 1)
    rw [Region.nodeTotal_take_succ bound] at total
    rw [← UInt32.toNat_inj, UInt32.toNat_ofNat', Nat.mod_eq_of_lt (by omega)]
    rfl
  unfold isNeglectable ofRuns
  simp only [PendingTile.size_offsets, Nat.add_sub_cancel, List.all_eq_true, List.mem_range,
    beq_iff_eq]
  constructor
  · intro neglectable count member
    obtain ⟨index, bound, rfl⟩ := List.getElem_of_mem member
    exact (wordIsOne index bound).mp ((difference index bound).symm.trans (neglectable index bound))
  · intro allOne index bound
    rw [difference index bound]
    exact (wordIsOne index bound).mpr (allOne _ (List.getElem_mem bound))

/-! ## Fully visible tiles -/

@[simp] theorem length_visibleNode (channels : Nat) :
    (visibleNode channels).length = channels + 1 := by
  unfold visibleNode
  rw [List.length_cons, List.length_replicate]

theorem nodeCounts_visible (channels count : Nat) :
    nodeCounts channels (List.replicate count (visibleNode channels)) =
      List.replicate count 1 := by
  unfold nodeCounts
  rw [List.map_replicate, length_visibleNode, Nat.div_self (Nat.succ_pos channels)]

/-- The offsets of a fully visible tile count its pixels. -/
theorem offsets_visible (small : placement.pixelCount < 0x100000000) :
    (visible placement channels).offsets =
      PendingTile.offsets (List.replicate placement.pixelCount 1) := by
  unfold visible
  rw [Nat.mod_eq_of_lt small]
  apply Array.ext_getElem?
  intro index
  rw [Array.getElem?_ofFn]
  split
  next bound =>
    have inside : index ≤ placement.pixelCount := Nat.le_of_lt_succ bound
    rw [PendingTile.getElem?_offsets (by rw [List.length_replicate]; exact inside),
      List.take_replicate, Nat.min_eq_left inside, Region.nodeTotal_replicate_one]
  next bound =>
    rw [Array.getElem?_eq_none]
    rw [PendingTile.size_offsets, List.length_replicate]
    exact Nat.le_of_not_lt bound

/-- The values of a fully visible tile are those of one node, over and over. -/
theorem values_visible :
    (visible placement channels).values =
      (List.replicate placement.pixelCount (visibleNode channels)).flatten.toArray := by
  have rows : List.replicate placement.pixelCount (visibleNode channels) =
      (List.range' 0 placement.pixelCount).map fun _ => visibleNode channels := by
    rw [List.map_const', List.length_range']
  rw [rows, ← List.flatMap_def]
  unfold visible
  apply Array.ext_getElem?
  intro index
  rw [Array.getElem?_ofFn, List.getElem?_toArray]
  split
  next bound =>
    have column : index % (channels + 1) < channels + 1 := Nat.mod_lt _ (Nat.succ_pos _)
    have row : index / (channels + 1) < placement.pixelCount := by
      apply Nat.div_lt_of_lt_mul
      rw [Nat.mul_comm]
      exact bound
    have place := getElem?_flatMap_rows (fun _ => length_visibleNode channels) 0 _ row column
    rw [Nat.div_add_mod'] at place
    rw [place]
    simp [Array.getD_eq_getD_getElem?, column]
  next bound =>
    rw [List.getElem?_eq_none]
    simp
    omega

/-- A fully visible tile has the same run for each of its pixels. -/
theorem visible_eq_ofRuns (small : placement.pixelCount < 0x100000000) :
    visible placement channels =
      ofRuns placement channels (List.replicate placement.pixelCount (visibleNode channels)) := by
  have tile_eq : visible placement channels = ⟨placement, channels,
      (visible placement channels).offsets, (visible placement channels).values⟩ := rfl
  rw [tile_eq, offsets_visible small, values_visible]
  unfold ofRuns
  rw [nodeCounts_visible]

end Tile
end DeepShadow
