import DeepShadow.Proofs.Tile.Lookup
import DeepShadow.Proofs.Visibility.SingleNode

/-!
# Tiles of single nodes

A neglectable tile has one node for each pixel, and its offsets count the pixels.
What such a tile answers is decided by these nodes; it answers like the fully visible
tile where all of them are clear.
-/

namespace DeepShadow
namespace Tile

/-- Each pixel has one node, which occludes nothing. -/
def Clear (tile : Tile) : Prop :=
  ∀ x y, tile.placement.contains x y = true ->
    ∃ curve node, tile.curveAtPixel x y = .ok (some curve) ∧
      curve.nodes = .ok [node] ∧ node.IsClear

variable {tile : Tile} {x y : Nat}

section Neglectable

variable (wellFormed : tile.WellFormed) (neglectable : tile.isNeglectable = true)

include wellFormed neglectable

/-- The offsets of a neglectable tile count its pixels. -/
theorem WellFormed.toNat_offset
    {index : Nat}
    (bound : index ≤ tile.placement.pixelCount) :
    (tile.offsets.getD index 0).toNat = index := by
  obtain ⟨⟨_, size_eq, first, increasing, _⟩, _⟩ := ofParts_eq_ok_iff.mp wellFormed
  induction index with
  | zero => rw [first]; rfl
  | succ index inductionHypothesis =>
      have before := inductionHypothesis (Nat.le_of_succ_le bound)
      have inside : index ∈ List.range (tile.offsets.size - 1) := by
        rw [List.mem_range, size_eq]
        exact bound
      unfold firstDecrease at increasing
      rw [Option.map_eq_none_iff, List.find?_eq_none] at increasing
      have notBelow := increasing index inside
      unfold isNeglectable at neglectable
      rw [List.all_eq_true] at neglectable
      have difference := neglectable index inside
      rw [beq_iff_eq] at difference
      rw [decide_eq_true_eq, UInt32.lt_iff_toNat_lt] at notBelow
      -- One node more, and no more nodes than a word can count.
      have next : tile.offsets.getD (index + 1) 0 = 1 + tile.offsets.getD index 0 := by
        rw [← difference, UInt32.sub_add_cancel]
      have next_toNat := congrArg UInt32.toNat next
      rw [UInt32.toNat_add, before] at next_toNat
      have wordBound := (tile.offsets.getD index 0).toNat_lt
      rw [before] at notBelow wordBound
      have one : (1 : UInt32).toNat = 1 := rfl
      omega

/-- A neglectable tile has no more pixels than a word can count. -/
theorem WellFormed.pixelCount_lt : tile.placement.pixelCount < 0x100000000 := by
  rw [← wellFormed.toNat_offset neglectable (Nat.le_refl _)]
  exact UInt32.toNat_lt _

/-- Each pixel of a neglectable tile has one node. -/
theorem WellFormed.exists_single
    (contained : tile.placement.contains x y = true) :
    ∃ curve node, tile.curveAtPixel x y = .ok (some curve) ∧ curve.nodes = .ok [node] := by
  obtain ⟨insideX, insideY⟩ := Placement.sub_origin_lt contained
  have bound := Placement.index_lt insideX insideY
  have oneNode := wellFormed.size_nodesAt bound
  rw [wellFormed.toNat_offset neglectable bound,
    wellFormed.toNat_offset neglectable (Nat.le_of_lt bound), Nat.succ_eq_add_one,
    Nat.add_sub_cancel_left, Nat.one_mul] at oneNode
  obtain ⟨node, single⟩ := StoredCurve.exists_single_of_size wellFormed.supported oneNode
  exact ⟨_, node, curveAtPixel_of_curve contained (wellFormed.curve_eq insideX insideY), single⟩

/-- A neglectable tile occludes nothing where its nodes are clear. -/
theorem WellFormed.white_iff :
    (∀ x y depth, tile.visibilityAt x y depth = .ok Color.white) ↔ tile.Clear := by
  constructor
  · intro white x y contained
    obtain ⟨curve, node, found, single⟩ := wellFormed.exists_single neglectable contained
    refine ⟨curve, node, found, single, ?_⟩
    rw [← StoredCurve.white_iff_of_single single]
    intro depth
    rw [← visibilityAt_of_curve found, white]
  · intro clear x y depth
    by_cases contained : tile.placement.contains x y = true
    · obtain ⟨curve, node, found, single, isClear⟩ := clear x y contained
      rw [visibilityAt_of_curve found]
      exact (StoredCurve.white_iff_of_single single).mpr isClear depth
    · exact visibilityAt_of_outside contained depth

end Neglectable

/-! ## Fully visible tiles -/

section Visible

variable {placement : Placement} {channels : Nat}

/-- The offsets of a fully visible tile count, up to the remainder of the number of its
pixels as a word. -/
theorem getElem?_offsets_visible
    (placement : Placement)
    (channels index : Nat) :
    (visible placement channels).offsets[index]? =
      if index ≤ placement.pixelCount % 0x100000000 then some (UInt32.ofNat index) else none := by
  unfold visible
  rw [Array.getElem?_ofFn]
  by_cases counted : index ≤ placement.pixelCount % 0x100000000
  · rw [if_pos counted, dif_pos (Nat.lt_succ_of_le counted)]
  · rw [if_neg counted, dif_neg (mt Nat.le_of_lt_succ counted)]

/-- Among the values of a fully visible tile each pixel has its node. -/
theorem extract_values_visible
    (channels : Nat)
    {index : Nat}
    (bound : index < placement.pixelCount) :
    (visible placement channels).values.extract (index * (channels + 1))
      ((index + 1) * (channels + 1)) = (visibleNode channels).toArray := by
  have areRuns : ∀ run ∈ List.replicate placement.pixelCount (visibleNode channels),
      IsRun channels run := by
    intro run member
    rw [List.eq_of_mem_replicate member]
    exact ⟨1, Nat.one_pos, by rw [length_visibleNode, Nat.one_mul]⟩
  have inRuns : index < (List.replicate placement.pixelCount (visibleNode channels)).length := by
    rw [List.length_replicate]
    exact bound
  have extracted := extract_flatten areRuns inRuns
  rw [nodeCounts_visible, List.take_replicate, List.take_replicate,
    Region.nodeTotal_replicate_one, Region.nodeTotal_replicate_one,
    Nat.min_eq_left (Nat.le_of_lt bound), Nat.min_eq_left bound, List.getElem_replicate]
    at extracted
  rw [values_visible]
  exact extracted

/-- A pixel of a fully visible tile has one node, where there are offsets for it. -/
theorem curve_visible
    (supported : supportedChannels channels = true)
    (insideX : x < placement.width)
    (insideY : y < placement.height) :
    (visible placement channels).curve x y =
      if y * placement.width + x < placement.pixelCount % 0x100000000 then
        .ok ⟨channels, (visibleNode channels).toArray⟩
      else .error .outOfBounds := by
  have bound := Placement.index_lt insideX insideY
  have words : placement.pixelCount % 0x100000000 < 0x100000000 := Nat.mod_lt _ (by decide)
  have firstOffset := getElem?_offsets_visible placement channels (y * placement.width + x)
  have lastOffset := getElem?_offsets_visible placement channels (y * placement.width + x + 1)
  split
  next counted =>
    have size_eq : (visible placement channels).values.size =
        placement.pixelCount * (channels + 1) := Array.size_ofFn
    have extracted := extract_values_visible channels bound
    rw [if_pos (Nat.le_of_lt counted)] at firstOffset
    rw [if_pos (Nat.succ_le_of_lt counted)] at lastOffset
    rw [curve_of_offsets insideX insideY firstOffset lastOffset, UInt32.toNat_ofNat',
      UInt32.toNat_ofNat', Nat.mod_eq_of_lt (by omega), Nat.mod_eq_of_lt (by omega), size_eq,
      if_pos ⟨Nat.mul_le_mul_right _ (Nat.le_succ _), Nat.mul_le_mul_right _ bound⟩]
    refine (congrArg _ extracted).trans (StoredCurve.ofData_eq_ok supported ?_)
    rw [List.size_toArray, length_visibleNode]
    exact Nat.dvd_refl _
  next uncounted =>
    rw [if_neg (mt Nat.lt_of_succ_le uncounted)] at lastOffset
    exact curve_of_no_offset insideX insideY lastOffset

/-- The number of a pixel of a tile, counted row by row. -/
def numberOf (placement : Placement) (x y : Nat) : Nat :=
  (y - placement.originY) * placement.width + (x - placement.originX)

/-- A pixel of a fully visible tile is white, where there are offsets for it; a lookup at
another pixel of the tile ends with a violation. -/
theorem visibilityAt_visible_of_contains
    (supported : supportedChannels channels = true)
    (contained : placement.contains x y = true)
    (depth : Single) :
    (visible placement channels).visibilityAt x y depth =
      if numberOf placement x y < placement.pixelCount % 0x100000000 then .ok Color.white
      else .error .outOfBounds := by
  obtain ⟨insideX, insideY⟩ := Placement.sub_origin_lt contained
  have containedToo : (visible placement channels).placement.contains x y = true := contained
  have curve_eq := curve_visible supported insideX insideY
  unfold numberOf
  split
  next counted =>
    rw [if_pos counted] at curve_eq
    have single : (StoredCurve.mk channels (visibleNode channels).toArray).nodes =
        .ok [Node.start] := by
      rcases supportedChannels_iff.mp supported with rfl | rfl
      · decide +kernel
      · decide +kernel
    rw [visibilityAt_of_curve (curveAtPixel_of_curve containedToo curve_eq)]
    exact (StoredCurve.white_iff_of_single single).mpr Node.isClear_start depth
  next uncounted =>
    rw [if_neg uncounted] at curve_eq
    have failed : (visible placement channels).curveAtPixel x y = .error .outOfBounds := by
      unfold curveAtPixel
      rw [if_pos containedToo]
      exact congrArg (some <$> ·) curve_eq
    unfold visibilityAt
    rw [failed]
    rfl

/-- A fully visible tile answers white. -/
theorem visibilityAt_visible
    (supported : supportedChannels channels = true)
    (small : placement.pixelCount < 0x100000000)
    (x y : Nat)
    (depth : Single) :
    (visible placement channels).visibilityAt x y depth = .ok Color.white := by
  by_cases contained : placement.contains x y = true
  · obtain ⟨insideX, insideY⟩ := Placement.sub_origin_lt contained
    have bound : numberOf placement x y < placement.pixelCount :=
      Placement.index_lt insideX insideY
    rw [visibilityAt_visible_of_contains supported contained, Nat.mod_eq_of_lt small,
      if_pos bound]
  · exact visibilityAt_of_outside contained depth

end Visible

/-! ## What is read back -/

/-- What is read back of a tile after it was written: a neglectable tile is
replaced by the fully visible one. -/
def readBack (tile : Tile) : Tile :=
  if tile.isNeglectable then visible tile.placement tile.channels else tile

theorem readBack_of_neglectable (neglectable : tile.isNeglectable = true) :
    tile.readBack = visible tile.placement tile.channels := if_pos neglectable

theorem readBack_of_stored (stored : tile.isNeglectable = false) :
    tile.readBack = tile := if_neg (Bool.eq_false_iff.mp stored)

/-- What is read back of a neglectable tile answers white. -/
theorem WellFormed.visibilityAt_readBack
    (wellFormed : tile.WellFormed)
    (neglectable : tile.isNeglectable = true)
    (x y : Nat)
    (depth : Single) :
    tile.readBack.visibilityAt x y depth = .ok Color.white := by
  rw [readBack_of_neglectable neglectable]
  exact visibilityAt_visible wellFormed.supported (wellFormed.pixelCount_lt neglectable) x y depth

/-- What is read back of a tile answers like the tile, except where the tile is
neglectable and one of its nodes is not clear. -/
theorem WellFormed.readBack_iff (wellFormed : tile.WellFormed) :
    (∀ x y depth, tile.readBack.visibilityAt x y depth = tile.visibilityAt x y depth) ↔
      (tile.isNeglectable = true -> tile.Clear) := by
  cases neglectable : tile.isNeglectable with
  | false =>
      rw [readBack_of_stored neglectable]
      exact iff_of_true (fun _ _ _ => rfl) (fun absurd => by cases absurd)
  | true =>
      simp only [wellFormed.visibilityAt_readBack neglectable, true_implies,
        ← wellFormed.white_iff neglectable, eq_comm]

end Tile
end DeepShadow
