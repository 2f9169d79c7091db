import DeepShadow.Proofs.Assembly.Runs

/-!
# Looking up tiles

The offsets of a well-formed tile ascend from zero to the number of its nodes.  The curve of
each pixel is therefore a run of whole nodes, possibly an empty one, and every lookup has an
answer, whatever the values are.
-/

namespace DeepShadow
namespace Tile

/-- A tile lies at a placement and has a number of channels, and it has an offset for each
pixel and one more, which ascend from zero and count the nodes among its values. -/
structure Fits (tile : Tile) (placement : Placement) (channels : Nat) : Prop where
  placement_eq : tile.placement = placement
  channels_eq : tile.channels = channels
  size_offsets : tile.offsets.size = placement.pixelCount + 1
  first : tile.offsets[0]? = some 0
  ascending : ∀ index other, index ≤ other -> other ≤ placement.pixelCount ->
    tile.offsets.getD index 0 ≤ tile.offsets.getD other 0
  size_values : tile.values.size =
    (tile.offsets.getD placement.pixelCount 0).toNat * (channels + 1)

/-- The stored nodes of the pixel with a number. -/
def nodesAt (tile : Tile) (index : Nat) : Array Single :=
  tile.values.extract
    ((tile.offsets.getD index 0).toNat * (tile.channels + 1))
    ((tile.offsets.getD (index + 1) 0).toNat * (tile.channels + 1))

variable {tile : Tile} {placement : Placement} {channels x y : Nat}

/-! ## Pixels of the image -/

theorem visibilityAt_of_outside
    (outside : ¬tile.placement.contains x y = true)
    (depth : Single) :
    tile.visibilityAt x y depth = .ok Color.white := by
  unfold visibilityAt curveAtPixel
  rw [if_neg outside]
  rfl

theorem curveAtPixel_of_curve
    {curve : StoredCurve}
    (contained : tile.placement.contains x y = true)
    (curve_eq : tile.curve (x - tile.placement.originX) (y - tile.placement.originY) = .ok curve) :
    tile.curveAtPixel x y = .ok (some curve) := by
  unfold curveAtPixel
  rw [if_pos contained, curve_eq]
  rfl

theorem visibilityAt_of_curve
    {curve : StoredCurve}
    (found : tile.curveAtPixel x y = .ok (some curve))
    (depth : Single) :
    tile.visibilityAt x y depth = curve.visibilityAt depth := by
  unfold visibilityAt
  rw [found]
  rfl

/-- The curve of a pixel of the tile with the offsets on both sides of it. -/
theorem curve_of_offsets
    {first last : UInt32}
    (insideX : x < tile.placement.width)
    (insideY : y < tile.placement.height)
    (firstOffset : tile.offsets[y * tile.placement.width + x]? = some first)
    (lastOffset : tile.offsets[y * tile.placement.width + x + 1]? = some last) :
    tile.curve x y =
      if first.toNat * (tile.channels + 1) ≤ last.toNat * (tile.channels + 1) ∧
          last.toNat * (tile.channels + 1) ≤ tile.values.size then
        StoredCurve.ofData tile.channels (tile.values.extract
          (first.toNat * (tile.channels + 1)) (last.toNat * (tile.channels + 1)))
      else .error .outOfBounds := by
  unfold curve
  rw [if_pos ⟨insideX, insideY⟩]
  simp only
  rw [firstOffset, lastOffset]

theorem curve_of_no_offset
    (insideX : x < tile.placement.width)
    (insideY : y < tile.placement.height)
    (noOffset : tile.offsets[y * tile.placement.width + x + 1]? = none) :
    tile.curve x y = .error .outOfBounds := by
  unfold curve
  rw [if_pos ⟨insideX, insideY⟩]
  simp only
  rw [noOffset]
  cases tile.offsets[y * tile.placement.width + x]? with
  | none => rfl
  | some _ => rfl

/-! ## Well-formed tiles -/

/-- No offset lies below one in front of it. -/
theorem WellFormed.offset_le
    (wellFormed : tile.WellFormed)
    {index other : Nat}
    (ordered : index ≤ other)
    (bound : other ≤ tile.placement.pixelCount) :
    (tile.offsets.getD index 0).toNat ≤ (tile.offsets.getD other 0).toNat := by
  have increasing := (ofParts_eq_ok_iff.mp wellFormed).1.2.2.2.1
  induction other, ordered using Nat.le_induction with
  | base => exact Nat.le_refl _
  | succ other ordered inductionHypothesis =>
      refine Nat.le_trans (inductionHypothesis (Nat.le_of_succ_le bound)) ?_
      unfold firstDecrease at increasing
      rw [Option.map_eq_none_iff, List.find?_eq_none] at increasing
      have inside : other ∈ List.range (tile.offsets.size - 1) := by
        rw [List.mem_range, wellFormed.size_offsets]
        exact bound
      have notBelow := increasing other inside
      rw [decide_eq_true_eq, UInt32.lt_iff_toNat_lt] at notBelow
      exact Nat.not_lt.mp notBelow

theorem WellFormed.getElem?_offsets
    (wellFormed : tile.WellFormed)
    {index : Nat}
    (bound : index ≤ tile.placement.pixelCount) :
    tile.offsets[index]? = some (tile.offsets.getD index 0) := by
  have inOffsets : index < tile.offsets.size := by
    rw [wellFormed.size_offsets]
    exact Nat.lt_succ_of_le bound
  rw [Array.getD_eq_getD_getElem?, Array.getElem?_eq_getElem inOffsets, Option.getD_some]

theorem WellFormed.fits (wellFormed : tile.WellFormed) : tile.Fits tile.placement tile.channels :=
  { placement_eq := rfl
    channels_eq := rfl
    size_offsets := wellFormed.size_offsets
    first := by
      rw [wellFormed.getElem?_offsets (Nat.zero_le _)]
      exact congrArg some (ofParts_eq_ok_iff.mp wellFormed).1.2.2.1
    ascending := fun _ _ ordered bound =>
      UInt32.le_iff_toNat_le.mpr (wellFormed.offset_le ordered bound)
    size_values := wellFormed.size_values }

/-- A fully visible tile is well formed, where its pixels can be counted. -/
theorem wellFormed_visible
    (supported : supportedChannels channels = true)
    (small : placement.pixelCount < 0x100000000) :
    (visible placement channels).WellFormed := by
  rw [visible_eq_ofRuns small]
  apply WellFormed.ofParts (ofParts_ofRuns supported List.length_replicate ?_ ?_)
  · intro run member
    rw [List.eq_of_mem_replicate member]
    exact ⟨1, Nat.one_pos, by rw [length_visibleNode, Nat.one_mul]⟩
  · rw [nodeCounts_visible, Region.nodeTotal_replicate_one]
    exact small

/-- The nodes of a pixel end among the values. -/
theorem WellFormed.nodes_le
    (wellFormed : tile.WellFormed)
    {index : Nat}
    (bound : index < tile.placement.pixelCount) :
    (tile.offsets.getD (index + 1) 0).toNat * (tile.channels + 1) ≤ tile.values.size := by
  rw [wellFormed.size_values]
  exact Nat.mul_le_mul_right _ (wellFormed.offset_le bound (Nat.le_refl _))

/-- A pixel has as many nodes as the offsets tell. -/
theorem WellFormed.size_nodesAt
    (wellFormed : tile.WellFormed)
    {index : Nat}
    (bound : index < tile.placement.pixelCount) :
    (tile.nodesAt index).size =
      ((tile.offsets.getD (index + 1) 0).toNat - (tile.offsets.getD index 0).toNat) *
        (tile.channels + 1) := by
  rw [nodesAt, Array.size_extract, Nat.min_eq_left (wellFormed.nodes_le bound), Nat.sub_mul]

/-- Each pixel of a well-formed tile has a curve, which may be without nodes. -/
theorem WellFormed.curve_eq
    (wellFormed : tile.WellFormed)
    (insideX : x < tile.placement.width)
    (insideY : y < tile.placement.height) :
    tile.curve x y = .ok ⟨tile.channels, tile.nodesAt (y * tile.placement.width + x)⟩ := by
  have bound := Placement.index_lt insideX insideY
  have ordered := Nat.mul_le_mul_right (tile.channels + 1)
    (wellFormed.offset_le (Nat.le_succ _) bound)
  rw [curve_of_offsets insideX insideY (wellFormed.getElem?_offsets (Nat.le_of_lt bound))
    (wellFormed.getElem?_offsets bound), if_pos ⟨ordered, wellFormed.nodes_le bound⟩]
  apply StoredCurve.ofData_eq_ok wellFormed.supported
  exact wellFormed.size_nodesAt bound ▸ Nat.dvd_mul_left _ _

theorem WellFormed.whole
    (wellFormed : tile.WellFormed)
    {index : Nat}
    (bound : index < tile.placement.pixelCount) :
    StoredCurve.Whole ⟨tile.channels, tile.nodesAt index⟩ :=
  StoredCurve.whole_of_dvd wellFormed.supported
    (wellFormed.size_nodesAt bound ▸ Nat.dvd_mul_left _ _)

/-- Every pixel has a visibility at every depth in a well-formed tile. -/
theorem WellFormed.visibilityAt_eq_ok
    (wellFormed : tile.WellFormed)
    (x y : Nat)
    (depth : Single) :
    ∃ color, tile.visibilityAt x y depth = .ok color := by
  by_cases contained : tile.placement.contains x y = true
  · obtain ⟨insideX, insideY⟩ := Placement.sub_origin_lt contained
    have found := curveAtPixel_of_curve contained (wellFormed.curve_eq insideX insideY)
    rw [visibilityAt_of_curve found]
    exact (wellFormed.whole (Placement.index_lt insideX insideY)).visibilityAt_eq_ok depth
  · exact ⟨Color.white, visibilityAt_of_outside contained depth⟩

end Tile
end DeepShadow
