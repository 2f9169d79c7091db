import DeepShadow.Proofs.Tile.Lookup

/-!
# Slices of tiles

The offsets cut the values of a tile into slices, one for each pixel.  Only neighboring
offsets are compared when a tile is built, and only the last one with the number of values;
by induction over the offsets every slice lies among the values and ends where the next one
starts, so that the slices are the values, without a gap and without an overlap.
-/

namespace DeepShadow
namespace Tile

/-- The pixels of a tile counted from its own corner, row by row. -/
def ownPixels (tile : Tile) : List (Nat × Nat) :=
  Rectangle.pixels ⟨0, 0, tile.placement.width, tile.placement.height⟩

/-- A curve is the slice of a tile between two neighboring offsets: a whole number of
nodes, as many as the offsets tell. -/
structure SlicedAt (tile : Tile) (index : Nat) (curve : StoredCurve) : Prop where
  channels_eq : curve.channels = tile.channels
  slice : ∃ first last, tile.offsets[index]? = some first ∧
    tile.offsets[index + 1]? = some last ∧ first ≤ last ∧
      last.toNat * (tile.channels + 1) ≤ tile.values.size ∧
      curve.data = tile.values.extract (first.toNat * (tile.channels + 1))
        (last.toNat * (tile.channels + 1))
  whole : curve.data.size = curve.length * (tile.channels + 1)
  length_eq : tile.curveLength index = .ok curve.length

variable {tile : Tile}

theorem mem_ownPixels {x y : Nat} :
    (x, y) ∈ tile.ownPixels ↔ x < tile.placement.width ∧ y < tile.placement.height := by
  unfold ownPixels
  rw [Rectangle.mem_pixels]
  unfold Rectangle.Covers
  simp only [Nat.zero_le, true_and]

/-- Listed row by row, the pixels of a tile have the numbers below their count. -/
theorem flatMap_ownPixels {α : Type} (values : Nat -> List α) :
    tile.ownPixels.flatMap (fun pixel => values (pixel.2 * tile.placement.width + pixel.1)) =
      (List.range tile.placement.pixelCount).flatMap values := by
  have numbered := flatMap_range_mul tile.placement.height tile.placement.width
    fun row column => values (row * tile.placement.width + column)
  simp only [Nat.div_add_mod'] at numbered
  unfold ownPixels Rectangle.pixels Rectangle.width Rectangle.height Placement.pixelCount
  rw [Nat.mul_comm, numbered]
  simp only [Nat.sub_zero, List.flatMap_assoc, List.flatMap_map, List.range_eq_range']

variable (wellFormed : tile.WellFormed)

include wellFormed

/-- The slices in front of an offset are the values in front of it. -/
theorem WellFormed.flatMap_nodesAt
    {count : Nat}
    (bound : count ≤ tile.placement.pixelCount) :
    (List.range count).flatMap (fun index => (tile.nodesAt index).toList) =
      tile.values.toList.take ((tile.offsets.getD count 0).toNat * (tile.channels + 1)) := by
  induction count with
  | zero =>
      rw [(ofParts_eq_ok_iff.mp wellFormed).1.2.2.1, UInt32.toNat_zero, Nat.zero_mul,
        List.take_zero]
      rfl
  | succ count inductionHypothesis =>
      have ordered := Nat.mul_le_mul_right (tile.channels + 1)
        (wellFormed.offset_le (Nat.le_succ count) bound)
      rw [List.range_succ, List.flatMap_append, List.flatMap_singleton,
        inductionHypothesis (Nat.le_of_succ_le bound), nodesAt, Array.toList_extract,
        List.extract_eq_take_drop, ← List.take_add, Nat.add_sub_cancel' ordered]

/-- All slices, one behind the other, are the values. -/
theorem WellFormed.flatMap_nodesAt_eq_values :
    (List.range tile.placement.pixelCount).flatMap (fun index => (tile.nodesAt index).toList) =
      tile.values.toList := by
  rw [wellFormed.flatMap_nodesAt (Nat.le_refl _), ← wellFormed.size_values]
  exact List.take_of_length_le (Nat.le_of_eq Array.length_toList)

/-- The curve of a pixel is a slice. -/
theorem WellFormed.slicedAt
    {index : Nat}
    (bound : index < tile.placement.pixelCount) :
    tile.SlicedAt index ⟨tile.channels, tile.nodesAt index⟩ := by
  have first := wellFormed.getElem?_offsets (Nat.le_of_lt bound)
  have last := wellFormed.getElem?_offsets bound
  have ordered := wellFormed.offset_le (Nat.le_succ index) bound
  have ascending := UInt32.le_iff_toNat_le.mpr ordered
  refine ⟨rfl, ⟨_, _, first, last, ascending, wellFormed.nodes_le bound, rfl⟩,
    (wellFormed.whole bound).size_eq, ?_⟩
  unfold curveLength
  rw [first, last]
  simp only
  rw [UInt32.toNat_sub_of_le _ _ ascending]
  unfold StoredCurve.length StoredCurve.stride
  rw [wellFormed.size_nodesAt bound, Nat.mul_div_cancel _ (Nat.succ_pos _)]

omit wellFormed

/-- Whatever `Tile.ofParts` accepts, each pixel of the tile has a curve, which is its slice
of the values; the slices in the order of the pixels are the values; and every lookup has an
answer. -/
theorem slices_of_ofParts
    {placement : Placement}
    {channels : Nat}
    {offsets : Array UInt32}
    {values : Array Single}
    (built : Tile.ofParts placement channels offsets values = .ok tile) :
    tile = { placement, channels, offsets, values } ∧
    (∀ x y, x < placement.width -> y < placement.height ->
      ∃ curve, tile.curve x y = .ok curve ∧
        tile.SlicedAt (y * placement.width + x) curve) ∧
    (∃ curves, tile.ownPixels.mapM (fun pixel => tile.curve pixel.1 pixel.2) = .ok curves ∧
      curves.flatMap (fun curve => curve.data.toList) = values.toList) ∧
    ∀ x y depth, ∃ color, tile.visibilityAt x y depth = .ok color := by
  have wellFormed := WellFormed.ofParts built
  obtain ⟨_, rfl⟩ := ofParts_eq_ok_iff.mp built
  refine ⟨rfl, ?_, ?_, wellFormed.visibilityAt_eq_ok⟩
  · intro x y insideX insideY
    exact ⟨_, wellFormed.curve_eq insideX insideY,
      wellFormed.slicedAt (Placement.index_lt insideX insideY)⟩
  · refine ⟨_, mapM_eq_ok _ fun pixel member =>
      wellFormed.curve_eq (mem_ownPixels.mp member).1 (mem_ownPixels.mp member).2, ?_⟩
    rw [List.flatMap_map]
    exact (flatMap_ownPixels _).trans wellFormed.flatMap_nodesAt_eq_values

namespace ThreePixels

/-- Three pixels in a row, away from the corner of the image. -/
def placement : Placement := ⟨⟨1, 0⟩, 4, 0, 3, 1⟩

/-- The second pixel has no nodes. -/
def offsets : Array UInt32 := #[0, 1, 1, 3]

def values : Array Single :=
  #[Single.zero, Single.one, Single.zero, Single.one, Single.one, Single.zero]

theorem built : ofParts placement 1 offsets values = .ok ⟨placement, 1, offsets, values⟩ := rfl

end ThreePixels

/-- A pixel without nodes has a slice without values, and lookups have an answer there too. -/
theorem slices_of_ofParts_threePixels :
    ∃ tile curve, ofParts ThreePixels.placement 1 ThreePixels.offsets ThreePixels.values =
        .ok tile ∧ tile.curve 1 0 = .ok curve ∧ curve.length = 0 ∧
      ∃ color, tile.visibilityAt 5 0 Single.one = .ok color := by
  obtain ⟨_, sliced, _, answers⟩ := slices_of_ofParts ThreePixels.built
  obtain ⟨curve, curve_eq, slice⟩ := sliced 1 0 (by decide) (by decide)
  have length_eq : Except.ok 0 = Except.ok curve.length := slice.length_eq
  exact ⟨_, curve, ThreePixels.built, curve_eq, (Except.ok.inj length_eq).symm,
    answers 5 0 Single.one⟩

end Tile
end DeepShadow
