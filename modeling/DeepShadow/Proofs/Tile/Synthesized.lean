import DeepShadow.Proofs.Tile.SingleNodes

/-!
# Fully visible tiles of any size

The offsets of a fully visible tile are counted with a 32-bit word, also where the tile has
more pixels than a word can count.  It has fewer offsets than pixels then: it still passes
for neglectable, but it is not well formed, and lookups at the pixels without offsets end
with a violation.  Where the values would take more bytes than an array can have, there is
no tile at all.
-/

namespace DeepShadow
namespace Tile

variable {placement : Placement} {channels x y : Nat}

/-- The last pixel of a tile has the last number. -/
theorem exists_last_pixel (nonempty : 0 < placement.pixelCount) :
    ∃ x y, placement.contains x y = true ∧ numberOf placement x y + 1 = placement.pixelCount := by
  obtain ⟨position, originX, originY, width, height⟩ := placement
  have widthPositive : 0 < width := Nat.pos_of_mul_pos_right nonempty
  have heightPositive : 0 < height := Nat.pos_of_mul_pos_left nonempty
  obtain ⟨columns, rfl⟩ := Nat.exists_eq_succ_of_ne_zero (Nat.ne_of_gt widthPositive)
  obtain ⟨rows, rfl⟩ := Nat.exists_eq_succ_of_ne_zero (Nat.ne_of_gt heightPositive)
  refine ⟨originX + columns, originY + rows, ?_, ?_⟩
  · simp [Placement.contains]
  · unfold numberOf Placement.pixelCount
    rw [Nat.add_sub_cancel_left, Nat.add_sub_cancel_left, Nat.mul_comm (columns.succ),
      Nat.succ_mul]
    rfl

section Supported

variable (supported : supportedChannels channels = true)

include supported

theorem fullyVisible_eq_ok :
    fullyVisible placement channels = .ok (visible placement channels) := if_pos supported

theorem allocateVisible_eq :
    allocateVisible placement channels =
      if placement.pixelCount * (channels + 1) < 0x2000000000000000 then
        fullyVisible placement channels
      else .error .capacityOverflow := by
  unfold allocateVisible
  rw [if_pos supported, fullyVisible_eq_ok supported]

/-- A lookup in a fully visible tile answers white, or ends with a violation where a pixel
of the tile has no offsets. -/
theorem visibilityAt_visible_eq (x y : Nat) (depth : Single) :
    (visible placement channels).visibilityAt x y depth =
      if placement.contains x y = true ∧
          placement.pixelCount % 0x100000000 ≤ numberOf placement x y then .error .outOfBounds
      else .ok Color.white := by
  by_cases contained : placement.contains x y = true
  · rw [visibilityAt_visible_of_contains supported contained]
    by_cases counted : numberOf placement x y < placement.pixelCount % 0x100000000
    · rw [if_pos counted, if_neg fun uncounted => Nat.not_le_of_lt counted uncounted.2]
    · rw [if_neg counted, if_pos ⟨contained, Nat.le_of_not_lt counted⟩]
  · rw [visibilityAt_of_outside contained, if_neg fun uncounted => contained uncounted.1]

/-- A fully visible tile is well formed where a word can count its pixels, and only there. -/
theorem wellFormed_visible_iff :
    (visible placement channels).WellFormed ↔ placement.pixelCount < 0x100000000 := by
  constructor
  · intro wellFormed
    have size_eq : placement.pixelCount % 0x100000000 + 1 = placement.pixelCount + 1 :=
      Array.size_ofFn.symm.trans wellFormed.size_offsets
    rw [← Nat.succ_inj.mp size_eq]
    exact Nat.mod_lt _ (by decide)
  · exact wellFormed_visible supported

/-- A fully visible tile answers white everywhere where a word can count its pixels, and
only there. -/
theorem white_visible_iff :
    (∀ x y depth, (visible placement channels).visibilityAt x y depth = .ok Color.white) ↔
      placement.pixelCount < 0x100000000 := by
  constructor
  · intro white
    apply Nat.lt_of_not_le
    intro large
    -- More pixels than a word can count: the last of them has no offsets.
    have remainder : placement.pixelCount % 0x100000000 < 0x100000000 := Nat.mod_lt _ (by decide)
    obtain ⟨x, y, contained, last⟩ :=
      exists_last_pixel (Nat.lt_of_lt_of_le (by decide : 0 < 0x100000000) large)
    have answer := white x y Single.zero
    rw [visibilityAt_visible_eq supported, if_pos ⟨contained, by omega⟩] at answer
    cases answer
  · exact fun small x y depth => visibilityAt_visible supported small x y depth

/-- A fully visible tile of a supported number of channels can be made where an array has
room for its values.  It has one node for each pixel among its values and is neglectable.
Its offsets count only up to the remainder of the number of its pixels as a word, and so it
is well formed, and white everywhere, exactly where a word can count its pixels. -/
theorem visible_of_any_size (placement : Placement) :
    (allocateVisible placement channels =
      if placement.pixelCount * (channels + 1) < 0x2000000000000000 then
        fullyVisible placement channels
      else .error .capacityOverflow) ∧
    ∃ tile, fullyVisible placement channels = .ok tile ∧
      tile.placement = placement ∧ tile.channels = channels ∧
      tile.offsets.size = placement.pixelCount % 0x100000000 + 1 ∧
      (∀ index, index < tile.offsets.size -> tile.offsets[index]? = some (UInt32.ofNat index)) ∧
      tile.values.size = placement.pixelCount * (channels + 1) ∧
      tile.isNeglectable = true ∧
      (∀ x y depth, tile.visibilityAt x y depth =
        if placement.contains x y = true ∧
            placement.pixelCount % 0x100000000 ≤ numberOf placement x y then .error .outOfBounds
        else .ok Color.white) ∧
      (tile.WellFormed ↔ placement.pixelCount < 0x100000000) ∧
      ((∀ x y depth, tile.visibilityAt x y depth = .ok Color.white) ↔
        placement.pixelCount < 0x100000000) := by
  have size_offsets : (visible placement channels).offsets.size =
      placement.pixelCount % 0x100000000 + 1 := Array.size_ofFn
  refine ⟨allocateVisible_eq supported, _, fullyVisible_eq_ok supported, rfl, rfl, size_offsets,
    ?_, Array.size_ofFn, isNeglectable_visible placement channels,
    visibilityAt_visible_eq supported, wellFormed_visible_iff supported,
    white_visible_iff supported⟩
  intro index bound
  rw [size_offsets] at bound
  rw [getElem?_offsets_visible, if_pos (Nat.le_of_lt_succ bound)]

end Supported

/-- A tile of 65536 by 65536 pixels can be made, but it has a single offset and no answer at
its first pixel. -/
theorem visible_of_any_size_square :
    ∃ tile, allocateVisible ⟨⟨0, 0⟩, 0, 0, 65536, 65536⟩ 1 = .ok tile ∧
      tile.offsets.size = 1 ∧ tile.isNeglectable = true ∧
      tile.visibilityAt 0 0 Single.zero = .error .outOfBounds := by
  obtain ⟨made, tile, tile_eq, _, _, size_eq, _, _, neglectable, answers, _⟩ :=
    visible_of_any_size supportedChannels_one ⟨⟨0, 0⟩, 0, 0, 65536, 65536⟩
  refine ⟨tile, ?_, size_eq, neglectable, ?_⟩
  · rw [made, if_pos (by decide), tile_eq]
  · rw [answers, if_pos (by decide)]

/-- There are grids whose only tile is not made well formed, and grids whose only tile is
not made, although the numbers of its values and of their bytes are below 2 to the 64th. -/
theorem exists_tile_not_synthesized :
    (∃ grid placement tile, Grid.ofSizes 65536 65536 65536 65536 = .ok grid ∧
      grid.placement ⟨0, 0⟩ = .ok placement ∧ fullyVisible placement 1 = .ok tile ∧
      ¬tile.WellFormed ∧ tile.visibilityAt 0 0 Single.zero = .error .outOfBounds) ∧
    ∃ grid placement, Grid.ofSizes 0x40000000 0x40000000 0x40000000 0x40000000 = .ok grid ∧
      grid.placement ⟨0, 0⟩ = .ok placement ∧
      placement.pixelCount * (1 + 1) * 4 < 0x10000000000000000 ∧
      allocateVisible placement 1 = .error .capacityOverflow := by
  refine ⟨⟨_, _, _, rfl, rfl, rfl, ?_, ?_⟩, _, _, rfl, rfl, by decide, by decide⟩
  · rw [wellFormed_visible_iff supportedChannels_one]
    decide
  · rw [visibilityAt_visible_eq supportedChannels_one]
    decide

end Tile
end DeepShadow
