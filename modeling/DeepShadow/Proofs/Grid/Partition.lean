import Mathlib.Algebra.BigOperators.Ring.List
import DeepShadow.Proofs.Texture.Loading

/-!
# Tiles share out the image

The tiles of a grid have the numbers below their count, row by row, and each number is that
of one tile.  Their rectangles are computed in words without leaving them, lie in the image
and have pixels; each pixel of the image lies in one of them, and together they have as many
pixels as the image.
-/

namespace DeepShadow

/-! ## Parts of a length -/

/-- The number of parts is the quotient, with one more for a rest. -/
theorem partsCovering_eq
    {size : Nat}
    (sizePositive : 0 < size)
    (length : Nat) :
    partsCovering length size = length / size + if length % size = 0 then 0 else 1 := by
  have split := Nat.div_add_mod' length size
  have rest := Nat.mod_lt length sizePositive
  unfold partsCovering
  split_ifs with noRest
  · apply Nat.div_eq_of_lt_le
    · rw [Nat.add_zero]
      omega
    · rw [Nat.add_zero, Nat.succ_mul]
      omega
  · apply Nat.div_eq_of_lt_le
    · rw [Nat.succ_mul]
      omega
    · rw [Nat.succ_mul, Nat.succ_mul]
      omega

/-- The parts of a length add up to it. -/
theorem sum_parts
    {size : Nat}
    (sizePositive : 0 < size)
    (length : Nat) :
    ((List.range (partsCovering length size)).map fun part =>
      min size (length - part * size)).sum = length := by
  have lengths := congrArg List.length (flatMap_parts sizePositive 0 length)
  simpa [List.length_flatMap] using lengths

namespace Grid

variable {grid : Grid} {position : TilePosition}

/-! ## Numbers -/

/-- The tiles of a grid and the numbers below their count belong to each other. -/
structure Numbered (grid : Grid) : Prop where
  columns_eq : grid.columns = grid.imageWidth / grid.tileWidth +
    if grid.imageWidth % grid.tileWidth = 0 then 0 else 1
  rows_eq : grid.rows = grid.imageHeight / grid.tileHeight +
    if grid.imageHeight % grid.tileHeight = 0 then 0 else 1
  nonempty : 0 < grid.columns ∧ 0 < grid.rows
  count_lt : grid.tileCount < 2 ^ 32
  /-- A tile with a number is the tile that the number has. -/
  index_iff : ∀ position (number : Fin grid.tileCount),
    grid.index position = .ok number ↔ grid.position number = .ok position
  index_ok_iff : ∀ position,
    (∃ number, grid.index position = .ok number) ↔
      position.column < grid.columns ∧ position.row < grid.rows
  position_ok_iff : ∀ number,
    (∃ position, grid.position number = .ok position) ↔ number < grid.tileCount
  index_refused : ∀ position error, grid.index position = .error error -> error = .tileOutside
  position_refused : ∀ number error, grid.position number = .error error -> error = .tileOutside
  /-- Tiles are listed in the order of their numbers. -/
  listed : grid.positions.map Except.ok = (List.range grid.tileCount).map grid.position

theorem position_eq_ok
    {number : Nat}
    (inside : number < grid.tileCount) :
    grid.position number = .ok ⟨number % grid.columns, number / grid.columns⟩ := if_pos inside

theorem position_eq_error
    {number : Nat}
    (outside : grid.tileCount ≤ number) :
    grid.position number = .error .tileOutside := if_neg (Nat.not_lt.mpr outside)

theorem columns_pos (grid : Grid) : 0 < grid.columns :=
  (lt_partsCovering_iff grid.tileWidth_pos _ _).mpr (by simpa using grid.imageWidth_pos)

theorem rows_pos (grid : Grid) : 0 < grid.rows :=
  (lt_partsCovering_iff grid.tileHeight_pos _ _).mpr (by simpa using grid.imageHeight_pos)

/-- The number of a tile has the tile. -/
theorem position_indexOf (inside : grid.Contains position) :
    grid.position (grid.indexOf position inside) = .ok position := by
  rw [position_eq_ok (grid.indexOf position inside).isLt]
  simp only [indexOf, Nat.mul_comm position.row, Nat.mul_add_mod, Nat.mod_eq_of_lt inside.1,
    Nat.mul_add_div grid.columns_pos, Nat.div_eq_of_lt inside.1, Nat.add_zero]

theorem index_eq_ok_iff {number : Fin grid.tileCount} :
    grid.index position = .ok number ↔ grid.position number = .ok position := by
  obtain ⟨owner, ownerInside, rfl⟩ := exists_indexOf_eq grid number
  rw [position_indexOf ownerInside]
  constructor
  · intro numbered
    have inside : grid.Contains position := by
      by_contra outside
      rw [index_eq_error outside] at numbered
      cases numbered
    rw [index_eq_ok inside] at numbered
    rw [indexOf_injective inside ownerInside (Except.ok.inj numbered)]
  · intro owned
    obtain rfl := Except.ok.inj owned
    exact index_eq_ok ownerInside

theorem numbered (grid : Grid) : grid.Numbered where
  columns_eq := partsCovering_eq grid.tileWidth_pos _
  rows_eq := partsCovering_eq grid.tileHeight_pos _
  nonempty := ⟨grid.columns_pos, grid.rows_pos⟩
  count_lt := grid.tileCount_lt
  index_iff _ _ := index_eq_ok_iff
  index_ok_iff position := by
    by_cases inside : grid.Contains position
    · exact iff_of_true ⟨_, index_eq_ok inside⟩ inside
    · rw [index_eq_error inside]
      exact iff_of_false (by simp) inside
  position_ok_iff number := by
    rcases Nat.lt_or_ge number grid.tileCount with inside | outside
    · exact iff_of_true ⟨_, position_eq_ok inside⟩ inside
    · rw [position_eq_error outside]
      exact iff_of_false (by simp) (Nat.not_lt.mpr outside)
  index_refused position error refused := by
    by_cases inside : grid.Contains position
    · rw [index_eq_ok inside] at refused
      cases refused
    · rw [index_eq_error inside] at refused
      exact (Except.error.inj refused).symm
  position_refused number error refused := by
    rcases Nat.lt_or_ge number grid.tileCount with inside | outside
    · rw [position_eq_ok inside] at refused
      cases refused
    · rw [position_eq_error outside] at refused
      exact (Except.error.inj refused).symm
  listed := by
    rw [positions_eq, List.map_map]
    apply List.map_congr_left
    intro number member
    exact (position_eq_ok (List.mem_range.mp member)).symm

/-! ## Rectangles -/

/-- The rectangles of the tiles share out the pixels of the image. -/
structure Partitioned (grid : Grid) : Prop where
  /-- No sum, product or difference leaves the words on the way to a rectangle. -/
  in_words : ∀ position, grid.checkedPlacement position = some (grid.placement position)
  placed_iff : ∀ position,
    (∃ placement, grid.placement position = .ok placement) ↔
      position.column < grid.columns ∧ position.row < grid.rows
  inside : ∀ position placement, grid.placement position = .ok placement ->
    placement.position = position ∧
    (0 < placement.width ∧ placement.originX + placement.width ≤ grid.imageWidth) ∧
      0 < placement.height ∧ placement.originY + placement.height ≤ grid.imageHeight
  /-- A pixel lies in the rectangle of the tile that owns it, and in no other.  The
  restriction of the owner to the last row and column has no effect. -/
  owned : ∀ x y, x < grid.imageWidth -> y < grid.imageHeight ->
    ∃ owner placement,
      owner = ⟨x / grid.tileWidth, y / grid.tileHeight⟩ ∧
      grid.tileForPixel x y = .ok owner ∧
      grid.placement owner = .ok placement ∧
      placement.contains x y = true ∧
      ∀ position other, grid.placement position = .ok other -> other.contains x y = true ->
        position = owner
  /-- The pixels of all tiles are as many as those of the image. -/
  total : ∃ placements : List Placement,
    grid.positions.map grid.placement = placements.map Except.ok ∧
      (placements.map Placement.pixelCount).sum = grid.imageWidth * grid.imageHeight ∧
      grid.imageWidth * grid.imageHeight < 2 ^ 64

/-- The numbers of pixels of all tiles add up to that of the image. -/
theorem sum_pixelCount (grid : Grid) :
    (grid.positions.map fun position => (grid.frame position).pixelCount).sum =
      grid.imageWidth * grid.imageHeight := by
  have widths : ((List.range grid.columns).map fun column =>
      min grid.tileWidth (grid.imageWidth - column * grid.tileWidth)).sum = grid.imageWidth :=
    sum_parts grid.tileWidth_pos _
  have heights : ((List.range grid.rows).map fun row =>
      min grid.tileHeight (grid.imageHeight - row * grid.tileHeight)).sum = grid.imageHeight :=
    sum_parts grid.tileHeight_pos _
  unfold positions
  rw [List.map_flatMap, List.flatMap_def, List.sum_flatten]
  simp only [List.map_map, Function.comp_def, frame, Placement.pixelCount, List.sum_map_mul_right,
    List.sum_map_mul_left, widths, heights]

section Fits

variable (widthFits : grid.imageWidth < 2 ^ 32) (heightFits : grid.imageHeight < 2 ^ 32)

include widthFits heightFits

theorem partitioned : grid.Partitioned where
  in_words := checkedPlacement_eq widthFits heightFits
  placed_iff position := by
    by_cases inside : grid.Contains position
    · exact iff_of_true ⟨_, placement_eq_ok inside⟩ inside
    · rw [placement_eq_error inside]
      exact iff_of_false (by simp) inside
  inside position placement placed := by
    obtain ⟨inside, rfl⟩ := placement_eq_ok_iff.mp placed
    obtain ⟨widthPositive, heightPositive⟩ := frame_pos inside
    obtain ⟨right, bottom⟩ := frame_inside inside
    exact ⟨rfl, ⟨widthPositive, right⟩, heightPositive, bottom⟩
  owned x y insideX insideY := by
    refine ⟨grid.owner x y, grid.frame (grid.owner x y), rfl, tileForPixel_eq_ok insideX insideY,
      placement_eq_ok (contains_owner insideX insideY),
      (contains_frame_iff insideX insideY).mpr rfl, ?_⟩
    intro position other placed contained
    obtain ⟨-, rfl⟩ := placement_eq_ok_iff.mp placed
    exact (contains_frame_iff insideX insideY).mp contained
  total := by
    have fits : grid.imageWidth * grid.imageHeight < 2 ^ 32 * 2 ^ 32 :=
      Nat.mul_lt_mul'' widthFits heightFits
    refine ⟨grid.positions.map grid.frame, ?_, ?_, fits⟩
    · rw [List.map_map]
      apply List.map_congr_left
      intro position member
      exact placement_eq_ok (mem_positions.mp member)
    · rw [List.map_map]
      exact grid.sum_pixelCount

end Fits

/-- Of every image and tile size in words, a grid that is made has them, numbers its tiles and
shares out its image among them. -/
theorem tiles_partition_image
    {imageWidth imageHeight tileWidth tileHeight : UInt32}
    (made : ofSizes imageWidth.toNat imageHeight.toNat tileWidth.toNat tileHeight.toNat =
      .ok grid) :
    (grid.imageWidth = imageWidth.toNat ∧ grid.imageHeight = imageHeight.toNat ∧
      grid.tileWidth = tileWidth.toNat ∧ grid.tileHeight = tileHeight.toNat) ∧
      grid.Numbered ∧ grid.Partitioned := by
  have sizes := ofSizes_eq_ok made
  refine ⟨sizes, grid.numbered, partitioned ?_ ?_⟩
  · exact sizes.1 ▸ imageWidth.toNat_lt
  · exact sizes.2.1 ▸ imageHeight.toNat_lt

/-- An image of nearly `2 ^ 32` columns in tiles of nearly `2 ^ 31`: three tiles, the last of
one column. -/
theorem tiles_partition_image_widest :
    ∃ grid, ofSizes 0xffffffff 1 0x7fffffff 0xffffffff = .ok grid ∧
      grid.tileForPixel 0xfffffffe 0 = .ok ⟨2, 0⟩ ∧
      ∃ placement, grid.placement ⟨2, 0⟩ = .ok placement ∧
        placement.contains 0xfffffffe 0 = true ∧ placement.pixelCount = 1 := by
  obtain ⟨grid, made⟩ : ∃ grid, ofSizes (0xffffffff : UInt32).toNat (1 : UInt32).toNat
      (0x7fffffff : UInt32).toNat (0xffffffff : UInt32).toNat = .ok grid := ⟨_, rfl⟩
  obtain ⟨⟨width_eq, height_eq, tileWidth_eq, tileHeight_eq⟩, -, partition⟩ :=
    tiles_partition_image made
  obtain ⟨owner, placement, owner_eq, owned, placed, contained, -⟩ :=
    partition.owned 0xfffffffe 0 (by rw [width_eq]; decide) (by rw [height_eq]; decide)
  have last : owner = ⟨2, 0⟩ := by rw [owner_eq, tileWidth_eq, tileHeight_eq]; decide
  subst last
  obtain ⟨-, rfl⟩ := placement_eq_ok_iff.mp placed
  refine ⟨grid, made, owned, _, placed, contained, ?_⟩
  rw [frame, Placement.pixelCount, width_eq, height_eq, tileWidth_eq, tileHeight_eq]
  decide

end Grid
end DeepShadow
