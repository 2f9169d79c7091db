import Mathlib.Data.List.Nodup
import DeepShadow.Grid.Basic

/-!
# Tiles as a partition of the image

The rectangles of the tiles of a grid are disjoint and cover its image: a pixel
lies in the rectangle of exactly one tile, the one that owns it.  `Grid.frame` is
the rectangle of a tile without the check that the tile belongs to the grid.
-/

namespace DeepShadow

/-! ## Parts of a length -/

/-- A part belongs to a length exactly when it starts inside it. -/
theorem lt_partsCovering_iff
    {size : Nat}
    (sizePositive : 0 < size)
    (part length : Nat) :
    part < partsCovering length size ↔ part * size < length := by
  unfold partsCovering
  rw [← Nat.succ_le_iff, Nat.le_div_iff_mul_le sizePositive, Nat.succ_mul]
  omega

/-- The part that owns a place of a length belongs to the length. -/
theorem div_lt_partsCovering
    {size place length : Nat}
    (sizePositive : 0 < size)
    (inside : place < length) :
    place / size < partsCovering length size := by
  rw [lt_partsCovering_iff sizePositive]
  exact Nat.lt_of_le_of_lt (Nat.div_mul_le_self place size) inside

/-- A place lies in a part of a length exactly when the part owns it. -/
theorem mem_part_iff
    {size place length : Nat}
    (part : Nat)
    (sizePositive : 0 < size)
    (inside : place < length) :
    (part * size ≤ place ∧ place - part * size < min size (length - part * size)) ↔
      place / size = part := by
  constructor
  · rintro ⟨fromStart, beforeEnd⟩
    have withinSize : place - part * size < size :=
      Nat.lt_of_lt_of_le beforeEnd (Nat.min_le_left _ _)
    exact Nat.div_eq_of_lt_le fromStart (by rw [Nat.succ_mul]; omega)
  · rintro rfl
    have fromStart := Nat.div_mul_le_self place size
    have remainder : place - place / size * size = place % size := by
      have split := Nat.div_add_mod' place size
      omega
    have below := Nat.mod_lt place sizePositive
    refine ⟨fromStart, ?_⟩
    rw [Nat.lt_min]
    omega

/-- A part lies in one of the parts of a multiple of its size. -/
theorem parts_nested
    {size multiple : Nat}
    (multiplePositive : 0 < multiple)
    (divides : multiple % size = 0)
    (place : Nat) :
    ∃ inner, place / size * size = place / multiple * multiple + inner * size ∧
      inner * size + size ≤ multiple := by
  obtain ⟨factor, rfl⟩ := Nat.dvd_of_mod_eq_zero divides
  have factorPositive : 0 < factor := Nat.pos_of_mul_pos_left multiplePositive
  refine ⟨place / size % factor, ?_, ?_⟩
  · rw [← Nat.div_div_eq_div_mul]
    calc place / size * size
        = (factor * (place / size / factor) + place / size % factor) * size := by
          rw [Nat.div_add_mod]
      _ = place / size / factor * (size * factor) + place / size % factor * size := by
          rw [Nat.add_mul]
          congr 1
          rw [Nat.mul_comm factor, Nat.mul_assoc, Nat.mul_comm factor]
  · rw [← Nat.succ_mul, Nat.mul_comm size]
    exact Nat.mul_le_mul_right _ (Nat.mod_lt _ factorPositive)

/-- The row and the column of a place follow from its number. -/
theorem place_eq_of_number_eq
    {columns row column otherRow otherColumn : Nat}
    (columnBound : column < columns)
    (otherBound : otherColumn < columns)
    (equal : row * columns + column = otherRow * columns + otherColumn) :
    row = otherRow ∧ column = otherColumn := by
  have positive : 0 < columns := Nat.lt_of_le_of_lt (Nat.zero_le _) columnBound
  have sameRow := congrArg (· / columns) equal
  have sameColumn := congrArg (· % columns) equal
  simp only [Nat.mul_comm _ columns, Nat.mul_add_div positive, Nat.div_eq_of_lt columnBound,
    Nat.div_eq_of_lt otherBound, Nat.add_zero] at sameRow
  simp only [Nat.mul_add_mod', Nat.mod_eq_of_lt columnBound, Nat.mod_eq_of_lt otherBound]
    at sameColumn
  exact ⟨sameRow, sameColumn⟩

namespace Grid

variable {grid : Grid} {position : TilePosition}

/-- A grid has the sizes that it was made from. -/
theorem ofSizes_eq_ok
    {imageWidth imageHeight tileWidth tileHeight : Nat}
    (made : ofSizes imageWidth imageHeight tileWidth tileHeight = .ok grid) :
    grid.imageWidth = imageWidth ∧ grid.imageHeight = imageHeight ∧
      grid.tileWidth = tileWidth ∧ grid.tileHeight = tileHeight := by
  unfold ofSizes at made
  split at made
  · split at made
    · split at made
      · cases made
        exact ⟨rfl, rfl, rfl, rfl⟩
      · cases made
    · cases made
  · cases made

/-- A grid is made from its sizes. -/
theorem ofSizes_sizes (grid : Grid) :
    ofSizes grid.imageWidth grid.imageHeight grid.tileWidth grid.tileHeight = .ok grid := by
  unfold ofSizes
  rw [dif_pos ⟨grid.imageWidth_pos, grid.imageHeight_pos⟩,
    dif_pos ⟨grid.tileWidth_pos, grid.tileHeight_pos⟩, dif_pos grid.tileCount_lt]

/-! ## Numbers of tiles -/

/-- The number of a tile of the grid. -/
def indexOf
    (grid : Grid)
    (position : TilePosition)
    (inside : grid.Contains position) : Fin grid.tileCount :=
  ⟨position.row * grid.columns + position.column, index_lt inside⟩

theorem index_eq_ok (inside : grid.Contains position) :
    grid.index position = .ok (grid.indexOf position inside) := by
  unfold index
  rw [dif_pos inside]
  rfl

theorem index_eq_error (outside : ¬grid.Contains position) :
    grid.index position = .error .tileOutside := by
  unfold index
  rw [dif_neg outside]

/-- Different tiles have different numbers. -/
theorem indexOf_injective
    {first second : TilePosition}
    (firstInside : grid.Contains first)
    (secondInside : grid.Contains second)
    (equal : grid.indexOf first firstInside = grid.indexOf second secondInside) :
    first = second := by
  obtain ⟨rows, columns⟩ :=
    place_eq_of_number_eq firstInside.1 secondInside.1 (congrArg Fin.val equal)
  cases first
  cases second
  simp_all

/-- Every number below the number of tiles is the number of a tile. -/
theorem exists_indexOf_eq
    (grid : Grid)
    (index : Fin grid.tileCount) :
    ∃ position inside, grid.indexOf position inside = index := by
  have columnsPositive : 0 < grid.columns := by
    apply Nat.pos_of_ne_zero
    intro noColumns
    have empty : grid.tileCount = 0 := by
      unfold tileCount
      rw [noColumns, Nat.zero_mul]
    have bound := index.isLt
    omega
  refine ⟨⟨index % grid.columns, index / grid.columns⟩, ⟨Nat.mod_lt _ columnsPositive, ?_⟩, ?_⟩
  · exact (Nat.div_lt_iff_lt_mul columnsPositive).mpr (by
      rw [Nat.mul_comm]
      exact index.isLt)
  · apply Fin.ext
    exact Nat.div_add_mod' _ _

/-- The number of tiles fits into a word. -/
theorem tileCount_lt_word (grid : Grid) : grid.tileCount < 0x100000000 := grid.tileCount_lt

/-- So do the column and the row of a tile. -/
theorem Contains.lt_word
    (inside : grid.Contains position) :
    position.column < 0x100000000 ∧ position.row < 0x100000000 := by
  have bound := grid.tileCount_lt_word
  have columnsPositive : 0 < grid.columns := Nat.lt_of_le_of_lt (Nat.zero_le _) inside.1
  have rowsPositive : 0 < grid.rows := Nat.lt_of_le_of_lt (Nat.zero_le _) inside.2
  have columns : grid.columns ≤ grid.tileCount := Nat.le_mul_of_pos_right _ rowsPositive
  have rows : grid.rows ≤ grid.tileCount := Nat.le_mul_of_pos_left _ columnsPositive
  exact ⟨Nat.lt_of_lt_of_le inside.1 (Nat.le_trans columns (Nat.le_of_lt bound)),
    Nat.lt_of_lt_of_le inside.2 (Nat.le_trans rows (Nat.le_of_lt bound))⟩

@[simp] theorem mem_positions : position ∈ grid.positions ↔ grid.Contains position := by
  unfold positions Contains
  rw [List.mem_flatMap]
  constructor
  · rintro ⟨row, rowMember, member⟩
    obtain ⟨column, columnMember, rfl⟩ := List.mem_map.mp member
    exact ⟨List.mem_range.mp columnMember, List.mem_range.mp rowMember⟩
  · rintro ⟨columnBound, rowBound⟩
    exact ⟨position.row, List.mem_range.mpr rowBound,
      List.mem_map.mpr ⟨position.column, List.mem_range.mpr columnBound, rfl⟩⟩

@[simp] theorem length_positions (grid : Grid) : grid.positions.length = grid.tileCount := by
  unfold positions tileCount
  rw [List.length_flatMap]
  simp only [List.length_map, List.length_range, List.map_const', List.sum_replicate_nat]
  exact Nat.mul_comm _ _

theorem nodup_positions (grid : Grid) : grid.positions.Nodup := by
  unfold positions
  rw [List.nodup_flatMap]
  constructor
  · intro row _
    apply List.Nodup.map _ List.nodup_range
    intro first second equal
    exact (TilePosition.mk.inj equal).1
  · apply List.nodup_range.pairwise_of_forall_ne
    intro first _ second _ different
    change List.Disjoint _ _
    rw [List.disjoint_left]
    rintro position firstMember secondMember
    obtain ⟨_, _, rfl⟩ := List.mem_map.mp firstMember
    obtain ⟨_, _, equal⟩ := List.mem_map.mp secondMember
    exact different (TilePosition.mk.inj equal).2.symm

/-! ## Rectangles of tiles -/

/-- The rectangle of a tile, reduced at the edges of the image. -/
def frame (grid : Grid) (position : TilePosition) : Placement :=
  { position
    originX := position.column * grid.tileWidth
    originY := position.row * grid.tileHeight
    width := min grid.tileWidth (grid.imageWidth - position.column * grid.tileWidth)
    height := min grid.tileHeight (grid.imageHeight - position.row * grid.tileHeight) }

@[simp] theorem position_frame : (grid.frame position).position = position := rfl

theorem placement_eq_ok (inside : grid.Contains position) :
    grid.placement position = .ok (grid.frame position) := by
  unfold placement
  rw [if_pos inside]
  rfl

theorem placement_eq_error (outside : ¬grid.Contains position) :
    grid.placement position = .error .tileOutside := by
  unfold placement
  rw [if_neg outside]

theorem placement_eq_ok_iff {placement : Placement} :
    grid.placement position = .ok placement ↔
      grid.Contains position ∧ placement = grid.frame position := by
  by_cases inside : grid.Contains position
  · rw [placement_eq_ok inside]
    simp [inside, eq_comm]
  · rw [placement_eq_error inside]
    simp [inside]

/-- The rectangle of a tile ends inside the image. -/
theorem frame_inside
    (inside : grid.Contains position) :
    (grid.frame position).originX + (grid.frame position).width ≤ grid.imageWidth ∧
      (grid.frame position).originY + (grid.frame position).height ≤ grid.imageHeight := by
  have columnStart := (lt_partsCovering_iff grid.tileWidth_pos _ _).mp inside.1
  have rowStart := (lt_partsCovering_iff grid.tileHeight_pos _ _).mp inside.2
  simp only [frame]
  omega

/-- The rectangle of a tile has a pixel. -/
theorem frame_pos
    (inside : grid.Contains position) :
    0 < (grid.frame position).width ∧ 0 < (grid.frame position).height := by
  have columnStart := (lt_partsCovering_iff grid.tileWidth_pos _ _).mp inside.1
  have rowStart := (lt_partsCovering_iff grid.tileHeight_pos _ _).mp inside.2
  have tileWidth := grid.tileWidth_pos
  have tileHeight := grid.tileHeight_pos
  simp only [frame]
  omega

/-! ## The tile of a pixel -/

/-- The tile that owns a pixel. -/
def owner (grid : Grid) (x y : Nat) : TilePosition := ⟨x / grid.tileWidth, y / grid.tileHeight⟩

theorem contains_owner
    {x y : Nat}
    (insideX : x < grid.imageWidth)
    (insideY : y < grid.imageHeight) :
    grid.Contains (grid.owner x y) :=
  ⟨div_lt_partsCovering grid.tileWidth_pos insideX,
    div_lt_partsCovering grid.tileHeight_pos insideY⟩

/-- The restriction to the last row and column of tiles never has an effect. -/
theorem tileForPixel_eq_ok
    {x y : Nat}
    (insideX : x < grid.imageWidth)
    (insideY : y < grid.imageHeight) :
    grid.tileForPixel x y = .ok (grid.owner x y) := by
  have inside : grid.Contains (grid.owner x y) := contains_owner insideX insideY
  have columnBound : x / grid.tileWidth < grid.columns := inside.1
  have rowBound : y / grid.tileHeight < grid.rows := inside.2
  unfold tileForPixel containsPixel owner
  rw [if_pos (by simp [insideX, insideY]), Nat.min_eq_left (by omega),
    Nat.min_eq_left (by omega)]

theorem tileForPixel_eq_error
    {x y : Nat}
    (outside : grid.imageWidth ≤ x ∨ grid.imageHeight ≤ y) :
    grid.tileForPixel x y = .error (.pixelOutside x y) := by
  unfold tileForPixel containsPixel
  rw [if_neg]
  rw [Bool.and_eq_true, decide_eq_true_eq, decide_eq_true_eq]
  omega

/-- A pixel of the image lies in the rectangle of the tile that owns it, and in
no other. -/
theorem contains_frame_iff
    {x y : Nat}
    (insideX : x < grid.imageWidth)
    (insideY : y < grid.imageHeight) :
    (grid.frame position).contains x y = true ↔ position = grid.owner x y := by
  have column := mem_part_iff position.column grid.tileWidth_pos insideX
  have row := mem_part_iff position.row grid.tileHeight_pos insideY
  unfold Placement.contains frame owner
  simp only [Bool.and_eq_true, decide_eq_true_eq]
  constructor
  · rintro ⟨⟨⟨left, top⟩, right⟩, bottom⟩
    have columnOwner := column.mp ⟨left, right⟩
    have rowOwner := row.mp ⟨top, bottom⟩
    cases position
    simp_all
  · rintro rfl
    obtain ⟨left, right⟩ := column.mpr rfl
    obtain ⟨top, bottom⟩ := row.mpr rfl
    exact ⟨⟨⟨left, top⟩, right⟩, bottom⟩

end Grid
end DeepShadow
