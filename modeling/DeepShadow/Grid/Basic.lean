/-!
# Tile grids

An image is divided into tiles of one size, from the top left corner.  The tiles
at the right and bottom edges are reduced to what is left of the image.  Tiles
are numbered row by row.

A `Grid` carries the proofs that no side is empty and that the number of tiles
fits into a 32-bit word; `Grid.ofSizes` is where these are checked.
-/

namespace DeepShadow

/-- The place of a tile among the tiles of an image. -/
structure TilePosition where
  column : Nat
  row : Nat
deriving DecidableEq, Inhabited, Repr

/-- The rectangle of pixels that a tile covers. -/
structure Placement where
  position : TilePosition
  originX : Nat
  originY : Nat
  width : Nat
  height : Nat
deriving DecidableEq, Inhabited, Repr

namespace Placement

/-- The number of pixels in the rectangle. -/
def pixelCount (placement : Placement) : Nat := placement.width * placement.height

/-- Whether an image pixel lies in the rectangle. -/
def contains (placement : Placement) (x y : Nat) : Bool :=
  placement.originX ≤ x && placement.originY ≤ y &&
    x - placement.originX < placement.width && y - placement.originY < placement.height

end Placement

/-- Why there is no such grid, tile or pixel. -/
inductive GridError
  | emptyImage
  | emptyTile
  | tileOutside
  | pixelOutside (x y : Nat)
  | tooManyTiles
deriving DecidableEq, Repr

namespace GridError

/-- The text shown for an error. -/
def message : GridError -> String
  | emptyImage => "image dimensions must be non-zero"
  | emptyTile => "tile dimensions must be non-zero"
  | tileOutside => "tile index out of bounds"
  | pixelOutside x y => s!"pixel ({x}, {y}) lies outside the image"
  | tooManyTiles => "tile count overflows u32"

end GridError

/-- The number of parts of the given size that cover a length. -/
def partsCovering (length size : Nat) : Nat := (length + size - 1) / size

/-- An image divided into tiles. -/
structure Grid where
  imageWidth : Nat
  imageHeight : Nat
  tileWidth : Nat
  tileHeight : Nat
  imageWidth_pos : 0 < imageWidth
  imageHeight_pos : 0 < imageHeight
  tileWidth_pos : 0 < tileWidth
  tileHeight_pos : 0 < tileHeight
  tileCount_lt :
    partsCovering imageWidth tileWidth * partsCovering imageHeight tileHeight < 0x100000000
deriving DecidableEq

namespace Grid

/-- The grid of an image and a tile size, where there is one. -/
def ofSizes (imageWidth imageHeight tileWidth tileHeight : Nat) : Except GridError Grid :=
  if imagePositive : 0 < imageWidth ∧ 0 < imageHeight then
    if tilePositive : 0 < tileWidth ∧ 0 < tileHeight then
      if countBound :
          partsCovering imageWidth tileWidth * partsCovering imageHeight tileHeight < 0x100000000 then
        .ok
          { imageWidth
            imageHeight
            tileWidth
            tileHeight
            imageWidth_pos := imagePositive.1
            imageHeight_pos := imagePositive.2
            tileWidth_pos := tilePositive.1
            tileHeight_pos := tilePositive.2
            tileCount_lt := countBound }
      else .error .tooManyTiles
    else .error .emptyTile
  else .error .emptyImage

/-- The number of tiles in a row. -/
def columns (grid : Grid) : Nat := partsCovering grid.imageWidth grid.tileWidth

/-- The number of rows of tiles. -/
def rows (grid : Grid) : Nat := partsCovering grid.imageHeight grid.tileHeight

/-- The number of tiles. -/
def tileCount (grid : Grid) : Nat := grid.columns * grid.rows

/-- Whether a tile belongs to the grid. -/
def Contains (grid : Grid) (position : TilePosition) : Prop :=
  position.column < grid.columns ∧ position.row < grid.rows

instance (grid : Grid) (position : TilePosition) : Decidable (grid.Contains position) :=
  inferInstanceAs (Decidable (_ ∧ _))

/-- The number of a tile of the grid is below the number of tiles. -/
theorem index_lt
    {grid : Grid}
    {position : TilePosition}
    (inside : grid.Contains position) :
    position.row * grid.columns + position.column < grid.tileCount := by
  obtain ⟨columnBound, rowBound⟩ := inside
  calc position.row * grid.columns + position.column
      < position.row * grid.columns + grid.columns := by omega
    _ = grid.columns * (position.row + 1) := by rw [Nat.mul_comm, Nat.mul_succ]
    _ ≤ grid.columns * grid.rows := Nat.mul_le_mul_left _ rowBound

/-- The number of a tile, counted row by row. -/
def index (grid : Grid) (position : TilePosition) : Except GridError (Fin grid.tileCount) :=
  if inside : grid.Contains position then
    .ok ⟨position.row * grid.columns + position.column, index_lt inside⟩
  else .error .tileOutside

/-- The tile with the given number. -/
def position (grid : Grid) (index : Nat) : Except GridError TilePosition :=
  if index < grid.tileCount then
    .ok ⟨index % grid.columns, index / grid.columns⟩
  else .error .tileOutside

/-- Whether a pixel belongs to the image. -/
def containsPixel (grid : Grid) (x y : Nat) : Bool :=
  x < grid.imageWidth && y < grid.imageHeight

/-- The tile that owns a pixel. -/
def tileForPixel (grid : Grid) (x y : Nat) : Except GridError TilePosition :=
  if grid.containsPixel x y then
    .ok ⟨min (x / grid.tileWidth) (grid.columns - 1), min (y / grid.tileHeight) (grid.rows - 1)⟩
  else .error (.pixelOutside x y)

/-- The rectangle of a tile. -/
def placement (grid : Grid) (position : TilePosition) : Except GridError Placement :=
  if grid.Contains position then
    let originX := position.column * grid.tileWidth
    let originY := position.row * grid.tileHeight
    .ok
      { position
        originX
        originY
        width := min grid.tileWidth (grid.imageWidth - originX)
        height := min grid.tileHeight (grid.imageHeight - originY) }
  else .error .tileOutside

/-- All tiles, row by row. -/
def positions (grid : Grid) : List TilePosition :=
  (List.range grid.rows).flatMap fun row =>
    (List.range grid.columns).map fun column => ⟨column, row⟩

end Grid
end DeepShadow
