import DeepShadow.Grid.Basic
import DeepShadow.Region
import DeepShadow.Violation

/-!
# Buckets

Producers shade an image in buckets: rectangles of one size, counted from the top
left corner and reduced at the right and bottom edges.  A tile consists of whole
buckets, so that each bucket lies in a single tile.
-/

namespace DeepShadow

/-- The size of the buckets of an image. -/
structure BucketSize where
  width : Nat
  height : Nat
  width_pos : 0 < width
  height_pos : 0 < height

namespace BucketSize

/-- The bucket size with the given sides, neither of which may be zero. -/
def ofSides (width height : Nat) : Except Violation BucketSize :=
  if width_pos : 0 < width then
    if height_pos : 0 < height then .ok { width, height, width_pos, height_pos }
    else .error .emptyBucket
  else .error .emptyBucket

/-- Whether each tile of a grid consists of whole buckets. -/
def Divides (size : BucketSize) (grid : Grid) : Prop :=
  grid.tileWidth % size.width = 0 ∧ grid.tileHeight % size.height = 0

instance (size : BucketSize) (grid : Grid) : Decidable (size.Divides grid) :=
  inferInstanceAs (Decidable (_ ∧ _))

/-- The first column of the bucket that owns a column. -/
def leftOf (size : BucketSize) (x : Nat) : Nat := x / size.width * size.width

/-- The first row of the bucket that owns a row. -/
def topOf (size : BucketSize) (y : Nat) : Nat := y / size.height * size.height

/-- The buckets that cover an image, row by row. -/
def cover (size : BucketSize) (imageWidth imageHeight : Nat) : List Rectangle :=
  (List.range (partsCovering imageHeight size.height)).flatMap fun row =>
    (List.range (partsCovering imageWidth size.width)).map fun column =>
      { left := column * size.width
        top := row * size.height
        right := min (column * size.width + size.width) imageWidth
        bottom := min (row * size.height + size.height) imageHeight }

end BucketSize
end DeepShadow
