import Mathlib.Data.List.Nodup
import Mathlib.Data.List.ProdSigma
import DeepShadow.Bucket.Basic
import DeepShadow.Proofs.Grid.Pixels

/-!
# The buckets of an image

The buckets that cover an image are disjoint, each pixel lies in one of them, and
each is a bucket counted from the top left corner, reduced at the edges.  The pixels of
a bucket are pixels of one tile.
-/

namespace DeepShadow
namespace BucketSize

variable {size : BucketSize} {imageWidth imageHeight : Nat} {place : Nat × Nat}

/-- The bucket with the given row and column. -/
def part (size : BucketSize) (imageWidth imageHeight : Nat) (place : Nat × Nat) : Rectangle :=
  { left := place.2 * size.width
    top := place.1 * size.height
    right := min (place.2 * size.width + size.width) imageWidth
    bottom := min (place.1 * size.height + size.height) imageHeight }

/-- The rows and columns of the buckets of an image, row by row. -/
def places (size : BucketSize) (imageWidth imageHeight : Nat) : List (Nat × Nat) :=
  List.range (partsCovering imageHeight size.height) ×ˢ
    List.range (partsCovering imageWidth size.width)

theorem cover_eq (size : BucketSize) (imageWidth imageHeight : Nat) :
    size.cover imageWidth imageHeight =
      (size.places imageWidth imageHeight).map (size.part imageWidth imageHeight) := by
  unfold cover places
  simp only [SProd.sprod, List.product, List.map_flatMap, List.map_map]
  rfl

theorem nodup_places (size : BucketSize) (imageWidth imageHeight : Nat) :
    (size.places imageWidth imageHeight).Nodup :=
  List.nodup_range.product List.nodup_range

/-- The first pixels of the buckets lie in the image. -/
theorem mem_places :
    place ∈ size.places imageWidth imageHeight ↔
      place.1 * size.height < imageHeight ∧ place.2 * size.width < imageWidth := by
  unfold places
  rw [List.mem_product, List.mem_range, List.mem_range, lt_partsCovering_iff size.height_pos,
    lt_partsCovering_iff size.width_pos]

/-- Places between two multiples of a size belong to the first one. -/
theorem start_eq_of_mem
    {sides number coordinate : Nat}
    (positive : 0 < sides)
    (first : number * sides ≤ coordinate)
    (last : coordinate < number * sides + sides) :
    coordinate / sides * sides = number * sides := by
  have same : coordinate / sides = number := by
    rw [Nat.div_eq_iff positive]
    omega
  rw [same]

/-- A bucket covers the pixels of the image whose bucket it is. -/
theorem covers_part_iff {x y : Nat} :
    (size.part imageWidth imageHeight place).Covers x y ↔
      (x < imageWidth ∧ x / size.width = place.2) ∧
        y < imageHeight ∧ y / size.height = place.1 := by
  have along : ∀ {sides length number coordinate : Nat}, 0 < sides ->
      ((number * sides ≤ coordinate ∧ coordinate < min (number * sides + sides) length) ↔
        coordinate < length ∧ coordinate / sides = number) := by
    intro sides length number coordinate positive
    rw [Nat.lt_min, Nat.div_eq_iff positive]
    omega
  unfold Rectangle.Covers part
  rw [along size.width_pos, along size.height_pos]

/-- A pixel of the image lies in one bucket only, the one with its row and column. -/
theorem exists_mem_cover_and_iff
    {x y : Nat}
    (insideX : x < imageWidth)
    (insideY : y < imageHeight)
    (predicate : Rectangle -> Prop) :
    (∃ cell ∈ size.cover imageWidth imageHeight, cell.Covers x y ∧ predicate cell) ↔
      predicate (size.part imageWidth imageHeight (y / size.height, x / size.width)) := by
  rw [cover_eq]
  constructor
  · rintro ⟨_, member, covers, holds⟩
    obtain ⟨place, _, rfl⟩ := List.mem_map.mp member
    obtain ⟨⟨_, column_eq⟩, _, row_eq⟩ := covers_part_iff.mp covers
    rw [column_eq, row_eq]
    exact holds
  · intro holds
    have member : (y / size.height, x / size.width) ∈ size.places imageWidth imageHeight :=
      mem_places.mpr ⟨Nat.lt_of_le_of_lt (Nat.div_mul_le_self y _) insideY,
        Nat.lt_of_le_of_lt (Nat.div_mul_le_self x _) insideX⟩
    exact ⟨_, List.mem_map_of_mem member,
      covers_part_iff.mpr ⟨⟨insideX, rfl⟩, insideY, rfl⟩, holds⟩

/-- Each pixel of the image lies in a bucket. -/
theorem exists_mem_cover
    {x y : Nat}
    (insideX : x < imageWidth)
    (insideY : y < imageHeight) :
    ∃ rectangle ∈ size.cover imageWidth imageHeight, rectangle.Covers x y := by
  obtain ⟨cell, member, covers, _⟩ :=
    (exists_mem_cover_and_iff insideX insideY fun _ => True).mpr trivial
  exact ⟨cell, member, covers⟩

/-- No pixel lies in two buckets. -/
theorem disjoint_cover (size : BucketSize) (imageWidth imageHeight : Nat) :
    (size.cover imageWidth imageHeight).Pairwise fun first second =>
      ∀ x y, first.Covers x y -> ¬second.Covers x y := by
  rw [cover_eq, List.pairwise_map]
  apply (size.nodup_places imageWidth imageHeight).pairwise_of_forall_ne
  intro first _ second _ different x y inFirst inSecond
  rw [covers_part_iff] at inFirst inSecond
  exact different (Prod.ext (inFirst.2.2.symm.trans inSecond.2.2)
    (inFirst.1.2.symm.trans inSecond.1.2))

/-- A bucket of an image has pixels, lies in the image and is no larger than other
buckets. -/
theorem sides_of_mem_cover
    {cell : Rectangle}
    (member : cell ∈ size.cover imageWidth imageHeight) :
    (cell.left < cell.right ∧ cell.right ≤ cell.left + size.width ∧
      cell.right ≤ imageWidth) ∧
      cell.top < cell.bottom ∧ cell.bottom ≤ cell.top + size.height ∧
        cell.bottom ≤ imageHeight := by
  rw [cover_eq] at member
  obtain ⟨place, placeMember, rfl⟩ := List.mem_map.mp member
  have start := mem_places.mp placeMember
  have widthPositive := size.width_pos
  have heightPositive := size.height_pos
  simp only [part]
  omega

/-- A bucket starts where the buckets of its first and its last pixel start, and goes on to
the next bucket or to the end of the image. -/
theorem aligned_of_mem_cover
    {cell : Rectangle}
    (member : cell ∈ size.cover imageWidth imageHeight) :
    (size.leftOf cell.left = cell.left ∧ size.leftOf (cell.right - 1) = cell.left ∧
      cell.right = min (cell.left + size.width) imageWidth) ∧
      size.topOf cell.top = cell.top ∧ size.topOf (cell.bottom - 1) = cell.top := by
  obtain ⟨⟨left_lt, right_le, _⟩, top_lt, bottom_le, _⟩ := sides_of_mem_cover member
  rw [cover_eq] at member
  obtain ⟨place, _, rfl⟩ := List.mem_map.mp member
  have widthPositive := size.width_pos
  have heightPositive := size.height_pos
  simp only [part] at left_lt right_le top_lt bottom_le
  refine ⟨⟨?_, ?_, rfl⟩, ?_, ?_⟩
  all_goals simp only [part, leftOf, topOf]
  · exact start_eq_of_mem widthPositive (by omega) (by omega)
  · exact start_eq_of_mem widthPositive (by omega) (by omega)
  · exact start_eq_of_mem heightPositive (by omega) (by omega)
  · exact start_eq_of_mem heightPositive (by omega) (by omega)

/-! ## Pixels of one bucket -/

/-- Two pixels of the image lie in one bucket when the buckets that own them start at the
same column and at the same row. -/
theorem exists_common_bucket_iff
    {x y otherX otherY : Nat}
    (insideX : x < imageWidth)
    (insideY : y < imageHeight)
    (otherInsideX : otherX < imageWidth)
    (otherInsideY : otherY < imageHeight) :
    (∃ cell ∈ size.cover imageWidth imageHeight, cell.Covers x y ∧ cell.Covers otherX otherY) ↔
      size.leftOf otherX = size.leftOf x ∧ size.topOf otherY = size.topOf y := by
  rw [exists_mem_cover_and_iff insideX insideY, covers_part_iff]
  unfold leftOf topOf
  rw [Nat.mul_right_cancel_iff size.width_pos, Nat.mul_right_cancel_iff size.height_pos]
  simp only [otherInsideX, otherInsideY, true_and]

/-- The pixels of a bucket have one tile. -/
theorem Divides.owner_eq
    {grid : Grid}
    (divides : size.Divides grid)
    {x y otherX otherY : Nat}
    (sameColumn : x / size.width = otherX / size.width)
    (sameRow : y / size.height = otherY / size.height) :
    grid.owner x y = grid.owner otherX otherY := by
  obtain ⟨columns, width_eq⟩ := Nat.dvd_of_mod_eq_zero divides.1
  obtain ⟨rows, height_eq⟩ := Nat.dvd_of_mod_eq_zero divides.2
  unfold Grid.owner
  rw [width_eq, height_eq, ← Nat.div_div_eq_div_mul, ← Nat.div_div_eq_div_mul,
    ← Nat.div_div_eq_div_mul, ← Nat.div_div_eq_div_mul, sameColumn, sameRow]

theorem Divides.owner_eq_of_covers
    {grid : Grid}
    (divides : size.Divides grid)
    {cell : Rectangle}
    (member : cell ∈ size.cover imageWidth imageHeight)
    {x y otherX otherY : Nat}
    (covers : cell.Covers x y)
    (otherCovers : cell.Covers otherX otherY) :
    grid.owner x y = grid.owner otherX otherY := by
  rw [cover_eq] at member
  obtain ⟨place, _, rfl⟩ := List.mem_map.mp member
  rw [covers_part_iff] at covers otherCovers
  exact divides.owner_eq (covers.1.2.trans otherCovers.1.2.symm)
    (covers.2.2.trans otherCovers.2.2.symm)

end BucketSize
end DeepShadow
