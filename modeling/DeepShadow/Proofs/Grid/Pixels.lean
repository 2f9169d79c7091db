import DeepShadow.Proofs.Grid.Tiling
import DeepShadow.Region

/-!
# Pixels, row by row

The pixels of a rectangle are listed row by row.  A row is the same whether it is
listed at once or in parts of one size, the last of them reduced.
-/

namespace DeepShadow

/-! ## Lists of rows -/

/-- The places in rows of one width are below those of the row behind the last. -/
theorem place_in_rows_lt
    {row column width height : Nat}
    (columnBound : column < width)
    (rowBound : row < height) :
    row * width + column < height * width :=
  calc row * width + column
      < row * width + width := Nat.add_lt_add_left columnBound _
    _ = (row + 1) * width := (Nat.succ_mul _ _).symm
    _ ≤ height * width := Nat.mul_le_mul_right _ rowBound

/-- In a list of rows of one length, a row stands behind the rows above it. -/
theorem getElem?_flatMap_rows
    {α : Type}
    {rows : Nat -> List α}
    {width : Nat}
    (sameWidth : ∀ y, (rows y).length = width)
    (top height : Nat)
    {row column : Nat}
    (rowBound : row < height)
    (columnBound : column < width) :
    ((List.range' top height).flatMap rows)[row * width + column]? =
      (rows (top + row))[column]? := by
  induction height generalizing top row with
  | zero => cases rowBound
  | succ height inductionHypothesis =>
      rw [List.range'_succ, List.flatMap_cons]
      cases row with
      | zero =>
          have inFirst : column < (rows top).length := by
            rw [sameWidth]
            exact columnBound
          rw [Nat.zero_mul, Nat.zero_add, List.getElem?_append_left inFirst]
          rfl
      | succ row =>
          have behindFirst : (rows top).length ≤ (row + 1) * width + column := by
            rw [sameWidth, Nat.succ_mul]
            omega
          have index : (row + 1) * width + column - (rows top).length = row * width + column := by
            rw [sameWidth, Nat.succ_mul]
            omega
          rw [List.getElem?_append_right behindFirst, index,
            inductionHypothesis (top + 1) (Nat.lt_of_succ_lt_succ rowBound)]
          congr 2
          omega

theorem length_flatMap_rows
    {α : Type}
    {rows : Nat -> List α}
    {width : Nat}
    (sameWidth : ∀ y, (rows y).length = width)
    (top height : Nat) :
    ((List.range' top height).flatMap rows).length = width * height := by
  induction height generalizing top with
  | zero => rfl
  | succ height inductionHypothesis =>
      rw [List.range'_succ, List.flatMap_cons, List.length_append, sameWidth, inductionHypothesis,
        Nat.mul_succ, Nat.add_comm]

/-- Numbers below a product stand for pairs, row by row. -/
theorem flatMap_range_mul
    {α : Type}
    (rows columns : Nat)
    (values : Nat -> Nat -> List α) :
    (List.range (rows * columns)).flatMap
        (fun number => values (number / columns) (number % columns)) =
      (List.range rows).flatMap fun row => (List.range columns).flatMap (values row) := by
  induction rows with
  | zero => simp
  | succ rows inductionHypothesis =>
      have lastRow : (List.range columns).flatMap
          (fun column => values ((rows * columns + column) / columns)
            ((rows * columns + column) % columns)) =
              (List.range columns).flatMap (values rows) := by
        apply List.flatMap_congr
        intro column member
        have bound := List.mem_range.mp member
        have positive : 0 < columns := Nat.lt_of_le_of_lt (Nat.zero_le _) bound
        rw [Nat.mul_comm rows, Nat.mul_add_div positive, Nat.div_eq_of_lt bound,
          Nat.mul_add_mod, Nat.mod_eq_of_lt bound, Nat.add_zero]
      rw [Nat.succ_mul, List.range_add, List.flatMap_append, inductionHypothesis,
        List.flatMap_map, lastRow, List.range_succ, List.flatMap_append, List.flatMap_singleton]

/-- The parts of a length, one behind the other, are the length. -/
theorem flatMap_parts
    {size : Nat}
    (sizePositive : 0 < size)
    (start length : Nat) :
    (List.range (partsCovering length size)).flatMap
        (fun part => List.range' (start + part * size) (min size (length - part * size))) =
      List.range' start length := by
  have firstParts : ∀ count, count ≤ partsCovering length size ->
      (List.range count).flatMap
          (fun part => List.range' (start + part * size) (min size (length - part * size))) =
        List.range' start (min (count * size) length) := by
    intro count
    induction count with
    | zero => simp
    | succ count inductionHypothesis =>
        intro bound
        have inside := (lt_partsCovering_iff sizePositive count length).mp bound
        rw [List.range_succ, List.flatMap_append, List.flatMap_singleton,
          inductionHypothesis (Nat.le_of_succ_le bound), Nat.min_eq_left (Nat.le_of_lt inside),
          List.range'_append_1, Nat.succ_mul]
        congr 1
        omega
  rw [firstParts _ (Nat.le_refl _)]
  congr 1
  apply Nat.min_eq_right
  apply Nat.le_of_not_lt
  intro shorter
  exact Nat.lt_irrefl _ ((lt_partsCovering_iff sizePositive _ _).mpr shorter)

/-! ## Rectangles -/

namespace Rectangle

/-- Whether a pixel lies in a rectangle. -/
def Covers (rectangle : Rectangle) (x y : Nat) : Prop :=
  (rectangle.left ≤ x ∧ x < rectangle.right) ∧ rectangle.top ≤ y ∧ y < rectangle.bottom

instance (rectangle : Rectangle) (x y : Nat) : Decidable (rectangle.Covers x y) :=
  inferInstanceAs (Decidable (_ ∧ _))

theorem mem_pixels {rectangle : Rectangle} {x y : Nat} :
    (x, y) ∈ rectangle.pixels ↔ rectangle.Covers x y := by
  unfold pixels Covers width height
  rw [List.mem_flatMap]
  constructor
  · rintro ⟨row, rowMember, member⟩
    obtain ⟨column, columnMember, equal⟩ := List.mem_map.mp member
    cases equal
    have columnBounds := List.mem_range'_1.mp columnMember
    have rowBounds := List.mem_range'_1.mp rowMember
    omega
  · rintro ⟨columnBounds, rowBounds⟩
    exact ⟨y, List.mem_range'_1.mpr (by omega),
      List.mem_map.mpr ⟨x, List.mem_range'_1.mpr (by omega), rfl⟩⟩

@[simp] theorem length_pixels (rectangle : Rectangle) :
    rectangle.pixels.length = rectangle.pixelCount :=
  length_flatMap_rows (fun _ => by rw [List.length_map, List.length_range']) _ _

/-- The place of a pixel in the list of pixels. -/
theorem getElem?_pixels
    {bounds : Rectangle}
    {x y : Nat}
    (covers : bounds.Covers x y) :
    bounds.pixels[(y - bounds.top) * bounds.width + (x - bounds.left)]? = some (x, y) := by
  obtain ⟨⟨left, right⟩, top, bottom⟩ := covers
  have column : x - bounds.left < bounds.width := by
    unfold width
    omega
  have row : y - bounds.top < bounds.height := by
    unfold height
    omega
  unfold pixels
  rw [getElem?_flatMap_rows (fun _ => by rw [List.length_map, List.length_range']) _ _ row column,
    List.getElem?_map, List.getElem?_range' column]
  simp only [Option.map_some, Nat.one_mul, Nat.add_sub_of_le left, Nat.add_sub_of_le top]

end Rectangle

namespace Placement

/-- The pixels of a tile, row by row. -/
def pixels (placement : Placement) : List (Nat × Nat) :=
  (List.range' placement.originY placement.height).flatMap fun y =>
    (List.range' placement.originX placement.width).map fun x => (x, y)

variable {placement : Placement} {x y : Nat}

@[simp] theorem length_pixels (placement : Placement) :
    placement.pixels.length = placement.pixelCount :=
  length_flatMap_rows (fun _ => by rw [List.length_map, List.length_range']) _ _

theorem mem_pixels :
    (x, y) ∈ placement.pixels ↔
      (placement.originX ≤ x ∧ x < placement.originX + placement.width) ∧
        placement.originY ≤ y ∧ y < placement.originY + placement.height := by
  unfold pixels
  rw [List.mem_flatMap]
  constructor
  · rintro ⟨row, rowMember, member⟩
    obtain ⟨column, columnMember, equal⟩ := List.mem_map.mp member
    cases equal
    exact ⟨List.mem_range'_1.mp columnMember, List.mem_range'_1.mp rowMember⟩
  · rintro ⟨columnBounds, rowBounds⟩
    exact ⟨y, List.mem_range'_1.mpr rowBounds,
      List.mem_map.mpr ⟨x, List.mem_range'_1.mpr columnBounds, rfl⟩⟩

theorem contains_iff_mem_pixels :
    placement.contains x y = true ↔ (x, y) ∈ placement.pixels := by
  rw [mem_pixels]
  unfold contains
  simp only [Bool.and_eq_true, decide_eq_true_eq]
  omega

/-- A pixel of a tile lies in the tile when it is counted from the tile's corner. -/
theorem sub_origin_lt (contained : placement.contains x y = true) :
    x - placement.originX < placement.width ∧ y - placement.originY < placement.height := by
  obtain ⟨⟨left, right⟩, top, bottom⟩ := mem_pixels.mp (contains_iff_mem_pixels.mp contained)
  omega

/-- The place of a pixel is one of the places of a tile. -/
theorem index_lt
    (insideX : x < placement.width)
    (insideY : y < placement.height) :
    y * placement.width + x < placement.pixelCount := by
  rw [pixelCount, Nat.mul_comm placement.width]
  exact place_in_rows_lt insideX insideY

/-- The place of a pixel in the list of pixels. -/
theorem getElem?_pixels
    (insideX : x < placement.width)
    (insideY : y < placement.height) :
    placement.pixels[y * placement.width + x]? =
      some (placement.originX + x, placement.originY + y) := by
  unfold pixels
  rw [getElem?_flatMap_rows (fun _ => by rw [List.length_map, List.length_range']) _ _ insideY
    insideX, List.getElem?_map, List.getElem?_range' insideX]
  simp

end Placement
end DeepShadow
