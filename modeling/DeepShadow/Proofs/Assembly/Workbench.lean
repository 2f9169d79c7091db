import Mathlib.Logic.Function.Basic
import DeepShadow.Proofs.Assembly.Arrival

/-!
# Tiles that are open for rows

A tile that is being assembled holds its buckets by their corners, and a bucket holds its rows
from the top.  Both are made when they are first looked for, and a bucket without rows is made
before it is known whether a region can be put into it.  To a reader, a bucket without rows
makes no difference: the slots of the pending tile are the same.
-/

namespace DeepShadow

namespace TileMap

variable {α β : Type} {grid : Grid}

/-- Changes the value of each tile. -/
def map (function : α -> β) (values : TileMap grid α) : TileMap grid β :=
  ⟨values.values.map function⟩

@[simp] theorem map_constant (function : α -> β) (value : α) :
    (constant grid value).map function = constant grid (function value) :=
  congrArg mk Vector.map_replicate

theorem get_map
    (function : α -> β)
    (values : TileMap grid α)
    (index : Fin grid.tileCount) :
    (values.map function).get index = function (values.get index) :=
  Vector.getElem_map function index.isLt

theorem map_set
    (function : α -> β)
    (values : TileMap grid α)
    (index : Fin grid.tileCount)
    (value : α) :
    (values.set index value).map function = (values.map function).set index (function value) :=
  congrArg mk Vector.map_set

@[simp] theorem set_set
    (values : TileMap grid α)
    (index : Fin grid.tileCount)
    (first second : α) :
    (values.set index first).set index second = values.set index second :=
  congrArg mk (Vector.set_set first index.isLt)

@[simp] theorem set_get
    (values : TileMap grid α)
    (index : Fin grid.tileCount) :
    values.set index (values.get index) = values :=
  congrArg mk (Vector.set_getElem_self index.isLt)

end TileMap

namespace BucketSize

/-- The number of columns of the bucket that starts at a column of an image. -/
def widthAt (size : BucketSize) (grid : Grid) (left : Nat) : Nat :=
  min (left + size.width) grid.imageWidth - left

/-- The number of rows of the bucket that starts at a row of an image. -/
def heightAt (size : BucketSize) (grid : Grid) (top : Nat) : Nat :=
  min (top + size.height) grid.imageHeight - top

end BucketSize

namespace Assembly

/-! ## Buckets -/

/-- A bucket of a tile, with the rows that have arrived. -/
structure OpenBucket where
  width : Nat
  rows : List (Option Strip)

namespace OpenBucket

variable {bucket : OpenBucket} {row other first count : Nat} {strip : Strip}

/-- The bucket of which no row has arrived. -/
def empty (width height : Nat) : OpenBucket := ⟨width, List.replicate height none⟩

/-- A row that has arrived. -/
def row? (bucket : OpenBucket) (row : Nat) : Option Strip := bucket.rows[row]?.join

/-- The first of `count` rows, from row `first` on, that has arrived, counted from there. -/
def firstFilled? (bucket : OpenBucket) (first count : Nat) : Option Nat :=
  (List.range count).find? fun offset => (bucket.row? (first + offset)).isSome

/-- The rows of a region, as the bucket keeps them. -/
def strips (bucket : OpenBucket) (region : Region) : List Strip :=
  match region.lengths with
  | none => List.replicate region.bounds.height (.unoccluded bucket.width)
  | some lengths =>
      Strip.cut region.bounds.width (region.channels + 1) region.bounds.height lengths
        region.values

/-- Puts rows into the bucket, from one of them downwards. -/
def putAll (bucket : OpenBucket) (row : Nat) : List Strip -> OpenBucket
  | [] => bucket
  | strip :: strips =>
      ({ bucket with rows := bucket.rows.set row (some strip) } : OpenBucket).putAll (row + 1)
        strips

@[simp] theorem row?_empty (width height : Nat) : (empty width height).row? row = none := by
  unfold row? empty
  rw [List.getElem?_replicate]
  split <;> rfl

/-- The rows of a region are its strips where the bucket has the width of the region. -/
theorem strips_eq {region : Region} (width_eq : bucket.width = region.bounds.width) :
    bucket.strips region = Strip.ofRegion region := by
  unfold strips Strip.ofRegion
  cases region.lengths with
  | none => simp only [width_eq]
  | some lengths => rfl

@[simp] theorem width_putAll (strips : List Strip) :
    (bucket.putAll row strips).width = bucket.width := by
  induction strips generalizing bucket row with
  | nil => rfl
  | cons strip strips inductionHypothesis =>
      rw [putAll, inductionHypothesis]

@[simp] theorem length_rows_putAll (strips : List Strip) :
    (bucket.putAll row strips).rows.length = bucket.rows.length := by
  induction strips generalizing bucket row with
  | nil => rfl
  | cons strip strips inductionHypothesis =>
      rw [putAll, inductionHypothesis, List.length_set]

/-- Rows that are put into a bucket are there, and the others stay. -/
theorem row?_putAll
    (strips : List Strip)
    (bound : row + strips.length ≤ bucket.rows.length) :
    (bucket.putAll row strips).row? other =
      if row ≤ other ∧ other < row + strips.length then strips[other - row]?
      else bucket.row? other := by
  induction strips generalizing bucket row with
  | nil =>
      rw [putAll, if_neg]
      rw [List.length_nil]
      omega
  | cons strip strips inductionHypothesis =>
      rw [List.length_cons] at bound
      have restBound : row + 1 + strips.length ≤
          (bucket.rows.set row (some strip)).length := by
        rw [List.length_set]
        omega
      rw [putAll, inductionHypothesis restBound, List.length_cons]
      by_cases below : row + 1 ≤ other ∧ other < row + 1 + strips.length
      · have index : other - row = other - (row + 1) + 1 := by omega
        rw [if_pos below, if_pos (by omega), index, List.getElem?_cons_succ]
      · rw [if_neg below]
        unfold row?
        by_cases here : row = other
        · rw [if_pos (by omega), List.getElem?_set, if_pos here, if_pos (by omega), here,
            Nat.sub_self]
          rfl
        · rw [if_neg (by omega), List.getElem?_set, if_neg here]

/-- A bucket of which a row has arrived was not made just now. -/
theorem firstFilled?_empty (width height : Nat) :
    (empty width height).firstFilled? first count = none := by
  unfold firstFilled?
  rw [List.find?_eq_none]
  intro offset _
  rw [row?_empty]
  exact Bool.false_ne_true

end OpenBucket

/-! ## Tiles -/

/-- A tile that has begun to arrive, with its buckets by their corners in the tile. -/
structure OpenTile where
  placement : Placement
  buckets : Nat × Nat -> Option OpenBucket
  /-- The number of pixels that have arrived. -/
  filled : Nat

namespace OpenTile

variable {tile : OpenTile} {size : BucketSize} {corner : Nat × Nat} {bucket : OpenBucket}
  {row column : Nat}

/-- The tile of which nothing has arrived. -/
def empty (placement : Placement) : OpenTile := ⟨placement, fun _ => none, 0⟩

/-- Replaces the bucket with a corner. -/
def set (tile : OpenTile) (corner : Nat × Nat) (bucket : OpenBucket) : OpenTile :=
  { tile with buckets := Function.update tile.buckets corner (some bucket) }

/-- Counts more pixels. -/
def add (tile : OpenTile) (pixels : Nat) : OpenTile :=
  { tile with filled := tile.filled + pixels }

/-- A row of one of the buckets side by side. -/
def row? (tile : OpenTile) (size : BucketSize) (row column : Nat) : Option Strip :=
  let corner := (column * size.width, row / size.height * size.height)
  (tile.buckets corner).bind fun bucket => bucket.row? (row - corner.2)

/-- The tile with a slot for each row of each bucket. -/
def pending (size : BucketSize) (tile : OpenTile) : PendingTile :=
  { placement := tile.placement
    columns := partsCovering tile.placement.width size.width
    slots := Vector.ofFn fun slot =>
      tile.row? size (slot / partsCovering tile.placement.width size.width)
        (slot % partsCovering tile.placement.width size.width)
    filled := tile.filled }

end OpenTile

/-- A pending tile is known from the strips in its slots. -/
theorem PendingTile.eq_of_strip?_eq
    {first second : PendingTile}
    (placement_eq : first.placement = second.placement)
    (columns_eq : first.columns = second.columns)
    (filled_eq : first.filled = second.filled)
    (strips_eq : ∀ row column, row < first.placement.height -> column < first.columns ->
      first.strip? row column = second.strip? row column) :
    first = second := by
  have slots_eq : first.slots.toList = second.slots.toList := by
    rw [toList_slots, toList_slots, ← placement_eq, ← columns_eq]
    apply List.map_congr_left
    intro slot member
    rw [List.mem_range] at member
    have columnsPositive : 0 < first.columns :=
      Nat.pos_of_ne_zero fun zero => by
        rw [zero, Nat.mul_zero] at member
        exact Nat.not_lt_zero _ member
    exact strips_eq _ _ (Nat.div_lt_of_lt_mul (Nat.mul_comm _ _ ▸ member))
      (Nat.mod_lt _ columnsPositive)
  obtain ⟨placement, columns, ⟨⟨slots⟩, _⟩, filled⟩ := first
  obtain ⟨_, _, ⟨⟨otherSlots⟩, _⟩, _⟩ := second
  cases placement_eq
  cases columns_eq
  cases filled_eq
  cases slots_eq
  rfl

namespace OpenTile

variable {tile : OpenTile} {size : BucketSize} {corner : Nat × Nat} {bucket : OpenBucket}
  {row column : Nat}

theorem set_of_eq (isThere : tile.buckets corner = some bucket) :
    tile.set corner bucket = tile := by
  unfold set
  rw [← isThere, Function.update_eq_self]

/-- A bucket of the tile is the one that was put there, or it was there before. -/
theorem of_buckets_set
    {other : Nat × Nat}
    {there : OpenBucket}
    (found : (tile.set corner bucket).buckets other = some there) :
    other = corner ∧ there = bucket ∨ tile.buckets other = some there := by
  unfold set at found
  simp only [Function.update_apply] at found
  split at found
  next same =>
    cases found
    exact Or.inl ⟨same, rfl⟩
  next => exact Or.inr found

@[simp] theorem set_set (first second : OpenBucket) :
    (tile.set corner first).set corner second = tile.set corner second := by
  unfold set
  rw [Function.update_idem]

/-- A row is looked for in the bucket with its corner. -/
theorem row?_of_corner
    (corner_eq : (column * size.width, row / size.height * size.height) = corner) :
    tile.row? size row column =
      (tile.buckets corner).bind fun there => there.row? (row - corner.2) := by
  subst corner_eq
  rfl

/-- A slot has the row of its bucket. -/
theorem strip?_pending
    (rowBound : row < tile.placement.height)
    (columnBound : column < partsCovering tile.placement.width size.width) :
    (tile.pending size).strip? row column = tile.row? size row column := by
  have columnsPositive : 0 < partsCovering tile.placement.width size.width :=
    Nat.lt_of_le_of_lt (Nat.zero_le _) columnBound
  have slotBound := place_in_rows_lt columnBound rowBound
  unfold PendingTile.strip? PendingTile.slot pending
  rw [Vector.getElem?_ofFn, dif_pos slotBound, Option.getD_some]
  simp only
  rw [Nat.mul_comm, Nat.mul_add_div columnsPositive, Nat.div_eq_of_lt columnBound, Nat.add_zero,
    Nat.mul_add_mod, Nat.mod_eq_of_lt columnBound]

/-- The tile of which nothing has arrived has empty slots. -/
theorem pending_empty (size : BucketSize) (placement : Placement) :
    (empty placement).pending size = PendingTile.empty placement size := by
  refine PendingTile.eq_of_strip?_eq rfl rfl rfl fun row column rowBound columnBound => ?_
  rw [strip?_pending rowBound columnBound, PendingTile.strip?_empty]
  rfl

/-- The rows of a tile after one of its buckets was replaced. -/
theorem row?_set :
    (tile.set corner bucket).row? size row column =
      if (column * size.width, row / size.height * size.height) = corner then
        bucket.row? (row - corner.2)
      else tile.row? size row column := by
  unfold row? set
  simp only [Function.update_apply]
  split
  next here => rw [← here, Option.bind_some]
  next => rfl

/-- A bucket that has the rows that were there before changes no slot. -/
theorem pending_set_of_same
    (same : ∀ row, bucket.row? row = (tile.buckets corner).bind fun there => there.row? row) :
    (tile.set corner bucket).pending size = tile.pending size := by
  refine PendingTile.eq_of_strip?_eq rfl rfl rfl fun row column rowBound columnBound => ?_
  have before : (tile.pending size).strip? row column = tile.row? size row column :=
    strip?_pending rowBound columnBound
  rw [strip?_pending rowBound columnBound, row?_set, before]
  split
  next here => rw [same, row?_of_corner here]
  next => rfl

/-! ## The rows of a region -/

/-- Some rows of a tile and of one of the buckets side by side are rows of the bucket with a
corner, of which they are those from row `first` on. -/
structure Cell
    (size : BucketSize)
    (corner : Nat × Nat)
    (row column first count : Nat) : Prop where
  left_eq : column * size.width = corner.1
  row_eq : row = corner.2 + first
  top_eq : ∀ other, row ≤ other -> other < row + count ->
    other / size.height * size.height = corner.2

variable {first count : Nat}

/-- The rows of a region are rows of one bucket. -/
theorem Cell.row?_eq
    (cell : Cell size corner row column first count)
    (isThere : tile.buckets corner = some bucket)
    {other : Nat}
    (from_row : row ≤ other)
    (lt_end : other < row + count) :
    tile.row? size other column = bucket.row? (other - corner.2) := by
  have corner_eq : (column * size.width, other / size.height * size.height) = corner := by
    rw [cell.left_eq, cell.top_eq other from_row lt_end]
  rw [row?_of_corner corner_eq, isThere, Option.bind_some]

/-- The first of some rows that has arrived is found in their bucket. -/
theorem Cell.firstFilled?_pending
    (cell : Cell size corner row column first count)
    (isThere : tile.buckets corner = some bucket)
    (rowsBound : row + count ≤ tile.placement.height)
    (columnBound : column < partsCovering tile.placement.width size.width) :
    (tile.pending size).firstFilled? row count column =
      (bucket.firstFilled? first count).map (row + ·) := by
  unfold PendingTile.firstFilled? OpenBucket.firstFilled?
  rw [List.range'_eq_map_range, List.find?_map]
  refine congrArg (Option.map _) (List.find?_congr fun offset member => ?_)
  rw [List.mem_range] at member
  have inBucket : row + offset - corner.2 = first + offset := by
    rw [cell.row_eq]
    omega
  change ((tile.pending size).strip? (row + offset) column).isSome = _
  rw [strip?_pending (by omega) columnBound,
    cell.row?_eq isThere (Nat.le_add_right _ _) (by omega), inBucket]

/-- The rows of a tile after rows were put into one of its buckets. -/
theorem Cell.row?_putAll
    {strips : List Strip}
    (cell : Cell size corner row column first strips.length)
    (isThere : tile.buckets corner = some bucket)
    (inBucket : first + strips.length ≤ bucket.rows.length)
    (other otherColumn : Nat) :
    (tile.set corner (bucket.putAll first strips)).row? size other otherColumn =
      if otherColumn = column ∧ row ≤ other ∧ other < row + strips.length then
        strips[other - row]?
      else tile.row? size other otherColumn := by
  rw [row?_set]
  by_cases here : (otherColumn * size.width, other / size.height * size.height) = corner
  · have sameColumn : otherColumn = column := by
      apply Nat.eq_of_mul_eq_mul_right size.width_pos
      rw [cell.left_eq, ← here]
    have top_le : corner.2 ≤ other := by
      rw [← here]
      exact Nat.div_mul_le_self other size.height
    have row_eq := cell.row_eq
    rw [if_pos here, OpenBucket.row?_putAll strips inBucket]
    by_cases inRows : row ≤ other ∧ other < row + strips.length
    · have offset_eq : other - corner.2 - first = other - row := by omega
      rw [if_pos ⟨by omega, by omega⟩, if_pos ⟨sameColumn, inRows⟩, offset_eq]
    · rw [if_neg (by omega), if_neg (fun inside => inRows inside.2)]
      rw [row?_of_corner here, isThere, Option.bind_some]
  · have notInRows : ¬(otherColumn = column ∧ row ≤ other ∧ other < row + strips.length) := by
      rintro ⟨rfl, from_row, lt_end⟩
      rw [cell.left_eq, cell.top_eq other from_row lt_end] at here
      exact here rfl
    rw [if_neg here, if_neg notInRows]

/-- Rows that are put into their bucket are put into their slots. -/
theorem Cell.pending_putAll
    {strips : List Strip}
    (cell : Cell size corner row column first strips.length)
    (isThere : tile.buckets corner = some bucket)
    (rowsBound : row + strips.length ≤ tile.placement.height)
    (columnBound : column < partsCovering tile.placement.width size.width)
    {width : Nat}
    (inBucket : first + strips.length ≤ bucket.rows.length)
    (sameWidth : ∀ strip ∈ strips, strip.lengths.length = width) :
    ((tile.set corner (bucket.putAll first strips)).add (width * strips.length)).pending size =
      (tile.pending size).putAll row column strips := by
  refine PendingTile.eq_of_strip?_eq ?_ ?_ ?_ fun other otherColumn inRows inColumns => ?_
  · rw [PendingTile.placement_putAll]
    rfl
  · rw [PendingTile.columns_putAll]
    rfl
  · rw [PendingTile.filled_putAll strips sameWidth]
    rfl
  have inSlots : ((tile.pending size).putAll row column strips).strip? other otherColumn =
      if otherColumn = column ∧ row ≤ other ∧ other < row + strips.length then
        strips[other - row]?
      else (tile.pending size).strip? other otherColumn :=
    PendingTile.strip?_putAll strips rowsBound columnBound inColumns
  have before : (tile.pending size).strip? other otherColumn =
      tile.row? size other otherColumn := strip?_pending inRows inColumns
  rw [strip?_pending inRows inColumns, inSlots, before]
  exact cell.row?_putAll isThere inBucket other otherColumn

/-! ## Buckets in the image -/

/-- The buckets of a tile have the sizes that they have in the image. -/
def Fits (size : BucketSize) (grid : Grid) (tile : OpenTile) : Prop :=
  ∀ corner bucket, tile.buckets corner = some bucket ->
    bucket.width = size.widthAt grid (tile.placement.originX + corner.1) ∧
      bucket.rows.length = size.heightAt grid (tile.placement.originY + corner.2)

variable {grid : Grid} {placement : Placement} {region : Region}

theorem fits_empty (size : BucketSize) (grid : Grid) (placement : Placement) :
    (empty placement).Fits size grid := fun _ _ isThere => by cases isThere

/-- A bucket is replaced by one of the right size. -/
theorem Fits.set
    (fits : tile.Fits size grid)
    (width_eq : bucket.width = size.widthAt grid (tile.placement.originX + corner.1))
    (length_eq : bucket.rows.length =
      size.heightAt grid (tile.placement.originY + corner.2)) :
    (tile.set corner bucket).Fits size grid := by
  intro other there isThere
  rcases of_buckets_set isThere with ⟨rfl, rfl⟩ | before
  · exact ⟨width_eq, length_eq⟩
  · exact fits other there before

/-- The corner in a tile of the bucket that a region is for. -/
def cornerOf (size : BucketSize) (placement : Placement) (region : Region) : Nat × Nat :=
  (size.leftOf region.bounds.left - placement.originX,
    size.topOf region.bounds.top - placement.originY)

/-- The bucket that a region is for, which is made where it is missing. -/
def bucketFor
    (tile : OpenTile)
    (size : BucketSize)
    (grid : Grid)
    (placement : Placement)
    (region : Region) : OpenBucket :=
  (tile.buckets (cornerOf size placement region)).getD
    (OpenBucket.empty (size.widthAt grid (size.leftOf region.bounds.left))
      (size.heightAt grid (size.topOf region.bounds.top)))

/-- The tile with the bucket that a region is for. -/
def openFor
    (tile : OpenTile)
    (size : BucketSize)
    (grid : Grid)
    (placement : Placement)
    (region : Region) : OpenTile :=
  tile.set (cornerOf size placement region) (tile.bucketFor size grid placement region)

/-- The first row of a bucket that a region is for. -/
def firstOf (size : BucketSize) (region : Region) : Nat :=
  region.bounds.top - size.topOf region.bounds.top

/-- The tile with the rows of a region. -/
def fillWith
    (tile : OpenTile)
    (size : BucketSize)
    (grid : Grid)
    (placement : Placement)
    (region : Region) : OpenTile :=
  let bucket := tile.bucketFor size grid placement region
  (tile.set (cornerOf size placement region)
    (bucket.putAll (firstOf size region) (bucket.strips region))).add region.bounds.pixelCount

/-- Making a bucket changes no slot. -/
theorem pending_openFor :
    (tile.openFor size grid placement region).pending size = tile.pending size := by
  apply pending_set_of_same
  intro row
  unfold bucketFor
  cases tile.buckets (cornerOf size placement region) with
  | none => exact OpenBucket.row?_empty _ _
  | some bucket => rfl

theorem buckets_openFor :
    (tile.openFor size grid placement region).buckets (cornerOf size placement region) =
      some (tile.bucketFor size grid placement region) := Function.update_self _ _ _

/-- A row is filled only in a bucket that was there before. -/
theorem of_firstFilled?
    {first count offset : Nat}
    (found : (tile.bucketFor size grid placement region).firstFilled? first count = some offset) :
    tile.buckets (cornerOf size placement region) =
      some (tile.bucketFor size grid placement region) := by
  unfold bucketFor at found ⊢
  cases isThere : tile.buckets (cornerOf size placement region) with
  | none =>
      rw [isThere, Option.getD_none, OpenBucket.firstFilled?_empty] at found
      cases found
  | some bucket => rw [Option.getD_some]

/-- A region consists of rows of a bucket of a tile. -/
structure Receives
    (size : BucketSize)
    (grid : Grid)
    (placement : Placement)
    (region : Region) : Prop where
  wellFormed : region.WellFormed
  originY_le : placement.originY ≤ region.bounds.top
  left_eq : placement.originX + (cornerOf size placement region).1 =
    size.leftOf region.bounds.left
  top_eq : placement.originY + (cornerOf size placement region).2 = size.topOf region.bounds.top
  cell : Cell size (cornerOf size placement region) (region.bounds.top - placement.originY)
    ((region.bounds.left - placement.originX) / size.width) (firstOf size region)
    region.bounds.height
  rows_le : region.bounds.top - placement.originY + region.bounds.height ≤ placement.height
  column_lt : (region.bounds.left - placement.originX) / size.width <
    partsCovering placement.width size.width
  width_eq : size.widthAt grid (size.leftOf region.bounds.left) = region.bounds.width
  height_le : firstOf size region + region.bounds.height ≤
    size.heightAt grid (size.topOf region.bounds.top)

namespace Receives

variable (receives : Receives size grid tile.placement region) (fits : tile.Fits size grid)

include receives fits

/-- The bucket that a region is for has its size, whether it was there or not. -/
theorem sizes_bucketFor :
    (tile.bucketFor size grid tile.placement region).width =
        size.widthAt grid (size.leftOf region.bounds.left) ∧
      (tile.bucketFor size grid tile.placement region).rows.length =
        size.heightAt grid (size.topOf region.bounds.top) := by
  unfold bucketFor
  cases found : tile.buckets (cornerOf size tile.placement region) with
  | none => exact ⟨rfl, List.length_replicate⟩
  | some bucket =>
      have sizes := fits _ bucket found
      rw [receives.left_eq, receives.top_eq] at sizes
      exact sizes

/-- There is room for the rows of a region. -/
theorem room :
    firstOf size region + region.bounds.height ≤
      (tile.bucketFor size grid tile.placement region).rows.length := by
  rw [(receives.sizes_bucketFor fits).2]
  exact receives.height_le

omit fits in
/-- The first row of a region that has arrived before is the same in the slots and in the
bucket. -/
theorem firstFilled?_eq :
    ((tile.pending size).firstFilled? (region.bounds.top - tile.placement.originY)
        region.bounds.height
        ((region.bounds.left - tile.placement.originX) / size.width)).map
          (tile.placement.originY + ·) =
      ((tile.bucketFor size grid tile.placement region).firstFilled? (firstOf size region)
        region.bounds.height).map (region.bounds.top + ·) := by
  have isThere : (tile.openFor size grid tile.placement region).buckets
      (cornerOf size tile.placement region) =
        some (tile.bucketFor size grid tile.placement region) := buckets_openFor
  have found := receives.cell.firstFilled?_pending isThere receives.rows_le receives.column_lt
  rw [pending_openFor] at found
  rw [found, Option.map_map]
  refine congrArg (Option.map · _) (funext fun offset => ?_)
  rw [Function.comp_apply, ← Nat.add_assoc, Nat.add_sub_of_le receives.originY_le]

/-- The rows of a region are put into the bucket as into the slots. -/
theorem pending_fillWith :
    (tile.fillWith size grid tile.placement region).pending size =
      (tile.pending size).putAll (region.bounds.top - tile.placement.originY)
        ((region.bounds.left - tile.placement.originX) / size.width) (Strip.ofRegion region) := by
  have isThere : (tile.openFor size grid tile.placement region).buckets
      (cornerOf size tile.placement region) =
        some (tile.bucketFor size grid tile.placement region) := buckets_openFor
  have strips_eq : (tile.bucketFor size grid tile.placement region).strips region =
      Strip.ofRegion region :=
    OpenBucket.strips_eq ((receives.sizes_bucketFor fits).1.trans receives.width_eq)
  have length_eq := Strip.length_ofRegion region
  have cell := receives.cell
  have rows_le := receives.rows_le
  have room := receives.room fits
  rw [← length_eq] at cell rows_le room
  have putIn := cell.pending_putAll isThere rows_le receives.column_lt room
    (Strip.cover_ofRegion receives.wellFormed).width_eq
  rw [pending_openFor, openFor, set_set, length_eq] at putIn
  unfold fillWith
  simp only [strips_eq]
  exact putIn

/-- A tile with the rows of a region has buckets of the same sizes. -/
theorem fits_fillWith : (tile.fillWith size grid tile.placement region).Fits size grid := by
  obtain ⟨width_eq, length_eq⟩ := receives.sizes_bucketFor fits
  refine fits.set ?_ ?_
  · rw [OpenBucket.width_putAll, width_eq, receives.left_eq]
  · rw [OpenBucket.length_rows_putAll, length_eq, receives.top_eq]

end Receives

end OpenTile

end Assembly
end DeepShadow
