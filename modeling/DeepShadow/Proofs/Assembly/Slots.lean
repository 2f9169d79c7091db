import Mathlib.Data.List.Find
import DeepShadow.Proofs.Assembly.Strips

/-!
# Pending tiles

A slot of a pending tile is filled where the pixels of its row and bucket have
arrived, and the number of pixels is counted.  Where the strips in the slots hold
the runs of these pixels, the tile shows the part of the canvas in its rectangle.
Putting the strips of a region into their slots paints the region; when all pixels
have arrived, the slots in their order make the tile of the canvas.
-/

namespace DeepShadow

/-- The columns of pixels of a bucket in a tile, from the left. -/
def BucketSize.columnsOf
    (size : BucketSize)
    (placement : Placement)
    (column : Nat) : List Nat :=
  List.range' (placement.originX + column * size.width)
    (min size.width (placement.width - column * size.width))

/-- A region consists of whole rows of a bucket of a tile. -/
structure Region.LiesIn
    (region : Region)
    (size : BucketSize)
    (placement : Placement)
    (column : Nat) : Prop where
  column_lt : column < partsCovering placement.width size.width
  left_eq : region.bounds.left = placement.originX + column * size.width
  right_eq : region.bounds.right =
    region.bounds.left + min size.width (placement.width - column * size.width)
  top_le : placement.originY ≤ region.bounds.top
  top_lt : region.bounds.top < region.bounds.bottom
  bottom_le : region.bounds.bottom ≤ placement.originY + placement.height

namespace Region.LiesIn

variable {region : Region} {size : BucketSize} {placement : Placement} {column : Nat}

theorem width_eq (lies : region.LiesIn size placement column) :
    region.bounds.width = min size.width (placement.width - column * size.width) := by
  unfold Rectangle.width
  rw [lies.right_eq, Nat.add_sub_cancel_left]

/-- The columns of a region are those of its bucket. -/
theorem columns_eq (lies : region.LiesIn size placement column) :
    List.range' region.bounds.left region.bounds.width = size.columnsOf placement column := by
  unfold BucketSize.columnsOf
  rw [lies.width_eq, lies.left_eq]

/-- A bucket has a column. -/
theorem width_pos (lies : region.LiesIn size placement column) : 0 < region.bounds.width := by
  have inside := (lt_partsCovering_iff size.width_pos _ _).mp lies.column_lt
  have positive := size.width_pos
  rw [lies.width_eq]
  omega

/-- The pixels of a region are pixels of the tile. -/
theorem mem_pixels
    (lies : region.LiesIn size placement column)
    {x y : Nat}
    (covers : region.bounds.Covers x y) :
    (x, y) ∈ placement.pixels := by
  obtain ⟨⟨left, right⟩, top, bottom⟩ := covers
  have inside := (lt_partsCovering_iff size.width_pos _ _).mp lies.column_lt
  have left_eq := lies.left_eq
  have right_eq := lies.right_eq
  have top_le := lies.top_le
  have bottom_le := lies.bottom_le
  rw [Placement.mem_pixels]
  omega

/-- A region covers the pixels of its bucket in its rows, and no pixel of another
bucket. -/
theorem covers_iff
    (lies : region.LiesIn size placement column)
    {other x y : Nat}
    (member : x ∈ size.columnsOf placement other) :
    region.bounds.Covers x y ↔
      other = column ∧ region.bounds.top ≤ y ∧ y < region.bounds.bottom := by
  unfold BucketSize.columnsOf at member
  rw [List.mem_range'_1] at member
  have left_eq := lies.left_eq
  have right_eq := lies.right_eq
  unfold Rectangle.Covers
  constructor
  · rintro ⟨⟨left, right⟩, rows⟩
    refine ⟨?_, rows⟩
    rcases Nat.lt_trichotomy other column with before | equal | behind
    · have next : (other + 1) * size.width ≤ column * size.width :=
        Nat.mul_le_mul_right _ before
      rw [Nat.succ_mul] at next
      omega
    · exact equal
    · have next : (column + 1) * size.width ≤ other * size.width :=
        Nat.mul_le_mul_right _ behind
      rw [Nat.succ_mul] at next
      omega
  · rintro ⟨rfl, rows⟩
    exact ⟨by omega, rows⟩

end Region.LiesIn

namespace Assembly
namespace PendingTile

/-! ## Slots -/

/-- The strip in a slot. -/
def strip? (tile : PendingTile) (row column : Nat) : Option Strip :=
  tile.slots[tile.slot row column]?.getD none

variable {tile : PendingTile} {strip : Strip} {row column otherRow otherColumn : Nat}

/-- The slots of different rows or buckets are different. -/
theorem slot_injective
    (columnBound : column < tile.columns)
    (otherBound : otherColumn < tile.columns)
    (equal : tile.slot otherRow otherColumn = tile.slot row column) :
    otherRow = row ∧ otherColumn = column :=
  place_eq_of_number_eq otherBound columnBound equal

theorem slot_lt
    (rowBound : row < tile.placement.height)
    (columnBound : column < tile.columns) :
    tile.slot row column < tile.placement.height * tile.columns :=
  place_in_rows_lt columnBound rowBound

@[simp] theorem placement_put :
    (tile.put row column strip).placement = tile.placement := rfl

@[simp] theorem columns_put : (tile.put row column strip).columns = tile.columns := rfl

@[simp] theorem filled_put :
    (tile.put row column strip).filled = tile.filled + strip.lengths.length := rfl

/-- A strip fills its own slot and no other. -/
theorem strip?_put
    (rowBound : row < tile.placement.height)
    (columnBound : column < tile.columns)
    (otherBound : otherColumn < tile.columns) :
    (tile.put row column strip).strip? otherRow otherColumn =
      if otherRow = row ∧ otherColumn = column then some strip
      else tile.strip? otherRow otherColumn := by
  unfold strip? put
  simp only [slot]
  rw [Vector.getElem?_setIfInBounds]
  by_cases same : otherRow = row ∧ otherColumn = column
  · obtain ⟨rfl, rfl⟩ := same
    have bound := slot_lt rowBound columnBound
    unfold slot at bound
    rw [if_pos rfl, if_pos bound, if_pos ⟨rfl, rfl⟩]
    rfl
  · have different : row * tile.columns + column ≠ otherRow * tile.columns + otherColumn :=
      fun equal => same (slot_injective columnBound otherBound equal.symm)
    rw [if_neg different, if_neg same]

@[simp] theorem placement_putAll (strips : List Strip) :
    (tile.putAll row column strips).placement = tile.placement := by
  induction strips generalizing tile row with
  | nil => rfl
  | cons strip strips inductionHypothesis =>
      rw [putAll, inductionHypothesis, placement_put]

@[simp] theorem columns_putAll (strips : List Strip) :
    (tile.putAll row column strips).columns = tile.columns := by
  induction strips generalizing tile row with
  | nil => rfl
  | cons strip strips inductionHypothesis =>
      rw [putAll, inductionHypothesis, columns_put]

/-- Strips fill the slots of their bucket, from a row downwards. -/
theorem strip?_putAll
    (strips : List Strip)
    (rowBound : row + strips.length ≤ tile.placement.height)
    (columnBound : column < tile.columns)
    (otherBound : otherColumn < tile.columns) :
    (tile.putAll row column strips).strip? otherRow otherColumn =
      if otherColumn = column ∧ row ≤ otherRow ∧ otherRow < row + strips.length then
        strips[otherRow - row]?
      else tile.strip? otherRow otherColumn := by
  induction strips generalizing tile row with
  | nil =>
      rw [putAll, if_neg]
      rw [List.length_nil]
      omega
  | cons strip strips inductionHypothesis =>
      rw [List.length_cons] at rowBound
      have restBound : row + 1 + strips.length ≤
          (tile.put row column strip).placement.height := by
        rw [placement_put]
        omega
      rw [putAll, inductionHypothesis restBound columnBound otherBound,
        strip?_put (by omega) columnBound otherBound, List.length_cons]
      by_cases below : otherColumn = column ∧ row + 1 ≤ otherRow ∧
          otherRow < row + 1 + strips.length
      · have index : otherRow - row = otherRow - (row + 1) + 1 := by omega
        rw [if_pos below, if_pos (by omega), index, List.getElem?_cons_succ]
      · rw [if_neg below]
        by_cases here : otherRow = row ∧ otherColumn = column
        · rw [if_pos here, if_pos (by omega), here.1, Nat.sub_self]
          rfl
        · rw [if_neg here, if_neg (by omega)]

/-- Strips of one width add their pixels. -/
theorem filled_putAll
    {width : Nat}
    (strips : List Strip)
    (sameWidth : ∀ strip ∈ strips, strip.lengths.length = width) :
    (tile.putAll row column strips).filled = tile.filled + width * strips.length := by
  induction strips generalizing tile row with
  | nil => rfl
  | cons strip strips inductionHypothesis =>
      rw [putAll, inductionHypothesis fun other member =>
        sameWidth other (List.mem_cons_of_mem _ member), filled_put,
        sameWidth strip List.mem_cons_self, List.length_cons, Nat.mul_succ]
      omega

/-! ## What has arrived in a pending tile -/

/-- A pending tile holds the pixels of its rectangle that have arrived on a canvas,
whatever is in their strips. -/
structure Holds
    (size : BucketSize)
    (placement : Placement)
    (canvas : Canvas)
    (tile : PendingTile) : Prop where
  placement_eq : tile.placement = placement
  columns_eq : tile.columns = partsCovering placement.width size.width
  isFilled_eq : ∀ row column, row < placement.height -> column < tile.columns ->
    ∀ x ∈ size.columnsOf placement column,
      tile.isFilled row column = canvas.has x (placement.originY + row)
  filled_eq : tile.filled = canvas.arrivedCount placement

variable {size : BucketSize} {channels : Nat} {placement : Placement} {canvas : Canvas}

/-- The columns of a bucket of a tile are columns of the tile. -/
theorem mem_pixels_of_mem_columnsOf
    {x : Nat}
    (rowBound : row < placement.height)
    (member : x ∈ size.columnsOf placement column) :
    (x, placement.originY + row) ∈ placement.pixels := by
  unfold BucketSize.columnsOf at member
  rw [List.mem_range'_1] at member
  rw [Placement.mem_pixels]
  omega

/-- A bucket of a tile has a first column. -/
theorem first_mem_columnsOf (columnBound : column < partsCovering placement.width size.width) :
    placement.originX + column * size.width ∈ size.columnsOf placement column := by
  rw [lt_partsCovering_iff size.width_pos] at columnBound
  have positive := size.width_pos
  unfold BucketSize.columnsOf
  rw [List.mem_range'_1]
  omega

/-- A column of a tile is a column of the bucket that owns it. -/
theorem mem_columnsOf_owner
    {x : Nat}
    (left : placement.originX ≤ x)
    (right : x < placement.originX + placement.width) :
    x ∈ size.columnsOf placement ((x - placement.originX) / size.width) := by
  have withinBucket := Nat.div_add_mod' (x - placement.originX) size.width
  have remainder := Nat.mod_lt (x - placement.originX) size.width_pos
  unfold BucketSize.columnsOf
  rw [List.mem_range'_1]
  omega

/-- The tile of which nothing has arrived has no strips. -/
theorem strip?_empty : (empty placement size).strip? row column = none := by
  unfold strip? empty
  rw [Vector.getElem?_replicate]
  split <;> rfl

/-- The tile of which nothing has arrived holds what there is of a canvas that is
blank there. -/
theorem holds_empty
    (isBlank : ∀ pixel ∈ placement.pixels, canvas pixel.1 pixel.2 = none) :
    (empty placement size).Holds size placement canvas := by
  refine ⟨rfl, rfl, ?_, (Canvas.arrivedCount_eq_zero isBlank).symm⟩
  intro row column rowBound _ x member
  have blank := isBlank _ (mem_pixels_of_mem_columnsOf rowBound member)
  unfold Canvas.has
  rw [blank]
  exact congrArg Option.isSome strip?_empty

/-- What a tile holds is known from the pixels of its rectangle that have arrived. -/
theorem Holds.congr
    {later : Canvas}
    (holds : tile.Holds size placement canvas)
    (agree : ∀ pixel ∈ placement.pixels, later.has pixel.1 pixel.2 = canvas.has pixel.1 pixel.2) :
    tile.Holds size placement later := by
  refine ⟨holds.placement_eq, holds.columns_eq, ?_, ?_⟩
  · intro row column rowBound columnBound x member
    rw [holds.isFilled_eq row column rowBound columnBound x member]
    exact (agree _ (mem_pixels_of_mem_columnsOf rowBound member)).symm
  · rw [Canvas.arrivedCount_congr agree]
    exact holds.filled_eq

/-- The row of a bucket has arrived when one of its pixels has. -/
theorem Holds.isFilled_of_contains
    (holds : tile.Holds size placement canvas)
    {x y : Nat}
    (contained : placement.contains x y = true) :
    tile.isFilled (y - placement.originY) ((x - placement.originX) / size.width) =
      canvas.has x y := by
  obtain ⟨⟨left, right⟩, top, _⟩ :=
    Placement.mem_pixels.mp (Placement.contains_iff_mem_pixels.mp contained)
  obtain ⟨columnBound, rowBound⟩ := Placement.sub_origin_lt contained
  have bucketBound : (x - placement.originX) / size.width < tile.columns := by
    rw [holds.columns_eq]
    exact div_lt_partsCovering size.width_pos columnBound
  rw [holds.isFilled_eq _ _ rowBound bucketBound x (mem_columnsOf_owner left right),
    Nat.add_sub_of_le top]

/-- All pixels of a tile have arrived exactly when it counts as full. -/
theorem Holds.isFull_iff (holds : tile.Holds size placement canvas) :
    tile.isFull = true ↔ canvas.Completes placement := by
  unfold isFull
  rw [beq_iff_eq, holds.filled_eq, holds.placement_eq]
  exact Canvas.arrivedCount_eq_iff

/-- The first row that has arrived, counted from the top of the image. -/
theorem map_firstFilled?
    (tile : PendingTile)
    {origin top : Nat}
    (top_le : origin ≤ top)
    (count column : Nat) :
    (tile.firstFilled? (top - origin) count column).map (origin + ·) =
      (List.range' top count).find? fun y => tile.isFilled (y - origin) column := by
  have rows_eq : List.range' top count =
      (List.range' (top - origin) count).map (origin + ·) := by
    rw [List.map_add_range', Nat.add_sub_of_le top_le]
  have fromOrigin : (fun y => tile.isFilled (y - origin) column) ∘ (origin + ·) =
      fun row => tile.isFilled row column :=
    funext fun row => congrArg (tile.isFilled · column) (Nat.add_sub_cancel_left origin row)
  unfold firstFilled?
  rw [rows_eq, List.find?_map, fromOrigin]

/-- The first row of a region that has arrived before. -/
theorem Holds.firstFilled?_eq
    (holds : tile.Holds size placement canvas)
    {region : Region}
    (lies : region.LiesIn size placement column) :
    (tile.firstFilled? (region.bounds.top - placement.originY) region.bounds.height column).map
        (placement.originY + ·) =
      (List.range' region.bounds.top region.bounds.height).find? fun y =>
        canvas.has region.bounds.left y := by
  have columnBound : column < tile.columns := by
    rw [holds.columns_eq]
    exact lies.column_lt
  have top_le := lies.top_le
  have bottom_le := lies.bottom_le
  have height_eq : region.bounds.height = region.bounds.bottom - region.bounds.top := rfl
  rw [map_firstFilled? tile top_le]
  apply List.find?_congr
  intro y member
  rw [List.mem_range'_1] at member
  rw [holds.isFilled_eq (y - placement.originY) column (by omega) columnBound _
    (first_mem_columnsOf lies.column_lt), lies.left_eq, Nat.add_sub_of_le (by omega)]

/-- The rows of a region are rows of the tile in which it lies. -/
theorem Holds.rows_le
    (holds : tile.Holds size placement canvas)
    {region : Region}
    (lies : region.LiesIn size placement column) :
    region.bounds.top - placement.originY + region.bounds.height ≤ tile.placement.height := by
  have top_le := lies.top_le
  have top_lt := lies.top_lt
  have bottom_le := lies.bottom_le
  have height_eq : region.bounds.height = region.bounds.bottom - region.bounds.top := rfl
  rw [holds.placement_eq]
  omega

/-- After the rows of a region have been put into their slots, a tile holds the
pixels of the region as well. -/
theorem Holds.putAll
    (holds : tile.Holds size placement canvas)
    {region : Region}
    {strips : List Strip}
    (cover : Strip.Cover strips region.bounds)
    (lies : region.LiesIn size placement column)
    (isBlank : ∀ x y, region.bounds.Covers x y -> canvas x y = none) :
    (tile.putAll (region.bounds.top - placement.originY) column strips).Holds size placement
      (canvas.paint region) := by
  have columnBound : column < tile.columns := by
    rw [holds.columns_eq]
    exact lies.column_lt
  have top_le := lies.top_le
  have top_lt := lies.top_lt
  have height_eq : region.bounds.height = region.bounds.bottom - region.bounds.top := rfl
  have rows_le := holds.rows_le lies
  rw [← cover.length_eq] at rows_le
  refine ⟨?_, ?_, ?_, ?_⟩
  · rw [placement_putAll, holds.placement_eq]
  · rw [columns_putAll, holds.columns_eq]
  · intro row otherColumn insideRow otherBound x member
    rw [columns_putAll] at otherBound
    have filled := holds.isFilled_eq row otherColumn insideRow otherBound x member
    unfold isFilled at filled ⊢
    change (strip? _ _ _).isSome = _ at filled ⊢
    rw [strip?_putAll _ rows_le columnBound otherBound, cover.length_eq, Canvas.has_paint]
    split
    next here =>
      have inRows : row - (region.bounds.top - placement.originY) < strips.length := by
        rw [cover.length_eq]
        omega
      have covers : region.bounds.Covers x (placement.originY + row) := by
        rw [lies.covers_iff member]
        omega
      rw [List.getElem?_eq_getElem inRows, decide_eq_true covers]
      rfl
    next elsewhere =>
      have outside : ¬region.bounds.Covers x (placement.originY + row) := by
        rw [lies.covers_iff member]
        omega
      rw [decide_eq_false outside, Bool.false_or]
      exact filled
  · rw [filled_putAll _ cover.width_eq, cover.length_eq, holds.filled_eq,
      Canvas.arrivedCount_paint (fun x y covers => lies.mem_pixels covers) isBlank]
    rfl

/-! ## The canvas of a pending tile -/

/-- A pending tile shows the part of a canvas in its rectangle. -/
structure Shows
    (size : BucketSize)
    (channels : Nat)
    (placement : Placement)
    (canvas : Canvas)
    (tile : PendingTile) : Prop where
  placement_eq : tile.placement = placement
  columns_eq : tile.columns = partsCovering placement.width size.width
  isBlank : ∀ row column, row < placement.height -> column < tile.columns ->
    tile.strip? row column = none ->
      ∀ x ∈ size.columnsOf placement column, canvas x (placement.originY + row) = none
  arrived : ∀ row column strip, row < placement.height -> column < tile.columns ->
    tile.strip? row column = some strip ->
      (∀ x ∈ size.columnsOf placement column, canvas.has x (placement.originY + row) = true) ∧
      strip.Shows channels
        ((size.columnsOf placement column).map fun x =>
          (canvas x (placement.originY + row)).getD [])
  filled_eq : tile.filled = canvas.arrivedCount placement

/-- A tile that shows a canvas holds what has arrived there. -/
theorem Shows.holds (shows : tile.Shows size channels placement canvas) :
    tile.Holds size placement canvas := by
  refine ⟨shows.placement_eq, shows.columns_eq, ?_, shows.filled_eq⟩
  intro row column rowBound columnBound x member
  show (tile.strip? row column).isSome = _
  cases found : tile.strip? row column with
  | none =>
      unfold Canvas.has
      rw [shows.isBlank row column rowBound columnBound found x member]
      rfl
  | some strip =>
      rw [(shows.arrived row column strip rowBound columnBound found).1 x member]
      rfl

/-- A tile that holds what has arrived on a canvas shows the canvas where each of its
strips shows the pixels of its slot. -/
theorem Holds.shows
    (holds : tile.Holds size placement canvas)
    (strips : ∀ row column strip, row < placement.height -> column < tile.columns ->
      tile.strip? row column = some strip ->
        strip.Shows channels
          ((size.columnsOf placement column).map fun x =>
            (canvas x (placement.originY + row)).getD [])) :
    tile.Shows size channels placement canvas := by
  refine ⟨holds.placement_eq, holds.columns_eq, ?_, ?_, holds.filled_eq⟩
  · intro row column rowBound columnBound found x member
    have filled := holds.isFilled_eq row column rowBound columnBound x member
    change (tile.strip? row column).isSome = _ at filled
    rw [found] at filled
    exact Option.isNone_iff_eq_none.mp (Option.isSome_eq_false_iff.mp filled.symm)
  · intro row column strip rowBound columnBound found
    refine ⟨?_, strips row column strip rowBound columnBound found⟩
    intro x member
    have filled := holds.isFilled_eq row column rowBound columnBound x member
    change (tile.strip? row column).isSome = _ at filled
    rw [found] at filled
    exact filled.symm

/-- The tile of which nothing has arrived shows a canvas that is blank there. -/
theorem shows_empty
    (isBlank : ∀ pixel ∈ placement.pixels, canvas pixel.1 pixel.2 = none) :
    (empty placement size).Shows size channels placement canvas := by
  refine (holds_empty isBlank).shows ?_
  intro row column strip _ _ found
  rw [strip?_empty] at found
  cases found

/-- What happens outside the rectangle of a tile does not matter to it. -/
theorem Shows.congr
    {later : Canvas}
    (shows : tile.Shows size channels placement canvas)
    (same : later.SameIn placement canvas) :
    tile.Shows size channels placement later := by
  have holds := shows.holds.congr fun pixel member => congrArg Option.isSome (same pixel member)
  refine holds.shows ?_
  intro row column strip rowBound columnBound found
  have sameRow : ∀ x ∈ size.columnsOf placement column,
      (later x (placement.originY + row)).getD [] =
        (canvas x (placement.originY + row)).getD [] := by
    intro x member
    rw [same _ (mem_pixels_of_mem_columnsOf rowBound member)]
  rw [List.map_congr_left sameRow]
  exact (shows.arrived row column strip rowBound columnBound found).2

/-- Putting the strips of a region into their slots paints the region. -/
theorem Shows.putAll
    (shows : tile.Shows size channels placement canvas)
    {region : Region}
    (supported : supportedChannels channels = true)
    (channels_eq : region.channels = channels)
    (wellFormed : region.WellFormed)
    (lies : region.LiesIn size placement column)
    (isBlank : ∀ x y, region.bounds.Covers x y -> canvas x y = none) :
    (tile.putAll (region.bounds.top - placement.originY) column
      (Strip.ofRegion region)).Shows size channels placement (canvas.paint region) := by
  subst channels_eq
  have columnBound : column < tile.columns := by
    rw [shows.columns_eq]
    exact lies.column_lt
  have top_le := lies.top_le
  have top_lt := lies.top_lt
  have height_eq : region.bounds.height = region.bounds.bottom - region.bounds.top := rfl
  have cover := Strip.cover_ofRegion wellFormed
  have rows_le := shows.holds.rows_le lies
  rw [← cover.length_eq] at rows_le
  refine (shows.holds.putAll cover lies isBlank).shows ?_
  intro row otherColumn strip insideRow otherBound found
  rw [columns_putAll] at otherBound
  rw [strip?_putAll _ rows_le columnBound otherBound, cover.length_eq] at found
  split at found
  next here =>
    -- The slot is one of those that the region fills.
    obtain ⟨rfl, fromTop, toBottom⟩ := here
    obtain ⟨other, isStrip, showsRow⟩ := Strip.getElem?_ofRegion supported wellFormed
      (row - (region.bounds.top - placement.originY)) (by omega)
    rw [isStrip] at found
    cases found
    have painted : ∀ x ∈ size.columnsOf placement otherColumn,
        (canvas.paint region x (placement.originY + row)).getD [] =
          region.runAt x (placement.originY + row) := by
      intro x member
      rw [Canvas.paint_of_covers, Option.getD_some]
      rw [lies.covers_iff member]
      omega
    have y_eq : region.bounds.top + (row - (region.bounds.top - placement.originY)) =
        placement.originY + row := by omega
    rw [y_eq, lies.columns_eq] at showsRow
    rw [List.map_congr_left painted]
    exact showsRow
  next elsewhere =>
    have same : ∀ x ∈ size.columnsOf placement otherColumn,
        (canvas.paint region x (placement.originY + row)).getD [] =
          (canvas x (placement.originY + row)).getD [] := by
      intro x member
      rw [Canvas.paint_of_not_covers]
      rw [lies.covers_iff member]
      omega
    rw [List.map_congr_left same]
    exact (shows.arrived row otherColumn strip insideRow otherBound found).2

/-! ## Assembly -/

/-- What strips make together, where each of them holds some runs. -/
theorem assemble_strips
    {ι : Type}
    (numbers : List ι)
    (strip? : ι -> Option Strip)
    (runs : ι -> List (List Single))
    (shows : ∀ number ∈ numbers, ∃ strip, strip? number = some strip ∧
      strip.Shows channels (runs number)) :
    ∃ strips values, (numbers.map strip?).filterMap id = strips ∧
      strips.flatMap Strip.lengths = nodeCounts channels (numbers.flatMap runs) ∧
      strips.mapM (Strip.values channels) = .ok values ∧
      values.flatten = (numbers.flatMap runs).flatten ∧
      (strips.all Strip.isNeglectable = true ↔
        ∀ count ∈ nodeCounts channels (numbers.flatMap runs), count = 1) := by
  induction numbers with
  | nil => exact ⟨[], [], rfl, rfl, rfl, rfl, by simp [nodeCounts]⟩
  | cons number numbers inductionHypothesis =>
      obtain ⟨strip, found, showsFirst⟩ := shows number List.mem_cons_self
      obtain ⟨strips, values, strips_eq, lengths_eq, values_ok, values_eq, neglectable⟩ :=
        inductionHypothesis fun other member => shows other (List.mem_cons_of_mem _ member)
      refine ⟨strip :: strips, (runs number).flatten :: values, ?_, ?_, ?_, ?_, ?_⟩
      · rw [List.map_cons, found, List.filterMap_cons, strips_eq]
        rfl
      · rw [List.flatMap_cons, List.flatMap_cons, nodeCounts_append, lengths_eq,
          showsFirst.lengths_eq]
      · rw [List.mapM_cons, showsFirst.values_eq, values_ok]
        rfl
      · rw [List.flatten_cons, List.flatMap_cons, List.flatten_append, values_eq]
      · rw [List.all_cons, Bool.and_eq_true, showsFirst.isNeglectable_iff, neglectable,
          List.flatMap_cons, nodeCounts_append]
        constructor
        · rintro ⟨ofFirst, ofRest⟩ count member
          rcases List.mem_append.mp member with inFirst | inRest
          · exact ofFirst count inFirst
          · exact ofRest count inRest
        · intro ofAll
          exact ⟨fun count member => ofAll count (List.mem_append_left _ member),
            fun count member => ofAll count (List.mem_append_right _ member)⟩

/-- The slots in their order are the pixels of the tile, row by row. -/
theorem flatMap_slots_eq_runs
    (size : BucketSize)
    (placement : Placement)
    (canvas : Canvas) :
    ((List.range (placement.height * partsCovering placement.width size.width)).flatMap
      fun number =>
        (size.columnsOf placement (number % partsCovering placement.width size.width)).map fun x =>
          (canvas x (placement.originY +
            number / partsCovering placement.width size.width)).getD []) =
      canvas.runs placement := by
  have rowOfSlots : ∀ row,
      (List.range (partsCovering placement.width size.width)).flatMap (fun column =>
        (size.columnsOf placement column).map fun x =>
          (canvas x (placement.originY + row)).getD []) =
        (List.range' placement.originX placement.width).map fun x =>
          (canvas x (placement.originY + row)).getD [] := by
    intro row
    unfold BucketSize.columnsOf
    rw [← List.map_flatMap, flatMap_parts size.width_pos]
  rw [flatMap_range_mul _ _ fun row column =>
    (size.columnsOf placement column).map fun x => (canvas x (placement.originY + row)).getD []]
  have rows_eq : List.range' placement.originY placement.height =
      (List.range placement.height).map (placement.originY + ·) := List.range'_eq_map_range
  unfold Canvas.runs Placement.pixels
  rw [List.map_flatMap, rows_eq, List.flatMap_map]
  apply List.flatMap_congr
  intro row _
  rw [rowOfSlots, List.map_map]
  rfl

theorem toList_slots (tile : PendingTile) :
    tile.slots.toList =
      (List.range (tile.placement.height * tile.columns)).map fun number =>
        tile.strip? (number / tile.columns) (number % tile.columns) := by
  apply List.ext_getElem?
  intro number
  rw [Vector.getElem?_toList, List.getElem?_map]
  by_cases bound : number < tile.placement.height * tile.columns
  · rw [List.getElem?_range bound, Option.map_some]
    unfold strip? slot
    rw [Nat.div_add_mod', Vector.getElem?_eq_getElem bound]
    rfl
  · rw [Vector.getElem?_eq_none (Nat.le_of_not_lt bound), List.getElem?_eq_none]
    · rfl
    · rw [List.length_range]
      exact Nat.le_of_not_lt bound

/-- A pending tile of which everything has arrived becomes what the canvas makes of
it. -/
theorem Shows.assemble_eq
    (shows : tile.Shows size channels placement canvas)
    (completes : canvas.Completes placement) :
    tile.assemble channels = canvas.build channels placement := by
  have allFilled : ∀ number ∈ List.range (tile.placement.height * tile.columns),
      ∃ strip, tile.strip? (number / tile.columns) (number % tile.columns) = some strip ∧
        strip.Shows channels ((size.columnsOf placement (number % tile.columns)).map fun x =>
          (canvas x (placement.originY + number / tile.columns)).getD []) := by
    intro number member
    have bound := List.mem_range.mp member
    have columnsPositive : 0 < tile.columns := by
      apply Nat.pos_of_ne_zero
      intro zero
      rw [zero, Nat.mul_zero] at bound
      cases bound
    have rowBound : number / tile.columns < placement.height := by
      rw [← shows.placement_eq]
      exact (Nat.div_lt_iff_lt_mul columnsPositive).mpr bound
    have columnBound : number % tile.columns < tile.columns := Nat.mod_lt _ columnsPositive
    have first : placement.originX + number % tile.columns * size.width ∈
        size.columnsOf placement (number % tile.columns) :=
      first_mem_columnsOf (shows.columns_eq ▸ columnBound)
    have filled := shows.holds.isFilled_eq _ _ rowBound columnBound _ first
    rw [completes _ (mem_pixels_of_mem_columnsOf rowBound first)] at filled
    obtain ⟨strip, found⟩ := Option.isSome_iff_exists.mp filled
    exact ⟨strip, found, (shows.arrived _ _ strip rowBound columnBound found).2⟩
  obtain ⟨strips, values, strips_eq, lengths_eq, values_ok, values_eq, neglectable⟩ :=
    assemble_strips _ _ _ allFilled
  have numbers_eq : tile.placement.height * tile.columns =
      placement.height * partsCovering placement.width size.width := by
    rw [shows.placement_eq, shows.columns_eq]
  have runs_eq := flatMap_slots_eq_runs size placement canvas
  rw [← numbers_eq, ← shows.columns_eq] at runs_eq
  rw [runs_eq] at lengths_eq values_eq neglectable
  have allStrips : tile.strips = strips := by
    unfold PendingTile.strips
    rw [toList_slots, strips_eq]
  unfold PendingTile.assemble Canvas.build
  simp only [allStrips, neglectable, shows.placement_eq]
  split
  · rfl
  · simp only [values_ok, lengths_eq, values_eq, bind, Except.bind]
    cases Tile.ofParts placement channels
        (PendingTile.offsets (nodeCounts channels (canvas.runs placement)))
        (canvas.runs placement).flatten.toArray with
    | error error => rfl
    | ok made => rfl

end PendingTile
end Assembly
end DeepShadow
