import Mathlib.Algebra.BigOperators.Ring.Finset
import Mathlib.Algebra.Order.BigOperators.Group.Finset
import DeepShadow.Proofs.Assembly.Refusals
import DeepShadow.Proofs.Grid.Partition

/-!
# Counting the pixels of a tile

A tile that is open for rows keeps a number of pixels and no account of which they are.
The number is the sum over its buckets of their width for each row that has arrived, and
the buckets, reduced at the edges of the tile, share out its pixels.  So the number is that
of all pixels exactly where every row of every bucket has arrived.
-/

namespace DeepShadow

/-! ## Buckets of a tile -/

/-- The places of a length at which a part of the given size starts. -/
def startsOf (length size : Nat) : Finset Nat :=
  (Finset.range length).filter fun place => place % size = 0

theorem mem_startsOf {length size place : Nat} :
    place ∈ startsOf length size ↔ place < length ∧ place % size = 0 := by
  unfold startsOf
  rw [Finset.mem_filter, Finset.mem_range]

/-- The parts that start in a length, reduced at its end, add up to it. -/
theorem sum_startsOf
    {size : Nat}
    (sizePositive : 0 < size)
    (length : Nat) :
    ∑ start ∈ startsOf length size, min size (length - start) = length := by
  have starts_eq : startsOf length size =
      ((List.range (partsCovering length size)).map (· * size)).toFinset := by
    ext place
    rw [mem_startsOf, List.mem_toFinset, List.mem_map]
    constructor
    · rintro ⟨inside, aligned⟩
      refine ⟨place / size, List.mem_range.mpr (div_lt_partsCovering sizePositive inside), ?_⟩
      exact Nat.div_mul_cancel (Nat.dvd_of_mod_eq_zero aligned)
    · rintro ⟨part, member, rfl⟩
      rw [List.mem_range, lt_partsCovering_iff sizePositive] at member
      exact ⟨member, Nat.mul_mod_left part size⟩
  have different : ((List.range (partsCovering length size)).map (· * size)).Nodup :=
    List.nodup_range.map fun _ _ equal => Nat.eq_of_mul_eq_mul_right sizePositive equal
  rw [starts_eq, List.sum_toFinset _ different, List.map_map]
  exact sum_parts sizePositive length

namespace BucketSize

variable {size : BucketSize} {placement : Placement} {corner : Nat × Nat}

/-- The corners of the buckets of a tile, counted from the corner of the tile. -/
def corners (size : BucketSize) (placement : Placement) : Finset (Nat × Nat) :=
  startsOf placement.width size.width ×ˢ startsOf placement.height size.height

theorem mem_corners :
    corner ∈ size.corners placement ↔
      (corner.1 < placement.width ∧ corner.1 % size.width = 0) ∧
        corner.2 < placement.height ∧ corner.2 % size.height = 0 := by
  unfold corners
  rw [Finset.mem_product, mem_startsOf, mem_startsOf]

/-- The number of columns of the bucket of a tile with a corner. -/
def clippedWidth (size : BucketSize) (placement : Placement) (corner : Nat × Nat) : Nat :=
  min size.width (placement.width - corner.1)

/-- The number of rows of the bucket of a tile with a corner. -/
def clippedHeight (size : BucketSize) (placement : Placement) (corner : Nat × Nat) : Nat :=
  min size.height (placement.height - corner.2)

/-- The buckets of a tile, reduced at its edges, share out its pixels. -/
theorem sum_clipped (size : BucketSize) (placement : Placement) :
    ∑ corner ∈ size.corners placement,
        size.clippedWidth placement corner * size.clippedHeight placement corner =
      placement.pixelCount := by
  unfold corners clippedWidth clippedHeight Placement.pixelCount
  rw [Finset.sum_product]
  simp only
  rw [← Finset.sum_mul_sum, sum_startsOf size.width_pos, sum_startsOf size.height_pos]

theorem clippedWidth_pos (member : corner ∈ size.corners placement) :
    0 < size.clippedWidth placement corner :=
  Nat.lt_min.mpr ⟨size.width_pos, Nat.sub_pos_of_lt (mem_corners.mp member).1.1⟩

/-- A part of a tile ends with the image or with the part, not with the tile. -/
theorem min_sub_eq
    {side tile image origin start : Nat}
    (divides : tile % side = 0)
    (aligned : start % side = 0)
    (inside : start < min tile (image - origin)) :
    min (origin + start + side) image - (origin + start) =
      min side (min tile (image - origin) - start) := by
  obtain ⟨parts, rfl⟩ := Nat.dvd_of_mod_eq_zero divides
  obtain ⟨part, rfl⟩ := Nat.dvd_of_mod_eq_zero aligned
  have before : part < parts := by
    apply Nat.lt_of_mul_lt_mul_left
    exact Nat.lt_of_lt_of_le inside (Nat.min_le_left _ _)
  have next : side * part + side ≤ side * parts := by
    rw [← Nat.mul_succ]
    exact Nat.mul_le_mul_left side before
  omega

/-- A bucket has the same sides in the tile and in the image. -/
theorem sides_of_mem_corners
    {grid : Grid}
    {position : TilePosition}
    (divides : size.Divides grid)
    (member : corner ∈ size.corners (grid.frame position)) :
    size.widthAt grid ((grid.frame position).originX + corner.1) =
        size.clippedWidth (grid.frame position) corner ∧
      size.heightAt grid ((grid.frame position).originY + corner.2) =
        size.clippedHeight (grid.frame position) corner := by
  obtain ⟨⟨insideX, alignedX⟩, insideY, alignedY⟩ := mem_corners.mp member
  exact ⟨min_sub_eq divides.1 alignedX insideX, min_sub_eq divides.2 alignedY insideY⟩

end BucketSize

namespace Assembly

/-! ## Rows of a bucket -/

namespace OpenBucket

variable {bucket : OpenBucket} {first row : Nat}

/-- The number of rows that have arrived. -/
def filledRows (bucket : OpenBucket) : Nat := bucket.rows.countP Option.isSome

/-- The number of pixels that have arrived. -/
def filled (bucket : OpenBucket) : Nat := bucket.width * bucket.filledRows

/-- Whether all rows have arrived. -/
def IsFull (bucket : OpenBucket) : Prop :=
  ∀ row, row < bucket.rows.length -> (bucket.row? row).isSome = true

theorem filledRows_empty (width height : Nat) : (empty width height).filledRows = 0 := by
  unfold filledRows empty
  rw [List.countP_eq_zero]
  intro row member
  rw [List.eq_of_mem_replicate member]
  exact Bool.false_ne_true

/-- All rows have arrived when they are as many as there are. -/
theorem filledRows_eq_iff : bucket.filledRows = bucket.rows.length ↔ bucket.IsFull := by
  unfold filledRows IsFull row?
  rw [List.countP_eq_length]
  constructor
  · intro all row bound
    rw [List.getElem?_eq_getElem bound]
    exact all _ (List.getElem_mem bound)
  · intro all row? member
    obtain ⟨row, bound, rfl⟩ := List.getElem_of_mem member
    have arrived := all row bound
    rw [List.getElem?_eq_getElem bound] at arrived
    exact arrived

theorem filledRows_le (bucket : OpenBucket) : bucket.filledRows ≤ bucket.rows.length :=
  List.countP_le_length

/-- Rows that are put into a bucket where none has arrived are counted. -/
theorem filledRows_putAll
    (strips : List Strip)
    (bound : first + strips.length ≤ bucket.rows.length)
    (isFree : ∀ offset, offset < strips.length -> bucket.row? (first + offset) = none) :
    (bucket.putAll first strips).filledRows = bucket.filledRows + strips.length := by
  induction strips generalizing bucket first with
  | nil => rfl
  | cons strip strips inductionHypothesis =>
      rw [List.length_cons] at bound isFree
      have inside : first < bucket.rows.length := by omega
      have here : bucket.rows[first].isSome = false := by
        have free := isFree 0 (Nat.succ_pos _)
        unfold row? at free
        rw [Nat.add_zero, List.getElem?_eq_getElem inside, Option.join_some] at free
        rw [free]
        rfl
      have one : (⟨bucket.width, bucket.rows.set first (some strip)⟩ : OpenBucket).filledRows =
          bucket.filledRows + 1 := by
        unfold filledRows
        simp only
        rw [List.countP_set inside, here]
        rfl
      rw [putAll, inductionHypothesis, one, List.length_cons]
      · omega
      · rw [List.length_set]
        omega
      · intro offset offsetBound
        have free := isFree (offset + 1) (Nat.succ_lt_succ offsetBound)
        have index : first + (offset + 1) = first + 1 + offset := by omega
        unfold row? at free ⊢
        rw [index] at free
        rw [List.getElem?_set_ne (by omega)]
        exact free

/-- No row has arrived where none is found. -/
theorem row?_of_firstFilled?
    {count : Nat}
    (found : bucket.firstFilled? first count = none)
    {offset : Nat}
    (bound : offset < count) :
    bucket.row? (first + offset) = none := by
  unfold firstFilled? at found
  rw [List.find?_eq_none] at found
  have notThere := found offset (List.mem_range.mpr bound)
  rw [Bool.not_eq_true] at notThere
  exact Option.isNone_iff_eq_none.mp (Option.isSome_eq_false_iff.mp notThere)

end OpenBucket

/-! ## Pixels of a tile -/

namespace OpenTile

variable {tile : OpenTile} {size : BucketSize} {corner : Nat × Nat} {bucket : OpenBucket}

/-- The number of pixels of the bucket with a corner that have arrived. -/
def filledAt (tile : OpenTile) (corner : Nat × Nat) : Nat :=
  (tile.buckets corner).elim 0 OpenBucket.filled

/-- Whether every row of every bucket of a tile has arrived. -/
def IsFull (size : BucketSize) (tile : OpenTile) : Prop :=
  ∀ corner ∈ size.corners tile.placement, ∃ bucket, tile.buckets corner = some bucket ∧
    bucket.rows.length = size.clippedHeight tile.placement corner ∧ bucket.IsFull

/-- The buckets of a tile start at whole buckets in it and are reduced at its edges, and the
number of its pixels is counted over their rows. -/
structure Accounted (size : BucketSize) (tile : OpenTile) : Prop where
  corner_mem : ∀ corner bucket, tile.buckets corner = some bucket ->
    corner ∈ size.corners tile.placement
  width_eq : ∀ corner bucket, tile.buckets corner = some bucket ->
    bucket.width = size.clippedWidth tile.placement corner
  height_eq : ∀ corner bucket, tile.buckets corner = some bucket ->
    bucket.rows.length = size.clippedHeight tile.placement corner
  filled_eq : tile.filled = ∑ corner ∈ size.corners tile.placement, tile.filledAt corner

theorem accounted_empty (size : BucketSize) (placement : Placement) :
    (empty placement).Accounted size where
  corner_mem _ _ isThere := by cases isThere
  width_eq _ _ isThere := by cases isThere
  height_eq _ _ isThere := by cases isThere
  filled_eq := (Finset.sum_eq_zero fun _ _ => rfl).symm

/-- The pixels of the other buckets stay as they are when one is replaced. -/
theorem filledAt_set :
    (tile.set corner bucket).filledAt = Function.update tile.filledAt corner bucket.filled := by
  funext other
  unfold filledAt set
  simp only [Function.update_apply]
  split
  · rfl
  · rfl

/-- A bucket is replaced by one with more rows, whose pixels are counted. -/
theorem Accounted.set_add
    (accounted : tile.Accounted size)
    (member : corner ∈ size.corners tile.placement)
    (width_eq : bucket.width = size.clippedWidth tile.placement corner)
    (height_eq : bucket.rows.length = size.clippedHeight tile.placement corner)
    {pixels : Nat}
    (filled_eq : bucket.filled = tile.filledAt corner + pixels) :
    ((tile.set corner bucket).add pixels).Accounted size := by
  have sum_eq : ∑ other ∈ size.corners tile.placement, (tile.set corner bucket).filledAt other =
      tile.filled + pixels := by
    rw [filledAt_set, Finset.sum_update_of_mem member, filled_eq, accounted.filled_eq,
      ← Finset.add_sum_erase _ _ member, Finset.sdiff_singleton_eq_erase]
    omega
  refine ⟨?_, ?_, ?_, sum_eq.symm⟩
  · intro other there found
    rcases of_buckets_set found with ⟨rfl, rfl⟩ | before
    · exact member
    · exact accounted.corner_mem other there before
  · intro other there found
    rcases of_buckets_set found with ⟨rfl, rfl⟩ | before
    · exact width_eq
    · exact accounted.width_eq other there before
  · intro other there found
    rcases of_buckets_set found with ⟨rfl, rfl⟩ | before
    · exact height_eq
    · exact accounted.height_eq other there before

/-- No more pixels of a bucket arrive than it has, and they are as many where all of its rows
have arrived. -/
theorem Accounted.filledAt_le
    (accounted : tile.Accounted size)
    (member : corner ∈ size.corners tile.placement) :
    tile.filledAt corner ≤
        size.clippedWidth tile.placement corner * size.clippedHeight tile.placement corner ∧
      (tile.filledAt corner =
          size.clippedWidth tile.placement corner * size.clippedHeight tile.placement corner ↔
        ∃ bucket, tile.buckets corner = some bucket ∧
          bucket.rows.length = size.clippedHeight tile.placement corner ∧ bucket.IsFull) := by
  have widthPositive := BucketSize.clippedWidth_pos member
  have heightPositive : 0 < size.clippedHeight tile.placement corner :=
    Nat.lt_min.mpr ⟨size.height_pos,
      Nat.sub_pos_of_lt (BucketSize.mem_corners.mp member).2.1⟩
  unfold filledAt
  cases isThere : tile.buckets corner with
  | none =>
      refine ⟨Nat.zero_le _, iff_of_false (Nat.ne_of_lt (Nat.mul_pos widthPositive
        heightPositive)) ?_⟩
      rintro ⟨_, found, _⟩
      cases found
  | some bucket =>
      rw [Option.elim_some, ← accounted.width_eq corner bucket isThere,
        ← accounted.height_eq corner bucket isThere] at *
      unfold OpenBucket.filled
      refine ⟨Nat.mul_le_mul_left _ bucket.filledRows_le, ?_⟩
      rw [Nat.mul_left_cancel_iff widthPositive, OpenBucket.filledRows_eq_iff]
      constructor
      · exact fun full => ⟨bucket, rfl, rfl, full⟩
      · rintro ⟨_, ⟨⟩, _, full⟩
        exact full

/-- As many pixels have arrived as a tile has where every row of every bucket has
arrived. -/
theorem Accounted.filled_eq_iff (accounted : tile.Accounted size) :
    tile.filled = tile.placement.pixelCount ↔ tile.IsFull size := by
  rw [accounted.filled_eq, ← size.sum_clipped tile.placement,
    Finset.sum_eq_sum_iff_of_le fun corner member => (accounted.filledAt_le member).1]
  exact forall₂_congr fun corner member => (accounted.filledAt_le member).2

/-! ## Rows that arrive -/

variable {grid : Grid} {placement : Placement} {region : Region}

/-- The bucket that a region is for starts in the tile. -/
theorem Receives.corner_mem
    (receives : Receives size grid placement region)
    (nonempty : 0 < region.bounds.height) :
    cornerOf size placement region ∈ size.corners placement := by
  have rows_le := receives.rows_le
  have columnInside := (lt_partsCovering_iff size.width_pos _ _).mp receives.column_lt
  rw [BucketSize.mem_corners, ← receives.cell.left_eq,
    ← receives.cell.top_eq _ (Nat.le_refl _) (Nat.lt_add_of_pos_right nonempty)]
  refine ⟨⟨columnInside, Nat.mul_mod_left _ _⟩, ?_, Nat.mul_mod_left _ _⟩
  exact Nat.lt_of_le_of_lt (Nat.div_mul_le_self _ _) (by omega)

/-- A bucket that is made for a region has no pixels. -/
theorem filled_bucketFor :
    (tile.bucketFor size grid placement region).filled =
      tile.filledAt (cornerOf size placement region) := by
  unfold bucketFor filledAt
  cases tile.buckets (cornerOf size placement region) with
  | none =>
      rw [Option.getD_none, Option.elim_none]
      unfold OpenBucket.filled
      rw [OpenBucket.filledRows_empty, Nat.mul_zero]
  | some bucket => rfl

/-- The rows of a region are counted where none of them has arrived before. -/
theorem Receives.accounted_fillWith
    (receives : Receives size grid tile.placement region)
    (fits : tile.Fits size grid)
    (nonempty : 0 < region.bounds.height)
    (divides : size.Divides grid)
    {position : TilePosition}
    (placement_eq : tile.placement = grid.frame position)
    (accounted : tile.Accounted size)
    (isFree : (tile.bucketFor size grid tile.placement region).firstFilled?
      (firstOf size region) region.bounds.height = none) :
    (tile.fillWith size grid tile.placement region).Accounted size := by
  have member := receives.corner_mem nonempty
  have room := receives.room fits
  obtain ⟨width_eq, height_eq⟩ := receives.sizes_bucketFor fits
  obtain ⟨clippedWidth_eq, clippedHeight_eq⟩ :=
    BucketSize.sides_of_mem_corners divides (placement_eq ▸ member)
  rw [← placement_eq, receives.left_eq] at clippedWidth_eq
  rw [← placement_eq, receives.top_eq] at clippedHeight_eq
  have regionWidth_eq := width_eq.trans receives.width_eq
  have rows_eq : ((tile.bucketFor size grid tile.placement region).strips region).length =
      region.bounds.height := by
    rw [OpenBucket.strips_eq regionWidth_eq, Strip.length_ofRegion]
  unfold fillWith
  refine accounted.set_add member ?_ ?_ ?_
  · rw [OpenBucket.width_putAll, width_eq, clippedWidth_eq]
  · rw [OpenBucket.length_rows_putAll, height_eq, clippedHeight_eq]
  · rw [← filled_bucketFor]
    unfold OpenBucket.filled
    rw [OpenBucket.width_putAll, OpenBucket.filledRows_putAll, Nat.mul_add, rows_eq,
      regionWidth_eq]
    · rfl
    · rw [rows_eq]
      exact room
    · rw [rows_eq]
      exact fun offset bound => OpenBucket.row?_of_firstFilled? isFree bound

end OpenTile

end Assembly
end DeepShadow
