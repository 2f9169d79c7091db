import DeepShadow.Proofs.Assembly.Counting

/-!
# Putting full tiles together

A tile is put together from its rows, which are looked up one after the other in their
buckets, and each of which has to be there.  In a full tile nothing is missing, and the tile
is the one that a reader of its slots puts together.  With one or three channels the rows also
make a tile, as long as a word can count its nodes.
-/

namespace DeepShadow
namespace Assembly

/-! ## Looking up rows -/

/-- Why an assembly stops in the middle of a region. -/
inductive Panic
  /-- A tile is completed that is not in its place. -/
  | notPending (position : TilePosition)
  /-- A row of a bucket is missing from a tile that counts as full. -/
  | missingRow (position : TilePosition) (row : Nat) (corner : Nat × Nat)
  /-- A contract is broken. -/
  | violation (violation : Violation)
deriving DecidableEq, Repr

namespace Panic

/-- The text shown. -/
def message : Panic -> String
  | notPending position =>
      s!"completing tile ({position.row}, {position.column}) that is not pending"
  | missingRow position row corner =>
      s!"full tile ({position.row}, {position.column}) is missing row {row} of sub-region " ++
        s!"({corner.1}, {corner.2})"
  | violation broken => broken.message

/-- The text shown where there is no answer. -/
def messageOf? {α : Type} : Except Panic α -> Option String
  | .error panic => some panic.message
  | .ok _ => none

end Panic

/-- Whether no pixel of a bucket that has arrived has more than one node. -/
def OpenBucket.isNeglectable (bucket : OpenBucket) : Bool :=
  bucket.rows.all fun row => row.all Strip.isNeglectable

namespace OpenTile

variable {tile : OpenTile} {size : BucketSize} {channels : Nat} {place : Nat × Nat}

/-- The rows of the buckets of a tile in the order of its pixels: the number of the row in
the tile, and that of the bucket from the left. -/
def places (size : BucketSize) (placement : Placement) : List (Nat × Nat) :=
  (List.range placement.height).flatMap fun row =>
    (List.range (partsCovering placement.width size.width)).map fun column => (row, column)

/-- The corner of the bucket that a row is looked up in. -/
def cornerAt (size : BucketSize) (place : Nat × Nat) : Nat × Nat :=
  (place.2 * size.width, place.1 / size.height * size.height)

/-- Looks up a row of a tile that counts as full.  A row that its bucket does not even have is
missing, too. -/
def lookUp (size : BucketSize) (tile : OpenTile) (place : Nat × Nat) : Except Panic Strip :=
  match tile.row? size place.1 place.2 with
  | some strip => .ok strip
  | none => .error (.missingRow tile.placement.position place.1 (cornerAt size place))

/-- Whether no pixel of a tile that has arrived has more than one node. -/
def isNeglectable (size : BucketSize) (tile : OpenTile) : Bool :=
  decide (∀ corner ∈ size.corners tile.placement,
    (tile.buckets corner).all OpenBucket.isNeglectable = true)

/-- The tile that the rows make, which are looked up one after the other. -/
def assemble
    (size : BucketSize)
    (channels : Nat)
    (tile : OpenTile) : Except Panic AssembledTile := do
  let position := tile.placement.position
  if tile.isNeglectable size then
    return .neglectable position
  let strips ← (places size tile.placement).mapM (tile.lookUp size)
  let values ← (strips.mapM (Strip.values channels)).mapError .violation
  match Tile.ofParts tile.placement channels (PendingTile.offsets (strips.flatMap Strip.lengths))
      values.flatten.toArray with
  | .ok assembled => return .stored assembled
  | .error error =>
      throw (.violation (.inconsistentTile position.row position.column error.message))

/-- The number of nodes that have arrived for a tile. -/
def nodeTotal (size : BucketSize) (tile : OpenTile) : Nat :=
  Region.nodeTotal ((tile.pending size).strips.flatMap Strip.lengths)

theorem mem_places {placement : Placement} :
    place ∈ places size placement ↔
      place.1 < placement.height ∧ place.2 < partsCovering placement.width size.width := by
  unfold places
  simp only [List.mem_flatMap, List.mem_map, List.mem_range]
  constructor
  · rintro ⟨row, rowBound, column, columnBound, rfl⟩
    exact ⟨rowBound, columnBound⟩
  · rintro ⟨rowBound, columnBound⟩
    exact ⟨place.1, rowBound, place.2, columnBound, rfl⟩

/-- The slots of a tile in their order are its places. -/
theorem toList_slots_pending (size : BucketSize) (tile : OpenTile) :
    (tile.pending size).slots.toList =
      (places size tile.placement).map fun place => tile.row? size place.1 place.2 := by
  have numbered := flatMap_range_mul tile.placement.height
    (partsCovering tile.placement.width size.width)
    fun row column => [(tile.pending size).strip? row column]
  have slots_eq := PendingTile.toList_slots (tile.pending size)
  rw [List.map_eq_flatMap] at slots_eq
  refine slots_eq.trans (numbered.trans ?_)
  unfold places
  rw [List.map_flatMap]
  refine List.flatMap_congr fun row rowMember => ?_
  rw [List.map_map, List.map_eq_flatMap]
  refine List.flatMap_congr fun column columnMember => ?_
  rw [strip?_pending (List.mem_range.mp rowMember) (List.mem_range.mp columnMember)]
  rfl

/-- The rows in all places are as many pixels as the tile has. -/
theorem length_flatMap_places
    {α : Type}
    {placement : Placement}
    {values : Nat × Nat -> List α}
    (widths : ∀ place ∈ places size placement,
      (values place).length = min size.width (placement.width - place.2 * size.width)) :
    ((places size placement).flatMap values).length = placement.pixelCount := by
  have rowWidth : ∀ row ∈ List.range placement.height,
      (((List.range (partsCovering placement.width size.width)).map
        fun column => (row, column)).flatMap values).length = placement.width := by
    intro row rowMember
    rw [List.flatMap_map, List.length_flatMap]
    refine Eq.trans ?_ (sum_parts size.width_pos placement.width)
    congr 1
    refine List.map_congr_left fun column columnMember => ?_
    exact widths (row, column)
      (mem_places.mpr ⟨List.mem_range.mp rowMember, List.mem_range.mp columnMember⟩)
  unfold places Placement.pixelCount
  rw [List.flatMap_assoc, List.length_flatMap, List.map_congr_left rowWidth, List.map_const',
    List.length_range, List.sum_replicate_nat]
  exact Nat.mul_comm _ _

/-! ## Full tiles -/

/-- A row is looked up in a bucket of the tile, and in one of the rows of this bucket. -/
theorem cornerAt_mem (member : place ∈ places size tile.placement) :
    cornerAt size place ∈ size.corners tile.placement ∧
      place.1 - (cornerAt size place).2 <
        size.clippedHeight tile.placement (cornerAt size place) := by
  obtain ⟨rowBound, columnBound⟩ := mem_places.mp member
  have columnInside := (lt_partsCovering_iff size.width_pos _ _).mp columnBound
  have fromStart := Nat.div_mul_le_self place.1 size.height
  have inPart := Nat.div_add_mod' place.1 size.height
  have remainder := Nat.mod_lt place.1 size.height_pos
  unfold cornerAt BucketSize.clippedHeight
  rw [BucketSize.mem_corners]
  refine ⟨⟨⟨columnInside, Nat.mul_mod_left _ _⟩, ?_, Nat.mul_mod_left _ _⟩, ?_⟩
  · exact Nat.lt_of_le_of_lt fromStart rowBound
  · simp only
    omega

/-- Every row of a bucket has a place. -/
theorem exists_place
    {corner : Nat × Nat}
    (member : corner ∈ size.corners tile.placement)
    {row : Nat}
    (bound : row < size.clippedHeight tile.placement corner) :
    ∃ place ∈ places size tile.placement, cornerAt size place = corner ∧
      place.1 - corner.2 = row := by
  obtain ⟨⟨insideX, alignedX⟩, insideY, alignedY⟩ := BucketSize.mem_corners.mp member
  obtain ⟨inBucket, inTile⟩ := Nat.lt_min.mp bound
  have column_eq := Nat.div_mul_cancel (Nat.dvd_of_mod_eq_zero alignedX)
  have top_eq := Nat.div_mul_cancel (Nat.dvd_of_mod_eq_zero alignedY)
  have part_eq : (corner.2 + row) / size.height = corner.2 / size.height := by
    apply Nat.div_eq_of_lt_le
    · omega
    · rw [Nat.succ_mul]
      omega
  refine ⟨(corner.2 + row, corner.1 / size.width), ?_, ?_, Nat.add_sub_cancel_left _ _⟩
  · rw [mem_places]
    exact ⟨by omega, div_lt_partsCovering size.width_pos insideX⟩
  · unfold cornerAt
    simp only
    rw [column_eq, part_eq, top_eq]

theorem row?_eq (tile : OpenTile) (size : BucketSize) (place : Nat × Nat) :
    tile.row? size place.1 place.2 =
      (tile.buckets (cornerAt size place)).bind fun bucket =>
        bucket.row? (place.1 - (cornerAt size place).2) := rfl

/-- Every row of a full tile is found. -/
theorem IsFull.exists_row
    (full : tile.IsFull size)
    (member : place ∈ places size tile.placement) :
    ∃ strip, tile.row? size place.1 place.2 = some strip := by
  obtain ⟨isCorner, bound⟩ := cornerAt_mem member
  obtain ⟨bucket, isThere, height_eq, bucketFull⟩ := full _ isCorner
  rw [row?_eq, isThere, Option.bind_some]
  rw [← height_eq] at bound
  exact Option.isSome_iff_exists.mp (bucketFull _ bound)

/-- The pixels of a full tile have one node each where the rows in all places say so. -/
theorem IsFull.isNeglectable_iff (full : tile.IsFull size) :
    tile.isNeglectable size = true ↔
      ∀ place ∈ places size tile.placement, ∀ strip,
        tile.row? size place.1 place.2 = some strip -> strip.isNeglectable = true := by
  unfold OpenTile.isNeglectable
  rw [decide_eq_true_iff]
  constructor
  · intro neglectable place member strip found
    obtain ⟨isCorner, _⟩ := cornerAt_mem member
    obtain ⟨bucket, isThere, _⟩ := full _ isCorner
    have ofBucket := neglectable _ isCorner
    rw [row?_eq, isThere, Option.bind_some] at found
    rw [isThere, Option.all_some] at ofBucket
    unfold OpenBucket.isNeglectable at ofBucket
    unfold OpenBucket.row? at found
    rw [List.all_eq_true] at ofBucket
    exact ofBucket _ (List.mem_of_getElem? (Option.join_eq_some_iff.mp found))
  · intro neglectable corner isCorner
    obtain ⟨bucket, isThere, height_eq, _⟩ := full corner isCorner
    rw [isThere, Option.all_some]
    unfold OpenBucket.isNeglectable
    rw [List.all_eq_true]
    intro strip? rowMember
    obtain ⟨row, bound, rfl⟩ := List.getElem_of_mem rowMember
    cases isStrip : bucket.rows[row] with
    | none => rfl
    | some strip =>
        obtain ⟨place, member, rfl, row_eq⟩ := exists_place isCorner (height_eq ▸ bound)
        refine neglectable place member strip ?_
        rw [row?_eq, isThere, Option.bind_some, row_eq]
        unfold OpenBucket.row?
        rw [List.getElem?_eq_getElem bound, isStrip]
        rfl

/-- The strips of a full tile are those that are found in its places. -/
theorem IsFull.mapM_lookUp (full : tile.IsFull size) :
    (places size tile.placement).mapM (tile.lookUp size) = .ok (tile.pending size).strips := by
  have found : ∀ place ∈ places size tile.placement, tile.row? size place.1 place.2 =
      some ((tile.row? size place.1 place.2).getD default) := by
    intro place member
    obtain ⟨strip, isThere⟩ := full.exists_row member
    rw [isThere]
    rfl
  have strips_eq : (tile.pending size).strips =
      (places size tile.placement).map fun place =>
        (tile.row? size place.1 place.2).getD default := by
    unfold PendingTile.strips
    rw [toList_slots_pending, List.map_congr_left found, List.filterMap_map]
    exact congrFun List.filterMap_eq_map' _
  rw [strips_eq]
  refine mapM_eq_ok _ fun place member => ?_
  unfold lookUp
  rw [found place member]
  rfl

/-- A full tile can be left out where its strips say so. -/
theorem IsFull.isNeglectable_eq (full : tile.IsFull size) :
    tile.isNeglectable size = (tile.pending size).strips.all Strip.isNeglectable := by
  rw [Bool.eq_iff_iff, full.isNeglectable_iff, List.all_eq_true]
  unfold PendingTile.strips
  rw [toList_slots_pending]
  constructor
  · intro neglectable strip member
    rw [List.filterMap_map, List.mem_filterMap] at member
    obtain ⟨place, isPlace, found⟩ := member
    exact neglectable place isPlace strip found
  · intro neglectable place isPlace strip found
    apply neglectable
    rw [List.filterMap_map, List.mem_filterMap]
    exact ⟨place, isPlace, found⟩

/-- A full tile is put together from its buckets as from its slots. -/
theorem IsFull.assemble_eq (full : tile.IsFull size) (channels : Nat) :
    tile.assemble size channels =
      ((tile.pending size).assemble channels).mapError .violation := by
  unfold assemble PendingTile.assemble
  rw [full.isNeglectable_eq, full.mapM_lookUp]
  split
  · rfl
  · simp only [bind, Except.bind]
    cases (tile.pending size).strips.mapM (Strip.values channels) with
    | error violation => rfl
    | ok values =>
        have made_eq : Tile.ofParts (tile.pending size).placement channels
            (PendingTile.offsets ((tile.pending size).strips.flatMap Strip.lengths))
            values.flatten.toArray = Tile.ofParts tile.placement channels
              (PendingTile.offsets ((tile.pending size).strips.flatMap Strip.lengths))
              values.flatten.toArray := rfl
        simp only [Except.mapError, made_eq]
        cases Tile.ofParts tile.placement channels
            (PendingTile.offsets ((tile.pending size).strips.flatMap Strip.lengths))
            values.flatten.toArray with
        | error error => rfl
        | ok made => rfl

/-! ## What the rows carry -/

/-- The rows of the buckets of a tile hold runs, one for each of their pixels. -/
def Stocked (channels : Nat) (tile : OpenTile) : Prop :=
  ∀ corner bucket row strip, tile.buckets corner = some bucket ->
    bucket.row? row = some strip ->
      ∃ runs, strip.Shows channels runs ∧ runs.length = bucket.width

theorem stocked_empty (channels : Nat) (placement : Placement) :
    (empty placement).Stocked channels := fun _ _ _ _ isThere => by cases isThere

/-- The rows of a region hold runs like those that were there before. -/
theorem Receives.stocked_fillWith
    {grid : Grid}
    {region : Region}
    (receives : Receives size grid tile.placement region)
    (fits : tile.Fits size grid)
    (supported : supportedChannels region.channels = true)
    (stocked : tile.Stocked region.channels) :
    (tile.fillWith size grid tile.placement region).Stocked region.channels := by
  have room := receives.room fits
  have width_eq := (receives.sizes_bucketFor fits).1.trans receives.width_eq
  have strips_eq := OpenBucket.strips_eq width_eq
  have before : ∀ row strip,
      (tile.bucketFor size grid tile.placement region).row? row = some strip ->
        ∃ runs, strip.Shows region.channels runs ∧
          runs.length = (tile.bucketFor size grid tile.placement region).width := by
    intro row strip
    unfold bucketFor
    cases isThere : tile.buckets (cornerOf size tile.placement region) with
    | none =>
        intro arrived
        rw [Option.getD_none, OpenBucket.row?_empty] at arrived
        cases arrived
    | some bucket => exact stocked _ bucket row strip isThere
  intro corner bucket row strip found arrived
  rcases of_buckets_set found with ⟨rfl, rfl⟩ | earlier
  · rw [OpenBucket.width_putAll]
    rw [strips_eq, OpenBucket.row?_putAll _ (by rwa [Strip.length_ofRegion]),
      Strip.length_ofRegion] at arrived
    split at arrived
    next inRows =>
      obtain ⟨other, isStrip, shows⟩ := Strip.getElem?_ofRegion supported receives.wellFormed
        (row - firstOf size region) (by omega)
      rw [isStrip] at arrived
      cases arrived
      refine ⟨_, shows, ?_⟩
      rw [List.length_map, List.length_range', width_eq]
    next => exact before row strip arrived
  · exact stocked corner bucket row strip earlier arrived

/-- The rows in the places of a full tile hold runs, as many as their buckets are wide. -/
theorem IsFull.exists_runs
    (full : tile.IsFull size)
    (accounted : tile.Accounted size)
    (stocked : tile.Stocked channels) :
    ∃ runs : Nat × Nat -> List (List Single), ∀ place ∈ places size tile.placement,
      (∃ strip, tile.row? size place.1 place.2 = some strip ∧
        strip.Shows channels (runs place)) ∧
      (runs place).length = min size.width (tile.placement.width - place.2 * size.width) := by
  have each : ∀ place ∈ places size tile.placement, ∃ runs,
      (∃ strip, tile.row? size place.1 place.2 = some strip ∧ strip.Shows channels runs) ∧
        runs.length = min size.width (tile.placement.width - place.2 * size.width) := by
    intro place member
    obtain ⟨strip, found⟩ := full.exists_row member
    obtain ⟨bucket, isThere, arrived⟩ := Option.bind_eq_some_iff.mp found
    obtain ⟨runs, shows, length_eq⟩ := stocked _ bucket _ strip isThere arrived
    exact ⟨runs, ⟨strip, found, shows⟩, length_eq.trans (accounted.width_eq _ bucket isThere)⟩
  choose! runs shows using each
  exact ⟨runs, shows⟩

/-- The rows of a full tile make a tile where a word can count its nodes. -/
theorem IsFull.exists_assembled
    (full : tile.IsFull size)
    (accounted : tile.Accounted size)
    (supported : supportedChannels channels = true)
    (stocked : tile.Stocked channels)
    (countable : tile.nodeTotal size < 0x100000000) :
    ∃ assembled, (tile.pending size).assemble channels = .ok assembled := by
  obtain ⟨runs, shows⟩ := full.exists_runs accounted stocked
  obtain ⟨strips, values, strips_eq, lengths_eq, values_ok, values_eq, _⟩ :=
    PendingTile.assemble_strips (places size tile.placement)
      (fun place => tile.row? size place.1 place.2) runs fun place member => (shows place member).1
  have allStrips : (tile.pending size).strips = strips := by
    unfold PendingTile.strips
    rw [toList_slots_pending, strips_eq]
  have areRuns : ∀ run ∈ (places size tile.placement).flatMap runs, IsRun channels run := by
    intro run runMember
    obtain ⟨place, member, isRun⟩ := List.mem_flatMap.mp runMember
    obtain ⟨⟨strip, _, showsRuns⟩, _⟩ := shows place member
    exact showsRuns.areRuns run isRun
  unfold nodeTotal at countable
  rw [allStrips, lengths_eq] at countable
  have made := Tile.ofParts_ofRuns supported
    (length_flatMap_places fun place member => (shows place member).2) areRuns countable
  have parts : Tile.ofParts (tile.pending size).placement channels
      (PendingTile.offsets (strips.flatMap Strip.lengths)) values.flatten.toArray =
        .ok (Tile.ofRuns tile.placement channels ((places size tile.placement).flatMap runs)) := by
    rw [lengths_eq, values_eq]
    exact made
  unfold PendingTile.assemble
  rw [allStrips]
  split
  · exact ⟨_, rfl⟩
  · simp only [values_ok, bind, Except.bind, parts]
    exact ⟨_, rfl⟩

end OpenTile

end Assembly
end DeepShadow
