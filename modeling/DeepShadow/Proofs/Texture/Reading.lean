import DeepShadow.Proofs.Texture.Layout
import DeepShadow.Proofs.Texture.Lookup
import DeepShadow.Texture.Reader

/-!
# Reading a finished file

A file with a valid layout is opened, and every tile is loaded as it was stored;
the tiles that are not stored are fully visible.  The ends of the blocks are not
in the file: they follow from the ascending places where the blocks start.
-/

namespace DeepShadow
namespace Texture

/-! ## Opening -/

namespace Layout

variable {layout : Layout}

/-- The entry of a tile of the grid is for this tile. -/
theorem position_entry
    {position : TilePosition}
    (inside : layout.grid.Contains position) :
    (layout.entry position).position = position :=
  Entry.position_ofNat inside (layout.offset position)

/-- The header of a valid layout describes its grid. -/
theorem Valid.grid_header (valid : layout.Valid) : layout.header.grid = .ok layout.grid := by
  have imageWidth := Nat.mod_eq_of_lt valid.imageWidth_lt
  have imageHeight := Nat.mod_eq_of_lt valid.imageHeight_lt
  have tileWidth := Nat.mod_eq_of_lt valid.tileWidth_lt
  have tileHeight := Nat.mod_eq_of_lt valid.tileHeight_lt
  have tileCount := Nat.mod_eq_of_lt layout.grid.tileCount_lt_word
  have sizes := Grid.ofSizes_sizes layout.grid
  unfold Header.grid header Header.ofGrid
  simp only [valid.supported, UInt32.toNat_ofNat', Nat.reducePow, imageWidth, imageHeight,
    tileWidth, tileHeight, tileCount, sizes]
  simp

theorem tileCount_header (layout : Layout) :
    layout.header.tileCount.toNat = layout.grid.tileCount := by
  unfold header Header.ofGrid
  rw [UInt32.toNat_ofNat']
  exact Nat.mod_eq_of_lt layout.grid.tileCount_lt_word

theorem dataStart_header (layout : Layout) : layout.header.dataStart = layout.dataStart := by
  unfold Header.dataStart
  rw [tileCount_header]
  rfl

theorem Valid.toNat_ofNat_place
    (valid : layout.Valid)
    {position : TilePosition}
    {place : Nat}
    (placed : layout.place? position = some place) :
    (UInt32.ofNat place).toNat = place ∧ layout.dataStart ≤ place := by
  obtain ⟨before, tile, behind, split, _, rfl⟩ := placeFrom_eq_some placed
  have bounds := place_bounds split
  have size_lt := valid.size_lt
  rw [UInt32.toNat_ofNat']
  exact ⟨Nat.mod_eq_of_lt (by omega), Nat.le_add_right _ _⟩

/-- What a reader of a layout knows. -/
structure ReadBy (layout : Layout) (reader : Reader) : Prop where
  grid_eq : reader.grid = layout.grid
  header_eq : reader.header = layout.header
  bytes_eq : reader.bytes = layout.bytes
  fileLength_eq : reader.fileLength = layout.size
  offset?_eq : ∀ position, layout.grid.Contains position ->
    reader.table.offset? position = some (layout.offset position)
  mem_blockStarts : ∀ start, start ∈ reader.blockStarts ↔
    ∃ tile ∈ layout.stored, layout.place? tile.placement.position = some start
  ascending : reader.blockStarts.Pairwise (· ≤ ·)
  counted : reader.blockStarts.length + reader.table.elidedCount = layout.grid.tileCount

/-- The places in a table with the offsets of a layout are the places of its
blocks. -/
theorem Valid.mem_starts
    (valid : layout.Valid)
    {table : Table layout.grid}
    (offsets : ∀ position, layout.grid.Contains position ->
      table.offset? position = some (layout.offset position))
    (start : Nat) :
    start ∈ (table.offsets.toList.filter (· ≠ 0)).map UInt32.toNat ↔
      ∃ tile ∈ layout.stored, layout.place? tile.placement.position = some start := by
  rw [List.mem_map]
  constructor
  · rintro ⟨offset, member, rfl⟩
    rw [List.mem_filter, Table.mem_toList_offsets] at member
    obtain ⟨⟨position, inside, found⟩, stored⟩ := member
    rw [offsets position inside] at found
    have offsetEqual := Option.some.inj found
    unfold Layout.offset at offsetEqual
    cases placed : layout.place? position with
    | none =>
        rw [placed] at offsetEqual
        rw [← offsetEqual] at stored
        simp at stored
    | some place =>
        obtain ⟨before, tile, behind, split, same, _⟩ := placeFrom_eq_some placed
        refine ⟨tile, by rw [split]; simp, ?_⟩
        rw [same, placed, ← offsetEqual, placed]
        exact congrArg some (valid.toNat_ofNat_place placed).1.symm
  · rintro ⟨tile, member, placed⟩
    obtain ⟨toNatEqual, behindTable⟩ := valid.toNat_ofNat_place placed
    have headerBound := layout.headerSize_le_dataStart
    refine ⟨UInt32.ofNat start, ?_, toNatEqual⟩
    rw [List.mem_filter, Table.mem_toList_offsets]
    refine ⟨⟨tile.placement.position, valid.inside tile member, ?_⟩, ?_⟩
    · rw [offsets _ (valid.inside tile member), Layout.offset, placed]
      rfl
    · have positive : UInt32.ofNat start ≠ 0 := by
        intro zero
        rw [zero] at toNatEqual
        unfold headerSize at headerBound
        have startZero : start = 0 := toNatEqual.symm
        omega
      simp [positive]

/-- The entries of a valid layout make a table with its offsets. -/
theorem Valid.ofEntries_entries (valid : layout.Valid) :
    ∃ table, Table.ofEntries layout.grid layout.entries layout.dataStart = .ok table ∧
      ∀ position, layout.grid.Contains position ->
        table.offset? position = some (layout.offset position) := by
  have position_eq : ∀ position, layout.grid.Contains position ->
      (layout.entry position).position = position := fun _ inside => position_entry inside
  have behindTable : ∀ position, layout.grid.Contains position ->
      layout.offset position ≠ 0 -> layout.dataStart ≤ (layout.offset position).toNat := by
    intro position _ stored
    unfold offset at stored ⊢
    cases placed : layout.place? position with
    | none =>
        rw [placed] at stored
        exact absurd rfl stored
    | some place =>
        obtain ⟨toNatEqual, behindTable⟩ := valid.toNat_ofNat_place placed
        rw [Option.getD_some, toNatEqual]
        exact behindTable
  obtain ⟨table, made, offsets⟩ :=
    (Table.enterable_map_positions position_eq behindTable).exists_ofEntries
  refine ⟨table, made, fun position inside => ?_⟩
  rw [offsets position inside, Table.offsetAmong_map_positions position_eq inside]
  rfl

/-- A file with a valid layout is opened. -/
theorem Valid.ofBytes_bytes
    (valid : layout.Valid)
    (path : String) :
    ∃ reader, Reader.ofBytes path layout.bytes = .ok reader ∧ layout.ReadBy reader := by
  obtain ⟨table, ofEntries, offsets⟩ := valid.ofEntries_entries
  have readHeader : Header.decode layout.bytes =
      .ok (layout.header, layout.entries.flatMap Entry.encode ++
        layout.stored.flatMap Block.encode) := by
    rw [bytes, List.append_assoc]
    exact Header.decode_encode _ _
  have readEntries : Entry.decodeMany layout.grid.tileCount
      (layout.entries.flatMap Entry.encode ++ layout.stored.flatMap Block.encode) =
        .ok (layout.entries.toArray, layout.stored.flatMap Block.encode) := by
    rw [← length_entries]
    exact Entry.decodeMany_flatMap_encode _ _
  have fileSize : layout.header.fileSize.toNat = layout.size := by
    unfold header
    rw [UInt32.toNat_ofNat']
    exact Nat.mod_eq_of_lt valid.size_lt
  unfold Reader.ofBytes
  simp only [readHeader, valid.grid_header, Except.mapError, bind, Except.bind, length_bytes,
    fileSize, ne_eq, not_true_eq_false, if_false, pure, Except.pure, tileCount_header, readEntries,
    dataStart_header, ofEntries]
  refine ⟨_, rfl, rfl, rfl, rfl, rfl, offsets, ?_, ?_, ?_⟩
  · intro start
    rw [List.mem_mergeSort]
    exact valid.mem_starts offsets start
  · have sorted : (((table.offsets.toList.filter (· ≠ 0)).map UInt32.toNat).mergeSort).Pairwise
        fun first second => decide (first ≤ second) = true := by
      apply List.pairwise_mergeSort
      · intro first second third firstSecond secondThird
        rw [decide_eq_true_eq] at firstSecond secondThird ⊢
        exact Nat.le_trans firstSecond secondThird
      · intro first second
        rw [Bool.or_eq_true, decide_eq_true_eq, decide_eq_true_eq]
        exact Nat.le_total first second
    exact sorted.imp fun ordered => of_decide_eq_true ordered
  · have all : table.offsets.toList.length = layout.grid.tileCount := Vector.length_toList
    have split := List.length_eq_countP_add_countP (fun offset : UInt32 => offset == 0)
      (l := table.offsets.toList)
    rw [List.length_mergeSort, List.length_map, ← List.countP_eq_length_filter]
    unfold Table.elidedCount
    rw [List.count_eq_countP, ← all, split, Nat.add_comm]
    congr 1
    apply List.countP_congr
    intro offset _
    simp

theorem Valid.open_bytes
    (valid : layout.Valid)
    (path : String) :
    ∃ reader, (Reader.open path (.ok layout.bytes)).value = .ok reader ∧ layout.ReadBy reader := by
  obtain ⟨reader, opened, readBy⟩ := valid.ofBytes_bytes path
  refine ⟨reader, ?_, readBy⟩
  unfold Reader.open
  simp only [opened]
  rfl

/-! ## Counting blocks -/

/-- The table has no place for the tiles without a block. -/
theorem Valid.offset_eq_zero_iff
    (valid : layout.Valid)
    (position : TilePosition) :
    layout.offset position = 0 ↔
      position ∉ layout.stored.map fun tile => tile.placement.position := by
  constructor
  · intro noPlace member
    obtain ⟨tile, stored, rfl⟩ := List.mem_map.mp member
    obtain ⟨before, behind, split⟩ := List.append_of_mem stored
    have placed := valid.place?_eq split
    obtain ⟨toNatEqual, behindTable⟩ := valid.toNat_ofNat_place placed
    unfold offset at noPlace
    rw [placed, Option.getD_some] at noPlace
    rw [noPlace] at toNatEqual
    have positive : 0 < layout.dataStart := Nat.lt_of_lt_of_le (by decide)
      layout.headerSize_le_dataStart
    rw [← toNatEqual] at behindTable
    exact absurd behindTable (Nat.not_le_of_lt positive)
  · intro absent
    unfold offset place?
    rw [placeFrom_eq_none absent]
    rfl

/-- As many entries of the table tell a place as the layout has tiles. -/
theorem Valid.countP_offset_ne_zero (valid : layout.Valid) :
    layout.grid.positions.countP (fun position => layout.offset position ≠ 0) =
      layout.stored.length := by
  have permuted : (layout.grid.positions.filter fun position => layout.offset position ≠ 0).Perm
      (layout.stored.map fun tile => tile.placement.position) := by
    rw [List.perm_ext_iff_of_nodup (layout.grid.nodup_positions.filter _) valid.distinct]
    intro position
    rw [List.mem_filter, Grid.mem_positions, decide_eq_true_eq, ne_eq, valid.offset_eq_zero_iff,
      Decidable.not_not]
    refine and_iff_right_of_imp fun member => ?_
    obtain ⟨tile, stored, rfl⟩ := List.mem_map.mp member
    exact valid.inside tile stored
  rw [List.countP_eq_length_filter, permuted.length_eq, List.length_map]

theorem Valid.length_stored_le (valid : layout.Valid) :
    layout.stored.length ≤ layout.grid.tileCount := by
  rw [← valid.countP_offset_ne_zero, ← Grid.length_positions]
  exact List.countP_le_length

/-- A reader finds as many blocks as the layout has. -/
theorem Valid.length_blockStarts
    (valid : layout.Valid)
    {reader : Reader}
    (readBy : layout.ReadBy reader) :
    reader.blockStarts.length = layout.stored.length ∧
      reader.table.elidedCount = layout.grid.tileCount - layout.stored.length := by
  have elided : reader.table.elidedCount =
      layout.grid.positions.countP fun position => ¬layout.offset position ≠ 0 := by
    have positions : reader.grid.positions = layout.grid.positions := by rw [readBy.grid_eq]
    rw [Table.elidedCount_eq, positions]
    apply List.countP_congr
    intro position member
    rw [readBy.offset?_eq position (Grid.mem_positions.mp member), decide_eq_true_eq,
      decide_eq_true_eq, Option.some_inj, Decidable.not_not]
  have all := List.length_eq_countP_add_countP
    (fun position => decide (layout.offset position ≠ 0)) (l := layout.grid.positions)
  have counted := readBy.counted
  have stored := valid.countP_offset_ne_zero
  rw [Grid.length_positions, stored] at all
  simp only [decide_eq_true_eq] at all
  omega

/-! ## Loading -/

/-- The first value of an ascending list above a bound is the least one. -/
theorem find?_eq_some_of_least
    {values : List Nat}
    (ascending : values.Pairwise (· ≤ ·))
    {bound least : Nat}
    (member : least ∈ values)
    (above : bound < least)
    (isLeast : ∀ value ∈ values, bound < value -> least ≤ value) :
    values.find? (fun value => bound < value) = some least := by
  induction values with
  | nil => simp at member
  | cons first rest inductionHypothesis =>
      obtain ⟨firstLeast, restAscending⟩ := List.pairwise_cons.mp ascending
      rw [List.find?_cons]
      by_cases firstAbove : bound < first
      · have fromFirst : first ≤ least := by
          rcases List.mem_cons.mp member with equal | inRest
          · exact Nat.le_of_eq equal.symm
          · exact firstLeast least inRest
        have equal := Nat.le_antisymm fromFirst (isLeast first List.mem_cons_self firstAbove)
        rw [equal] at firstAbove ⊢
        simp only [firstAbove, decide_true]
      · have inRest : least ∈ rest := by
          rcases List.mem_cons.mp member with equal | inRest
          · rw [equal] at above
            exact absurd above firstAbove
          · exact inRest
        simp only [firstAbove, decide_false]
        exact inductionHypothesis restAscending inRest
          fun value valueMember => isLeast value (List.mem_cons_of_mem _ valueMember)

/-- A block ends where the bytes of its tile end. -/
theorem Valid.blockEnd_eq
    (valid : layout.Valid)
    {reader : Reader}
    (readBy : layout.ReadBy reader)
    {before behind : List Tile}
    {tile : Tile}
    (split : layout.stored = before ++ tile :: behind) :
    reader.blockEnd (layout.dataStart + blocksSize before) =
      layout.dataStart + blocksSize before + Block.size tile := by
  have noStartInside : ∀ start ∈ reader.blockStarts,
      layout.dataStart + blocksSize before < start ->
        layout.dataStart + blocksSize before + Block.size tile ≤ start := by
    intro start member later
    obtain ⟨other, otherMember, placed⟩ := (readBy.mem_blockStarts start).mp member
    exact valid.no_start_inside split otherMember placed later
  have tileMember : tile ∈ layout.stored := by
    rw [split]
    simp
  have positive : 0 < Block.size tile := by
    unfold Block.size
    rw [(valid.wellFormed tile tileMember).size_offsets]
    omega
  unfold Reader.blockEnd
  cases behind with
  | nil =>
      have bounds := place_bounds split
      rw [blocksSize_nil] at bounds
      have noLater : reader.blockStarts.find?
          (fun start => layout.dataStart + blocksSize before < start) = none := by
        rw [List.find?_eq_none]
        intro start member later
        rw [decide_eq_true_eq] at later
        have atEnd := noStartInside start member later
        obtain ⟨other, otherMember, placed⟩ := (readBy.mem_blockStarts start).mp member
        obtain ⟨otherBefore, otherTile, otherBehind, otherSplit, same, rfl⟩ :=
          placeFrom_eq_some placed
        have otherBounds := place_bounds otherSplit
        have otherPositive : 0 < Block.size otherTile := by
          unfold Block.size
          rw [(valid.wellFormed otherTile (by rw [otherSplit]; simp)).size_offsets]
          omega
        omega
      rw [noLater, Option.getD_none, readBy.fileLength_eq]
      omega
  | cons next behind =>
      have nextSplit : layout.stored = (before ++ [tile]) ++ next :: behind := by
        rw [split]
        simp
      have nextPlace := valid.place?_eq nextSplit
      rw [blocksSize_append, blocksSize_cons, blocksSize_nil, Nat.add_zero, ← Nat.add_assoc]
        at nextPlace
      have nextMember := (readBy.mem_blockStarts _).mpr ⟨next, by rw [split]; simp, nextPlace⟩
      rw [find?_eq_some_of_least readBy.ascending nextMember (by omega) noStartInside,
        Option.getD_some]

theorem ReadBy.channels_eq
    {reader : Reader}
    (readBy : layout.ReadBy reader) :
    reader.channels = layout.channels.toNat := by
  unfold Reader.channels
  rw [readBy.header_eq]
  rfl

/-- A stored tile is loaded as it was stored. -/
theorem Valid.load_stored
    (valid : layout.Valid)
    {reader : Reader}
    (readBy : layout.ReadBy reader)
    {tile : Tile}
    (member : tile ∈ layout.stored) :
    reader.load tile.placement.position = .ok tile := by
  have inside := valid.inside tile member
  obtain ⟨before, behind, split⟩ := List.append_of_mem member
  have placed := valid.place?_eq split
  have placementEqual : reader.grid.placement tile.placement.position = .ok tile.placement := by
    rw [readBy.grid_eq, Grid.placement_eq_ok inside, ← valid.framed tile member]
  have offsetEqual : ((reader.table.offset? tile.placement.position).getD 0).toNat =
      layout.dataStart + blocksSize before := by
    rw [readBy.offset?_eq _ inside, Option.getD_some, Layout.offset, placed, Option.getD_some]
    exact (valid.toNat_ofNat_place placed).1
  have headerBound := layout.headerSize_le_dataStart
  unfold headerSize at headerBound
  have bounds := place_bounds split
  have positive : 0 < Block.size tile := by
    unfold Block.size
    rw [(valid.wellFormed tile member).size_offsets]
    omega
  have block : (reader.bytes.drop (layout.dataStart + blocksSize before)).take
      (Block.size tile) = Block.encode tile := by
    rw [readBy.bytes_eq, take_drop_bytes split]
  have decoded : Block.decode tile.placement reader.channels (Block.size tile)
      (Block.encode tile) = .ok (tile, []) := by
    have readBack := Block.decode_encode (valid.wellFormed tile member) (Nat.le_refl _) []
    rw [readBy.channels_eq, ← valid.channels_eq tile member]
    rw [List.append_nil] at readBack
    exact readBack
  unfold Reader.load
  simp only [placementEqual, Except.mapError, bind, Except.bind, offsetEqual,
    valid.blockEnd_eq readBy split, readBy.fileLength_eq]
  rw [if_neg (by omega), if_neg (by omega), Nat.add_sub_cancel_left, block,
    Block.length_encode, if_neg (Nat.lt_irrefl _), decoded]
  rfl

/-- A tile that is not stored is loaded as fully visible. -/
theorem ReadBy.load_absent
    {reader : Reader}
    (readBy : layout.ReadBy reader)
    {position : TilePosition}
    (inside : layout.grid.Contains position)
    (absent : position ∉ layout.stored.map fun tile => tile.placement.position) :
    reader.load position =
      .ok (Tile.visible (layout.grid.frame position) layout.channels.toNat) := by
  have placementEqual : reader.grid.placement position = .ok (layout.grid.frame position) := by
    rw [readBy.grid_eq, Grid.placement_eq_ok inside]
  have offsetEqual : ((reader.table.offset? position).getD 0).toNat = 0 := by
    rw [readBy.offset?_eq _ inside, Option.getD_some, Layout.offset, place?,
      placeFrom_eq_none absent]
    rfl
  unfold Reader.load
  simp only [placementEqual, Except.mapError, bind, Except.bind, offsetEqual, if_true,
    readBy.channels_eq]
  rfl

end Layout
end Texture
end DeepShadow
