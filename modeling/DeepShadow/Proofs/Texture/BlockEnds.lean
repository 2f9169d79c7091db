import DeepShadow.Proofs.Texture.Acceptance
import DeepShadow.Proofs.Texture.Reading

/-!
# Where blocks end

The table tells where blocks start and not where they end, so that a block ends where the
next one starts.  A file is opened although some of its blocks start behind its end.  The
first of these starts is where the last block in front of it ends, and so the tile of that
block cannot be read.  All other tiles are read as if there were no such starts.
-/

namespace DeepShadow
namespace Texture
namespace Reader

/-- The table of a file has the block of a tile at a place. -/
def StoredAt (reader : Reader) (position : TilePosition) (start : Nat) : Prop :=
  ∃ offset, reader.table.offset? position = some offset ∧ offset ≠ 0 ∧ offset.toNat = start

/-- The bytes of the block at a place. -/
def block (reader : Reader) (place : Nat) : List UInt8 :=
  (reader.bytes.drop place).take (reader.blockEnd place - place)

/-- A file with the same header and the same bytes behind the table as another one, with
the same blocks in front of its end. -/
structure SameInside (other reader : Reader) : Prop where
  header_eq : other.header = reader.header
  fileLength_eq : other.fileLength = reader.fileLength
  data_eq : other.bytes.drop reader.header.dataStart = reader.bytes.drop reader.header.dataStart
  storedAt_iff : ∀ position start, start < reader.fileLength ->
    (other.StoredAt position start ↔ reader.StoredAt position start)

variable {path : String} {bytes : List UInt8} {reader : Reader} {position : TilePosition}
variable {place start : Nat}

/-! ## Starts of blocks -/

/-- The tiles that have blocks, as the entries tell. -/
theorem storedAt_iff (opened : ofBytes path bytes = .ok reader) :
    reader.StoredAt position start ↔
      ∃ entry ∈ tableOf bytes,
        entry.position = position ∧ entry.offset ≠ 0 ∧ entry.offset.toNat = start := by
  obtain ⟨-, -, -, -, grid, table, -, made, rfl⟩ := ofBytes_eq_ok_iff.mp opened
  constructor
  · rintro ⟨offset, found, stored, rfl⟩
    obtain ⟨entry, member, isEntry, rfl⟩ := (Table.offset?_eq_some_iff made stored).mp found
    exact ⟨entry, member, isEntry, stored, rfl⟩
  · rintro ⟨entry, member, isEntry, stored, rfl⟩
    have found := (Table.offset?_eq_some_iff made stored).mpr ⟨entry, member, isEntry, rfl⟩
    exact ⟨entry.offset, found, stored, rfl⟩

/-- A tile that has a block is a tile of the grid. -/
theorem StoredAt.contains
    (stored : reader.StoredAt position start)
    (opened : ofBytes path bytes = .ok reader) :
    reader.grid.Contains position := by
  obtain ⟨entry, member, rfl, -⟩ := (storedAt_iff opened).mp stored
  obtain ⟨-, -, -, -, grid, table, -, made, rfl⟩ := ofBytes_eq_ok_iff.mp opened
  exact (Table.ofEntries_eq_ok_iff.mp made).1.inside entry member

/-- No block starts in the header or in the table. -/
theorem StoredAt.dataStart_le
    (stored : reader.StoredAt position start)
    (opened : ofBytes path bytes = .ok reader) :
    reader.header.dataStart ≤ start := by
  obtain ⟨entry, member, -, isStored, rfl⟩ := (storedAt_iff opened).mp stored
  obtain ⟨-, -, -, -, grid, table, -, made, rfl⟩ := ofBytes_eq_ok_iff.mp opened
  exact (Table.ofEntries_eq_ok_iff.mp made).1.behindTable entry member isStored

theorem mem_blockStarts (opened : ofBytes path bytes = .ok reader) :
    start ∈ reader.blockStarts ↔ ∃ position, reader.StoredAt position start := by
  obtain ⟨-, -, -, -, grid, table, -, -, rfl⟩ := ofBytes_eq_ok_iff.mp opened
  simp only [readerOf, List.mem_mergeSort, List.mem_map, List.mem_filter,
    Table.mem_toList_offsets, decide_eq_true_eq]
  constructor
  · rintro ⟨offset, ⟨⟨position, -, found⟩, stored⟩, rfl⟩
    exact ⟨position, offset, found, stored, rfl⟩
  · rintro ⟨position, stored⟩
    have inside := stored.contains opened
    obtain ⟨offset, found, isStored, rfl⟩ := stored
    exact ⟨offset, ⟨⟨position, inside, found⟩, isStored⟩, rfl⟩

theorem pairwise_blockStarts (opened : ofBytes path bytes = .ok reader) :
    reader.blockStarts.Pairwise (· ≤ ·) := by
  obtain ⟨-, -, -, -, grid, table, -, -, rfl⟩ := ofBytes_eq_ok_iff.mp opened
  exact List.pairwise_mergeSort' (· ≤ ·) _

/-- Whether a file can be opened is decided by opening it. -/
theorem exists_ofBytes (isOpened : (ofBytes path bytes).toOption.isSome = true) :
    ∃ reader, ofBytes path bytes = .ok reader := by
  cases opened : ofBytes path bytes with
  | error error =>
      rw [opened] at isOpened
      cases isOpened
  | ok reader => exact ⟨reader, rfl⟩

/-- What the reader of a file knows about it. -/
theorem fields_eq (opened : ofBytes path bytes = .ok reader) :
    reader.header = headerOf bytes ∧ reader.header.grid = .ok reader.grid ∧
      reader.bytes = bytes ∧ reader.fileLength = bytes.length := by
  obtain ⟨-, -, -, -, grid, table, described, -, rfl⟩ := ofBytes_eq_ok_iff.mp opened
  exact ⟨rfl, described, rfl, rfl⟩

/-- What is found in the grid of the header of a file is found in that of its reader. -/
theorem of_map_grid
    {α : Type}
    {found : Grid -> α}
    {value : α}
    (opened : ofBytes path bytes = .ok reader)
    (computed : (headerOf bytes).grid.map found = .ok value) :
    found reader.grid = value := by
  obtain ⟨header_eq, described, -⟩ := fields_eq opened
  rw [← header_eq, described] at computed
  exact Except.ok.inj computed

/-! ## Ends of blocks -/

/-- A block ends at the end of the file where no block starts behind it, and else where
another one starts. -/
theorem blockEnd_cases (reader : Reader) (place : Nat) :
    (reader.blockEnd place = reader.fileLength ∧ ∀ start ∈ reader.blockStarts, start ≤ place) ∨
      (reader.blockEnd place ∈ reader.blockStarts ∧ place < reader.blockEnd place) := by
  cases found : reader.blockStarts.find? fun start => place < start with
  | none =>
      rw [blockEnd, found, Option.getD_none]
      simp only [List.find?_eq_none, decide_eq_true_eq, Nat.not_lt] at found
      exact Or.inl ⟨rfl, found⟩
  | some start =>
      rw [blockEnd, found, Option.getD_some]
      exact Or.inr ⟨List.mem_of_find?_eq_some found, of_decide_eq_true (List.find?_some found :)⟩

/-- A block that starts in the file does not end where it starts. -/
theorem lt_blockEnd (inside : place < reader.fileLength) : place < reader.blockEnd place := by
  rcases reader.blockEnd_cases place with ⟨atEnd, -⟩ | ⟨-, behind⟩
  · rw [atEnd]
    exact inside
  · exact behind

/-- No block starts inside of another one. -/
theorem blockEnd_le
    (opened : ofBytes path bytes = .ok reader)
    (member : start ∈ reader.blockStarts)
    (behind : place < start) :
    reader.blockEnd place ≤ start := by
  have ascending := pairwise_blockStarts opened
  unfold blockEnd
  generalize reader.blockStarts = starts at member ascending
  induction starts with
  | nil => cases member
  | cons first rest inductionHypothesis =>
      obtain ⟨firstLeast, restAscending⟩ := List.pairwise_cons.mp ascending
      rw [List.find?_cons]
      by_cases firstBehind : place < first
      · simp only [firstBehind, decide_true, Option.getD_some]
        rcases List.mem_cons.mp member with rfl | inRest
        · exact Nat.le_refl _
        · exact firstLeast start inRest
      · simp only [firstBehind, decide_false]
        rcases List.mem_cons.mp member with rfl | inRest
        · exact absurd behind firstBehind
        · exact inductionHypothesis inRest restAscending

/-- A block that starts in the file ends behind the end of the file where some block starts
there and none starts between it and the end. -/
theorem fileLength_lt_blockEnd_iff
    (opened : ofBytes path bytes = .ok reader)
    (inside : place < reader.fileLength) :
    reader.fileLength < reader.blockEnd place ↔
      (∃ position start, reader.StoredAt position start ∧ reader.fileLength < start) ∧
        ∀ position start, reader.StoredAt position start -> place < start ->
          reader.fileLength < start := by
  constructor
  · intro pastEnd
    rcases reader.blockEnd_cases place with ⟨atEnd, -⟩ | ⟨isStart, -⟩
    · omega
    · obtain ⟨position, stored⟩ := (mem_blockStarts opened).mp isStart
      refine ⟨⟨position, _, stored, pastEnd⟩, fun other start otherStored behind => ?_⟩
      have isOther := (mem_blockStarts opened).mpr ⟨other, otherStored⟩
      exact Nat.lt_of_lt_of_le pastEnd (blockEnd_le opened isOther behind)
  · rintro ⟨⟨position, start, stored, pastEnd⟩, nothingBetween⟩
    have isStart := (mem_blockStarts opened).mpr ⟨position, stored⟩
    rcases reader.blockEnd_cases place with ⟨-, none⟩ | ⟨isEnd, behind⟩
    · exact absurd (none start isStart) (by omega)
    · obtain ⟨other, otherStored⟩ := (mem_blockStarts opened).mp isEnd
      exact nothingBetween other _ otherStored behind

/-- Whatever starts behind the end of the file, a block that ends in the file does not end
behind the same block of the other file. -/
theorem SameInside.blockEnd_le
    {otherPath : String}
    {otherBytes : List UInt8}
    {other : Reader}
    (same : SameInside other reader)
    (opened : ofBytes path bytes = .ok reader)
    (otherOpened : ofBytes otherPath otherBytes = .ok other)
    (inFile : other.blockEnd place ≤ other.fileLength)
    (ends : reader.blockEnd place ≤ reader.fileLength) :
    other.blockEnd place ≤ reader.blockEnd place := by
  rcases Nat.lt_or_eq_of_le ends with before | atEnd
  · rcases reader.blockEnd_cases place with ⟨atEnd, -⟩ | ⟨isStart, behind⟩
    · omega
    · obtain ⟨position, stored⟩ := (mem_blockStarts opened).mp isStart
      have otherStored := (same.storedAt_iff position _ before).mpr stored
      exact Reader.blockEnd_le otherOpened ((mem_blockStarts otherOpened).mpr ⟨_, otherStored⟩)
        behind
  · rw [atEnd, ← same.fileLength_eq]
    exact inFile

theorem SameInside.symm
    {other : Reader}
    (same : SameInside other reader) :
    SameInside reader other where
  header_eq := same.header_eq.symm
  fileLength_eq := same.fileLength_eq.symm
  data_eq := by
    rw [same.header_eq]
    exact same.data_eq.symm
  storedAt_iff position start inside :=
    (same.storedAt_iff position start (by rwa [← same.fileLength_eq])).symm

/-! ## Reading a block -/

/-- The tile of a block that starts and ends in the file is what the bytes of the block
hold. -/
theorem StoredAt.load_eq
    (stored : reader.StoredAt position start)
    (opened : ofBytes path bytes = .ok reader) :
    reader.load position =
      if reader.fileLength ≤ start then .error (.format (.tileExceedsFile position))
      else if reader.fileLength < reader.blockEnd start then .error (.format (.truncated .block))
      else
        (Block.decode (reader.grid.frame position) reader.channels
          (reader.blockEnd start - start) (reader.block start)).map Prod.fst := by
  have placed := Grid.placement_eq_ok (stored.contains opened)
  obtain ⟨offset, found, isStored, rfl⟩ := stored
  obtain ⟨-, -, bytes_eq, length_eq⟩ := fields_eq opened
  have ne_zero : offset.toNat ≠ 0 := fun equal => isStored (UInt32.toNat_inj.mp equal)
  unfold Reader.load
  simp only [placed, found, Except.mapError, bind, Except.bind, Option.getD_some, if_neg ne_zero]
  by_cases behind : reader.fileLength ≤ offset.toNat
  · rw [if_pos behind, if_pos behind]
    rfl
  rw [if_neg behind, if_neg behind]
  have after := reader.lt_blockEnd (Nat.not_le.mp behind)
  have block_eq : (reader.bytes.drop offset.toNat).take
      (reader.blockEnd offset.toNat - offset.toNat) = reader.block offset.toNat := rfl
  have short : (reader.block offset.toNat).length < reader.blockEnd offset.toNat - offset.toNat ↔
      reader.fileLength < reader.blockEnd offset.toNat := by
    rw [block, List.length_take, List.length_drop, bytes_eq, length_eq]
    omega
  simp only [block_eq, short]
  by_cases pastEnd : reader.fileLength < reader.blockEnd offset.toNat
  · rw [if_pos pastEnd, if_pos pastEnd]
    rfl
  rw [if_neg pastEnd, if_neg pastEnd]
  cases Block.decode (reader.grid.frame position) reader.channels
    (reader.blockEnd offset.toNat - offset.toNat) (reader.block offset.toNat) with
  | error error => rfl
  | ok decoded => rfl

/-- A block behind which none starts holds all bytes up to the end of the file. -/
theorem StoredAt.load_last
    {placement : Placement}
    (stored : reader.StoredAt position start)
    (opened : ofBytes path bytes = .ok reader)
    (inside : start < bytes.length)
    (last : ∀ entry ∈ tableOf bytes, entry.offset.toNat ≤ start)
    (framed : (headerOf bytes).grid.map (·.frame position) = .ok placement) :
    reader.load position =
      (Block.decode placement (headerOf bytes).channels.toNat (bytes.length - start)
        ((bytes.drop start).take (bytes.length - start))).map Prod.fst := by
  obtain ⟨header_eq, -, bytes_eq, length_eq⟩ := fields_eq opened
  have ends : reader.blockEnd start = bytes.length := by
    rcases reader.blockEnd_cases start with ⟨atEnd, -⟩ | ⟨isStart, behind⟩
    · rw [atEnd, length_eq]
    · obtain ⟨other, otherStored⟩ := (mem_blockStarts opened).mp isStart
      obtain ⟨entry, member, -, -, place⟩ := (storedAt_iff opened).mp otherStored
      exact absurd (last entry member) (by omega)
  have frame_eq : reader.grid.frame position = placement := of_map_grid opened framed
  rw [stored.load_eq opened, block, ends, length_eq, if_neg (Nat.not_le.mpr inside),
    if_neg (Nat.lt_irrefl _), frame_eq, channels, header_eq, bytes_eq]

/-- The same block has the same bytes. -/
theorem SameInside.block_eq
    {other : Reader}
    (same : SameInside other reader)
    (behindTable : reader.header.dataStart ≤ place)
    (sameEnd : other.blockEnd place = reader.blockEnd place) :
    other.block place = reader.block place := by
  have split : place = reader.header.dataStart + (place - reader.header.dataStart) := by omega
  have data : other.bytes.drop place = reader.bytes.drop place := by
    rw [split, ← List.drop_drop, ← List.drop_drop, same.data_eq]
  rw [block, block, data, sameEnd]

/-- A tile whose block starts and ends in both of two files that are the same in front of
their ends is the same in both. -/
theorem SameInside.load_eq
    {otherPath : String}
    {otherBytes : List UInt8}
    {other : Reader}
    (same : SameInside other reader)
    (opened : ofBytes path bytes = .ok reader)
    (otherOpened : ofBytes otherPath otherBytes = .ok other)
    (stored : reader.StoredAt position start)
    (inside : start < reader.fileLength)
    (ends : reader.blockEnd start ≤ reader.fileLength)
    (otherEnds : other.blockEnd start ≤ other.fileLength) :
    other.load position = reader.load position := by
  have grid_eq : other.grid = reader.grid := by
    have described := (fields_eq opened).2.1
    rw [← same.header_eq, (fields_eq otherOpened).2.1] at described
    exact Except.ok.inj described
  have channels_eq : other.channels = reader.channels := by rw [channels, channels, same.header_eq]
  have sameEnd : other.blockEnd start = reader.blockEnd start :=
    Nat.le_antisymm (same.blockEnd_le opened otherOpened otherEnds ends)
      (same.symm.blockEnd_le otherOpened opened ends otherEnds)
  have otherStored := (same.storedAt_iff position start inside).mpr stored
  rw [stored.load_eq opened, otherStored.load_eq otherOpened, grid_eq, channels_eq, sameEnd,
    same.fileLength_eq, same.block_eq (stored.dataStart_le opened) sameEnd]

end Reader

/-- A block that cannot be decoded is not reported as one that is not in the file. -/
theorem Block.decode_ne_truncated_block
    (placement : Placement)
    (channels available : Nat)
    (bytes : List UInt8) :
    Block.decode placement channels available bytes ≠ .error (.format (.truncated .block)) := by
  unfold Block.decode
  grind

/-- A block that starts in the file ends behind its start.  It ends behind the end of the
file exactly where a block starts there and none starts in between, and exactly then its
tile is not loaded because the file is truncated.  Blocks that start behind the end of the
file change nothing about the other tiles. -/
theorem load_inside_iff
    {path : String}
    {bytes : List UInt8}
    {reader : Reader}
    {position : TilePosition}
    {start : Nat}
    (opened : (Reader.open path (.ok bytes)).value = .ok reader)
    (stored : reader.StoredAt position start)
    (inside : start < bytes.length) :
    start < reader.blockEnd start ∧
      (bytes.length < reader.blockEnd start ↔
        (∃ other place, reader.StoredAt other place ∧ bytes.length < place) ∧
          ∀ other place, reader.StoredAt other place -> start < place ->
            bytes.length < place) ∧
      (reader.load position = .error (.format (.truncated .block)) ↔
        bytes.length < reader.blockEnd start) ∧
      ∀ otherPath otherBytes other,
        (Reader.open otherPath (.ok otherBytes)).value = .ok other ->
        Reader.SameInside other reader ->
        reader.blockEnd start ≤ bytes.length ->
        other.blockEnd start ≤ bytes.length ->
        other.load position = reader.load position := by
  rw [value_open] at opened
  obtain ⟨-, -, -, length_eq⟩ := Reader.fields_eq opened
  rw [← length_eq] at inside ⊢
  refine ⟨Reader.lt_blockEnd inside, Reader.fileLength_lt_blockEnd_iff opened inside, ?_, ?_⟩
  · rw [stored.load_eq opened, if_neg (Nat.not_le.mpr inside)]
    by_cases pastEnd : reader.fileLength < reader.blockEnd start
    · simp only [pastEnd, if_true]
    · simp only [pastEnd, if_false, iff_false]
      intro failed
      refine Block.decode_ne_truncated_block (reader.grid.frame position) reader.channels
        (reader.blockEnd start - start) (reader.block start) ?_
      cases decoded : Block.decode (reader.grid.frame position) reader.channels
        (reader.blockEnd start - start) (reader.block start) with
      | error error =>
          rw [decoded] at failed
          cases failed
          rfl
      | ok decodedTile =>
          rw [decoded] at failed
          cases failed
  · intro otherPath otherBytes other otherOpened same ends otherEnds
    rw [value_open] at otherOpened
    rw [← same.fileLength_eq] at otherEnds
    exact same.load_eq opened otherOpened stored inside ends otherEnds

namespace PastEnd

/-- The header of an image of two tiles of one pixel each, for a file of 216 bytes. -/
def header : Header :=
  { fileSize := 216
    imageWidth := 2
    imageHeight := 1
    channels := 1
    dataSize := 24
    tileWidth := 1
    tileHeight := 1
    tileCount := 2
    transforms := Transforms.identity }

/-- A file with a black layer in the first tile and some place for the second one. -/
def file (offset : UInt32) : List UInt8 :=
  header.encode ++ [⟨0, 0, 192⟩, ⟨0, 1, offset⟩].flatMap Entry.encode ++
    wordsBytes [0, 2, Single.zero.bits, Single.one.bits, Single.one.bits, Single.zero.bits]

/-- The tile of the first pixel. -/
def tile : Tile :=
  { placement := ⟨⟨0, 0⟩, 0, 0, 1, 1⟩
    channels := 1
    offsets := #[0, 2]
    values := #[Single.zero, Single.one, Single.one, Single.zero] }

theorem exists_reader (offset : UInt32) (isKnown : offset = 0 ∨ offset = 300) :
    ∃ reader, Reader.ofBytes "" (file offset) = .ok reader := by
  apply Reader.exists_ofBytes
  rcases isKnown with rfl | rfl <;> decide +kernel

variable {reader : Reader}

theorem storedAt (opened : Reader.ofBytes "" (file 300) = .ok reader) :
    reader.StoredAt ⟨0, 0⟩ 192 ∧ reader.StoredAt ⟨1, 0⟩ 300 :=
  ⟨(Reader.storedAt_iff opened).mpr (by decide +kernel),
    (Reader.storedAt_iff opened).mpr (by decide +kernel)⟩

theorem length_lt_blockEnd (opened : Reader.ofBytes "" (file 300) = .ok reader) :
    (file 300).length < reader.blockEnd 192 := by
  have entries : ∀ entry ∈ tableOf (file 300), 192 < entry.offset.toNat ->
      (file 300).length < entry.offset.toNat := by decide +kernel
  obtain ⟨-, -, -, length_eq⟩ := Reader.fields_eq opened
  rw [← length_eq] at entries ⊢
  refine (Reader.fileLength_lt_blockEnd_iff opened ?_).mpr ⟨⟨_, _, (storedAt opened).2, ?_⟩, ?_⟩
  · rw [length_eq]
    decide +kernel
  · rw [length_eq]
    decide +kernel
  intro position start stored behind
  obtain ⟨entry, member, -, -, rfl⟩ := (Reader.storedAt_iff opened).mp stored
  exact entries entry member behind

end PastEnd

open PastEnd in
/-- The block of the first tile is lost where the place of the second one is behind the end
of the file. -/
theorem load_inside_iff_pastEnd :
    ∃ reader, (Reader.open "" (.ok (file 300))).value = .ok reader ∧
      reader.load ⟨0, 0⟩ = .error (.format (.truncated .block)) := by
  obtain ⟨reader, opened⟩ := exists_reader 300 (Or.inr rfl)
  have read := (value_open "" (file 300)).trans opened
  obtain ⟨-, -, truncated, -⟩ := load_inside_iff read (storedAt opened).1 (by decide +kernel)
  exact ⟨reader, read, truncated.mpr (length_lt_blockEnd opened)⟩

open PastEnd in
/-- A file is opened in which the block of the first tile starts in the file but does not
end there, and the tile is not loaded, although it is loaded where the other tile is not
stored. -/
theorem blockEnd_pastEnd :
    (∃ reader, (Reader.open "" (.ok (file 300))).value = .ok reader ∧
        reader.StoredAt ⟨0, 0⟩ 192 ∧ 192 < (file 300).length ∧
        ¬reader.blockEnd 192 ≤ (file 300).length ∧
        reader.load ⟨0, 0⟩ = .error (.format (.truncated .block))) ∧
      ∃ reader, (Reader.open "" (.ok (file 0))).value = .ok reader ∧
        reader.load ⟨0, 0⟩ = .ok tile := by
  constructor
  · obtain ⟨reader, opened⟩ := exists_reader 300 (Or.inr rfl)
    have pastEnd := length_lt_blockEnd opened
    refine ⟨reader, (value_open "" (file 300)).trans opened, (storedAt opened).1,
      by decide +kernel, Nat.not_le.mpr pastEnd, ?_⟩
    rw [(storedAt opened).1.load_eq opened, (Reader.fields_eq opened).2.2.2, if_pos pastEnd]
    exact if_neg (by decide +kernel)
  · obtain ⟨reader, opened⟩ := exists_reader 0 (Or.inl rfl)
    have stored : reader.StoredAt ⟨0, 0⟩ 192 := (Reader.storedAt_iff opened).mpr (by decide +kernel)
    have framed : (headerOf (file 0)).grid.map (·.frame ⟨0, 0⟩) = .ok tile.placement := by
      decide +kernel
    refine ⟨reader, (value_open "" (file 0)).trans opened, ?_⟩
    rw [stored.load_last opened (by decide +kernel) (by decide +kernel) framed]
    decide +kernel

end Texture
end DeepShadow
