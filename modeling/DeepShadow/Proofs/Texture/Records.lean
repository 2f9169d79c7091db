import DeepShadow.Proofs.Texture.Contents
import DeepShadow.Proofs.Texture.Reading
import DeepShadow.Proofs.Texture.Writing

/-!
# Headers and tables are their bytes

The bytes of a header tell all its fields and nothing else: decoding takes exactly these
bytes, and bytes that are decoded are those of the decoded header.  The places at which the
two sizes are written later are the places of these fields.  A table is known from its
entries, which name the tiles of the grid one after the other.
-/

namespace DeepShadow
namespace Texture

variable {bytes rest : List UInt8}

/-! ## Headers -/

/-- The words from a place on, in two parts. -/
theorem wordsFrom_add (bytes : List UInt8) (place first second : Nat) :
    wordsFrom bytes place (first + second) =
      wordsFrom bytes place first ++ wordsFrom bytes (place + 4 * first) second := by
  induction first generalizing place with
  | zero =>
      rw [Nat.zero_add, Nat.mul_zero, Nat.add_zero]
      rfl
  | succ first inductionHypothesis =>
      rw [Nat.add_right_comm, wordsFrom_succ, wordsFrom_succ, inductionHypothesis,
        List.cons_append, Nat.mul_succ, Nat.add_assoc, Nat.add_comm 4]

/-- The words of a matrix are those that it is read from. -/
theorem map_bits_matrix (bytes : List UInt8) (place : Nat) :
    (Vector.ofFn fun index : Fin 16 =>
      (⟨wordAt bytes (place + 4 * index)⟩ : Single)).toList.map Single.bits =
        wordsFrom bytes place 16 := by
  apply List.ext_getElem
  · rw [List.length_map, Vector.length_toList, length_wordsFrom]
  · intro number _ _
    simp only [List.getElem_map, Vector.getElem_toList, Vector.getElem_ofFn, wordsFrom,
      List.getElem_range]

namespace Header

theorem words_headerOf (bytes : List UInt8) :
    (headerOf bytes).words = wordsFrom bytes magic.length 40 := by
  have split : wordsFrom bytes magic.length 40 =
      wordsFrom bytes 8 8 ++ wordsFrom bytes 40 16 ++ wordsFrom bytes 104 16 := by
    rw [← wordsFrom_add bytes 8 8 16, ← wordsFrom_add bytes 8 24 16]
    rfl
  rw [split, ← map_bits_matrix, ← map_bits_matrix]
  rfl

/-- The header that bytes hold is encoded to the first of these bytes. -/
theorem encode_headerOf
    (long : headerSize ≤ bytes.length)
    (isMagic : bytes.take magic.length = magic) :
    (headerOf bytes).encode = bytes.take headerSize := by
  have inside : magic.length + 4 * 40 ≤ bytes.length := long
  calc (headerOf bytes).encode
      = magic ++ wordsBytes (wordsFrom bytes magic.length 40) := by rw [encode, words_headerOf]
    _ = bytes.take magic.length ++ (bytes.drop magic.length).take (4 * 40) := by
        rw [wordsBytes_wordsFrom inside, isMagic]
    _ = bytes.take headerSize := List.take_add.symm

/-- Bytes are decoded to a header exactly when they begin with the bytes of this header. -/
theorem decode_eq_ok_iff_append {header : Header} :
    decode bytes = .ok (header, rest) ↔ bytes = header.encode ++ rest := by
  constructor
  · intro decoded
    obtain ⟨long, isMagic, held⟩ := decode_eq_ok_iff.mp decoded
    cases held
    rw [encode_headerOf long isMagic, List.take_append_drop]
  · rintro rfl
    exact decode_encode header rest

end Header

/-! ## Tables -/

namespace Table

variable {grid : Grid} {dataStart : Nat}

/-- The entry of a tile. -/
def entry (table : Table grid) (position : TilePosition) : Entry :=
  { row := UInt32.ofNat position.row
    column := UInt32.ofNat position.column
    offset := (table.offset? position).getD 0 }

theorem position_entry
    (table : Table grid)
    (position : TilePosition)
    (inside : grid.Contains position) :
    (table.entry position).position = position := Entry.position_ofNat inside _

theorem length_entries (table : Table grid) : table.entries.length = grid.tileCount := by
  rw [entries, List.length_map, Grid.length_positions]

/-- The entry with a number is for the tile with this number. -/
theorem getElem?_entries
    (table : Table grid)
    (index : Fin grid.tileCount) :
    ∃ entry, table.entries[index.val]? = some entry ∧ grid.index entry.position = .ok index ∧
      entry.offset = table.offsets.get index := by
  obtain ⟨position, inside, numbered⟩ := Grid.exists_indexOf_eq grid index
  have number_eq : index.val = position.row * grid.columns + position.column :=
    congrArg Fin.val numbered.symm
  refine ⟨table.entry position, ?_, ?_, ?_⟩
  · rw [entries, List.getElem?_map, number_eq, Grid.getElem?_positions inside]
    rfl
  · rw [position_entry table position inside, Grid.index_eq_ok inside, numbered]
  · rw [entry, offset?_eq_find?, TileMap.find?_eq_some _ inside, numbered, Option.getD_some]

/-- As many entries as there are tiles are read back from the bytes of a table. -/
theorem decodeMany_encode (table : Table grid) (rest : List UInt8) :
    Entry.decodeMany grid.tileCount (table.encode ++ rest) =
      .ok (table.entries.toArray, rest) := by
  rw [← length_entries table]
  exact Entry.decodeMany_flatMap_encode table.entries rest

/-- A table is made again from its entries. -/
theorem ofEntries_entries
    (table : Table grid)
    (behindTable : ∀ offset ∈ table.offsets.toList, offset ≠ 0 -> dataStart ≤ offset.toNat) :
    ofEntries grid table.entries dataStart = .ok table := by
  have found : ∀ position, grid.Contains position ->
      table.offset? position = some (table.entry position).offset := by
    intro position inside
    unfold entry
    rw [offset?_eq_find?, TileMap.find?_eq_some _ inside, Option.getD_some]
  change ofEntries grid (grid.positions.map table.entry) dataStart = .ok table
  refine ofEntries_eq_ok_iff.mpr
    ⟨enterable_map_positions table.position_entry ?_, fun position inside => ?_⟩
  · intro position inside stored
    exact behindTable _ ((mem_toList_offsets table _).mpr ⟨position, inside, found position inside⟩)
      stored
  · rw [offsetAmong_map_positions table.position_entry inside]
    exact found position inside

end Table

/-- Headers and tables are their bytes.  A header has 168 of them, bytes are decoded to a
header exactly when they begin with its bytes, and writing a word at one of the two places
that are written later replaces one field of the header and nothing else.  From the bytes of
a table its entries are read, as many as the grid has tiles and each for the tile with its
number, and they make the same table again. -/
theorem header_and_table_are_their_bytes :
    (∀ header : Header, header.encode.length = 168) ∧
    (∀ bytes rest (header : Header),
      Header.decode bytes = .ok (header, rest) ↔ bytes = header.encode ++ rest) ∧
    (∀ (file : OutputFile) (header : Header) rest word, file.contents = header.encode ++ rest ->
      (file.overwriteWord fileSizePlace word).contents =
        { header with fileSize := word }.encode ++ rest ∧
      (file.overwriteWord dataSizePlace word).contents =
        { header with dataSize := word }.encode ++ rest) ∧
    ∀ grid (table : Table grid) rest,
      Entry.decodeMany grid.tileCount (table.encode ++ rest) =
        .ok (table.entries.toArray, rest) ∧
      (∀ index : Fin grid.tileCount, ∃ entry, table.entries[index.val]? = some entry ∧
        grid.index entry.position = .ok index ∧ entry.offset = table.offsets.get index) ∧
      ∀ dataStart,
        (∀ offset ∈ table.offsets.toList, offset ≠ 0 -> dataStart ≤ offset.toNat) ->
          Table.ofEntries grid table.entries dataStart = .ok table := by
  refine ⟨Header.length_encode, fun _ _ _ => Header.decode_eq_ok_iff_append, ?_, ?_⟩
  · intro file header rest word contents_eq
    exact ⟨Header.contents_overwrite_fileSize contents_eq word,
      Header.contents_overwrite_dataSize contents_eq word⟩
  · intro grid table rest
    exact ⟨Table.decodeMany_encode table rest, Table.getElem?_entries table,
      fun _ => Table.ofEntries_entries table⟩

/-- The grid of an image that is two tiles wide. -/
def twoTiles : Grid :=
  { imageWidth := 4
    imageHeight := 2
    tileWidth := 2
    tileHeight := 2
    imageWidth_pos := Nat.zero_lt_succ 3
    imageHeight_pos := Nat.two_pos
    tileWidth_pos := Nat.two_pos
    tileHeight_pos := Nat.two_pos
    tileCount_lt := by decide }

/-- The table in which only the second of two tiles is stored, right behind the table. -/
theorem header_and_table_are_their_bytes_twoTiles :
    let table := (Table.empty twoTiles).set ⟨1, 0⟩ 192
    Entry.decodeMany 2 (table.encode ++ [7]) = .ok (table.entries.toArray, [7]) ∧
      Table.ofEntries twoTiles table.entries 192 = .ok table := by
  intro table
  have offsets_eq : table.offsets.toList = [0, 192] := by decide +kernel
  have behindTable : ∀ offset ∈ table.offsets.toList, offset ≠ 0 -> 192 ≤ offset.toNat := by
    rw [offsets_eq]
    intro offset member stored
    rcases List.mem_pair.mp member with rfl | rfl
    · exact absurd rfl stored
    · exact Nat.le_refl 192
  have ofTable := header_and_table_are_their_bytes.2.2.2 twoTiles table [7]
  exact ⟨ofTable.1, ofTable.2.2 192 behindTable⟩

end Texture
end DeepShadow
