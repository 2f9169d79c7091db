import Mathlib.Algebra.Order.Floor.Div
import DeepShadow.Proofs.Texture.Contents
import DeepShadow.Proofs.Texture.Lookup
import DeepShadow.Proofs.Visibility.Bisection

/-!
# Which files are opened

Whether a file is opened depends on its header, its table and its length: the header has
to describe a grid and to tell the length, and the table has to lie in the file and to
have an entry for each tile of the grid.  That no tile is left out is never looked at: as
many different tiles of a grid as it has are all of them.  The order of the entries does
not matter.
-/

namespace DeepShadow
namespace Texture

/-! ## Grids of headers -/

namespace Header

/-- The number of tiles in a row, rounded up. -/
def columns (header : Header) : Nat := header.imageWidth.toNat ⌈/⌉ header.tileWidth.toNat

/-- The number of rows of tiles, rounded up. -/
def rows (header : Header) : Nat := header.imageHeight.toNat ⌈/⌉ header.tileHeight.toNat

variable {header : Header} {grid : Grid}

/-- A header describes the grid with its sizes, as many tiles and a supported number of
channels. -/
theorem grid_eq_ok_iff :
    header.grid = .ok grid ↔
      supportedChannels header.channels.toNat = true ∧
        grid.imageWidth = header.imageWidth.toNat ∧
        grid.imageHeight = header.imageHeight.toNat ∧
        grid.tileWidth = header.tileWidth.toNat ∧
        grid.tileHeight = header.tileHeight.toNat ∧
        grid.tileCount = header.tileCount.toNat := by
  constructor
  · intro described
    unfold Header.grid at described
    split at described
    · cases described
    next supported =>
    split at described
    · cases described
    next made =>
    split at described
    · cases described
    next sameCount =>
    cases described
    obtain ⟨imageWidth, imageHeight, tileWidth, tileHeight⟩ := Grid.ofSizes_eq_ok made
    rw [Bool.not_eq_true, Bool.not_eq_false'] at supported
    exact ⟨supported, imageWidth, imageHeight, tileWidth, tileHeight, not_ne_iff.mp sameCount⟩
  · rintro ⟨supported, imageWidth, imageHeight, tileWidth, tileHeight, tileCount⟩
    unfold Header.grid
    rw [← imageWidth, ← imageHeight, ← tileWidth, ← tileHeight, Grid.ofSizes_sizes, supported]
    simp [tileCount]

theorem columns_eq (described : header.grid = .ok grid) : grid.columns = header.columns := by
  obtain ⟨_, imageWidth, _, tileWidth, _⟩ := grid_eq_ok_iff.mp described
  unfold Grid.columns columns partsCovering
  rw [Nat.ceilDiv_eq_add_pred_div, imageWidth, tileWidth]

theorem rows_eq (described : header.grid = .ok grid) : grid.rows = header.rows := by
  obtain ⟨_, _, imageHeight, _, tileHeight, _⟩ := grid_eq_ok_iff.mp described
  unfold Grid.rows rows partsCovering
  rw [Nat.ceilDiv_eq_add_pred_div, imageHeight, tileHeight]

/-- A header with sizes that are not zero and the number of their tiles describes a
grid. -/
theorem exists_grid
    (supported : supportedChannels header.channels.toNat = true)
    (imagePositive : 0 < header.imageWidth.toNat ∧ 0 < header.imageHeight.toNat)
    (tilePositive : 0 < header.tileWidth.toNat ∧ 0 < header.tileHeight.toNat)
    (tileCount_eq : header.tileCount.toNat = header.columns * header.rows) :
    ∃ grid, header.grid = .ok grid := by
  have count_eq : partsCovering header.imageWidth.toNat header.tileWidth.toNat *
      partsCovering header.imageHeight.toNat header.tileHeight.toNat =
        header.tileCount.toNat := by
    rw [tileCount_eq, columns, rows, Nat.ceilDiv_eq_add_pred_div, Nat.ceilDiv_eq_add_pred_div]
    rfl
  exact
    ⟨{ imageWidth := header.imageWidth.toNat
       imageHeight := header.imageHeight.toNat
       tileWidth := header.tileWidth.toNat
       tileHeight := header.tileHeight.toNat
       imageWidth_pos := imagePositive.1
       imageHeight_pos := imagePositive.2
       tileWidth_pos := tilePositive.1
       tileHeight_pos := tilePositive.2
       tileCount_lt := count_eq ▸ header.tileCount.toNat_lt },
      grid_eq_ok_iff.mpr ⟨supported, rfl, rfl, rfl, rfl, count_eq⟩⟩

end Header

/-! ## Opening -/

section

variable {ε δ α β : Type}

/-- A computation of two steps succeeds where both of them do. -/
theorem bind_eq_ok_iff {first : Except ε α} {next : α -> Except ε β} {value : β} :
    (first >>= next) = .ok value ↔ ∃ middle, first = .ok middle ∧ next middle = .ok value := by
  cases first with
  | error error => exact ⟨(nomatch ·), fun ⟨_, isMiddle, _⟩ => nomatch isMiddle⟩
  | ok middle => exact ⟨fun holds => ⟨middle, rfl, holds⟩, fun ⟨_, rfl, holds⟩ => holds⟩

theorem mapError_eq_ok_iff {result : Except ε α} {wrap : ε -> δ} {value : α} :
    result.mapError wrap = .ok value ↔ result = .ok value := by
  cases result with
  | error error => exact ⟨(nomatch ·), (nomatch ·)⟩
  | ok given => simp [Except.mapError]

end

/-- The entries of the table that bytes hold. -/
def tableOf (bytes : List UInt8) : List Entry :=
  entriesFrom bytes headerSize (headerOf bytes).tileCount.toNat

/-- The reader of some bytes with a table. -/
def readerOf (path : String) (bytes : List UInt8) (grid : Grid) (table : Table grid) : Reader :=
  { path
    header := headerOf bytes
    grid
    table
    bytes
    fileLength := bytes.length
    blockStarts := ((table.offsets.toList.filter (· ≠ 0)).map UInt32.toNat).mergeSort }

variable {path : String} {bytes : List UInt8} {reader : Reader}

/-- The table of a file is decoded where it lies in the file. -/
theorem decodeMany_table
    (hasHeader : headerSize ≤ bytes.length) :
    Entry.decodeMany (headerOf bytes).tileCount.toNat (bytes.drop headerSize) =
      if (headerOf bytes).dataStart ≤ bytes.length then
        .ok ((tableOf bytes).toArray, bytes.drop (headerOf bytes).dataStart)
      else .error (.format (.truncated .table)) := by
  have enough : entrySize * (headerOf bytes).tileCount.toNat ≤ (bytes.drop headerSize).length ↔
      (headerOf bytes).dataStart ≤ bytes.length := by
    rw [List.length_drop, Header.dataStart, Nat.mul_comm]
    omega
  rw [Entry.decodeMany_eq, entriesFrom_drop, List.drop_drop]
  simp only [enough]
  rw [Nat.mul_comm entrySize]
  rfl

/-- Bytes are opened where they hold a header that describes a grid and tells their
number, and a table for this grid. -/
theorem ofBytes_eq_ok_iff :
    Reader.ofBytes path bytes = .ok reader ↔
      headerSize ≤ bytes.length ∧
        bytes.take magic.length = magic ∧
        (headerOf bytes).fileSize.toNat = bytes.length ∧
        (headerOf bytes).dataStart ≤ bytes.length ∧
        ∃ grid table,
          (headerOf bytes).grid = .ok grid ∧
          Table.ofEntries grid (tableOf bytes) (headerOf bytes).dataStart = .ok table ∧
          reader = readerOf path bytes grid table := by
  constructor
  · intro opened
    obtain ⟨_, decoded, afterHeader⟩ := bind_eq_ok_iff.mp opened
    obtain ⟨hasHeader, isMagic, rfl⟩ := Header.decode_eq_ok_iff.mp decoded
    obtain ⟨grid, described, afterGrid⟩ := bind_eq_ok_iff.mp afterHeader
    rw [mapError_eq_ok_iff] at described
    have sameSize : (headerOf bytes).fileSize.toNat = bytes.length := by
      by_contra different
      obtain ⟨_, thrown, _⟩ := bind_eq_ok_iff.mp ((if_pos different).symm.trans afterGrid)
      cases thrown
    obtain ⟨_, read, afterTable⟩ :=
      bind_eq_ok_iff.mp ((if_neg (not_ne_iff.mpr sameSize)).symm.trans afterGrid)
    rw [decodeMany_table hasHeader] at read
    split at read
    next hasTable =>
      cases read
      obtain ⟨table, made, isReader⟩ := bind_eq_ok_iff.mp afterTable
      rw [mapError_eq_ok_iff] at made
      cases isReader
      exact ⟨hasHeader, isMagic, sameSize, hasTable, grid, table, described, made, rfl⟩
    next tooShort => cases read
  · rintro ⟨hasHeader, isMagic, sameSize, hasTable, grid, table, described, made, rfl⟩
    refine bind_eq_ok_iff.mpr ⟨_, Header.decode_eq_ok_iff.mpr ⟨hasHeader, isMagic, rfl⟩, ?_⟩
    refine bind_eq_ok_iff.mpr ⟨grid, mapError_eq_ok_iff.mpr described, ?_⟩
    refine (if_neg (not_ne_iff.mpr sameSize)).trans ?_
    refine bind_eq_ok_iff.mpr ⟨_, (decodeMany_table hasHeader).trans (if_pos hasTable), ?_⟩
    exact bind_eq_ok_iff.mpr ⟨table, mapError_eq_ok_iff.mpr made, rfl⟩

/-- Opening a file gives what its bytes hold. -/
theorem value_open (path : String) (bytes : List UInt8) :
    (Reader.open path (.ok bytes)).value = Reader.ofBytes path bytes := by
  unfold Reader.open
  cases made : Reader.ofBytes path bytes with
  | error error =>
      simp only [made]
      rfl
  | ok reader =>
      simp only [made]
      rfl

/-! ## Acceptance -/

/-- What is needed of the bytes of a file so that it is opened. -/
structure Acceptable (bytes : List UInt8) : Prop where
  hasHeader : headerSize ≤ bytes.length
  isMagic : bytes.take magic.length = magic
  supported : (headerOf bytes).channels = 1 ∨ (headerOf bytes).channels = 3
  imageWidth_ne_zero : (headerOf bytes).imageWidth ≠ 0
  imageHeight_ne_zero : (headerOf bytes).imageHeight ≠ 0
  tileWidth_ne_zero : (headerOf bytes).tileWidth ≠ 0
  tileHeight_ne_zero : (headerOf bytes).tileHeight ≠ 0
  tileCount_eq : (headerOf bytes).tileCount.toNat = (headerOf bytes).columns * (headerOf bytes).rows
  fileSize_eq : (headerOf bytes).fileSize.toNat = bytes.length
  hasTable : headerSize + (headerOf bytes).tileCount.toNat * entrySize ≤ bytes.length
  inside : ∀ entry ∈ tableOf bytes,
    entry.column.toNat < (headerOf bytes).columns ∧ entry.row.toNat < (headerOf bytes).rows
  distinct : ((tableOf bytes).map Entry.position).Nodup
  behindTable : ∀ entry ∈ tableOf bytes, entry.offset = 0 ∨
    headerSize + (headerOf bytes).tileCount.toNat * entrySize ≤ entry.offset.toNat

variable {grid : Grid}

/-- The entries of acceptable bytes make a table for the grid of their header. -/
theorem Acceptable.enterable
    (acceptable : Acceptable bytes)
    (described : (headerOf bytes).grid = .ok grid) :
    Table.Enterable grid (headerOf bytes).dataStart (tableOf bytes) :=
  { inside := by
      intro entry member
      unfold Grid.Contains
      rw [Header.columns_eq described, Header.rows_eq described]
      exact acceptable.inside entry member
    behindTable := fun entry member stored =>
      (acceptable.behindTable entry member).resolve_left stored
    distinct := acceptable.distinct }

/-- The header of acceptable bytes describes a grid. -/
theorem Acceptable.exists_grid (acceptable : Acceptable bytes) :
    ∃ grid, (headerOf bytes).grid = .ok grid := by
  have positive {word : UInt32} (different : word ≠ 0) : 0 < word.toNat :=
    Nat.pos_of_ne_zero fun zero => different (UInt32.toNat_inj.mp zero)
  refine Header.exists_grid ?_
    ⟨positive acceptable.imageWidth_ne_zero, positive acceptable.imageHeight_ne_zero⟩
    ⟨positive acceptable.tileWidth_ne_zero, positive acceptable.tileHeight_ne_zero⟩
    acceptable.tileCount_eq
  rw [supportedChannels_iff]
  exact acceptable.supported.imp (congrArg UInt32.toNat) (congrArg UInt32.toNat)

/-- Bytes are acceptable where their header describes a grid and their entries make a
table for it. -/
theorem acceptable_of_enterable
    (hasHeader : headerSize ≤ bytes.length)
    (isMagic : bytes.take magic.length = magic)
    (sameSize : (headerOf bytes).fileSize.toNat = bytes.length)
    (hasTable : (headerOf bytes).dataStart ≤ bytes.length)
    (described : (headerOf bytes).grid = .ok grid)
    (enterable : Table.Enterable grid (headerOf bytes).dataStart (tableOf bytes)) :
    Acceptable bytes := by
  obtain ⟨supported, imageWidth, imageHeight, tileWidth, tileHeight, tileCount⟩ :=
    Header.grid_eq_ok_iff.mp described
  have ne_zero {word : UInt32} {size : Nat} (positive : 0 < size) (same : size = word.toNat) :
      word ≠ 0 := by
    rintro rfl
    exact absurd same positive.ne'
  exact
    { hasHeader
      isMagic
      supported := (supportedChannels_iff.mp supported).imp UInt32.toNat_inj.mp UInt32.toNat_inj.mp
      imageWidth_ne_zero := ne_zero grid.imageWidth_pos imageWidth
      imageHeight_ne_zero := ne_zero grid.imageHeight_pos imageHeight
      tileWidth_ne_zero := ne_zero grid.tileWidth_pos tileWidth
      tileHeight_ne_zero := ne_zero grid.tileHeight_pos tileHeight
      tileCount_eq := by
        rw [← tileCount, ← Header.columns_eq described, ← Header.rows_eq described]
        rfl
      fileSize_eq := sameSize
      hasTable
      inside := by
        intro entry member
        rw [← Header.columns_eq described, ← Header.rows_eq described]
        exact enterable.inside entry member
      distinct := enterable.distinct
      behindTable := fun entry member =>
        or_iff_not_imp_left.mpr (enterable.behindTable entry member) }

/-- The entries of acceptable bytes are for all tiles of the grid. -/
theorem Acceptable.perm_positions
    (acceptable : Acceptable bytes)
    (described : (headerOf bytes).grid = .ok grid) :
    ((tableOf bytes).map Entry.position).Perm grid.positions := by
  have included : (tableOf bytes).map Entry.position ⊆ grid.positions := by
    intro position member
    obtain ⟨entry, entryMember, rfl⟩ := List.mem_map.mp member
    exact Grid.mem_positions.mpr ((acceptable.enterable described).inside entry entryMember)
  -- As many different tiles as the grid has leave none of them out.
  refine (List.subperm_of_subset acceptable.distinct included).perm_of_length_le ?_
  rw [Grid.length_positions, List.length_map, tableOf, length_entriesFrom,
    (Header.grid_eq_ok_iff.mp described).2.2.2.2.2]

/-- Bytes with the same header, as many of them, and the same entries in any order. -/
structure Rearranges (other bytes : List UInt8) : Prop where
  sameHeader : other.take headerSize = bytes.take headerSize
  sameLength : other.length = bytes.length
  permuted : (tableOf other).Perm (tableOf bytes)

/-- Rearranged bytes make the same reader but for the bytes. -/
theorem Rearranges.ofBytes
    {other : List UInt8}
    (rearranges : Rearranges other bytes)
    (opened : Reader.ofBytes path bytes = .ok reader) :
    Reader.ofBytes path other = .ok { reader with bytes := other } := by
  obtain ⟨hasHeader, isMagic, sameSize, hasTable, grid, table, described, made, rfl⟩ :=
    ofBytes_eq_ok_iff.mp opened
  have header_eq : headerOf other = headerOf bytes := by
    rw [← headerOf_take other, rearranges.sameHeader, headerOf_take]
  have magic_eq : other.take magic.length = bytes.take magic.length := by
    have fits : magic.length = min magic.length headerSize := rfl
    rw [fits, ← List.take_take, ← List.take_take, rearranges.sameHeader]
  rw [ofBytes_eq_ok_iff, header_eq, rearranges.sameLength, magic_eq]
  refine ⟨hasHeader, isMagic, sameSize, hasTable, grid, table, described,
    Table.ofEntries_perm rearranges.permuted made, ?_⟩
  unfold readerOf
  rw [header_eq, rearranges.sameLength]

/-- A file is opened exactly where its bytes are acceptable.  Then its table has exactly
one entry for each tile of the grid, in whatever order, and tells the place of this entry
for the tile; any other order of the entries gives the same table. -/
theorem opened_iff_acceptable (path : String) (bytes : List UInt8) :
    ((∃ reader, (Reader.open path (.ok bytes)).value = .ok reader) ↔ Acceptable bytes) ∧
      ∀ reader, (Reader.open path (.ok bytes)).value = .ok reader ->
        (headerOf bytes).grid = .ok reader.grid ∧
        ((tableOf bytes).map Entry.position).Perm reader.grid.positions ∧
        (∀ entry ∈ tableOf bytes, reader.table.offset? entry.position = some entry.offset) ∧
        ∀ other, Rearranges other bytes ->
          (Reader.open path (.ok other)).value = .ok { reader with bytes := other } := by
  simp only [value_open]
  have acceptable_of_opened {reader : Reader} (opened : Reader.ofBytes path bytes = .ok reader) :
      Acceptable bytes := by
    obtain ⟨hasHeader, isMagic, sameSize, hasTable, grid, table, described, made, _⟩ :=
      ofBytes_eq_ok_iff.mp opened
    exact acceptable_of_enterable hasHeader isMagic sameSize hasTable described
      (Table.ofEntries_eq_ok_iff.mp made).1
  refine ⟨⟨fun ⟨reader, opened⟩ => acceptable_of_opened opened, fun acceptable => ?_⟩, ?_⟩
  · obtain ⟨grid, described⟩ := acceptable.exists_grid
    obtain ⟨table, made, _⟩ := (acceptable.enterable described).exists_ofEntries
    exact ⟨_, ofBytes_eq_ok_iff.mpr ⟨acceptable.hasHeader, acceptable.isMagic,
      acceptable.fileSize_eq, acceptable.hasTable, grid, table, described, made, rfl⟩⟩
  · intro reader opened
    have acceptable := acceptable_of_opened opened
    obtain ⟨_, _, _, _, grid, table, described, made, reader_eq⟩ := ofBytes_eq_ok_iff.mp opened
    obtain ⟨enterable, offsets⟩ := Table.ofEntries_eq_ok_iff.mp made
    subst reader_eq
    refine ⟨described, acceptable.perm_positions described, fun entry member => ?_,
      fun other rearranges => rearranges.ofBytes opened⟩
    exact (offsets _ (enterable.inside entry member)).trans
      (Table.offsetAmong_of_mem enterable.distinct member _)

namespace SwappedEntries

/-- The header of an image of three pixels in two tiles, for a file of 192 bytes. -/
def header : Header :=
  { fileSize := 192
    imageWidth := 3
    imageHeight := 1
    channels := 1
    dataSize := 0
    tileWidth := 2
    tileHeight := 1
    tileCount := 2
    transforms := Transforms.identity }

/-- A file with the entry of the second tile first. -/
def swapped : List UInt8 := header.encode ++ [⟨0, 1, 192⟩, ⟨0, 0, 0⟩].flatMap Entry.encode

/-- The file with its entries row by row. -/
def inOrder : List UInt8 := header.encode ++ [⟨0, 0, 0⟩, ⟨0, 1, 192⟩].flatMap Entry.encode

theorem acceptable : Acceptable swapped :=
  { hasHeader := by decide +kernel
    isMagic := by decide +kernel
    supported := by decide +kernel
    imageWidth_ne_zero := by decide +kernel
    imageHeight_ne_zero := by decide +kernel
    tileWidth_ne_zero := by decide +kernel
    tileHeight_ne_zero := by decide +kernel
    tileCount_eq := by decide +kernel
    fileSize_eq := by decide +kernel
    hasTable := by decide +kernel
    inside := by decide +kernel
    distinct := by decide +kernel
    behindTable := by decide +kernel }

theorem rearranges : Rearranges inOrder swapped :=
  { sameHeader := by decide +kernel
    sameLength := by decide +kernel
    permuted := by decide +kernel }

end SwappedEntries

/-- Whichever of its two entries comes first, a file is opened with the same table. -/
theorem opened_iff_acceptable_swappedEntries :
    ∃ reader,
      (Reader.open "map" (.ok SwappedEntries.swapped)).value = .ok reader ∧
        reader.table.offset? ⟨1, 0⟩ = some 192 ∧
        (Reader.open "map" (.ok SwappedEntries.inOrder)).value =
          .ok { reader with bytes := SwappedEntries.inOrder } := by
  obtain ⟨opens, holds⟩ := opened_iff_acceptable "map" SwappedEntries.swapped
  obtain ⟨reader, opened⟩ := opens.mpr SwappedEntries.acceptable
  obtain ⟨_, _, offsets, rearranged⟩ := holds reader opened
  refine ⟨reader, opened, ?_, rearranged _ SwappedEntries.rearranges⟩
  exact offsets ⟨0, 1, 192⟩ (by decide +kernel)

end Texture
end DeepShadow
