import DeepShadow.Grid.TileSet
import DeepShadow.Texture.Header

/-!
# The tile table

Behind the header follows one entry for each tile, with the row and column of
the tile and the place of its block in the file.  A tile whose place is zero is
not stored, because all its pixels are fully visible.
-/

namespace DeepShadow
namespace Texture

/-- One entry of the table. -/
structure Entry where
  row : UInt32
  column : UInt32
  offset : UInt32
deriving DecidableEq, Inhabited, Repr

namespace Entry

/-- The tile of the entry. -/
def position (entry : Entry) : TilePosition := ⟨entry.column.toNat, entry.row.toNat⟩

/-- The bytes of an entry. -/
def encode (entry : Entry) : List UInt8 := wordsBytes [entry.row, entry.column, entry.offset]

/-- Reads an entry, and gives the bytes behind it. -/
def decode (bytes : List UInt8) : Except ReadError (Entry × List UInt8) :=
  match takeWords 3 bytes with
  | none => .error (.format (.truncated .table))
  | some (words, rest) => .ok (⟨words.getD 0 0, words.getD 1 0, words.getD 2 0⟩, rest)

/-- Reads `count` entries behind those read before. -/
def decodeOnto (entries : Array Entry) :
    Nat -> List UInt8 -> Except ReadError (Array Entry × List UInt8)
  | 0, bytes => .ok (entries, bytes)
  | count + 1, bytes =>
      match decode bytes with
      | .error error => .error error
      | .ok (entry, rest) => decodeOnto (entries.push entry) count rest

/-- Reads `count` entries, and gives the bytes behind them. -/
def decodeMany (count : Nat) (bytes : List UInt8) :
    Except ReadError (Array Entry × List UInt8) :=
  decodeOnto #[] count bytes

end Entry

/-- The place of the block of each tile, by the number of the tile. -/
structure Table (grid : Grid) where
  offsets : TileMap grid UInt32
deriving DecidableEq

namespace Table

/-- The table in which no tile is stored. -/
def empty (grid : Grid) : Table grid := ⟨TileMap.constant grid 0⟩

/-- The place of a tile's block; none outside the grid. -/
def offset? {grid : Grid} (table : Table grid) (position : TilePosition) : Option UInt32 :=
  match grid.index position with
  | .ok index => some (table.offsets.get index)
  | .error _ => none

/-- Records the place of a tile's block. -/
def set
    {grid : Grid}
    (table : Table grid)
    (position : TilePosition)
    (offset : UInt32) : Table grid :=
  match grid.index position with
  | .ok index => ⟨table.offsets.set index offset⟩
  | .error _ => table

/-- Enters the next of the entries of a table that starts in front of
`dataStart`, where the tiles in `seen` were entered before. -/
def enter
    {grid : Grid}
    (dataStart : Nat)
    (state : TileSet grid × Table grid)
    (entry : Entry) : Except FormatError (TileSet grid × Table grid) :=
  let (seen, table) := state
  match seen.insert entry.position with
  | .error _ => .error (.entryOutside entry.row.toNat entry.column.toNat)
  | .ok (true, _) => .error (.entryTwice entry.row.toNat entry.column.toNat)
  | .ok (false, seen) =>
      if entry.offset ≠ 0 ∧ entry.offset.toNat < dataStart then
        .error (.offsetInsideHeader entry.offset.toNat)
      else .ok (seen, table.set entry.position entry.offset)

/-- The table with the given entries, of which no two may be for the same tile
and none may point in front of `dataStart`. -/
def ofEntries
    (grid : Grid)
    (entries : List Entry)
    (dataStart : Nat) : Except FormatError (Table grid) := do
  let (_, table) ← entries.foldlM (enter dataStart) (TileSet.empty grid, empty grid)
  return table

/-- The number of tiles that are not stored. -/
def elidedCount {grid : Grid} (table : Table grid) : Nat := table.offsets.toList.count 0

/-- All entries, row by row. -/
def entries {grid : Grid} (table : Table grid) : List Entry :=
  grid.positions.map fun position =>
    { row := UInt32.ofNat position.row
      column := UInt32.ofNat position.column
      offset := (table.offset? position).getD 0 }

/-- The bytes of a table. -/
def encode {grid : Grid} (table : Table grid) : List UInt8 :=
  table.entries.flatMap Entry.encode

/-- The number of bytes of the table of a grid. -/
def encodedSize (grid : Grid) : Nat := grid.tileCount * entrySize

end Table
end Texture
end DeepShadow
