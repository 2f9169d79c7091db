import DeepShadow.Log
import DeepShadow.Texture.Block
import DeepShadow.Texture.Table

/-!
# Reading deep textures

Opening a file reads its header and its table; tiles are read on request, in any
order.  The table tells where a block starts.  It ends where the next block
starts, and the last one at the end of the file.
-/

namespace DeepShadow
namespace Texture

/-- A file that was opened. -/
structure Reader where
  path : String
  header : Header
  grid : Grid
  table : Table grid
  bytes : List UInt8
  fileLength : Nat
  /-- The places of all blocks, in ascending order. -/
  blockStarts : List Nat

namespace Reader

/-- The file with the given bytes. -/
def ofBytes (path : String) (bytes : List UInt8) : Except ReadError Reader := do
  let (header, rest) ← Header.decode bytes
  let grid ← header.grid.mapError .format
  let fileLength := bytes.length
  if header.fileSize.toNat ≠ fileLength then
    throw (.format (.fileSize header.fileSize.toNat fileLength))
  let (entries, _) ← Entry.decodeMany header.tileCount.toNat rest
  let table ← (Table.ofEntries grid entries.toList header.dataStart).mapError .format
  let starts := (table.offsets.toList.filter (· ≠ 0)).map UInt32.toNat
  pure
    { path
      header
      grid
      table
      bytes
      fileLength
      blockStarts := starts.mergeSort }

/-- Opens a file, given what the system answered when its bytes were asked
for. -/
def «open»
    (path : String)
    (contents : Except FileError (List UInt8)) : Traced (Except ReadError Reader) := do
  match contents with
  | .error error => return .error (.file error)
  | .ok bytes =>
      match ofBytes path bytes with
      | .error error => return .error error
      | .ok reader =>
          let grid := reader.grid
          Traced.say .texture .info <|
            s!"opened {path} ({grid.imageWidth}x{grid.imageHeight}, {grid.tileCount} tiles, " ++
              s!"{reader.table.elidedCount} elided)"
          return .ok reader

/-- The number of channels of the file. -/
def channels (reader : Reader) : Nat := reader.header.channels.toNat

/-- The place behind the block at a given place. -/
def blockEnd (reader : Reader) (offset : Nat) : Nat :=
  (reader.blockStarts.find? fun start => offset < start).getD reader.fileLength

/-- Whether a tile of the grid has a block in the file. -/
def isStored (reader : Reader) (position : TilePosition) : Bool :=
  (reader.table.offset? position).getD 0 ≠ 0

/-- The tile at a position.  A tile that is not stored is fully visible. -/
def load (reader : Reader) (position : TilePosition) : Except ReadError Tile := do
  let placement ← (reader.grid.placement position).mapError .grid
  let offset := ((reader.table.offset? position).getD 0).toNat
  if offset = 0 then
    return Tile.visible placement reader.channels
  if reader.fileLength ≤ offset then
    throw (.format (.tileExceedsFile position))
  let size := reader.blockEnd offset - offset
  let block := (reader.bytes.drop offset).take size
  if block.length < size then
    throw (.format (.truncated .block))
  let (tile, _) ← Block.decode placement reader.channels size block
  return tile

/-- The tile that owns a pixel. -/
def tileForPixel (reader : Reader) (x y : Nat) : Except ReadError TilePosition :=
  (reader.grid.tileForPixel x y).mapError .grid

/-- Whether the answer to a request for a tile was read from a block. -/
def wasDecoded
    (reader : Reader)
    (position : TilePosition)
    (answer : Except ReadError Tile) : Bool :=
  match answer with
  | .ok _ => reader.isStored position
  | .error _ => false

/-- The line reported for the answer to a request for a tile. -/
def loadLines
    (reader : Reader)
    (position : TilePosition)
    (answer : Except ReadError Tile) : List LogLine :=
  match answer with
  | .ok tile =>
      if reader.isStored position then
        [⟨.texture, .debug,
          s!"decoded tile ({position.row}, {position.column}) from {reader.path}, " ++
            s!"{tile.nodeCount} nodes"⟩]
      else []
  | .error _ => []

end Reader
end Texture
end DeepShadow
