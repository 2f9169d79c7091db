import DeepShadow.Log
import DeepShadow.Texture.Block
import DeepShadow.Texture.OutputFile
import DeepShadow.Texture.Settings
import DeepShadow.Texture.Table

/-!
# Writing deep textures

A writer takes the tiles of an image in any order, each at most once.  The file
starts with a header without sizes and with room for the table.  The block of a
tile is appended when the tile arrives; a tile whose pixels have one node each is
not stored.  Finishing writes the table into its room and the sizes over those of
the header.  A writer that is given up unfinished is finished on the way, so that
the file can always be read.
-/

namespace DeepShadow
namespace Texture

/-- What was written. -/
structure Summary where
  tilesWritten : Nat
  tilesElided : Nat
  dataSize : Nat
  fileSize : Nat
deriving DecidableEq, Repr

/-- A file that is being written. -/
structure Writer where
  path : String
  grid : Grid
  header : Header
  table : Table grid
  submitted : TileSet grid
  file : OutputFile
  /-- The number of bytes written so far. -/
  fileSize : Nat
  /-- The number of bytes of the blocks. -/
  dataSize : Nat
  tilesWritten : Nat
  tilesElided : Nat
  /-- Whether no more tiles are taken. -/
  isFinished : Bool

namespace Writer

/-- Starts a file, unless the system refuses to create it. -/
def create
    (path : String)
    (settings : Settings)
    (refusal : Option FileError) : Traced (Except WriteError Writer) := do
  match settings.grid with
  | .error error => return .error (.settings error)
  | .ok grid =>
      if let some error := refusal then
        return .error (.creation error)
      Traced.say .texture .info <|
        s!"writing {path} ({grid.imageWidth}x{grid.imageHeight}, {grid.tileCount} tiles " ++
          s!"of {grid.tileWidth}x{grid.tileHeight}, {settings.channels.toNat} channels)"
      let header := Header.ofGrid grid settings.channels settings.transforms
      let room := List.replicate (Table.encodedSize grid) 0
      return .ok
        { path
          grid
          header
          table := Table.empty grid
          submitted := TileSet.empty grid
          file := (OutputFile.ofBytes header.encode).append room
          fileSize := headerSize + Table.encodedSize grid
          dataSize := 0
          tilesWritten := 0
          tilesElided := 0
          isFinished := false }

/-- The number of channels of the file. -/
def channels (writer : Writer) : Nat := writer.header.channels.toNat

/-- Records that a tile has arrived. -/
def markSubmitted
    (writer : Writer)
    (position : TilePosition) : Except WriteError (TileSet writer.grid) :=
  match writer.submitted.insert position with
  | .ok (false, submitted) => .ok submitted
  | .ok (true, _) => .error (.duplicate position)
  | .error _ => .error (.outsideGrid position)

/-- Takes a tile whose pixels are all fully visible. -/
def submitNeglectable
    (writer : Writer)
    (position : TilePosition) : Traced (Except WriteError Unit × Writer) := do
  if writer.isFinished then
    return (.error .finished, writer)
  match writer.markSubmitted position with
  | .error error => return (.error error, writer)
  | .ok submitted =>
      Traced.say .texture .debug s!"tile ({position.row}, {position.column}) elided"
      return (.ok (),
        { writer with
          submitted
          table := writer.table.set position 0
          tilesElided := writer.tilesElided + 1 })

/-- Takes a tile of the image. -/
def submitTile
    (writer : Writer)
    (tile : Tile) : Traced (Except WriteError Unit × Writer) := do
  let position := tile.placement.position
  let refuse (error : WriteError) : Traced (Except WriteError Unit × Writer) :=
    return (.error error, writer)
  if writer.isFinished then
    return ← refuse .finished
  match writer.grid.placement position with
  | .error _ => refuse (.outsideGrid position)
  | .ok expected =>
      if tile.placement ≠ expected then
        return ← refuse (.mismatch position .placement)
      if tile.channels ≠ writer.channels then
        return ← refuse (.mismatch position .channels)
      if tile.isNeglectable then
        return ← writer.submitNeglectable position
      let offset := writer.fileSize
      let size := Block.size tile
      if 0xffffffff < offset + size then
        return ← refuse .fileTooLarge
      match writer.markSubmitted position with
      | .error error => refuse error
      | .ok submitted =>
          Traced.say .texture .debug <|
            s!"tile ({position.row}, {position.column}) written at {offset}, " ++
              s!"{tile.nodeCount} nodes"
          return (.ok (),
            { writer with
              submitted
              table := writer.table.set position (UInt32.ofNat offset)
              file := writer.file.append (Block.encode tile)
              fileSize := offset + size
              dataSize := writer.dataSize + size
              tilesWritten := writer.tilesWritten + 1 })

/-- Writes the table and the sizes.  Tiles that never arrived count as not
stored. -/
def finish (writer : Writer) : Traced (Except WriteError Summary × Writer) := do
  if writer.isFinished then
    return (.error .finished, writer)
  let missing := writer.submitted.missing.length
  if missing ≠ 0 then
    Traced.say .texture .warning <|
      s!"{missing} of {writer.grid.tileCount} tiles never arrived in {writer.path}; " ++
        "recording them as fully visible"
  let writer :=
    { writer with
      tilesElided := writer.tilesElided + missing
      isFinished := true }
  if 0xffffffff < writer.fileSize then
    return (.error .fileTooLarge, writer)
  let summary : Summary :=
    { tilesWritten := writer.tilesWritten
      tilesElided := writer.tilesElided
      dataSize := writer.dataSize
      fileSize := writer.fileSize }
  Traced.say .texture .info <|
    s!"finished {writer.path}: {summary.tilesWritten} tiles written, " ++
      s!"{summary.tilesElided} elided, {summary.fileSize} bytes"
  let fileSize := UInt32.ofNat writer.fileSize
  let dataSize := UInt32.ofNat writer.dataSize
  let file := writer.file.overwrite headerSize writer.table.encode
  let file := file.overwriteWord fileSizePlace fileSize
  return (.ok summary,
    { writer with
      file := file.overwriteWord dataSizePlace dataSize
      header := { writer.header with fileSize, dataSize } })

/-- Gives the writer up, and finishes the file where this was not done. -/
def release (writer : Writer) : Traced Writer := do
  if writer.isFinished then
    return writer
  let (result, writer) ← writer.finish
  if let .error error := result then
    Traced.say .texture .warning
      s!"failed to finish {writer.path} on drop: {error.message}"
  return writer

/-- The bytes of the file. -/
def contents (writer : Writer) : List UInt8 := writer.file.contents

end Writer
end Texture
end DeepShadow
