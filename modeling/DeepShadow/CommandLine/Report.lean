import DeepShadow.Json
import DeepShadow.Texture.Reader

/-!
# Reports

What the commands show: why a command failed, and the description of a deep
texture as text or as JSON.
-/

namespace DeepShadow
namespace CommandLine

/-- Why a command failed, with the errors behind it from the outermost inwards. -/
structure Failure where
  text : String
  causes : List String
deriving DecidableEq, Repr

namespace Failure

/-- The lines that show the causes.  Several causes are numbered. -/
def causeLines : List String -> List String
  | [] => []
  | [cause] => ["", "Caused by:", s!"    {cause}"]
  | causes =>
      "" :: "Caused by:" :: causes.zipIdx.map fun (cause, index) => s!"    {index}: {cause}"

/-- The lines that show a failure. -/
def lines (failure : Failure) : List String :=
  s!"Error: {failure.text}" :: causeLines failure.causes

end Failure

/-- The description of a deep texture. -/
structure TextureReport where
  file : String
  header : Texture.Header
  elidedTiles : Nat
  /-- The entries of the tile table, where they are wanted. -/
  entries : Option (List Texture.Entry)

namespace TextureReport

/-- Describes an opened file. -/
def ofReader (reader : Texture.Reader) (withTable : Bool) : TextureReport :=
  { file := reader.path
    header := reader.header
    elidedTiles := reader.table.elidedCount
    entries := if withTable then some reader.table.entries else none }

/-- The description as lines of text. -/
def lines (report : TextureReport) : List String :=
  let header := report.header
  [ report.file
  , s!"  image {header.imageWidth}x{header.imageHeight}, {header.channels} channel(s), " ++
      s!"{header.fileSize} bytes"
  , s!"  tiles {header.tileWidth}x{header.tileHeight}, {header.tileCount} total, " ++
      s!"{report.elidedTiles} elided, {header.dataSize} data bytes" ] ++
    (report.entries.getD []).map fun entry =>
      s!"  tile row {entry.row} col {entry.column} -> {entry.offset}"

/-- An entry of the tile table as JSON. -/
def entryJson (entry : Texture.Entry) : Json :=
  .object
    [ ("tile_row", .natural entry.row.toNat)
    , ("tile_col", .natural entry.column.toNat)
    , ("file_offset", .natural entry.offset.toNat) ]

/-- A matrix as JSON. -/
def matrixJson (matrix : Vector Single 16) : Json := .list (matrix.toList.map .single)

/-- The fields of the description that are always there. -/
def fields (report : TextureReport) : List (String × Json) :=
  let header := report.header
  [ ("file", .text report.file)
  , ("file_size", .natural header.fileSize.toNat)
  , ("image_width", .natural header.imageWidth.toNat)
  , ("image_height", .natural header.imageHeight.toNat)
  , ("channels", .natural header.channels.toNat)
  , ("tile_width", .natural header.tileWidth.toNat)
  , ("tile_height", .natural header.tileHeight.toNat)
  , ("tile_count", .natural header.tileCount.toNat)
  , ("data_size", .natural header.dataSize.toNat)
  , ("elided_tiles", .natural report.elidedTiles)
  , ("world_to_screen", matrixJson header.transforms.worldToScreen)
  , ("world_to_camera", matrixJson header.transforms.worldToCamera) ]

/-- The description as JSON. -/
def toJson (report : TextureReport) : Json :=
  match report.entries with
  | none => .object report.fields
  | some entries => .object (report.fields ++ [("table", .list (entries.map entryJson))])

end TextureReport
end CommandLine
end DeepShadow
