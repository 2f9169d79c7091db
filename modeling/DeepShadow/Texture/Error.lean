import DeepShadow.FileError
import DeepShadow.Tile

/-!
# Errors of deep texture files

Why a file is not a deep texture, why a file cannot be written with the settings
asked for, and why a tile is not taken.  An error that wraps another one lists
it among its `causes`.
-/

namespace DeepShadow
namespace Texture

/-- A part of a file in which the file can end too early. -/
inductive Part
  | header
  | table
  | block
  | offsets
  | values
deriving DecidableEq, Repr

/-- Why bytes are not a deep texture. -/
inductive FormatError
  | badMagic
  | truncated (part : Part)
  /-- The sizes in the header make no grid. -/
  | noGrid
  | unsupportedChannels (channels : Nat)
  | tileCount (expected actual : Nat)
  | fileSize (declared actual : Nat)
  | entryOutside (row column : Nat)
  | entryTwice (row column : Nat)
  | offsetInsideHeader (offset : Nat)
  | tileExceedsFile (position : TilePosition)
  | invalidTile (error : TileError)
deriving DecidableEq, Repr

/-- Why a tile cannot be read. -/
inductive ReadError
  | file (error : FileError)
  | format (error : FormatError)
  | grid (error : GridError)
deriving DecidableEq, Repr

/-- Why no file can be written with some settings. -/
inductive SettingsError
  | emptyBucket
  | unsupportedChannels (channels : Nat)
  | bucketsInTile (tileWidth tileHeight bucketWidth bucketHeight : Nat)
  | grid (error : GridError)
deriving DecidableEq, Repr

/-- What a tile has that does not fit the file. -/
inductive Mismatch
  | placement
  | channels
deriving DecidableEq, Repr

/-- Why something cannot be written. -/
inductive WriteError
  | settings (error : SettingsError)
  | creation (error : FileError)
  | mismatch (position : TilePosition) (reason : Mismatch)
  | outsideGrid (position : TilePosition)
  | duplicate (position : TilePosition)
  | fileTooLarge
  | finished
deriving DecidableEq, Repr

namespace Part

/-- The name of the part in messages. -/
def name : Part -> String
  | header => "header"
  | table => "tile table"
  | block => "tile block"
  | offsets => "tile offsets"
  | values => "tile nodes"

end Part

namespace FormatError

/-- The text shown for an error. -/
def message : FormatError -> String
  | badMagic => "not a deep texture file (bad magic)"
  | truncated part => s!"file truncated in {part.name}"
  | noGrid => "header has a zero image or tile dimension"
  | unsupportedChannels channels => s!"unsupported channel count {channels}"
  | tileCount expected actual =>
      s!"header declares {actual} tiles but the image needs {expected}"
  | fileSize declared actual =>
      s!"header file size {declared} does not match actual size {actual}"
  | entryOutside row column => s!"table entry for tile ({row}, {column}) is outside the grid"
  | entryTwice row column => s!"tile ({row}, {column}) appears twice in the table"
  | offsetInsideHeader offset => s!"tile offset {offset} points into the header or table"
  | tileExceedsFile position =>
      s!"tile ({position.row}, {position.column}) extends past the end of the file"
  | invalidTile error => s!"invalid tile data: {error.message}"

end FormatError

namespace ReadError

/-- The text shown for an error. -/
def message : ReadError -> String
  | file error => s!"i/o error: {error.message}"
  | format error => s!"format error: {error.message}"
  | grid error => error.message

/-- The texts of the errors behind this one. -/
def causes : ReadError -> List String
  | file error => [error.message]
  | format error => [error.message]
  | grid error => [error.message]

end ReadError

namespace SettingsError

/-- The text shown for an error. -/
def message : SettingsError -> String
  | emptyBucket => "image, tile and bucket dimensions must be non-zero"
  | unsupportedChannels channels => s!"unsupported channel count {channels}"
  | bucketsInTile tileWidth tileHeight bucketWidth bucketHeight =>
      s!"tile size {tileWidth}x{tileHeight} is not a multiple of bucket size " ++
        s!"{bucketWidth}x{bucketHeight}"
  | grid error => error.message

end SettingsError

namespace Mismatch

/-- The text shown for a mismatch. -/
def message : Mismatch -> String
  | placement => "tile geometry does not match the image grid"
  | channels => "channel count differs from the file"

end Mismatch

namespace WriteError

/-- The text shown for an error. -/
def message : WriteError -> String
  | settings error => s!"invalid writer config: {error.message}"
  | creation error => s!"i/o error while creating deep texture file: {error.message}"
  | mismatch position reason =>
      s!"tile ({position.row}, {position.column}) rejected: {reason.message}"
  | outsideGrid position => s!"tile ({position.row}, {position.column}) is outside the image"
  | duplicate position =>
      s!"tile ({position.row}, {position.column}) was already submitted"
  | fileTooLarge => "deep texture exceeds the 32-bit offset range"
  | finished => "writer already finished"

/-- The texts of the errors behind this one. -/
def causes : WriteError -> List String
  | settings error => [error.message]
  | creation error => [error.message]
  | _ => []

end WriteError
end Texture
end DeepShadow
