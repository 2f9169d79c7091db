import DeepShadow.Texture.Error
import DeepShadow.Texture.Word

/-!
# The header of a deep texture

A file starts with eight magic bytes, eight words and two matrices.  The words
give the sizes of the file, the image, the data and the tiles, and the number of
channels and tiles.  The size of the file and of its data are zero until the
file is finished.
-/

namespace DeepShadow
namespace Texture

/-- The bytes with which every file starts. -/
def magic : List UInt8 := [0x89, 0x41, 0x71, 0x44, 0x0b, 0x0a, 0x16, 0x0a]

/-- The number of bytes of a header. -/
def headerSize : Nat := 168

/-- The place of the size of the file. -/
def fileSizePlace : Nat := 8

/-- The place of the size of the data. -/
def dataSizePlace : Nat := 24

/-- The number of bytes of an entry of the tile table. -/
def entrySize : Nat := 12

/-- The matrices that the renderer recorded for the map, row by row. -/
structure Transforms where
  worldToScreen : Vector Single 16
  worldToCamera : Vector Single 16
deriving DecidableEq, Repr

namespace Transforms

/-- The matrix that changes nothing. -/
def identityMatrix : Vector Single 16 :=
  Vector.ofFn fun index => if index.val % 5 = 0 then Single.one else Single.zero

/-- Both matrices change nothing. -/
def identity : Transforms := ⟨identityMatrix, identityMatrix⟩

end Transforms

/-- The fields of a header. -/
structure Header where
  fileSize : UInt32
  imageWidth : UInt32
  imageHeight : UInt32
  channels : UInt32
  dataSize : UInt32
  tileWidth : UInt32
  tileHeight : UInt32
  tileCount : UInt32
  transforms : Transforms
deriving DecidableEq, Repr

namespace Header

/-- The header of a file that is not finished. -/
def ofGrid (grid : Grid) (channels : UInt32) (transforms : Transforms) : Header :=
  { fileSize := 0
    imageWidth := UInt32.ofNat grid.imageWidth
    imageHeight := UInt32.ofNat grid.imageHeight
    channels
    dataSize := 0
    tileWidth := UInt32.ofNat grid.tileWidth
    tileHeight := UInt32.ofNat grid.tileHeight
    tileCount := UInt32.ofNat grid.tileCount
    transforms }

/-- The grid of the image, where the fields agree with each other. -/
def grid (header : Header) : Except FormatError Grid :=
  if !supportedChannels header.channels.toNat then
    .error (.unsupportedChannels header.channels.toNat)
  else
    match Grid.ofSizes header.imageWidth.toNat header.imageHeight.toNat
      header.tileWidth.toNat header.tileHeight.toNat with
    | .error _ => .error .noGrid
    | .ok grid =>
        if grid.tileCount ≠ header.tileCount.toNat then
          .error (.tileCount grid.tileCount header.tileCount.toNat)
        else .ok grid

/-- The number of bytes in front of the first tile: the header and the table. -/
def dataStart (header : Header) : Nat := headerSize + header.tileCount.toNat * entrySize

/-- The words behind the magic bytes. -/
def words (header : Header) : List UInt32 :=
  [ header.fileSize, header.imageWidth, header.imageHeight, header.channels
  , header.dataSize, header.tileWidth, header.tileHeight, header.tileCount ] ++
    header.transforms.worldToScreen.toList.map Single.bits ++
    header.transforms.worldToCamera.toList.map Single.bits

/-- The bytes of a header. -/
def encode (header : Header) : List UInt8 := magic ++ wordsBytes header.words

/-- The matrix with the given words. -/
def matrix (words : Array UInt32) (first : Nat) : Vector Single 16 :=
  Vector.ofFn fun index => ⟨words.getD (first + index) 0⟩

/-- Reads a header, and gives the bytes behind it.  Of its contents only the
magic bytes are looked at, and these before all else. -/
def decode (bytes : List UInt8) : Except ReadError (Header × List UInt8) :=
  if bytes.length < magic.length then .error (.format (.truncated .header))
  else if bytes.take magic.length ≠ magic then .error (.format .badMagic)
  else
    match takeWords 40 (bytes.drop magic.length) with
    | none => .error (.format (.truncated .header))
    | some (words, rest) =>
        .ok
          ( { fileSize := words.getD 0 0
              imageWidth := words.getD 1 0
              imageHeight := words.getD 2 0
              channels := words.getD 3 0
              dataSize := words.getD 4 0
              tileWidth := words.getD 5 0
              tileHeight := words.getD 6 0
              tileCount := words.getD 7 0
              transforms := ⟨matrix words 8, matrix words 24⟩ }
          , rest )

end Header
end Texture
end DeepShadow
