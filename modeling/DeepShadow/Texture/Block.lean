import DeepShadow.Texture.Error
import DeepShadow.Texture.Word

/-!
# Tile blocks

A stored tile is a block of words: its offsets and then its values.  How many
offsets there are follows from the size of the tile, and the last one tells how
many values follow.
-/

namespace DeepShadow
namespace Texture
namespace Block

/-- The number of bytes of a tile's block. -/
def size (tile : Tile) : Nat := (tile.offsets.size + tile.values.size) * 4

/-- The bytes of a tile's block. -/
def encode (tile : Tile) : List UInt8 :=
  wordsBytes tile.offsets.toList ++ wordsBytes (tile.values.toList.map Single.bits)

/-- Reads a block that may take up to `available` bytes, and gives the bytes
behind it.  The bound is looked at before anything is read, so that a wrong
count cannot ask for more than there is.

The bytes of the offsets are counted without a bound.  A program that counts them in
words of 64 bits does not find a tile of `2 ^ 62` pixels or more too large, and stops when
no array has room for its offsets; here such a tile exceeds the file. -/
def decode
    (placement : Placement)
    (channels available : Nat)
    (bytes : List UInt8) : Except ReadError (Tile × List UInt8) :=
  let exceeds := ReadError.format (.tileExceedsFile placement.position)
  let offsetCount := placement.pixelCount + 1
  if available < offsetCount * 4 then .error exceeds
  else match takeWords offsetCount bytes with
    | none => .error (.format (.truncated .offsets))
    | some (offsets, rest) =>
        let valueCount := (offsets.getD placement.pixelCount 0).toNat * (channels + 1)
        if available < offsetCount * 4 + valueCount * 4 then .error exceeds
        else match takeWords valueCount rest with
          | none => .error (.format (.truncated .values))
          | some (values, rest) =>
              match Tile.ofParts placement channels offsets (values.map Single.mk) with
              | .error error => .error (.format (.invalidTile error))
              | .ok tile => .ok (tile, rest)

end Block
end Texture
end DeepShadow
