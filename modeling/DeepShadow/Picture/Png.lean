import DeepShadow.Picture.Basic

/-!
# PNG files

The file of a picture: a signature and three chunks.  The samples are stored
without compression, in blocks of limited size.
-/

namespace DeepShadow
namespace Png

/-- The four bytes of a word, the most significant one first. -/
def wordBytes (word : Nat) : List UInt8 :=
  [ UInt8.ofNat (word / 0x1000000)
  , UInt8.ofNat (word / 0x10000)
  , UInt8.ofNat (word / 0x100)
  , UInt8.ofNat word ]

/-- One step of the cyclic redundancy check. -/
def checkBit (register : UInt32) : UInt32 :=
  if register &&& 1 = 1 then (register >>> 1) ^^^ 0xedb88320 else register >>> 1

/-- The cyclic redundancy check with one more byte. -/
def checkByte (register : UInt32) (byte : UInt8) : UInt32 :=
  (List.range 8).foldl (fun register _ => checkBit register) (register ^^^ byte.toUInt32)

/-- The cyclic redundancy check of some bytes. -/
def cyclicCheck (bytes : List UInt8) : UInt32 :=
  (bytes.foldl checkByte 0xffffffff) ^^^ 0xffffffff

/-- The sum that closes the samples: of the bytes, and of the sums up to each
byte, both modulo 65521. -/
def closingSum (bytes : List UInt8) : Nat :=
  let (sum, sums) := bytes.foldl
    (fun (sum, sums) byte =>
      let sum := (sum + byte.toNat) % 65521
      (sum, (sums + sum) % 65521))
    (1, 0)
  sums * 0x10000 + sum

/-- A chunk with its length, its name and its check. -/
def chunk (name : String) (data : List UInt8) : List UInt8 :=
  let body := name.toList.map (fun char => UInt8.ofNat char.toNat) ++ data
  wordBytes data.length ++ body ++ wordBytes (cyclicCheck body).toNat

/-- The greatest number of bytes of a stored block. -/
def blockLimit : Nat := 65535

/-- Stored blocks that hold some bytes, in no more than `count + 1` blocks. -/
def storedBlocks : (count : Nat) -> List UInt8 -> List UInt8
  | 0, bytes => block true bytes
  | count + 1, bytes =>
      let rest := bytes.drop blockLimit
      if rest.isEmpty then block true bytes
      else block false (bytes.take blockLimit) ++ storedBlocks count rest
where
  /-- One stored block. -/
  block (isLast : Bool) (bytes : List UInt8) : List UInt8 :=
    let length := bytes.length
    let inverse := 65535 - length
    [ if isLast then 1 else 0
    , UInt8.ofNat length, UInt8.ofNat (length / 256)
    , UInt8.ofNat inverse, UInt8.ofNat (inverse / 256) ] ++ bytes

/-- The rows of samples, each behind a byte that says that it is not filtered. -/
def rows (rowLength : Nat) : (count : Nat) -> List UInt8 -> List UInt8
  | 0, _ => []
  | count + 1, samples =>
      0 :: samples.take rowLength ++ rows rowLength count (samples.drop rowLength)

/-- The bytes of the file of a picture. -/
def encode (picture : Picture) : List UInt8 :=
  let (colorType, sampleCount) : UInt8 × Nat := match picture.layout with
    | .gray => (0, 1)
    | .redGreenBlue => (2, 3)
  let data := rows (picture.width * sampleCount) picture.height picture.samples
  [0x89, 0x50, 0x4e, 0x47, 0x0d, 0x0a, 0x1a, 0x0a] ++
    chunk "IHDR"
      (wordBytes picture.width ++ wordBytes picture.height ++ [8, colorType, 0, 0, 0]) ++
    chunk "IDAT"
      ([0x78, 0x01] ++ storedBlocks (data.length / blockLimit) data ++
        wordBytes (closingSum data)) ++
    chunk "IEND" []

end Png
end DeepShadow
