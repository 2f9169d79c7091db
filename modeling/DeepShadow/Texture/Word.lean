/-!
# Little-endian words

Files consist of 32-bit words, each stored as four bytes from the least to the
most significant.
-/

namespace DeepShadow
namespace Texture

/-- The four bytes of a word. -/
def wordBytes (word : UInt32) : List UInt8 :=
  [ UInt8.ofNat word.toNat
  , UInt8.ofNat (word.toNat / 0x100)
  , UInt8.ofNat (word.toNat / 0x10000)
  , UInt8.ofNat (word.toNat / 0x1000000) ]

/-- The word with the given bytes. -/
def wordOfBytes (byte0 byte1 byte2 byte3 : UInt8) : UInt32 :=
  UInt32.ofNat
    (byte0.toNat + byte1.toNat * 0x100 + byte2.toNat * 0x10000 + byte3.toNat * 0x1000000)

/-- The bytes of several words. -/
def wordsBytes (words : List UInt32) : List UInt8 := words.flatMap wordBytes

/-- Appends the first `count` words of some bytes, and gives the bytes behind
them; none where there are too few bytes. -/
def takeWordsOnto (words : Array UInt32) :
    Nat -> List UInt8 -> Option (Array UInt32 × List UInt8)
  | 0, bytes => some (words, bytes)
  | count + 1, byte0 :: byte1 :: byte2 :: byte3 :: bytes =>
      takeWordsOnto (words.push (wordOfBytes byte0 byte1 byte2 byte3)) count bytes
  | _ + 1, _ => none

/-- The first `count` words of some bytes, and the bytes behind them. -/
def takeWords (count : Nat) (bytes : List UInt8) : Option (Array UInt32 × List UInt8) :=
  takeWordsOnto #[] count bytes

@[simp] theorem length_wordBytes (word : UInt32) : (wordBytes word).length = 4 := rfl

/-- A word is read back from its bytes. -/
@[simp] theorem wordOfBytes_wordBytes (word : UInt32) :
    wordOfBytes
      (UInt8.ofNat word.toNat)
      (UInt8.ofNat (word.toNat / 0x100))
      (UInt8.ofNat (word.toNat / 0x10000))
      (UInt8.ofNat (word.toNat / 0x1000000)) = word := by
  apply UInt32.toNat_inj.mp
  have bound := word.toNat_lt
  simp only [wordOfBytes, UInt32.toNat_ofNat', UInt8.toNat_ofNat']
  omega

end Texture
end DeepShadow
