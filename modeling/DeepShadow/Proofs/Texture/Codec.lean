import DeepShadow.Texture.Block
import DeepShadow.Texture.Table
import DeepShadow.Proofs.Tile.WellFormed

/-!
# Reading back words, headers, entries and blocks

What was encoded is decoded to the same value, whatever bytes follow it, and the
bytes that follow are what is left.
-/

namespace DeepShadow
namespace Texture

/-! ## Words -/

@[simp] theorem length_wordsBytes (words : List UInt32) :
    (wordsBytes words).length = 4 * words.length := by
  induction words with
  | nil => rfl
  | cons word words inductionHypothesis =>
      unfold wordsBytes at inductionHypothesis ⊢
      rw [List.flatMap_cons, List.length_append, inductionHypothesis, length_wordBytes,
        List.length_cons]
      omega

theorem takeWordsOnto_wordsBytes
    (taken : Array UInt32)
    (words : List UInt32)
    (rest : List UInt8) :
    takeWordsOnto taken words.length (wordsBytes words ++ rest) =
      some (taken ++ words.toArray, rest) := by
  induction words generalizing taken with
  | nil => simp [wordsBytes, takeWordsOnto]
  | cons word words inductionHypothesis =>
      have split : wordsBytes (word :: words) ++ rest =
          UInt8.ofNat word.toNat :: UInt8.ofNat (word.toNat / 0x100) ::
            UInt8.ofNat (word.toNat / 0x10000) :: UInt8.ofNat (word.toNat / 0x1000000) ::
              (wordsBytes words ++ rest) := rfl
      rw [split, List.length_cons, takeWordsOnto, wordOfBytes_wordBytes, inductionHypothesis]
      simp

/-- Words are read back from their bytes. -/
theorem takeWords_wordsBytes
    (words : List UInt32)
    (rest : List UInt8) :
    takeWords words.length (wordsBytes words ++ rest) = some (words.toArray, rest) := by
  unfold takeWords
  rw [takeWordsOnto_wordsBytes]
  simp

/-! ## Headers -/

namespace Header

@[simp] theorem length_words (header : Header) : header.words.length = 40 := by
  simp [words]

@[simp] theorem length_encode (header : Header) : header.encode.length = headerSize := by
  rw [encode, List.length_append, length_wordsBytes, length_words]
  rfl

/-- A matrix is read back from where its words are. -/
theorem matrix_append
    (before : List UInt32)
    (values : Vector Single 16)
    (behind : List UInt32) :
    matrix (before ++ values.toList.map Single.bits ++ behind).toArray before.length = values := by
  ext index bound
  unfold matrix
  rw [Vector.getElem_ofFn]
  have inValues : index < (values.toList.map Single.bits).length := by simpa using bound
  rw [Array.getD_eq_getD_getElem?, List.getElem?_toArray, List.append_assoc,
    List.getElem?_append_right (Nat.le_add_right _ _), Nat.add_sub_cancel_left,
    List.getElem?_append_left inValues, List.getElem?_eq_getElem inValues]
  simp

/-- A header is read back from its bytes. -/
theorem decode_encode
    (header : Header)
    (rest : List UInt8) :
    decode (header.encode ++ rest) = .ok (header, rest) := by
  have longEnough : ¬(header.encode ++ rest).length < magic.length := by
    rw [List.length_append, length_encode]
    have size : magic.length ≤ headerSize := by decide
    omega
  have start : header.encode ++ rest = magic ++ (wordsBytes header.words ++ rest) := by
    rw [encode, List.append_assoc]
  unfold decode
  rw [if_neg longEnough, start, List.take_left, if_neg (fun different => different rfl),
    List.drop_left, ← length_words header, takeWords_wordsBytes]
  have screen : matrix header.words.toArray 8 = header.transforms.worldToScreen :=
    matrix_append _ _ _
  have camera : matrix header.words.toArray 24 = header.transforms.worldToCamera := by
    have placed := matrix_append
      ([header.fileSize, header.imageWidth, header.imageHeight, header.channels,
        header.dataSize, header.tileWidth, header.tileHeight, header.tileCount] ++
          header.transforms.worldToScreen.toList.map Single.bits)
      header.transforms.worldToCamera []
    simpa [words] using placed
  simp only [screen, camera]
  rfl

end Header

/-! ## Entries -/

namespace Entry

@[simp] theorem length_encode (entry : Entry) : entry.encode.length = entrySize := rfl

/-- An entry is read back from its bytes. -/
theorem decode_encode
    (entry : Entry)
    (rest : List UInt8) :
    decode (entry.encode ++ rest) = .ok (entry, rest) := by
  unfold decode encode
  rw [show (3 : Nat) = [entry.row, entry.column, entry.offset].length from rfl,
    takeWords_wordsBytes]
  rfl

theorem decodeOnto_flatMap_encode
    (taken : Array Entry)
    (entries : List Entry)
    (rest : List UInt8) :
    decodeOnto taken entries.length (entries.flatMap encode ++ rest) =
      .ok (taken ++ entries.toArray, rest) := by
  induction entries generalizing taken with
  | nil => simp [decodeOnto]
  | cons entry entries inductionHypothesis =>
      rw [List.length_cons, decodeOnto, List.flatMap_cons, List.append_assoc, decode_encode]
      simp only
      rw [inductionHypothesis]
      simp

/-- Entries are read back from their bytes. -/
theorem decodeMany_flatMap_encode
    (entries : List Entry)
    (rest : List UInt8) :
    decodeMany entries.length (entries.flatMap encode ++ rest) =
      .ok (entries.toArray, rest) := by
  unfold decodeMany
  rw [decodeOnto_flatMap_encode]
  simp

@[simp] theorem length_flatMap_encode (entries : List Entry) :
    (entries.flatMap encode).length = entries.length * entrySize := by
  induction entries with
  | nil => simp
  | cons entry entries inductionHypothesis =>
      rw [List.flatMap_cons, List.length_append, inductionHypothesis, length_encode,
        List.length_cons, Nat.succ_mul]
      exact Nat.add_comm _ _

end Entry

/-! ## Blocks -/

namespace Block

@[simp] theorem length_encode (tile : Tile) : (encode tile).length = size tile := by
  rw [encode, List.length_append, length_wordsBytes, length_wordsBytes, List.length_map]
  simp only [Array.length_toList, size]
  omega

/-- A tile is read back from its block, however many bytes there may be. -/
theorem decode_encode
    {tile : Tile}
    (wellFormed : tile.WellFormed)
    {available : Nat}
    (enough : size tile ≤ available)
    (rest : List UInt8) :
    decode tile.placement tile.channels available (encode tile ++ rest) = .ok (tile, rest) := by
  have offsetCount := wellFormed.size_offsets
  have valueCount := wellFormed.size_values
  unfold size at enough
  have roomForOffsets : ¬available < (tile.placement.pixelCount + 1) * 4 := by omega
  have readOffsets :
      takeWords (tile.placement.pixelCount + 1) (encode tile ++ rest) =
        some (tile.offsets, wordsBytes (tile.values.toList.map Single.bits) ++ rest) := by
    rw [← offsetCount, encode, List.append_assoc, ← Array.length_toList, takeWords_wordsBytes]
  have readValues :
      takeWords tile.values.size (wordsBytes (tile.values.toList.map Single.bits) ++ rest) =
        some ((tile.values.toList.map Single.bits).toArray, rest) := by
    rw [← Array.length_toList, ← List.length_map (f := Single.bits), takeWords_wordsBytes]
  have sameValues : (tile.values.toList.map Single.bits).toArray.map Single.mk = tile.values := by
    apply Array.toList_inj.mp
    simp [Function.comp_def]
  unfold decode
  simp only [if_neg roomForOffsets, readOffsets]
  rw [if_neg (by rw [← valueCount]; omega), ← valueCount, readValues]
  simp only [sameValues]
  rw [show Tile.ofParts tile.placement tile.channels tile.offsets tile.values = .ok tile from
    wellFormed]

end Block
end Texture
end DeepShadow
