import DeepShadow.Proofs.Texture.Loading

/-!
# Blocks and the tiles in them

A block tells by its last offset how many values follow, and it is untrusted: the bytes may
end anywhere, and any words may stand where the offsets are expected.  Decoding is the
inverse of encoding nevertheless.  The bytes that are taken for a tile are those that the tile
is encoded to, and bytes are refused only if they are no such block or may not be read as far
as it reaches.
-/

namespace DeepShadow

namespace Tile

variable {placement : Placement} {channels : Nat} {offsets : Array UInt32}
  {values : Array Single} {tile : Tile}

/-- A tile whose pixels can be counted is well formed, whichever way it has come about. -/
theorem Built.wellFormed_of_small
    (built : tile.Built)
    (small : tile.placement.pixelCount < 0x100000000) :
    tile.WellFormed := by
  cases built with
  | ofParts made => exact Tile.WellFormed.ofParts made
  | fullyVisible made =>
      unfold Tile.fullyVisible at made
      split at made
      next supported =>
        cases made
        exact wellFormed_visible supported small
      next => cases made

/-- No offset decreases where each is at least the one before it. -/
theorem firstDecrease_eq_none_iff :
    firstDecrease offsets = none ↔
      ¬∃ index, index + 1 < offsets.size ∧ offsets.getD (index + 1) 0 < offsets.getD index 0 := by
  unfold firstDecrease
  rw [Option.map_eq_none_iff, List.find?_eq_none, not_exists]
  apply forall_congr'
  intro index
  rw [List.mem_range, decide_eq_true_eq, not_and, Nat.lt_sub_iff_add_lt]

/-- Offsets and values of the right number are refused for the order of the offsets only. -/
theorem ofParts_of_sizes
    (supported : supportedChannels channels = true)
    (size_offsets : offsets.size = placement.pixelCount + 1)
    (size_values : values.size =
      (offsets.getD placement.pixelCount 0).toNat * (channels + 1)) :
    ofParts placement channels offsets values =
      if offsets.getD 0 0 ≠ 0 then .error .firstOffset
      else
        match firstDecrease offsets with
        | some index => .error (.offsetsDecrease index)
        | none => .ok { placement, channels, offsets, values } := by
  unfold ofParts
  rw [supported, if_neg (by decide), if_neg (not_not_intro size_offsets)]
  split
  · rfl
  · cases firstDecrease offsets with
    | some index => rfl
    | none => exact if_neg (not_not_intro size_values)

end Tile

namespace Texture
namespace Block

variable {placement : Placement} {channels available : Nat} {bytes rest : List UInt8}
  {tile : Tile}

/-! ## What bytes hold -/

/-- The number of bytes of the offsets of a tile. -/
def offsetsSize (placement : Placement) : Nat := (placement.pixelCount + 1) * 4

/-- The offset with a number. -/
def offsetIn (bytes : List UInt8) (index : Nat) : UInt32 := wordAt bytes (4 * index)

/-- The number of values behind the offsets, as the last of them tells. -/
def valueCountIn (placement : Placement) (channels : Nat) (bytes : List UInt8) : Nat :=
  (offsetIn bytes placement.pixelCount).toNat * (channels + 1)

/-- The number of bytes of the block. -/
def sizeIn (placement : Placement) (channels : Nat) (bytes : List UInt8) : Nat :=
  offsetsSize placement + valueCountIn placement channels bytes * 4

/-- The tile of the block. -/
def tileIn (placement : Placement) (channels : Nat) (bytes : List UInt8) : Tile :=
  { placement
    channels
    offsets := (wordsFrom bytes 0 (placement.pixelCount + 1)).toArray
    values := (wordsFrom bytes (offsetsSize placement)
      (valueCountIn placement channels bytes)).toArray.map Single.mk }

theorem size_offsets_tileIn (placement : Placement) (channels : Nat) (bytes : List UInt8) :
    (tileIn placement channels bytes).offsets.size = placement.pixelCount + 1 := by
  rw [tileIn, List.size_toArray, length_wordsFrom]

theorem size_values_tileIn :
    (tileIn placement channels bytes).values.size = valueCountIn placement channels bytes := by
  rw [tileIn, Array.size_map, List.size_toArray, length_wordsFrom]

theorem getD_offsets_tileIn
    {index : Nat}
    (bound : index ≤ placement.pixelCount) :
    (tileIn placement channels bytes).offsets.getD index 0 = offsetIn bytes index := by
  unfold tileIn
  rw [getD_wordsFrom bytes 0 (Nat.lt_succ_of_le bound), Nat.zero_add]
  rfl

theorem size_tileIn : size (tileIn placement channels bytes) = sizeIn placement channels bytes := by
  rw [size, size_offsets_tileIn, size_values_tileIn, Nat.add_mul]
  rfl

/-- Values are the words that they are read from. -/
theorem map_bits_map_mk (words : List UInt32) :
    (words.toArray.map Single.mk).toList.map Single.bits = words := by
  rw [Array.toList_map, List.map_map]
  exact List.map_id words

/-- The tile that bytes hold is encoded to these bytes. -/
theorem encode_tileIn (enough : sizeIn placement channels bytes ≤ bytes.length) :
    encode (tileIn placement channels bytes) =
      bytes.take (sizeIn placement channels bytes) := by
  unfold sizeIn at enough ⊢
  have offsetBytes : wordsBytes (tileIn placement channels bytes).offsets.toList =
      bytes.take (offsetsSize placement) := by
    have size_eq : offsetsSize placement = 4 * (placement.pixelCount + 1) := Nat.mul_comm _ _
    unfold tileIn
    rw [List.toList_toArray, wordsBytes_wordsFrom (by omega), List.drop_zero, size_eq]
  have valueBytes : wordsBytes (wordsFrom bytes (offsetsSize placement)
      (valueCountIn placement channels bytes)) =
        (bytes.drop (offsetsSize placement)).take (valueCountIn placement channels bytes * 4) := by
    rw [wordsBytes_wordsFrom (by omega), Nat.mul_comm]
  have sameBits : (tileIn placement channels bytes).values.toList.map Single.bits =
      wordsFrom bytes (offsetsSize placement) (valueCountIn placement channels bytes) :=
    map_bits_map_mk _
  rw [encode, sameBits, offsetBytes, valueBytes, ← List.take_add]

/-! ## Decoding -/

/-- The offsets are taken where there are enough bytes. -/
theorem takeWords_offsets (placement : Placement) (channels : Nat) (bytes : List UInt8) :
    takeWords (placement.pixelCount + 1) bytes =
      if bytes.length < offsetsSize placement then none
      else some ((tileIn placement channels bytes).offsets,
        bytes.drop (offsetsSize placement)) := by
  rw [takeWords_eq, Nat.mul_comm]
  change (if offsetsSize placement ≤ bytes.length then some (_, bytes.drop (offsetsSize placement))
    else none) = _
  by_cases short : bytes.length < offsetsSize placement
  · rw [if_pos short, if_neg (Nat.not_le.mpr short)]
  · rw [if_neg short, if_pos (Nat.not_lt.mp short)]
    rfl

/-- The values are taken where there are enough bytes behind the offsets. -/
theorem takeWords_values (enough : offsetsSize placement ≤ bytes.length) :
    takeWords (valueCountIn placement channels bytes) (bytes.drop (offsetsSize placement)) =
      if bytes.length < sizeIn placement channels bytes then none
      else some ((wordsFrom bytes (offsetsSize placement)
        (valueCountIn placement channels bytes)).toArray,
          bytes.drop (sizeIn placement channels bytes)) := by
  rw [takeWords_eq, wordsFrom_drop, Nat.add_zero, List.drop_drop, List.length_drop, Nat.mul_comm]
  unfold sizeIn
  by_cases short : bytes.length <
      offsetsSize placement + valueCountIn placement channels bytes * 4
  · rw [if_pos short, if_neg (by omega)]
  · rw [if_neg short, if_pos (by omega)]

/-- What becomes of bytes: they are looked at up to the end of the offsets, then up to the end
of the values, and then the offsets are compared. -/
theorem decode_eq
    (supported : supportedChannels channels = true)
    (available : Nat)
    (bytes : List UInt8) :
    decode placement channels available bytes =
      if available < offsetsSize placement then
        .error (.format (.tileExceedsFile placement.position))
      else if bytes.length < offsetsSize placement then .error (.format (.truncated .offsets))
      else if available < sizeIn placement channels bytes then
        .error (.format (.tileExceedsFile placement.position))
      else if bytes.length < sizeIn placement channels bytes then
        .error (.format (.truncated .values))
      else if offsetIn bytes 0 ≠ 0 then .error (.format (.invalidTile .firstOffset))
      else
        match Tile.firstDecrease (tileIn placement channels bytes).offsets with
        | some index => .error (.format (.invalidTile (.offsetsDecrease index)))
        | none => .ok (tileIn placement channels bytes,
            bytes.drop (sizeIn placement channels bytes)) := by
  have count_eq : ((tileIn placement channels bytes).offsets.getD placement.pixelCount 0).toNat *
      (channels + 1) = valueCountIn placement channels bytes := by
    rw [getD_offsets_tileIn (Nat.le_refl _)]
    rfl
  have made := Tile.ofParts_of_sizes supported (size_offsets_tileIn placement channels bytes)
    (size_values_tileIn.trans count_eq.symm)
  rw [getD_offsets_tileIn (Nat.zero_le _)] at made
  unfold decode
  simp only [takeWords_offsets placement channels]
  by_cases unreadable : available < offsetsSize placement
  · rw [if_pos unreadable]
    exact if_pos unreadable
  rw [if_neg unreadable]
  refine (if_neg unreadable).trans ?_
  by_cases noOffsets : bytes.length < offsetsSize placement
  · rw [if_pos noOffsets, if_pos noOffsets]
  rw [if_neg noOffsets, if_neg noOffsets]
  simp only [count_eq, takeWords_values (Nat.not_lt.mp noOffsets)]
  by_cases tooLong : available < sizeIn placement channels bytes
  · rw [if_pos tooLong]
    exact if_pos tooLong
  rw [if_neg tooLong]
  refine (if_neg tooLong).trans ?_
  by_cases noValues : bytes.length < sizeIn placement channels bytes
  · rw [if_pos noValues, if_pos noValues]
  rw [if_neg noValues, if_neg noValues]
  have values_eq : (wordsFrom bytes (offsetsSize placement)
      (valueCountIn placement channels bytes)).toArray.map Single.mk =
        (tileIn placement channels bytes).values := rfl
  simp only [values_eq]
  rw [made]
  by_cases first : offsetIn bytes 0 ≠ 0
  · rw [if_pos first, if_pos first]
  rw [if_neg first, if_neg first]
  cases Tile.firstDecrease (tileIn placement channels bytes).offsets <;> rfl

/-- Why bytes are refused as the block of a tile: they end, or may not be read any further,
in front of the end of the offsets or of the values, or the offsets do not ascend from
zero. -/
inductive Faulty
    (placement : Placement)
    (channels available : Nat)
    (bytes : List UInt8) : Prop
  | offsets (behind : min available bytes.length < offsetsSize placement)
  | values (behind : min available bytes.length < sizeIn placement channels bytes)
  | first (nonzero : offsetIn bytes 0 ≠ 0)
  | decrease
      (index : Nat)
      (inside : index < placement.pixelCount)
      (below : offsetIn bytes (index + 1) < offsetIn bytes index)

theorem firstDecrease_tileIn_eq_none_iff :
    Tile.firstDecrease (tileIn placement channels bytes).offsets = none ↔
      ¬∃ index < placement.pixelCount, offsetIn bytes (index + 1) < offsetIn bytes index := by
  rw [Tile.firstDecrease_eq_none_iff, size_offsets_tileIn, not_iff_not]
  apply exists_congr
  intro index
  rw [Nat.add_lt_add_iff_right]
  apply and_congr_right
  intro inside
  rw [getD_offsets_tileIn inside, getD_offsets_tileIn (Nat.le_of_lt inside)]

/-- Bytes without a fault are decoded to the tile that they hold. -/
theorem decode_of_not_faulty
    (supported : supportedChannels channels = true)
    (sound : ¬Faulty placement channels available bytes) :
    sizeIn placement channels bytes ≤ available ∧
      sizeIn placement channels bytes ≤ bytes.length ∧
      decode placement channels available bytes =
        .ok (tileIn placement channels bytes, bytes.drop (sizeIn placement channels bytes)) := by
  have offsets := Nat.le_min.mp (Nat.not_lt.mp fun behind => sound (.offsets behind))
  have values := Nat.le_min.mp (Nat.not_lt.mp fun behind => sound (.values behind))
  have first : ¬offsetIn bytes 0 ≠ 0 := fun nonzero => sound (.first nonzero)
  have ascending : Tile.firstDecrease (tileIn placement channels bytes).offsets = none := by
    rw [firstDecrease_tileIn_eq_none_iff]
    rintro ⟨index, inside, below⟩
    exact sound (.decrease index inside below)
  refine ⟨values.1, values.2, ?_⟩
  rw [decode_eq supported, if_neg (Nat.not_lt.mpr offsets.1), if_neg (Nat.not_lt.mpr offsets.2),
    if_neg (Nat.not_lt.mpr values.1), if_neg (Nat.not_lt.mpr values.2), if_neg first, ascending]

/-- An error of decoding names a fault.  The number of offsets or values is never wrong. -/
inductive Diagnosis (placement : Placement) : ReadError -> Prop
  | exceeds : Diagnosis placement (.format (.tileExceedsFile placement.position))
  | truncatedOffsets : Diagnosis placement (.format (.truncated .offsets))
  | truncatedValues : Diagnosis placement (.format (.truncated .values))
  | first : Diagnosis placement (.format (.invalidTile .firstOffset))
  | decrease (index : Nat) : Diagnosis placement (.format (.invalidTile (.offsetsDecrease index)))

/-- Faulty bytes are refused. -/
theorem decode_of_faulty
    (supported : supportedChannels channels = true)
    (faulty : Faulty placement channels available bytes) :
    ∃ error, decode placement channels available bytes = .error error ∧
      Diagnosis placement error := by
  rw [decode_eq supported]
  split
  · exact ⟨_, rfl, .exceeds⟩
  split
  · exact ⟨_, rfl, .truncatedOffsets⟩
  split
  · exact ⟨_, rfl, .exceeds⟩
  split
  · exact ⟨_, rfl, .truncatedValues⟩
  split
  · exact ⟨_, rfl, .first⟩
  next mayReadOffsets hasOffsets mayReadValues hasValues fromZero =>
    cases found : Tile.firstDecrease (tileIn placement channels bytes).offsets with
    | some index => exact ⟨_, rfl, .decrease index⟩
    | none =>
        rw [firstDecrease_tileIn_eq_none_iff] at found
        cases faulty with
        | offsets behind => omega
        | values behind => omega
        | first nonzero => exact absurd nonzero fromZero
        | decrease index inside below => exact absurd ⟨index, inside, below⟩ found

/-- Decoding is the inverse of encoding.  Bytes are decoded to a tile exactly when they begin
with the bytes that the tile is encoded to and may be read as far as these reach, and what
follows is left.  For the numbers of channels that a tile can have, no step of decoding leaves
its words, and all other bytes are faulty: an error tells that they end too early or that the
offsets do not ascend from zero. -/
theorem decode_inverts_encode
    (small : placement.pixelCount < 0x100000000)
    (channels available : Nat)
    (bytes : List UInt8) :
    (∀ tile rest, decode placement channels available bytes = .ok (tile, rest) ↔
      tile.Built ∧ tile.placement = placement ∧ tile.channels = channels ∧
        bytes = encode tile ++ rest ∧ size tile ≤ available) ∧
    (supportedChannels channels = true ->
      checkedDecode placement channels available bytes =
        some (decode placement channels available bytes) ∧
      ((∃ error, decode placement channels available bytes = .error error) ↔
        Faulty placement channels available bytes) ∧
      ∀ error, decode placement channels available bytes = .error error ->
        Diagnosis placement error) := by
  constructor
  · intro tile rest
    constructor
    · intro decoded
      obtain ⟨wellFormed, placement_eq, channels_eq⟩ := wellFormed_of_decode decoded
      have supported : supportedChannels channels = true := by
        rw [← channels_eq]
        exact wellFormed.supported
      have sound : ¬Faulty placement channels available bytes := by
        intro faulty
        obtain ⟨error, failed, _⟩ := decode_of_faulty supported faulty
        rw [failed] at decoded
        cases decoded
      obtain ⟨mayRead, enough, held⟩ := decode_of_not_faulty supported sound
      cases held.symm.trans decoded
      refine ⟨.ofParts wellFormed, placement_eq, channels_eq, ?_, ?_⟩
      · rw [encode_tileIn enough, List.take_append_drop]
      · rw [size_tileIn]
        exact mayRead
    · rintro ⟨built, rfl, rfl, rfl, enough⟩
      exact decode_encode (built.wellFormed_of_small small) enough rest
  · intro supported
    refine ⟨checkedDecode_eq supported small available bytes, ⟨?_, ?_⟩, ?_⟩
    · rintro ⟨error, failed⟩
      by_contra sound
      obtain ⟨_, _, held⟩ := decode_of_not_faulty supported sound
      rw [held] at failed
      cases failed
    · intro faulty
      obtain ⟨error, failed, _⟩ := decode_of_faulty supported faulty
      exact ⟨error, failed⟩
    · intro error failed
      by_cases faulty : Faulty placement channels available bytes
      · obtain ⟨other, otherFailed, diagnosis⟩ := decode_of_faulty supported faulty
        cases otherFailed.symm.trans failed
        exact diagnosis
      · obtain ⟨_, _, held⟩ := decode_of_not_faulty supported faulty
        rw [held] at failed
        cases failed

/-- A tile of two pixels, of which the first has no node and the second one whose shadow is
not a number. -/
def sparsePair : Tile :=
  { placement := ⟨⟨1, 0⟩, 2, 0, 2, 1⟩
    channels := 1
    offsets := #[0, 0, 1]
    values := #[⟨0x3fc00000⟩, ⟨0x7fc00001⟩] }

/-- The block of `sparsePair` is decoded in front of another byte, and refused where only half
of it may be read. -/
theorem decode_inverts_encode_sparsePair :
    decode sparsePair.placement 1 20 (encode sparsePair ++ [7]) = .ok (sparsePair, [7]) ∧
      ∃ error, decode sparsePair.placement 1 10 (encode sparsePair ++ [7]) = .error error := by
  have small : sparsePair.placement.pixelCount < 0x100000000 := by decide
  have wellFormed : sparsePair.WellFormed := rfl
  have whole := (decode_inverts_encode small 1 20 (encode sparsePair ++ [7])).1
  have half := (decode_inverts_encode small 1 10 (encode sparsePair ++ [7])).2 rfl
  constructor
  · exact (whole sparsePair [7]).mpr ⟨.ofParts wellFormed, rfl, rfl, rfl, by decide⟩
  · exact half.2.1.mpr (.offsets (by decide))

end Block
end Texture
end DeepShadow
