import DeepShadow.Texture.Reader

/-!
# What bytes hold

The words, the header and the table entries of arbitrary bytes, each told by its place.
Decoding succeeds where there are enough bytes, and for a header where the bytes begin
with the magic ones, and then it gives what the bytes hold and leaves those behind it.
-/

namespace DeepShadow
namespace Texture

variable {bytes : List UInt8} {count : Nat}

/-! ## Words -/

/-- The word at a place, where all bytes behind the end count as zero. -/
def wordAt (bytes : List UInt8) (place : Nat) : UInt32 :=
  wordOfBytes (bytes.getD place 0) (bytes.getD (place + 1) 0) (bytes.getD (place + 2) 0)
    (bytes.getD (place + 3) 0)

/-- The words from a place on. -/
def wordsFrom (bytes : List UInt8) (place count : Nat) : List UInt32 :=
  (List.range count).map fun number => wordAt bytes (place + 4 * number)

theorem wordAt_drop (bytes : List UInt8) (first place : Nat) :
    wordAt (bytes.drop first) place = wordAt bytes (first + place) := by
  unfold wordAt
  simp only [List.getD_eq_getElem?_getD, List.getElem?_drop, Nat.add_assoc]

/-- A word in front of a place is read without the bytes behind this place. -/
theorem wordAt_take
    {place size : Nat}
    (inFront : place + 4 ≤ size) :
    wordAt (bytes.take size) place = wordAt bytes place := by
  have same : ∀ number < size, (bytes.take size).getD number 0 = bytes.getD number 0 := by
    intro number below
    rw [List.getD_eq_getElem?_getD, List.getD_eq_getElem?_getD, List.getElem?_take_of_lt below]
  unfold wordAt
  rw [same place (by omega), same (place + 1) (by omega), same (place + 2) (by omega),
    same (place + 3) (by omega)]

@[simp] theorem length_wordsFrom (place : Nat) :
    (wordsFrom bytes place count).length = count := by
  simp [wordsFrom]

theorem wordsFrom_succ (place : Nat) :
    wordsFrom bytes place (count + 1) =
      wordAt bytes place :: wordsFrom bytes (place + 4) count := by
  unfold wordsFrom
  rw [List.range_succ_eq_map, List.map_cons, List.map_map, List.cons.injEq]
  refine ⟨rfl, List.map_congr_left fun number _ => congrArg (wordAt bytes) ?_⟩
  rw [Nat.mul_succ]
  omega

theorem wordsFrom_drop (bytes : List UInt8) (first place count : Nat) :
    wordsFrom (bytes.drop first) place count = wordsFrom bytes (first + place) count := by
  unfold wordsFrom
  simp only [wordAt_drop, Nat.add_assoc]

/-- The word with some bytes has these bytes. -/
@[simp] theorem wordBytes_wordOfBytes (byte0 byte1 byte2 byte3 : UInt8) :
    wordBytes (wordOfBytes byte0 byte1 byte2 byte3) = [byte0, byte1, byte2, byte3] := by
  have bound0 := byte0.toNat_lt
  have bound1 := byte1.toNat_lt
  have bound2 := byte2.toNat_lt
  have bound3 := byte3.toNat_lt
  have sum_lt : byte0.toNat + byte1.toNat * 0x100 + byte2.toNat * 0x10000 +
      byte3.toNat * 0x1000000 < 2 ^ 32 := by omega
  unfold wordBytes wordOfBytes
  rw [UInt32.toNat_ofNat', Nat.mod_eq_of_lt sum_lt]
  simp only [List.cons.injEq, ← UInt8.toNat_inj, UInt8.toNat_ofNat', and_true]
  omega

/-- The bytes at a place are those of the word there. -/
theorem wordBytes_wordAt
    {place : Nat}
    (inside : place + 4 ≤ bytes.length) :
    wordBytes (wordAt bytes place) = (bytes.drop place).take 4 := by
  unfold wordAt
  rw [wordBytes_wordOfBytes, List.drop_eq_getElem_cons (by omega),
    List.drop_eq_getElem_cons (by omega), List.drop_eq_getElem_cons (by omega),
    List.drop_eq_getElem_cons (by omega)]
  simp only [List.take_succ_cons, List.take_zero, List.getD_eq_getElem?_getD]
  rw [List.getElem?_eq_getElem (by omega), List.getElem?_eq_getElem (by omega),
    List.getElem?_eq_getElem (by omega), List.getElem?_eq_getElem (by omega)]
  rfl

/-- The bytes from a place on are those of the words there. -/
theorem wordsBytes_wordsFrom
    {place : Nat}
    (inside : place + 4 * count ≤ bytes.length) :
    wordsBytes (wordsFrom bytes place count) = (bytes.drop place).take (4 * count) := by
  induction count generalizing place with
  | zero => rfl
  | succ count inductionHypothesis =>
      have first : place + 4 ≤ bytes.length := by omega
      have rest : place + 4 + 4 * count ≤ bytes.length := by omega
      rw [wordsFrom_succ, wordsBytes, List.flatMap_cons, ← wordsBytes, wordBytes_wordAt first,
        inductionHypothesis rest, ← List.drop_drop, ← List.take_add, Nat.mul_succ, Nat.add_comm 4]

/-- Words are taken where there are enough bytes. -/
theorem takeWordsOnto_eq (words : Array UInt32) (count : Nat) (bytes : List UInt8) :
    takeWordsOnto words count bytes =
      if 4 * count ≤ bytes.length then
        some (words ++ (wordsFrom bytes 0 count).toArray, bytes.drop (4 * count))
      else none := by
  fun_induction takeWordsOnto words count bytes with
  | case1 words bytes => simp [wordsFrom]
  | case2 words count byte0 byte1 byte2 byte3 bytes inductionHypothesis =>
      have rest : wordsFrom (byte0 :: byte1 :: byte2 :: byte3 :: bytes) 4 count =
          wordsFrom bytes 0 count := by
        have dropped := wordsFrom_drop (byte0 :: byte1 :: byte2 :: byte3 :: bytes) 4 0 count
        exact dropped.symm
      have first : wordAt (byte0 :: byte1 :: byte2 :: byte3 :: bytes) 0 =
          wordOfBytes byte0 byte1 byte2 byte3 := rfl
      rw [inductionHypothesis, wordsFrom_succ, Nat.zero_add, rest, first]
      simp only [List.length_cons, Nat.mul_succ, Nat.add_le_add_iff_right,
        List.drop_succ_cons]
      split <;> simp
  | case3 words count bytes tooFew =>
      rw [if_neg]
      intro enough
      match bytes with
      | [] | [_] | [_, _] | [_, _, _] => simp at enough <;> omega
      | byte0 :: byte1 :: byte2 :: byte3 :: bytes => exact tooFew _ _ _ _ _ rfl

theorem takeWords_eq (count : Nat) (bytes : List UInt8) :
    takeWords count bytes =
      if 4 * count ≤ bytes.length then
        some ((wordsFrom bytes 0 count).toArray, bytes.drop (4 * count))
      else none := by
  unfold takeWords
  rw [takeWordsOnto_eq]
  simp only [Array.empty_append]

theorem getD_wordsFrom
    (bytes : List UInt8)
    (place : Nat)
    {number : Nat}
    (below : number < count) :
    (wordsFrom bytes place count).toArray.getD number 0 = wordAt bytes (place + 4 * number) := by
  have inside : number < (wordsFrom bytes place count).length := by
    rw [length_wordsFrom]
    exact below
  rw [Array.getD_eq_getD_getElem?, List.getElem?_toArray, List.getElem?_eq_getElem inside,
    Option.getD_some]
  simp only [wordsFrom, List.getElem_map, List.getElem_range]

/-! ## Headers -/

/-- The header that bytes hold. -/
def headerOf (bytes : List UInt8) : Header :=
  { fileSize := wordAt bytes 8
    imageWidth := wordAt bytes 12
    imageHeight := wordAt bytes 16
    channels := wordAt bytes 20
    dataSize := wordAt bytes 24
    tileWidth := wordAt bytes 28
    tileHeight := wordAt bytes 32
    tileCount := wordAt bytes 36
    transforms :=
      { worldToScreen := Vector.ofFn fun index => ⟨wordAt bytes (40 + 4 * index)⟩
        worldToCamera := Vector.ofFn fun index => ⟨wordAt bytes (104 + 4 * index)⟩ } }

/-- A matrix is read from where its words are. -/
theorem matrix_wordsFrom
    (place : Nat)
    {first : Nat}
    (enough : first + 16 ≤ count) :
    Header.matrix (wordsFrom bytes place count).toArray first =
      Vector.ofFn fun index => ⟨wordAt bytes (place + 4 * first + 4 * index)⟩ := by
  refine congrArg Vector.ofFn (funext fun index => ?_)
  rw [getD_wordsFrom bytes place (by omega), Nat.mul_add, Nat.add_assoc]

/-- The fields of a header are the words behind the magic bytes. -/
theorem header_wordsFrom (bytes : List UInt8) :
    let words := (wordsFrom (bytes.drop magic.length) 0 40).toArray
    ({ fileSize := words.getD 0 0
       imageWidth := words.getD 1 0
       imageHeight := words.getD 2 0
       channels := words.getD 3 0
       dataSize := words.getD 4 0
       tileWidth := words.getD 5 0
       tileHeight := words.getD 6 0
       tileCount := words.getD 7 0
       transforms := ⟨Header.matrix words 8, Header.matrix words 24⟩ } : Header) =
      headerOf bytes := by
  intro words
  have words_eq : words = (wordsFrom bytes magic.length 40).toArray := by
    unfold words
    rw [wordsFrom_drop, Nat.add_zero]
  have word (number : Nat) (below : number < 40) :
      words.getD number 0 = wordAt bytes (magic.length + 4 * number) := by
    rw [words_eq]
    exact getD_wordsFrom bytes _ below
  rw [word 0 (by decide), word 1 (by decide), word 2 (by decide), word 3 (by decide),
    word 4 (by decide), word 5 (by decide), word 6 (by decide), word 7 (by decide), words_eq,
    matrix_wordsFrom _ (by decide), matrix_wordsFrom _ (by decide)]
  rfl

/-- A header is decoded where the bytes are long enough and begin with the magic ones. -/
theorem Header.decode_eq_ok_iff {decoded : Header × List UInt8} :
    Header.decode bytes = .ok decoded ↔
      headerSize ≤ bytes.length ∧ bytes.take magic.length = magic ∧
        decoded = (headerOf bytes, bytes.drop headerSize) := by
  have enough : 4 * 40 ≤ (bytes.drop magic.length).length ↔ headerSize ≤ bytes.length := by
    rw [List.length_drop]
    simp only [magic, headerSize, List.length_cons, List.length_nil]
    omega
  have behind : (bytes.drop magic.length).drop (4 * 40) = bytes.drop headerSize := by
    rw [List.drop_drop]
    rfl
  unfold decode
  rw [takeWords_eq, behind]
  simp only [enough]
  by_cases long : headerSize ≤ bytes.length
  · have hasMagic : ¬bytes.length < magic.length :=
      Nat.not_lt.mpr (Nat.le_trans (by decide) long)
    rw [if_neg hasMagic, if_pos long]
    simp only [header_wordsFrom]
    by_cases isMagic : bytes.take magic.length = magic
    · rw [if_neg (fun different => different isMagic), Except.ok.injEq]
      exact ⟨fun equal => ⟨long, isMagic, equal.symm⟩, fun holds => holds.2.2.symm⟩
    · rw [if_pos isMagic]
      exact ⟨(nomatch ·), fun holds => absurd holds.2.1 isMagic⟩
  · rw [if_neg long]
    refine ⟨fun decoded => ?_, fun holds => absurd holds.1 long⟩
    split at decoded
    · cases decoded
    · split at decoded <;> cases decoded

/-- The header depends on the bytes in front of the table only. -/
theorem headerOf_take (bytes : List UInt8) : headerOf (bytes.take headerSize) = headerOf bytes := by
  have same (place : Nat) (inFront : place + 4 ≤ headerSize) :
      wordAt (bytes.take headerSize) place = wordAt bytes place := wordAt_take inFront
  have sameMatrix (place : Nat) (inFront : place + 64 ≤ headerSize) :
      (Vector.ofFn fun index : Fin 16 =>
        (⟨wordAt (bytes.take headerSize) (place + 4 * index)⟩ : Single)) =
          Vector.ofFn fun index => ⟨wordAt bytes (place + 4 * index)⟩ := by
    refine congrArg Vector.ofFn (funext fun index => ?_)
    rw [same _ (by omega)]
  unfold headerOf
  rw [same 8 (by decide), same 12 (by decide), same 16 (by decide), same 20 (by decide),
    same 24 (by decide), same 28 (by decide), same 32 (by decide), same 36 (by decide),
    sameMatrix 40 (by decide), sameMatrix 104 (by decide)]

/-! ## Entries -/

/-- The table entry at a place. -/
def entryAt (bytes : List UInt8) (place : Nat) : Entry :=
  ⟨wordAt bytes place, wordAt bytes (place + 4), wordAt bytes (place + 8)⟩

/-- The table entries from a place on. -/
def entriesFrom (bytes : List UInt8) (place count : Nat) : List Entry :=
  (List.range count).map fun number => entryAt bytes (place + entrySize * number)

theorem entryAt_drop (bytes : List UInt8) (first place : Nat) :
    entryAt (bytes.drop first) place = entryAt bytes (first + place) := by
  unfold entryAt
  simp only [wordAt_drop, Nat.add_assoc]

@[simp] theorem length_entriesFrom (place : Nat) :
    (entriesFrom bytes place count).length = count := by
  simp [entriesFrom]

theorem entriesFrom_succ (place : Nat) :
    entriesFrom bytes place (count + 1) =
      entryAt bytes place :: entriesFrom bytes (place + entrySize) count := by
  unfold entriesFrom
  rw [List.range_succ_eq_map, List.map_cons, List.map_map, List.cons.injEq]
  refine ⟨rfl, List.map_congr_left fun number _ => congrArg (entryAt bytes) ?_⟩
  rw [Nat.mul_succ]
  omega

theorem entriesFrom_drop (bytes : List UInt8) (first place count : Nat) :
    entriesFrom (bytes.drop first) place count = entriesFrom bytes (first + place) count := by
  unfold entriesFrom
  simp only [entryAt_drop, Nat.add_assoc]

namespace Entry

/-- An entry is decoded where there are enough bytes. -/
theorem decode_eq (bytes : List UInt8) :
    decode bytes =
      if entrySize ≤ bytes.length then .ok (entryAt bytes 0, bytes.drop entrySize)
      else .error (.format (.truncated .table)) := by
  have word (number : Nat) (below : number < 3) := getD_wordsFrom bytes 0 below
  have entry_eq : (⟨(wordsFrom bytes 0 3).toArray.getD 0 0, (wordsFrom bytes 0 3).toArray.getD 1 0,
      (wordsFrom bytes 0 3).toArray.getD 2 0⟩ : Entry) = entryAt bytes 0 := by
    rw [word 0 (by decide), word 1 (by decide), word 2 (by decide)]
    rfl
  unfold decode
  rw [takeWords_eq]
  by_cases enough : entrySize ≤ bytes.length
  · rw [if_pos enough, if_pos (show 4 * 3 ≤ bytes.length from enough)]
    simp only [entry_eq]
    rfl
  · rw [if_neg enough, if_neg (show ¬4 * 3 ≤ bytes.length from enough)]

/-- Entries are decoded where there are enough bytes. -/
theorem decodeOnto_eq (entries : Array Entry) (count : Nat) (bytes : List UInt8) :
    decodeOnto entries count bytes =
      if entrySize * count ≤ bytes.length then
        .ok (entries ++ (entriesFrom bytes 0 count).toArray, bytes.drop (entrySize * count))
      else .error (.format (.truncated .table)) := by
  induction count generalizing entries bytes with
  | zero => simp [decodeOnto, entriesFrom]
  | succ count inductionHypothesis =>
      unfold decodeOnto
      rw [decode_eq]
      by_cases first : entrySize ≤ bytes.length
      · rw [if_pos first]
        simp only
        rw [inductionHypothesis, entriesFrom_drop, entriesFrom_succ, List.drop_drop,
          List.length_drop, Nat.add_zero, Nat.zero_add, Nat.mul_succ, Nat.add_comm entrySize]
        by_cases rest : entrySize * count + entrySize ≤ bytes.length
        · rw [if_pos rest, if_pos (by omega)]
          simp
        · rw [if_neg rest, if_neg (by omega)]
      · rw [if_neg first, if_neg (by rw [Nat.mul_succ]; omega)]

theorem decodeMany_eq (count : Nat) (bytes : List UInt8) :
    decodeMany count bytes =
      if entrySize * count ≤ bytes.length then
        .ok ((entriesFrom bytes 0 count).toArray, bytes.drop (entrySize * count))
      else .error (.format (.truncated .table)) := by
  unfold decodeMany
  rw [decodeOnto_eq]
  simp only [Array.empty_append]

end Entry

end Texture
end DeepShadow
