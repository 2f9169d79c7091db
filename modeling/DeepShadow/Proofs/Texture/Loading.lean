import DeepShadow.Proofs.Texture.BlockEnds
import DeepShadow.Proofs.Tile.Lookup

/-!
# Loading tiles of arbitrary files

All that loading a tile goes by stands in the file: the sizes of the grid, the place of the
block and of the next one, the offsets.  Here every sum, difference and product on the way is
computed in words, and every place is looked up where it may not exist.  In an opened file
whose tiles have fewer than `2 ^ 32` pixels none of this fails, and a tile that is loaded is
well formed and lies where the grid has it.  Memory is not counted.
-/

namespace DeepShadow

/-! ## Words -/

/-- A number as a word of some bits; none where it is too large. -/
def fitting (bits number : Nat) : Option Nat :=
  if number < 2 ^ bits then some number else none

/-- The difference of two words; none where it is negative. -/
def difference (first second : Nat) : Option Nat :=
  if second ≤ first then some (first - second) else none

theorem fitting_eq_some {bits number : Nat} (fits : number < 2 ^ bits) :
    fitting bits number = some number := if_pos fits

theorem difference_eq_some {first second : Nat} (ordered : second ≤ first) :
    difference first second = some (first - second) := if_pos ordered

/-! ## Loading in words -/

/-- The rectangle of a tile. -/
def Grid.checkedPlacement
    (grid : Grid)
    (position : TilePosition) : Option (Except GridError Placement) :=
  if grid.Contains position then do
    let originX ← fitting 32 (position.column * grid.tileWidth)
    let originY ← fitting 32 (position.row * grid.tileHeight)
    let right ← difference grid.imageWidth originX
    let below ← difference grid.imageHeight originY
    return .ok
      { position
        originX
        originY
        width := min grid.tileWidth right
        height := min grid.tileHeight below }
  else return .error .tileOutside

/-- The number of offsets of a tile. -/
def Placement.checkedOffsetCount (placement : Placement) : Option Nat := do
  let pixelCount ← fitting 64 (placement.width * placement.height)
  fitting 64 (pixelCount + 1)

/-- The number of values behind some offsets. -/
def checkedValueCount (offsets : Array UInt32) (offsetCount channels : Nat) : Option Nat := do
  let last ← difference offsetCount 1
  let total ← offsets[last]?
  let stride ← fitting 64 (channels + 1)
  fitting 64 (total.toNat * stride)

/-- The tile with the given offsets and values. -/
def Tile.checkedOfParts
    (placement : Placement)
    (channels : Nat)
    (offsets : Array UInt32)
    (values : Array Single) : Option (Except TileError Tile) := do
  if !supportedChannels channels then return .error (.unsupportedChannels channels)
  let offsetCount ← placement.checkedOffsetCount
  if offsets.size ≠ offsetCount then return .error (.offsetCount offsetCount offsets.size)
  let first ← offsets[0]?
  if first ≠ 0 then return .error .firstOffset
  match firstDecrease offsets with
  | some index => return .error (.offsetsDecrease index)
  | none =>
      let valueCount ← checkedValueCount offsets offsetCount channels
      if values.size ≠ valueCount then return .error (.valueCount valueCount values.size)
      return .ok { placement, channels, offsets, values }

namespace Texture

/-- The tile of a block. -/
def Block.checkedDecode
    (placement : Placement)
    (channels available : Nat)
    (bytes : List UInt8) : Option (Except ReadError (Tile × List UInt8)) := do
  let exceeds := ReadError.format (.tileExceedsFile placement.position)
  let offsetCount ← placement.checkedOffsetCount
  let offsetBytes ← fitting 64 (offsetCount * 4)
  if available < offsetBytes then return .error exceeds
  match takeWords offsetCount bytes with
  | none => return .error (.format (.truncated .offsets))
  | some (offsets, rest) =>
      let valueCount ← checkedValueCount offsets offsetCount channels
      let valueBytes ← fitting 64 (valueCount * 4)
      let size ← fitting 64 (offsetBytes + valueBytes)
      if available < size then return .error exceeds
      match takeWords valueCount rest with
      | none => return .error (.format (.truncated .values))
      | some (values, rest) =>
          match ← Tile.checkedOfParts placement channels offsets (values.map Single.mk) with
          | .error error => return .error (.format (.invalidTile error))
          | .ok tile => return .ok (tile, rest)

/-- The tile at a position. -/
def Reader.checkedLoad
    (reader : Reader)
    (position : TilePosition) : Option (Except ReadError Tile) := do
  match ← reader.grid.checkedPlacement position with
  | .error error => return .error (.grid error)
  | .ok placement =>
      let offset := ((reader.table.offset? position).getD 0).toNat
      if offset = 0 then
        let tile ← (Tile.fullyVisible placement reader.channels).toOption
        return .ok tile
      if reader.fileLength ≤ offset then return .error (.format (.tileExceedsFile position))
      let size ← difference (reader.blockEnd offset) offset
      let block := (reader.bytes.drop offset).take size
      if block.length < size then return .error (.format (.truncated .block))
      match ← Block.checkedDecode placement reader.channels size block with
      | .error error => return .error error
      | .ok (tile, _) => return .ok tile

end Texture

/-! ## No step fails -/

theorem Grid.checkedPlacement_eq
    {grid : Grid}
    (widthFits : grid.imageWidth < 2 ^ 32)
    (heightFits : grid.imageHeight < 2 ^ 32)
    (position : TilePosition) :
    grid.checkedPlacement position = some (grid.placement position) := by
  unfold checkedPlacement placement
  split
  next inside =>
    have columnStart := (lt_partsCovering_iff grid.tileWidth_pos _ _).mp inside.1
    have rowStart := (lt_partsCovering_iff grid.tileHeight_pos _ _).mp inside.2
    rw [fitting_eq_some (Nat.lt_trans columnStart widthFits),
      fitting_eq_some (Nat.lt_trans rowStart heightFits)]
    simp only [bind, Option.bind, difference_eq_some (Nat.le_of_lt columnStart),
      difference_eq_some (Nat.le_of_lt rowStart)]
    rfl
  next outside => rfl

section Sizes

variable {placement : Placement} {channels : Nat} {offsets : Array UInt32}

theorem Placement.checkedOffsetCount_eq (small : placement.pixelCount < 0x100000000) :
    placement.checkedOffsetCount = some (placement.pixelCount + 1) := by
  have pixels : fitting 64 (placement.width * placement.height) = some placement.pixelCount :=
    fitting_eq_some (by unfold pixelCount at small; omega)
  rw [checkedOffsetCount, pixels]
  exact fitting_eq_some (by omega)

theorem supportedChannels_le (supported : supportedChannels channels = true) : channels ≤ 3 := by
  rcases supportedChannels_iff.mp supported with rfl | rfl
  · decide
  · decide

/-- A word of nodes has fewer values than a word of 64 bits. -/
theorem valueCount_lt (supported : supportedChannels channels = true) (total : UInt32) :
    total.toNat * (channels + 1) < 2 ^ 35 := by
  have few := supportedChannels_le supported
  calc total.toNat * (channels + 1)
      ≤ total.toNat * 4 := Nat.mul_le_mul_left _ (by omega)
    _ < 2 ^ 35 := by
      have bound := total.toNat_lt
      omega

theorem checkedValueCount_eq
    {pixelCount : Nat}
    (supported : supportedChannels channels = true)
    (size_eq : offsets.size = pixelCount + 1) :
    checkedValueCount offsets (pixelCount + 1) channels =
      some ((offsets.getD pixelCount 0).toNat * (channels + 1)) := by
  have few := supportedChannels_le supported
  have found : offsets[pixelCount]? = some (offsets.getD pixelCount 0) := by
    have inside : pixelCount < offsets.size := by
      rw [size_eq]
      exact Nat.lt_succ_self _
    rw [Array.getD_eq_getD_getElem?, Array.getElem?_eq_getElem inside, Option.getD_some]
  have bound := valueCount_lt supported (offsets.getD pixelCount 0)
  have last : difference (pixelCount + 1) 1 = some pixelCount :=
    difference_eq_some (Nat.succ_pos pixelCount)
  have stride : fitting 64 (channels + 1) = some (channels + 1) := fitting_eq_some (by omega)
  rw [checkedValueCount, last]
  simp only [Option.bind_eq_bind, Option.bind_some, found, stride]
  exact fitting_eq_some (by omega)

theorem Tile.checkedOfParts_eq
    (small : placement.pixelCount < 0x100000000)
    (values : Array Single) :
    checkedOfParts placement channels offsets values =
      some (ofParts placement channels offsets values) := by
  unfold checkedOfParts ofParts
  rw [Placement.checkedOffsetCount_eq small]
  cases supported : supportedChannels channels with
  | false => rfl
  | true =>
      by_cases size_eq : offsets.size = placement.pixelCount + 1
      · have nonempty : offsets[0]? = some (offsets.getD 0 0) := by
          have inside : 0 < offsets.size := by omega
          rw [Array.getD_eq_getD_getElem?, Array.getElem?_eq_getElem inside, Option.getD_some]
        have valueCount := checkedValueCount_eq supported size_eq
        simp only [Option.bind_eq_bind, Option.bind_some, nonempty, valueCount, pure]
        grind
      · simp [size_eq]

end Sizes

namespace Texture

/-- As many words are taken as asked for. -/
theorem size_of_takeWords
    {count : Nat}
    {bytes rest : List UInt8}
    {words : Array UInt32}
    (taken : takeWords count bytes = some (words, rest)) :
    words.size = count := by
  rw [takeWords_eq] at taken
  split at taken
  · cases taken
    rw [List.size_toArray, length_wordsFrom]
  · cases taken

section Blocks

variable {placement : Placement} {channels : Nat}

theorem Block.checkedDecode_eq
    (supported : supportedChannels channels = true)
    (small : placement.pixelCount < 0x100000000)
    (available : Nat)
    (bytes : List UInt8) :
    checkedDecode placement channels available bytes =
      some (decode placement channels available bytes) := by
  have offsetBytes : fitting 64 ((placement.pixelCount + 1) * 4) =
      some ((placement.pixelCount + 1) * 4) := fitting_eq_some (by omega)
  unfold checkedDecode decode
  rw [Placement.checkedOffsetCount_eq small]
  simp only [Option.bind_eq_bind, Option.bind_some, offsetBytes]
  by_cases fewOffsets : available < (placement.pixelCount + 1) * 4
  · rw [if_pos fewOffsets, if_pos fewOffsets]
    rfl
  rw [if_neg fewOffsets, if_neg fewOffsets]
  cases taken : takeWords (placement.pixelCount + 1) bytes with
  | none => rfl
  | some words =>
      obtain ⟨offsets, rest⟩ := words
      have valueCount := checkedValueCount_eq supported (size_of_takeWords taken)
      have bound := valueCount_lt supported (offsets.getD placement.pixelCount 0)
      simp only [valueCount, Option.bind_some]
      generalize (offsets.getD placement.pixelCount 0).toNat * (channels + 1) = count at bound
      have valueBytes : fitting 64 (count * 4) = some (count * 4) := fitting_eq_some (by omega)
      have size : fitting 64 ((placement.pixelCount + 1) * 4 + count * 4) =
          some ((placement.pixelCount + 1) * 4 + count * 4) := fitting_eq_some (by omega)
      simp only [valueBytes, size, Option.bind_some]
      by_cases fewValues : available < (placement.pixelCount + 1) * 4 + count * 4
      · rw [if_pos fewValues, if_pos fewValues]
        rfl
      rw [if_neg fewValues, if_neg fewValues]
      cases takeWords count rest with
      | none => rfl
      | some words =>
          simp only [Tile.checkedOfParts_eq small, Option.bind_some]
          cases Tile.ofParts placement channels offsets (words.1.map Single.mk) <;> rfl

/-- A block holds a well-formed tile for its placement. -/
theorem Block.wellFormed_of_decode
    {available : Nat}
    {bytes rest : List UInt8}
    {tile : Tile}
    (decoded : decode placement channels available bytes = .ok (tile, rest)) :
    tile.WellFormed ∧ tile.placement = placement ∧ tile.channels = channels := by
  unfold decode at decoded
  simp only at decoded
  split at decoded
  · cases decoded
  split at decoded
  · cases decoded
  split at decoded
  · cases decoded
  split at decoded
  · cases decoded
  split at decoded
  · cases decoded
  next made =>
    cases decoded
    refine ⟨Tile.WellFormed.ofParts made, ?_⟩
    obtain ⟨-, rfl⟩ := Tile.ofParts_eq_ok_iff.mp made
    exact ⟨rfl, rfl⟩

end Blocks

/-! ## Opened files -/

namespace Reader

variable {path : String} {bytes : List UInt8} {reader : Reader} {position : TilePosition}

/-- The tiles of a file have fewer pixels than there are words of 32 bits. -/
def SmallTiles (reader : Reader) : Prop :=
  reader.header.tileWidth.toNat * reader.header.tileHeight.toNat < 2 ^ 32

instance (reader : Reader) : Decidable reader.SmallTiles := inferInstanceAs (Decidable (_ < _))

theorem supported (opened : ofBytes path bytes = .ok reader) :
    supportedChannels reader.channels = true :=
  (Header.grid_eq_ok_iff.mp (fields_eq opened).2.1).1

/-- No tile has more pixels than the header tells. -/
theorem SmallTiles.pixelCount_lt
    (small : reader.SmallTiles)
    (opened : ofBytes path bytes = .ok reader)
    (position : TilePosition) :
    (reader.grid.frame position).pixelCount < 0x100000000 := by
  obtain ⟨-, -, -, tileWidth, tileHeight, -⟩ := Header.grid_eq_ok_iff.mp (fields_eq opened).2.1
  unfold SmallTiles at small
  rw [← tileWidth, ← tileHeight] at small
  exact Nat.lt_of_le_of_lt (Nat.mul_le_mul (Nat.min_le_left _ _) (Nat.min_le_left _ _)) small

/-- A tile of the grid that is not stored is fully visible. -/
theorem load_of_not_stored
    (inside : reader.grid.Contains position)
    (notStored : (reader.table.offset? position).getD 0 = 0) :
    reader.load position = .ok (Tile.visible (reader.grid.frame position) reader.channels) := by
  unfold load
  rw [Grid.placement_eq_ok inside, notStored]
  rfl

/-- Loading a tile of an opened file never goes wrong on the way. -/
theorem SmallTiles.checkedLoad_eq
    (small : reader.SmallTiles)
    (opened : ofBytes path bytes = .ok reader)
    (position : TilePosition) :
    reader.checkedLoad position = some (reader.load position) := by
  obtain ⟨supported, imageWidth, imageHeight, -⟩ :=
    Header.grid_eq_ok_iff.mp (fields_eq opened).2.1
  change supportedChannels reader.channels = true at supported
  have widthFits : reader.grid.imageWidth < 2 ^ 32 := imageWidth ▸ UInt32.toNat_lt _
  have heightFits : reader.grid.imageHeight < 2 ^ 32 := imageHeight ▸ UInt32.toNat_lt _
  have pixels := small.pixelCount_lt opened position
  unfold checkedLoad load
  rw [Grid.checkedPlacement_eq widthFits heightFits]
  by_cases inside : reader.grid.Contains position
  · rw [Grid.placement_eq_ok inside]
    simp only [Option.bind_some, Except.mapError, bind, Except.bind]
    generalize ((reader.table.offset? position).getD 0).toNat = start
    by_cases notStored : start = 0
    · rw [if_pos notStored, if_pos notStored, Tile.fullyVisible, if_pos supported]
      rfl
    by_cases behind : reader.fileLength ≤ start
    · rw [if_neg notStored, if_neg notStored, if_pos behind, if_pos behind]
      rfl
    have ends := Nat.le_of_lt (reader.lt_blockEnd (Nat.not_le.mp behind))
    rw [if_neg notStored, if_neg notStored, if_neg behind, if_neg behind,
      difference_eq_some ends, Option.bind_some]
    generalize reader.blockEnd start - start = size
    by_cases tooShort : ((reader.bytes.drop start).take size).length < size
    · rw [if_pos tooShort, if_pos tooShort]
      rfl
    rw [if_neg tooShort, if_neg tooShort, Block.checkedDecode_eq supported pixels,
      Option.bind_some]
    cases Block.decode (reader.grid.frame position) reader.channels size
      ((reader.bytes.drop start).take size) <;> rfl
  · rw [Grid.placement_eq_error inside]
    rfl

/-- A tile that is loaded lies where the grid has the position.  It comes from a block, or it
is fully visible. -/
theorem load_cases
    (opened : ofBytes path bytes = .ok reader)
    {tile : Tile}
    (loaded : reader.load position = .ok tile) :
    reader.grid.placement position = .ok tile.placement ∧ tile.channels = reader.channels ∧
      (tile.WellFormed ∨ tile = Tile.visible (reader.grid.frame position) reader.channels) := by
  by_cases inside : reader.grid.Contains position
  · rw [Grid.placement_eq_ok inside]
    by_cases notStored : (reader.table.offset? position).getD 0 = 0
    · rw [load_of_not_stored inside notStored] at loaded
      cases loaded
      exact ⟨rfl, rfl, Or.inr rfl⟩
    · obtain ⟨offset, found⟩ : ∃ offset, reader.table.offset? position = some offset :=
        ⟨_, (Table.offset?_eq_find? _ _).trans (TileMap.find?_eq_some _ inside)⟩
      rw [found, Option.getD_some] at notStored
      have stored : reader.StoredAt position offset.toNat := ⟨offset, found, notStored, rfl⟩
      rw [stored.load_eq opened] at loaded
      split at loaded
      · cases loaded
      split at loaded
      · cases loaded
      cases decoded : Block.decode (reader.grid.frame position) reader.channels
        (reader.blockEnd offset.toNat - offset.toNat) (reader.block offset.toNat) with
      | error error =>
          rw [decoded] at loaded
          cases loaded
      | ok answer =>
          rw [decoded] at loaded
          cases loaded
          obtain ⟨wellFormed, placement_eq, channels_eq⟩ := Block.wellFormed_of_decode decoded
          exact ⟨congrArg Except.ok placement_eq.symm, channels_eq, Or.inl wellFormed⟩
  · unfold load at loaded
    rw [Grid.placement_eq_error inside] at loaded
    cases loaded

/-- A tile that is loaded is well formed, and it lies where the grid has the position. -/
theorem SmallTiles.wellFormed_of_load
    (small : reader.SmallTiles)
    (opened : ofBytes path bytes = .ok reader)
    {tile : Tile}
    (loaded : reader.load position = .ok tile) :
    tile.WellFormed ∧ reader.grid.placement position = .ok tile.placement ∧
      tile.channels = reader.channels := by
  obtain ⟨placed, channels_eq, wellFormed | rfl⟩ := load_cases opened loaded
  · exact ⟨wellFormed, placed, channels_eq⟩
  · exact ⟨Tile.wellFormed_visible (supported opened) (small.pixelCount_lt opened position),
      placed, channels_eq⟩

/-- A tile that is loaded has whole nodes, however many pixels it has. -/
theorem stride_dvd_of_load
    (opened : ofBytes path bytes = .ok reader)
    {tile : Tile}
    (loaded : reader.load position = .ok tile) :
    tile.channels + 1 ∣ tile.values.size := by
  obtain ⟨-, -, wellFormed | rfl⟩ := load_cases opened loaded
  · rw [wellFormed.size_values]
    exact Nat.dvd_mul_left _ _
  · unfold Tile.visible
    rw [Array.size_ofFn]
    exact Nat.dvd_mul_left _ _

end Reader

end Texture
end DeepShadow
