import DeepShadow.Proofs.Texture.Layout
import DeepShadow.Proofs.Texture.Lookup
import DeepShadow.Texture.Writer

/-!
# Writing a file

While a file is being written, the writer represents the layout that the file
will have if it is finished now.  A call is either refused, and then nothing
changes, or it is taken, and then the layout grows by the block of its tile.
Finishing turns the bytes written so far into the bytes of the layout.
-/

namespace DeepShadow
namespace Texture

/-! ## Writing over bytes -/

namespace OutputFile

/-- Writing over bytes leaves those in front of them and behind them. -/
theorem overwrite_between
    {file : OutputFile}
    {place : Nat}
    (front old behind bytes : List UInt8)
    (contents_eq : file.contents = front ++ (old ++ behind))
    (place_eq : front.length = place)
    (sameLength : old.length = bytes.length) :
    (file.overwrite place bytes).contents = front ++ (bytes ++ behind) := by
  rw [contents_overwrite, contents_eq, ← place_eq, List.take_left, ← sameLength,
    List.drop_length_add_append, List.drop_left, List.append_assoc]

end OutputFile

namespace Header

/-- The header around the words that are written last. -/
def between (header : Header) : List UInt32 :=
  [header.imageWidth, header.imageHeight, header.channels]

/-- The words behind the size of the data. -/
def behind (header : Header) : List UInt32 :=
  [header.tileWidth, header.tileHeight, header.tileCount] ++
    header.transforms.worldToScreen.toList.map Single.bits ++
    header.transforms.worldToCamera.toList.map Single.bits

theorem encode_eq (header : Header) :
    header.encode =
      magic ++ (wordBytes header.fileSize ++
        (wordsBytes header.between ++ (wordBytes header.dataSize ++
          wordsBytes header.behind))) := rfl

section Patched

variable {file : OutputFile} {header : Header} {rest : List UInt8}
  (contents_eq : file.contents = header.encode ++ rest)

include contents_eq

/-- The size of the file is written over that of a header. -/
theorem contents_overwrite_fileSize (fileSize : UInt32) :
    (file.overwriteWord fileSizePlace fileSize).contents =
      { header with fileSize }.encode ++ rest := by
  rw [encode_eq] at contents_eq ⊢
  simp only [List.append_assoc] at contents_eq ⊢
  exact OutputFile.overwrite_between _ _ _ (wordBytes fileSize) contents_eq
    (show magic.length = fileSizePlace from rfl) rfl

/-- The size of the data is written over that of a header. -/
theorem contents_overwrite_dataSize (dataSize : UInt32) :
    (file.overwriteWord dataSizePlace dataSize).contents =
      { header with dataSize }.encode ++ rest := by
  rw [encode_eq] at contents_eq ⊢
  have written := OutputFile.overwrite_between
    (magic ++ (wordBytes header.fileSize ++ wordsBytes header.between))
    (wordBytes header.dataSize) (wordsBytes header.behind ++ rest) (wordBytes dataSize)
    (by
      rw [contents_eq]
      simp only [List.append_assoc])
    (show _ = dataSizePlace from rfl) rfl
  unfold OutputFile.overwriteWord
  rw [written]
  simp only [List.append_assoc]
  rfl

/-- The sizes are written over those of an unfinished header. -/
theorem contents_overwriteWord (fileSize dataSize : UInt32) :
    ((file.overwriteWord fileSizePlace fileSize).overwriteWord dataSizePlace dataSize).contents =
      { header with fileSize, dataSize }.encode ++ rest :=
  contents_overwrite_dataSize (contents_overwrite_fileSize contents_eq fileSize) dataSize

end Patched

end Header

/-! ## The state of a writer -/

namespace Layout

/-- The layout with one more block. -/
def append (layout : Layout) (tile : Tile) : Layout :=
  { layout with stored := layout.stored ++ [tile] }

/-- The layout with one more tile; a neglectable tile has no block. -/
def add (layout : Layout) (tile : Tile) : Layout :=
  if tile.isNeglectable then layout else layout.append tile

/-- Whether a file can take a tile, where the given tiles have arrived before. -/
structure Admits
    (layout : Layout)
    (arrived : List TilePosition)
    (tile : Tile) : Prop where
  inside : layout.grid.Contains tile.placement.position
  framed : tile.placement = layout.grid.frame tile.placement.position
  channels_eq : tile.channels = layout.channels.toNat
  isNew : tile.placement.position ∉ arrived
  fits : tile.isNeglectable = false -> layout.size + Block.size tile < 0x100000000

end Layout

namespace Writer

/-- A writer has taken the tiles of a layout, and the given tiles have
arrived. -/
structure Represents
    (layout : Layout)
    (arrived : List TilePosition)
    (writer : Writer) : Prop where
  unfinished : writer.isFinished = false
  valid : layout.Valid
  grid_eq : writer.grid = layout.grid
  header_eq : writer.header = Header.ofGrid layout.grid layout.channels layout.transforms
  has_iff : ∀ position, writer.submitted.has position = true ↔ position ∈ arrived
  counted : writer.submitted.Counted
  count_eq : writer.submitted.count = writer.tilesWritten + writer.tilesElided
  offset?_eq : ∀ position, layout.grid.Contains position ->
    writer.table.offset? position = some (layout.offset position)
  contents_eq : writer.contents =
    writer.header.encode ++
      (List.replicate (Table.encodedSize layout.grid) 0 ++ layout.stored.flatMap Block.encode)
  fileSize_eq : writer.fileSize = layout.size
  dataSize_eq : writer.dataSize = blocksSize layout.stored
  tilesWritten_eq : writer.tilesWritten = layout.stored.length
  arrived_stored : ∀ tile ∈ layout.stored, tile.placement.position ∈ arrived

variable {layout : Layout} {arrived : List TilePosition} {writer : Writer}
  {position : TilePosition} {tile : Tile}

theorem Represents.not_finished
    (represents : writer.Represents layout arrived) :
    ¬writer.isFinished = true := by
  rw [represents.unfinished]
  exact Bool.false_ne_true

theorem Represents.channels_eq (represents : writer.Represents layout arrived) :
    writer.channels = layout.channels.toNat := by
  unfold channels
  rw [represents.header_eq]
  rfl

/-- A tile that has not arrived has no block. -/
theorem Represents.place?_eq_none
    (represents : writer.Represents layout arrived)
    (isNew : position ∉ arrived) :
    layout.place? position = none := by
  apply placeFrom_eq_none
  intro member
  obtain ⟨tile, stored, rfl⟩ := List.mem_map.mp member
  exact isNew (represents.arrived_stored tile stored)

/-- A tile of the image that has not arrived is marked. -/
theorem Represents.markSubmitted_eq_ok
    (represents : writer.Represents layout arrived)
    (inside : layout.grid.Contains position)
    (isNew : position ∉ arrived) :
    ∃ submitted, writer.markSubmitted position = .ok submitted ∧
      (∀ other, submitted.has other = true ↔ other ∈ position :: arrived) ∧
      submitted.Counted ∧
      submitted.count = writer.submitted.count + 1 := by
  rw [← represents.grid_eq] at inside
  have absent : writer.submitted.has position = false := by
    rw [Bool.eq_false_iff]
    exact fun has => isNew ((represents.has_iff position).mp has)
  refine ⟨writer.submitted.add (writer.grid.indexOf position inside), ?_, ?_,
    represents.counted.add inside, ?_⟩
  · unfold markSubmitted
    rw [TileSet.insert_eq_ok _ inside, absent]
  · intro other
    rw [TileSet.has_add, Bool.or_eq_true, decide_eq_true_eq, represents.has_iff, List.mem_cons]
  · unfold TileSet.add
    rw [← TileSet.has_eq_get _ inside, absent]
    rfl

/-- A tile outside the image or one that has arrived is not marked. -/
theorem Represents.markSubmitted_eq_error
    (represents : writer.Represents layout arrived)
    (refused : ¬(layout.grid.Contains position ∧ position ∉ arrived)) :
    ∃ error, writer.markSubmitted position = .error error := by
  unfold markSubmitted
  by_cases inside : writer.grid.Contains position
  · have present : writer.submitted.has position = true := by
      rw [represents.has_iff]
      apply Decidable.byContradiction
      intro isNew
      exact refused ⟨represents.grid_eq ▸ inside, isNew⟩
    rw [TileSet.insert_eq_ok _ inside, present]
    exact ⟨_, rfl⟩
  · rw [TileSet.insert_eq_error _ inside]
    exact ⟨_, rfl⟩

/-- Taking a neglectable tile leaves the layout as it is. -/
theorem Represents.submitNeglectable_eq_ok
    (represents : writer.Represents layout arrived)
    (inside : layout.grid.Contains position)
    (isNew : position ∉ arrived) :
    ∃ next, (writer.submitNeglectable position).value = (.ok (), next) ∧
      next.Represents layout (position :: arrived) := by
  obtain ⟨submitted, marked, has_iff, counted, count_eq⟩ :=
    represents.markSubmitted_eq_ok inside isNew
  have insideWriter : writer.grid.Contains position := represents.grid_eq ▸ inside
  refine ⟨{ writer with
    submitted
    table := writer.table.set position 0
    tilesElided := writer.tilesElided + 1 }, ?_, ?_⟩
  · unfold submitNeglectable
    simp only [represents.unfinished, marked]
    rfl
  · exact
      { represents with
        has_iff
        counted
        count_eq := by
          rw [count_eq, represents.count_eq]
          rfl
        offset?_eq := by
          intro other otherInside
          rw [Table.offset?_set _ insideWriter, represents.offset?_eq other otherInside]
          by_cases same : other = position
          · rw [if_pos same, same, Layout.offset, represents.place?_eq_none isNew]
            rfl
          · rw [if_neg same]
        arrived_stored := fun tile member =>
          List.mem_cons_of_mem _ (represents.arrived_stored tile member) }

/-- A neglectable tile is refused where it lies outside the image or has
arrived. -/
theorem Represents.submitNeglectable_eq_error
    (represents : writer.Represents layout arrived)
    (refused : ¬(layout.grid.Contains position ∧ position ∉ arrived)) :
    ∃ error, (writer.submitNeglectable position).value = (.error error, writer) := by
  obtain ⟨error, notMarked⟩ := represents.markSubmitted_eq_error refused
  refine ⟨error, ?_⟩
  unfold submitNeglectable
  simp only [represents.unfinished, notMarked]
  rfl

/-- The layout with one more block is valid. -/
theorem Represents.valid_append
    (represents : writer.Represents layout arrived)
    (admits : layout.Admits arrived tile)
    (wellFormed : tile.WellFormed)
    (fits : layout.size + Block.size tile < 0x100000000) :
    (layout.append tile).Valid := by
  have valid := represents.valid
  have ofBoth : ∀ {property : Tile -> Prop},
      (∀ other ∈ layout.stored, property other) -> property tile ->
        ∀ other ∈ layout.stored ++ [tile], property other := by
    intro property ofStored ofTile other member
    rcases List.mem_append.mp member with stored | last
    · exact ofStored other stored
    · rw [List.mem_singleton.mp last]
      exact ofTile
  refine
    { supported := valid.supported
      imageWidth_lt := valid.imageWidth_lt
      imageHeight_lt := valid.imageHeight_lt
      tileWidth_lt := valid.tileWidth_lt
      tileHeight_lt := valid.tileHeight_lt
      wellFormed := ofBoth valid.wellFormed wellFormed
      channels_eq := ofBoth valid.channels_eq admits.channels_eq
      inside := ofBoth valid.inside admits.inside
      framed := ofBoth valid.framed admits.framed
      distinct := ?_
      size_lt := ?_ }
  · unfold Layout.append
    rw [List.map_append, List.nodup_append]
    refine ⟨valid.distinct, List.nodup_singleton _, ?_⟩
    intro first firstMember second secondMember equal
    obtain ⟨other, stored, rfl⟩ := List.mem_map.mp firstMember
    rw [List.map_singleton, List.mem_singleton] at secondMember
    rw [secondMember] at equal
    exact admits.isNew (equal ▸ represents.arrived_stored other stored)
  · unfold Layout.size at fits ⊢
    unfold Layout.append
    rw [blocksSize_append, blocksSize_cons, blocksSize_nil, Nat.add_zero, ← Nat.add_assoc]
    exact fits

/-- Writing the block of a tile behind the others appends it to the layout. -/
theorem Represents.append
    (represents : writer.Represents layout arrived)
    (admits : layout.Admits arrived tile)
    (wellFormed : tile.WellFormed)
    (fits : layout.size + Block.size tile < 0x100000000)
    {submitted : TileSet writer.grid}
    (has_iff : ∀ other, submitted.has other = true ↔ other ∈ tile.placement.position :: arrived)
    (counted : submitted.Counted)
    (count_eq : submitted.count = writer.submitted.count + 1) :
    { writer with
      submitted
      table := writer.table.set tile.placement.position (UInt32.ofNat writer.fileSize)
      file := writer.file.append (Block.encode tile)
      fileSize := writer.fileSize + Block.size tile
      dataSize := writer.dataSize + Block.size tile
      tilesWritten := writer.tilesWritten + 1 }.Represents
        (layout.append tile) (tile.placement.position :: arrived) := by
  have insideWriter : writer.grid.Contains tile.placement.position :=
    represents.grid_eq ▸ admits.inside
  have notStored : tile.placement.position ∉
      layout.stored.map fun other => other.placement.position := by
    intro member
    obtain ⟨earlier, stored, equal⟩ := List.mem_map.mp member
    exact admits.isNew (equal ▸ represents.arrived_stored earlier stored)
  refine
    { unfinished := represents.unfinished
      valid := represents.valid_append admits wellFormed fits
      grid_eq := represents.grid_eq
      header_eq := represents.header_eq
      has_iff
      counted
      count_eq := ?_
      offset?_eq := ?_
      contents_eq := ?_
      fileSize_eq := ?_
      dataSize_eq := ?_
      tilesWritten_eq := ?_
      arrived_stored := ?_ }
  · rw [count_eq, represents.count_eq]
    exact Nat.add_right_comm _ _ _
  · intro other inside
    rw [Table.offset?_set _ insideWriter, represents.offset?_eq other inside]
    unfold Layout.offset Layout.place? Layout.append
    by_cases same : other = tile.placement.position
    · rw [if_pos same, same, placeFrom_append_cons _ notStored, represents.fileSize_eq]
      rfl
    · rw [if_neg same, placeFrom_append_of_ne _ _ (Ne.symm same)]
      rfl
  · unfold contents Layout.append
    rw [OutputFile.contents_append, ← contents, represents.contents_eq, List.flatMap_append,
      List.flatMap_cons, List.flatMap_nil, List.append_nil]
    simp only [List.append_assoc]
  · rw [represents.fileSize_eq]
    unfold Layout.size Layout.append
    rw [blocksSize_append, blocksSize_cons, blocksSize_nil]
    exact Nat.add_assoc _ _ _
  · unfold Layout.append
    rw [represents.dataSize_eq, blocksSize_append, blocksSize_cons, blocksSize_nil]
    rfl
  · unfold Layout.append
    rw [represents.tilesWritten_eq, List.length_append]
    rfl
  · intro other member
    rcases List.mem_append.mp member with stored | last
    · exact List.mem_cons_of_mem _ (represents.arrived_stored other stored)
    · rw [List.mem_singleton.mp last]
      exact List.mem_cons_self

/-- Taking a tile adds it to the layout. -/
theorem Represents.submitTile_eq_ok
    (represents : writer.Represents layout arrived)
    (admits : layout.Admits arrived tile)
    (wellFormed : tile.isNeglectable = false -> tile.WellFormed) :
    ∃ next, (writer.submitTile tile).value = (.ok (), next) ∧
      next.Represents (layout.add tile) (tile.placement.position :: arrived) := by
  have framed : writer.grid.placement tile.placement.position = .ok tile.placement := by
    rw [represents.grid_eq, Grid.placement_eq_ok admits.inside, ← admits.framed]
  have channels : tile.channels = writer.channels := by
    rw [represents.channels_eq, admits.channels_eq]
  unfold submitTile Layout.add
  rw [if_neg represents.not_finished]
  simp only [framed, channels, ne_eq, not_true_eq_false, if_false]
  cases neglectable : tile.isNeglectable with
  | true =>
      simp only [if_true]
      exact represents.submitNeglectable_eq_ok admits.inside admits.isNew
  | false =>
      obtain ⟨submitted, marked, has_iff, counted, count_eq⟩ :=
        represents.markSubmitted_eq_ok admits.inside admits.isNew
      have fits := admits.fits neglectable
      have roomLeft : ¬0xffffffff < writer.fileSize + Block.size tile := by
        rw [represents.fileSize_eq]
        omega
      simp only [roomLeft, marked, Bool.false_eq_true, if_false]
      exact ⟨_, rfl,
        represents.append admits (wellFormed neglectable) fits has_iff counted count_eq⟩

/-- A tile that does not fit the file is refused. -/
theorem Represents.submitTile_eq_error
    (represents : writer.Represents layout arrived)
    (refused : ¬layout.Admits arrived tile) :
    ∃ error, (writer.submitTile tile).value = (.error error, writer) := by
  unfold submitTile
  rw [if_neg represents.not_finished]
  by_cases inside : layout.grid.Contains tile.placement.position
  swap
  · have noFrame : writer.grid.placement tile.placement.position = .error .tileOutside := by
      rw [represents.grid_eq, Grid.placement_eq_error inside]
    rw [noFrame]
    exact ⟨_, rfl⟩
  have frame : writer.grid.placement tile.placement.position =
      .ok (layout.grid.frame tile.placement.position) := by
    rw [represents.grid_eq, Grid.placement_eq_ok inside]
  rw [frame]
  by_cases framed : tile.placement = layout.grid.frame tile.placement.position
  swap
  · simp only [ne_eq, framed, not_false_eq_true, if_true]
    exact ⟨_, rfl⟩
  by_cases channels : tile.channels = writer.channels
  swap
  · simp only [ne_eq, ← framed, channels, not_true_eq_false, not_false_eq_true, if_false, if_true]
    exact ⟨_, rfl⟩
  simp only [ne_eq, ← framed, channels, not_true_eq_false, if_false]
  have channels_eq := channels.trans represents.channels_eq
  cases neglectable : tile.isNeglectable with
  | true =>
      simp only [if_true]
      apply represents.submitNeglectable_eq_error
      rintro ⟨_, isNew⟩
      exact refused
        ⟨inside, framed, channels_eq, isNew, fun stored => by simp [neglectable] at stored⟩
  | false =>
      by_cases tooLarge : 0xffffffff < writer.fileSize + Block.size tile
      · simp only [Bool.false_eq_true, tooLarge, if_false, if_true]
        exact ⟨_, rfl⟩
      · rw [represents.fileSize_eq] at tooLarge
        obtain ⟨error, notMarked⟩ := represents.markSubmitted_eq_error
          (fun free => refused ⟨inside, framed, channels_eq, free.2, fun _ => by omega⟩)
        simp only [represents.fileSize_eq, Bool.false_eq_true, tooLarge, if_false, notMarked]
        exact ⟨_, rfl⟩

end Writer
end Texture
end DeepShadow
