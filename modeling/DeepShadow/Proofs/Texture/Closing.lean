import DeepShadow.Proofs.Texture.Writing

/-!
# From an empty file to a finished one

A file starts as the header and the room for the table.  However it is ended, by
finishing it or by giving its writer up, its bytes are those of the layout that
the writer represents at this time.
-/

namespace DeepShadow
namespace Texture

/-- What is reported of a layout: a tile that is not stored counts as elided,
whether it arrived or not. -/
def Layout.summary (layout : Layout) : Summary :=
  { tilesWritten := layout.stored.length
    tilesElided := layout.grid.tileCount - layout.stored.length
    dataSize := blocksSize layout.stored
    fileSize := layout.size }

/-- The layout of an image without stored tiles. -/
def Settings.layout (settings : Settings) (grid : Grid) : Layout :=
  { grid
    channels := settings.channels
    transforms := settings.transforms
    stored := [] }

/-- What the settings of a file tell about its grid. -/
theorem Settings.grid_eq_ok
    {settings : Settings}
    {grid : Grid}
    (accepted : settings.grid = .ok grid) :
    supportedChannels settings.channels.toNat = true ∧
      grid.imageWidth = settings.imageWidth.toNat ∧
      grid.imageHeight = settings.imageHeight.toNat ∧
      grid.tileWidth = settings.tileWidth.toNat ∧
      grid.tileHeight = settings.tileHeight.toNat ∧
      0 < settings.bucketWidth.toNat ∧
      0 < settings.bucketHeight.toNat ∧
      settings.tileWidth.toNat % settings.bucketWidth.toNat = 0 ∧
      settings.tileHeight.toNat % settings.bucketHeight.toNat = 0 := by
  unfold Settings.grid at accepted
  split at accepted
  · cases accepted
  next hasBucket =>
  split at accepted
  · cases accepted
  next supported =>
  split at accepted
  · cases accepted
  next made =>
  split at accepted
  · cases accepted
  next divides =>
  cases accepted
  obtain ⟨imageWidth, imageHeight, tileWidth, tileHeight⟩ := Grid.ofSizes_eq_ok made
  rw [not_or] at hasBucket
  rw [not_or, Decidable.not_not, Decidable.not_not] at divides
  rw [Bool.not_eq_true, Bool.not_eq_false'] at supported
  exact ⟨supported, imageWidth, imageHeight, tileWidth, tileHeight,
    Nat.pos_of_ne_zero fun zero => hasBucket.1 (UInt32.toNat_inj.mp zero),
    Nat.pos_of_ne_zero fun zero => hasBucket.2 (UInt32.toNat_inj.mp zero), divides⟩

namespace Writer

variable {layout : Layout} {arrived : List TilePosition} {writer : Writer}

/-- A new file represents the layout without stored tiles. -/
theorem create_eq_ok
    {settings : Settings}
    {grid : Grid}
    (path : String)
    (accepted : settings.grid = .ok grid)
    (fits : headerSize + Table.encodedSize grid < 0x100000000) :
    ∃ writer, (create path settings none).value = .ok writer ∧
      writer.Represents (settings.layout grid) [] := by
  obtain ⟨supported, imageWidth, imageHeight, tileWidth, tileHeight, _⟩ :=
    Settings.grid_eq_ok accepted
  unfold create
  rw [accepted]
  refine ⟨_, rfl, ?_⟩
  exact
    { unfinished := rfl
      valid :=
        { supported
          imageWidth_lt := imageWidth ▸ settings.imageWidth.toNat_lt
          imageHeight_lt := imageHeight ▸ settings.imageHeight.toNat_lt
          tileWidth_lt := tileWidth ▸ settings.tileWidth.toNat_lt
          tileHeight_lt := tileHeight ▸ settings.tileHeight.toNat_lt
          wellFormed := by intro tile member; cases member
          channels_eq := by intro tile member; cases member
          inside := by intro tile member; cases member
          framed := by intro tile member; cases member
          distinct := List.nodup_nil
          size_lt := fits }
      grid_eq := rfl
      header_eq := rfl
      has_iff := by simp
      counted := TileSet.counted_empty
      count_eq := rfl
      offset?_eq := fun position inside => Table.offset?_empty inside
      contents_eq := by
        unfold contents
        rw [OutputFile.contents_append, OutputFile.contents_ofBytes]
        exact congrArg _ (List.append_nil _).symm
      fileSize_eq := rfl
      dataSize_eq := rfl
      tilesWritten_eq := rfl
      arrived_stored := by intro tile member; cases member }

/-- The table that is written has the entries of the layout. -/
theorem Represents.entries_eq (represents : writer.Represents layout arrived) :
    writer.table.entries = layout.entries := by
  have positions : writer.grid.positions = layout.grid.positions := by rw [represents.grid_eq]
  unfold Table.entries Layout.entries
  rw [positions]
  apply List.map_congr_left
  intro position member
  rw [represents.offset?_eq position (Grid.mem_positions.mp member)]
  rfl

/-- All tiles that are not stored count as elided when the file is finished. -/
theorem Represents.elided_eq (represents : writer.Represents layout arrived) :
    writer.tilesElided + writer.submitted.missing.length =
      layout.grid.tileCount - layout.stored.length := by
  have tileCount : writer.grid.tileCount = layout.grid.tileCount := by rw [represents.grid_eq]
  have all := TileSet.length_missing_add_count represents.counted
  have count := represents.count_eq
  have written := represents.tilesWritten_eq
  omega

/-- Finishing writes the bytes of the layout. -/
theorem Represents.finish_eq_ok (represents : writer.Represents layout arrived) :
    ∃ next, writer.finish.value = (.ok layout.summary, next) ∧
      next.isFinished = true ∧
      next.contents = layout.bytes := by
  have size_lt := represents.valid.size_lt
  have fits : ¬0xffffffff < writer.fileSize := by
    rw [represents.fileSize_eq]
    omega
  have tableWritten : (writer.file.overwrite headerSize writer.table.encode).contents =
      writer.header.encode ++
        (layout.entries.flatMap Entry.encode ++ layout.stored.flatMap Block.encode) := by
    unfold Table.encode
    rw [represents.entries_eq]
    apply OutputFile.overwrite_between _ _ _ _ represents.contents_eq (Header.length_encode _)
    rw [List.length_replicate, Entry.length_flatMap_encode, Layout.length_entries]
    rfl
  have contents_eq : ((((writer.file.overwrite headerSize writer.table.encode).overwriteWord
      fileSizePlace (UInt32.ofNat writer.fileSize)).overwriteWord dataSizePlace
        (UInt32.ofNat writer.dataSize))).contents = layout.bytes := by
    rw [Header.contents_overwriteWord tableWritten, represents.header_eq, represents.fileSize_eq,
      represents.dataSize_eq, Layout.bytes, List.append_assoc]
    rfl
  have summary_eq : (⟨writer.tilesWritten, writer.tilesElided + writer.submitted.missing.length,
      writer.dataSize, writer.fileSize⟩ : Summary) = layout.summary := by
    rw [represents.elided_eq, represents.tilesWritten_eq, represents.dataSize_eq,
      represents.fileSize_eq]
    rfl
  unfold finish
  rw [if_neg represents.not_finished]
  simp only [fits, if_false]
  -- Whether tiles are missing decides only about a line of the log.
  split
  · exact ⟨_, congrArg (fun summary => (Except.ok summary, _)) summary_eq, rfl, contents_eq⟩
  · exact ⟨_, congrArg (fun summary => (Except.ok summary, _)) summary_eq, rfl, contents_eq⟩

/-- A writer that is given up leaves the bytes of the layout. -/
theorem Represents.release_eq (represents : writer.Represents layout arrived) :
    writer.release.value.isFinished = true ∧ writer.release.value.contents = layout.bytes := by
  obtain ⟨next, finished, isFinished, contents_eq⟩ := represents.finish_eq_ok
  have released : writer.release.value = next := by
    unfold release
    rw [if_neg represents.not_finished]
    simp only [Traced.value_bind, finished]
    rfl
  rw [released]
  exact ⟨isFinished, contents_eq⟩

end Writer
end Texture
end DeepShadow
