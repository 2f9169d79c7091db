import DeepShadow.Proofs.Texture.Eliding

/-!
# The bytes of a finished file

A file is written piece by piece: a header without sizes, room for the table, the blocks
as their tiles arrive, and at the end the table and the two sizes over what was left open
for them.  Its bytes are those of a layout written in one go.  The blocks fill the file
from the end of the table to its own end, and what is reported of the file is what the
file tells itself.
-/

namespace DeepShadow
namespace Texture

/-! ## Places of blocks -/

namespace Layout

variable {layout : Layout} {index : Nat}

/-- The place behind as many blocks as `index` tells. -/
def placeBehind (layout : Layout) (index : Nat) : Nat :=
  layout.dataStart + blocksSize (layout.stored.take index)

@[simp] theorem placeBehind_zero (layout : Layout) :
    layout.placeBehind 0 = layout.dataStart := rfl

theorem placeBehind_succ (inside : index < layout.stored.length) :
    layout.placeBehind (index + 1) =
      layout.placeBehind index + Block.size layout.stored[index] := by
  unfold placeBehind
  rw [List.take_succ_eq_append_getElem inside, blocksSize_append, blocksSize_cons, blocksSize_nil]
  omega

@[simp] theorem placeBehind_length (layout : Layout) :
    layout.placeBehind layout.stored.length = layout.size := by
  rw [placeBehind, List.take_length, size]

/-- The tiles before and behind a stored tile. -/
theorem stored_split (inside : index < layout.stored.length) :
    layout.stored =
      layout.stored.take index ++ layout.stored[index] :: layout.stored.drop (index + 1) := by
  rw [← List.drop_eq_getElem_cons inside, List.take_append_drop]

/-- The table tells the place behind the blocks in front of a tile. -/
theorem Valid.toNat_offset
    (valid : layout.Valid)
    (inside : index < layout.stored.length) :
    (layout.offset layout.stored[index].placement.position).toNat = layout.placeBehind index := by
  have placed := valid.place?_eq (stored_split inside)
  rw [offset, placed, Option.getD_some]
  exact (valid.toNat_ofNat_place placed).1

/-- A stored tile lies where the table tells, up to where the table tells of the next one
or up to the end of the file. -/
theorem Valid.block_at
    (valid : layout.Valid)
    (inside : index < layout.stored.length) :
    let tile := layout.stored[index]
    (layout.entry tile.placement.position).offset.toNat = layout.placeBehind index ∧
      (layout.bytes.drop (layout.placeBehind index)).take (Block.size tile) =
        Block.encode tile ∧
      layout.placeBehind index + Block.size tile =
        match layout.stored[index + 1]? with
        | some next => (layout.entry next.placement.position).offset.toNat
        | none => layout.bytes.length := by
  refine ⟨valid.toNat_offset inside, take_drop_bytes (stored_split inside), ?_⟩
  rw [← placeBehind_succ inside]
  split
  next next isNext =>
    obtain ⟨nextInside, rfl⟩ := List.getElem?_eq_some_iff.mp isNext
    exact (valid.toNat_offset nextInside).symm
  next isLast =>
    have atEnd : index + 1 = layout.stored.length :=
      Nat.le_antisymm inside (List.getElem?_eq_none_iff.mp isLast)
    rw [atEnd, placeBehind_length, length_bytes]

/-- What is reported of a layout counts the entries of its table. -/
theorem Valid.summary_counts (valid : layout.Valid) :
    layout.summary.tilesWritten = layout.entries.countP (fun entry => entry.offset ≠ 0) ∧
      layout.summary.tilesWritten + layout.summary.tilesElided = layout.grid.tileCount := by
  refine ⟨?_, Nat.add_sub_cancel' valid.length_stored_le⟩
  unfold entries
  rw [List.countP_map]
  exact valid.countP_offset_ne_zero.symm

end Layout

/-! ## Arrived tiles -/

namespace Outcome

/-- A tile has arrived because of one of the outcomes. -/
def Arrives (outcomes : List Outcome) (position : TilePosition) : Prop :=
  ∃ outcome ∈ outcomes, outcome.arrived? = some position

/-- A tile has arrived because of one of the outcomes, and it is not stored. -/
def Elides (outcomes : List Outcome) (position : TilePosition) : Prop :=
  ∃ outcome ∈ outcomes, outcome.arrived? = some position ∧ outcome.stored? = none

/-- Where every position arrives once, the positions without a stored tile are those that
arrive without one and those that never arrive. -/
theorem not_mem_stored_iff
    {outcomes : List Outcome}
    (apart : outcomes.Pairwise Apart)
    (position : TilePosition) :
    (position ∉ (outcomes.filterMap stored?).map fun tile => tile.placement.position) ↔
      Elides outcomes position ∨ ¬Arrives outcomes position := by
  constructor
  · intro absent
    rw [or_iff_not_imp_right, Classical.not_not]
    rintro ⟨outcome, member, arrived⟩
    refine ⟨outcome, member, arrived, ?_⟩
    rw [Option.eq_none_iff_forall_ne_some]
    intro tile stored
    have same := (arrived?_of_stored stored).symm.trans arrived
    exact absent (List.mem_map.mpr
      ⟨tile, List.mem_filterMap.mpr ⟨outcome, member, stored⟩, Option.some_inj.mp same⟩)
  · intro elidedOrMissing isStored
    obtain ⟨tile, tileMember, rfl⟩ := List.mem_map.mp isStored
    obtain ⟨outcome, member, stored⟩ := List.mem_filterMap.mp tileMember
    have arrived := arrived?_of_stored stored
    rcases elidedOrMissing with ⟨other, otherMember, otherArrived, otherElided⟩ | missing
    · have different : outcome ≠ other := by
        rintro rfl
        rw [stored] at otherElided
        cases otherElided
      exact apart.forall member otherMember different _ arrived otherArrived
    · exact missing ⟨outcome, member, arrived⟩

end Outcome

/-! ## Files -/

/-- The layout of a file behind what became of some submissions. -/
def Settings.layoutAfter (settings : Settings) (grid : Grid) (outcomes : List Outcome) : Layout :=
  { settings.layout grid with stored := outcomes.filterMap Outcome.stored? }

/-- A file that is written piece by piece is the layout of its tiles written in one go:
the header with the sizes of the file and of its blocks, one entry for each tile, row by
row, and the blocks of the tiles that were taken and are not neglectable, in the order in
which they were taken.  The entry of such a tile tells the place behind all blocks before
it, where its block is; the others tell that their tile was elided or never arrived.  The
report counts the entries and tells the sizes. -/
theorem written_in_order
    (path : String)
    (settings : Settings)
    (grid : Grid)
    (accepted : settings.grid = .ok grid)
    (fits : headerSize + Table.encodedSize grid < 0x100000000)
    (submissions : List Submission) :
    ∃ writer results last summary finished layout,
      (Writer.create path settings none).value = .ok writer ∧
      (writer.submitAll submissions).value = (results, last) ∧
      results.length = submissions.length ∧
      last.finish.value = (.ok summary, finished) ∧
      layout = settings.layoutAfter grid (submissions.zip results) ∧
      finished.contents =
        { Header.ofGrid grid settings.channels settings.transforms with
          fileSize := UInt32.ofNat finished.contents.length
          dataSize := UInt32.ofNat (blocksSize layout.stored) }.encode ++
        (grid.positions.map layout.entry).flatMap Entry.encode ++
        layout.stored.flatMap Block.encode ∧
      (∀ index (inside : index < layout.stored.length),
        let tile := layout.stored[index]
        let place := headerSize + grid.tileCount * entrySize +
          blocksSize (layout.stored.take index)
        (layout.entry tile.placement.position).offset.toNat = place ∧
          (finished.contents.drop place).take (Block.size tile) = Block.encode tile ∧
          place + Block.size tile =
            match layout.stored[index + 1]? with
            | some next => (layout.entry next.placement.position).offset.toNat
            | none => finished.contents.length) ∧
      (∀ position, (layout.entry position).offset = 0 ↔
        Outcome.Elides (submissions.zip results) position ∨
          ¬Outcome.Arrives (submissions.zip results) position) ∧
      summary.tilesWritten =
        (grid.positions.map layout.entry).countP (fun entry => entry.offset ≠ 0) ∧
      summary.tilesWritten + summary.tilesElided = grid.tileCount ∧
      summary.dataSize = blocksSize layout.stored ∧
      summary.fileSize = finished.contents.length ∧
      finished.contents.length < 0x100000000 := by
  obtain ⟨writer, created, represents⟩ := Writer.create_eq_ok path accepted fits
  obtain ⟨results, last, arrived, submitted, sameLength, representsLast⟩ :=
    represents.submitAll_eq submissions
  obtain ⟨layout, layout_eq⟩ : ∃ layout, layout = settings.layoutAfter grid
    (submissions.zip results) := ⟨_, rfl⟩
  have representsLayout : last.Represents layout arrived := by
    rw [layout_eq]
    exact representsLast
  have grid_eq : layout.grid = grid := congrArg Layout.grid layout_eq
  have header_eq : layout.header =
      { Header.ofGrid grid settings.channels settings.transforms with
        fileSize := UInt32.ofNat layout.size
        dataSize := UInt32.ofNat (blocksSize layout.stored) } := by
    rw [layout_eq]
    rfl
  obtain ⟨finished, isFinished, _, contents_eq⟩ := representsLayout.finish_eq_ok
  have apart := (represents.pairwise_arrived submitted).2
  have valid := representsLayout.valid
  obtain ⟨written, all⟩ := valid.summary_counts
  have length_eq : finished.contents.length = layout.size := by
    rw [contents_eq, Layout.length_bytes]
  refine ⟨writer, results, last, layout.summary, finished, layout, created, submitted, sameLength,
    isFinished, layout_eq, ?_, ?_, ?_, grid_eq ▸ written, grid_eq ▸ all, rfl, length_eq.symm, ?_⟩
  · rw [length_eq, ← header_eq, contents_eq, ← grid_eq]
    rfl
  · intro index inside
    rw [contents_eq, ← grid_eq]
    exact valid.block_at inside
  · intro position
    have stored_eq : layout.stored = (submissions.zip results).filterMap Outcome.stored? :=
      congrArg Layout.stored layout_eq
    rw [← Outcome.not_mem_stored_iff apart, ← stored_eq]
    exact valid.offset_eq_zero_iff position
  · rw [length_eq]
    exact valid.size_lt

namespace TwoBlocks

/-- The second tile of the image, with two nodes for its pixel. -/
def tile : Tile :=
  { placement := ⟨⟨1, 0⟩, 2, 0, 1, 1⟩
    channels := 1
    offsets := #[0, 2]
    values := #[⟨0⟩, ⟨1⟩, ⟨2⟩, ⟨3⟩] }

theorem built_tile : tile.Built :=
  .ofParts (show Tile.ofParts tile.placement 1 tile.offsets tile.values = .ok tile from by decide)

/-- The second tile, a tile outside the image, and the first tile. -/
def submissions : List Submission :=
  [.tile tile built_tile, .neglectable ⟨5, 0⟩, .tile ThreePixels.tile ThreePixels.built_tile]

end TwoBlocks

/-- Both tiles of an image of three pixels are written, the second one first. -/
theorem written_in_order_twoBlocks :
    ∃ grid writer results last summary finished,
      ThreePixels.settings.grid = .ok grid ∧
      headerSize + Table.encodedSize grid < 0x100000000 ∧
      (Writer.create "map" ThreePixels.settings none).value = .ok writer ∧
      (writer.submitAll TwoBlocks.submissions).value = (results, last) ∧
      last.finish.value = (.ok summary, finished) ∧
      results = [.ok (), .error (.outsideGrid ⟨5, 0⟩), .ok ()] ∧
      (finished.contents.drop 192).take 24 = Block.encode TwoBlocks.tile ∧
      (finished.contents.drop 216).take 36 = Block.encode ThreePixels.tile ∧
      finished.contents.length = 252 ∧
      summary = ⟨2, 0, 60, 252⟩ := by
  have accepted : ∃ grid, ThreePixels.settings.grid = .ok grid := ⟨_, rfl⟩
  obtain ⟨grid, accepted⟩ := accepted
  have fits : headerSize + Table.encodedSize grid < 0x100000000 := by
    cases accepted
    decide
  obtain ⟨writer, results, last, summary, finished, layout, created, submitted, _, isFinished,
    layout_eq, _, blocks, _, written, all, dataSize, fileSize, _⟩ :=
    written_in_order "map" _ grid accepted fits TwoBlocks.submissions
  have results_eq : results = [.ok (), .error (.outsideGrid ⟨5, 0⟩), .ok ()] := by
    cases created
    exact (congrArg Prod.fst submitted).symm.trans (by decide +kernel)
  refine ⟨grid, writer, results, last, summary, finished, accepted, fits, created, submitted,
    isFinished, results_eq, ?_⟩
  cases accepted
  subst results_eq layout_eq
  have second := blocks 0 (by decide)
  have first := blocks 1 (by decide)
  have length_eq : finished.contents.length = 252 := first.2.2.symm
  refine ⟨second.2.1, first.2.1, length_eq, ?_⟩
  rw [length_eq] at fileSize
  have tilesWritten : summary.tilesWritten = 2 := written.trans (by decide)
  rw [tilesWritten] at all
  have tilesElided : summary.tilesElided = 0 := Nat.add_left_cancel all
  obtain ⟨_, _, _, _⟩ := summary
  cases tilesWritten
  cases tilesElided
  cases dataSize
  cases fileSize
  rfl

end Texture
end DeepShadow
