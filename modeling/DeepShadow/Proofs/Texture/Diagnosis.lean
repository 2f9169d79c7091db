import DeepShadow.Proofs.Texture.Acceptance

/-!
# What is wrong with a header

A header is looked at in a fixed order: its number of channels, then whether its sizes make
a grid, then the number of tiles.  The sizes make no grid where a side is empty, and where
the image needs `2 ^ 32` tiles or more.  The second case is reported like the first one,
although no side is empty then.
-/

namespace DeepShadow

/-- Sizes make a grid where no side is empty and the tiles can be counted in a word. -/
theorem Grid.exists_ofSizes_iff {imageWidth imageHeight tileWidth tileHeight : Nat} :
    (∃ grid, ofSizes imageWidth imageHeight tileWidth tileHeight = .ok grid) ↔
      (0 < imageWidth ∧ 0 < imageHeight) ∧ (0 < tileWidth ∧ 0 < tileHeight) ∧
        partsCovering imageWidth tileWidth * partsCovering imageHeight tileHeight <
          0x100000000 := by
  unfold ofSizes
  split_ifs with imagePositive tilePositive counted
  · exact ⟨fun _ => ⟨imagePositive, tilePositive, counted⟩, fun _ => ⟨_, rfl⟩⟩
  · simp [counted]
  · simp [tilePositive]
  · simp [imagePositive]

namespace Texture
namespace Header

variable {header : Header}

/-- A side of the image or of the tiles is zero. -/
def HasEmptySide (header : Header) : Prop :=
  header.imageWidth = 0 ∨ header.imageHeight = 0 ∨ header.tileWidth = 0 ∨ header.tileHeight = 0

instance (header : Header) : Decidable header.HasEmptySide :=
  inferInstanceAs (Decidable (_ ∨ _))

/-- The number of tiles that cover the image, which need not fit into a word. -/
def tilesNeeded (header : Header) : Nat := header.columns * header.rows

theorem not_hasEmptySide_iff :
    ¬header.HasEmptySide ↔
      (0 < header.imageWidth.toNat ∧ 0 < header.imageHeight.toNat) ∧
        0 < header.tileWidth.toNat ∧ 0 < header.tileHeight.toNat := by
  have positive_iff (word : UInt32) : 0 < word.toNat ↔ ¬word = 0 := by
    rw [Nat.pos_iff_ne_zero, ← not_congr (UInt32.toNat_inj (a := word) (b := 0))]
    rfl
  simp only [HasEmptySide, positive_iff, not_or, and_assoc]

theorem tilesNeeded_eq (header : Header) :
    header.tilesNeeded =
      partsCovering header.imageWidth.toNat header.tileWidth.toNat *
        partsCovering header.imageHeight.toNat header.tileHeight.toNat := by
  unfold tilesNeeded columns rows partsCovering
  rw [Nat.ceilDiv_eq_add_pred_div, Nat.ceilDiv_eq_add_pred_div]

/-! ## In the order of the checks -/

theorem grid_of_unsupported (unsupported : supportedChannels header.channels.toNat = false) :
    header.grid = .error (.unsupportedChannels header.channels.toNat) := by
  unfold Header.grid
  rw [unsupported]
  rfl

section Supported

variable (supported : supportedChannels header.channels.toNat = true)

include supported

/-- Sizes that make no grid are reported before the number of tiles is looked at. -/
theorem grid_of_no_sizes (none : header.HasEmptySide ∨ 2 ^ 32 ≤ header.tilesNeeded) :
    header.grid = .error .noGrid := by
  have noGrid : ¬∃ grid, Grid.ofSizes header.imageWidth.toNat header.imageHeight.toNat
      header.tileWidth.toNat header.tileHeight.toNat = .ok grid := by
    rw [Grid.exists_ofSizes_iff, ← and_assoc, ← not_hasEmptySide_iff, ← tilesNeeded_eq]
    rintro ⟨notEmpty, counted⟩
    exact none.elim notEmpty (Nat.not_le_of_lt counted)
  unfold Header.grid
  rw [supported]
  cases made : Grid.ofSizes header.imageWidth.toNat header.imageHeight.toNat
      header.tileWidth.toNat header.tileHeight.toNat with
  | ok grid => exact absurd ⟨grid, made⟩ noGrid
  | error error => rfl

/-- Sizes that make a grid are compared with the number of tiles. -/
theorem grid_of_sizes
    (notEmpty : ¬header.HasEmptySide)
    (counted : header.tilesNeeded < 2 ^ 32) :
    ∃ grid : Grid, grid.tileCount = header.tilesNeeded ∧
      header.grid =
        if header.tilesNeeded ≠ header.tileCount.toNat then
          .error (.tileCount header.tilesNeeded header.tileCount.toNat)
        else .ok grid := by
  obtain ⟨imagePositive, tilePositive⟩ := not_hasEmptySide_iff.mp notEmpty
  obtain ⟨grid, made⟩ := Grid.exists_ofSizes_iff.mpr
    ⟨imagePositive, tilePositive, tilesNeeded_eq header ▸ counted⟩
  obtain ⟨imageWidth, imageHeight, tileWidth, tileHeight⟩ := Grid.ofSizes_eq_ok made
  have count_eq : grid.tileCount = header.tilesNeeded := by
    rw [tilesNeeded_eq, ← imageWidth, ← imageHeight, ← tileWidth, ← tileHeight]
    rfl
  refine ⟨grid, count_eq, ?_⟩
  rw [← count_eq]
  unfold Header.grid
  rw [supported, made]
  rfl

end Supported

/-- A grid that is described has the sizes of its header and the tiles that these need. -/
theorem sizes_of_described {grid : Grid} (described : header.grid = .ok grid) :
    grid.imageWidth = header.imageWidth.toNat ∧ grid.imageHeight = header.imageHeight.toNat ∧
      grid.tileWidth = header.tileWidth.toNat ∧ grid.tileHeight = header.tileHeight.toNat ∧
      grid.tileCount = header.tilesNeeded ∧ grid.tileCount < 2 ^ 32 := by
  obtain ⟨-, imageWidth, imageHeight, tileWidth, tileHeight, -⟩ := grid_eq_ok_iff.mp described
  refine ⟨imageWidth, imageHeight, tileWidth, tileHeight, ?_, grid.tileCount_lt⟩
  rw [Grid.tileCount, columns_eq described, rows_eq described, tilesNeeded]

/-- A header with other than one or three channels is refused for these; else one with an
empty side, and one whose image needs `2 ^ 32` tiles or more, is refused like one with an
empty side; else one with another number of tiles than the image needs is refused for this;
and every other header describes the grid of its sizes, whose tiles can be counted in a
word. -/
theorem refused_in_order (header : Header) :
    (∀ grid, header.grid = .ok grid ->
      grid.imageWidth = header.imageWidth.toNat ∧ grid.imageHeight = header.imageHeight.toNat ∧
        grid.tileWidth = header.tileWidth.toNat ∧ grid.tileHeight = header.tileHeight.toNat ∧
        grid.tileCount = header.tilesNeeded ∧ grid.tileCount < 2 ^ 32) ∧
    (∀ channels, header.grid = .error (.unsupportedChannels channels) ↔
      ¬(header.channels = 1 ∨ header.channels = 3) ∧ channels = header.channels.toNat) ∧
    (header.grid = .error .noGrid ↔
      (header.channels = 1 ∨ header.channels = 3) ∧
        (header.HasEmptySide ∨ 2 ^ 32 ≤ header.tilesNeeded)) ∧
    (∀ expected actual, header.grid = .error (.tileCount expected actual) ↔
      (header.channels = 1 ∨ header.channels = 3) ∧ ¬header.HasEmptySide ∧
        header.tilesNeeded < 2 ^ 32 ∧ header.tilesNeeded ≠ header.tileCount.toNat ∧
        expected = header.tilesNeeded ∧ actual = header.tileCount.toNat) ∧
    ((∃ grid, header.grid = .ok grid) ↔
      (header.channels = 1 ∨ header.channels = 3) ∧ ¬header.HasEmptySide ∧
        header.tilesNeeded = header.tileCount.toNat) := by
  refine ⟨fun grid => sizes_of_described, ?_⟩
  have supported_iff : (header.channels = 1 ∨ header.channels = 3) ↔
      supportedChannels header.channels.toNat = true := by
    rw [supportedChannels_iff, ← UInt32.toNat_inj, ← UInt32.toNat_inj]
    rfl
  have word : header.tileCount.toNat < 2 ^ 32 := header.tileCount.toNat_lt
  have noSizes := @grid_of_no_sizes header
  have sizes := @grid_of_sizes header
  rw [supported_iff]
  generalize 2 ^ 32 = limit at *
  cases supported : supportedChannels header.channels.toNat with
  | false => simp [grid_of_unsupported supported, eq_comm]
  | true =>
      by_cases empty : header.HasEmptySide
      · simp [noSizes supported (Or.inl empty), empty]
      rcases Nat.lt_or_ge header.tilesNeeded limit with counted | many
      · obtain ⟨grid, -, grid_eq⟩ := sizes supported empty counted
        rw [grid_eq]
        by_cases same : header.tilesNeeded = header.tileCount.toNat
        · simp [empty, word, same]
        · simp [empty, counted, same, eq_comm]
      · have differs : header.tilesNeeded ≠ header.tileCount.toNat :=
          Nat.ne_of_gt (Nat.lt_of_lt_of_le word many)
        simp [noSizes supported (Or.inr many), empty, many, differs, Nat.not_lt.mpr many]

/-- The header of an image of `2 ^ 32` pixels in tiles of one pixel each. -/
def overflowing : Header :=
  { fileSize := 168
    imageWidth := 65536
    imageHeight := 65536
    channels := 1
    dataSize := 0
    tileWidth := 1
    tileHeight := 1
    tileCount := 0
    transforms := Transforms.identity }

/-- The image needs more tiles than can be counted in a word.  None of its sides is empty,
but this is what is reported. -/
theorem overflowing_called_empty :
    ¬overflowing.HasEmptySide ∧ overflowing.tilesNeeded ≠ overflowing.tileCount.toNat ∧
      overflowing.grid.mapError FormatError.message =
        .error "header has a zero image or tile dimension" := by
  decide +kernel

end Header
end Texture
end DeepShadow
