import DeepShadow.Proofs.Assembly.Emission
import DeepShadow.Proofs.Texture.RoundTrip
import DeepShadow.Session

/-!
# The file behind an assembly

Where the sink of an assembly is the writer of a file, the file has a block for
each complete tile of the canvas that is not neglectable.  The writer refuses none
of the tiles, because each is new and has the frame of its place, and because the
blocks of all of them fit into the file.
-/

namespace DeepShadow

/-- A value that is new for one member of a list is added to those found before. -/
theorem perm_filterMap_of_eq_off
    {α β : Type}
    {values : List α}
    (distinct : values.Nodup)
    {before after : α -> Option β}
    {value : α}
    (member : value ∈ values)
    (isNew : before value = none)
    (others : ∀ other, other ≠ value -> after other = before other) :
    (values.filterMap after).Perm (values.filterMap before ++ (after value).toList) := by
  obtain ⟨front, behind, rfl⟩ := List.append_of_mem member
  rw [List.nodup_append, List.nodup_cons] at distinct
  obtain ⟨_, ⟨notBehind, _⟩, notFront⟩ := distinct
  have front_eq : front.filterMap after = front.filterMap before :=
    List.filterMap_congr fun other otherMember =>
      others other fun same => notFront other otherMember value List.mem_cons_self same
  have behind_eq : behind.filterMap after = behind.filterMap before :=
    List.filterMap_congr fun other otherMember =>
      others other fun same => notBehind (same ▸ otherMember)
  rw [List.filterMap_append, List.filterMap_append, List.filterMap_cons, List.filterMap_cons, isNew,
    front_eq, behind_eq]
  cases after value with
  | none => simp
  | some found =>
      rw [List.append_assoc]
      exact (List.perm_append_singleton found _).symm.append_left _

/-- Values that are kept are found in the same order. -/
theorem sublist_filterMap
    {α β : Type}
    (values : List α)
    {before after : α -> Option β}
    (kept : ∀ value found, before value = some found -> after value = some found) :
    (values.filterMap before).Sublist (values.filterMap after) := by
  induction values with
  | nil => exact List.Sublist.refl _
  | cons value values inductionHypothesis =>
      rw [List.filterMap_cons, List.filterMap_cons]
      cases found : before value with
      | none =>
          cases after value with
          | none => exact inductionHypothesis
          | some _ => exact inductionHypothesis.cons _
      | some first =>
          rw [kept value first found]
          exact inductionHypothesis.cons_cons _

/-- Fewer blocks have no more bytes. -/
theorem Texture.blocksSize_le_of_sublist
    {first second : List Tile}
    (sublist : first.Sublist second) :
    Texture.blocksSize first ≤ Texture.blocksSize second := by
  induction sublist with
  | slnil => exact Nat.le_refl _
  | cons tile _ inductionHypothesis =>
      rw [Texture.blocksSize_cons]
      exact Nat.le_add_left_of_le inductionHypothesis
  | cons_cons tile _ inductionHypothesis =>
      rw [Texture.blocksSize_cons, Texture.blocksSize_cons]
      exact Nat.add_le_add_left inductionHypothesis _

namespace Assembly

/-- What is read of an assembled tile that was written: the fully visible tile where
it is neglectable. -/
def AssembledTile.orVisible (visible : Tile) : AssembledTile -> Tile
  | .stored tile => tile
  | .neglectable _ => visible

namespace Image

open Texture (Layout Reader Summary Writer)

/-! ## The tiles of a canvas that have to be stored -/

/-- The tile that has to be stored at a position. -/
def stored? (image : Image) (canvas : Canvas) (position : TilePosition) : Option Tile :=
  if image.Completes canvas position then
    match image.assembled canvas position with
    | .stored tile => some tile
    | .neglectable _ => none
  else none

/-- The tiles that have to be stored, row by row. -/
def storedTiles (image : Image) (canvas : Canvas) : List Tile :=
  image.grid.positions.filterMap (image.stored? canvas)

/-- The number of bytes of the file. -/
def fileSize (image : Image) (canvas : Canvas) : Nat :=
  Texture.headerSize + Texture.Table.encodedSize image.grid +
    Texture.blocksSize (image.storedTiles canvas)

/-- What is reported of the file. -/
def summary (image : Image) (canvas : Canvas) : Summary :=
  { tilesWritten := (image.storedTiles canvas).length
    tilesElided := image.grid.tileCount - (image.storedTiles canvas).length
    dataSize := Texture.blocksSize (image.storedTiles canvas)
    fileSize := image.fileSize canvas }

variable {image : Image} {canvas later : Canvas} {position : TilePosition} {tile : Tile}

/-- A tile that has to be stored is the tile of a position that is complete. -/
theorem stored?_eq_some
    (found : image.stored? canvas position = some tile) :
    image.Completes canvas position ∧
      image.assembled canvas position = .stored tile ∧
      tile.placement = image.grid.frame position := by
  unfold stored? at found
  split at found
  next completes =>
    split at found
    next stored assembled_eq =>
      cases found
      refine ⟨completes, assembled_eq, ?_⟩
      unfold assembled Canvas.assemble at assembled_eq
      split at assembled_eq
      · cases assembled_eq
      · cases assembled_eq
        rfl
    next => cases found
  next => cases found

theorem stored?_of_assembled
    (completes : image.Completes canvas position)
    (assembled_eq : image.assembled canvas position = .stored tile) :
    image.stored? canvas position = some tile := by
  unfold stored?
  rw [if_pos completes, assembled_eq]

theorem mem_storedTiles :
    tile ∈ image.storedTiles canvas ↔
      ∃ position, image.grid.Contains position ∧ image.stored? canvas position = some tile := by
  unfold storedTiles
  rw [List.mem_filterMap]
  simp only [Grid.mem_positions]

/-- No tile has to be stored more than once. -/
theorem length_storedTiles_le (image : Image) (canvas : Canvas) :
    (image.storedTiles canvas).length ≤ image.grid.tileCount := by
  rw [← Grid.length_positions]
  exact List.length_filterMap_le _ _

/-- A tile that has to be stored is not neglectable, and well formed. -/
theorem stored?_wellFormed
    (sound : canvas.Sound image.channels)
    (countable : image.Countable canvas)
    (inside : image.grid.Contains position)
    (found : image.stored? canvas position = some tile) :
    tile.channels = image.channels ∧ tile.isNeglectable = false ∧ tile.WellFormed := by
  obtain ⟨completes, assembled_eq, _⟩ := stored?_eq_some found
  have countableHere := countable position inside completes
  unfold assembled Canvas.assemble at assembled_eq
  split at assembled_eq
  · cases assembled_eq
  next several =>
    cases assembled_eq
    have notNeglectable : (Tile.ofRuns (image.grid.frame position) image.channels
        (canvas.runs (image.grid.frame position))).isNeglectable = false := by
      rw [← Bool.not_eq_true, Tile.isNeglectable_ofRuns countableHere]
      exact several
    have made := Tile.ofParts_ofRuns image.supported
      (Canvas.length_runs canvas (image.grid.frame position)) (sound.isRun_runs completes)
      countableHere
    exact ⟨rfl, notNeglectable, (Tile.Built.ofParts made).wellFormed notNeglectable⟩

/-- What has to be stored of a tile depends on its own pixels only. -/
theorem stored?_of_sameIn
    (sameIn : later.SameIn (image.grid.frame position) canvas) :
    image.stored? later position = image.stored? canvas position := by
  have completes_iff : image.Completes later position ↔ image.Completes canvas position :=
    sameIn.completes_iff
  unfold stored? assembled Canvas.assemble
  simp only [completes_iff, sameIn.runs_eq]

/-- A canvas has one more complete tile than another one. -/
structure Advances
    (image : Image)
    (canvas later : Canvas)
    (position : TilePosition) : Prop where
  inside : image.grid.Contains position
  before : ¬image.Completes canvas position
  others : ∀ other, other ≠ position -> later.SameIn (image.grid.frame other) canvas

theorem Admits.advances
    {region : Region}
    (admits : image.Admits region)
    (before : ¬image.Completes canvas (image.tileOf region)) :
    image.Advances canvas (canvas.paint region) (image.tileOf region) :=
  ⟨admits.contains_tileOf, before, fun _ different => admits.sameIn_paint different canvas⟩

theorem Advances.stored?_eq
    (advances : image.Advances canvas later position)
    {other : TilePosition}
    (different : other ≠ position) :
    image.stored? later other = image.stored? canvas other :=
  stored?_of_sameIn (advances.others other different)

theorem Advances.stored?_before
    (advances : image.Advances canvas later position) :
    image.stored? canvas position = none := if_neg advances.before

/-- The tile that is new has to be stored behind the others. -/
theorem Advances.perm_storedTiles
    (advances : image.Advances canvas later position) :
    (image.storedTiles later).Perm
      (image.storedTiles canvas ++ (image.stored? later position).toList) :=
  perm_filterMap_of_eq_off image.grid.nodup_positions (Grid.mem_positions.mpr advances.inside)
    advances.stored?_before fun _ different => advances.stored?_eq different

theorem Advances.completes_iff
    (advances : image.Advances canvas later position)
    (now : image.Completes later position)
    (other : TilePosition) :
    image.Completes later other ↔ other = position ∨ image.Completes canvas other := by
  by_cases same : other = position
  · rw [same]
    exact iff_of_true now (Or.inl rfl)
  · rw [or_iff_right same]
    exact (advances.others other same).completes_iff

/-- A file does not shrink. -/
theorem fileSize_le_of_extends
    (image : Image)
    (extend : later.Extends canvas) :
    image.fileSize canvas ≤ image.fileSize later := by
  apply Nat.add_le_add_left
  apply Texture.blocksSize_le_of_sublist
  apply sublist_filterMap
  intro position tile found
  obtain ⟨completes, assembled_eq, _⟩ := stored?_eq_some found
  apply stored?_of_assembled (extend.completes completes)
  rw [← assembled_eq]
  exact extend.assemble_eq completes

/-! ## Files with the tiles of a canvas -/

/-- A layout has the complete tiles of a canvas. -/
structure Records (image : Image) (canvas : Canvas) (layout : Layout) : Prop where
  valid : layout.Valid
  grid_eq : layout.grid = image.grid
  channels_eq : layout.channels.toNat = image.channels
  stored : layout.stored.Perm (image.storedTiles canvas)

theorem Records.size_eq
    {layout : Layout}
    (records : image.Records canvas layout) :
    layout.size = image.fileSize canvas := by
  unfold Layout.size Layout.dataStart fileSize
  rw [Texture.blocksSize_perm records.stored, records.grid_eq]

theorem Records.summary_eq
    {layout : Layout}
    (records : image.Records canvas layout) :
    layout.summary = image.summary canvas := by
  unfold Layout.summary summary
  rw [records.size_eq, records.stored.length_eq, Texture.blocksSize_perm records.stored,
    records.grid_eq]

/-- Every tile is loaded that has to be stored; the others are fully visible. -/
theorem Records.load_eq
    {layout : Layout}
    (records : image.Records canvas layout)
    {reader : Reader}
    (readBy : layout.ReadBy reader)
    (inside : image.grid.Contains position) :
    reader.load position =
      .ok ((image.stored? canvas position).getD
        (Tile.visible (image.grid.frame position) image.channels)) := by
  cases found : image.stored? canvas position with
  | some tile =>
      have member : tile ∈ layout.stored :=
        records.stored.mem_iff.mpr (mem_storedTiles.mpr ⟨position, inside, found⟩)
      have placement_eq := (stored?_eq_some found).2.2
      have loaded := records.valid.load_stored readBy member
      rw [placement_eq] at loaded
      exact loaded
  | none =>
      have insideLayout : layout.grid.Contains position := records.grid_eq ▸ inside
      have absent : position ∉ layout.stored.map fun tile => tile.placement.position := by
        intro member
        obtain ⟨tile, stored, position_eq⟩ := List.mem_map.mp member
        obtain ⟨other, _, foundThere⟩ := mem_storedTiles.mp (records.stored.mem_iff.mp stored)
        have same : other = position := by
          rw [← position_eq, (stored?_eq_some foundThere).2.2]
          rfl
        rw [same, found] at foundThere
        cases foundThere
      have loaded := readBy.load_absent insideLayout absent
      rw [records.grid_eq, records.channels_eq] at loaded
      exact loaded

/-- A writer has taken the complete tiles of a canvas, and waits for the others. -/
def Holds (image : Image) (canvas : Canvas) (writer : Writer) : Prop :=
  ∃ layout arrived, writer.Represents layout arrived ∧
    image.Records canvas layout ∧
    ∀ position, position ∈ arrived ↔
      image.grid.Contains position ∧ image.Completes canvas position

/-- A file is finished with the complete tiles of a canvas. -/
def Finishes (image : Image) (canvas : Canvas) (writer : Writer) : Prop :=
  writer.isFinished = true ∧
    ∃ layout, image.Records canvas layout ∧ writer.contents = layout.bytes

/-- Pixels of an incomplete tile do not reach the writer. -/
theorem Holds.advance
    {writer : Writer}
    (holds : image.Holds canvas writer)
    (advances : image.Advances canvas later position)
    (incomplete : ¬image.Completes later position) :
    image.Holds later writer := by
  obtain ⟨layout, arrived, represents, records, arrived_iff⟩ := holds
  have stored_eq : image.storedTiles later = image.storedTiles canvas := by
    apply List.filterMap_congr
    intro other _
    by_cases same : other = position
    · rw [same, advances.stored?_before]
      exact if_neg incomplete
    · exact advances.stored?_eq same
  refine ⟨layout, arrived, represents, { records with stored := stored_eq ▸ records.stored }, ?_⟩
  intro other
  rw [arrived_iff]
  apply and_congr_right
  intro _
  by_cases same : other = position
  · rw [same]
    exact iff_of_false advances.before incomplete
  · exact (advances.others other same).completes_iff.symm

/-- When a tile has become complete, it is one of the tiles that have arrived. -/
theorem Advances.mem_arrived_iff
    {arrived : List TilePosition}
    (advances : image.Advances canvas later position)
    (completes : image.Completes later position)
    (arrived_iff : ∀ other, other ∈ arrived ↔
      image.grid.Contains other ∧ image.Completes canvas other)
    (other : TilePosition) :
    other ∈ position :: arrived ↔ image.grid.Contains other ∧ image.Completes later other := by
  rw [List.mem_cons, arrived_iff, advances.completes_iff completes]
  constructor
  · rintro (rfl | ⟨inside, before⟩)
    · exact ⟨advances.inside, Or.inl rfl⟩
    · exact ⟨inside, Or.inr before⟩
  · rintro ⟨inside, same | before⟩
    · exact Or.inl same
    · exact Or.inr ⟨inside, before⟩

/-- A tile that is neglectable leaves the layout of the file. -/
theorem Records.of_neglectable
    {layout : Layout}
    {other : TilePosition}
    (records : image.Records canvas layout)
    (advances : image.Advances canvas later position)
    (assembled_eq : image.assembled later position = .neglectable other) :
    other = position ∧ image.Records later layout := by
  have same := image.position_assembled later position
  rw [assembled_eq] at same
  have nothing : image.stored? later position = none := by
    unfold stored?
    rw [assembled_eq]
    split
    · rfl
    · rfl
  have permuted := advances.perm_storedTiles
  rw [nothing, Option.toList_none, List.append_nil] at permuted
  exact ⟨same, { records with stored := records.stored.trans permuted.symm }⟩

/-- A tile that has to be stored comes behind those that were stored before, and fits
into the file. -/
theorem Records.of_stored
    {layout : Layout}
    (records : image.Records canvas layout)
    (advances : image.Advances canvas later position)
    (found : image.stored? later position = some tile) :
    (layout.stored ++ [tile]).Perm (image.storedTiles later) ∧
      layout.size + Texture.Block.size tile = image.fileSize later := by
  have permuted := advances.perm_storedTiles
  rw [found, Option.toList_some] at permuted
  refine ⟨(records.stored.append_right [tile]).trans permuted.symm, ?_⟩
  have total := Texture.blocksSize_perm permuted
  rw [Texture.blocksSize_append, Texture.blocksSize_cons, Texture.blocksSize_nil] at total
  rw [records.size_eq]
  unfold fileSize
  omega

/-- The writer takes a tile that has become complete. -/
theorem Holds.accept_eq
    {writer : Writer}
    (holds : image.Holds canvas writer)
    (advances : image.Advances canvas later position)
    (completes : image.Completes later position)
    (sound : later.Sound image.channels)
    (countable : image.Countable later)
    (fits : image.fileSize later < 0x100000000) :
    ∃ next, (Sink.writer.accept writer (image.assembled later position)).value = (.ok (), next) ∧
      image.Holds later next := by
  obtain ⟨layout, arrived, represents, records, arrived_iff⟩ := holds
  have inside : layout.grid.Contains position := records.grid_eq ▸ advances.inside
  have isNew : position ∉ arrived := fun member => advances.before ((arrived_iff _).mp member).2
  have arrivedNext_iff := advances.mem_arrived_iff completes arrived_iff
  cases assembled_eq : image.assembled later position with
  | neglectable other =>
      obtain ⟨rfl, recordsNext⟩ := records.of_neglectable advances assembled_eq
      obtain ⟨next, taken, representsNext⟩ := represents.submitNeglectable_eq_ok inside isNew
      exact ⟨next, taken, layout, _, representsNext, recordsNext, arrivedNext_iff⟩
  | stored tile =>
      -- The writer refuses nothing: the tile is new, has its frame, and fits.
      have found := stored?_of_assembled completes assembled_eq
      obtain ⟨channels_eq, notNeglectable, wellFormed⟩ :=
        stored?_wellFormed sound countable advances.inside found
      obtain ⟨stored, size_eq⟩ := records.of_stored advances found
      have placement_eq := (stored?_eq_some found).2.2
      have position_eq : tile.placement.position = position := by
        rw [placement_eq]
        rfl
      have admits : layout.Admits arrived tile := by
        refine ⟨position_eq ▸ inside, ?_, ?_, position_eq ▸ isNew, fun _ => ?_⟩
        · rw [position_eq, records.grid_eq]
          exact placement_eq
        · rw [channels_eq, records.channels_eq]
        · rw [size_eq]
          exact fits
      obtain ⟨next, taken, representsNext⟩ :=
        represents.submitTile_eq_ok admits fun _ => wellFormed
      have add_eq : layout.add tile = layout.append tile := by
        unfold Layout.add
        rw [notNeglectable, if_neg Bool.false_ne_true]
      rw [add_eq, position_eq] at representsNext
      refine ⟨next, taken, _, _, representsNext, ?_, arrivedNext_iff⟩
      exact
        { valid := representsNext.valid
          grid_eq := records.grid_eq
          channels_eq := records.channels_eq
          stored }

/-- The writer can be finished at any time. -/
theorem Holds.finish_eq
    {writer : Writer}
    (holds : image.Holds canvas writer) :
    ∃ next, writer.finish.value = (.ok (image.summary canvas), next) ∧
      image.Finishes canvas next := by
  obtain ⟨layout, arrived, represents, records, _⟩ := holds
  obtain ⟨next, finished, isFinished, contents_eq⟩ := represents.finish_eq_ok
  rw [records.summary_eq] at finished
  exact ⟨next, finished, isFinished, layout, records, contents_eq⟩

/-- A file that is finished is opened, and shows the complete tiles. -/
theorem Finishes.open_eq
    {writer : Writer}
    (finishes : image.Finishes canvas writer)
    (path : String) :
    ∃ reader, (Reader.open path (.ok writer.contents)).value = .ok reader ∧
      reader.grid = image.grid ∧
      reader.channels = image.channels ∧
      reader.blockStarts.length = (image.summary canvas).tilesWritten ∧
      reader.table.elidedCount = (image.summary canvas).tilesElided ∧
      ∀ position, image.grid.Contains position ->
        reader.load position =
          .ok ((image.stored? canvas position).getD
            (Tile.visible (image.grid.frame position) image.channels)) := by
  obtain ⟨_, layout, records, contents_eq⟩ := finishes
  obtain ⟨reader, opened, readBy⟩ := records.valid.open_bytes path
  obtain ⟨written, elided⟩ := records.valid.length_blockStarts readBy
  rw [contents_eq]
  refine ⟨reader, opened, readBy.grid_eq.trans records.grid_eq,
    readBy.channels_eq.trans records.channels_eq, written.trans records.stored.length_eq, ?_,
    fun position inside => records.load_eq readBy inside⟩
  rw [elided, records.grid_eq, records.stored.length_eq]
  rfl

end Image
end Assembly
end DeepShadow
