import DeepShadow.Proofs.Texture.Closing
import DeepShadow.Proofs.Texture.Reading

/-!
# Reading undoes writing

Whatever calls a writer receives, and whichever way it is ended, its file is
opened again, and each tile is loaded as it was taken; a tile that was not taken,
or that is neglectable, is fully visible.  Calls that are refused leave no trace.
-/

namespace DeepShadow
namespace Texture

/-! ## Calls of a writer -/

/-- A tile that a caller hands to a writer. -/
inductive Submission
  | tile (tile : Tile) (built : tile.Built)
  /-- Only the position of a tile whose pixels are all fully visible. -/
  | neglectable (position : TilePosition)

/-- The position of the tile of a submission. -/
def Submission.position : Submission -> TilePosition
  | .tile data _ => data.placement.position
  | .neglectable place => place

/-- What becomes of a submission. -/
abbrev Outcome := Submission × Except WriteError Unit

/-- The tile that has to be stored because of a submission. -/
def Outcome.stored? : Outcome -> Option Tile
  | (.tile tile _, .ok ()) => if tile.isNeglectable then none else some tile
  | _ => none

/-- The position that has arrived because of a submission. -/
def Outcome.arrived? (outcome : Outcome) : Option TilePosition :=
  match outcome.2 with
  | .ok () => some outcome.1.position
  | .error _ => none

/-- How a writer is ended. -/
inductive Ending
  | finish
  | release
deriving DecidableEq

namespace Writer

/-- Hands one tile to a writer. -/
def submit (writer : Writer) : Submission -> Traced (Except WriteError Unit × Writer)
  | .tile tile _ => writer.submitTile tile
  | .neglectable position => writer.submitNeglectable position

/-- Hands several tiles to a writer, one after the other, whatever it answers. -/
def submitAll (writer : Writer) : List Submission -> Traced (List (Except WriteError Unit) × Writer)
  | [] => return ([], writer)
  | submission :: submissions => do
      let (result, writer) ← writer.submit submission
      let (results, writer) ← writer.submitAll submissions
      return (result :: results, writer)

/-- Ends a writer. -/
def endBy (writer : Writer) : Ending -> Traced Writer
  | .finish => do return (← writer.finish).2
  | .release => writer.release

variable {layout : Layout} {arrived : List TilePosition} {writer : Writer}

/-- One submission adds the tile that has to be stored because of it.  A position
arrives once. -/
theorem Represents.submit_eq
    (represents : writer.Represents layout arrived)
    (submission : Submission) :
    ∃ result next, (writer.submit submission).value = (result, next) ∧
      (∀ position, Outcome.arrived? (submission, result) = some position ->
        position ∉ arrived) ∧
      next.Represents
        { layout with stored := layout.stored ++ (Outcome.stored? (submission, result)).toList }
        ((Outcome.arrived? (submission, result)).toList ++ arrived) := by
  have unchanged : ({ layout with stored := layout.stored ++ [] } : Layout) = layout := by
    rw [List.append_nil]
  cases submission with
  | tile tile built =>
      by_cases admits : layout.Admits arrived tile
      · obtain ⟨next, taken, representsNext⟩ := represents.submitTile_eq_ok admits built.wellFormed
        refine ⟨.ok (), next, taken, ?_, ?_⟩
        · intro position isArrived
          cases isArrived
          exact admits.isNew
        have stored : Outcome.stored? (.tile tile built, .ok ()) =
            if tile.isNeglectable then none else some tile := rfl
        unfold Layout.add at representsNext
        rw [stored]
        cases neglectable : tile.isNeglectable with
        | true =>
            rw [neglectable, if_pos rfl] at representsNext
            rw [if_pos rfl, Option.toList_none, unchanged]
            exact representsNext
        | false =>
            rw [neglectable, if_neg Bool.false_ne_true] at representsNext
            rw [if_neg Bool.false_ne_true, Option.toList_some]
            exact representsNext
      · obtain ⟨error, refused⟩ := represents.submitTile_eq_error admits
        exact ⟨.error error, writer, refused, (fun _ isArrived => by cases isArrived),
          unchanged.symm ▸ represents⟩
  | neglectable position =>
      by_cases free : layout.grid.Contains position ∧ position ∉ arrived
      · obtain ⟨next, taken, representsNext⟩ :=
          represents.submitNeglectable_eq_ok free.1 free.2
        refine ⟨.ok (), next, taken, ?_, unchanged.symm ▸ representsNext⟩
        intro other isArrived
        cases isArrived
        exact free.2
      · obtain ⟨error, refused⟩ := represents.submitNeglectable_eq_error free
        exact ⟨.error error, writer, refused, (fun _ isArrived => by cases isArrived),
          unchanged.symm ▸ represents⟩

/-- Several submissions add the tiles that have to be stored because of them, in
their order. -/
theorem Represents.submitAll_eq
    (represents : writer.Represents layout arrived)
    (submissions : List Submission) :
    ∃ results next arrivedNext, (writer.submitAll submissions).value = (results, next) ∧
      results.length = submissions.length ∧
      next.Represents
        { layout with
          stored := layout.stored ++ (submissions.zip results).filterMap Outcome.stored? }
        arrivedNext := by
  induction submissions generalizing writer layout arrived with
  | nil =>
      refine ⟨[], writer, arrived, rfl, rfl, ?_⟩
      rw [List.zip_nil_left, List.filterMap_nil, List.append_nil]
      exact represents
  | cons submission submissions inductionHypothesis =>
      obtain ⟨result, next, submitted, _, representsNext⟩ := represents.submit_eq submission
      obtain ⟨results, last, arrivedLast, submittedRest, sameLength, representsLast⟩ :=
        inductionHypothesis representsNext
      refine ⟨result :: results, last, arrivedLast, ?_, ?_, ?_⟩
      · rw [submitAll, Traced.value_bind, submitted]
        simp only [Traced.value_bind, submittedRest]
        rfl
      · rw [List.length_cons, List.length_cons, sameLength]
      · rw [List.zip_cons_cons, List.filterMap_cons]
        cases stored : Outcome.stored? (submission, result) with
        | none =>
            simpa [stored] using representsLast
        | some tile =>
            simpa [stored] using representsLast

/-- Either way to end a writer leaves the bytes of the layout. -/
theorem Represents.contents_endBy
    (represents : writer.Represents layout arrived)
    (ending : Ending) :
    (writer.endBy ending).value.contents = layout.bytes := by
  cases ending with
  | finish =>
      obtain ⟨next, finished, _, contents_eq⟩ := represents.finish_eq_ok
      unfold endBy
      rw [Traced.value_bind, finished]
      exact contents_eq
  | release => exact represents.release_eq.2

end Writer

/-! ## The round trip -/

/-- The tile that has to be stored at a position because of some submissions. -/
def storedAt? (outcomes : List Outcome) (position : TilePosition) : Option Tile :=
  (outcomes.filterMap Outcome.stored?).find? fun tile => tile.placement.position = position

/-- Every tile of a valid layout is loaded as it is stored, or as fully
visible. -/
theorem Layout.Valid.load_eq
    {layout : Layout}
    (valid : layout.Valid)
    {reader : Reader}
    (readBy : layout.ReadBy reader)
    {position : TilePosition}
    (inside : layout.grid.Contains position) :
    reader.load position =
      .ok ((layout.stored.find? fun tile => tile.placement.position = position).getD
        (Tile.visible (layout.grid.frame position) layout.channels.toNat)) := by
  cases found : layout.stored.find? fun tile => tile.placement.position = position with
  | some tile =>
      have same := List.find?_some found
      rw [decide_eq_true_eq] at same
      rw [← same]
      exact valid.load_stored readBy (List.mem_of_find?_eq_some found)
  | none =>
      rw [List.find?_eq_none] at found
      apply readBy.load_absent inside
      intro member
      obtain ⟨tile, stored, same⟩ := List.mem_map.mp member
      exact found tile stored (decide_eq_true same)

/-- Reading undoes writing.  A file is created for some settings, tiles are
submitted in any order and number, and the writer is finished or given up.  Then
the file is opened, and it has the grid, the number of channels and the matrices
of the settings.  For each position, the tile is loaded that was taken there and
is not neglectable, and the fully visible one where there is none.  Loading does
not change the reader, so that the order of the loads does not matter. -/
theorem load_written
    (path : String)
    (settings : Settings)
    (grid : Grid)
    (accepted : settings.grid = .ok grid)
    (fits : headerSize + Table.encodedSize grid < 0x100000000)
    (submissions : List Submission)
    (ending : Ending) :
    ∃ writer results last reader,
      (Writer.create path settings none).value = .ok writer ∧
      (writer.submitAll submissions).value = (results, last) ∧
      results.length = submissions.length ∧
      (Reader.open path (.ok (last.endBy ending).value.contents)).value = .ok reader ∧
      reader.grid = grid ∧
      reader.channels = settings.channels.toNat ∧
      reader.header.transforms = settings.transforms ∧
      ∀ position placement, grid.placement position = .ok placement ->
        ∃ visible, Tile.fullyVisible placement settings.channels.toNat = .ok visible ∧
          reader.load position =
            .ok ((storedAt? (submissions.zip results) position).getD visible) := by
  obtain ⟨writer, created, represents⟩ := Writer.create_eq_ok path accepted fits
  obtain ⟨results, last, arrived, submitted, sameLength, representsLast⟩ :=
    represents.submitAll_eq submissions
  have valid := representsLast.valid
  obtain ⟨reader, opened, readBy⟩ := valid.open_bytes path
  refine ⟨writer, results, last, reader, created, submitted, sameLength, ?_, readBy.grid_eq,
    readBy.channels_eq, ?_, ?_⟩
  · rw [representsLast.contents_endBy ending]
    exact opened
  · rw [readBy.header_eq]
    rfl
  · intro position placement placed
    have inside : grid.Contains position := by
      apply Decidable.byContradiction
      intro outside
      rw [Grid.placement_eq_error outside] at placed
      cases placed
    rw [Grid.placement_eq_ok inside] at placed
    cases placed
    refine ⟨Tile.visible (grid.frame position) settings.channels.toNat, ?_,
      valid.load_eq readBy inside⟩
    unfold Tile.fullyVisible
    rw [if_pos (Settings.grid_eq_ok accepted).1]

namespace ThreePixels

/-- An image of three pixels in two tiles. -/
def settings : Settings :=
  { imageWidth := 3
    imageHeight := 1
    tileWidth := 2
    tileHeight := 1
    bucketWidth := 1
    bucketHeight := 1
    channels := 1 }

/-- Its first tile, with one node for the left pixel and two for the right
one. -/
def tile : Tile :=
  { placement := ⟨⟨0, 0⟩, 0, 0, 2, 1⟩
    channels := 1
    offsets := #[0, 1, 3]
    values := #[⟨0⟩, ⟨1⟩, ⟨2⟩, ⟨3⟩, ⟨4⟩, ⟨5⟩] }

theorem built_tile : tile.Built :=
  .ofParts (show Tile.ofParts tile.placement 1 tile.offsets tile.values = .ok tile from by decide)

/-- The first tile twice, and then a tile outside the image. -/
def submissions : List Submission :=
  [.tile tile built_tile, .tile tile built_tile, .neglectable ⟨5, 0⟩]

end ThreePixels

/-- The second submission of the first tile leaves no trace, and the second tile
is fully visible. -/
theorem load_written_threePixels :
    ∃ grid results last reader,
      ThreePixels.settings.grid = .ok grid ∧
      headerSize + Table.encodedSize grid < 0x100000000 ∧
      (∃ writer, (Writer.create "map" ThreePixels.settings none).value = .ok writer ∧
        (writer.submitAll ThreePixels.submissions).value = (results, last)) ∧
      results = [.ok (), .error (.duplicate ⟨0, 0⟩), .error (.outsideGrid ⟨5, 0⟩)] ∧
      (Reader.open "map" (.ok (last.endBy .release).value.contents)).value = .ok reader ∧
      reader.load ⟨0, 0⟩ = .ok ThreePixels.tile ∧
      reader.load ⟨1, 0⟩ = .ok (Tile.visible ⟨⟨1, 0⟩, 2, 0, 1, 1⟩ 1) := by
  have accepted : ∃ grid, ThreePixels.settings.grid = .ok grid := ⟨_, rfl⟩
  obtain ⟨grid, accepted⟩ := accepted
  have fits : headerSize + Table.encodedSize grid < 0x100000000 := by
    cases accepted
    decide
  obtain ⟨writer, results, last, reader, created, submitted, _, opened, _, _, _, loads⟩ :=
    load_written "map" _ grid accepted fits ThreePixels.submissions .release
  have results_eq :
      results = [.ok (), .error (.duplicate ⟨0, 0⟩), .error (.outsideGrid ⟨5, 0⟩)] := by
    cases created
    exact (congrArg Prod.fst submitted).symm.trans (by decide +kernel)
  refine ⟨grid, results, last, reader, accepted, fits, ⟨writer, created, submitted⟩, results_eq,
    opened, ?_, ?_⟩
  · obtain ⟨_, _, loaded⟩ :=
      loads ⟨0, 0⟩ ThreePixels.tile.placement (by cases accepted; decide)
    rw [loaded, results_eq]
    rfl
  · obtain ⟨visible, made, loaded⟩ :=
      loads ⟨1, 0⟩ ⟨⟨1, 0⟩, 2, 0, 1, 1⟩ (by cases accepted; decide)
    rw [loaded, results_eq]
    cases made
    rfl

end Texture
end DeepShadow
