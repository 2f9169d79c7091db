import Mathlib.Data.List.Pairwise
import DeepShadow.Proofs.Texture.RoundTrip
import DeepShadow.Proofs.Tile.SingleNodes

/-!
# Tiles that are not stored

A writer takes each tile of the image once.  A tile that it has taken is read back as
it is, or as the fully visible one where it is neglectable; no other tile can have
been stored in its place.  A file whose header and table alone pass the last place
that an offset can tell is never finished.
-/

namespace DeepShadow
namespace Texture

/-- Two submissions were not taken for one position. -/
def Outcome.Apart (first second : Outcome) : Prop :=
  ∀ position, Outcome.arrived? first = some position -> Outcome.arrived? second ≠ some position

instance : Std.Symm Outcome.Apart where
  symm _ _ apart position second first := apart position first second

/-- Where a tile has to be stored, its position has arrived. -/
theorem Outcome.arrived?_of_stored
    {outcome : Outcome}
    {tile : Tile}
    (stored : Outcome.stored? outcome = some tile) :
    Outcome.arrived? outcome = some tile.placement.position := by
  obtain ⟨submission, result⟩ := outcome
  cases result with
  | error error => cases submission <;> cases stored
  | ok _ =>
      cases submission with
      | neglectable position => cases stored
      | tile given built =>
          have stored_eq : (if given.isNeglectable then none else some given) = some tile := stored
          split at stored_eq
          · cases stored_eq
          · cases stored_eq
            rfl

namespace Writer

variable {layout : Layout} {arrived : List TilePosition} {writer last : Writer}
variable {submissions : List Submission} {results : List (Except WriteError Unit)}

/-! ## Accepted tiles -/

/-- A writer that represents a layout answers the submissions of a sequence one after
the other. -/
theorem submitAll_cons_eq
    {submission : Submission}
    {result : Except WriteError Unit}
    {next : Writer}
    (submittedFirst : (writer.submit submission).value = (result, next))
    (submitted : (writer.submitAll (submission :: submissions)).value = (results, last)) :
    ∃ rest, (next.submitAll submissions).value = (rest, last) ∧ results = result :: rest := by
  rw [submitAll, Traced.value_bind, submittedFirst] at submitted
  simp only [Traced.value_bind] at submitted
  cases submitted
  exact ⟨_, rfl, rfl⟩

/-- No two submissions are taken for one position, and none for a position that has
arrived before. -/
theorem Represents.pairwise_arrived
    (represents : writer.Represents layout arrived)
    (submitted : (writer.submitAll submissions).value = (results, last)) :
    (∀ outcome ∈ submissions.zip results, ∀ position, Outcome.arrived? outcome = some position ->
      position ∉ arrived) ∧
    (submissions.zip results).Pairwise Outcome.Apart := by
  induction submissions generalizing writer layout arrived results with
  | nil =>
      rw [List.zip_nil_left]
      exact ⟨fun _ member => absurd member List.not_mem_nil, List.Pairwise.nil⟩
  | cons submission submissions inductionHypothesis =>
      obtain ⟨result, next, submittedFirst, isNew, representsNext⟩ :=
        represents.submit_eq submission
      obtain ⟨rest, submittedRest, rfl⟩ := submitAll_cons_eq submittedFirst submitted
      obtain ⟨restNew, restPairwise⟩ := inductionHypothesis representsNext submittedRest
      rw [List.zip_cons_cons]
      refine ⟨?_, List.pairwise_cons.mpr ⟨?_, restPairwise⟩⟩
      · intro outcome member position isArrived
        rcases List.mem_cons.mp member with rfl | inRest
        · exact isNew position isArrived
        · exact fun before =>
            restNew outcome inRest position isArrived (List.mem_append_right _ before)
      · intro outcome inRest position isArrived again
        apply restNew outcome inRest position again
        rw [isArrived]
        exact List.mem_append_left _ (List.mem_singleton_self _)

/-- A tile that is taken belongs to the image and has the channels of the file. -/
theorem Represents.admits_of_taken
    (represents : writer.Represents layout arrived)
    {tile : Tile}
    {next : Writer}
    (taken : (writer.submitTile tile).value = (.ok (), next)) :
    layout.Admits arrived tile := by
  by_contra refused
  obtain ⟨error, notTaken⟩ := represents.submitTile_eq_error refused
  rw [taken] at notTaken
  cases notTaken

/-- All tiles that are taken belong to the image and have the channels of the
file. -/
theorem Represents.framed_of_taken
    (represents : writer.Represents layout arrived)
    (submitted : (writer.submitAll submissions).value = (results, last))
    {tile : Tile}
    {built : tile.Built}
    (taken : (.tile tile built, .ok ()) ∈ submissions.zip results) :
    layout.grid.Contains tile.placement.position ∧
      tile.placement = layout.grid.frame tile.placement.position ∧
      tile.channels = layout.channels.toNat := by
  induction submissions generalizing writer layout arrived results with
  | nil =>
      rw [List.zip_nil_left] at taken
      cases taken
  | cons submission submissions inductionHypothesis =>
      obtain ⟨result, next, submittedFirst, _, representsNext⟩ :=
        represents.submit_eq submission
      obtain ⟨rest, submittedRest, rfl⟩ := submitAll_cons_eq submittedFirst submitted
      rw [List.zip_cons_cons] at taken
      rcases List.mem_cons.mp taken with first | inRest
      · cases first
        have admits := represents.admits_of_taken submittedFirst
        exact ⟨admits.inside, admits.framed, admits.channels_eq⟩
      · have framed := inductionHypothesis representsNext submittedRest inRest
        exact framed

/-- A tile that was taken is read back as it is, or as the fully visible one where it
is neglectable. -/
theorem Represents.load_taken
    (represents : writer.Represents layout arrived)
    (submitted : (writer.submitAll submissions).value = (results, last))
    {after : List TilePosition}
    (representsLast : last.Represents
      { layout with stored := (submissions.zip results).filterMap Outcome.stored? } after)
    {reader : Reader}
    (readBy : Layout.ReadBy
      { layout with stored := (submissions.zip results).filterMap Outcome.stored? } reader)
    {tile : Tile}
    {built : tile.Built}
    (taken : (.tile tile built, .ok ()) ∈ submissions.zip results) :
    reader.load tile.placement.position = .ok tile.readBack := by
  obtain ⟨inside, framed, channels_eq⟩ := represents.framed_of_taken submitted taken
  have arrived_eq : Outcome.arrived? (.tile tile built, .ok ()) =
      some tile.placement.position := rfl
  have stored_eq : Outcome.stored? (.tile tile built, .ok ()) =
      if tile.isNeglectable then none else some tile := rfl
  cases neglectable : tile.isNeglectable with
  | false =>
      rw [neglectable, if_neg Bool.false_ne_true] at stored_eq
      rw [Tile.readBack_of_stored neglectable]
      exact representsLast.valid.load_stored readBy
        (List.mem_filterMap.mpr ⟨_, taken, stored_eq⟩)
  | true =>
      rw [neglectable, if_pos rfl] at stored_eq
      have absent : tile.placement.position ∉
          ((submissions.zip results).filterMap Outcome.stored?).map
            fun other => other.placement.position := by
        intro member
        obtain ⟨other, otherStored, samePosition⟩ := List.mem_map.mp member
        obtain ⟨outcome, outcomeMember, outcomeStored⟩ := List.mem_filterMap.mp otherStored
        have different : (.tile tile built, .ok ()) ≠ outcome := by
          rintro rfl
          rw [stored_eq] at outcomeStored
          cases outcomeStored
        have apart := (represents.pairwise_arrived submitted).2.forall taken outcomeMember different
        apply apart tile.placement.position rfl
        rw [← samePosition]
        exact Outcome.arrived?_of_stored outcomeStored
      rw [Tile.readBack_of_neglectable neglectable, framed, channels_eq]
      exact readBy.load_absent inside absent

/-- A new file takes any tile of its image whose block it has room for. -/
theorem Represents.head_taken
    (represents : writer.Represents layout [])
    (submitted : (writer.submitAll submissions).value = (results, last))
    {tile : Tile}
    {built : tile.Built}
    {rest : List Submission}
    (first : submissions = .tile tile built :: rest)
    (framed : layout.grid.placement tile.placement.position = .ok tile.placement)
    (channels_eq : tile.channels = layout.channels.toNat)
    (fits : tile.isNeglectable = false -> layout.size + Block.size tile < 0x100000000) :
    results.head? = some (.ok ()) := by
  have inside : layout.grid.Contains tile.placement.position := by
    by_contra outside
    rw [Grid.placement_eq_error outside] at framed
    cases framed
  rw [Grid.placement_eq_ok inside] at framed
  have admits : layout.Admits [] tile :=
    ⟨inside, (Except.ok.inj framed).symm, channels_eq, List.not_mem_nil, fits⟩
  obtain ⟨next, taken, _⟩ := represents.submitTile_eq_ok admits built.wellFormed
  have takenFirst : (writer.submit (.tile tile built)).value = (.ok (), next) := taken
  rw [first] at submitted
  obtain ⟨_, _, rfl⟩ := submitAll_cons_eq takenFirst submitted
  rfl

/-! ## Files that cannot be finished -/

/-- The file of a writer has passed the last place that an offset can tell. -/
structure Overfull (writer : Writer) : Prop where
  unfinished : writer.isFinished = false
  tooLarge : 0xffffffff < writer.fileSize

theorem Overfull.submitNeglectable
    (overfull : writer.Overfull)
    (position : TilePosition) :
    (writer.submitNeglectable position).value.2.Overfull := by
  have goesOn : ¬writer.isFinished = true := Bool.eq_false_iff.mp overfull.unfinished
  unfold Writer.submitNeglectable
  rw [if_neg goesOn]
  cases writer.markSubmitted position with
  | error error => exact overfull
  | ok submitted => exact ⟨overfull.unfinished, overfull.tooLarge⟩

/-- Tiles without a block are still taken, and none with one. -/
theorem Overfull.submit
    (overfull : writer.Overfull)
    (submission : Submission) :
    (writer.submit submission).value.2.Overfull := by
  cases submission with
  | neglectable position => exact overfull.submitNeglectable position
  | tile tile built =>
      have noRoom : 0xffffffff < writer.fileSize + Block.size tile :=
        Nat.lt_of_lt_of_le overfull.tooLarge (Nat.le_add_right _ _)
      unfold Writer.submit submitTile
      simp only [overfull.unfinished, noRoom, Bool.false_eq_true, if_false, if_true]
      split
      · exact overfull
      · split
        · exact overfull
        · split
          · exact overfull
          · split
            · exact overfull.submitNeglectable _
            · exact overfull

theorem Overfull.submitAll
    (overfull : writer.Overfull)
    (submissions : List Submission) :
    (writer.submitAll submissions).value.2.Overfull := by
  induction submissions generalizing writer with
  | nil => exact overfull
  | cons submission submissions inductionHypothesis =>
      exact inductionHypothesis (overfull.submit submission)

theorem Overfull.finish_eq (overfull : writer.Overfull) :
    writer.finish.value.1 = .error .fileTooLarge := by
  unfold finish
  simp only [overfull.unfinished, Bool.false_eq_true, if_false, overfull.tooLarge, if_true]
  split
  · rfl
  · rfl

/-- A file that has no room behind its table is created all the same. -/
theorem create_overfull
    {settings : Settings}
    {grid : Grid}
    (path : String)
    (accepted : settings.grid = .ok grid)
    (tooLarge : ¬headerSize + Table.encodedSize grid < 0x100000000) :
    ∃ writer, (create path settings none).value = .ok writer ∧ writer.Overfull := by
  unfold create
  rw [accepted]
  exact ⟨_, rfl, rfl, Nat.not_lt.mp tooLarge⟩

end Writer

/-- A file with room behind its table is finished and opened again, whatever was
submitted.  It has all tiles that were taken. -/
theorem load_readBack
    (path : String)
    {settings : Settings}
    {grid : Grid}
    (accepted : settings.grid = .ok grid)
    (fits : headerSize + Table.encodedSize grid < 0x100000000)
    (submissions : List Submission) :
    ∃ writer results last summary closed reader,
      (Writer.create path settings none).value = .ok writer ∧
      writer.Represents (settings.layout grid) [] ∧
      (writer.submitAll submissions).value = (results, last) ∧
      results.length = submissions.length ∧
      last.finish.value = (.ok summary, closed) ∧
      (Reader.open path (.ok closed.contents)).value = .ok reader ∧
      ∀ tile built, (.tile tile built, .ok ()) ∈ submissions.zip results ->
        reader.load tile.placement.position = .ok tile.readBack := by
  obtain ⟨writer, created, represents⟩ := Writer.create_eq_ok path accepted fits
  obtain ⟨results, last, arrived, submitted, sameLength, representsLast⟩ :=
    represents.submitAll_eq submissions
  obtain ⟨closed, finished, _, contents_eq⟩ := representsLast.finish_eq_ok
  obtain ⟨reader, opened, readBy⟩ := representsLast.valid.open_bytes path
  refine ⟨writer, results, last, _, closed, reader, created, represents, submitted, sameLength,
    finished, ?_, ?_⟩
  · rw [contents_eq]
    exact opened
  · intro tile built taken
    exact represents.load_taken submitted representsLast readBy taken

end Texture
end DeepShadow
