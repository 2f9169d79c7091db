import DeepShadow.Proofs.Behavior
import DeepShadow.Proofs.Texture.RoundTrip

/-!
# Refused calls of a writer

A writer changes its state in place, one field after the other, and a call can be refused when
some fields are changed already: a tile is marked as submitted before it is known whether it
had been submitted before, and a writer gives its file away before it is known whether the
sizes fit.  The steps in place come to the same as the calls that give the next state at once,
and a refused call leaves the writer as it was.  What is written does not depend on the
refused calls.
-/

namespace DeepShadow

/-- A tile that is in a set can be added again without a change. -/
theorem TileSet.add_of_mem
    {grid : Grid}
    {set : TileSet grid}
    {index : Fin grid.tileCount}
    (member : set.marks.get index = true) :
    set.add index = set := by
  have marks_eq : set.marks.set index true = set.marks := by
    unfold TileMap.set
    rw [← member]
    exact congrArg TileMap.mk (Vector.set_getElem_self _)
  unfold add
  rw [if_pos member, marks_eq]

namespace Texture
namespace Writer

variable {writer : Writer} {position : TilePosition}

/-! ## Steps in place -/

/-- Marks a tile as submitted, and then looks at whether it was marked before. -/
def mark (writer : Writer) (position : TilePosition) : Except WriteError Unit × Writer :=
  match writer.submitted.insert position with
  | .error _ => (.error (.outsideGrid position), writer)
  | .ok (before, submitted) =>
      let writer := { writer with submitted }
      if before then (.error (.duplicate position), writer)
      else (.ok (), writer)

/-- Takes a tile whose pixels are all fully visible. -/
def takeNeglectable
    (writer : Writer)
    (position : TilePosition) : Except WriteError Unit × Writer :=
  if writer.isFinished then (.error .finished, writer)
  else
    match writer.mark position with
    | (.error error, writer) => (.error error, writer)
    | (.ok (), writer) =>
        let writer := { writer with table := writer.table.set position 0 }
        let writer := { writer with tilesElided := writer.tilesElided + 1 }
        (.ok (), writer)

/-- Takes a tile of the image. -/
def takeTile (writer : Writer) (tile : Tile) : Except WriteError Unit × Writer :=
  let position := tile.placement.position
  if writer.isFinished then (.error .finished, writer)
  else
    match writer.grid.placement position with
    | .error _ => (.error (.outsideGrid position), writer)
    | .ok expected =>
        if tile.placement ≠ expected then (.error (.mismatch position .placement), writer)
        else if tile.channels ≠ writer.channels then
          (.error (.mismatch position .channels), writer)
        else if tile.isNeglectable then writer.takeNeglectable position
        else if 0xffffffff < writer.fileSize then (.error .fileTooLarge, writer)
        else
          let offset := UInt32.ofNat writer.fileSize
          let size := Block.size tile
          if 0xffffffff < writer.fileSize + size then (.error .fileTooLarge, writer)
          else
            match writer.mark position with
            | (.error error, writer) => (.error error, writer)
            | (.ok (), writer) =>
                if writer.isFinished then (.error .finished, writer)
                else
                  let writer := { writer with file := writer.file.append (Block.encode tile) }
                  let writer := { writer with fileSize := writer.fileSize + size }
                  let writer := { writer with dataSize := writer.dataSize + size }
                  let writer := { writer with tilesWritten := writer.tilesWritten + 1 }
                  let writer := { writer with table := writer.table.set position offset }
                  (.ok (), writer)

/-- Gives the file away, and writes the table and the sizes into it. -/
def complete (writer : Writer) : Except WriteError Summary × Writer :=
  if writer.isFinished then (.error .finished, writer)
  else
    let writer := { writer with isFinished := true }
    let missing := writer.submitted.missing.length
    let writer := { writer with tilesElided := writer.tilesElided + missing }
    if 0xffffffff < writer.fileSize then (.error .fileTooLarge, writer)
    else if 0xffffffff < writer.dataSize then (.error .fileTooLarge, writer)
    else
      let fileSize := UInt32.ofNat writer.fileSize
      let dataSize := UInt32.ofNat writer.dataSize
      let writer := { writer with file := writer.file.overwrite headerSize writer.table.encode }
      let writer := { writer with file := writer.file.overwriteWord fileSizePlace fileSize }
      let writer := { writer with file := writer.file.overwriteWord dataSizePlace dataSize }
      let writer := { writer with header := { writer.header with fileSize } }
      let writer := { writer with header := { writer.header with dataSize } }
      let summary : Summary :=
        { tilesWritten := writer.tilesWritten
          tilesElided := writer.tilesElided
          dataSize := writer.dataSize
          fileSize := writer.fileSize }
      (.ok summary, writer)

/-! ## The steps in place come to the same -/

/-- A tile that was marked before is marked without a change. -/
theorem mark_eq (writer : Writer) (position : TilePosition) :
    writer.mark position =
      match writer.markSubmitted position with
      | .error error => (.error error, writer)
      | .ok submitted => (.ok (), { writer with submitted }) := by
  unfold mark markSubmitted
  by_cases inside : writer.grid.Contains position
  · rw [TileSet.insert_eq_ok _ inside]
    cases before : writer.submitted.has position with
    | false => rfl
    | true =>
        rw [TileSet.has_eq_get _ inside] at before
        simp only [TileSet.add_of_mem before]
        rfl
  · rw [TileSet.insert_eq_error _ inside]

theorem takeNeglectable_eq (writer : Writer) (position : TilePosition) :
    writer.takeNeglectable position = (writer.submitNeglectable position).value := by
  unfold takeNeglectable submitNeglectable
  by_cases finished : writer.isFinished = true
  · rw [if_pos finished, if_pos finished]
    rfl
  rw [if_neg finished, if_neg finished, mark_eq]
  cases writer.markSubmitted position <;> rfl

theorem takeTile_eq (writer : Writer) (tile : Tile) :
    writer.takeTile tile = (writer.submitTile tile).value := by
  unfold takeTile submitTile
  dsimp only
  by_cases finished : writer.isFinished = true
  · rw [if_pos finished, if_pos finished]
    rfl
  rw [if_neg finished, if_neg finished]
  cases writer.grid.placement tile.placement.position with
  | error error => rfl
  | ok expected =>
      dsimp only
      by_cases misplaced : tile.placement ≠ expected
      · rw [if_pos misplaced, if_pos misplaced]
        rfl
      rw [if_neg misplaced, if_neg misplaced]
      by_cases otherChannels : tile.channels ≠ writer.channels
      · rw [if_pos otherChannels, if_pos otherChannels]
        rfl
      rw [if_neg otherChannels, if_neg otherChannels]
      by_cases neglectable : tile.isNeglectable = true
      · rw [if_pos neglectable, if_pos neglectable]
        exact takeNeglectable_eq writer _
      rw [if_neg neglectable, if_neg neglectable]
      by_cases tooLarge : 0xffffffff < writer.fileSize + Block.size tile
      · rw [if_pos tooLarge, if_pos tooLarge, ite_self]
        rfl
      have fits : ¬0xffffffff < writer.fileSize := by omega
      rw [if_neg tooLarge, if_neg tooLarge, if_neg fits, mark_eq]
      cases writer.markSubmitted tile.placement.position with
      | error error => rfl
      | ok submitted => exact if_neg finished

/-- The data are a part of the file, and so there is room for both sizes where there is room
for that of the file. -/
theorem complete_eq (inFile : writer.dataSize ≤ writer.fileSize) :
    writer.complete = writer.finish.value := by
  unfold complete finish
  dsimp only
  by_cases finished : writer.isFinished = true
  · rw [if_pos finished, if_pos finished]
    rfl
  rw [if_neg finished, if_neg finished]
  -- Whether tiles are missing decides only about a line of the log.
  by_cases tooLarge : 0xffffffff < writer.fileSize
  · simp only [if_pos tooLarge]
    split <;> rfl
  · have dataFits : ¬0xffffffff < writer.dataSize := by omega
    simp only [if_neg tooLarge, if_neg dataFits]
    split <;> rfl

/-! ## Calls -/

/-- A call of a writer. -/
inductive Call
  | tile (tile : Tile)
  | neglectable (position : TilePosition)
  | finish
deriving DecidableEq

/-- A call is answered by an error or, where the file was finished, by what was written. -/
abbrev Answer := Except WriteError (Option Summary)

/-- Whether a call is refused.  A writer without room for the size of its file is finished
although this is an error. -/
def Call.isRefused : Call -> Answer -> Bool
  | .finish, .error .fileTooLarge => false
  | _, .error _ => true
  | _, .ok _ => false

/-- A writer that does the given things when it is called. -/
def behavior
    (onTile : Writer -> Tile -> Except WriteError Unit × Writer)
    (onNeglectable : Writer -> TilePosition -> Except WriteError Unit × Writer)
    (onFinish : Writer -> Except WriteError Summary × Writer) : Behavior Writer Call Answer
  | writer, .tile tile =>
      let (result, writer) := onTile writer tile
      (result.map fun _ => none, writer)
  | writer, .neglectable position =>
      let (result, writer) := onNeglectable writer position
      (result.map fun _ => none, writer)
  | writer, .finish =>
      let (result, writer) := onFinish writer
      (result.map some, writer)

/-- What calls do. -/
def called : Behavior Writer Call Answer :=
  behavior (fun writer tile => (writer.submitTile tile).value)
    (fun writer position => (writer.submitNeglectable position).value)
    (fun writer => writer.finish.value)

/-- What calls do step by step. -/
def calledInPlace : Behavior Writer Call Answer := behavior takeTile takeNeglectable complete

/-! ## Refused calls -/

theorem mark_cases (writer : Writer) (position : TilePosition) :
    (∃ error, writer.mark position = (.error error, writer)) ∨
      ∃ submitted, writer.mark position = (.ok (), { writer with submitted }) := by
  rw [mark_eq]
  cases writer.markSubmitted position with
  | error error => exact .inl ⟨error, rfl⟩
  | ok submitted => exact .inr ⟨submitted, rfl⟩

/-- What becomes of a tile without a block. -/
theorem takeNeglectable_cases (writer : Writer) (position : TilePosition) :
    (∃ error, writer.takeNeglectable position = (.error error, writer)) ∨
      ∃ next, writer.takeNeglectable position = (.ok (), next) ∧
        next.fileSize = writer.fileSize ∧ next.dataSize = writer.dataSize := by
  unfold takeNeglectable
  split
  · exact .inl ⟨_, rfl⟩
  rcases writer.mark_cases position with ⟨error, marked⟩ | ⟨submitted, marked⟩
  · rw [marked]
    exact .inl ⟨error, rfl⟩
  · rw [marked]
    exact .inr ⟨_, rfl, rfl, rfl⟩

/-- What becomes of a tile. -/
theorem takeTile_cases (writer : Writer) (tile : Tile) :
    (∃ error, writer.takeTile tile = (.error error, writer)) ∨
      ∃ next size, writer.takeTile tile = (.ok (), next) ∧
        next.fileSize = writer.fileSize + size ∧ next.dataSize = writer.dataSize + size := by
  unfold takeTile
  dsimp only
  by_cases finished : writer.isFinished = true
  · rw [if_pos finished]
    exact .inl ⟨_, rfl⟩
  rw [if_neg finished]
  cases writer.grid.placement tile.placement.position with
  | error error => exact .inl ⟨_, rfl⟩
  | ok expected =>
      dsimp only
      split
      · exact .inl ⟨_, rfl⟩
      split
      · exact .inl ⟨_, rfl⟩
      split
      · rcases writer.takeNeglectable_cases tile.placement.position with
          refused | ⟨next, taken, fileSize, dataSize⟩
        · exact .inl refused
        · exact .inr ⟨next, 0, taken, fileSize, dataSize⟩
      split
      · exact .inl ⟨_, rfl⟩
      split
      · exact .inl ⟨_, rfl⟩
      rcases writer.mark_cases tile.placement.position with
        ⟨error, marked⟩ | ⟨submitted, marked⟩
      · rw [marked]
        exact .inl ⟨error, rfl⟩
      · rw [marked]
        exact .inr ⟨_, Block.size tile, if_neg finished, rfl, rfl⟩

/-- What becomes of a writer that is finished. -/
theorem complete_cases (writer : Writer) :
    writer.complete = (.error .finished, writer) ∨
      ∃ answer next, writer.complete = (answer, next) ∧
        (∀ error, answer = .error error -> error = .fileTooLarge) ∧
        next.fileSize = writer.fileSize ∧ next.dataSize = writer.dataSize := by
  unfold complete
  dsimp only
  split
  · exact .inl rfl
  split
  · exact .inr ⟨_, _, rfl, fun _ failed => (Except.error.inj failed).symm, rfl, rfl⟩
  split
  · exact .inr ⟨_, _, rfl, fun _ failed => (Except.error.inj failed).symm, rfl, rfl⟩
  · exact .inr ⟨_, _, rfl, (fun _ failed => by cases failed), rfl, rfl⟩

/-- A refused call leaves a writer as it was. -/
theorem unchanged_of_isRefused
    (writer : Writer)
    (call : Call)
    (refused : call.isRefused (calledInPlace writer call).1 = true) :
    (calledInPlace writer call).2 = writer := by
  unfold calledInPlace behavior at refused ⊢
  cases call with
  | tile tile =>
      rcases writer.takeTile_cases tile with ⟨error, isRefused⟩ | ⟨next, size, taken, _⟩
      · simp only [isRefused]
      · simp only [taken] at refused
        cases refused
  | neglectable position =>
      rcases writer.takeNeglectable_cases position with ⟨error, isRefused⟩ | ⟨next, taken, _⟩
      · simp only [isRefused]
      · simp only [taken] at refused
        cases refused
  | finish =>
      rcases writer.complete_cases with isRefused | ⟨answer, next, completed, onlyTooLarge, _⟩
      · simp only [isRefused]
      · simp only [completed] at refused
        cases answer with
        | error error =>
            cases onlyTooLarge error rfl
            cases refused
        | ok summary => cases refused

/-- A writer that gives the next state at once sees what one does that works in place. -/
theorem sees_calledInPlace :
    Behavior.Sees id (fun writer : Writer => writer.dataSize ≤ writer.fileSize)
      calledInPlace called := by
  constructor
  · intro writer call inFile
    unfold calledInPlace behavior
    cases call with
    | tile tile =>
        rcases writer.takeTile_cases tile with
          ⟨error, refused⟩ | ⟨next, size, taken, fileSize, dataSize⟩
        · simp only [refused]
          exact inFile
        · simp only [taken]
          omega
    | neglectable position =>
        rcases writer.takeNeglectable_cases position with
          ⟨error, refused⟩ | ⟨next, taken, fileSize, dataSize⟩
        · simp only [refused]
          exact inFile
        · simp only [taken]
          omega
    | finish =>
        rcases writer.complete_cases with
          refused | ⟨answer, next, completed, _, fileSize, dataSize⟩
        · simp only [refused]
          exact inFile
        · simp only [completed]
          omega
  · intro writer call inFile
    unfold called calledInPlace behavior
    cases call with
    | tile tile =>
        simp only [id, takeTile_eq]
    | neglectable position => simp only [id, takeNeglectable_eq]
    | finish => simp only [id, complete_eq inFile]

/-- The data are a part of the file when it is created. -/
theorem dataSize_le_of_create
    {path : String}
    {settings : Settings}
    (created : (create path settings none).value = .ok writer) :
    writer.dataSize ≤ writer.fileSize := by
  unfold create at created
  cases accepted : settings.grid with
  | error error =>
      rw [accepted] at created
      cases created
  | ok grid =>
      rw [accepted] at created
      cases created
      exact Nat.zero_le _

end Writer

/-- Refused calls leave no trace.  However a new writer is called, its steps in place give the
answers and the states that its calls give at once.  A call that is refused then leaves all
of the writer as it was.  Without the refused calls, the answers to the others and the last
state are the same, and so are the bytes of the file that the writer leaves behind. -/
theorem refused_calls_leave_no_trace
    {path : String}
    {settings : Settings}
    {created : Writer}
    (isCreated : (Writer.create path settings none).value = .ok created)
    (calls : List Writer.Call) :
    let after := Writer.calledInPlace.run created calls
    let taken := Behavior.taken Writer.Call.isRefused after.1
    Writer.called.run created calls = after ∧
      (∀ call, call.isRefused (Writer.calledInPlace after.2 call).1 = true ->
        (Writer.calledInPlace after.2 call).2 = after.2) ∧
      Writer.calledInPlace.run created (taken.map Prod.fst) = (taken, after.2) ∧
      (Writer.called.run created (taken.map Prod.fst)).2.release.value.contents =
        (Writer.called.run created calls).2.release.value.contents := by
  have inFile := Writer.dataSize_le_of_create isCreated
  have kept := Behavior.run_taken Writer.unchanged_of_isRefused created calls
  have seen := (Writer.sees_calledInPlace.run inFile calls).1
  have seenKept := (Writer.sees_calledInPlace.run inFile
    ((Behavior.taken Writer.Call.isRefused
      (Writer.calledInPlace.run created calls).1).map Prod.fst)).1
  rw [kept] at seenKept
  have sameLast := (congrArg Prod.snd seenKept).trans (congrArg Prod.snd seen).symm
  exact ⟨seen, Writer.unchanged_of_isRefused _, kept,
    congrArg (fun last : Writer => last.release.value.contents) sameLast⟩

/-- The first tile twice, with other channels and outside of the image, the end of the file
twice, and the second tile when it is too late. -/
def ThreePixels.calls : List Writer.Call :=
  [.tile tile, .tile tile, .tile { tile with channels := 3 }, .neglectable ⟨5, 0⟩, .finish,
    .finish, .neglectable ⟨1, 0⟩]

/-- Of the calls only that of the first tile and the first end of the file are taken, and they
leave the same file. -/
theorem refused_calls_leave_no_trace_threePixels :
    ∃ created, (Writer.create "map" ThreePixels.settings none).value = .ok created ∧
      (Behavior.taken Writer.Call.isRefused
        (Writer.calledInPlace.run created ThreePixels.calls).1).map Prod.fst =
          [.tile ThreePixels.tile, .finish] ∧
      (Writer.called.run created [.tile ThreePixels.tile, .finish]).2.release.value.contents =
        (Writer.called.run created ThreePixels.calls).2.release.value.contents := by
  obtain ⟨created, isCreated⟩ :
      ∃ created, (Writer.create "map" ThreePixels.settings none).value = .ok created := ⟨_, rfl⟩
  have taken_eq : (Behavior.taken Writer.Call.isRefused
      (Writer.calledInPlace.run created ThreePixels.calls).1).map Prod.fst =
        [.tile ThreePixels.tile, .finish] := by
    cases isCreated
    decide +kernel
  have sameFile := (refused_calls_leave_no_trace isCreated ThreePixels.calls).2.2.2
  rw [taken_eq] at sameFile
  exact ⟨created, isCreated, taken_eq, sameFile⟩

end Texture
end DeepShadow
