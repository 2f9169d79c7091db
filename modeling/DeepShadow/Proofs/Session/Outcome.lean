import DeepShadow.Proofs.Session.Storing

/-!
# How sessions end

The messages to a session decide its result: it is complete when regions that are
taken complete the image, it fails when a region is refused before that, and it is
incomplete otherwise, whether a producer asks for the end or all producers are
gone.  What is sent behind the message that decides is ignored.  In all cases the
file is finished, and shows the tiles that were completed.
-/

namespace DeepShadow

namespace Assembly

/-! ## The last tile -/

namespace Image

/-- Whether all pixels of an image have arrived. -/
def IsComplete (image : Image) (canvas : Canvas) : Prop :=
  ∀ position ∈ image.grid.positions, image.Completes canvas position

instance (image : Image) (canvas : Canvas) : Decidable (image.IsComplete canvas) :=
  inferInstanceAs (Decidable (∀ _ ∈ _, _))

/-- The number of tiles of which pixels are missing. -/
def missingCount (image : Image) (canvas : Canvas) : Nat :=
  (image.grid.positions.filter fun position => ¬image.Completes canvas position).length

end Image

namespace Assembler

variable {image : Image} {canvas : Canvas} {assembler : TextureAssembler} {region : Region}

theorem Shows.isFull_iff_isComplete (shows : assembler.Shows image canvas) :
    assembler.completed.isFull = true ↔ image.IsComplete canvas := by
  rw [shows.isFull_iff]
  unfold Image.IsComplete
  simp only [Grid.mem_positions]

theorem Shows.missingCount_eq (shows : assembler.Shows image canvas) :
    assembler.missingCount = image.missingCount canvas := by
  have positions : assembler.grid.positions = image.grid.positions := by rw [shows.grid_eq]
  have counted := shows.counted
  unfold TileSet.Counted at counted
  have all := List.length_eq_countP_add_countP
    (fun position => decide (image.Completes canvas position)) (l := image.grid.positions)
  have completed : assembler.completed.count =
      image.grid.positions.countP fun position => decide (image.Completes canvas position) := by
    rw [counted, positions]
    apply List.countP_congr
    intro position member
    rw [shows.completed_iff position (Grid.mem_positions.mp member), decide_eq_true_eq]
  have incomplete : image.missingCount canvas = image.grid.positions.countP fun position =>
      decide ¬decide (image.Completes canvas position) = true := by
    unfold Image.missingCount
    rw [List.countP_eq_length_filter]
    simp only [decide_eq_true_eq]
  rw [Grid.length_positions] at all
  unfold missingCount
  rw [completed, incomplete, shows.grid_eq]
  omega

/-- The file is finished with the tiles that are complete, although others may be
missing. -/
theorem close_eq
    (unfinished : assembler.isFinished = false)
    (holds : image.Holds canvas assembler.sink) :
    ∃ next, (assembler.close Sink.writer).value = (.ok (), next) ∧
      next.summary = some (image.summary canvas) ∧
      image.Finishes canvas next.sink := by
  obtain ⟨written, finished, finishes⟩ := holds.finish_eq
  have finish_eq : (Sink.writer.finish assembler.sink).value =
      (.ok (image.summary canvas), written) := finished
  refine ⟨{ assembler with
    pending := TileMap.constant _ none
    sink := written
    summary := some (image.summary canvas) }, ?_, rfl, finishes⟩
  rw [close_of_unfinished unfinished]
  unfold finishSink
  rw [Traced.value_bind, finish_eq]
  rfl

/-- What becomes of a region where the sink writes a file: no tile is refused, and
the last one finishes the file. -/
theorem Shows.submit_writer
    (shows : assembler.Shows image canvas)
    (unfinished : assembler.isFinished = false)
    (holds : image.Holds canvas assembler.sink)
    (region : Region)
    (countable : image.Countable (image.paintedFrom canvas [region]))
    (fits : image.fileSize (image.paintedFrom canvas [region]) < 0x100000000) :
    match image.refusal? canvas region with
    | some error =>
        (assembler.submit Sink.writer region).value = .ok (.error (.region error), assembler)
    | none =>
        ∃ next, (assembler.submit Sink.writer region).value = .ok (.ok (), next) ∧
          if image.IsComplete (canvas.paint region) then
            next.summary = some (image.summary (canvas.paint region)) ∧
              image.Finishes (canvas.paint region) next.sink
          else
            next.Shows image (canvas.paint region) ∧
              next.isFinished = false ∧
              image.Holds (canvas.paint region) next.sink := by
  have submit_eq := shows.submit_eq unfinished Sink.writer region countable
  cases refused : image.refusal? canvas region with
  | some error =>
      rw [refused] at submit_eq
      exact submit_eq
  | none =>
      rw [refused] at submit_eq
      rw [Image.paintedFrom_of_taken refused] at countable fits
      obtain ⟨next, showsNext, sink_eq, unfinishedNext, value_eq⟩ := submit_eq
      obtain ⟨admits, before, _⟩ := shows.uniform.of_refusal?_eq_none refused
      have advances := admits.advances before
      simp only
      rw [value_eq]
      by_cases completes : image.Completes (canvas.paint region) (image.tileOf region)
      · rw [if_pos completes]
        obtain ⟨written, accepted, holdsNext⟩ :=
          holds.accept_eq advances completes showsNext.sound countable fits
        rw [← sink_eq] at accepted
        have emitted : (next.emit Sink.writer ((canvas.paint region).assemble image.channels
            (image.grid.frame (image.tileOf region)))).value =
              if next.completed.isFull then
                ({ next with sink := written }.finishSink Sink.writer).value
              else (.ok (), { next with sink := written }) := by
          unfold emit
          rw [Traced.value_bind]
          unfold Image.assembled at accepted
          rw [accepted]
          by_cases isFull : next.completed.isFull = true
          · simp only [isFull, if_true]
          · simp only [isFull]
            rfl
        rw [emitted]
        by_cases complete : image.IsComplete (canvas.paint region)
        · simp only [if_pos complete, if_pos (showsNext.isFull_iff_isComplete.mpr complete)]
          obtain ⟨last, finished, finishes⟩ := holdsNext.finish_eq
          have finish_eq : (Sink.writer.finish written).value =
              (.ok (image.summary (canvas.paint region)), last) := finished
          refine ⟨{ next with
            sink := last
            summary := some (image.summary (canvas.paint region)) }, ?_, rfl, finishes⟩
          unfold finishSink
          simp only [Traced.value_bind, finish_eq]
          rfl
        · simp only [if_neg complete, if_neg (mt showsNext.isFull_iff_isComplete.mp complete)]
          exact ⟨_, rfl, showsNext.withSink written, unfinishedNext, holdsNext⟩
      · rw [if_neg completes]
        have incomplete : ¬image.IsComplete (canvas.paint region) := fun complete =>
          completes (complete _ (Grid.mem_positions.mpr admits.contains_tileOf))
        simp only [if_neg incomplete]
        exact ⟨next, rfl, showsNext, unfinishedNext,
          sink_eq ▸ holds.advance advances completes⟩

end Assembler
end Assembly

namespace Session

open Assembly (Image)

variable {image : Image} {canvas : Canvas} {session : Session}

/-! ## Messages -/

/-- The regions that a session takes, where the canvas has arrived before. -/
def takenBy (image : Image) (canvas : Canvas) : List Message -> List Region
  | .region region :: messages =>
      match image.refusal? canvas region with
      | some _ => []
      | none => region :: takenBy image (canvas.paint region) messages
  | _ => []

/-- What the message that follows the regions taken makes of a session. -/
inductive Decides (image : Image) (canvas : Canvas) (regions : Nat) :
    List Message -> Except Error Report -> Prop
  | complete
      (complete : image.IsComplete canvas)
      (ignored : List Message) :
      Decides image canvas regions ignored (.ok ⟨regions, image.summary canvas⟩)
  | rejected
      (incomplete : ¬image.IsComplete canvas)
      {region : Region}
      {error : Assembly.RegionError}
      (refused : image.refusal? canvas region = some error)
      (ignored : List Message) :
      Decides image canvas regions (.region region :: ignored)
        (.error (.assembly (.region error)))
  | finish
      (incomplete : ¬image.IsComplete canvas)
      (ignored : List Message) :
      Decides image canvas regions (.finish :: ignored)
        (.error (.incomplete (image.missingCount canvas) (some (image.summary canvas))))
  | gone
      (incomplete : ¬image.IsComplete canvas) :
      Decides image canvas regions []
        (.error (.incomplete (image.missingCount canvas) (some (image.summary canvas))))

/-- A session waits for the pixels that are not on the canvas. -/
structure Waits (image : Image) (canvas : Canvas) (session : Session) : Prop where
  shows : session.assembler.Shows image canvas
  unfinished : session.assembler.isFinished = false
  holds : image.Holds canvas session.assembler.sink
  incomplete : ¬image.IsComplete canvas

/-- A session that has ended ignores what is sent. -/
theorem receiveAll_of_ended
    (ended : session.ending.isSome = true)
    (messages : List Message) :
    (session.receiveAll messages).value = .ok session := by
  induction messages with
  | nil => rfl
  | cons message messages inductionHypothesis =>
      have received : (session.receive message).value = .ok session := by
        unfold receive
        rw [if_pos ended]
        rfl
      rw [receiveAll, Traced.value_bind, received]
      exact inductionHypothesis

/-! ## Results -/

theorem release_of_finished
    {writer : Texture.Writer}
    (finished : writer.isFinished = true) :
    writer.release.value = writer := by
  unfold Texture.Writer.release
  rw [if_pos finished]
  rfl

/-- A session that waits is incomplete when its producers are gone. -/
theorem Waits.join_eq
    (waits : session.Waits image canvas)
    (notRejected : session.ending = none ∨ session.ending = some .stopped) :
    ∃ writer, session.join.value =
        (.error (.incomplete (image.missingCount canvas) (some (image.summary canvas))), writer) ∧
      image.Finishes canvas writer := by
  obtain ⟨next, closed, summary_eq, finishes⟩ :=
    Assembly.Assembler.close_eq waits.unfinished waits.holds
  have noSummary : session.assembler.summary = none :=
    Option.isSome_eq_false_iff.mp waits.unfinished |> Option.isNone_iff_eq_none.mp
  have result_eq : session.result.value =
      (.error (.incomplete (image.missingCount canvas) (some (image.summary canvas))), next) := by
    unfold result
    rcases notRejected with ending | ending
    all_goals
      simp only [ending, noSummary, Traced.value_bind, closed, waits.shows.missingCount_eq,
        summary_eq]
      rfl
  refine ⟨next.sink, ?_, finishes⟩
  unfold join
  simp only [Traced.value_bind, result_eq, release_of_finished finishes.1]
  rfl

/-- A session whose image is complete reports its regions. -/
theorem join_of_complete
    {summary : Texture.Summary}
    (stopped : session.ending = some .stopped)
    (summary_eq : session.assembler.summary = some summary)
    (finished : session.assembler.sink.isFinished = true) :
    session.join.value = (.ok ⟨session.regions, summary⟩, session.assembler.sink) := by
  have result_eq : session.result.value =
      (.ok ⟨session.regions, summary⟩, session.assembler) := by
    unfold result
    simp only [stopped, summary_eq]
    rfl
  unfold join
  simp only [Traced.value_bind, result_eq, release_of_finished finished]
  rfl

theorem join_of_rejected
    {error : Assembly.Error}
    (rejected : session.ending = some (.rejected error))
    (finished : session.assembler.sink.isFinished = true) :
    session.join.value = (.error (.assembly error), session.assembler.sink) := by
  have result_eq : session.result.value = (.error (.assembly error), session.assembler) := by
    unfold result
    simp only [rejected]
    rfl
  unfold join
  simp only [Traced.value_bind, result_eq, release_of_finished finished]
  rfl

/-! ## Steps -/

/-- A region that is refused ends a session. -/
theorem Waits.receive_refused
    (waits : session.Waits image canvas)
    (going : session.ending = none)
    {region : Region}
    {error : Assembly.RegionError}
    (refused : image.refusal? canvas region = some error)
    (countable : image.Countable canvas)
    (fits : image.fileSize canvas < 0x100000000) :
    ∃ next, (session.receive (.region region)).value = .ok next ∧
      next.ending = some (.rejected (.region error)) ∧
      image.Finishes canvas next.assembler.sink := by
  have submitted := waits.shows.submit_writer waits.unfinished waits.holds region
  have unchanged := Image.paintedFrom_of_refused refused
  rw [refused, unchanged] at submitted
  have submit_eq : (session.assembler.submit Assembly.Sink.writer region).value =
      .ok (.error (.region error), session.assembler) := submitted countable fits
  obtain ⟨closed, closed_eq, _, finishes⟩ :=
    Assembly.Assembler.close_eq waits.unfinished waits.holds
  refine ⟨{ session with
    assembler := closed
    regions := session.regions + 1
    ending := some (.rejected (.region error)) }, ?_, rfl, finishes⟩
  unfold receive reject
  rw [going]
  simp only [Option.isSome_none, Bool.false_eq_true, if_false, Traced.value_bind, submit_eq,
    closed_eq]
  rfl

/-- A region that completes the image ends a session. -/
theorem Waits.receive_last
    (waits : session.Waits image canvas)
    (going : session.ending = none)
    {region : Region}
    (taken : image.refusal? canvas region = none)
    (complete : image.IsComplete (canvas.paint region))
    (countable : image.Countable (canvas.paint region))
    (fits : image.fileSize (canvas.paint region) < 0x100000000) :
    ∃ next, (session.receive (.region region)).value = .ok next ∧
      next.ending = some .stopped ∧
      next.regions = session.regions + 1 ∧
      next.assembler.summary = some (image.summary (canvas.paint region)) ∧
      image.Finishes (canvas.paint region) next.assembler.sink := by
  have submitted := waits.shows.submit_writer waits.unfinished waits.holds region
  have painted := Image.paintedFrom_of_taken taken
  rw [taken, painted] at submitted
  obtain ⟨assembler, value_eq, outcome⟩ := submitted countable fits
  rw [if_pos complete] at outcome
  obtain ⟨summary_eq, finishes⟩ := outcome
  have isFinished : assembler.isFinished = true := by
    unfold Assembly.Assembler.isFinished
    rw [summary_eq]
    rfl
  refine ⟨{ session with
    assembler
    regions := session.regions + 1
    ending := some .stopped }, ?_, rfl, rfl, summary_eq, finishes⟩
  unfold receive
  rw [going]
  simp only [Option.isSome_none, Bool.false_eq_true, if_false, Traced.value_bind, value_eq,
    isFinished, if_true]
  rfl

/-- After any other region a session waits for more. -/
theorem Waits.receive_more
    (waits : session.Waits image canvas)
    (going : session.ending = none)
    {region : Region}
    (taken : image.refusal? canvas region = none)
    (incomplete : ¬image.IsComplete (canvas.paint region))
    (countable : image.Countable (canvas.paint region))
    (fits : image.fileSize (canvas.paint region) < 0x100000000) :
    ∃ next, (session.receive (.region region)).value = .ok next ∧
      next.ending = none ∧
      next.regions = session.regions + 1 ∧
      next.Waits image (canvas.paint region) := by
  have submitted := waits.shows.submit_writer waits.unfinished waits.holds region
  have painted := Image.paintedFrom_of_taken taken
  rw [taken, painted] at submitted
  obtain ⟨assembler, value_eq, outcome⟩ := submitted countable fits
  rw [if_neg incomplete] at outcome
  obtain ⟨shows, unfinished, holds⟩ := outcome
  refine ⟨{ session with assembler, regions := session.regions + 1 }, ?_, going, rfl,
    ⟨shows, unfinished, holds, incomplete⟩⟩
  unfold receive
  rw [going]
  simp only [Option.isSome_none, Bool.false_eq_true, if_false, Traced.value_bind, value_eq,
    unfinished]
  rfl

/-! ## Runs -/

/-- Once an image is complete, no region is taken. -/
theorem takenBy_of_complete
    (uniform : image.Uniform canvas)
    (complete : image.IsComplete canvas)
    (messages : List Message) :
    takenBy image canvas messages = [] := by
  cases messages with
  | nil => rfl
  | cons message messages =>
      cases message with
      | finish => rfl
      | region region =>
          obtain ⟨error, refused⟩ := uniform.refusal?_of_complete
            (fun position inside => complete position (Grid.mem_positions.mpr inside)) region
          rw [takenBy, refused]

theorem takenBy_of_refused
    {region : Region}
    {error : Assembly.RegionError}
    (refused : image.refusal? canvas region = some error)
    {messages : List Message} :
    takenBy image canvas (.region region :: messages) = [] := by
  rw [takenBy, refused]

theorem takenBy_of_taken
    {region : Region}
    (taken : image.refusal? canvas region = none)
    {messages : List Message} :
    takenBy image canvas (.region region :: messages) =
      region :: takenBy image (canvas.paint region) messages := by
  rw [takenBy, taken]

theorem paintedFrom_of_first
    {region : Region}
    (taken : image.refusal? canvas region = none)
    (regions : List Region) :
    image.paintedFrom canvas (region :: regions) =
      image.paintedFrom (canvas.paint region) regions := by
  rw [Image.paintedFrom_cons, Image.paintedFrom_of_taken taken]

/-- The messages to a session that waits decide its result, and its file has the
tiles that were completed. -/
theorem Waits.receiveAll_eq
    (waits : session.Waits image canvas)
    (going : session.ending = none)
    (messages : List Message)
    (countable : image.Countable (image.paintedFrom canvas (takenBy image canvas messages)))
    (fits : image.fileSize (image.paintedFrom canvas (takenBy image canvas messages)) <
      0x100000000) :
    ∃ last result writer rest,
      (session.receiveAll messages).value = .ok last ∧
      last.join.value = (result, writer) ∧
      messages = (takenBy image canvas messages).map .region ++ rest ∧
      image.takenFrom canvas (takenBy image canvas messages) = takenBy image canvas messages ∧
      Decides image (image.paintedFrom canvas (takenBy image canvas messages))
        (session.regions + (takenBy image canvas messages).length) rest result ∧
      image.Finishes (image.paintedFrom canvas (takenBy image canvas messages)) writer := by
  -- A session waits for its canvas until a message ends it; the rest is ignored.
  induction messages generalizing session canvas with
  | nil =>
      obtain ⟨writer, joined, finishes⟩ := waits.join_eq (Or.inl going)
      exact ⟨session, _, writer, [], rfl, joined, rfl, rfl, .gone waits.incomplete, finishes⟩
  | cons message messages inductionHypothesis =>
      cases message with
      | finish =>
          have waitsStopped : { session with ending := some .stopped }.Waits image canvas :=
            { waits with }
          obtain ⟨writer, joined, finishes⟩ := waitsStopped.join_eq (Or.inr rfl)
          refine ⟨{ session with ending := some .stopped }, _, writer, _, ?_, joined, rfl, rfl,
            .finish waits.incomplete messages, finishes⟩
          have received : (session.receive .finish).value =
              .ok { session with ending := some .stopped } := by
            unfold receive
            rw [going]
            rfl
          rw [receiveAll, Traced.value_bind, received]
          exact receiveAll_of_ended rfl messages
      | region region =>
          cases refused : image.refusal? canvas region with
          | some error =>
              rw [takenBy_of_refused refused] at countable fits ⊢
              obtain ⟨next, received, ending, finishes⟩ :=
                waits.receive_refused going refused countable fits
              refine ⟨next, _, _, .region region :: messages, ?_,
                join_of_rejected ending finishes.1, rfl, rfl,
                .rejected waits.incomplete refused messages, finishes⟩
              rw [receiveAll, Traced.value_bind, received]
              exact receiveAll_of_ended (by rw [ending]; rfl) messages
          | none =>
              have uniform := waits.shows.uniform.paint
                (waits.shows.uniform.of_refusal?_eq_none refused).1
              have extend := uniform.extends_paintedFrom
                (takenBy image (canvas.paint region) messages)
              have painted := paintedFrom_of_first refused
                (takenBy image (canvas.paint region) messages)
              rw [takenBy_of_taken refused, painted] at countable fits
              rw [takenBy_of_taken refused, painted]
              have countableNow := countable.of_extends extend
              have fitsNow := Nat.lt_of_le_of_lt (image.fileSize_le_of_extends extend) fits
              have taken_eq : image.takenFrom canvas
                  (region :: takenBy image (canvas.paint region) messages) =
                    region :: image.takenFrom (canvas.paint region)
                      (takenBy image (canvas.paint region) messages) := by
                rw [Image.takenFrom, refused]
              rw [taken_eq]
              by_cases complete : image.IsComplete (canvas.paint region)
              · obtain ⟨next, received, ending, regions_eq, summary_eq, finishes⟩ :=
                  waits.receive_last going refused complete countableNow fitsNow
                rw [takenBy_of_complete uniform complete messages]
                refine ⟨next, _, _, messages, ?_, join_of_complete ending summary_eq finishes.1,
                  rfl, rfl, ?_, finishes⟩
                · rw [receiveAll, Traced.value_bind, received]
                  exact receiveAll_of_ended (by rw [ending]; rfl) messages
                · rw [regions_eq]
                  exact .complete complete messages
              · obtain ⟨next, received, ending, regions_eq, waitsNext⟩ :=
                  waits.receive_more going refused complete countableNow fitsNow
                obtain ⟨last, result, writer, rest, receivedRest, joined, split, taken, decides,
                  finishes⟩ := inductionHypothesis waitsNext ending countable fits
                refine ⟨last, result, writer, rest, ?_, joined, ?_, ?_, ?_, finishes⟩
                · rw [receiveAll, Traced.value_bind, received]
                  exact receivedRest
                · rw [List.map_cons, List.cons_append, ← split]
                · rw [taken]
                · rw [regions_eq, Nat.add_assoc, Nat.add_comm 1] at decides
                  exact decides

/-! ## Outcomes -/

/-- The image of a session. -/
def imageOf
    {settings : Texture.Settings}
    {grid : Grid}
    (accepted : settings.grid = .ok grid) : Image where
  grid
  bucket :=
    { width := settings.bucketWidth.toNat
      height := settings.bucketHeight.toNat
      width_pos := (Texture.Settings.grid_eq_ok accepted).2.2.2.2.2.1
      height_pos := (Texture.Settings.grid_eq_ok accepted).2.2.2.2.2.2.1 }
  divides := by
    obtain ⟨_, _, _, tileWidth, tileHeight, _, _, divides⟩ :=
      Texture.Settings.grid_eq_ok accepted
    exact ⟨(congrArg (· % _) tileWidth).trans divides.1,
      (congrArg (· % _) tileHeight).trans divides.2⟩
  channels := settings.channels.toNat
  supported := (Texture.Settings.grid_eq_ok accepted).1

/-- A new session waits for all pixels. -/
theorem start_eq_ok
    (path : String)
    {settings : Settings}
    {grid : Grid}
    (accepted : settings.texture.grid = .ok grid)
    (hasPlaces : settings.capacity ≠ 0)
    (fits : Texture.headerSize + Texture.Table.encodedSize grid < 0x100000000) :
    ∃ session, (start path settings none).value = .ok (.ok session) ∧
      session.ending = none ∧
      session.regions = 0 ∧
      session.Waits (imageOf accepted) Canvas.blank := by
  obtain ⟨writer, created, represents⟩ := Texture.Writer.create_eq_ok path accepted fits
  have started : (Assembly.Assembler.start writer.grid settings.texture.bucketWidth.toNat
      settings.texture.bucketHeight.toNat writer.channels writer :
        Except Violation TextureAssembler) = .ok ((imageOf accepted).start writer) := by
    rw [represents.grid_eq, represents.channels_eq]
    exact Assembly.Assembler.start_eq_ok (imageOf accepted) writer
  refine ⟨⟨(imageOf accepted).start writer, 0, none⟩, ?_, rfl, rfl, ?_⟩
  · unfold start
    rw [if_neg hasPlaces]
    simp only [Traced.value_bind, created, started]
    rfl
  · have nothing : (imageOf accepted).storedTiles Canvas.blank = [] := by
      unfold Image.storedTiles
      rw [List.filterMap_eq_nil_iff]
      intro position member
      exact if_neg (Image.not_completes_blank (Grid.mem_positions.mp member))
    refine ⟨Assembly.Assembler.shows_start _ writer, rfl, ⟨_, [], represents, ?_, ?_⟩, ?_⟩
    · exact
        { valid := represents.valid
          grid_eq := rfl
          channels_eq := rfl
          stored := by
            rw [nothing]
            exact List.Perm.refl [] }
    · intro position
      refine iff_of_false List.not_mem_nil ?_
      rintro ⟨inside, completes⟩
      exact Image.not_completes_blank inside completes
    · intro complete
      have inside := Grid.contains_owner grid.imageWidth_pos grid.imageHeight_pos
      exact Image.not_completes_blank inside (complete _ (Grid.mem_positions.mpr inside))

/-- What a file shows of the regions that were taken: each tile that they cover as
it was assembled from them, and all others as fully visible.  The tiles with and
without a block are those of the summary. -/
structure Shows (image : Image) (sent : List Region) (reader : Texture.Reader) : Prop where
  grid_eq : reader.grid = image.grid
  channels_eq : reader.channels = image.channels
  written : reader.blockStarts.length = (image.summary (image.painted sent)).tilesWritten
  elided : reader.table.elidedCount = (image.summary (image.painted sent)).tilesElided
  all : reader.blockStarts.length + reader.table.elidedCount = image.grid.tileCount
  load_completed : ∀ position, image.grid.Contains position -> image.Covered sent position ->
    ∃ tile visible, tile = image.assembled (image.painted sent) position ∧
      image.Carries sent tile ∧
      Tile.fullyVisible (image.grid.frame position) image.channels = .ok visible ∧
      reader.load position = .ok (tile.orVisible visible)
  load_missing : ∀ position, image.grid.Contains position -> ¬image.Covered sent position ->
    ∃ visible, Tile.fullyVisible (image.grid.frame position) image.channels = .ok visible ∧
      reader.load position = .ok visible

theorem fullyVisible_eq_ok (image : Image) (position : TilePosition) :
    Tile.fullyVisible (image.grid.frame position) image.channels =
      .ok (Tile.visible (image.grid.frame position) image.channels) := by
  unfold Tile.fullyVisible
  rw [if_pos image.supported]

/-- A file that is finished shows the regions that were taken. -/
theorem shows_of_finishes
    {writer : Texture.Writer}
    {sent : List Region}
    (countable : image.Countable (image.painted sent))
    (taken : image.taken sent = sent)
    (finishes : image.Finishes (image.painted sent) writer)
    (path : String) :
    ∃ reader, (Texture.Reader.open path (.ok writer.contents)).value = .ok reader ∧
      Shows image sent reader := by
  obtain ⟨reader, opened, grid_eq, channels_eq, written, elided, loads⟩ := finishes.open_eq path
  obtain ⟨pictures, admitted⟩ := image.pictures_painted sent
  rw [taken] at pictures admitted
  refine ⟨reader, opened,
    { grid_eq
      channels_eq
      written
      elided
      all := ?_
      load_completed := ?_
      load_missing := ?_ }⟩
  · rw [written, elided]
    exact Nat.add_sub_of_le (Image.length_storedTiles_le _ _)
  · intro position inside covered
    have completes := (Image.covered_iff pictures position).mp covered
    refine ⟨_, _, rfl, Image.carries_assembled pictures admitted countable inside completes,
      fullyVisible_eq_ok image position, ?_⟩
    rw [loads position inside]
    unfold Image.stored?
    rw [if_pos completes]
    cases image.assembled (image.painted sent) position with
    | stored tile => rfl
    | neglectable _ => rfl
  · intro position inside notCovered
    refine ⟨_, fullyVisible_eq_ok image position, ?_⟩
    have nothing : image.stored? (image.painted sent) position = none :=
      if_neg (mt (Image.covered_iff pictures position).mpr notCovered)
    rw [loads position inside, nothing]
    rfl

/-- How a session ends.  For all settings that are accepted and all messages,
followed by the departure of the producers, the result is decided by the regions
`sent` that are taken and by the message that follows them.  No tile is refused by
the writer, and the file is opened and shows the regions that were taken. -/
theorem join_decided
    (path : String)
    (settings : Settings)
    (grid : Grid)
    (accepted : settings.texture.grid = .ok grid)
    (hasPlaces : settings.capacity ≠ 0)
    (messages : List Message)
    (countable : (imageOf accepted).Countable
      ((imageOf accepted).painted (takenBy (imageOf accepted) Canvas.blank messages)))
    (fits : (imageOf accepted).fileSize
      ((imageOf accepted).painted (takenBy (imageOf accepted) Canvas.blank messages)) <
        0x100000000) :
    ∃ session last result writer reader sent rest,
      (start path settings none).value = .ok (.ok session) ∧
      (session.receiveAll messages).value = .ok last ∧
      last.join.value = (result, writer) ∧
      sent = takenBy (imageOf accepted) Canvas.blank messages ∧
      messages = sent.map .region ++ rest ∧
      (imageOf accepted).taken sent = sent ∧
      Decides (imageOf accepted) ((imageOf accepted).painted sent) sent.length rest result ∧
      (Texture.Reader.open path (.ok writer.contents)).value = .ok reader ∧
      Shows (imageOf accepted) sent reader := by
  have startFits : Texture.headerSize + Texture.Table.encodedSize grid < 0x100000000 :=
    Nat.lt_of_le_of_lt (Nat.le_add_right _ _) fits
  obtain ⟨session, started, going, regions_eq, waits⟩ :=
    start_eq_ok path accepted hasPlaces startFits
  obtain ⟨last, result, writer, rest, received, joined, split, taken, decides, finishes⟩ :=
    waits.receiveAll_eq going messages countable fits
  obtain ⟨reader, opened, shows⟩ := shows_of_finishes countable taken finishes path
  rw [regions_eq, Nat.zero_add] at decides
  exact ⟨session, last, result, writer, reader, _, rest, started, received, joined, rfl, split,
    taken, decides, opened, shows⟩

namespace TwoRows

/-- Settings for the image of two rows. -/
def settings : Settings where
  texture :=
    { imageWidth := 3
      imageHeight := 2
      tileWidth := 2
      tileHeight := 2
      bucketWidth := 2
      bucketHeight := 1
      channels := 1 }

theorem accepted : settings.texture.grid = .ok Image.TwoRows.narrow.grid := rfl

/-- The rows of the first tile, and then one of them again. -/
def messages : List Message :=
  [.region Image.TwoRows.lower, .region Image.TwoRows.upper, .region Image.TwoRows.lower,
    .finish]

/-- The regions that are taken. -/
def sent : List Region := [Image.TwoRows.lower, Image.TwoRows.upper]

end TwoRows

/-- The tile that is complete refuses its row, and ends the session.  The first tile
is read as it was assembled, and the second one is fully visible. -/
theorem join_decided_twoRows :
    ∃ session last result writer reader,
      (start "map" TwoRows.settings none).value = .ok (.ok session) ∧
      (session.receiveAll TwoRows.messages).value = .ok last ∧
      last.join.value = (result, writer) ∧
      result = .error (.assembly (.region (.tileComplete ⟨0, 0⟩))) ∧
      (Texture.Reader.open "map" (.ok writer.contents)).value = .ok reader ∧
      reader.load ⟨0, 0⟩ =
        .ok ⟨⟨⟨0, 0⟩, 0, 0, 2, 2⟩, 1, #[0, 1, 2, 3, 5],
          #[Single.zero, Single.one, Single.zero, Single.one, Single.zero, Single.one,
            Single.zero, Single.one, Single.one, Single.zero]⟩ ∧
      reader.load ⟨1, 0⟩ = .ok (Tile.visible ⟨⟨1, 0⟩, 2, 0, 1, 2⟩ 1) := by
  have sent_eq : takenBy (imageOf TwoRows.accepted) Canvas.blank TwoRows.messages =
      TwoRows.sent := by decide +kernel
  have decided : ∀ position ∈ (imageOf TwoRows.accepted).grid.positions,
      ((imageOf TwoRows.accepted).painted TwoRows.sent).nodeTotal
        (imageOf TwoRows.accepted).channels ((imageOf TwoRows.accepted).grid.frame position) <
          0x100000000 := by
    decide +kernel
  have countable : (imageOf TwoRows.accepted).Countable ((imageOf TwoRows.accepted).painted
      (takenBy (imageOf TwoRows.accepted) Canvas.blank TwoRows.messages)) := by
    rw [sent_eq]
    exact fun position inside _ => decided position (Grid.mem_positions.mpr inside)
  have fits : (imageOf TwoRows.accepted).fileSize ((imageOf TwoRows.accepted).painted
      (takenBy (imageOf TwoRows.accepted) Canvas.blank TwoRows.messages)) < 0x100000000 := by
    rw [sent_eq]
    decide +kernel
  obtain ⟨session, last, result, writer, reader, sent, rest, started, received, joined, rfl,
      split, _, decides, opened, shows⟩ :=
    join_decided "map" TwoRows.settings _ TwoRows.accepted (by decide) TwoRows.messages
      countable fits
  rw [sent_eq] at split decides shows
  have rest_eq : rest = [.region Image.TwoRows.lower, .finish] :=
    List.append_cancel_left split.symm
  have refused : (imageOf TwoRows.accepted).refusal?
      ((imageOf TwoRows.accepted).painted TwoRows.sent) Image.TwoRows.lower =
        some (.tileComplete ⟨0, 0⟩) := by
    decide +kernel
  have incomplete : ¬(imageOf TwoRows.accepted).IsComplete
      ((imageOf TwoRows.accepted).painted TwoRows.sent) := by
    decide +kernel
  have pictures := ((imageOf TwoRows.accepted).pictures_painted TwoRows.sent).1
  have taken_eq : (imageOf TwoRows.accepted).taken TwoRows.sent = TwoRows.sent := by
    decide +kernel
  rw [taken_eq] at pictures
  refine ⟨session, last, result, writer, reader, started, received, joined, ?_, opened, ?_, ?_⟩
  · rw [rest_eq] at decides
    cases decides with
    | complete complete => exact absurd complete incomplete
    | rejected _ refusedHere =>
        rw [refused] at refusedHere
        cases refusedHere
        rfl
  · obtain ⟨tile, visible, tile_eq, _, _, loaded⟩ := shows.load_completed ⟨0, 0⟩ (by decide)
      ((Image.covered_iff pictures ⟨0, 0⟩).mpr (by decide +kernel))
    rw [loaded, tile_eq]
    rfl
  · obtain ⟨visible, made, loaded⟩ := shows.load_missing ⟨1, 0⟩ (by decide)
      (mt (Image.covered_iff pictures ⟨1, 0⟩).mp (by decide +kernel))
    rw [loaded]
    cases made
    rfl

end Session
end DeepShadow
