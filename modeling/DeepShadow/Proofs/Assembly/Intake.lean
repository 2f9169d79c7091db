import DeepShadow.Proofs.Assembly.Image
import DeepShadow.Proofs.Grid.Membership

/-!
# Taking regions

An assembly shows the canvas of the regions it has taken: its completed tiles are
the complete ones, and every other tile is pending as far as it has arrived.  A
region is refused, and nothing changes, or it is taken and painted.  When it
completes its tile, the tile of the canvas goes to the sink.
-/

namespace DeepShadow
namespace Assembly
namespace Assembler

variable {State Summary : Type}

/-- The pending tile at a position, which is empty where nothing has arrived. -/
def pendingAt
    (assembler : Assembler State Summary)
    (size : BucketSize)
    (placement : Placement) : PendingTile :=
  ((assembler.pending.find? placement.position).getD none).getD
    (PendingTile.empty placement size)

/-- An assembly has taken the regions painted on a canvas. -/
structure Shows
    (image : Image)
    (canvas : Canvas)
    (assembler : Assembler State Summary) : Prop where
  grid_eq : assembler.grid = image.grid
  bucket_eq : assembler.bucket = image.bucket
  channels_eq : assembler.channels = image.channels
  sound : canvas.Sound image.channels
  uniform : image.Uniform canvas
  completed_iff : ∀ position, image.grid.Contains position ->
    (assembler.completed.has position = true ↔ image.Completes canvas position)
  counted : assembler.completed.Counted
  pending : ∀ position, image.grid.Contains position -> ¬image.Completes canvas position ->
    (assembler.pendingAt image.bucket (image.grid.frame position)).Shows image.bucket
      image.channels (image.grid.frame position) canvas
  finished : assembler.isFinished = true ->
    ∀ position, image.grid.Contains position -> image.Completes canvas position

variable {image : Image} {canvas : Canvas} {assembler : Assembler State Summary}
  {region : Region}

/-- The set of complete tiles is full when all tiles of the image are complete. -/
theorem Shows.isFull_iff (shows : assembler.Shows image canvas) :
    assembler.completed.isFull = true ↔
      ∀ position, image.grid.Contains position -> image.Completes canvas position := by
  rw [TileSet.isFull_iff shows.counted, ← shows.grid_eq]
  apply forall₂_congr
  intro position inside
  rw [shows.grid_eq] at inside
  exact shows.completed_iff position inside

/-- A region is put into the tile that owns it, unless the tile is complete or has one of the
rows. -/
theorem find_eq
    {position : TilePosition}
    (owner_eq : assembler.grid.tileForPixel region.bounds.left region.bounds.top = .ok position)
    (inside : assembler.grid.Contains position) :
    assembler.find region =
      if assembler.completed.has position then .error (.tileComplete position)
      else
        match (assembler.pendingAt assembler.bucket (assembler.grid.frame position)).firstFilled?
            (region.bounds.top - (assembler.grid.frame position).originY) region.bounds.height
            ((region.bounds.left - (assembler.grid.frame position).originX) /
              assembler.bucket.width) with
        | some filled => .error (.rowFilled ((assembler.grid.frame position).originY + filled))
        | none =>
            .ok
              { index := assembler.grid.indexOf position inside
                tile := assembler.pendingAt assembler.bucket (assembler.grid.frame position)
                row := region.bounds.top - (assembler.grid.frame position).originY
                column := (region.bounds.left - (assembler.grid.frame position).originX) /
                  assembler.bucket.width } := by
  have pending_eq : (assembler.pending.get (assembler.grid.indexOf position inside)).getD
      (PendingTile.empty (assembler.grid.frame position) assembler.bucket) =
        assembler.pendingAt assembler.bucket (assembler.grid.frame position) := by
    unfold pendingAt
    rw [Grid.position_frame, TileMap.find?_eq_some _ inside]
    rfl
  have tile_eq : assembler.findTile region =
      if assembler.completed.has position then .error (.tileComplete position)
      else .ok (assembler.grid.indexOf position inside, assembler.grid.frame position) := by
    unfold findTile
    simp only [bind, Except.bind, owner_eq, Except.mapError, Grid.index_eq_ok inside,
      Grid.placement_eq_ok inside, TileSet.has_eq_get _ inside]
    split <;> rfl
  unfold find
  rw [tile_eq]
  split
  · rfl
  · simp only [bind, Except.bind, pending_eq]
    cases (assembler.pendingAt assembler.bucket (assembler.grid.frame position)).firstFilled?
        (region.bounds.top - (assembler.grid.frame position).originY) region.bounds.height
        ((region.bounds.left - (assembler.grid.frame position).originX) /
          assembler.bucket.width) with
    | none => rfl
    | some filled => rfl

/-- The strips of a region that passes the checks go to the place that is found for it. -/
theorem fill_of_checked (checked : assembler.check region = .ok ()) :
    assembler.fill region =
      (assembler.find region).map fun place => place.fill (Strip.ofRegion region) := by
  unfold fill
  rw [checked]
  cases assembler.find region with
  | error error => rfl
  | ok place => rfl

/-- A tile of which everything has arrived goes to the sink; another one waits. -/
theorem take_eq
    (sink : Sink State Summary)
    (assembler : Assembler State Summary)
    (bounds : Rectangle)
    (index : Fin assembler.grid.tileCount)
    (tile : PendingTile) :
    (assembler.take sink bounds index tile).value =
      if tile.isFull then
        (tile.assemble assembler.channels).map fun assembled =>
          (emit sink
            { assembler with
              pending := assembler.pending.set index none
              completed := assembler.completed.add index } assembled).value
      else
        .ok (.ok (), { assembler with pending := assembler.pending.set index (some tile) }) := by
  unfold take
  rw [Traced.value_bind]
  split
  · cases tile.assemble assembler.channels with
    | error violation => rfl
    | ok assembled => rfl
  · rfl

/-- Once finished, an assembly refuses every region. -/
theorem fill_of_finished
    (finished : assembler.isFinished = true)
    (region : Region) :
    assembler.fill region = .error .finished := by
  unfold fill check checkBy
  simp only [finished]
  rfl

/-- Once finished, an assembly answers every region with the same refusal. -/
theorem submit_of_finished
    (finished : assembler.isFinished = true)
    (sink : Sink State Summary)
    (region : Region) :
    (assembler.submit sink region).value = .ok (.error (.region .finished), assembler) := by
  unfold submit
  rw [fill_of_finished finished]
  rfl

/-- Closing an assembly again does nothing. -/
theorem close_of_finished
    (finished : assembler.isFinished = true)
    (sink : Sink State Summary) :
    (assembler.close sink).value = (.ok (), assembler) := by
  unfold close
  rw [if_pos finished]
  rfl

/-- Closing an assembly discards what is pending and finishes the sink. -/
theorem close_of_unfinished
    (unfinished : assembler.isFinished = false)
    (sink : Sink State Summary) :
    (assembler.close sink).value =
      ({ assembler with pending := TileMap.constant _ none }.finishSink sink).value := by
  unfold close
  rw [if_neg (Bool.eq_false_iff.mp unfinished)]
  -- Whether tiles are pending decides only about a line of the log.
  by_cases noPending : assembler.pendingCount = 0
  · simp only [noPending, ne_eq, not_true_eq_false, if_false]
  · simp only [noPending, ne_eq, not_false_eq_true, if_true, Traced.value_bind]

/-- What becomes of a region is decided by the image and the canvas. -/
theorem Shows.fill_eq
    (shows : assembler.Shows image canvas)
    (unfinished : assembler.isFinished = false)
    (region : Region) :
    match image.refusal? canvas region with
    | some error => assembler.fill region = .error error
    | none =>
        ∃ inside tile,
          assembler.fill region =
            .ok (assembler.grid.indexOf (image.tileOf region) inside, tile) ∧
          tile.Shows image.bucket image.channels (image.grid.frame (image.tileOf region))
            (canvas.paint region) := by
  have check_eq := Image.check_eq shows.grid_eq shows.bucket_eq shows.channels_eq region
  rw [unfinished, if_neg Bool.false_ne_true] at check_eq
  unfold Image.refusal?
  cases checked : image.fresh.check region with
  | error error =>
      unfold fill
      rw [check_eq, checked]
      rfl
  | ok _ =>
      rw [checked] at check_eq
      have admits := Image.check_fresh_eq_ok_iff.mp checked
      have inside : assembler.grid.Contains (image.tileOf region) := by
        rw [shows.grid_eq]
        exact admits.contains_tileOf
      have owner_eq : assembler.grid.tileForPixel region.bounds.left region.bounds.top =
          .ok (image.tileOf region) := by
        rw [shows.grid_eq]
        exact Grid.tileForPixel_eq_ok (Nat.lt_of_lt_of_le admits.left_lt admits.right_le)
          (Nat.lt_of_lt_of_le admits.top_lt admits.bottom_le)
      have frame_eq : assembler.grid.frame (image.tileOf region) =
          image.grid.frame (image.tileOf region) := by rw [shows.grid_eq]
      have lies := admits.liesIn
      rw [fill_of_checked check_eq, find_eq owner_eq inside, frame_eq, shows.bucket_eq]
      simp only [shows.completed_iff _ admits.contains_tileOf]
      by_cases completes : image.Completes canvas (image.tileOf region)
      · simp only [if_pos completes, Except.map]
      · have pending := shows.pending _ admits.contains_tileOf completes
        have firstFilled := pending.holds.firstFilled?_eq lies
        simp only [if_neg completes, ← firstFilled]
        unfold Image.columnOf at lies ⊢
        cases found : (assembler.pendingAt image.bucket
            (image.grid.frame (image.tileOf region))).firstFilled?
              (region.bounds.top - (image.grid.frame (image.tileOf region)).originY)
              region.bounds.height
              ((region.bounds.left - (image.grid.frame (image.tileOf region)).originX) /
                image.bucket.width) with
        | some filled => rfl
        | none =>
            have taken : image.refusal? canvas region = none := by
              unfold Image.columnOf at firstFilled
              rw [found] at firstFilled
              unfold Image.refusal?
              simp only [checked, if_neg completes, ← firstFilled]
              rfl
            obtain ⟨_, _, isBlank⟩ := shows.uniform.of_refusal?_eq_none taken
            exact ⟨inside, _, rfl, pending.putAll image.supported admits.channels_eq
              admits.wellFormed lies isBlank⟩

/-! ## What a region changes -/

theorem start_eq_ok
    (image : Image)
    (sink : State) :
    (start image.grid image.bucket.width image.bucket.height image.channels sink :
      Except Violation (Assembler State Summary)) = .ok (image.start sink) := by
  have bucket_eq : BucketSize.ofSides image.bucket.width image.bucket.height =
      .ok image.bucket := by
    unfold BucketSize.ofSides
    rw [dif_pos image.bucket.width_pos, dif_pos image.bucket.height_pos]
  unfold start
  rw [bucket_eq]
  simp only [bind, Except.bind]
  rw [dif_pos image.divides]
  rfl

/-- At its start an assembly shows the blank canvas. -/
theorem shows_start
    (image : Image)
    (sink : State) :
    (image.start sink : Assembler State Summary).Shows image Canvas.blank := by
  refine ⟨rfl, rfl, rfl, Canvas.sound_blank _, Image.uniform_blank image, ?_,
    TileSet.counted_empty, ?_, ?_⟩
  · intro position inside
    refine iff_of_false ?_ (Image.not_completes_blank inside)
    unfold Image.start
    rw [TileSet.has_empty]
    exact Bool.false_ne_true
  · intro position inside _
    unfold pendingAt Image.start
    rw [Grid.position_frame, TileMap.find?_constant none inside]
    exact PendingTile.shows_empty fun _ _ => rfl
  · intro finished
    cases finished

theorem Shows.withSink
    (shows : assembler.Shows image canvas)
    (sink : State) :
    { assembler with sink }.Shows image canvas :=
  { shows with }

theorem Shows.withSummary
    (shows : assembler.Shows image canvas)
    (complete : ∀ position, image.grid.Contains position -> image.Completes canvas position)
    (sink : State)
    (summary : Option Summary) :
    { assembler with sink, summary }.Shows image canvas :=
  { shows with finished := fun _ => complete }

theorem pendingAt_set
    {position : TilePosition}
    (inside : assembler.grid.Contains position)
    (value : Option PendingTile)
    (size : BucketSize)
    (placement : Placement) :
    { assembler with
      pending := assembler.pending.set (assembler.grid.indexOf position inside) value }.pendingAt
        size placement =
      if placement.position = position then value.getD (PendingTile.empty placement size)
      else assembler.pendingAt size placement := by
  unfold pendingAt
  rw [TileMap.find?_set assembler.pending inside]
  by_cases same : placement.position = position
  · rw [if_pos same, if_pos same, Option.getD_some]
  · rw [if_neg same, if_neg same]

/-- A region that is taken changes what an assembly shows of its own tile, which is
complete or waits for other regions, and of no other tile. -/
theorem Shows.paint
    (shows : assembler.Shows image canvas)
    (unfinished : assembler.isFinished = false)
    (admits : image.Admits region)
    (inside : assembler.grid.Contains (image.tileOf region))
    (value : Option PendingTile)
    {completed : TileSet assembler.grid}
    (counted : completed.Counted)
    (others : ∀ position, position ≠ image.tileOf region ->
      completed.has position = assembler.completed.has position)
    (own : completed.has (image.tileOf region) = true ↔
      image.Completes (canvas.paint region) (image.tileOf region))
    (ofIncomplete : ¬image.Completes (canvas.paint region) (image.tileOf region) ->
      ∃ tile, value = some tile ∧
        tile.Shows image.bucket image.channels (image.grid.frame (image.tileOf region))
          (canvas.paint region)) :
    { assembler with
      pending := assembler.pending.set (assembler.grid.indexOf _ inside) value
      completed }.Shows image (canvas.paint region) := by
  refine
    { grid_eq := shows.grid_eq
      bucket_eq := shows.bucket_eq
      channels_eq := shows.channels_eq
      sound := shows.sound.paint admits.wellFormed admits.channels_eq
      uniform := shows.uniform.paint admits
      completed_iff := ?_
      counted
      pending := ?_
      finished := ?_ }
  · intro position insideImage
    by_cases same : position = image.tileOf region
    · rw [same]
      exact own
    · rw [others position same, shows.completed_iff position insideImage]
      exact (admits.sameIn_paint same canvas).completes_iff.symm
  · intro position insideImage notComplete
    have pendingAt_eq := pendingAt_set inside value image.bucket (image.grid.frame position)
    rw [Grid.position_frame] at pendingAt_eq
    by_cases same : position = image.tileOf region
    · subst same
      obtain ⟨tile, rfl, tileShows⟩ := ofIncomplete notComplete
      rw [if_pos rfl] at pendingAt_eq
      change _ = tile at pendingAt_eq
      rw [← pendingAt_eq] at tileShows
      exact tileShows
    · have sameIn := admits.sameIn_paint same canvas
      have shown := (shows.pending position insideImage
        (mt sameIn.completes_iff.mpr notComplete)).congr sameIn
      rw [if_neg same] at pendingAt_eq
      rw [← pendingAt_eq] at shown
      exact shown
  · intro finished
    exact absurd (unfinished.symm.trans finished) Bool.false_ne_true

/-- What becomes of a region in an assembly that is not finished.  A region that
completes its tile hands to the sink what the canvas makes of the tile. -/
theorem Shows.submit_build
    (shows : assembler.Shows image canvas)
    (unfinished : assembler.isFinished = false)
    (sink : Sink State Summary)
    (region : Region) :
    match image.refusal? canvas region with
    | some error =>
        (assembler.submit sink region).value = .ok (.error (.region error), assembler)
    | none =>
        ∃ next : Assembler State Summary,
          next.Shows image (canvas.paint region) ∧
          next.sink = assembler.sink ∧
          next.isFinished = false ∧
          (assembler.submit sink region).value =
            if image.Completes (canvas.paint region) (image.tileOf region) then
              ((canvas.paint region).build image.channels
                (image.grid.frame (image.tileOf region))).map
                  fun assembled => (next.emit sink assembled).value
            else .ok (.ok (), next) := by
  have filled := shows.fill_eq unfinished region
  cases refused : image.refusal? canvas region with
  | some error =>
      rw [refused] at filled
      unfold submit
      simp only at filled ⊢
      rw [filled]
      rfl
  | none =>
      rw [refused] at filled
      obtain ⟨inside, tile, filled, tileShows⟩ := filled
      obtain ⟨admits, before, _⟩ := shows.uniform.of_refusal?_eq_none refused
      have isFull_iff : tile.isFull = true ↔
          image.Completes (canvas.paint region) (image.tileOf region) := tileShows.holds.isFull_iff
      unfold submit
      simp only [filled, take_eq]
      by_cases completes : image.Completes (canvas.paint region) (image.tileOf region)
      · have isFull : tile.isFull = true := isFull_iff.mpr completes
        have painted := shows.paint unfinished admits inside none (shows.counted.add inside)
          (fun _ different => TileSet.has_add_of_ne _ inside different)
          (iff_of_true (TileSet.has_add_self _ inside) completes)
          (fun notComplete => absurd completes notComplete)
        have assembled := tileShows.assemble_eq completes
        refine ⟨_, painted, rfl, unfinished, ?_⟩
        rw [if_pos isFull, if_pos completes, shows.channels_eq, assembled]
      · have notFull : ¬tile.isFull = true := fun isFull => completes (isFull_iff.mp isFull)
        have notCompleted := mt (shows.completed_iff _ admits.contains_tileOf).mp before
        have painted := shows.paint unfinished admits inside (some tile) shows.counted
          (fun _ _ => rfl) (iff_of_false notCompleted completes)
          (fun _ => ⟨tile, rfl, tileShows⟩)
        refine ⟨_, painted, rfl, unfinished, ?_⟩
        rw [if_neg notFull, if_neg completes]

/-- Where nodes can be counted, a region that completes its tile hands the tile of the
canvas to the sink. -/
theorem Shows.submit_eq
    (shows : assembler.Shows image canvas)
    (unfinished : assembler.isFinished = false)
    (sink : Sink State Summary)
    (region : Region)
    (countable : image.Countable (image.paintedFrom canvas [region])) :
    match image.refusal? canvas region with
    | some error =>
        (assembler.submit sink region).value = .ok (.error (.region error), assembler)
    | none =>
        ∃ next : Assembler State Summary,
          next.Shows image (canvas.paint region) ∧
          next.sink = assembler.sink ∧
          next.isFinished = false ∧
          (assembler.submit sink region).value =
            if image.Completes (canvas.paint region) (image.tileOf region) then
              .ok (next.emit sink ((canvas.paint region).assemble image.channels
                (image.grid.frame (image.tileOf region)))).value
            else .ok (.ok (), next) := by
  have submitted := shows.submit_build unfinished sink region
  cases refused : image.refusal? canvas region with
  | some error =>
      rw [refused] at submitted
      exact submitted
  | none =>
      rw [refused] at submitted
      rw [Image.paintedFrom_of_taken refused] at countable
      obtain ⟨next, showsNext, sink_eq, unfinishedNext, value_eq⟩ := submitted
      obtain ⟨admits, _, _⟩ := shows.uniform.of_refusal?_eq_none refused
      refine ⟨next, showsNext, sink_eq, unfinishedNext, ?_⟩
      rw [value_eq]
      by_cases completes : image.Completes (canvas.paint region) (image.tileOf region)
      · have built := showsNext.sound.build_eq_ok image.supported completes
          (countable _ admits.contains_tileOf completes)
        rw [if_pos completes, if_pos completes, built]
        rfl
      · rw [if_neg completes, if_neg completes]

end Assembler
end Assembly
end DeepShadow
