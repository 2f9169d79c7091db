import DeepShadow.Proofs.Assembly.Intake

/-!
# Arrivals

Which tiles are complete depends on the rectangles that have arrived, not on what
the regions carry for their pixels, and so it does for any number of channels.  An
assembly keeps the canvas of these rectangles: every tile that is not complete is
pending as far as it has arrived, and a complete tile is not pending any more.
-/

namespace DeepShadow

/-! ## Rectangles that have arrived -/

/-- The rectangle of a region, without what the region carries for it. -/
def Region.outline (region : Region) : Region := .unoccluded region.bounds 1

/-- Some regions have all pixels of a tile between them. -/
def Placement.CoveredBy (placement : Placement) (regions : List Region) : Prop :=
  ∀ x y, placement.contains x y = true -> ∃ region ∈ regions, region.bounds.Covers x y

namespace Canvas

variable {regions : List Region} {region : Region} {placement : Placement}

/-- The canvas of the rectangles of some regions. -/
def outlines (regions : List Region) : Canvas :=
  regions.foldl (fun canvas region => canvas.paint region.outline) blank

theorem outlines_concat :
    outlines (regions ++ [region]) = (outlines regions).paint region.outline := by
  unfold outlines
  rw [List.foldl_append]
  rfl

theorem has_outlines {x y : Nat} :
    (outlines regions).has x y = true ↔ ∃ region ∈ regions, region.bounds.Covers x y := by
  induction regions using List.reverseRecOn with
  | nil =>
      refine iff_of_false Bool.false_ne_true ?_
      rintro ⟨_, member, _⟩
      cases member
  | append_singleton regions region inductionHypothesis =>
      rw [outlines_concat, has_paint, Bool.or_eq_true, decide_eq_true_eq, inductionHypothesis]
      constructor
      · rintro (covers | ⟨other, member, covers⟩)
        · exact ⟨region, List.mem_append_right _ (List.mem_singleton_self _), covers⟩
        · exact ⟨other, List.mem_append_left _ member, covers⟩
      · rintro ⟨other, member, covers⟩
        rcases List.mem_append.mp member with earlier | last
        · exact Or.inr ⟨other, earlier, covers⟩
        · rw [List.mem_singleton.mp last] at covers
          exact Or.inl covers

theorem completes_outlines_iff :
    (outlines regions).Completes placement ↔ placement.CoveredBy regions := by
  constructor
  · intro completes x y contained
    exact has_outlines.mp (completes (x, y) (Placement.contains_iff_mem_pixels.mp contained))
  · rintro covered ⟨x, y⟩ member
    exact has_outlines.mpr (covered x y (Placement.contains_iff_mem_pixels.mpr member))

end Canvas

namespace Assembly
namespace Assembler

variable {State Summary : Type}

/-! ## Regions of any number of channels -/

/-- The image of an assembly, with one channel in place of its own. -/
def outline (assembler : Assembler State Summary) : Image :=
  { grid := assembler.grid
    bucket := assembler.bucket
    divides := assembler.divides
    channels := 1
    supported := supportedChannels_one }

/-- Whether some strips of a tile have arrived that wait for others. -/
def isPending (assembler : Assembler State Summary) (position : TilePosition) : Bool :=
  ((assembler.pending.find? position).getD none).isSome

variable {image : Image} {canvas : Canvas} {assembler : Assembler State Summary}
  {region : Region} {position other : TilePosition}

theorem isPending_set
    (inside : assembler.grid.Contains position)
    (value : Option PendingTile) :
    { assembler with
      pending := assembler.pending.set (assembler.grid.indexOf position inside) value }.isPending
        other =
      if other = position then value.isSome else assembler.isPending other := by
  unfold isPending
  rw [TileMap.find?_set assembler.pending inside]
  split <;> rfl

/-- Of a region that is not refused by the checks, the rectangle is one that the image
admits. -/
theorem Frames.admits (frames : assembler.Frames region) :
    assembler.outline.Admits region.outline := by
  obtain ⟨_, ⟨left_lt, top_lt⟩, ⟨right_le, bottom_le⟩, width_le, height_le,
    ⟨sameColumn, sameRow⟩, left_eq, right_eq⟩ := frames
  exact
    { channels_eq := rfl
      left_lt, top_lt, right_le, bottom_le, width_le, height_le, sameColumn, sameRow, left_eq,
      right_eq
      wellFormed := fun _ carried => by cases carried }

theorem of_check_eq_ok (checked : assembler.check region = .ok ()) :
    assembler.isFinished = false ∧ assembler.outline.Admits region.outline ∧
      region.WellFormed := by
  obtain ⟨unfinished, frames, wellFormed⟩ := Image.check_passes_iff.mp checked
  exact ⟨unfinished, frames.admits, wellFormed⟩

/-- A region that is put into its tile passes the checks, and has a place. -/
theorem of_fill_eq_ok
    {pair : Fin assembler.grid.tileCount × PendingTile}
    (filled : assembler.fill region = .ok pair) :
    assembler.isFinished = false ∧ assembler.outline.Admits region.outline ∧
      region.WellFormed ∧
      ∃ place, assembler.find region = .ok place ∧ pair = place.fill (Strip.ofRegion region) := by
  cases checked : assembler.check region with
  | error error =>
      unfold fill at filled
      rw [checked] at filled
      cases filled
  | ok _ =>
      obtain ⟨unfinished, admits, wellFormed⟩ := of_check_eq_ok checked
      rw [fill_of_checked checked] at filled
      cases found : assembler.find region with
      | error error =>
          rw [found] at filled
          cases filled
      | ok place =>
          rw [found] at filled
          cases filled
          exact ⟨unfinished, admits, wellFormed, place, rfl, rfl⟩

/-! ## The canvas of an assembly -/

/-- An assembly keeps which pixels have arrived on a canvas, as long as it is not
finished. -/
structure Keeps
    (image : Image)
    (canvas : Canvas)
    (assembler : Assembler State Summary) : Prop where
  outline_eq : assembler.outline = image
  uniform : image.Uniform canvas
  counted : assembler.completed.Counted
  pending : assembler.isFinished = false ->
    ∀ position, image.grid.Contains position -> assembler.completed.has position = false ->
      (assembler.pendingAt image.bucket (image.grid.frame position)).Holds image.bucket
        (image.grid.frame position) canvas ∧
      ¬image.Completes canvas position
  emptied : ∀ position, assembler.completed.has position = true ->
    assembler.isPending position = false

/-- Where nothing is pending, an assembly keeps the blank canvas. -/
theorem keeps_blank
    (outline_eq : assembler.outline = image)
    (nothing : assembler.pending = TileMap.constant assembler.grid none)
    (counted : assembler.completed.Counted) :
    assembler.Keeps image Canvas.blank := by
  subst outline_eq
  refine ⟨rfl, Image.uniform_blank _, counted, ?_, ?_⟩
  · intro _ position insideOutline _
    have inside : assembler.grid.Contains position := insideOutline
    have pendingAt_eq : assembler.pendingAt assembler.bucket (assembler.grid.frame position) =
        PendingTile.empty (assembler.grid.frame position) assembler.bucket := by
      unfold pendingAt
      rw [nothing, Grid.position_frame, TileMap.find?_constant none inside]
      rfl
    refine ⟨?_, Image.not_completes_blank insideOutline⟩
    show (assembler.pendingAt assembler.bucket (assembler.grid.frame position)).Holds _ _ _
    rw [pendingAt_eq]
    exact PendingTile.holds_empty fun _ _ => rfl
  · intro position _
    unfold isPending
    rw [nothing]
    by_cases inside : assembler.grid.Contains position
    · rw [TileMap.find?_constant none inside]
      rfl
    · rw [TileMap.find?_eq_none _ inside]
      rfl

/-- An assembly is started for its grid, with nothing that has arrived. -/
theorem of_start_eq_ok
    {grid : Grid}
    {bucketWidth bucketHeight channels : Nat}
    {sink : State}
    (started : start grid bucketWidth bucketHeight channels sink = .ok assembler) :
    assembler.grid = grid ∧ assembler.isFinished = false ∧
      (∀ position, assembler.completed.has position = false) ∧
      assembler.Keeps assembler.outline Canvas.blank := by
  unfold start at started
  cases sides : BucketSize.ofSides bucketWidth bucketHeight with
  | error violation =>
      rw [sides] at started
      cases started
  | ok bucket =>
      rw [sides] at started
      simp only [bind, Except.bind] at started
      split at started
      next divides =>
        cases started
        exact ⟨rfl, rfl, fun _ => TileSet.has_empty,
          keeps_blank rfl rfl TileSet.counted_empty⟩
      next => cases started

namespace Keeps

theorem withSink
    (keeps : assembler.Keeps image canvas)
    (sink : State) :
    { assembler with sink }.Keeps image canvas :=
  { keeps with }

theorem withSummary
    (keeps : assembler.Keeps image canvas)
    (unfinished : assembler.isFinished = false)
    (sink : State)
    (summary : Option Summary) :
    { assembler with sink, summary }.Keeps image canvas :=
  { keeps with pending := fun _ => keeps.pending unfinished }

/-- An assembly that is finished keeps nothing of its canvas. -/
theorem of_finished
    (keeps : assembler.Keeps image canvas)
    (finished : assembler.isFinished = true) :
    assembler.Keeps image Canvas.blank :=
  { keeps with
    uniform := Image.uniform_blank image
    pending := fun unfinished => absurd (unfinished.symm.trans finished) Bool.false_ne_true }

/-- Without its pending tiles an assembly keeps the blank canvas. -/
theorem discard (keeps : assembler.Keeps image canvas) :
    { assembler with pending := TileMap.constant _ none }.Keeps image Canvas.blank := by
  obtain ⟨rfl, _, counted, _, _⟩ := keeps
  exact keeps_blank rfl rfl counted

/-- A region for which a place is found fills blank pixels of a tile that is not complete,
whatever its strips carry. -/
theorem of_find
    (keeps : assembler.Keeps image canvas)
    (unfinished : assembler.isFinished = false)
    (admits : assembler.outline.Admits region.outline)
    {place : Place assembler.grid.tileCount}
    (found : assembler.find region = .ok place) :
    ∃ inside : assembler.grid.Contains (image.tileOf region.outline),
      place.index = assembler.grid.indexOf _ inside ∧
      assembler.completed.has (image.tileOf region.outline) = false ∧
      ∀ strips, Strip.Cover strips region.bounds ->
        (place.fill strips).2.Holds image.bucket (image.grid.frame (image.tileOf region.outline))
          (canvas.paint region.outline) := by
  obtain ⟨rfl, uniform, _, pending, _⟩ := keeps
  have inside : assembler.grid.Contains (assembler.outline.tileOf region.outline) :=
    admits.contains_tileOf
  have owner_eq : assembler.grid.tileForPixel region.bounds.left region.bounds.top =
      .ok (assembler.outline.tileOf region.outline) :=
    Grid.tileForPixel_eq_ok (Nat.lt_of_lt_of_le admits.left_lt admits.right_le)
      (Nat.lt_of_lt_of_le admits.top_lt admits.bottom_le)
  rw [find_eq owner_eq inside] at found
  split at found
  next => cases found
  next notCompleted =>
    rw [Bool.not_eq_true] at notCompleted
    obtain ⟨holds, incomplete⟩ := pending unfinished _ inside notCompleted
    have lies : region.LiesIn assembler.bucket
        (assembler.grid.frame (assembler.outline.tileOf region.outline))
        (assembler.outline.columnOf region.outline) := { admits.liesIn with }
    split at found
    next => cases found
    next noneFilled =>
      cases found
      have taken : assembler.outline.refusal? canvas region.outline = none := by
        have noRow : (List.range' region.bounds.top region.bounds.height).find?
            (fun y => canvas.has region.bounds.left y) = none := by
          rw [← holds.firstFilled?_eq lies]
          exact congrArg _ noneFilled
        unfold Image.refusal?
        rw [Image.check_fresh_eq_ok_iff.mpr admits]
        simp only [if_neg incomplete]
        exact congrArg (Option.map RegionError.rowFilled) noRow
      obtain ⟨_, _, isBlank⟩ := uniform.of_refusal?_eq_none taken
      refine ⟨inside, rfl, notCompleted, fun strips cover => ?_⟩
      refine (holds.putAll cover lies isBlank).congr ?_
      intro pixel _
      rw [Canvas.has_paint, Canvas.has_paint]
      rfl

/-- A region that is taken changes what an assembly keeps of its own tile, which is
complete or waits for other regions, and of no other tile. -/
theorem paint
    (keeps : assembler.Keeps image canvas)
    (unfinished : assembler.isFinished = false)
    (admits : image.Admits region.outline)
    (inside : assembler.grid.Contains (image.tileOf region.outline))
    (value : Option PendingTile)
    {completed : TileSet assembler.grid}
    (counted : completed.Counted)
    (others : ∀ position, position ≠ image.tileOf region.outline ->
      completed.has position = assembler.completed.has position)
    (ofComplete : completed.has (image.tileOf region.outline) = true -> value = none)
    (ofIncomplete : completed.has (image.tileOf region.outline) = false ->
      ∃ tile, value = some tile ∧
        tile.Holds image.bucket (image.grid.frame (image.tileOf region.outline))
          (canvas.paint region.outline) ∧
        ¬image.Completes (canvas.paint region.outline) (image.tileOf region.outline)) :
    { assembler with
      pending := assembler.pending.set (assembler.grid.indexOf _ inside) value
      completed }.Keeps image (canvas.paint region.outline) := by
  obtain ⟨rfl, uniform, _, pending, emptied⟩ := keeps
  refine ⟨rfl, uniform.paint admits, counted, ?_, ?_⟩
  · intro _ position insideOutline incomplete
    have pendingAt_eq := pendingAt_set inside value assembler.bucket (assembler.grid.frame position)
    rw [Grid.position_frame] at pendingAt_eq
    by_cases same : position = assembler.outline.tileOf region.outline
    · subst same
      obtain ⟨tile, rfl, holds, notComplete⟩ := ofIncomplete incomplete
      rw [if_pos rfl] at pendingAt_eq
      refine ⟨?_, notComplete⟩
      change _ = tile at pendingAt_eq
      rw [← pendingAt_eq] at holds
      exact holds
    · have sameIn := admits.sameIn_paint same canvas
      obtain ⟨holds, notComplete⟩ := pending unfinished position insideOutline
        ((others position same).symm.trans incomplete)
      rw [if_neg same] at pendingAt_eq
      refine ⟨?_, mt sameIn.completes_iff.mp notComplete⟩
      have holdsPainted := holds.congr fun pixel member =>
        congrArg Option.isSome (sameIn pixel member)
      change (assembler.pendingAt assembler.bucket (assembler.grid.frame position)).Holds _ _ _
        at holdsPainted
      rw [← pendingAt_eq] at holdsPainted
      exact holdsPainted
  · intro position complete
    refine (isPending_set inside value).trans ?_
    by_cases same : position = assembler.outline.tileOf region.outline
    · subst same
      rw [if_pos rfl, ofComplete complete]
      rfl
    · rw [if_neg same]
      exact emptied position ((others position same).symm.trans complete)

end Keeps

/-! ## What becomes of a region -/

/-- The tile that strips make has the place of the pending tile. -/
theorem position_of_assemble
    {tile : PendingTile}
    {channels : Nat}
    {assembled : AssembledTile}
    (made : tile.assemble channels = .ok assembled) :
    assembled.position = tile.placement.position := by
  unfold PendingTile.assemble at made
  split at made
  · cases made
    rfl
  · cases produced : tile.strips.mapM (Strip.values channels) with
    | error violation =>
        rw [produced] at made
        cases made
    | ok values =>
        simp only [produced, bind, Except.bind] at made
        split at made
        next stored parts =>
          cases made
          obtain ⟨_, rfl⟩ := Tile.ofParts_eq_ok_iff.mp parts
          rfl
        next => cases made

/-- What becomes of a region: it is refused, or it waits for other regions of its tile, or it
completes its tile, which then goes to the sink. -/
inductive Intake
    (sink : Sink State Summary)
    (image : Image)
    (canvas : Canvas)
    (assembler : Assembler State Summary)
    (region : Region) : Except Error Unit -> Assembler State Summary -> Prop
  | refused
      {error : RegionError}
      (finished : assembler.isFinished = true -> error = .finished) :
      Intake sink image canvas assembler region (.error (.region error)) assembler
  | waits
      {next : Assembler State Summary}
      (unfinished : assembler.isFinished = false)
      (admits : image.Admits region.outline)
      (incomplete : ¬image.Completes (canvas.paint region.outline)
        (image.tileOf region.outline))
      (keeps : next.Keeps image (canvas.paint region.outline))
      (completed_eq : next.completed.has = assembler.completed.has)
      (summary_eq : next.summary = assembler.summary)
      (sink_eq : next.sink = assembler.sink) :
      Intake sink image canvas assembler region (.ok ()) next
  | completes
      {result : Except Error Unit}
      {next full : Assembler State Summary}
      {tile : AssembledTile}
      (unfinished : assembler.isFinished = false)
      (admits : image.Admits region.outline)
      (notCompleted : assembler.completed.has (image.tileOf region.outline) = false)
      (complete : image.Completes (canvas.paint region.outline) (image.tileOf region.outline))
      (keeps : full.Keeps image (canvas.paint region.outline))
      (has_full : ∀ position, full.completed.has position =
        (decide (position = image.tileOf region.outline) || assembler.completed.has position))
      (summary_eq : full.summary = assembler.summary)
      (sink_eq : full.sink = assembler.sink)
      (position_eq : tile.position = image.tileOf region.outline)
      (emitted : (full.emit sink tile).value = (result, next)) :
      Intake sink image canvas assembler region result next

/-- A region whose strips have been put into their tile waits, or it completes the tile. -/
theorem Keeps.of_take
    (keeps : assembler.Keeps image canvas)
    {sink : Sink State Summary}
    {result : Except Error Unit}
    {next : Assembler State Summary}
    (unfinished : assembler.isFinished = false)
    (admits : assembler.outline.Admits region.outline)
    {place : Place assembler.grid.tileCount}
    (found : assembler.find region = .ok place)
    {strips : List Strip}
    (cover : Strip.Cover strips region.bounds)
    (taken : (assembler.take sink region.bounds (place.fill strips).1 (place.fill strips).2).value =
      .ok (result, next)) :
    Intake sink image canvas assembler region result next := by
  obtain ⟨inside, index_eq, incomplete, holdsAll⟩ := keeps.of_find unfinished admits found
  have holds := holdsAll strips cover
  have admitsImage : image.Admits region.outline := keeps.outline_eq ▸ admits
  generalize filled_eq : place.fill strips = filled at taken holds
  obtain ⟨index, tile⟩ := filled
  obtain rfl : index = assembler.grid.indexOf _ inside :=
    (congrArg Prod.fst filled_eq).symm.trans index_eq
  have isFull_iff : tile.isFull = true ↔
      image.Completes (canvas.paint region.outline) (image.tileOf region.outline) :=
    holds.isFull_iff
  rw [take_eq] at taken
  by_cases isFull : tile.isFull = true
  · rw [if_pos isFull] at taken
    cases made : tile.assemble assembler.channels with
    | error violation =>
        rw [made] at taken
        cases taken
    | ok assembled =>
        have keepsFull := keeps.paint unfinished admitsImage inside none
          (keeps.counted.add inside)
          (fun _ different => TileSet.has_add_of_ne _ inside different)
          (fun _ => rfl)
          (fun notAdded => by
            rw [TileSet.has_add_self] at notAdded
            cases notAdded)
        rw [made] at taken
        refine .completes unfinished admitsImage incomplete (isFull_iff.mp isFull) keepsFull
          (fun _ => TileSet.has_add _ inside) rfl rfl ?_ (Except.ok.inj taken)
        rw [position_of_assemble made, holds.placement_eq, Grid.position_frame]
  · rw [if_neg isFull] at taken
    cases taken
    have notComplete := mt isFull_iff.mpr isFull
    have keepsPending := keeps.paint unfinished admitsImage inside (some tile)
      keeps.counted (fun _ _ => rfl)
      (fun complete => absurd (incomplete.symm.trans complete) Bool.false_ne_true)
      (fun _ => ⟨tile, rfl, holds, notComplete⟩)
    exact .waits unfinished admitsImage notComplete keepsPending rfl rfl rfl

/-- What becomes of a region in an assembly. -/
theorem Keeps.of_submit
    (keeps : assembler.Keeps image canvas)
    {sink : Sink State Summary}
    {result : Except Error Unit}
    {next : Assembler State Summary}
    (submitted : (assembler.submit sink region).value = .ok (result, next)) :
    Intake sink image canvas assembler region result next := by
  unfold submit at submitted
  cases filled : assembler.fill region with
  | error error =>
      rw [filled] at submitted
      cases submitted
      refine .refused ?_
      intro finished
      rw [fill_of_finished finished] at filled
      cases filled
      rfl
  | ok pair =>
      rw [filled] at submitted
      obtain ⟨unfinished, admits, wellFormed, place, found, rfl⟩ := of_fill_eq_ok filled
      exact keeps.of_take unfinished admits found (Strip.cover_ofRegion wellFormed) submitted

/-- A region that an image admits leaves the tiles that do not own it as complete as
they are. -/
theorem completes_paint_iff
    (admits : image.Admits region.outline)
    (different : position ≠ image.tileOf region.outline) :
    image.Completes (canvas.paint region.outline) position ↔ image.Completes canvas position :=
  (admits.sameIn_paint different canvas).completes_iff

end Assembler
end Assembly
end DeepShadow
