import DeepShadow.Proofs.Assembly.Intake

/-!
# The tiles that reach the sink

A sink is offered a tile by the call that supplies the last pixel of the tile.
What it is offered is a function of what the regions carry for the pixels of the
tile: neither the order of the regions, nor the way in which the rows of a bucket
are divided among them, nor the form in which they carry the node of a pixel that
nothing occludes can be seen in it.  Regions that are refused leave no trace, and
a sink that fails changes nothing for the tiles that follow.
-/

namespace DeepShadow
namespace Assembly

/-! ## Histories of an assembly -/

/-- The sink that also keeps the tiles it was offered, in their order. -/
def Sink.logged {State Summary : Type} (sink : Sink State Summary) :
    Sink (State × List AssembledTile) Summary where
  accept
    | (state, offered), tile => do
        let (result, state) ← sink.accept state tile
        return (result, state, offered ++ [tile])
  finish
    | (state, offered) => do
        let (result, state) ← sink.finish state
        return (result, state, offered)

/-- Whether a step failed because its region was refused. -/
def isRefusal : Except Error Unit -> Bool
  | .error (.region _) => true
  | _ => false

/-- The regions that were not refused. -/
def accepted (outcomes : List (Region × Except Error Unit)) : List Region :=
  (outcomes.filter fun outcome => !isRefusal outcome.2).map Prod.fst

/-- Hands several regions to an assembly, one after the other, whatever it
answers. -/
def Assembler.submitAll
    {State Summary : Type}
    (sink : Sink State Summary)
    (assembler : Assembler State Summary) :
    List Region ->
      Traced (Except Violation (List (Except Error Unit) × Assembler State Summary))
  | [] => return .ok ([], assembler)
  | region :: regions => do
      match ← assembler.submit sink region with
      | .error violation => return .error violation
      | .ok (result, assembler) =>
          match ← assembler.submitAll sink regions with
          | .error violation => return .error violation
          | .ok (results, assembler) => return .ok (result :: results, assembler)

namespace Image

/-- The tile of a position, as the canvas has it. -/
def assembled (image : Image) (canvas : Canvas) (position : TilePosition) : AssembledTile :=
  canvas.assemble image.channels (image.grid.frame position)

@[simp] theorem position_assembled
    (image : Image)
    (canvas : Canvas)
    (position : TilePosition) :
    (image.assembled canvas position).position = position := Canvas.position_assemble

/-- The tiles that a region completes. -/
def completedBy (image : Image) (canvas : Canvas) (region : Region) : List AssembledTile :=
  match image.refusal? canvas region with
  | some _ => []
  | none =>
      if image.Completes (canvas.paint region) (image.tileOf region) then
        [image.assembled (canvas.paint region) (image.tileOf region)]
      else []

/-- The tiles that the regions of a sequence complete. -/
def completedFrom (image : Image) (canvas : Canvas) : List Region -> List AssembledTile
  | [] => []
  | region :: regions =>
      image.completedBy canvas region ++
        image.completedFrom (image.paintedFrom canvas [region]) regions

variable {image : Image} {canvas later : Canvas} {region : Region}

theorem completedFrom_append
    (image : Image)
    (canvas : Canvas)
    (first second : List Region) :
    image.completedFrom canvas (first ++ second) =
      image.completedFrom canvas first ++
        image.completedFrom (image.paintedFrom canvas first) second := by
  induction first generalizing canvas with
  | nil => rfl
  | cons region first inductionHypothesis =>
      rw [List.cons_append, completedFrom, completedFrom, inductionHypothesis,
        paintedFrom_cons image canvas region first, List.append_assoc]

/-- What a region completes are the tiles that are complete after it and were not
before. -/
theorem Uniform.mem_completedBy
    (uniform : image.Uniform canvas)
    (region : Region)
    (tile : AssembledTile) :
    tile ∈ image.completedBy canvas region ↔
      ∃ position, image.grid.Contains position ∧
        image.Completes (image.paintedFrom canvas [region]) position ∧
        ¬image.Completes canvas position ∧
        tile = image.assembled (image.paintedFrom canvas [region]) position := by
  unfold completedBy
  cases refused : image.refusal? canvas region with
  | some error =>
      rw [paintedFrom_of_refused refused]
      refine iff_of_false List.not_mem_nil ?_
      rintro ⟨position, _, now, before, _⟩
      exact before now
  | none =>
      rw [paintedFrom_of_taken refused]
      obtain ⟨admits, before, _⟩ := uniform.of_refusal?_eq_none refused
      simp only
      constructor
      · intro member
        split at member
        next now =>
          exact ⟨_, admits.contains_tileOf, now, before, List.mem_singleton.mp member⟩
        next =>
          cases member
      · rintro ⟨position, _, now, notBefore, rfl⟩
        by_cases same : position = image.tileOf region
        · rw [same] at now ⊢
          rw [if_pos now]
          exact List.mem_singleton_self _
        · exact absurd ((admits.sameIn_paint same canvas).completes_iff.mp now) notBefore

theorem length_completedBy_le
    (image : Image)
    (canvas : Canvas)
    (region : Region) :
    (image.completedBy canvas region).length ≤ 1 := by
  unfold completedBy
  split
  · exact Nat.zero_le 1
  · split
    · exact Nat.le_refl 1
    · exact Nat.zero_le 1

/-- Whatever was completed is still what the canvas has. -/
theorem Uniform.of_mem_completedFrom
    (uniform : image.Uniform canvas)
    {regions : List Region}
    {tile : AssembledTile}
    (member : tile ∈ image.completedFrom canvas regions) :
    ∃ position, image.grid.Contains position ∧
      image.Completes (image.paintedFrom canvas regions) position ∧
      tile = image.assembled (image.paintedFrom canvas regions) position := by
  induction regions generalizing canvas with
  | nil => cases member
  | cons region regions inductionHypothesis =>
      rw [paintedFrom_cons]
      rw [completedFrom] at member
      have uniformNext := uniform.paint_all [region]
      rcases List.mem_append.mp member with first | rest
      · obtain ⟨position, inside, now, _, rfl⟩ := (uniform.mem_completedBy region tile).mp first
        have extend := uniformNext.extends_paintedFrom regions
        exact ⟨position, inside, extend.completes now, (extend.assemble_eq now).symm⟩
      · exact inductionHypothesis uniformNext rest

end Image

/-! ## Calls -/

namespace Assembler

variable {State Summary : Type} {image : Image} {canvas : Canvas}

/-- A tile is added to the log, whatever the sink makes of it. -/
theorem Shows.emit_logged
    {assembler : Assembler (State × List AssembledTile) Summary}
    (shows : assembler.Shows image canvas)
    (sink : Sink State Summary)
    (tile : AssembledTile) :
    ∃ result last, (assembler.emit sink.logged tile).value = (result, last) ∧
      isRefusal result = false ∧
      last.Shows image canvas ∧
      last.sink.2 = assembler.sink.2 ++ [tile] := by
  have accept_eq : (sink.logged.accept assembler.sink tile).value =
      ((sink.accept assembler.sink.1 tile).value.1, (sink.accept assembler.sink.1 tile).value.2,
        assembler.sink.2 ++ [tile]) := rfl
  unfold emit
  rw [Traced.value_bind, accept_eq]
  cases (sink.accept assembler.sink.1 tile).value.1 with
  | error error => exact ⟨_, _, rfl, rfl, shows.withSink _, rfl⟩
  | ok _ =>
      by_cases isFull : assembler.completed.isFull = true
      · have complete := shows.isFull_iff.mp isFull
        simp only [isFull, if_true]
        unfold finishSink
        rw [Traced.value_bind]
        have finish_eq : ∀ state offered, (sink.logged.finish (state, offered)).value =
            ((sink.finish state).value.1, (sink.finish state).value.2, offered) :=
          fun _ _ => rfl
        rw [finish_eq]
        cases (sink.finish (sink.accept assembler.sink.1 tile).value.2).value.1 with
        | error error => exact ⟨_, _, rfl, rfl, shows.withSink _, rfl⟩
        | ok summary => exact ⟨_, _, rfl, rfl, shows.withSummary complete _ _, rfl⟩
      · simp only [isFull]
        exact ⟨_, _, rfl, rfl, shows.withSink _, rfl⟩

/-- An assembly takes no region after it is finished. -/
theorem Shows.unfinished_of_taken
    {assembler : Assembler State Summary}
    (shows : assembler.Shows image canvas)
    {region : Region}
    (taken : image.refusal? canvas region = none) :
    assembler.isFinished = false := by
  obtain ⟨admits, before, _⟩ := shows.uniform.of_refusal?_eq_none taken
  rw [← Bool.not_eq_true]
  exact fun finished => before (shows.finished finished _ admits.contains_tileOf)

/-- Where nodes can be counted, a call has an answer. -/
theorem Shows.exists_submit
    {assembler : Assembler State Summary}
    (shows : assembler.Shows image canvas)
    (sink : Sink State Summary)
    (region : Region)
    (countable : image.Countable (image.paintedFrom canvas [region])) :
    ∃ result last, (assembler.submit sink region).value = .ok (result, last) := by
  cases finished : assembler.isFinished with
  | true => exact ⟨_, _, submit_of_finished finished sink region⟩
  | false =>
      have submit_eq := shows.submit_eq finished sink region countable
      cases refused : image.refusal? canvas region with
      | some error =>
          rw [refused] at submit_eq
          exact ⟨_, _, submit_eq⟩
      | none =>
          rw [refused] at submit_eq
          obtain ⟨next, _, _, _, value_eq⟩ := submit_eq
          rw [value_eq]
          split
          · exact ⟨_, _, rfl⟩
          · exact ⟨_, _, rfl⟩

/-- A call that has an answer refuses its region, or paints it; the log grows by the
tile that the region completes. -/
theorem Shows.submit_logged
    {assembler last : Assembler (State × List AssembledTile) Summary}
    (shows : assembler.Shows image canvas)
    {sink : Sink State Summary}
    {region : Region}
    {result : Except Error Unit}
    (submitted : (assembler.submit sink.logged region).value = .ok (result, last)) :
    isRefusal result = (image.refusal? canvas region).isSome ∧
      last.Shows image (image.paintedFrom canvas [region]) ∧
      last.sink.2 = assembler.sink.2 ++ image.completedBy canvas region := by
  unfold Image.completedBy
  cases refused : image.refusal? canvas region with
  | some error =>
      rw [Image.paintedFrom_of_refused refused]
      simp only [List.append_nil]
      cases finished : assembler.isFinished with
      | true =>
          rw [submit_of_finished finished] at submitted
          cases submitted
          exact ⟨rfl, shows, rfl⟩
      | false =>
          have submit_eq := shows.submit_build finished sink.logged region
          rw [refused] at submit_eq
          rw [submit_eq] at submitted
          cases submitted
          exact ⟨rfl, shows, rfl⟩
  | none =>
      rw [Image.paintedFrom_of_taken refused]
      have submit_eq := shows.submit_build (shows.unfinished_of_taken refused) sink.logged region
      rw [refused] at submit_eq
      obtain ⟨next, showsNext, sink_eq, _, value_eq⟩ := submit_eq
      rw [value_eq] at submitted
      by_cases completes : image.Completes (canvas.paint region) (image.tileOf region)
      · rw [if_pos completes] at submitted
        cases built : (canvas.paint region).build image.channels
            (image.grid.frame (image.tileOf region)) with
        | error violation =>
            rw [built] at submitted
            cases submitted
        | ok tile =>
            rw [built, Canvas.eq_assemble_of_build built] at submitted
            obtain ⟨_, _, emitted, notRefused, showsLast, log_eq⟩ :=
              showsNext.emit_logged sink
                (image.assembled (canvas.paint region) (image.tileOf region))
            rw [sink_eq] at log_eq
            simp only [if_pos completes]
            have last_eq := emitted.symm.trans (Except.ok.inj submitted)
            cases last_eq
            exact ⟨notRefused, showsLast, log_eq⟩
      · rw [if_neg completes] at submitted
        cases submitted
        simp only [if_neg completes]
        exact ⟨rfl, showsNext, by rw [sink_eq, List.append_nil]⟩

/-- The calls of a sequence, where each of them has an answer. -/
theorem submitAll_cons_eq_ok
    {assembler last : Assembler State Summary}
    {sink : Sink State Summary}
    {region : Region}
    {regions : List Region}
    {results : List (Except Error Unit)} :
    (assembler.submitAll sink (region :: regions)).value = .ok (results, last) ↔
      ∃ result next rest, (assembler.submit sink region).value = .ok (result, next) ∧
        (next.submitAll sink regions).value = .ok (rest, last) ∧ results = result :: rest := by
  rw [submitAll, Traced.value_bind]
  cases (assembler.submit sink region).value with
  | error violation =>
      refine iff_of_false (fun answered => by cases answered) ?_
      rintro ⟨_, _, _, answered, _⟩
      cases answered
  | ok answer =>
      obtain ⟨result, next⟩ := answer
      simp only [Traced.value_bind]
      cases submittedRest : (next.submitAll sink regions).value with
      | error violation =>
          refine iff_of_false (fun answered => by cases answered) ?_
          rintro ⟨_, _, _, answered, answeredRest, _⟩
          cases answered
          rw [submittedRest] at answeredRest
          cases answeredRest
      | ok answer =>
          obtain ⟨rest, final⟩ := answer
          constructor
          · intro answered
            cases answered
            exact ⟨result, next, rest, rfl, submittedRest, rfl⟩
          · rintro ⟨_, _, _, answered, answeredRest, rfl⟩
            cases answered
            rw [submittedRest] at answeredRest
            cases answeredRest
            rfl

/-- Where nodes can be counted, all calls of a sequence have answers. -/
theorem Shows.exists_submitAll
    {assembler : Assembler (State × List AssembledTile) Summary}
    (shows : assembler.Shows image canvas)
    (sink : Sink State Summary)
    (regions : List Region)
    (countable : image.Countable (image.paintedFrom canvas regions)) :
    ∃ results last, (assembler.submitAll sink.logged regions).value = .ok (results, last) := by
  induction regions generalizing assembler canvas with
  | nil => exact ⟨[], assembler, rfl⟩
  | cons region regions inductionHypothesis =>
      rw [Image.paintedFrom_cons] at countable
      have extend := (shows.uniform.paint_all [region]).extends_paintedFrom regions
      obtain ⟨result, next, submitted⟩ :=
        shows.exists_submit sink.logged region (countable.of_extends extend)
      obtain ⟨_, showsNext, _⟩ := shows.submit_logged submitted
      obtain ⟨results, last, submittedRest⟩ := inductionHypothesis showsNext countable
      exact ⟨_, last, submitAll_cons_eq_ok.mpr
        ⟨result, next, results, submitted, submittedRest, rfl⟩⟩

/-- The calls of a sequence paint the regions that are taken; the log grows by the
tiles that they complete. -/
theorem Shows.submitAll_logged
    {assembler last : Assembler (State × List AssembledTile) Summary}
    (shows : assembler.Shows image canvas)
    {sink : Sink State Summary}
    {regions : List Region}
    {results : List (Except Error Unit)}
    (submitted : (assembler.submitAll sink.logged regions).value = .ok (results, last)) :
    results.length = regions.length ∧
      accepted (regions.zip results) = image.takenFrom canvas regions ∧
      last.sink.2 = assembler.sink.2 ++ image.completedFrom canvas regions := by
  induction regions generalizing assembler canvas results with
  | nil =>
      cases submitted
      exact ⟨rfl, rfl, (List.append_nil _).symm⟩
  | cons region regions inductionHypothesis =>
      obtain ⟨result, next, rest, submittedFirst, submittedRest, rfl⟩ :=
        submitAll_cons_eq_ok.mp submitted
      obtain ⟨refused_eq, showsNext, logNext⟩ := shows.submit_logged submittedFirst
      obtain ⟨sameLength, accepted_eq, logLast⟩ := inductionHypothesis showsNext submittedRest
      refine ⟨?_, ?_, ?_⟩
      · rw [List.length_cons, List.length_cons, sameLength]
      · have isNone_eq : (image.refusal? canvas region).isNone = !isRefusal result := by
          rw [refused_eq, Option.not_isSome]
        rw [Image.takenFrom_cons, ← accepted_eq, isNone_eq, List.zip_cons_cons]
        unfold accepted
        rw [List.filter_cons]
        cases isRefusal result with
        | true => rfl
        | false => rfl
      · rw [logLast, logNext, Image.completedFrom, List.append_assoc]

end Assembler

/-! ## What the sink is offered -/

namespace Image

variable {State Summary : Type} {image : Image} {canvas : Canvas}

/-- A new assembly that is handed some regions takes some of them, and offers some
tiles to its sink. -/
def Offers
    (image : Image)
    (sink : Sink State Summary)
    (state : State)
    (regions taken : List Region)
    (offered : List AssembledTile) : Prop :=
  ∃ assembler results last,
    Assembler.start image.grid image.bucket.width image.bucket.height image.channels (state, []) =
      .ok assembler ∧
    (assembler.submitAll sink.logged regions).value = .ok (results, last) ∧
    results.length = regions.length ∧
    accepted (regions.zip results) = taken ∧
    last.sink.2 = offered

/-- Some regions have all pixels of a tile between them. -/
def Covered (image : Image) (regions : List Region) (position : TilePosition) : Prop :=
  ∀ x y, (image.grid.frame position).contains x y = true ->
    ∃ region ∈ regions, region.bounds.Covers x y

/-- A tile has what some regions carry for its pixels.  It is only told to be
neglectable where they carry one node for each pixel. -/
def Carries (image : Image) (regions : List Region) (tile : AssembledTile) : Prop :=
  ∃ placement, image.grid.placement tile.position = .ok placement ∧
    match tile with
    | .neglectable _ =>
        ∀ region ∈ regions, ∀ x y, placement.contains x y = true -> region.bounds.Covers x y ->
          region.lengthAt x y = 1
    | .stored data =>
        (∃ region ∈ regions, ∃ x y, placement.contains x y = true ∧ region.bounds.Covers x y ∧
          region.lengthAt x y ≠ 1) ∧
        data.placement = placement ∧
        data.channels = image.channels ∧
        ∀ region ∈ regions, ∀ x y, placement.contains x y = true -> region.bounds.Covers x y ->
          data.curveAtPixel x y = .ok (some ⟨image.channels, (region.runAt x y).toArray⟩)

/-- Wherever regions of two sequences cover the same pixel of a tile, they carry the
same nodes for it. -/
def AgreeIn (image : Image) (position : TilePosition) (first second : List Region) : Prop :=
  ∀ one ∈ first, ∀ other ∈ second, ∀ x y, (image.grid.frame position).contains x y = true ->
    one.bounds.Covers x y -> other.bounds.Covers x y -> one.runAt x y = other.runAt x y

/-- What is taken and what is offered is known from the regions alone. -/
theorem Offers.eq_taken
    {sink : Sink State Summary}
    {state : State}
    {regions taken : List Region}
    {offered : List AssembledTile}
    (offers : image.Offers sink state regions taken offered) :
    taken = image.taken regions ∧ offered = image.completedFrom Canvas.blank regions := by
  obtain ⟨assembler, results, last, started, submitted, _, rfl, rfl⟩ := offers
  rw [Assembler.start_eq_ok image (state, [])] at started
  cases started
  obtain ⟨_, accepted_eq, log_eq⟩ :=
    (Assembler.shows_start image (state, [])).submitAll_logged submitted
  exact ⟨accepted_eq, log_eq⟩

/-- A sequence of regions has one outcome. -/
theorem Offers.unique
    {sink : Sink State Summary}
    {state : State}
    {regions taken takenAgain : List Region}
    {offered offeredAgain : List AssembledTile}
    (first : image.Offers sink state regions taken offered)
    (second : image.Offers sink state regions takenAgain offeredAgain) :
    takenAgain = taken ∧ offeredAgain = offered := by
  obtain ⟨rfl, rfl⟩ := first.eq_taken
  exact second.eq_taken

theorem offers_taken
    (image : Image)
    (sink : Sink State Summary)
    (state : State)
    (regions : List Region)
    (countable : image.Countable (image.painted regions)) :
    image.Offers sink state regions (image.taken regions)
      (image.completedFrom Canvas.blank regions) := by
  have shows : (image.start (state, []) :
      Assembler (State × List AssembledTile) Summary).Shows image Canvas.blank :=
    Assembler.shows_start image (state, [])
  obtain ⟨results, last, submitted⟩ := shows.exists_submitAll sink regions countable
  obtain ⟨sameLength, accepted_eq, log_eq⟩ := shows.submitAll_logged submitted
  exact ⟨_, results, last, Assembler.start_eq_ok image (state, []), submitted, sameLength,
    accepted_eq, log_eq⟩

theorem covered_iff
    {regions : List Region}
    (pictures : canvas.Pictures regions)
    (position : TilePosition) :
    image.Covered regions position ↔ image.Completes canvas position := by
  constructor
  · rintro covered ⟨x, y⟩ member
    exact (pictures.has_iff x y).mpr
      (covered x y (Placement.contains_iff_mem_pixels.mpr member))
  · intro completes x y contained
    exact (pictures.has_iff x y).mp
      (completes (x, y) (Placement.contains_iff_mem_pixels.mp contained))

section Painted

variable {regions : List Region} (pictures : canvas.Pictures regions)
  (admitted : ∀ region ∈ regions, image.Admits region)

include pictures admitted

/-- Regions that an image admits paint runs. -/
theorem sound_of_pictures : canvas.Sound image.channels := by
  intro x y run arrived
  obtain ⟨region, member, covers⟩ := pictures.exists_region x y
    (by unfold Canvas.has; rw [arrived]; rfl)
  rw [pictures.runAt_eq region member x y covers] at arrived
  cases arrived
  rw [← (admitted region member).channels_eq]
  exact (admitted region member).wellFormed.isRun_runAt covers

/-- The number of nodes of a pixel is the one that the region tells which covers
it. -/
theorem nodeCount_eq_lengthAt
    {x y : Nat}
    (member : region ∈ regions)
    (covers : region.bounds.Covers x y) :
    ((canvas x y).getD []).length / (image.channels + 1) = region.lengthAt x y := by
  rw [pictures.runAt_eq region member x y covers, Option.getD_some,
    ← (admitted region member).channels_eq]
  exact (admitted region member).wellFormed.length_runAt covers

/-- A complete tile has one node for each pixel where the regions tell so. -/
theorem forall_nodeCounts_iff
    {position : TilePosition}
    (completes : image.Completes canvas position) :
    (∀ count ∈ nodeCounts image.channels (canvas.runs (image.grid.frame position)), count = 1) ↔
      ∀ region ∈ regions, ∀ x y, (image.grid.frame position).contains x y = true ->
        region.bounds.Covers x y -> region.lengthAt x y = 1 := by
  have single_iff : (∀ count ∈ nodeCounts image.channels (canvas.runs (image.grid.frame position)),
      count = 1) ↔ ∀ pixel ∈ (image.grid.frame position).pixels,
        ((canvas pixel.1 pixel.2).getD []).length / (image.channels + 1) = 1 :=
    Canvas.forall_nodeCounts_runs _
  rw [single_iff]
  constructor
  · intro single region member x y contained covers
    rw [← nodeCount_eq_lengthAt pictures admitted member covers]
    exact single (x, y) (Placement.contains_iff_mem_pixels.mp contained)
  · rintro single ⟨x, y⟩ pixel
    obtain ⟨region, member, covers⟩ := (pictures.has_iff x y).mp (completes (x, y) pixel)
    rw [nodeCount_eq_lengthAt pictures admitted member covers]
    exact single region member x y (Placement.contains_iff_mem_pixels.mpr pixel) covers

end Painted

/-- The tile of a canvas has what the regions carry that are painted there. -/
theorem carries_assembled
    {regions : List Region}
    (pictures : canvas.Pictures regions)
    (admitted : ∀ region ∈ regions, image.Admits region)
    (countable : image.Countable canvas)
    {position : TilePosition}
    (inside : image.grid.Contains position)
    (completes : image.Completes canvas position) :
    image.Carries regions (image.assembled canvas position) := by
  have sound := sound_of_pictures pictures admitted
  have single_iff := forall_nodeCounts_iff pictures admitted completes
  refine ⟨image.grid.frame position, ?_, ?_⟩
  · rw [position_assembled]
    exact Grid.placement_eq_ok inside
  by_cases single : ∀ count ∈ nodeCounts image.channels
      (canvas.runs (image.grid.frame position)), count = 1
  · have tile_eq : image.assembled canvas position = .neglectable position := if_pos single
    rw [tile_eq]
    exact single_iff.mp single
  · have tile_eq : image.assembled canvas position = .stored (Tile.ofRuns
        (image.grid.frame position) image.channels (canvas.runs (image.grid.frame position))) :=
      if_neg single
    rw [tile_eq]
    rw [single_iff] at single
    push Not at single
    obtain ⟨region, member, x, y, contained, covers, notOne⟩ := single
    refine ⟨⟨region, member, x, y, contained, covers, notOne⟩, rfl, rfl, ?_⟩
    intro region member x y contained covers
    exact sound.curveAtPixel_ofRuns image.supported completes
      (countable position inside completes) (Placement.contains_iff_mem_pixels.mp contained)
      (pictures.runAt_eq region member x y covers)

/-- Two canvases have the same tile where the regions painted on them carry the
same. -/
theorem assembled_eq
    {other : Canvas}
    {regions otherRegions : List Region}
    (pictures : canvas.Pictures regions)
    (otherPictures : other.Pictures otherRegions)
    {position : TilePosition}
    (completes : image.Completes canvas position)
    (otherCompletes : image.Completes other position)
    (agree : image.AgreeIn position regions otherRegions) :
    image.assembled other position = image.assembled canvas position := by
  have runs_eq : other.runs (image.grid.frame position) =
      canvas.runs (image.grid.frame position) := by
    unfold Canvas.runs
    apply List.map_congr_left
    rintro ⟨x, y⟩ pixel
    obtain ⟨one, member, covers⟩ := (pictures.has_iff x y).mp (completes _ pixel)
    obtain ⟨another, otherMember, otherCovers⟩ :=
      (otherPictures.has_iff x y).mp (otherCompletes _ pixel)
    rw [pictures.runAt_eq one member x y covers,
      otherPictures.runAt_eq another otherMember x y otherCovers,
      agree one member another otherMember x y (Placement.contains_iff_mem_pixels.mpr pixel)
        covers otherCovers]
  unfold assembled Canvas.assemble
  rw [runs_eq]

/-- What a call hands to the sink.  After any calls, of which some may have been
refused, and whatever the sink makes of the tiles, a further call hands over the
tile of which it supplies the last pixels, and no other.  The tile is neglectable
when all its pixels have one node; otherwise it has the frame of its place in the
grid, and for each pixel the nodes that the accepted region carries there.  Two
sequences that carry the same for the pixels of a tile, in whatever order and in
whatever regions, offer the same tile.

No bound on the sides of buckets is assumed.  A program that adds words also refuses the
regions of a bucket that ends behind the greatest word, or stops at them: fewer regions are
taken then, and what is said of those that are taken stays true. -/
theorem handed_over
    (image : Image)
    (sink : Sink State Summary)
    (state : State)
    (before : List Region)
    (region : Region)
    (countable : image.Countable (image.painted (before ++ [region]))) :
    ∃ acceptedBefore acceptedNow offered handed,
      image.Offers sink state before acceptedBefore offered ∧
      image.Offers sink state (before ++ [region]) acceptedNow (offered ++ handed) ∧
      acceptedNow.Pairwise (fun first second =>
        ∀ x y, first.bounds.Covers x y -> ¬second.bounds.Covers x y) ∧
      handed.length ≤ 1 ∧
      (∀ position, (∃ tile ∈ handed, tile.position = position) ↔
        image.grid.Contains position ∧ image.Covered acceptedNow position ∧
          ¬image.Covered acceptedBefore position) ∧
      ∀ tile ∈ handed,
        image.Carries acceptedNow tile ∧
        ∀ {OtherState OtherSummary : Type} (other : Sink OtherState OtherSummary)
          (otherState : OtherState) (regions acceptedThere : List Region)
          (offeredThere : List AssembledTile),
          image.Countable (image.painted regions) ->
          image.Offers other otherState regions acceptedThere offeredThere ->
          image.AgreeIn tile.position acceptedNow acceptedThere ->
          ∀ tileThere ∈ offeredThere, tileThere.position = tile.position -> tileThere = tile := by
  have uniformBefore : image.Uniform (image.painted before) :=
    (uniform_blank image).paint_all before
  have painted_eq : image.painted (before ++ [region]) =
      image.paintedFrom (image.painted before) [region] := image.paintedFrom_append _ _ _
  have completed_eq : image.completedFrom Canvas.blank (before ++ [region]) =
      image.completedFrom Canvas.blank before ++
        image.completedBy (image.painted before) region := by
    rw [completedFrom_append, completedFrom, completedFrom, List.append_nil]
    rfl
  have countableBefore : image.Countable (image.painted before) := by
    rw [painted_eq] at countable
    exact countable.of_extends (uniformBefore.extends_paintedFrom [region])
  obtain ⟨picturesBefore, _⟩ := image.pictures_painted before
  obtain ⟨pictures, admitted⟩ := image.pictures_painted (before ++ [region])
  have offersNow := image.offers_taken sink state (before ++ [region]) countable
  rw [completed_eq] at offersNow
  refine ⟨image.taken before, image.taken (before ++ [region]),
    image.completedFrom Canvas.blank before, image.completedBy (image.painted before) region,
    image.offers_taken sink state before countableBefore, offersNow, pictures.disjoint,
    image.length_completedBy_le _ region, ?_, ?_⟩
  · intro position
    rw [covered_iff pictures, covered_iff picturesBefore, painted_eq]
    constructor
    · rintro ⟨tile, member, rfl⟩
      obtain ⟨position, inside, now, notBefore, rfl⟩ :=
        (uniformBefore.mem_completedBy region tile).mp member
      rw [position_assembled]
      exact ⟨inside, now, notBefore⟩
    · rintro ⟨inside, now, notBefore⟩
      exact ⟨_, (uniformBefore.mem_completedBy region _).mpr
        ⟨position, inside, now, notBefore, rfl⟩, position_assembled _ _ _⟩
  · intro tile member
    obtain ⟨position, inside, now, _, rfl⟩ :=
      (uniformBefore.mem_completedBy region tile).mp member
    rw [position_assembled]
    rw [← painted_eq] at now ⊢
    refine ⟨carries_assembled pictures admitted countable inside now, ?_⟩
    intro OtherState OtherSummary other otherState regions acceptedThere offeredThere
      countableThere offersThere agree tileThere memberThere same
    obtain ⟨rfl, rfl⟩ :=
      (image.offers_taken other otherState regions countableThere).unique offersThere
    obtain ⟨positionThere, insideThere, completesThere, rfl⟩ :=
      (uniform_blank image).of_mem_completedFrom memberThere
    rw [position_assembled] at same
    rw [same] at completesThere ⊢
    exact assembled_eq pictures (image.pictures_painted regions).1 now completesThere agree

namespace TwoRows

/-- An image of three columns and two rows in two tiles, with buckets of one row. -/
def narrow : Image where
  grid :=
    { imageWidth := 3
      imageHeight := 2
      tileWidth := 2
      tileHeight := 2
      imageWidth_pos := by decide
      imageHeight_pos := Nat.two_pos
      tileWidth_pos := Nat.two_pos
      tileHeight_pos := Nat.two_pos
      tileCount_lt := by decide }
  bucket := { width := 2, height := 1, width_pos := Nat.two_pos, height_pos := Nat.one_pos }
  divides := by decide
  channels := 1
  supported := supportedChannels_one

/-- The upper row of the first tile, which nothing occludes. -/
def upper : Region := .unoccluded ⟨0, 0, 2, 1⟩ 1

/-- The same with the nodes written out. -/
def upperNodes : Region :=
  ⟨⟨0, 0, 2, 1⟩, 1, some [1, 1], [Single.zero, Single.one, Single.zero, Single.one]⟩

/-- The lower row of the first tile, with two nodes for its second pixel. -/
def lower : Region :=
  ⟨⟨0, 1, 2, 2⟩, 1, some [1, 2],
    [Single.zero, Single.one, Single.zero, Single.one, Single.one, Single.zero]⟩

theorem countable_of_decided
    {regions : List Region}
    (decided : ∀ position ∈ narrow.grid.positions,
      (narrow.painted regions).nodeTotal narrow.channels (narrow.grid.frame position) <
        0x100000000) :
    narrow.Countable (narrow.painted regions) :=
  fun position inside _ => decided position (Grid.mem_positions.mpr inside)

end TwoRows

/-- The lower row arrives twice, and then the upper one completes the tile.  The same
tile is offered when the upper row comes first and has its nodes written out, even
to a sink that refuses it. -/
theorem handed_over_twoRows :
    ∃ tile,
      TwoRows.narrow.Offers (Recording.sink none false) Recording.empty
        [TwoRows.lower, TwoRows.lower, TwoRows.upper] [TwoRows.lower, TwoRows.upper] [tile] ∧
      TwoRows.narrow.Carries [TwoRows.lower, TwoRows.upper] tile ∧
      TwoRows.narrow.Offers (Recording.sink (some 1) false) Recording.empty
        [TwoRows.upperNodes, TwoRows.lower] [TwoRows.upperNodes, TwoRows.lower] [tile] := by
  have countable : TwoRows.narrow.Countable (TwoRows.narrow.painted
      ([TwoRows.lower, TwoRows.lower] ++ [TwoRows.upper])) :=
    TwoRows.countable_of_decided (by decide +kernel)
  obtain ⟨acceptedBefore, acceptedNow, offered, handed, offersBefore, offersNow, _, atMostOne,
      handed_iff, content⟩ :=
    handed_over TwoRows.narrow (Recording.sink none false) Recording.empty
      [TwoRows.lower, TwoRows.lower] TwoRows.upper countable
  have countableBefore : TwoRows.narrow.Countable (TwoRows.narrow.painted
      [TwoRows.lower, TwoRows.lower]) := TwoRows.countable_of_decided (by decide +kernel)
  have countableThere : TwoRows.narrow.Countable (TwoRows.narrow.painted
      [TwoRows.upperNodes, TwoRows.lower]) := TwoRows.countable_of_decided (by decide +kernel)
  have taken_eq : TwoRows.narrow.taken [TwoRows.lower, TwoRows.lower, TwoRows.upper] =
      [TwoRows.lower, TwoRows.upper] := by decide +kernel
  have takenThere_eq : TwoRows.narrow.taken [TwoRows.upperNodes, TwoRows.lower] =
      [TwoRows.upperNodes, TwoRows.lower] := by decide +kernel
  have offersThere := TwoRows.narrow.offers_taken (Recording.sink (some 1) false)
    Recording.empty _ countableThere
  rw [takenThere_eq] at offersThere
  obtain ⟨rfl, rfl⟩ := (TwoRows.narrow.offers_taken (Recording.sink none false)
    Recording.empty _ countableBefore).unique offersBefore
  obtain ⟨rfl, _⟩ := (TwoRows.narrow.offers_taken (Recording.sink none false)
    Recording.empty _ countable).unique offersNow
  have nothingBefore : TwoRows.narrow.completedFrom Canvas.blank
      [TwoRows.lower, TwoRows.lower] = [] := by decide +kernel
  rw [nothingBefore, List.nil_append] at offersNow
  rw [List.cons_append, List.singleton_append, taken_eq] at offersNow handed_iff content
  have covered := (covered_iff (TwoRows.narrow.pictures_painted _).1 ⟨0, 0⟩).mpr
    (show TwoRows.narrow.Completes (TwoRows.narrow.painted
      [TwoRows.lower, TwoRows.lower, TwoRows.upper]) ⟨0, 0⟩ by decide +kernel)
  rw [taken_eq] at covered
  have notBefore := mt (covered_iff (TwoRows.narrow.pictures_painted _).1 ⟨0, 0⟩).mp
    (show ¬TwoRows.narrow.Completes (TwoRows.narrow.painted
      [TwoRows.lower, TwoRows.lower]) ⟨0, 0⟩ by decide +kernel)
  obtain ⟨tile, member, position_eq⟩ :=
    (handed_iff ⟨0, 0⟩).mpr ⟨by decide, covered, notBefore⟩
  obtain ⟨carries, onlyTile⟩ := content tile member
  rw [position_eq] at onlyTile
  have agree : TwoRows.narrow.AgreeIn ⟨0, 0⟩ [TwoRows.lower, TwoRows.upper]
      [TwoRows.upperNodes, TwoRows.lower] := by
    have decided : ∀ pixel ∈ (TwoRows.narrow.grid.frame ⟨0, 0⟩).pixels,
        ∀ one ∈ [TwoRows.lower, TwoRows.upper], ∀ other ∈ [TwoRows.upperNodes, TwoRows.lower],
          one.bounds.Covers pixel.1 pixel.2 -> other.bounds.Covers pixel.1 pixel.2 ->
            one.runAt pixel.1 pixel.2 = other.runAt pixel.1 pixel.2 := by decide +kernel
    intro one oneMember other otherMember x y contained
    exact decided (x, y) (Placement.contains_iff_mem_pixels.mp contained) one oneMember other
      otherMember
  have only : ∃ tileThere, TwoRows.narrow.completedFrom Canvas.blank
      [TwoRows.upperNodes, TwoRows.lower] = [tileThere] ∧ tileThere.position = ⟨0, 0⟩ :=
    ⟨_, rfl, rfl⟩
  obtain ⟨tileThere, completed_eq, positionThere_eq⟩ := only
  rw [completed_eq] at offersThere
  have sameTile := onlyTile _ _ _ _ _ countableThere offersThere agree tileThere
    (List.mem_singleton_self _) positionThere_eq
  rw [sameTile] at offersThere
  have handed_eq : handed = [tile] := by
    obtain ⟨first, rfl⟩ := List.length_eq_one_iff.mp
      (Nat.le_antisymm atMostOne (List.length_pos_of_mem member))
    rw [List.mem_singleton.mp member]
  rw [handed_eq] at offersNow
  exact ⟨tile, offersNow, carries, offersThere⟩

end Image
end Assembly
end DeepShadow
