import DeepShadow.Proofs.Assembly.InPlace
import DeepShadow.Proofs.Assembly.Objections
import DeepShadow.Proofs.Behavior

/-!
# Refused regions

An assembly that changes in place makes a tile and a bucket before it knows whether the rows of
a region have arrived before.  Where they have, nothing had to be made, since a row that has
arrived is in a bucket that was there.  So a refused region leaves all of the assembly as it
was, and can be left out of the calls.
-/

namespace DeepShadow
namespace Assembly

variable {State Summary : Type}

namespace Workbench

variable {grid : Grid} {bench next : Workbench grid State Summary} {region : Region}
  {sink : Sink State Summary} {answer : Except Error Unit}

/-! ## What a call changes -/

/-- An assembly has no other tiles than another one. -/
structure HasTilesOf (next bench : Workbench grid State Summary) : Prop where
  bucket_eq : next.bucket = bench.bucket
  channels_eq : next.channels = bench.channels
  isThere : ∀ index tile, next.tiles.get index = some tile -> bench.tiles.get index = some tile

theorem HasTilesOf.sound (hasTiles : next.HasTilesOf bench) (sound : bench.Sound) :
    next.Sound := by
  unfold Sound
  rw [hasTiles.bucket_eq]
  exact fun position inside tile found =>
    sound position inside tile (hasTiles.isThere _ tile found)

theorem HasTilesOf.refl (bench : Workbench grid State Summary) : bench.HasTilesOf bench :=
  ⟨rfl, rfl, fun _ _ => id⟩

theorem HasTilesOf.trans
    {last : Workbench grid State Summary}
    (second : last.HasTilesOf next)
    (first : next.HasTilesOf bench) :
    last.HasTilesOf bench :=
  ⟨second.bucket_eq.trans first.bucket_eq, second.channels_eq.trans first.channels_eq,
    fun index tile found => first.isThere index tile (second.isThere index tile found)⟩

/-- No tile is made where a tile is taken out of its place. -/
theorem hasTilesOf_complete (bench : Workbench grid State Summary) (index : Fin grid.tileCount) :
    (bench.complete index).HasTilesOf bench := by
  refine ⟨rfl, rfl, fun other tile found => ?_⟩
  unfold complete at found
  by_cases same : index = other
  · rw [same, TileMap.get_set_self] at found
    cases found
  · rwa [TileMap.get_set_of_ne _ same] at found

/-- Finishing the sink is not refused, and changes no tile. -/
theorem finishSink_frame (sink : Sink State Summary) (bench : Workbench grid State Summary) :
    isRefusal (bench.finishSink sink).1 = false ∧ (bench.finishSink sink).2.HasTilesOf bench := by
  unfold finishSink
  split <;> exact ⟨rfl, rfl, rfl, fun _ _ => id⟩

/-- Handing a tile to the sink is not refused, and changes no tile that is open. -/
theorem emit_frame
    (sink : Sink State Summary)
    (bench : Workbench grid State Summary)
    (tile : AssembledTile) :
    isRefusal (bench.emit sink tile).1 = false ∧ (bench.emit sink tile).2.HasTilesOf bench := by
  unfold emit
  split
  · exact ⟨rfl, rfl, rfl, fun _ _ => id⟩
  · simp only
    split
    · obtain ⟨notRefused, bucket_eq, channels_eq, isThere⟩ := finishSink_frame sink _
      exact ⟨notRefused, bucket_eq, channels_eq, isThere⟩
    · exact ⟨rfl, rfl, rfl, fun _ _ => id⟩

/-- Closing an assembly makes no tile. -/
theorem close_frame (sink : Sink State Summary) (bench : Workbench grid State Summary) :
    isRefusal (bench.close sink).1 = false ∧ (bench.close sink).2.HasTilesOf bench := by
  unfold close
  split
  · exact ⟨rfl, rfl, rfl, fun _ _ => id⟩
  · obtain ⟨notRefused, bucket_eq, channels_eq, isThere⟩ :=
      finishSink_frame sink { bench with tiles := TileMap.constant grid none }
    refine ⟨notRefused, bucket_eq, channels_eq, fun index tile found => ?_⟩
    have inNone := isThere index tile found
    rw [TileMap.get_constant] at inNone
    cases inNone

/-- A region is refused without a trace, or it is put into its tile, and the tile is taken out
again where it is complete. -/
theorem submit_cases (submitted : bench.submit sink region = .ok (answer, next)) :
    (isRefusal answer = true ∧ next = bench) ∨
      isRefusal answer = false ∧ ∃ located placed, bench.place region = .ok (.ok located, placed) ∧
        next.HasTilesOf placed := by
  unfold submit at submitted
  split at submitted
  next => cases submitted
  next error placed isPlaced =>
    cases submitted
    exact .inl ⟨rfl, eq_of_place_error isPlaced⟩
  next index tile placed isPlaced =>
    refine .inr ?_
    split at submitted
    next =>
      simp only at submitted
      split at submitted
      next => cases submitted
      next assembled _ =>
        rw [Except.ok.injEq] at submitted
        obtain ⟨notRefused, hasTiles⟩ := emit_frame sink (placed.complete index) assembled
        rw [submitted] at notRefused hasTiles
        exact ⟨notRefused, _, _, isPlaced, hasTiles.trans (hasTilesOf_complete placed index)⟩
    next =>
      cases submitted
      exact ⟨rfl, _, _, isPlaced, .refl _⟩

/-- A region that is refused leaves the assembly as it was. -/
theorem eq_of_isRefusal
    (submitted : bench.submit sink region = .ok (answer, next))
    (refused : isRefusal answer = true) :
    next = bench := by
  rcases submit_cases submitted with ⟨_, unchanged⟩ | ⟨notRefused, _⟩
  · exact unchanged
  · rw [notRefused] at refused
    cases refused

theorem Sound.submit
    (sound : bench.Sound)
    (submitted : bench.submit sink region = .ok (answer, next)) :
    next.Sound := by
  rcases submit_cases submitted with ⟨_, rfl⟩ | ⟨_, located, placed, isPlaced, hasTiles⟩
  · exact sound
  have place_eq := sound.place_eq region
  cases filled : bench.view.fill region with
  | error error =>
      rw [filled] at place_eq
      cases isPlaced.symm.trans place_eq
  | ok pair =>
      rw [filled] at place_eq
      obtain ⟨tile, placed_eq, _, placedSound⟩ := place_eq
      cases isPlaced.symm.trans placed_eq
      exact hasTiles.sound placedSound

/-! ## What a reader sees of a call -/

/-- A reader sees the strips of a tile that is put into its place. -/
theorem view_put
    (bench : Workbench grid State Summary)
    (index : Fin grid.tileCount)
    (tile : OpenTile) :
    (bench.put index tile).view =
      { bench.view with
        pending := bench.view.pending.set index (some (tile.pending bench.bucket)) } := by
  unfold put view
  simp only [TileMap.map_set]
  rfl

theorem view_complete (bench : Workbench grid State Summary) (index : Fin grid.tileCount) :
    (bench.complete index).view =
      { bench.view with
        pending := bench.view.pending.set index none
        completed := bench.view.completed.add index } := by
  unfold complete view
  simp only [TileMap.map_set]
  rfl

theorem complete_put
    (bench : Workbench grid State Summary)
    (index : Fin grid.tileCount)
    (tile : OpenTile) :
    (bench.put index tile).complete index = bench.complete index := by
  unfold complete put
  simp only [TileMap.set_set]

theorem finishSink_view (sink : Sink State Summary) (bench : Workbench grid State Summary) :
    (bench.view.finishSink sink).value =
      ((bench.finishSink sink).1, (bench.finishSink sink).2.view) := by
  unfold Assembler.finishSink finishSink
  rw [Traced.value_bind, sink_view]
  rcases (sink.finish bench.sink).value with ⟨error | summary, state⟩ <;> rfl

theorem emit_view
    (sink : Sink State Summary)
    (bench : Workbench grid State Summary)
    (tile : AssembledTile) :
    (bench.view.emit sink tile).value =
      ((bench.emit sink tile).1, (bench.emit sink tile).2.view) := by
  unfold Assembler.emit emit
  rw [Traced.value_bind, sink_view]
  rcases (sink.accept bench.sink tile).value with ⟨error | ⟨⟩, state⟩
  · rfl
  · have finished := finishSink_view sink { bench with sink := state }
    simp only
    by_cases isFull : bench.completed.isFull = true
    · have seenFull : bench.view.completed.isFull = true := isFull
      rw [if_pos seenFull, if_pos isFull]
      exact finished
    · have notSeenFull : ¬bench.view.completed.isFull = true := isFull
      rw [if_neg notSeenFull, if_neg isFull]
      rfl

theorem close_view (sink : Sink State Summary) (bench : Workbench grid State Summary) :
    (bench.view.close sink).value = ((bench.close sink).1, (bench.close sink).2.view) := by
  have isFinished : bench.view.isFinished = bench.summary.isSome := rfl
  unfold close
  cases finished : bench.summary.isSome with
  | true =>
      rw [Assembler.close_of_finished (isFinished.trans finished)]
      rfl
  | false =>
      rw [Assembler.close_of_unfinished (isFinished.trans finished)]
      have discarded := finishSink_view sink { bench with tiles := TileMap.constant grid none }
      unfold view at discarded
      rw [TileMap.map_constant] at discarded
      exact discarded

/-- A reader sees of each region what becomes of it. -/
theorem Sound.submit_view (sound : bench.Sound) (sink : Sink State Summary) (region : Region) :
    (bench.view.submit sink region).value =
      (bench.submit sink region).map fun pair => (pair.1, pair.2.view) := by
  have placed := sound.place_eq region
  unfold Assembler.submit Workbench.submit
  cases filled : bench.view.fill region with
  | error error =>
      rw [filled] at placed
      rw [placed]
      rfl
  | ok pair =>
      obtain ⟨index, pending⟩ := pair
      rw [filled] at placed
      obtain ⟨tile, placed, rfl, _⟩ := placed
      change Fin grid.tileCount at index
      rw [placed]
      refine (Assembler.take_eq sink bench.view region.bounds index
        (tile.pending bench.bucket)).trans ?_
      simp only [complete_put]
      by_cases full : tile.filled = tile.placement.pixelCount
      · have seenFull : (tile.pending bench.bucket).isFull = true := beq_iff_eq.mpr full
        have seenMade : (tile.pending bench.bucket).assemble bench.view.channels =
            (tile.pending (bench.complete index).bucket).assemble
              (bench.complete index).channels := rfl
        rw [if_pos seenFull, if_pos full, seenMade]
        cases (tile.pending (bench.complete index).bucket).assemble
            (bench.complete index).channels with
        | error violation => rfl
        | ok assembled =>
            have emitted := emit_view sink (bench.complete index) assembled
            rw [view_complete] at emitted
            simp only [Except.map]
            exact congrArg Except.ok emitted
      · have notSeenFull : ¬(tile.pending bench.bucket).isFull = true :=
          fun seenFull => full (beq_iff_eq.mp seenFull)
        rw [if_neg notSeenFull, if_neg full]
        simp only [Except.map, view_put]

/-- A reader sees the start of an assembly. -/
theorem start_view
    {bucketWidth bucketHeight channels : Nat}
    {state : State}
    (started : start grid bucketWidth bucketHeight channels state = .ok bench) :
    Assembler.start grid bucketWidth bucketHeight channels state = .ok bench.view ∧
      bench.Sound := by
  unfold start at started
  unfold Assembler.start
  cases size : BucketSize.ofSides bucketWidth bucketHeight with
  | error violation =>
      rw [size] at started
      cases started
  | ok bucket =>
      rw [size] at started
      simp only [bind, Except.bind] at started ⊢
      split at started
      next divides =>
        cases started
        rw [dif_pos divides]
        unfold view
        rw [TileMap.map_constant]
        refine ⟨rfl, fun position inside tile found => ?_⟩
        rw [TileMap.get_constant] at found
        cases found
      next => cases started

end Workbench

/-! ## Calls -/

/-- Whether a call is answered by the refusal of its region. -/
def Call.isRefused (_ : Call) : Except Violation (Except Error Unit) -> Bool
  | .ok answer => isRefusal answer
  | .error _ => false

/-- What a call does, given what becomes of a region and of the end. -/
def calledBy
    {System : Type}
    (submit : System -> Region -> Except Violation (Except Error Unit × System))
    (close : System -> Except Error Unit × System) :
    System -> Call -> Except Violation (Except Error Unit × System)
  | system, .submit region => submit system region
  | system, .close => .ok (close system)

/-- What calls do. -/
def Assembler.called (sink : Sink State Summary) :
    Behavior (Except Violation (Assembler State Summary)) Call
      (Except Violation (Except Error Unit)) :=
  .stopping <| calledBy (fun assembler region => (assembler.submit sink region).value)
    (fun assembler => (assembler.close sink).value)

namespace Workbench

variable {grid : Grid}

/-- What calls do in place. -/
def called (sink : Sink State Summary) :
    Behavior (Except Violation (Workbench grid State Summary)) Call
      (Except Violation (Except Error Unit)) :=
  .stopping (calledBy (submit sink) (close sink))

/-- A call that is refused leaves the assembly as it was, and each call leaves it sound. -/
theorem of_calledBy
    {sink : Sink State Summary}
    {bench next : Workbench grid State Summary}
    {call : Call}
    {answer : Except Error Unit}
    (performed : calledBy (submit sink) (close sink) bench call = .ok (answer, next)) :
    (isRefusal answer = true -> next = bench) ∧ (bench.Sound -> next.Sound) := by
  cases call with
  | submit region => exact ⟨eq_of_isRefusal performed, fun sound => sound.submit performed⟩
  | close =>
      have closed : bench.close sink = (answer, next) := Except.ok.inj performed
      obtain ⟨notRefused, hasTiles⟩ := close_frame sink bench
      rw [closed] at notRefused hasTiles
      refine ⟨fun refused => ?_, hasTiles.sound⟩
      rw [notRefused] at refused
      cases refused

/-- A refused call leaves no trace, also where the assembly was lost before. -/
theorem unchanged_of_isRefused
    (sink : Sink State Summary)
    (state : Except Violation (Workbench grid State Summary))
    (call : Call)
    (refused : call.isRefused (called sink state call).1 = true) :
    (called sink state call).2 = state := by
  unfold called Behavior.stopping at refused ⊢
  cases state with
  | error violation => cases refused
  | ok bench =>
      simp only at refused ⊢
      cases performed : calledBy (submit sink) (close sink) bench call with
      | error violation =>
          rw [performed] at refused
          cases refused
      | ok pair =>
          rw [performed] at refused
          exact congrArg Except.ok ((of_calledBy performed).1 refused)

/-- A reader sees of each call what becomes of it. -/
theorem Sound.calledBy_view
    {bench : Workbench grid State Summary}
    (sound : bench.Sound)
    (sink : Sink State Summary)
    (call : Call) :
    calledBy (fun assembler region => (assembler.submit sink region).value)
        (fun assembler => (assembler.close sink).value) bench.view call =
      (calledBy (Workbench.submit sink) (Workbench.close sink) bench call).map fun pair =>
        (pair.1, pair.2.view) := by
  cases call with
  | submit region => exact sound.submit_view sink region
  | close => exact congrArg Except.ok (close_view sink bench)

/-- A reader sees what calls do in place. -/
theorem sees_called (sink : Sink State Summary) :
    Behavior.Sees (Except.map view)
      (fun state => ∀ bench : Workbench grid State Summary, state = .ok bench -> bench.Sound)
      (called sink) (Assembler.called sink) := by
  apply Behavior.sees_stopping
  · exact fun bench call answer next sound performed => (of_calledBy performed).2 sound
  · exact fun bench call sound => sound.calledBy_view sink call

end Workbench

/-- Refused regions leave no trace.  However an assembly is called after its start, what is done
in place, where tiles and buckets are made before their rows are looked at, gives the answers
and, to a reader, the states that the calls give at once.  A region that is refused then leaves
all of the assembly as it was: its tiles with their buckets, rows and counts, the complete tiles,
the summary, and the sink with all that was asked of it.  Without the refused calls, the answers
to the others, the tiles that went to the sink and the last state are the same.

No bound on the sides of buckets or on the numbers of values is assumed.  Where a word is too
short for them, a program refuses other regions; but this is found out before anything is
changed, so that these leave no trace, either. -/
theorem refused_regions_leave_no_trace
    {sink : Sink State Summary}
    {grid : Grid}
    {bucketWidth bucketHeight channels : Nat}
    {state : State}
    {started : Workbench grid (State × List Request) Summary}
    (isStarted :
      Workbench.start grid bucketWidth bucketHeight channels (state, []) = .ok started)
    (calls : List Call) :
    let after := (Workbench.called sink.recorded).run (.ok started) calls
    let taken := Behavior.taken Call.isRefused after.1
    Assembler.start grid bucketWidth bucketHeight channels (state, []) = .ok started.view ∧
      (Assembler.called sink.recorded).run (.ok started.view) calls =
        (after.1, after.2.map Workbench.view) ∧
      (∀ bench region error next, after.2 = .ok bench ->
        bench.submit sink.recorded region = .ok (.error (.region error), next) -> next = bench) ∧
      (Workbench.called sink.recorded).run (.ok started) (taken.map Prod.fst) =
        (taken, after.2) ∧
      (Assembler.called sink.recorded).run (.ok started.view) (taken.map Prod.fst) =
        (taken, after.2.map Workbench.view) := by
  obtain ⟨seenStarted, sound⟩ := Workbench.start_view isStarted
  have startSound : ∀ bench, (.ok started : Except Violation _) = .ok bench -> bench.Sound := by
    rintro bench ⟨⟩
    exact sound
  have sees := @Workbench.sees_called _ _ grid sink.recorded
  have kept := Behavior.run_taken (Workbench.unchanged_of_isRefused sink.recorded)
    (.ok started) calls
  have seen := (sees.run startSound calls).1
  have seenKept := (sees.run startSound ((Behavior.taken Call.isRefused
    ((Workbench.called sink.recorded).run (.ok started) calls).1).map Prod.fst)).1
  rw [kept] at seenKept
  exact ⟨seenStarted, seen, fun _ _ _ _ _ submitted => Workbench.eq_of_isRefusal submitted rfl,
    kept, seenKept⟩

namespace FourTiles

/-- The calls among which others are refused, and then the end. -/
def takenCalls : List Call := calls ++ [.close]

/-- The second row of the first tile; both of its rows; the other row with other channels; all
of the tile beside it; a row of that tile; the end; and the other row when it is too late. -/
def attempts : List Call :=
  [.submit (.unoccluded ⟨0, 1, 2, 2⟩ 1), .submit (.unoccluded ⟨0, 0, 2, 2⟩ 1),
    .submit (.unoccluded ⟨0, 0, 2, 1⟩ 3), .submit (.unoccluded ⟨2, 0, 3, 2⟩ 1),
    .submit (.unoccluded ⟨2, 0, 3, 1⟩ 1), .close, .submit (.unoccluded ⟨0, 0, 2, 1⟩ 1)]

/-- A sink that does whatever is asked of it. -/
def recorder : Sink Recording Nat := Recording.sink none false

end FourTiles

open FourTiles in
/-- Four of the calls are refused, and the last state is that of the others. -/
theorem refused_regions_leave_no_trace_fourTiles :
    ∃ started : Workbench image.grid (Recording × List Request) Nat,
      Workbench.start image.grid 2 2 1 (Recording.empty, []) = .ok started ∧
      (Behavior.taken Call.isRefused
        ((Workbench.called recorder.recorded).run (.ok started) attempts).1).map Prod.fst =
          takenCalls ∧
      ((Workbench.called recorder.recorded).run (.ok started) takenCalls).2 =
        ((Workbench.called recorder.recorded).run (.ok started) attempts).2 := by
  obtain ⟨started, isStarted⟩ : ∃ started : Workbench image.grid (Recording × List Request) Nat,
      Workbench.start image.grid 2 2 1 (Recording.empty, []) = .ok started := ⟨_, rfl⟩
  have taken_eq : (Behavior.taken Call.isRefused
      ((Workbench.called recorder.recorded).run (.ok started) attempts).1).map Prod.fst =
        takenCalls := by
    cases isStarted
    decide +kernel
  have kept := (@refused_regions_leave_no_trace _ _ recorder _ _ _ _ _ _ isStarted
    attempts).2.2.2.1
  rw [taken_eq] at kept
  have sameLast := congrArg Prod.snd kept
  exact ⟨started, isStarted, taken_eq, sameLast⟩

end Assembly
end DeepShadow
