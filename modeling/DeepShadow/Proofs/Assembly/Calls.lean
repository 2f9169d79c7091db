import DeepShadow.Proofs.Assembly.Arrival
import DeepShadow.Proofs.Assembly.Emission

/-!
# Calls of an assembly

An assembly is called in any order: regions are submitted to it, and it can be closed
at any time.  Its sink may fail at every request, also between a tile and the end.
Whatever happens, a tile goes to the sink once, by the call that supplies the last of
its pixels, and nothing is asked of the sink any more once it has been finished.
-/

namespace DeepShadow
namespace Assembly

variable {State Summary : Type}

/-! ## Calls and requests -/

/-- A call of an assembly. -/
inductive Call
  | submit (region : Region)
  | close
deriving DecidableEq, Repr

/-- What an assembly asks of its sink, and whether the sink did it. -/
inductive Request
  | accept (tile : AssembledTile) (done : Bool)
  | finish (done : Bool)
deriving DecidableEq, Repr

namespace Sink

/-- The sink that also keeps what was asked of it. -/
def recorded (sink : Sink State Summary) : Sink (State × List Request) Summary where
  accept
    | (state, requests), tile => do
        let (result, state) ← sink.accept state tile
        return (result, state, requests ++ [.accept tile result.isOk])
  finish
    | (state, requests) => do
        let (result, state) ← sink.finish state
        return (result, state, requests ++ [.finish result.isOk])

/-- A sink does whatever is asked of it. -/
def NeverFails (sink : Sink State Summary) : Prop :=
  (∀ state tile, (sink.accept state tile).value.1.isOk = true) ∧
    ∀ state, (sink.finish state).value.1.isOk = true

end Sink

/-- A call with its answer and with what it asked of the sink. -/
structure Step where
  call : Call
  result : Except Error Unit
  requests : List Request

namespace Step

/-- The places of the tiles that were offered to the sink. -/
def offered (step : Step) : List TilePosition :=
  step.requests.filterMap fun
    | .accept tile _ => some tile.position
    | .finish _ => none

/-- The places of the tiles that the sink has taken. -/
def taken (step : Step) : List TilePosition :=
  step.requests.filterMap fun
    | .accept tile true => some tile.position
    | _ => none

/-- The regions that have arrived, where some had arrived before. -/
def extend (regions : List Region) (step : Step) : List Region :=
  match step.call with
  | .submit region => if isRefusal step.result then regions else regions ++ [region]
  | .close => []

end Step

/-- The regions that have arrived since pending tiles were discarded last. -/
def arrived (steps : List Step) : List Region := steps.foldl Step.extend []

namespace Assembler

/-- The assembly without what was asked of its sink before. -/
def forget
    (assembler : Assembler (State × List Request) Summary) :
    Assembler (State × List Request) Summary :=
  { assembler with sink := (assembler.sink.1, []) }

/-- A way to take a region. -/
abbrev Submission (State Summary : Type) :=
  Assembler (State × List Request) Summary -> Region ->
    Except Violation (Except Error Unit × Assembler (State × List Request) Summary)

/-- Makes a call, given how regions are taken. -/
def performBy
    (submit : Submission State Summary)
    (sink : Sink State Summary)
    (assembler : Assembler (State × List Request) Summary)
    (call : Call) : Except Violation (Step × Assembler (State × List Request) Summary) := do
  match call with
  | .submit region =>
      let (result, next) ← submit assembler.forget region
      return (⟨call, result, next.sink.2⟩, next)
  | .close =>
      let (result, next) := (assembler.forget.close sink.recorded).value
      return (⟨call, result, next.sink.2⟩, next)

/-- Makes several calls, until one of them violates what the assembly relies on. -/
def performAllBy
    (submit : Submission State Summary)
    (sink : Sink State Summary)
    (assembler : Assembler (State × List Request) Summary) :
    List Call -> List Step × Except Violation (Assembler (State × List Request) Summary)
  | [] => ([], .ok assembler)
  | call :: calls =>
      match assembler.performBy submit sink call with
      | .error violation => ([], .error violation)
      | .ok (step, next) =>
          let (steps, outcome) := next.performAllBy submit sink calls
          (step :: steps, outcome)

/-- Makes several calls, until one of them violates what the assembly relies on. -/
def performAll
    (sink : Sink State Summary)
    (assembler : Assembler (State × List Request) Summary)
    (calls : List Call) :
    List Step × Except Violation (Assembler (State × List Request) Summary) :=
  assembler.performAllBy (fun assembler region => (assembler.submit sink.recorded region).value)
    sink calls

/-- What is asked of a way to take regions: each region is refused, or it waits, or it
completes its tile. -/
def Takes (submit : Submission State Summary) (sink : Sink State Summary) : Prop :=
  ∀ {image canvas assembler region result next}, assembler.Keeps image canvas ->
    submit assembler region = .ok (result, next) ->
      Intake sink.recorded image canvas assembler region result next

theorem takes_submit {sink : Sink State Summary} :
    Takes (fun assembler region => (assembler.submit sink.recorded region).value) sink :=
  fun keeps submitted => keeps.of_submit submitted

end Assembler

theorem arrived_concat (steps : List Step) (step : Step) :
    arrived (steps ++ [step]) = step.extend (arrived steps) := by
  unfold arrived
  rw [List.foldl_append]
  rfl

/-! ## What one call does -/

/-- What a call does to an assembly, to which some regions have arrived. -/
structure Effect
    (sink : Sink State Summary)
    (image : Image)
    (regions : List Region)
    (assembler next : Assembler (State × List Request) Summary)
    (step : Step) : Prop where
  keeps : next.Keeps image (Canvas.outlines (step.extend regions))
  completed_iff : ∀ position, next.completed.has position = true ↔
    assembler.completed.has position = true ∨ position ∈ step.offered
  fresh : ∀ position ∈ step.offered, assembler.completed.has position = false
  nodup : step.offered.Nodup
  offered_iff : ∀ position, position ∈ step.offered ↔
    image.grid.Contains position ∧
      image.Completes (Canvas.outlines (step.extend regions)) position ∧
      ¬image.Completes (Canvas.outlines regions) position
  finished_iff : next.isFinished = true ↔
    assembler.isFinished = true ∨ .finish true ∈ step.requests
  silent : assembler.isFinished = true -> step.requests = []
  refused : assembler.isFinished = true ->
    ∀ region, step.call = .submit region -> step.result = .error (.region .finished)
  last : step.requests.Pairwise fun earlier _ => earlier ≠ .finish true
  taken_eq : sink.NeverFails -> step.taken = step.offered
  finish_iff : sink.NeverFails -> ∀ region, step.call = .submit region ->
    ((∃ done, .finish done ∈ step.requests) ↔
      step.offered ≠ [] ∧ next.completed.isFull = true)

variable {sink : Sink State Summary} {image : Image} {regions : List Region}
  {assembler next : Assembler (State × List Request) Summary} {step : Step}

/-- A call that asks nothing of the sink completes no tile. -/
theorem effect_of_silent
    (requests_eq : step.requests = [])
    (keeps : next.Keeps image (Canvas.outlines (step.extend regions)))
    (completed_eq : next.completed.has = assembler.completed.has)
    (finished_eq : next.isFinished = assembler.isFinished)
    (nothing : ∀ position, image.Completes (Canvas.outlines (step.extend regions)) position ->
      image.grid.Contains position -> image.Completes (Canvas.outlines regions) position)
    (refused : assembler.isFinished = true ->
      ∀ region, step.call = .submit region -> step.result = .error (.region .finished)) :
    Effect sink image regions assembler next step := by
  have offered_eq : step.offered = [] := by
    unfold Step.offered
    rw [requests_eq]
    rfl
  have taken_eq : step.taken = [] := by
    unfold Step.taken
    rw [requests_eq]
    rfl
  refine
    { keeps, refused
      completed_iff := ?_
      fresh := ?_
      nodup := ?_
      offered_iff := ?_
      finished_iff := ?_
      silent := fun _ => requests_eq
      last := ?_
      taken_eq := fun _ => taken_eq.trans offered_eq.symm
      finish_iff := ?_ }
  · intro position
    rw [completed_eq, offered_eq, or_iff_left List.not_mem_nil]
  · intro position member
    rw [offered_eq] at member
    cases member
  · rw [offered_eq]
    exact List.nodup_nil
  · intro position
    rw [offered_eq]
    refine iff_of_false List.not_mem_nil ?_
    rintro ⟨inside, now, before⟩
    exact before (nothing position now inside)
  · rw [finished_eq, requests_eq, or_iff_left List.not_mem_nil]
  · rw [requests_eq]
    exact List.Pairwise.nil
  · intro _ _ _
    rw [requests_eq, offered_eq]
    refine iff_of_false ?_ fun nonempty => nonempty.1 rfl
    rintro ⟨_, member⟩
    cases member

/-- What finishing a sink asks of it. -/
theorem finishSink_recorded
    {result : Except Error Unit}
    (finished : (assembler.finishSink sink.recorded).value = (result, next))
    (unfinished : assembler.isFinished = false) :
    isRefusal result = false ∧
      ∃ (ended : Bool) (state : State) (summary : Option Summary),
        next = { assembler with
          sink := (state, assembler.sink.2 ++ [.finish ended])
          summary } ∧
        summary.isSome = ended := by
  have finish_eq : (sink.recorded.finish assembler.sink).value =
      ((sink.finish assembler.sink.1).value.1, (sink.finish assembler.sink.1).value.2,
        assembler.sink.2 ++ [.finish (sink.finish assembler.sink.1).value.1.isOk]) := rfl
  unfold Assembler.finishSink at finished
  rw [Traced.value_bind, finish_eq] at finished
  cases answer : (sink.finish assembler.sink.1).value.1 with
  | error error =>
      rw [answer] at finished
      cases finished
      exact ⟨rfl, false, _, assembler.summary, rfl, unfinished⟩
  | ok summary =>
      rw [answer] at finished
      cases finished
      exact ⟨rfl, true, _, some summary, rfl, rfl⟩

/-- What is asked of the sink where a tile is handed to it: it is finished when it has
taken the last tile. -/
def handing (tile : AssembledTile) (isLast done ended : Bool) : List Request :=
  .accept tile done :: if done && isLast then [.finish ended] else []

section Handing

variable (call : Call) (result : Except Error Unit) (tile : AssembledTile)
  (isLast done ended : Bool)

theorem offered_handing :
    Step.offered ⟨call, result, handing tile isLast done ended⟩ = [tile.position] := by
  unfold handing
  cases done <;> cases isLast <;> rfl

theorem taken_handing :
    Step.taken ⟨call, result, handing tile isLast true ended⟩ = [tile.position] := by
  unfold handing
  cases isLast <;> rfl

theorem finish_mem_handing_iff (other : Bool) :
    .finish other ∈ handing tile isLast done ended ↔ (done && isLast) = true ∧ other = ended := by
  unfold handing
  cases done <;> cases isLast <;> simp

theorem pairwise_handing :
    (handing tile isLast done ended).Pairwise fun earlier _ => earlier ≠ .finish true := by
  unfold handing
  cases done <;> cases isLast <;> simp

end Handing

/-- A tile is handed to the sink, whatever the sink makes of it. -/
theorem emit_recorded
    {tile : AssembledTile}
    {result : Except Error Unit}
    (emitted : (assembler.emit sink.recorded tile).value = (result, next))
    (unfinished : assembler.isFinished = false) :
    isRefusal result = false ∧
      ∃ (done ended : Bool) (state : State) (summary : Option Summary),
        next = { assembler with
          sink := (state, assembler.sink.2 ++ handing tile assembler.completed.isFull done ended)
          summary } ∧
        summary.isSome = (done && assembler.completed.isFull && ended) ∧
        (sink.NeverFails -> done = true) := by
  have accept_eq : (sink.recorded.accept assembler.sink tile).value =
      ((sink.accept assembler.sink.1 tile).value.1, (sink.accept assembler.sink.1 tile).value.2,
        assembler.sink.2 ++
          [.accept tile (sink.accept assembler.sink.1 tile).value.1.isOk]) := rfl
  unfold Assembler.emit at emitted
  rw [Traced.value_bind, accept_eq] at emitted
  cases answer : (sink.accept assembler.sink.1 tile).value.1 with
  | error error =>
      rw [answer] at emitted
      cases emitted
      refine ⟨rfl, false, false, _, assembler.summary, rfl, unfinished, ?_⟩
      intro neverFails
      have done := neverFails.1 assembler.sink.1 tile
      rw [answer] at done
      exact done
  | ok _ =>
      rw [answer] at emitted
      by_cases isFull : assembler.completed.isFull = true
      · simp only [isFull, if_true] at emitted
        obtain ⟨notRefused, ended, state, summary, rfl, summary_eq⟩ :=
          finishSink_recorded emitted unfinished
        refine ⟨notRefused, true, ended, state, summary, ?_, ?_, fun _ => rfl⟩
        · rw [isFull]
          simp only [List.append_assoc]
          rfl
        · rw [summary_eq, isFull]
          rfl
      · rw [Bool.not_eq_true] at isFull
        simp only [isFull] at emitted
        cases emitted
        refine ⟨rfl, true, false, (sink.accept assembler.sink.1 tile).value.2,
          assembler.summary, ?_, ?_, fun _ => rfl⟩
        · rw [isFull]
          rfl
        · rw [Bool.and_false]
          exact unfinished

/-- A call that completes a tile offers it to the sink, which is finished where this was
the last tile. -/
theorem effect_of_emit
    {full : Assembler (State × List Request) Summary}
    {region : Region}
    {tile : AssembledTile}
    {result : Except Error Unit}
    (unfinished : assembler.isFinished = false)
    (admits : image.Admits region.outline)
    (notCompleted : assembler.completed.has (image.tileOf region.outline) = false)
    (before : ¬image.Completes (Canvas.outlines regions) (image.tileOf region.outline))
    (now : image.Completes ((Canvas.outlines regions).paint region.outline)
      (image.tileOf region.outline))
    (keeps : full.Keeps image ((Canvas.outlines regions).paint region.outline))
    (has_full : ∀ position, full.completed.has position =
      (decide (position = image.tileOf region.outline) || assembler.completed.has position))
    (summary_eq : full.summary = assembler.summary)
    (log_eq : full.sink.2 = [])
    (position_eq : tile.position = image.tileOf region.outline)
    (emitted : (full.emit sink.recorded tile).value = (result, next)) :
    Effect sink image regions assembler next ⟨.submit region, result, next.sink.2⟩ := by
  have fullUnfinished : full.isFinished = false := by
    unfold Assembler.isFinished
    rw [summary_eq]
    exact unfinished
  obtain ⟨notRefused, done, ended, state, summary, rfl, ended_eq, neverFails⟩ :=
    emit_recorded emitted fullUnfinished
  rw [log_eq, List.nil_append]
  have canvas_eq : ∀ requests : List Request,
      Canvas.outlines (Step.extend regions ⟨.submit region, result, requests⟩) =
        (Canvas.outlines regions).paint region.outline := by
    intro requests
    unfold Step.extend
    simp only [notRefused, Bool.false_eq_true, if_false]
    exact Canvas.outlines_concat
  have mem_offered_iff : ∀ position, position ∈ Step.offered ⟨.submit region, result,
      handing tile full.completed.isFull done ended⟩ ↔ position = image.tileOf region.outline := by
    intro position
    rw [offered_handing, List.mem_singleton, position_eq]
  have stillUnfinished : ¬assembler.isFinished = true := by
    rw [unfinished]
    exact Bool.false_ne_true
  refine
    { keeps := ?_
      completed_iff := ?_
      fresh := ?_
      nodup := ?_
      offered_iff := ?_
      finished_iff := ?_
      silent := fun finished => absurd finished stillUnfinished
      refused := fun finished => absurd finished stillUnfinished
      last := pairwise_handing _ _ _ _
      taken_eq := ?_
      finish_iff := ?_ }
  · rw [canvas_eq]
    exact keeps.withSummary fullUnfinished _ _
  · intro position
    show full.completed.has position = true ↔ _
    rw [has_full, Bool.or_eq_true, decide_eq_true_eq, mem_offered_iff, or_comm]
  · intro position member
    rw [(mem_offered_iff position).mp member]
    exact notCompleted
  · rw [offered_handing]
    exact List.nodup_singleton _
  · intro position
    rw [mem_offered_iff, canvas_eq]
    constructor
    · rintro rfl
      exact ⟨admits.contains_tileOf, now, before⟩
    · rintro ⟨_, nowThere, notBefore⟩
      by_contra different
      exact notBefore ((Assembler.completes_paint_iff admits different).mp nowThere)
  · rw [or_iff_right stillUnfinished, finish_mem_handing_iff]
    show summary.isSome = true ↔ _
    rw [ended_eq, Bool.and_eq_true]
    exact and_congr_right fun _ => eq_comm
  · intro holds
    rw [neverFails holds, taken_handing, offered_handing]
  · intro holds _ _
    rw [offered_handing]
    simp only [finish_mem_handing_iff, neverFails holds, Bool.true_and]
    exact ⟨fun ⟨_, isFull, _⟩ => ⟨List.cons_ne_nil _ _, isFull⟩,
      fun ⟨_, isFull⟩ => ⟨ended, isFull, rfl⟩⟩

/-- A call that closes an assembly discards what is pending and finishes the sink. -/
theorem effect_of_close
    {result : Except Error Unit}
    (keeps : assembler.Keeps image (Canvas.outlines regions))
    (unfinished : assembler.isFinished = false)
    (closed : (assembler.forget.close sink.recorded).value = (result, next)) :
    Effect sink image regions assembler next ⟨.close, result, next.sink.2⟩ := by
  have unfinishedQuiet : assembler.forget.isFinished = false := unfinished
  rw [Assembler.close_of_unfinished unfinishedQuiet] at closed
  obtain ⟨_, ended, state, summary, rfl, ended_eq⟩ := finishSink_recorded closed unfinishedQuiet
  change Effect sink image regions assembler _ ⟨.close, result, [.finish ended]⟩
  have stillUnfinished : ¬assembler.isFinished = true := by
    rw [unfinished]
    exact Bool.false_ne_true
  refine
    { keeps := (keeps.discard).withSummary unfinished _ _
      completed_iff := fun _ => (or_iff_left List.not_mem_nil).symm
      fresh := fun _ member => by cases member
      nodup := List.nodup_nil
      offered_iff := ?_
      finished_iff := ?_
      silent := fun finished => absurd finished stillUnfinished
      refused := fun finished => absurd finished stillUnfinished
      last := List.pairwise_singleton _ _
      taken_eq := fun _ => rfl
      finish_iff := fun _ _ isSubmission => by cases isSubmission }
  · intro position
    refine iff_of_false List.not_mem_nil ?_
    rintro ⟨inside, now, _⟩
    exact Image.not_completes_blank inside now
  · rw [or_iff_right stillUnfinished, List.mem_singleton, Request.finish.injEq]
    show summary.isSome = true ↔ _
    rw [ended_eq]
    exact eq_comm

/-- A region that waits for others completes no tile. -/
theorem effect_of_waiting
    {region : Region}
    (unfinished : assembler.isFinished = false)
    (admits : image.Admits region.outline)
    (notNow : ¬image.Completes ((Canvas.outlines regions).paint region.outline)
      (image.tileOf region.outline))
    (keeps : next.Keeps image ((Canvas.outlines regions).paint region.outline))
    (completed_eq : next.completed.has = assembler.completed.has)
    (summary_eq : next.summary = assembler.summary) :
    Effect sink image regions assembler next ⟨.submit region, .ok (), []⟩ := by
  have canvas_eq : Canvas.outlines (Step.extend regions ⟨.submit region, .ok (), []⟩) =
      (Canvas.outlines regions).paint region.outline := Canvas.outlines_concat
  refine effect_of_silent rfl ?_ completed_eq (congrArg Option.isSome summary_eq) ?_ ?_
  · rw [canvas_eq]
    exact keeps
  · intro position now _
    rw [canvas_eq] at now
    have different : position ≠ image.tileOf region.outline := by
      rintro rfl
      exact notNow now
    exact (Assembler.completes_paint_iff admits different).mp now
  · intro finished
    exact absurd (unfinished.symm.trans finished) Bool.false_ne_true

theorem performBy_submit_eq_ok_iff
    {submit : Assembler.Submission State Summary}
    {region : Region} :
    assembler.performBy submit sink (.submit region) = .ok (step, next) ↔
      ∃ result, submit assembler.forget region = .ok (result, next) ∧
        step = ⟨.submit region, result, next.sink.2⟩ := by
  simp only [Assembler.performBy]
  cases submit assembler.forget region with
  | error violation =>
      refine iff_of_false (fun performed => by cases performed) ?_
      rintro ⟨_, submitted, _⟩
      cases submitted
  | ok answer =>
      constructor
      · intro performed
        cases performed
        exact ⟨answer.1, rfl, rfl⟩
      · rintro ⟨result, submitted, rfl⟩
        cases submitted
        rfl

/-- What a call does to an assembly, if it does not violate what the assembly relies
on. -/
theorem effect_of_performBy
    {submit : Assembler.Submission State Summary}
    (takes : Assembler.Takes submit sink)
    {call : Call}
    (keeps : assembler.Keeps image (Canvas.outlines regions))
    (performed : assembler.performBy submit sink call = .ok (step, next)) :
    Effect sink image regions assembler next step := by
  have keepsQuiet : assembler.forget.Keeps image (Canvas.outlines regions) := keeps.withSink _
  cases call with
  | submit region =>
      obtain ⟨result, submitted, rfl⟩ := performBy_submit_eq_ok_iff.mp performed
      cases takes keepsQuiet submitted with
      | refused finished =>
          refine effect_of_silent rfl keepsQuiet rfl rfl (fun _ now _ => now) ?_
          intro isFinished _ _
          rw [finished isFinished]
      | waits unfinished admits notNow keepsNext completed_eq summary_eq sink_eq =>
          rw [sink_eq]
          exact effect_of_waiting unfinished admits notNow keepsNext completed_eq summary_eq
      | completes unfinished admits notCompleted now keepsFull has_full summary_eq sink_eq
          position_eq emitted =>
          have before := (keeps.pending unfinished _ admits.contains_tileOf notCompleted).2
          exact effect_of_emit unfinished admits notCompleted before now keepsFull has_full
            summary_eq (congrArg Prod.snd sink_eq) position_eq emitted
  | close =>
      cases closed : (assembler.forget.close sink.recorded).value with
      | mk result after =>
          simp only [Assembler.performBy, closed] at performed
          cases performed
          cases finished : assembler.isFinished with
          | true =>
              have finishedQuiet : assembler.forget.isFinished = true := finished
              rw [Assembler.close_of_finished finishedQuiet] at closed
              cases closed
              refine effect_of_silent rfl (keepsQuiet.of_finished finished) rfl rfl ?_ ?_
              · intro position now inside
                exact absurd now (Image.not_completes_blank inside)
              · intro _ _ isSubmission
                cases isSubmission
          | false => exact effect_of_close keeps finished closed

/-! ## What several calls do -/

/-- What has become of an assembly after some calls. -/
structure Reached
    (sink : Sink State Summary)
    (image : Image)
    (steps : List Step)
    (assembler : Assembler (State × List Request) Summary) : Prop where
  keeps : assembler.Keeps image (Canvas.outlines (arrived steps))
  completed_iff : ∀ position, assembler.completed.has position = true ↔
    position ∈ steps.flatMap Step.offered
  nodup : (steps.flatMap Step.offered).Nodup
  finished_iff : assembler.isFinished = true ↔ .finish true ∈ steps.flatMap Step.requests
  last : (steps.flatMap Step.requests).Pairwise fun earlier _ => earlier ≠ .finish true
  taken_eq : sink.NeverFails -> steps.flatMap Step.taken = steps.flatMap Step.offered

/-- Nothing has become of an assembly that was not called. -/
theorem reached_nil
    (keeps : assembler.Keeps image Canvas.blank)
    (unfinished : assembler.isFinished = false)
    (nothing : ∀ position, assembler.completed.has position = false) :
    Reached sink image [] assembler := by
  refine ⟨keeps, ?_, List.nodup_nil, ?_, List.Pairwise.nil, fun _ => rfl⟩
  · intro position
    rw [nothing position]
    exact iff_of_false Bool.false_ne_true List.not_mem_nil
  · rw [unfinished]
    exact iff_of_false Bool.false_ne_true List.not_mem_nil

/-- What becomes of an assembly by one more call. -/
theorem Reached.concat
    {steps : List Step}
    (reached : Reached sink image steps assembler)
    (effect : Effect sink image (arrived steps) assembler next step) :
    Reached sink image (steps ++ [step]) next := by
  refine ⟨?_, ?_, ?_, ?_, ?_, ?_⟩
  · rw [arrived_concat]
    exact effect.keeps
  · intro position
    rw [effect.completed_iff, reached.completed_iff, List.flatMap_append, List.mem_append,
      List.flatMap_singleton]
  · rw [List.flatMap_append, List.flatMap_singleton, List.nodup_append]
    refine ⟨reached.nodup, effect.nodup, ?_⟩
    rintro position before _ now rfl
    rw [← reached.completed_iff, effect.fresh position now] at before
    cases before
  · rw [effect.finished_iff, reached.finished_iff, List.flatMap_append, List.mem_append,
      List.flatMap_singleton]
  · rw [List.flatMap_append, List.flatMap_singleton, List.pairwise_append]
    refine ⟨reached.last, effect.last, ?_⟩
    rintro _ before request now rfl
    rw [effect.silent (reached.finished_iff.mpr before)] at now
    cases now
  · intro neverFails
    rw [List.flatMap_append, List.flatMap_append, reached.taken_eq neverFails,
      List.flatMap_singleton, List.flatMap_singleton, effect.taken_eq neverFails]

/-- Every call of a sequence has its effect, and so have all of them. -/
theorem Reached.performAllBy
    {submit : Assembler.Submission State Summary}
    (takes : Assembler.Takes submit sink)
    {before steps : List Step}
    {calls : List Call}
    {outcome : Except Violation (Assembler (State × List Request) Summary)}
    (reached : Reached sink image before assembler)
    (performed : assembler.performAllBy submit sink calls = (steps, outcome)) :
    (∃ last, Reached sink image (before ++ steps) last ∧
      ∀ other, outcome = .ok other -> other = last) ∧
    ∀ front step back, steps = front ++ step :: back ->
      ∃ earlier later, Reached sink image (before ++ front) earlier ∧
        Effect sink image (arrived (before ++ front)) earlier later step := by
  induction calls generalizing assembler before steps with
  | nil =>
      cases performed
      refine ⟨⟨assembler, ?_, fun other isOther => (Except.ok.inj isOther).symm⟩, ?_⟩
      · rw [List.append_nil]
        exact reached
      · intro front step back split
        exact absurd split.symm (List.append_ne_nil_of_right_ne_nil _ (List.cons_ne_nil _ _))
  | cons call calls inductionHypothesis =>
      unfold Assembler.performAllBy at performed
      cases performedFirst : assembler.performBy submit sink call with
      | error violation =>
          rw [performedFirst] at performed
          cases performed
          refine ⟨⟨assembler, ?_, fun other isOther => by cases isOther⟩, ?_⟩
          · rw [List.append_nil]
            exact reached
          · intro front step back split
            exact absurd split.symm (List.append_ne_nil_of_right_ne_nil _ (List.cons_ne_nil _ _))
      | ok answer =>
          obtain ⟨first, next⟩ := answer
          rw [performedFirst] at performed
          cases performed
          have effect := effect_of_performBy takes reached.keeps performedFirst
          obtain ⟨⟨last, reachedLast, isLast⟩, effects⟩ :=
            inductionHypothesis (reached.concat effect) rfl
          rw [List.append_assoc, List.singleton_append] at reachedLast
          refine ⟨⟨last, reachedLast, isLast⟩, ?_⟩
          intro front step back split
          cases front with
          | nil =>
              cases split
              rw [List.append_nil]
              exact ⟨assembler, next, reached, effect⟩
          | cons head front =>
              rw [List.cons_append, List.cons.injEq] at split
              obtain ⟨rfl, split⟩ := split
              have effectThere := effects front step back split
              rw [List.append_assoc, List.singleton_append] at effectThere
              exact effectThere

/-- A sink that never fails is finished by the region with which it has taken all tiles,
and by no other. -/
theorem Reached.finish_iff
    {steps : List Step}
    {region : Region}
    (reached : Reached sink image steps assembler)
    (effect : Effect sink image (arrived steps) assembler next step)
    (neverFails : sink.NeverFails)
    (isSubmission : step.call = .submit region) :
    (∃ done, .finish done ∈ step.requests) ↔
      (∀ position, image.grid.Contains position ->
        position ∈ (steps ++ [step]).flatMap Step.taken) ∧
      ¬∀ position, image.grid.Contains position -> position ∈ steps.flatMap Step.taken := by
  have reachedNext := reached.concat effect
  have grid_eq : next.grid = image.grid := congrArg Image.grid effect.keeps.outline_eq
  have isFull_iff : next.completed.isFull = true ↔ ∀ position, image.grid.Contains position ->
      position ∈ (steps ++ [step]).flatMap Step.offered := by
    rw [TileSet.isFull_iff effect.keeps.counted, ← grid_eq]
    exact forall₂_congr fun position _ => reachedNext.completed_iff position
  rw [effect.finish_iff neverFails region isSubmission, isFull_iff,
    reached.taken_eq neverFails, reachedNext.taken_eq neverFails, and_comm]
  apply and_congr_right
  intro all
  constructor
  · intro nonempty before
    obtain ⟨position, member⟩ := List.exists_mem_of_ne_nil _ nonempty
    have inside := ((effect.offered_iff position).mp member).1
    have complete := (reached.completed_iff position).mpr (before position inside)
    rw [effect.fresh position member] at complete
    cases complete
  · intro notBefore nothing
    apply notBefore
    intro position inside
    have member := all position inside
    rw [List.flatMap_append, List.flatMap_singleton, nothing, List.append_nil] at member
    exact member

/-- No tile is complete and pending, and each tile is complete or missing. -/
theorem Reached.counts
    {steps : List Step}
    (reached : Reached sink image steps assembler) :
    (∀ position,
      ¬(assembler.completed.has position = true ∧ assembler.isPending position = true)) ∧
    assembler.completedCount + assembler.missingCount = image.grid.tileCount := by
  constructor
  · rintro position ⟨complete, pending⟩
    rw [reached.keeps.emptied position complete] at pending
    cases pending
  · have counted := TileSet.length_missing_add_count reached.keeps.counted
    have grid_eq : assembler.grid = image.grid := congrArg Image.grid reached.keeps.outline_eq
    rw [← grid_eq]
    unfold Assembler.completedCount Assembler.missingCount
    omega

/-- Each tile goes to the sink once.  However an assembly is called, and whatever its sink
fails to do: no tile is offered twice; a tile is offered by the call with which all its
pixels have arrived since pending tiles were discarded last, and by no other call; once
the sink has been finished nothing is asked of it, and every region is refused for this
reason.  A sink that never fails is finished, unless it is by closing, by the region with
which it has taken all tiles.  Tiles are pending or complete, and those that are not
complete are counted as missing.

No bound on the sides of buckets or on the numbers of values is assumed.  Where a word is too
short for them, other regions are taken or refused; what follows for the tiles only depends on
which regions are taken. -/
theorem emitted_once
    {grid : Grid}
    {bucketWidth bucketHeight channels : Nat}
    {state : State}
    {calls : List Call}
    {steps : List Step}
    {outcome : Except Violation (Assembler (State × List Request) Summary)}
    (started : Assembler.start grid bucketWidth bucketHeight channels (state, []) = .ok assembler)
    (performed : assembler.performAll sink calls = (steps, outcome)) :
    (steps.flatMap Step.offered).Nodup ∧
    (∀ before step after, steps = before ++ step :: after -> ∀ position,
      position ∈ step.offered ↔
        grid.Contains position ∧
        (grid.frame position).CoveredBy (arrived (before ++ [step])) ∧
        ¬(grid.frame position).CoveredBy (arrived before)) ∧
    (steps.flatMap Step.requests).Pairwise (fun earlier _ => earlier ≠ .finish true) ∧
    (∀ before step after region, steps = before ++ step :: after ->
      step.call = .submit region -> .finish true ∈ before.flatMap Step.requests ->
        step.result = .error (.region .finished)) ∧
    (sink.NeverFails ->
      ∀ before step after region, steps = before ++ step :: after ->
        step.call = .submit region ->
          ((∃ done, .finish done ∈ step.requests) ↔
            (∀ position, grid.Contains position ->
              position ∈ (before ++ [step]).flatMap Step.taken) ∧
            ¬∀ position, grid.Contains position -> position ∈ before.flatMap Step.taken)) ∧
    ∀ last, outcome = .ok last ->
      (∀ position,
        ¬(last.completed.has position = true ∧ last.isPending position = true)) ∧
      last.completedCount + last.missingCount = grid.tileCount := by
  obtain ⟨rfl, unfinished, nothing, keeps⟩ := Assembler.of_start_eq_ok started
  have reachedFirst : Reached sink assembler.outline [] assembler :=
    reached_nil keeps unfinished nothing
  obtain ⟨⟨reached, reachedLast, isLast⟩, effects⟩ :=
    reachedFirst.performAllBy Assembler.takes_submit performed
  rw [List.nil_append] at reachedLast
  refine ⟨reachedLast.nodup, ?_, reachedLast.last, ?_, ?_, ?_⟩
  · intro before step after split position
    obtain ⟨earlier, later, _, effect⟩ := effects before step after split
    rw [arrived_concat, ← Canvas.completes_outlines_iff, ← Canvas.completes_outlines_iff]
    exact effect.offered_iff position
  · intro before step after region split isSubmission finished
    obtain ⟨earlier, later, reachedBefore, effect⟩ := effects before step after split
    exact effect.refused (reachedBefore.finished_iff.mpr finished) region isSubmission
  · intro neverFails before step after region split isSubmission
    obtain ⟨earlier, later, reachedBefore, effect⟩ := effects before step after split
    exact reachedBefore.finish_iff effect neverFails isSubmission
  · intro last isOutcome
    rw [isLast last isOutcome]
    exact reachedLast.counts

namespace TwoTiles

/-- The assembly of an image of two tiles, one beside the other, with two rows each. -/
def assembly : Assembler (Recording × List Request) Nat :=
  Image.TwoRows.narrow.start (Recording.empty, [])

/-- A row of the left tile. -/
def left (y : Nat) : Call := .submit (.unoccluded ⟨0, y, 2, y + 1⟩ 1)

/-- A row of the right tile. -/
def right (y : Nat) : Call := .submit (.unoccluded ⟨2, y, 3, y + 1⟩ 1)

/-- The image is closed after its first row, which has to arrive again if the sink fails
to finish. -/
def interrupted : List Call :=
  [left 0, .close, left 1, left 0, left 0, right 0, right 1, .close]

/-- All rows arrive, and then one of them again. -/
def complete : List Call := [left 0, left 1, right 0, right 1, left 0, .close]

theorem start_assembly :
    (Assembler.start Image.TwoRows.narrow.grid 2 1 1 (Recording.empty, []) :
      Except Violation (Assembler (Recording × List Request) Nat)) = .ok assembly :=
  Assembler.start_eq_ok Image.TwoRows.narrow _

theorem neverFails : (Recording.sink none false).NeverFails := ⟨fun _ _ => rfl, fun _ => rfl⟩

end TwoTiles

/-- Where the sink refuses the first tile and always fails to finish, both tiles are
offered once.  Where it never fails, it is finished by the last row. -/
theorem emitted_once_twoTiles :
    ((TwoTiles.assembly.performAll (Recording.sink (some 1) true) TwoTiles.interrupted).1.map
        Step.requests =
        [[], [.finish false], [], [.accept (.neglectable ⟨0, 0⟩) false], [], [],
          [.accept (.neglectable ⟨1, 0⟩) true, .finish false], [.finish false]] ∧
      ((TwoTiles.assembly.performAll (Recording.sink (some 1) true) TwoTiles.interrupted).1.flatMap
        Step.offered).Nodup) ∧
    (TwoTiles.assembly.performAll (Recording.sink none false) TwoTiles.complete).1.map
        Step.requests =
      [[], [.accept (.neglectable ⟨0, 0⟩) true], [],
        [.accept (.neglectable ⟨1, 0⟩) true, .finish true], [], []] ∧
    ∀ before step after region,
      (TwoTiles.assembly.performAll (Recording.sink none false) TwoTiles.complete).1 =
          before ++ step :: after ->
        step.call = .submit region ->
          ((∃ done, .finish done ∈ step.requests) ↔
            (∀ position, Image.TwoRows.narrow.grid.Contains position ->
              position ∈ (before ++ [step]).flatMap Step.taken) ∧
            ¬∀ position, Image.TwoRows.narrow.grid.Contains position ->
              position ∈ before.flatMap Step.taken) := by
  obtain ⟨distinct, _⟩ := emitted_once TwoTiles.start_assembly
    (Prod.eta (TwoTiles.assembly.performAll (Recording.sink (some 1) true)
      TwoTiles.interrupted)).symm
  obtain ⟨_, _, _, _, finished_iff, _⟩ := emitted_once TwoTiles.start_assembly
    (Prod.eta (TwoTiles.assembly.performAll (Recording.sink none false) TwoTiles.complete)).symm
  exact ⟨⟨by decide +kernel, distinct⟩, by decide +kernel, finished_iff TwoTiles.neverFails⟩

end Assembly
end DeepShadow
