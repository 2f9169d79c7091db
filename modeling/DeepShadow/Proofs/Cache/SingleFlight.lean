import DeepShadow.Proofs.Cache.Calls

/-!
# Each miss is loaded once

However the steps of the callers of a shared cache are interleaved, the result of the
one load of a slot is what all calls that hold the slot are answered.  A position is
entered again only when its last slot has a result and is no longer in the cache, so
that no two calls ever load one position at a time.
-/

namespace DeepShadow
namespace SharedCache

variable {state next : SharedCache} {caller : Nat}

/-! ## Calls that can be answered -/

/-- Some steps answer a call from the slot with the given number. -/
def Answerable (state : SharedCache) (caller ticket : Nat) : Prop :=
  ∃ (events : List Event) (last : SharedCache) (call : Call) (tile : Option Tile),
    state.run events = some last ∧ last.calls[caller]? = some call ∧ call.ticket = ticket ∧
      call.stage = .answered tile

theorem Answerable.of_step
    {event : Event}
    {ticket : Nat}
    (stepped : state.step event = some next)
    (answerable : next.Answerable caller ticket) :
    state.Answerable caller ticket := by
  obtain ⟨events, last, call, tile, reached, rest⟩ := answerable
  exact ⟨event :: events, last, call, tile, by rw [run_cons, stepped]; exact reached, rest⟩

theorem slots_setContent
    {call : Call}
    {slot : SharedSlot}
    (isSlot : state.slots[call.ticket]? = some slot)
    (content : Content) :
    (state.setContent call slot content).slots[call.ticket]? = some { slot with content } := by
  rw [setContent, getElem?_set_of_getElem? isSlot, if_pos rfl]

section Answers

variable {call : Call} {slot : SharedSlot} (isCall : state.calls[caller]? = some call)
  (isSlot : state.slots[call.ticket]? = some slot)

include isCall

theorem calls_setStage (stage : Stage) :
    (state.setStage caller call stage).calls[caller]? = some { call with stage } := by
  rw [setStage, getElem?_set_of_getElem? isCall, if_pos rfl]

theorem answerable_of_answered
    {tile : Option Tile}
    (answered : call.stage = .answered tile) :
    state.Answerable caller call.ticket :=
  ⟨[], state, call, tile, rfl, isCall, rfl, answered⟩

include isSlot

theorem step_collect
    {tile : Option Tile}
    (holding : call.stage = .holding)
    (decoded : slot.content = .decoded tile) :
    state.step (.collect caller) = some (state.setStage caller call (.answered tile)) := by
  simp [step, isCall, isSlot, holding, decoded]

theorem step_start
    (holding : call.stage = .holding)
    (empty : slot.content = .empty) :
    state.step (.start caller) =
      some ((state.setContent call slot .loading).setStage caller call .loading) := by
  simp [step, isCall, isSlot, holding, empty]

theorem step_finish
    (loading : call.stage = .loading)
    (tile : Option Tile) :
    state.step (.finish caller tile) =
      some (((state.setContent call slot (.decoded tile)).record call tile).setStage caller call
        (.answered tile)) := by
  simp [step, isCall, isSlot, loading]

theorem answerable_of_decoded
    {tile : Option Tile}
    (holding : call.stage = .holding)
    (decoded : slot.content = .decoded tile) :
    state.Answerable caller call.ticket :=
  (answerable_of_answered (calls_setStage isCall _) rfl).of_step
    (step_collect isCall isSlot holding decoded)

theorem answerable_of_loading (loading : call.stage = .loading) :
    state.Answerable caller call.ticket := by
  have isStillCall :
      ((state.setContent call slot (.decoded none)).record call none).calls[caller]? =
        some call := isCall
  exact (answerable_of_answered (calls_setStage isStillCall (.answered none)) rfl).of_step
    (step_finish isCall isSlot loading none)

theorem answerable_of_empty
    (holding : call.stage = .holding)
    (empty : slot.content = .empty) :
    state.Answerable caller call.ticket := by
  have isStillCall : (state.setContent call slot .loading).calls[caller]? = some call := isCall
  exact (answerable_of_loading (calls_setStage isStillCall .loading) (slots_setContent isSlot _)
    rfl).of_step (step_start isCall isSlot holding empty)

end Answers

/-- Every call can be answered. -/
theorem Sound.answerable
    {call : Call}
    (sound : state.Sound)
    (isCall : state.calls[caller]? = some call) :
    state.Answerable caller call.ticket := by
  obtain ⟨slot, isSlot, -, fits⟩ := sound.holds caller call isCall
  cases stage_eq : call.stage with
  | answered tile => exact answerable_of_answered isCall stage_eq
  | loading => exact answerable_of_loading isCall isSlot stage_eq
  | holding =>
      cases content_eq : slot.content with
      | decoded tile => exact answerable_of_decoded isCall isSlot stage_eq content_eq
      | empty => exact answerable_of_empty isCall isSlot stage_eq content_eq
      | loading =>
          -- The call waits for the one that loads its slot.
          obtain ⟨loader, loaderCall, isLoader, ticket_eq, loads⟩ :=
            sound.loader call.ticket slot isSlot content_eq
          rw [← ticket_eq] at isSlot
          have different : loader ≠ caller := by
            rintro rfl
            rw [isCall] at isLoader
            cases isLoader
            rw [stage_eq] at loads
            cases loads
          let next := ((state.setContent loaderCall slot (.decoded none)).record loaderCall
            none).setStage loader loaderCall (.answered none)
          have isStillCall : next.calls[caller]? = some call :=
            (getElem?_set_of_getElem? isLoader _ caller).trans ((if_neg different).trans isCall)
          have isDecoded : next.slots[call.ticket]? = some { slot with content := .decoded none } :=
            (getElem?_set_of_getElem? isSlot _ call.ticket).trans (if_pos ticket_eq)
          exact (answerable_of_decoded isStillCall isDecoded stage_eq rfl).of_step
            (step_finish isLoader isSlot loads none)

/-! ## Loads of one position -/

/-- No two slots without a result have one position. -/
theorem Sound.eq_of_undecoded
    {first second : Nat}
    {slot other : SharedSlot}
    (sound : state.Sound)
    (isFirst : state.slots[first]? = some slot)
    (isSecond : state.slots[second]? = some other)
    (undecoded : slot.content.isDecoded = false)
    (undecodedToo : other.content.isDecoded = false)
    (same : slot.position = other.position) :
    first = second := by
  obtain ⟨entry, isEntry, rfl⟩ := sound.shows.undecoded first slot isFirst undecoded
  obtain ⟨otherEntry, isOther, rfl⟩ := sound.shows.undecoded second other isSecond undecodedToo
  obtain ⟨shownSlot, isShown, position_eq, -⟩ := sound.shows.entry entry isEntry
  obtain ⟨otherShown, isOtherShown, otherPosition_eq, -⟩ := sound.shows.entry otherEntry isOther
  rw [isFirst] at isShown
  rw [isSecond] at isOtherShown
  cases isShown
  cases isOtherShown
  apply Nat.le_antisymm
  · exact sound.shows.newest otherEntry isOther _ slot isFirst (same.trans otherPosition_eq)
  · exact sound.shows.newest entry isEntry _ other isSecond (same.symm.trans position_eq)

/-- A slot that is not the newest of its position has a result and is not shown. -/
theorem Sound.of_newer
    {earlier later : Nat}
    {slot other : SharedSlot}
    (sound : state.Sound)
    (isEarlier : state.slots[earlier]? = some slot)
    (isLater : state.slots[later]? = some other)
    (newer : earlier < later)
    (same : slot.position = other.position) :
    slot.content.isDecoded = true ∧ ∀ entry ∈ state.cache.entries, entry.ticket ≠ earlier := by
  have notShown : ∀ entry ∈ state.cache.entries, entry.ticket ≠ earlier := by
    rintro entry isEntry rfl
    obtain ⟨shownSlot, isShown, position_eq, -⟩ := sound.shows.entry entry isEntry
    rw [isEarlier] at isShown
    cases isShown
    have notNewer := sound.shows.newest entry isEntry later other isLater
      (same.symm.trans position_eq)
    exact absurd notNewer (Nat.not_le.mpr newer)
  refine ⟨?_, notShown⟩
  rw [← Bool.not_eq_false]
  intro undecoded
  obtain ⟨entry, isEntry, ticket_eq⟩ := sound.shows.undecoded earlier slot isEarlier undecoded
  exact notShown entry isEntry ticket_eq

/-- Whatever steps the callers of a cache take, the slots without a result are in it,
one for each position at most, and no two calls load one position at a time; a position
is entered again only when its slot has a result and was evicted.  The calls that are
answered have the result of the only load of their slot, and all others can be.  Misses
are evicted or resident, and they are decoded, failed, or without a result. -/
theorem flies_once
    {capacity : Nat}
    {cache : Cache}
    (made : Cache.ofCapacity capacity = .ok cache)
    {events : List Event}
    {state : SharedCache}
    (reached : (ofCache cache).run events = some state) :
    (∀ (ticket : Nat) (slot : SharedSlot), state.slots[ticket]? = some slot ->
      slot.content.isDecoded = false ->
        (∃ entry ∈ state.cache.entries, entry.ticket = ticket ∧
          entry.position = slot.position ∧ entry.slot = .pending) ∧
        ∀ (second : Nat) (other : SharedSlot), state.slots[second]? = some other ->
          other.content.isDecoded = false -> slot.position = other.position ->
            ticket = second) ∧
      (∀ (first second : Nat) (call other : Call), state.calls[first]? = some call ->
        state.calls[second]? = some other -> call.stage = .loading -> other.stage = .loading ->
          call.position = other.position -> first = second) ∧
      (∀ (earlier later : Nat) (slot other : SharedSlot), state.slots[earlier]? = some slot ->
        state.slots[later]? = some other -> earlier < later -> slot.position = other.position ->
          slot.content.isDecoded = true ∧
            ∀ entry ∈ state.cache.entries, entry.ticket ≠ earlier) ∧
      (∀ (caller : Nat) (call : Call), state.calls[caller]? = some call ->
        (∀ tile, call.stage = .answered tile ->
          state.loadsOf call.ticket = [⟨call.ticket, call.position, tile⟩]) ∧
        state.Answerable caller call.ticket) ∧
      state.cache.counters.misses =
        state.cache.counters.evictions + state.cache.residentCount ∧
      state.cache.counters.decodes + state.cache.counters.failures + state.undecodedCount =
        state.cache.counters.misses ∧
      state.cache.counters.hits + state.cache.counters.misses =
        events.countP Event.isLookup := by
  obtain ⟨sound, length_eq⟩ := (sound_ofCache made).run reached
  refine ⟨?_, ?_, ?_, ?_, sound.shows.misses, sound.shows.decodes, ?_⟩
  · intro ticket slot isSlot undecoded
    refine ⟨?_, fun second other isOther undecodedToo same =>
      sound.eq_of_undecoded isSlot isOther undecoded undecodedToo same⟩
    obtain ⟨entry, isEntry, rfl⟩ := sound.shows.undecoded ticket slot isSlot undecoded
    obtain ⟨shownSlot, isShown, position_eq, shown_eq⟩ := sound.shows.entry entry isEntry
    rw [isSlot] at isShown
    cases isShown
    exact ⟨entry, isEntry, rfl, position_eq.symm,
      shown_eq.trans (Content.shown_eq_pending_iff.mpr undecoded)⟩
  · intro first second call other isFirst isSecond loading loadingToo same
    obtain ⟨slot, isSlot, position_eq, fits⟩ := sound.holds first call isFirst
    obtain ⟨otherSlot, isOther, otherPosition_eq, otherFits⟩ := sound.holds second other isSecond
    rw [loading] at fits
    rw [loadingToo] at otherFits
    apply sound.alone first second call other isFirst isSecond loading loadingToo
    apply sound.eq_of_undecoded isSlot isOther
    · rw [show slot.content = .loading from fits]
      rfl
    · rw [show otherSlot.content = .loading from otherFits]
      rfl
    · exact (position_eq.trans same).trans otherPosition_eq.symm
  · intro earlier later slot other isEarlier isLater newer same
    exact sound.of_newer isEarlier isLater newer same
  · intro caller call isCall
    refine ⟨?_, sound.answerable isCall⟩
    intro tile answered
    obtain ⟨⟨position, content⟩, isSlot, rfl, fits⟩ := sound.holds caller call isCall
    rw [answered] at fits
    rw [sound.loads, isSlot, show content = .decoded tile from fits]
    rfl
  · rw [sound.lookups, length_eq]
    exact Nat.zero_add _

namespace OnePlace

/-- A cache for one tile. -/
def cache : Cache := ⟨1, Nat.one_pos, [], 0, ⟨0, 0, 0, 0, 0⟩⟩

def white : Tile := Tile.visible ⟨⟨0, 0⟩, 0, 0, 1, 1⟩ 1

/-- Two calls share the first slot, beside a second one that keeps its entry; once the
first slot has its result, the lookup of a third position evicts it, and its position
is entered again. -/
def events : List Event :=
  [.lookup ⟨0, 0⟩, .lookup ⟨0, 0⟩, .lookup ⟨1, 0⟩, .start 1, .finish 1 (some white), .lookup ⟨2, 0⟩,
    .collect 0, .lookup ⟨0, 0⟩, .start 4]

end OnePlace

/-- Three slots are without a result, and the first one is neither shown nor loaded
again. -/
theorem flies_once_onePlace :
    Cache.ofCapacity 1 = .ok OnePlace.cache ∧
      ∃ state, (ofCache OnePlace.cache).run OnePlace.events = some state ∧
        state.calls[0]? = some ⟨⟨0, 0⟩, 0, .answered (some OnePlace.white)⟩ ∧
        state.loadsOf 0 = [⟨0, ⟨0, 0⟩, some OnePlace.white⟩] ∧
        (∀ entry ∈ state.cache.entries, entry.ticket ≠ 0) ∧
        state.Answerable 2 1 ∧
        state.cache.residentCount = 3 ∧
        state.undecodedCount = 3 ∧
        state.cache.counters.misses =
          state.cache.counters.evictions + state.cache.residentCount ∧
        state.cache.counters.hits + state.cache.counters.misses =
          OnePlace.events.countP Event.isLookup := by
  have made : Cache.ofCapacity 1 = .ok OnePlace.cache := rfl
  refine ⟨made, _, rfl, rfl, ?_⟩
  obtain ⟨-, -, newer, calls, misses, -, lookups⟩ :=
    flies_once made (show (ofCache OnePlace.cache).run OnePlace.events = some _ from rfl)
  refine ⟨(calls 0 _ rfl).1 _ rfl, (newer 0 3 _ _ rfl rfl (by decide) rfl).2, (calls 2 _ rfl).2,
    by decide, by decide, misses, lookups⟩

end SharedCache
end DeepShadow
