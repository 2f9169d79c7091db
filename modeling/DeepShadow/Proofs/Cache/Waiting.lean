import Mathlib.Data.List.ReduceOption
import DeepShadow.Proofs.Cache.Bound
import DeepShadow.Proofs.Cache.SingleFlight

/-!
# Calls that wait for their tiles

A call holds the lock of the cache for its lookup, which gives it an entry, and waits for what
comes into the slot of the entry when it has left the lock.  In between other calls take their
steps.  Their lookups leave the slot as it is; once all lookups are made, the entry is held
with what comes into the slot, or shows it from the beginning.
-/

namespace DeepShadow

namespace Cache

/-- The entry of a slot shows what is in the slot: as it was given, where nothing came into
the slot since, or as it is held now. -/
theorem Shows.slot_current
    {cache : Cache}
    {slots : List SharedSlot}
    {entry : CacheEntry}
    {slot : SharedSlot}
    (shows : cache.Shows slots)
    (isSlot : slots[entry.ticket]? = some slot)
    (kept : entry.slot = slot.content.shown ∨
      ∃ held ∈ cache.entries, held.ticket = entry.ticket) :
    ((cache.entries.find? (·.ticket = entry.ticket)).getD entry).slot = slot.content.shown := by
  cases found : cache.entries.find? (·.ticket = entry.ticket) with
  | none =>
      rcases kept with shown_eq | ⟨held, isHeld, same⟩
      · exact shown_eq
      · exact absurd (decide_eq_true same) (List.find?_eq_none.mp found held isHeld)
  | some held =>
      have same : held.ticket = entry.ticket := by simpa using List.find?_some found
      obtain ⟨shownSlot, isShown, -, shown_eq⟩ :=
        shows.entry held (List.mem_of_find?_eq_some found)
      rw [same, isSlot] at isShown
      cases isShown
      exact shown_eq

/-- A lookup gives an entry of the tile. -/
theorem position_lookup (cache : Cache) (position : TilePosition) :
    (cache.lookup position).1.position = position := by
  cases found : cache.entry? position with
  | some entry =>
      rw [lookup_of_found found, CacheEntry.position_touch]
      exact (of_entry?_eq_some found).2
  | none =>
      rw [lookup_of_not_found found]
      rfl

end Cache

/-- The call that takes a step, unless the step makes a new one. -/
def Event.caller? : Event -> Option Nat
  | .lookup _ => none
  | .start caller => some caller
  | .finish caller _ => some caller
  | .collect caller => some caller

namespace SharedCache

variable {state next : SharedCache} {caller : Nat} {position : TilePosition} {entry : CacheEntry}
  {slot : SharedSlot} {ticket : Nat}

/-! ## Calls that are given entries -/

/-- A call has left the lock of the cache with the entry that its lookup gave it, and nothing
came into the slot of the entry since. -/
structure Given (state : SharedCache) (caller : Nat) (entry : CacheEntry) : Prop where
  call : state.calls[caller]? = some ⟨entry.position, entry.ticket, .holding⟩
  shown : ∃ slot, state.slots[entry.ticket]? = some slot ∧ entry.slot = slot.content.shown

/-- Slots stay where they are. -/
theorem slots_lookup_of_some
    (isSlot : state.slots[ticket]? = some slot)
    (position : TilePosition) :
    (state.lookup position).slots[ticket]? = some slot := by
  unfold SharedCache.lookup
  cases state.cache.entry? position with
  | some entry => exact isSlot
  | none => exact (List.getElem?_append_left (List.getElem?_eq_some_iff.mp isSlot).1).trans isSlot

theorem Given.lookup
    (given : state.Given caller entry)
    (position : TilePosition) :
    (state.lookup position).Given caller entry := by
  obtain ⟨slot, isSlot, shown_eq⟩ := given.shown
  refine ⟨?_, slot, slots_lookup_of_some isSlot position, shown_eq⟩
  have bound := (List.getElem?_eq_some_iff.mp given.call).1
  exact (List.getElem?_append_left bound).trans given.call

/-- A new call is given the entry that it finds or enters. -/
theorem Sound.given_lookup (sound : state.Sound) (position : TilePosition) :
    (state.lookup position).Given state.calls.length (state.cache.lookup position).1 := by
  unfold SharedCache.lookup
  cases found : state.cache.entry? position with
  | some entry =>
      obtain ⟨isEntry, rfl⟩ := Cache.of_entry?_eq_some found
      obtain ⟨slot, isSlot, -, shown_eq⟩ := sound.shows.entry entry isEntry
      rw [Cache.lookup_of_found found]
      refine ⟨?_, slot, ?_, ?_⟩
      · rw [CacheEntry.position_touch]
        exact List.getElem?_concat_length
      · rw [CacheEntry.ticket_touch]
        exact isSlot
      · rw [CacheEntry.slot_touch]
        exact shown_eq
  | none =>
      rw [Cache.lookup_of_not_found found]
      refine ⟨List.getElem?_concat_length, ⟨position, .empty⟩, ?_, rfl⟩
      rw [show (state.cache.newEntry position).ticket = state.slots.length from
        sound.shows.slotCount.symm]
      exact List.getElem?_concat_length

/-- Only the slot of the new call may be new, and nothing is in it then. -/
theorem Sound.of_slot_lookup
    (sound : state.Sound)
    (isSlot : (state.lookup position).slots[ticket]? = some slot) :
    state.slots[ticket]? = some slot ∨
      (state.cache.lookup position).1.ticket = ticket ∧ slot.content = .empty := by
  unfold SharedCache.lookup at isSlot
  cases found : state.cache.entry? position with
  | some entry =>
      rw [found] at isSlot
      exact Or.inl isSlot
  | none =>
      rw [found] at isSlot
      simp only at isSlot
      rw [List.getElem?_append] at isSlot
      split at isSlot
      next => exact Or.inl isSlot
      next notOld =>
        rw [List.getElem?_singleton] at isSlot
        split at isSlot
        next isNew =>
          cases isSlot
          have ticket_eq : (state.cache.newEntry position).ticket = state.slots.length :=
            sound.shows.slotCount.symm
          rw [Cache.lookup_of_not_found found]
          exact Or.inr ⟨ticket_eq.trans (by omega), rfl⟩
        next => cases isSlot

/-! ## Lookups one after the other -/

/-- The lookups of calls for some tiles, which hold the lock one after the other. -/
def lookups (positions : List (Option TilePosition)) : List Event :=
  positions.reduceOption.map .lookup

theorem lookups_cons_some (position : TilePosition) (positions : List (Option TilePosition)) :
    lookups (some position :: positions) = .lookup position :: lookups positions := by
  rw [lookups, List.reduceOption_cons_of_some, List.map_cons, lookups]

theorem Given.run_lookups
    {positions : List (Option TilePosition)}
    (given : state.Given caller entry)
    (reached : state.run (lookups positions) = some next) :
    next.Given caller entry := by
  induction positions generalizing state with
  | nil =>
      cases reached
      exact given
  | cons first others inductionHypothesis =>
      cases first with
      | none => exact inductionHypothesis given reached
      | some position =>
          rw [lookups_cons_some] at reached
          exact inductionHypothesis (given.lookup position) reached

theorem countP_isLookup_lookups (positions : List (Option TilePosition)) :
    (lookups positions).countP Event.isLookup ≤ positions.length := by
  refine Nat.le_trans List.countP_le_length ?_
  rw [lookups, List.length_map]
  exact List.reduceOption_length_le positions

/-! ## Loads and results -/

/-- A call has left the lock of the cache with an entry, and has not taken yet what comes into
the slot of the entry.  The entry that it was given still shows the slot, or the cache holds
the entry with the changes of the slot: this is how a call of the reader, which has no slots of
its own, finds out what the others have loaded. -/
structure Awaits (state : SharedCache) (caller : Nat) (entry : CacheEntry) : Prop where
  call : state.calls[caller]? = some ⟨entry.position, entry.ticket, .holding⟩
  slot : ∃ slot, state.slots[entry.ticket]? = some slot ∧
    (entry.slot = slot.content.shown ∨
      ∃ held ∈ state.cache.entries, held.ticket = entry.ticket)

theorem Given.awaits (given : state.Given caller entry) : state.Awaits caller entry := by
  obtain ⟨slot, isSlot, shown_eq⟩ := given.shown
  exact ⟨given.call, slot, isSlot, Or.inl shown_eq⟩

/-- A call goes on waiting while another one takes its steps. -/
theorem Awaits.step
    {event : Event}
    {other : Nat}
    (awaits : state.Awaits caller entry)
    (sound : state.Sound)
    (stepped : state.step event = some next)
    (foreign : event.caller? = some other)
    (different : other ≠ caller) :
    next.Awaits caller entry := by
  obtain ⟨isCall, slot, isSlot, kept⟩ := awaits
  have call_eq {otherCall : Call} (isOther : state.calls[other]? = some otherCall)
      (stage : Stage) : (state.calls.set other { otherCall with stage })[caller]? =
        some ⟨entry.position, entry.ticket, .holding⟩ := by
    rw [getElem?_set_of_getElem? isOther, if_neg different]
    exact isCall
  cases event with
  | lookup position => cases foreign
  | start _ =>
      cases foreign
      obtain ⟨otherCall, otherSlot, isOther, isOtherSlot, -, empty, rfl⟩ := of_start stepped
      have slot_eq := getElem?_set_of_getElem? isOtherSlot { otherSlot with content := .loading }
        entry.ticket
      refine ⟨call_eq isOther _, ?_⟩
      by_cases same : otherCall.ticket = entry.ticket
      · rw [same, isSlot] at isOtherSlot
        cases isOtherSlot
        rw [empty] at kept
        exact ⟨_, slot_eq.trans (if_pos same), kept⟩
      · exact ⟨slot, slot_eq.trans ((if_neg same).trans isSlot), kept⟩
  | finish _ tile =>
      cases foreign
      obtain ⟨otherCall, otherSlot, isOther, isOtherSlot, loading, rfl⟩ := of_finish stepped
      have slot_eq := getElem?_set_of_getElem? isOtherSlot
        { otherSlot with content := .decoded tile } entry.ticket
      have held_settle {held : CacheEntry} (isHeld : held ∈ state.cache.entries)
          (same : held.ticket = entry.ticket) :
          ∃ held ∈ (state.cache.settle otherCall.ticket tile).entries,
            held.ticket = entry.ticket :=
        ⟨_, List.mem_map_of_mem isHeld, (CacheEntry.ticket_settle _ _ held).trans same⟩
      refine ⟨call_eq isOther _, ?_⟩
      by_cases same : otherCall.ticket = entry.ticket
      · -- While its slot had no result, the entry was held.
        have fits := sound.fits isOther rfl isOtherSlot
        rw [loading] at fits
        have undecoded : otherSlot.content.isDecoded = false := by
          rw [show otherSlot.content = .loading from fits]
          rfl
        obtain ⟨held, isHeld, ticket_eq⟩ := sound.shows.undecoded _ _ isOtherSlot undecoded
        exact ⟨_, slot_eq.trans (if_pos same),
          Or.inr (held_settle isHeld (ticket_eq.trans same))⟩
      · refine ⟨slot, slot_eq.trans ((if_neg same).trans isSlot), ?_⟩
        rcases kept with shown_eq | ⟨held, isHeld, ticket_eq⟩
        · exact Or.inl shown_eq
        · exact Or.inr (held_settle isHeld ticket_eq)
  | collect _ =>
      cases foreign
      obtain ⟨otherCall, otherSlot, otherTile, isOther, -, -, -, rfl⟩ := of_collect stepped
      exact ⟨call_eq isOther _, slot, isSlot, kept⟩

theorem Awaits.run
    {events : List Event}
    {other : Nat}
    (awaits : state.Awaits caller entry)
    (sound : state.Sound)
    (reached : state.run events = some next)
    (foreign : ∀ event ∈ events, event.caller? = some other)
    (different : other ≠ caller) :
    next.Awaits caller entry := by
  induction events generalizing state with
  | nil =>
      cases reached
      exact awaits
  | cons event events inductionHypothesis =>
      rw [run_cons, Option.bind_eq_some_iff] at reached
      obtain ⟨middle, stepped, reached⟩ := reached
      have awaitsNext := awaits.step sound stepped (foreign event List.mem_cons_self) different
      exact inductionHypothesis awaitsNext (sound.step stepped) reached fun later isLater =>
        foreign later (List.mem_cons_of_mem _ isLater)

theorem run_append (state : SharedCache) (earlier later : List Event) :
    state.run (earlier ++ later) = (state.run earlier).bind fun middle => middle.run later :=
  List.foldlM_append

/-- A call whose slot is empty loads it. -/
theorem run_load
    {call : Call}
    (isCall : state.calls[caller]? = some call)
    (isSlot : state.slots[call.ticket]? = some slot)
    (holding : call.stage = .holding)
    (empty : slot.content = .empty)
    (tile : Option Tile) :
    ∃ next, state.run [.start caller, .finish caller tile] = some next ∧
      next.cache = state.cache.settle call.ticket tile ∧
      next.slots = state.slots.set call.ticket { slot with content := .decoded tile } := by
  have isStillCall : (state.setContent call slot .loading).calls[caller]? = some call := isCall
  have finished := step_finish (calls_setStage isStillCall .loading) (slots_setContent isSlot _)
    rfl tile
  rw [run_cons, step_start isCall isSlot holding empty, Option.bind_some, run_cons, finished]
  exact ⟨_, rfl, rfl, List.set_set ..⟩

/-! ## How many tiles are held -/

/-- Only a lookup makes a slot without a result, and it makes one at most. -/
theorem undecodedCount_step
    {event : Event}
    (stepped : state.step event = some next) :
    next.undecodedCount ≤ state.undecodedCount + if event.isLookup then 1 else 0 := by
  have set_le {ticket : Nat} {old new : SharedSlot} (isOld : state.slots[ticket]? = some old)
      (fewer : new.content.isDecoded = false -> old.content.isDecoded = false) :
      (state.slots.set ticket new).countP (fun slot => !slot.content.isDecoded) ≤
        state.undecodedCount := by
    obtain ⟨bound, old_eq⟩ := List.getElem?_eq_some_iff.mp isOld
    rw [List.countP_set bound, old_eq]
    cases newDecoded : new.content.isDecoded with
    | true => exact Nat.sub_le _ _
    | false =>
        have undecoded := fewer newDecoded
        have counted : 0 < state.undecodedCount :=
          List.countP_pos_iff.mpr ⟨old, List.mem_of_getElem? isOld, by rw [undecoded]; rfl⟩
        rw [undecoded]
        exact Nat.le_of_eq (Nat.sub_add_cancel counted)
  cases event with
  | lookup position =>
      cases stepped
      cases found : state.cache.entry? position with
      | some entry =>
          unfold SharedCache.lookup undecodedCount
          rw [found]
          exact Nat.le_succ _
      | none => exact Nat.le_of_eq (undecodedCount_lookup_of_not_found found)
  | start caller =>
      obtain ⟨call, slot, -, isSlot, -, empty, rfl⟩ := of_start stepped
      exact set_le isSlot fun _ => by rw [empty]; rfl
  | finish caller tile =>
      obtain ⟨call, slot, -, isSlot, -, rfl⟩ := of_finish stepped
      exact set_le isSlot fun decoded => by cases decoded
  | collect caller =>
      obtain ⟨call, slot, tile, -, -, -, -, rfl⟩ := of_collect stepped
      exact Nat.le_refl _

/-- No more tiles are held than there may be, than were held before, or than are looked up
while slots are without a result. -/
theorem Sound.residentCount_run_le
    {events : List Event}
    {bound : Nat}
    (sound : state.Sound)
    (reached : state.run events = some next)
    (capacity_le : state.cache.capacity ≤ bound)
    (resident_le : state.cache.residentCount ≤ bound)
    (undecoded_le : state.undecodedCount + events.countP Event.isLookup ≤ bound) :
    next.cache.capacity = state.cache.capacity ∧ next.cache.residentCount ≤ bound := by
  induction events generalizing state with
  | nil =>
      cases reached
      exact ⟨rfl, resident_le⟩
  | cons event events inductionHypothesis =>
      rw [run_cons, Option.bind_eq_some_iff] at reached
      obtain ⟨middle, stepped, reached⟩ := reached
      have undecodedNext := undecodedCount_step stepped
      have capacity_eq := capacity_step stepped
      rw [List.countP_cons] at undecoded_le
      rw [← capacity_eq] at capacity_le ⊢
      refine inductionHypothesis (sound.step stepped) reached capacity_le ?_ (by omega)
      cases isLookup : event.isLookup with
      | false =>
          rw [residentCount_step stepped isLookup]
          exact resident_le
      | true =>
          cases event with
          | lookup position =>
              cases stepped
              rw [capacity_eq] at capacity_le
              rw [if_pos isLookup] at undecoded_le
              rw [sound.residentCount_lookup position]
              split
              next => exact resident_le
              next =>
                exact Nat.max_le.mpr
                  ⟨Nat.le_trans (Nat.min_le_right _ _) capacity_le, by omega⟩
          | start caller => cases isLookup
          | finish caller tile => cases isLookup
          | collect caller => cases isLookup

end SharedCache
end DeepShadow
