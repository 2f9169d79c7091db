import DeepShadow.Proofs.Cache.Eviction

/-!
# A cache shared by several callers

A call finds or enters its entry in one step, and from then on holds the slot of this
entry, whether the entry stays in the cache or not.  Some call that holds a slot with
nothing in it loads the tile; all others that hold the slot wait for the result.  Each
of these steps may come between any two steps of other calls.

The entries of the cache show the slots: a slot without a result is always shown, and of
several slots of one position only the newest one is.
-/

namespace DeepShadow

/-- What is in a slot. -/
inductive Content
  | empty
  /-- Some call loads the tile. -/
  | loading
  /-- The result of the load, none where it failed. -/
  | decoded (tile : Option Tile)
deriving DecidableEq, Repr

namespace Content

/-- What the entry of a slot shows of it. -/
def shown : Content -> Slot
  | .empty => .pending
  | .loading => .pending
  | .decoded tile => .settled tile

/-- Whether the load has come to an end. -/
def isDecoded : Content -> Bool
  | .empty => false
  | .loading => false
  | .decoded _ => true

@[simp] theorem isDecoded_empty : empty.isDecoded = false := rfl

@[simp] theorem isDecoded_loading : loading.isDecoded = false := rfl

@[simp] theorem isDecoded_decoded (tile : Option Tile) : (decoded tile).isDecoded = true := rfl

theorem shown_eq_pending_iff {content : Content} :
    content.shown = .pending ↔ content.isDecoded = false := by
  cases content <;> simp [shown, isDecoded]

end Content

/-- A slot that is shared by the entry of a tile and the calls that found it. -/
structure SharedSlot where
  position : TilePosition
  content : Content
deriving DecidableEq, Repr

/-- How far a call has come. -/
inductive Stage
  /-- It holds its slot. -/
  | holding
  /-- It loads the tile of its slot. -/
  | loading
  | answered (tile : Option Tile)
deriving DecidableEq, Repr

/-- A call for a tile behind its lookup. -/
structure Call where
  position : TilePosition
  /-- The number of its slot, which is that of the miss that entered it. -/
  ticket : Nat
  stage : Stage
deriving DecidableEq, Repr

/-- A load that has come to an end. -/
structure Load where
  ticket : Nat
  position : TilePosition
  tile : Option Tile
deriving DecidableEq, Repr

/-- A cache with the slots of all its misses, and with the calls and the loads so
far. -/
structure SharedCache where
  cache : Cache
  slots : List SharedSlot
  calls : List Call
  loads : List Load

/-- A step of one of the callers. -/
inductive Event
  /-- A new call finds or enters its entry. -/
  | lookup (position : TilePosition)
  /-- A call begins to load the tile of its slot. -/
  | start (caller : Nat)
  /-- The load of a call comes to an end. -/
  | finish (caller : Nat) (tile : Option Tile)
  /-- A call takes what is in its slot. -/
  | collect (caller : Nat)
deriving DecidableEq, Repr

/-- Whether the step is a lookup. -/
def Event.isLookup : Event -> Bool
  | .lookup _ => true
  | _ => false

namespace SharedCache

/-- A cache without callers. -/
def ofCache (cache : Cache) : SharedCache := ⟨cache, [], [], []⟩

/-- The state behind the lookup of a new call. -/
def lookup (state : SharedCache) (position : TilePosition) : SharedCache :=
  let (entry, _, cache) := state.cache.lookup position
  { state with
    cache
    slots :=
      match state.cache.entry? position with
      | some _ => state.slots
      | none => state.slots ++ [⟨position, .empty⟩]
    calls := state.calls ++ [⟨position, entry.ticket, .holding⟩] }

/-- The state with a call at another stage. -/
def setStage (state : SharedCache) (caller : Nat) (call : Call) (stage : Stage) : SharedCache :=
  { state with calls := state.calls.set caller { call with stage } }

/-- The state with another content of the slot that a call holds. -/
def setContent (state : SharedCache) (call : Call) (slot : SharedSlot) (content : Content) :
    SharedCache :=
  { state with slots := state.slots.set call.ticket { slot with content } }

/-- The state behind the end of the load of a call. -/
def record (state : SharedCache) (call : Call) (tile : Option Tile) : SharedCache :=
  { state with
    cache := state.cache.settle call.ticket tile
    loads := state.loads ++ [⟨call.ticket, call.position, tile⟩] }

@[simp] theorem loads_setContent
    (state : SharedCache)
    (call : Call)
    (slot : SharedSlot)
    (content : Content) :
    (state.setContent call slot content).loads = state.loads := rfl

@[simp] theorem loads_record
    (state : SharedCache)
    (call : Call)
    (tile : Option Tile) :
    (state.record call tile).loads =
      state.loads ++ [⟨call.ticket, call.position, tile⟩] := rfl

/-- The state behind a step; none where the caller cannot take it. -/
def step (state : SharedCache) : Event -> Option SharedCache
  | .lookup position => some (state.lookup position)
  | .start caller => do
      let call ← state.calls[caller]?
      let slot ← state.slots[call.ticket]?
      if call.stage = .holding ∧ slot.content = .empty then
        some ((state.setContent call slot .loading).setStage caller call .loading)
      else none
  | .finish caller tile => do
      let call ← state.calls[caller]?
      let slot ← state.slots[call.ticket]?
      if call.stage = .loading then
        some (((state.setContent call slot (.decoded tile)).record call tile).setStage caller call
          (.answered tile))
      else none
  | .collect caller => do
      let call ← state.calls[caller]?
      let slot ← state.slots[call.ticket]?
      match call.stage, slot.content with
      | .holding, .decoded tile => some (state.setStage caller call (.answered tile))
      | _, _ => none

/-- The state behind several steps. -/
def run (state : SharedCache) (events : List Event) : Option SharedCache :=
  events.foldlM step state

/-- The number of slots without a result. -/
def undecodedCount (state : SharedCache) : Nat :=
  state.slots.countP fun slot => !slot.content.isDecoded

end SharedCache

/-! ## What the entries show -/

/-- Replacing what stands at a place changes nothing elsewhere. -/
theorem getElem?_set_of_getElem?
    {α : Type}
    {list : List α}
    {place : Nat}
    {old : α}
    (isOld : list[place]? = some old)
    (new : α)
    (other : Nat) :
    (list.set place new)[other]? = if place = other then some new else list[other]? := by
  rw [List.getElem?_set, if_pos (List.getElem?_eq_some_iff.mp isOld).1]

namespace Cache

/-- The entries of a cache show slots that are numbered by their misses. -/
structure Shows (cache : Cache) (slots : List SharedSlot) : Prop where
  slotCount : slots.length = cache.counters.misses
  distinct : (cache.entries.map CacheEntry.position).Nodup
  entry : ∀ entry ∈ cache.entries, ∃ slot, slots[entry.ticket]? = some slot ∧
    slot.position = entry.position ∧ entry.slot = slot.content.shown
  newest : ∀ entry ∈ cache.entries, ∀ (ticket : Nat) (slot : SharedSlot),
    slots[ticket]? = some slot ->
    slot.position = entry.position -> ticket ≤ entry.ticket
  undecoded : ∀ (ticket : Nat) (slot : SharedSlot), slots[ticket]? = some slot ->
    slot.content.isDecoded = false ->
    ∃ entry ∈ cache.entries, entry.ticket = ticket
  misses : cache.counters.misses = cache.counters.evictions + cache.entries.length
  decodes : cache.counters.decodes + cache.counters.failures +
    (slots.countP fun slot => !slot.content.isDecoded) = cache.counters.misses

variable {cache : Cache} {slots : List SharedSlot} {position : TilePosition}
  {entry : CacheEntry} {ticket : Nat} {slot : SharedSlot}

theorem shows_ofCapacity {capacity : Nat} (made : ofCapacity capacity = .ok cache) :
    cache.Shows [] := by
  rw [ofCapacity] at made
  split at made
  next positive =>
    cases made
    refine ⟨rfl, List.nodup_nil, ?_, ?_, ?_, rfl, rfl⟩
    · intro entry isEntry
      cases isEntry
    · intro entry isEntry
      cases isEntry
    · intro ticket slot isSlot
      cases isSlot
  next => cases made

/-- A lookup that finds its entry leaves what the entries show. -/
theorem Shows.lookup_of_found
    (shows : cache.Shows slots)
    (found : cache.entry? position = some entry) :
    (cache.lookup position).2.2.Shows slots := by
  rw [Cache.lookup_of_found found]
  refine ⟨shows.slotCount, ?_, ?_, ?_, ?_, ?_, shows.decodes⟩
  · simpa using shows.distinct
  · intro other isOther
    obtain ⟨original, isOriginal, rfl⟩ := List.mem_map.mp isOther
    simpa using shows.entry original isOriginal
  · intro other isOther
    obtain ⟨original, isOriginal, rfl⟩ := List.mem_map.mp isOther
    simpa using shows.newest original isOriginal
  · intro ticket slot isSlot undecoded
    obtain ⟨other, isOther, rfl⟩ := shows.undecoded ticket slot isSlot undecoded
    exact ⟨_, List.mem_map_of_mem isOther, CacheEntry.ticket_touch _ _ other⟩
  · rw [List.length_map]
    exact shows.misses

/-- A lookup that does not find an entry makes the newest slot of its position, and
evicts no entry whose slot is without a result. -/
theorem Shows.lookup_of_not_found
    (shows : cache.Shows slots)
    (missing : cache.entry? position = none) :
    (cache.lookup position).2.2.Shows (slots ++ [⟨position, .empty⟩]) := by
  have perm := makeRoom_perm shows.distinct missing
  have notHeld := entry?_eq_none_iff.mp missing
  have ticket_lt {other : CacheEntry} (isOther : other ∈ cache.entries) :
      other.ticket < slots.length := by
    obtain ⟨slot, isSlot, -⟩ := shows.entry other isOther
    exact (List.getElem?_eq_some_iff.mp isSlot).1
  have newTicket : (cache.newEntry position).ticket = slots.length := shows.slotCount.symm
  rw [Cache.lookup_of_not_found missing]
  refine ⟨?_, ?_, ?_, ?_, ?_, ?_, ?_⟩
  · simp [shows.slotCount]
  · exact (nodup_newEntry shows.distinct missing).sublist
      ((evict_sublist _ _ _).map CacheEntry.position)
  · intro other isLeft
    rcases mem_of_mem_makeRoom isLeft with rfl | isOther
    · exact ⟨⟨position, .empty⟩, by rw [newTicket, List.getElem?_concat_length], rfl, rfl⟩
    · obtain ⟨slot, isSlot, rest⟩ := shows.entry other isOther
      exact ⟨slot, by rwa [List.getElem?_append_left (ticket_lt isOther)], rest⟩
  · intro other isLeft ticket slot isSlot position_eq
    rcases mem_of_mem_makeRoom isLeft with rfl | isOther
    · have bound := (List.getElem?_eq_some_iff.mp isSlot).1
      rw [List.length_append, List.length_singleton] at bound
      rw [newTicket]
      exact Nat.le_of_lt_succ bound
    · rcases Nat.lt_or_ge ticket slots.length with old | new
      · rw [List.getElem?_append_left old] at isSlot
        exact shows.newest other isOther ticket slot isSlot position_eq
      · -- The new slot has a position that no entry had.
        rw [List.getElem?_append_right new, List.getElem?_singleton] at isSlot
        split at isSlot
        next =>
          cases isSlot
          exact absurd (List.mem_map.mpr ⟨other, isOther, position_eq.symm⟩) notHeld
        next => cases isSlot
  · intro ticket slot isSlot undecoded
    rcases Nat.lt_or_ge ticket slots.length with old | new
    · rw [List.getElem?_append_left old] at isSlot
      obtain ⟨other, isOther, rfl⟩ := shows.undecoded ticket slot isSlot undecoded
      obtain ⟨shownSlot, isShown, -, shown_eq⟩ := shows.entry other isOther
      rw [isSlot] at isShown
      cases isShown
      have isEither := perm.mem_iff.mpr (List.mem_cons_of_mem _ isOther)
      rcases List.mem_append.mp isEither with isVictim | isLeft
      · have settled := (of_mem_evict isVictim).2
        rw [shown_eq, Content.shown_eq_pending_iff.mpr undecoded] at settled
        cases settled
      · exact ⟨other, isLeft, rfl⟩
    · have bound := (List.getElem?_eq_some_iff.mp isSlot).1
      rw [List.length_append, List.length_singleton] at bound
      exact ⟨_, newEntry_mem_makeRoom shows.distinct missing, by omega⟩
  · have counted := perm.length_eq
    have misses := shows.misses
    simp only [List.length_append, List.length_cons] at counted
    simp only
    omega
  · have decodes := shows.decodes
    simp only [List.countP_append, List.countP_singleton, Content.isDecoded_empty, Bool.not_false,
      if_true]
    omega

/-- A slot whose load begins is shown as before. -/
theorem Shows.start
    (shows : cache.Shows slots)
    (isSlot : slots[ticket]? = some slot)
    (empty : slot.content = .empty) :
    cache.Shows (slots.set ticket { slot with content := .loading }) := by
  have set_eq := getElem?_set_of_getElem? isSlot { slot with content := .loading }
  obtain ⟨bound, slot_eq⟩ := List.getElem?_eq_some_iff.mp isSlot
  refine ⟨?_, shows.distinct, ?_, ?_, ?_, shows.misses, ?_⟩
  · rw [List.length_set, shows.slotCount]
  · intro entry isEntry
    obtain ⟨shownSlot, isShown, position_eq, shown_eq⟩ := shows.entry entry isEntry
    rw [set_eq]
    split
    next same =>
      rw [← same, isSlot] at isShown
      cases isShown
      rw [empty] at shown_eq
      exact ⟨_, rfl, position_eq, shown_eq⟩
    next => exact ⟨shownSlot, isShown, position_eq, shown_eq⟩
  · intro entry isEntry other otherSlot isOther position_eq
    rw [set_eq] at isOther
    split at isOther
    next same =>
      cases isOther
      exact same ▸ shows.newest entry isEntry ticket slot isSlot position_eq
    next => exact shows.newest entry isEntry other otherSlot isOther position_eq
  · intro other otherSlot isOther undecoded
    rw [set_eq] at isOther
    split at isOther
    next same => exact same ▸ shows.undecoded ticket slot isSlot (by rw [empty]; rfl)
    next => exact shows.undecoded other otherSlot isOther undecoded
  · have decodes := shows.decodes
    have some : 0 < slots.countP fun slot => !slot.content.isDecoded :=
      List.countP_pos_iff.mpr ⟨slot, List.mem_of_getElem? isSlot, by rw [empty]; rfl⟩
    rw [List.countP_set bound, slot_eq, empty]
    simp only [Content.isDecoded_empty, Content.isDecoded_loading, Bool.not_false, if_true]
    omega

/-- The result of a load is shown in the entry of its slot, where it is still there. -/
theorem Shows.settle
    (shows : cache.Shows slots)
    (isSlot : slots[ticket]? = some slot)
    (undecoded : slot.content.isDecoded = false)
    (tile : Option Tile) :
    (cache.settle ticket tile).Shows
      (slots.set ticket { slot with content := .decoded tile }) := by
  have set_eq := getElem?_set_of_getElem? isSlot { slot with content := .decoded tile }
  obtain ⟨bound, slot_eq⟩ := List.getElem?_eq_some_iff.mp isSlot
  obtain ⟨-, misses_eq, evictions_eq, decodes_eq⟩ := counters_settle cache ticket tile
  refine ⟨?_, ?_, ?_, ?_, ?_, ?_, ?_⟩
  · rw [List.length_set, misses_eq, shows.slotCount]
  · simpa [Cache.settle] using shows.distinct
  · intro entry isEntry
    obtain ⟨original, isOriginal, rfl⟩ := List.mem_map.mp isEntry
    obtain ⟨shownSlot, isShown, shownPosition, shown_eq⟩ := shows.entry original isOriginal
    rw [CacheEntry.ticket_settle, CacheEntry.position_settle, CacheEntry.slot_settle, set_eq]
    by_cases same : ticket = original.ticket
    · rw [← same, isSlot] at isShown
      cases isShown
      rw [if_pos same, if_pos same.symm]
      exact ⟨_, rfl, shownPosition, rfl⟩
    · rw [if_neg same, if_neg (Ne.symm same)]
      exact ⟨shownSlot, isShown, shownPosition, shown_eq⟩
  · intro entry isEntry other otherSlot isOther otherPosition
    obtain ⟨original, isOriginal, rfl⟩ := List.mem_map.mp isEntry
    rw [CacheEntry.ticket_settle]
    rw [CacheEntry.position_settle] at otherPosition
    rw [set_eq] at isOther
    split at isOther
    next same =>
      cases isOther
      exact same ▸ shows.newest original isOriginal ticket slot isSlot otherPosition
    next => exact shows.newest original isOriginal other otherSlot isOther otherPosition
  · intro other otherSlot isOther otherUndecoded
    rw [set_eq] at isOther
    split at isOther
    next =>
      cases isOther
      cases otherUndecoded
    next different =>
      obtain ⟨original, isOriginal, rfl⟩ := shows.undecoded other otherSlot isOther otherUndecoded
      refine ⟨original, ?_, rfl⟩
      exact List.mem_map.mpr ⟨original, isOriginal, if_neg (Ne.symm different)⟩
  · have misses := shows.misses
    rw [misses_eq, evictions_eq]
    simpa [Cache.settle] using misses
  · have decodes := shows.decodes
    have some : 0 < slots.countP fun slot => !slot.content.isDecoded :=
      List.countP_pos_iff.mpr ⟨slot, List.mem_of_getElem? isSlot, by rw [undecoded]; rfl⟩
    rw [decodes_eq, misses_eq, List.countP_set bound, slot_eq, undecoded]
    simp only [Content.isDecoded_decoded, Bool.not_false, Bool.not_true, if_true,
      Bool.false_eq_true, if_false]
    omega

end Cache
end DeepShadow
