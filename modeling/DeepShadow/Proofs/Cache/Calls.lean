import DeepShadow.Proofs.Cache.Sharing

/-!
# The calls of a shared cache

A call holds a slot of the position that it asked for, and its stage fits what is in
the slot: a slot is loaded by one call only, and all calls that are answered have the
result that came into it.  Every step keeps this, and so does every run.
-/

namespace DeepShadow

/-- A call may be at a stage while a content is in its slot. -/
def Stage.Fits : Stage -> Content -> Prop
  | .holding, _ => True
  | .loading, content => content = .loading
  | .answered tile, content => content = .decoded tile

namespace SharedCache

/-! ## Steps that are taken -/

variable {state next : SharedCache} {caller : Nat} {tile : Option Tile}

theorem of_start (stepped : state.step (.start caller) = some next) :
    ∃ call slot, state.calls[caller]? = some call ∧ state.slots[call.ticket]? = some slot ∧
      call.stage = .holding ∧ slot.content = .empty ∧
      next = (state.setContent call slot .loading).setStage caller call .loading := by
  simp only [step, Option.bind_eq_bind, Option.bind_eq_some_iff] at stepped
  obtain ⟨call, isCall, slot, isSlot, stepped⟩ := stepped
  split at stepped
  next guard =>
    cases stepped
    exact ⟨call, slot, isCall, isSlot, guard.1, guard.2, rfl⟩
  next => cases stepped

theorem of_finish (stepped : state.step (.finish caller tile) = some next) :
    ∃ call slot, state.calls[caller]? = some call ∧ state.slots[call.ticket]? = some slot ∧
      call.stage = .loading ∧
      next = ((state.setContent call slot (.decoded tile)).record call tile).setStage caller call
        (.answered tile) := by
  simp only [step, Option.bind_eq_bind, Option.bind_eq_some_iff] at stepped
  obtain ⟨call, isCall, slot, isSlot, stepped⟩ := stepped
  split at stepped
  next guard =>
    cases stepped
    exact ⟨call, slot, isCall, isSlot, guard, rfl⟩
  next => cases stepped

theorem of_collect (stepped : state.step (.collect caller) = some next) :
    ∃ call slot tile, state.calls[caller]? = some call ∧
      state.slots[call.ticket]? = some slot ∧ call.stage = .holding ∧
      slot.content = .decoded tile ∧ next = state.setStage caller call (.answered tile) := by
  simp only [step, Option.bind_eq_bind, Option.bind_eq_some_iff] at stepped
  obtain ⟨call, isCall, slot, isSlot, stepped⟩ := stepped
  split at stepped
  next tile holds decoded =>
    cases stepped
    exact ⟨call, slot, tile, isCall, isSlot, holds, decoded, rfl⟩
  next => cases stepped

/-! ## What holds between two steps -/

/-- The loads there are of a slot. -/
def loadsOf (state : SharedCache) (ticket : Nat) : List Load :=
  state.loads.filter fun load => load.ticket = ticket

/-- The loads there have to be of a slot. -/
def expectedLoads (ticket : Nat) : Option SharedSlot -> List Load
  | some ⟨position, .decoded tile⟩ => [⟨ticket, position, tile⟩]
  | _ => []

/-- What holds between any two steps. -/
structure Sound (state : SharedCache) : Prop where
  shows : state.cache.Shows state.slots
  holds : ∀ (caller : Nat) (call : Call), state.calls[caller]? = some call ->
    ∃ slot, state.slots[call.ticket]? = some slot ∧ slot.position = call.position ∧
      call.stage.Fits slot.content
  alone : ∀ (first second : Nat) (call other : Call), state.calls[first]? = some call ->
    state.calls[second]? = some other -> call.stage = .loading -> other.stage = .loading ->
      call.ticket = other.ticket -> first = second
  loader : ∀ (ticket : Nat) (slot : SharedSlot), state.slots[ticket]? = some slot ->
    slot.content = .loading ->
    ∃ (caller : Nat) (call : Call), state.calls[caller]? = some call ∧ call.ticket = ticket ∧
      call.stage = .loading
  loads : ∀ ticket : Nat, state.loadsOf ticket = expectedLoads ticket state.slots[ticket]?
  lookups : state.cache.counters.hits + state.cache.counters.misses = state.calls.length

theorem sound_ofCache
    {capacity : Nat}
    {cache : Cache}
    (made : Cache.ofCapacity capacity = .ok cache) :
    (ofCache cache).Sound := by
  have shows := Cache.shows_ofCapacity made
  refine ⟨shows, ?_, ?_, ?_, fun _ => rfl, ?_⟩
  · intro caller call isCall
    cases isCall
  · intro first second call other isCall
    cases isCall
  · intro ticket slot isSlot
    cases isSlot
  · rw [Cache.ofCapacity] at made
    split at made
    · cases made
      rfl
    · cases made

/-- A new call for a slot that is there. -/
theorem Sound.addCall
    {cache : Cache}
    {slots : List SharedSlot}
    {call : Call}
    {slot : SharedSlot}
    (sound : state.Sound)
    (shows : cache.Shows slots)
    (kept : ∀ (ticket : Nat) (slot : SharedSlot), state.slots[ticket]? = some slot ->
      slots[ticket]? = some slot)
    (empty : ∀ (ticket : Nat) (slot : SharedSlot), slots[ticket]? = some slot ->
      state.slots[ticket]? = some slot ∨ state.slots[ticket]? = none ∧ slot.content = .empty)
    (isSlot : slots[call.ticket]? = some slot)
    (position_eq : slot.position = call.position)
    (holding : call.stage = .holding)
    (counted : cache.counters.hits + cache.counters.misses =
      state.cache.counters.hits + state.cache.counters.misses + 1) :
    SharedCache.Sound { state with cache, slots, calls := state.calls ++ [call] } := by
  have old_of_loading {caller : Nat} {other : Call}
      (isCall : (state.calls ++ [call])[caller]? = some other)
      (loading : other.stage = .loading) : state.calls[caller]? = some other := by
    rw [List.getElem?_append] at isCall
    split at isCall
    next => exact isCall
    next =>
      rw [List.getElem?_singleton] at isCall
      split at isCall
      next =>
        cases isCall
        rw [holding] at loading
        cases loading
      next => cases isCall
  refine ⟨shows, ?_, ?_, ?_, ?_, ?_⟩
  · intro caller other isCall
    rw [List.getElem?_append] at isCall
    split at isCall
    next =>
      obtain ⟨otherSlot, isOther, rest⟩ := sound.holds caller other isCall
      exact ⟨otherSlot, kept _ _ isOther, rest⟩
    next =>
      rw [List.getElem?_singleton] at isCall
      split at isCall
      next =>
        cases isCall
        rw [holding]
        exact ⟨slot, isSlot, position_eq, trivial⟩
      next => cases isCall
  · intro first second one other isFirst isSecond oneLoads otherLoads
    exact sound.alone first second one other (old_of_loading isFirst oneLoads)
      (old_of_loading isSecond otherLoads) oneLoads otherLoads
  · intro ticket otherSlot isOther loading
    rcases empty ticket otherSlot isOther with old | ⟨-, isEmpty⟩
    · obtain ⟨caller, loaderCall, isCall, rest⟩ := sound.loader ticket otherSlot old loading
      have bound := (List.getElem?_eq_some_iff.mp isCall).1
      exact ⟨caller, loaderCall, by rwa [List.getElem?_append_left bound], rest⟩
    · rw [isEmpty] at loading
      cases loading
  · intro ticket
    have old := sound.loads ticket
    rw [loadsOf] at old ⊢
    rw [old]
    cases isOther : slots[ticket]? with
    | none =>
        cases isOld : state.slots[ticket]? with
        | none => rfl
        | some oldSlot =>
            rw [kept ticket oldSlot isOld] at isOther
            cases isOther
    | some otherSlot =>
        rcases empty ticket otherSlot isOther with isOld | ⟨isOld, isEmpty⟩
        · rw [isOld]
        · obtain ⟨position, content⟩ := otherSlot
          cases isEmpty
          rw [isOld]
          rfl
  · rw [List.length_append, List.length_singleton, ← sound.lookups]
    exact counted

theorem Sound.lookup
    (sound : state.Sound)
    (position : TilePosition) :
    (state.lookup position).Sound := by
  rw [SharedCache.lookup]
  cases found : state.cache.entry? position with
  | some entry =>
      obtain ⟨isEntry, rfl⟩ := Cache.of_entry?_eq_some found
      obtain ⟨slot, isSlot, position_eq, -⟩ := sound.shows.entry entry isEntry
      have shows := sound.shows.lookup_of_found found
      rw [Cache.lookup_of_found found] at shows ⊢
      rw [← CacheEntry.ticket_touch entry.position (state.cache.clock + 1)] at isSlot
      apply sound.addCall shows (fun _ _ isOld => isOld) (fun _ _ isOld => Or.inl isOld) isSlot
        position_eq rfl
      exact Nat.add_right_comm _ _ _
  | none =>
      have shows := sound.shows.lookup_of_not_found found
      rw [Cache.lookup_of_not_found found] at shows ⊢
      have ticket_eq : (state.cache.newEntry position).ticket = state.slots.length :=
        sound.shows.slotCount.symm
      have isSlot : (state.slots ++ [⟨position, .empty⟩])[(state.cache.newEntry position).ticket]? =
          some ⟨position, .empty⟩ := by
        rw [ticket_eq, List.getElem?_concat_length]
      apply sound.addCall shows _ _ isSlot rfl rfl rfl
      · intro ticket slot isOld
        rw [List.getElem?_append_left (List.getElem?_eq_some_iff.mp isOld).1]
        exact isOld
      · intro ticket slot isNew
        rw [List.getElem?_append] at isNew
        split at isNew
        next => exact Or.inl isNew
        next notOld =>
          rw [List.getElem?_singleton] at isNew
          split at isNew
          next =>
            cases isNew
            exact Or.inr ⟨List.getElem?_eq_none (Nat.not_lt.mp notOld), rfl⟩
          next => cases isNew

section Moves

variable {call : Call} {slot : SharedSlot}

/-- A slot has the position that the calls holding it asked for. -/
theorem Sound.position_eq
    (sound : state.Sound)
    (isCall : state.calls[caller]? = some call)
    (isSlot : state.slots[call.ticket]? = some slot) :
    slot.position = call.position := by
  obtain ⟨ownSlot, isOwn, own_eq, -⟩ := sound.holds caller call isCall
  rw [isSlot] at isOwn
  cases isOwn
  exact own_eq

/-- The stage of a call fits what is in its slot. -/
theorem Sound.fits
    {ticket : Nat}
    (sound : state.Sound)
    (isCall : state.calls[caller]? = some call)
    (same : call.ticket = ticket)
    (isSlot : state.slots[ticket]? = some slot) :
    call.stage.Fits slot.content := by
  obtain ⟨ownSlot, isOwn, -, fits⟩ := sound.holds caller call isCall
  rw [same, isSlot] at isOwn
  cases isOwn
  exact fits

/-- A call comes to another stage, and another content may come into its slot. -/
theorem Sound.move
    (sound : state.Sound)
    (isCall : state.calls[caller]? = some call)
    (isSlot : state.slots[call.ticket]? = some slot)
    {cache : Cache}
    {content : Content}
    {stage : Stage}
    {loads : List Load}
    (shows : cache.Shows (state.slots.set call.ticket { slot with content }))
    (fits : stage.Fits content)
    (loaded : content = .loading -> stage = .loading)
    (others : ∀ (other : Nat) (otherCall : Call), other ≠ caller ->
      state.calls[other]? = some otherCall -> otherCall.ticket = call.ticket ->
        otherCall.stage.Fits content ∧ (stage = .loading -> otherCall.stage ≠ .loading))
    (recorded : ∀ ticket : Nat, (loads.filter fun load => load.ticket = ticket) =
      expectedLoads ticket (state.slots.set call.ticket { slot with content })[ticket]?)
    (counted : cache.counters.hits + cache.counters.misses =
      state.cache.counters.hits + state.cache.counters.misses) :
    SharedCache.Sound
      ⟨cache, state.slots.set call.ticket { slot with content },
        state.calls.set caller { call with stage }, loads⟩ := by
  have slot_eq := getElem?_set_of_getElem? isSlot { slot with content }
  have call_eq := getElem?_set_of_getElem? isCall { call with stage }
  have position_eq := sound.position_eq isCall isSlot
  refine ⟨shows, ?_, ?_, ?_, recorded, ?_⟩
  · intro other otherCall isOther
    rw [call_eq] at isOther
    split at isOther
    next =>
      cases isOther
      exact ⟨{ slot with content }, by rw [slot_eq, if_pos rfl], position_eq, fits⟩
    next different =>
      obtain ⟨otherSlot, isOtherSlot, otherPosition, otherFits⟩ :=
        sound.holds other otherCall isOther
      rw [slot_eq]
      split
      next same =>
        rw [← same, isSlot] at isOtherSlot
        cases isOtherSlot
        exact ⟨_, rfl, otherPosition,
          (others other otherCall (Ne.symm different) isOther same.symm).1⟩
      next => exact ⟨otherSlot, isOtherSlot, otherPosition, otherFits⟩
  · intro first second one two isOne isTwo oneLoads twoLoads sameTicket
    rw [call_eq] at isOne isTwo
    split at isOne
    next isFirst =>
      split at isTwo
      next isSecond => exact isFirst.symm.trans isSecond
      next different =>
        cases isOne
        exact absurd twoLoads ((others second two (Ne.symm different) isTwo sameTicket.symm).2
          oneLoads)
    next different =>
      split at isTwo
      next =>
        cases isTwo
        exact absurd oneLoads ((others first one (Ne.symm different) isOne sameTicket).2 twoLoads)
      next => exact sound.alone first second one two isOne isTwo oneLoads twoLoads sameTicket
  · intro ticket otherSlot isOther loading
    rw [slot_eq] at isOther
    split at isOther
    next same =>
      cases isOther
      exact ⟨caller, { call with stage }, by rw [call_eq, if_pos rfl], same, loaded loading⟩
    next different =>
      obtain ⟨other, otherCall, isOtherCall, ticket_eq, otherLoads⟩ :=
        sound.loader ticket otherSlot isOther loading
      have notCaller : caller ≠ other := by
        rintro rfl
        rw [isCall] at isOtherCall
        cases isOtherCall
        exact different ticket_eq
      exact ⟨other, otherCall, by rwa [call_eq, if_neg notCaller], ticket_eq, otherLoads⟩
  · rw [List.length_set, counted]
    exact sound.lookups

/-- A content without a result makes no load. -/
theorem expectedLoads_eq_nil
    {content : Content}
    (undecoded : content.isDecoded = false)
    (ticket : Nat)
    (position : TilePosition) :
    expectedLoads ticket (some ⟨position, content⟩) = [] := by
  cases content with
  | decoded tile => cases undecoded
  | empty => rfl
  | loading => rfl

variable (sound : state.Sound) (isCall : state.calls[caller]? = some call)
  (isSlot : state.slots[call.ticket]? = some slot)

include sound isCall isSlot

theorem Sound.start
    (empty : slot.content = .empty) :
    ((state.setContent call slot .loading).setStage caller call .loading).Sound := by
  have fits : Stage.Fits .loading .loading := rfl
  apply sound.move isCall isSlot (sound.shows.start isSlot empty) fits (fun _ => rfl) _ _ rfl
  · intro other otherCall _ isOther same
    have otherFits := sound.fits isOther same isSlot
    rw [empty] at otherFits
    -- With nothing in the slot, all its calls wait.
    cases stage_eq : otherCall.stage with
    | holding => exact ⟨trivial, fun _ => Stage.noConfusion⟩
    | loading =>
        rw [stage_eq] at otherFits
        cases otherFits
    | answered tile =>
        rw [stage_eq] at otherFits
        cases otherFits
  · intro ticket
    have old := sound.loads ticket
    rw [loadsOf] at old
    rw [getElem?_set_of_getElem? isSlot, loads_setContent, old]
    split
    next same =>
      have undecoded : slot.content.isDecoded = false := by rw [empty]; rfl
      rw [← same, isSlot]
      exact (expectedLoads_eq_nil undecoded _ _).trans (expectedLoads_eq_nil rfl _ _).symm
    next => rfl

theorem Sound.finish
    (loading : call.stage = .loading)
    (tile : Option Tile) :
    (((state.setContent call slot (.decoded tile)).record call tile).setStage caller call
      (.answered tile)).Sound := by
  have content_eq : slot.content = .loading := by
    have ownFits := sound.fits isCall rfl isSlot
    rw [loading] at ownFits
    exact ownFits
  have undecoded : slot.content.isDecoded = false := by rw [content_eq]; rfl
  have fits : Stage.Fits (.answered tile) (.decoded tile) := rfl
  obtain ⟨hits_eq, misses_eq, -, -⟩ := Cache.counters_settle state.cache call.ticket tile
  apply sound.move isCall isSlot (sound.shows.settle isSlot undecoded tile) fits
    Content.noConfusion _ _ (by rw [hits_eq, misses_eq])
  · intro other otherCall different isOther same
    have otherFits := sound.fits isOther same isSlot
    rw [content_eq] at otherFits
    -- While the slot is loaded by this call, all others wait.
    cases stage_eq : otherCall.stage with
    | holding => exact ⟨trivial, Stage.noConfusion⟩
    | loading =>
        exact absurd (sound.alone other caller otherCall call isOther isCall stage_eq loading same)
          different
    | answered tile =>
        rw [stage_eq] at otherFits
        cases otherFits
  · intro ticket
    have old := sound.loads ticket
    rw [loadsOf] at old
    rw [getElem?_set_of_getElem? isSlot, loads_record, loads_setContent, List.filter_append, old]
    split
    next same =>
      have none : expectedLoads call.ticket (some slot) = [] :=
        expectedLoads_eq_nil undecoded _ _
      have one : expectedLoads call.ticket (some ⟨call.position, .decoded tile⟩) =
          [⟨call.ticket, call.position, tile⟩] := rfl
      simp [← same, isSlot, none, one, sound.position_eq isCall isSlot]
    next different => simp [different]

theorem Sound.collect
    {tile : Option Tile}
    (decoded : slot.content = .decoded tile) :
    (state.setStage caller call (.answered tile)).Sound := by
  obtain ⟨bound, slot_eq⟩ := List.getElem?_eq_some_iff.mp isSlot
  have slots_eq : state.slots.set call.ticket { slot with content := .decoded tile } =
      state.slots := by
    rw [← decoded, ← slot_eq]
    exact List.set_getElem_self bound
  have shows : state.cache.Shows
      (state.slots.set call.ticket { slot with content := .decoded tile }) := by
    rw [slots_eq]
    exact sound.shows
  have fits : Stage.Fits (.answered tile) (.decoded tile) := rfl
  have recorded : ∀ ticket : Nat, state.loadsOf ticket = expectedLoads ticket
      (state.slots.set call.ticket { slot with content := .decoded tile })[ticket]? := by
    rw [slots_eq]
    exact sound.loads
  have moved := sound.move isCall isSlot shows fits Content.noConfusion
    (fun other otherCall _ isOther same =>
      ⟨decoded ▸ sound.fits isOther same isSlot, Stage.noConfusion⟩) recorded rfl
  rw [slots_eq] at moved
  exact moved

end Moves

/-! ## Whole runs -/

/-- Every step keeps what holds between two steps. -/
theorem Sound.step
    (sound : state.Sound)
    {event : Event}
    (stepped : state.step event = some next) :
    next.Sound := by
  cases event with
  | lookup position =>
      cases stepped
      exact sound.lookup position
  | start caller =>
      obtain ⟨call, slot, isCall, isSlot, -, empty, rfl⟩ := of_start stepped
      exact sound.start isCall isSlot empty
  | finish caller tile =>
      obtain ⟨call, slot, isCall, isSlot, loading, rfl⟩ := of_finish stepped
      exact sound.finish isCall isSlot loading tile
  | collect caller =>
      obtain ⟨call, slot, tile, isCall, isSlot, -, decoded, rfl⟩ := of_collect stepped
      exact sound.collect isCall isSlot decoded

/-- A lookup adds a call, and no other step does. -/
theorem length_calls_step
    {event : Event}
    (stepped : state.step event = some next) :
    next.calls.length = state.calls.length + if event.isLookup then 1 else 0 := by
  cases event with
  | lookup position =>
      cases stepped
      exact List.length_append
  | start caller =>
      obtain ⟨call, slot, -, -, -, -, rfl⟩ := of_start stepped
      exact List.length_set
  | finish caller tile =>
      obtain ⟨call, slot, -, -, -, rfl⟩ := of_finish stepped
      exact List.length_set
  | collect caller =>
      obtain ⟨call, slot, tile, -, -, -, -, rfl⟩ := of_collect stepped
      exact List.length_set

theorem run_cons (state : SharedCache) (event : Event) (events : List Event) :
    state.run (event :: events) = (state.step event).bind fun next => next.run events := rfl

theorem Sound.run
    {events : List Event}
    (sound : state.Sound)
    (reached : state.run events = some next) :
    next.Sound ∧ next.calls.length = state.calls.length + events.countP Event.isLookup := by
  induction events generalizing state with
  | nil =>
      cases reached
      exact ⟨sound, rfl⟩
  | cons event events inductionHypothesis =>
      rw [run_cons, Option.bind_eq_some_iff] at reached
      obtain ⟨middle, stepped, reached⟩ := reached
      obtain ⟨soundNext, length_eq⟩ := inductionHypothesis (sound.step stepped) reached
      refine ⟨soundNext, ?_⟩
      rw [length_eq, length_calls_step stepped, List.countP_cons]
      omega

end SharedCache
end DeepShadow
