import Mathlib.Data.List.Induction
import DeepShadow.Proofs.Cache.Calls

/-!
# The bound of a shared cache

Entries without a result are not evicted, so that a cache has more entries than it may
while many loads are in flight.  The ends of these loads evict nothing: the cache keeps
the entries until a lookup enters another one, and this lookup takes out as many settled
entries as it needs to.
-/

namespace DeepShadow

namespace Cache

variable {cache : Cache} {slots : List SharedSlot} {position keep : TilePosition}
  {entries : List CacheEntry}

/-! ## How many entries are evicted -/

/-- Whether an entry may be evicted while the tile to keep is looked up. -/
def isEvictable (keep : TilePosition) (entry : CacheEntry) : Bool :=
  entry.position ≠ keep && entry.slot.isSettled

/-- As many entries are evicted as are too many, unless there are fewer that may be. -/
theorem length_evict
    (distinct : (entries.map CacheEntry.position).Nodup)
    (keep : TilePosition)
    (excess : Nat) :
    (evict keep excess entries).1.length = min excess (entries.countP (isEvictable keep)) := by
  induction excess generalizing entries with
  | zero => exact (Nat.zero_min _).symm
  | succ excess inductionHypothesis =>
      rw [evict]
      split
      next none =>
        have noVictim : entries.countP (isEvictable keep) = 0 := by
          rw [List.countP_eq_zero]
          intro entry isEntry evictable
          rw [isEvictable, Bool.and_eq_true, decide_eq_true_iff] at evictable
          have pending := victim?_eq_none_iff.mp none entry isEntry evictable.1
          rw [evictable.2] at pending
          cases pending
        rw [noVictim]
        rfl
      next victim evicted =>
        obtain ⟨isEntry, notKept, settled, -⟩ := of_victim?_eq_some evicted
        have evictable : isEvictable keep victim = true := by
          rw [isEvictable, settled, Bool.and_true]
          exact decide_eq_true notKept
        have counted := (perm_of_mem distinct isEntry).countP_eq (isEvictable keep)
        rw [List.countP_cons_of_pos evictable] at counted
        rw [List.length_cons, inductionHypothesis (nodup_filter distinct _), ← counted,
          Nat.succ_min_succ]

/-! ## Entries without a result -/

/-- The numbers of the slots without a result. -/
def undecodedTickets (slots : List SharedSlot) : List Nat :=
  (slots.zipIdx.filter fun slot => !slot.1.content.isDecoded).map Prod.snd

theorem mem_undecodedTickets {ticket : Nat} :
    ticket ∈ undecodedTickets slots ↔
      ∃ slot, slots[ticket]? = some slot ∧ slot.content.isDecoded = false := by
  simp [undecodedTickets, List.mem_zipIdx_iff_getElem?]

theorem nodup_undecodedTickets (slots : List SharedSlot) : (undecodedTickets slots).Nodup := by
  have all : (slots.zipIdx.map Prod.snd).Nodup := by
    rw [List.zipIdx_map_snd]
    exact List.nodup_range'
  exact all.sublist (List.filter_sublist.map Prod.snd)

theorem length_undecodedTickets (slots : List SharedSlot) :
    (undecodedTickets slots).length = slots.countP fun slot => !slot.content.isDecoded := by
  rw [undecodedTickets, List.length_map, ← List.countP_eq_length_filter]
  conv_rhs => rw [← List.zipIdx_map_fst 0 slots, List.countP_map]
  rfl

/-- No two entries show one slot. -/
theorem Shows.eq_of_ticket
    {entry other : CacheEntry}
    (shows : cache.Shows slots)
    (isEntry : entry ∈ cache.entries)
    (isOther : other ∈ cache.entries)
    (same : entry.ticket = other.ticket) :
    entry = other := by
  obtain ⟨slot, isSlot, position_eq, -⟩ := shows.entry entry isEntry
  obtain ⟨otherSlot, isOtherSlot, otherPosition_eq, -⟩ := shows.entry other isOther
  rw [same, isOtherSlot] at isSlot
  cases isSlot
  exact List.inj_on_of_nodup_map shows.distinct isEntry isOther
    (position_eq.symm.trans otherPosition_eq)

/-- The entries without a result show the slots without one. -/
theorem Shows.countP_pending (shows : cache.Shows slots) :
    (cache.entries.countP fun entry => !entry.slot.isSettled) =
      slots.countP fun slot => !slot.content.isDecoded := by
  have perm : ((cache.entries.filter fun entry => !entry.slot.isSettled).map
      CacheEntry.ticket).Perm (undecodedTickets slots) := by
    have distinct : (cache.entries.filter fun entry => !entry.slot.isSettled).Nodup :=
      (shows.distinct.of_map CacheEntry.position).filter _
    have distinctTickets := distinct.map_on fun entry isEntry other isOther =>
      shows.eq_of_ticket (List.mem_of_mem_filter isEntry) (List.mem_of_mem_filter isOther)
    rw [List.perm_ext_iff_of_nodup distinctTickets (nodup_undecodedTickets slots)]
    intro ticket
    rw [mem_undecodedTickets, List.mem_map]
    constructor
    · rintro ⟨entry, isPending, rfl⟩
      obtain ⟨isEntry, pending⟩ := List.mem_filter.mp isPending
      obtain ⟨slot, isSlot, -, shown_eq⟩ := shows.entry entry isEntry
      refine ⟨slot, isSlot, ?_⟩
      rw [shown_eq] at pending
      cases content_eq : slot.content with
      | decoded tile =>
          rw [content_eq] at pending
          cases pending
      | empty => rfl
      | loading => rfl
    · rintro ⟨slot, isSlot, undecoded⟩
      obtain ⟨entry, isEntry, rfl⟩ := shows.undecoded ticket slot isSlot undecoded
      obtain ⟨shownSlot, isShown, -, shown_eq⟩ := shows.entry entry isEntry
      rw [isSlot] at isShown
      cases isShown
      refine ⟨entry, List.mem_filter.mpr ⟨isEntry, ?_⟩, rfl⟩
      rw [shown_eq, Content.shown_eq_pending_iff.mpr undecoded]
      rfl
  rw [List.countP_eq_length_filter, ← List.length_map (f := CacheEntry.ticket), perm.length_eq,
    length_undecodedTickets]

/-- Behind a lookup that enters a slot there are no more entries than there may be, unless
there are as many slots without a result. -/
theorem Shows.residentCount_lookup
    (shows : cache.Shows slots)
    (missing : cache.entry? position = none) :
    (cache.lookup position).2.2.residentCount =
      max (min (cache.residentCount + 1) cache.capacity)
        ((slots.countP fun slot => !slot.content.isDecoded) + 1) := by
  have distinct := nodup_newEntry shows.distinct missing
  have notHeld := entry?_eq_none_iff.mp missing
  have evictable : (cache.newEntry position :: cache.entries).countP (isEvictable position) =
      cache.entries.countP fun entry => entry.slot.isSettled := by
    rw [List.countP_cons_of_neg (by simp [isEvictable, newEntry])]
    apply List.countP_congr
    intro entry isEntry
    have different : entry.position ≠ position := by
      rintro rfl
      exact notHeld (List.mem_map_of_mem isEntry)
    simp [isEvictable, different]
  have evicted := length_evict distinct position
    ((cache.newEntry position :: cache.entries).length - cache.capacity)
  have all := (makeRoom_perm shows.distinct missing).length_eq
  have split := List.length_eq_countP_add_countP (fun entry : CacheEntry => entry.slot.isSettled)
    (l := cache.entries)
  have pending := shows.countP_pending
  have positive := cache.capacity_pos
  rw [evictable, List.length_cons] at evicted
  rw [List.length_append, List.length_cons] at all
  simp only [Bool.not_eq_true, Bool.decide_eq_false] at split
  rw [Cache.lookup_of_not_found missing]
  unfold residentCount
  unfold makeRoom at all ⊢
  simp only [List.length_cons] at all ⊢
  omega

end Cache

namespace SharedCache

variable {state next : SharedCache}

/-! ## What changes the number of entries -/

/-- A lookup enters no slot where it finds one. -/
theorem residentCount_lookup_of_found
    {position : TilePosition}
    {entry : CacheEntry}
    (found : state.cache.entry? position = some entry) :
    (state.lookup position).cache.residentCount = state.cache.residentCount := by
  unfold SharedCache.lookup
  rw [Cache.lookup_of_found found]
  exact List.length_map _

theorem undecodedCount_lookup_of_not_found
    {position : TilePosition}
    (missing : state.cache.entry? position = none) :
    (state.lookup position).undecodedCount = state.undecodedCount + 1 := by
  unfold SharedCache.lookup undecodedCount
  rw [missing]
  simp

/-- Only a lookup changes the number of entries. -/
theorem residentCount_step
    {event : Event}
    (stepped : state.step event = some next)
    (notLookup : event.isLookup = false) :
    next.cache.residentCount = state.cache.residentCount := by
  cases event with
  | lookup position => cases notLookup
  | start caller =>
      obtain ⟨call, slot, -, -, -, -, rfl⟩ := of_start stepped
      rfl
  | finish caller tile =>
      obtain ⟨call, slot, -, -, -, rfl⟩ := of_finish stepped
      exact List.length_map _
  | collect caller =>
      obtain ⟨call, slot, tile, -, -, -, -, rfl⟩ := of_collect stepped
      rfl

theorem capacity_step
    {event : Event}
    (stepped : state.step event = some next) :
    next.cache.capacity = state.cache.capacity := by
  cases event with
  | lookup position =>
      cases stepped
      unfold SharedCache.lookup
      cases found : state.cache.entry? position with
      | some entry => rw [Cache.lookup_of_found found]
      | none => rw [Cache.lookup_of_not_found found]
  | start caller =>
      obtain ⟨call, slot, -, -, -, -, rfl⟩ := of_start stepped
      rfl
  | finish caller tile =>
      obtain ⟨call, slot, -, -, -, rfl⟩ := of_finish stepped
      rfl
  | collect caller =>
      obtain ⟨call, slot, tile, -, -, -, -, rfl⟩ := of_collect stepped
      rfl

/-- The number of entries behind a lookup. -/
theorem Sound.residentCount_lookup
    (sound : state.Sound)
    (position : TilePosition) :
    (state.lookup position).cache.residentCount =
      match state.cache.entry? position with
      | some _ => state.cache.residentCount
      | none =>
          max (min (state.cache.residentCount + 1) state.cache.capacity)
            (state.undecodedCount + 1) := by
  cases found : state.cache.entry? position with
  | some entry => exact residentCount_lookup_of_found found
  | none => exact sound.shows.residentCount_lookup found

/-! ## Whole runs -/

theorem run_concat (state : SharedCache) (events : List Event) (event : Event) :
    state.run (events ++ [event]) = (state.run events).bind fun middle => middle.step event := by
  unfold run
  rw [List.foldlM_append]
  simp

/-- At some moment of a run there were as many slots without a result. -/
def Reached (state : SharedCache) (events : List Event) (undecoded : Nat) : Prop :=
  ∃ earlier later middle, events = earlier ++ later ∧ state.run earlier = some middle ∧
    middle.undecodedCount = undecoded

theorem Reached.concat
    {events : List Event}
    {undecoded : Nat}
    (reached : state.Reached events undecoded)
    (event : Event) :
    state.Reached (events ++ [event]) undecoded := by
  obtain ⟨earlier, later, middle, rfl, isMiddle, count_eq⟩ := reached
  exact ⟨earlier, later ++ [event], middle, List.append_assoc _ _ _, isMiddle, count_eq⟩

/-- A cache has more entries than it may only where as many slots were without a result
at one time. -/
theorem Sound.residentCount_run
    {events : List Event}
    (sound : state.Sound)
    (bounded : state.cache.residentCount ≤ state.cache.capacity)
    (reached : state.run events = some next) :
    next.cache.capacity = state.cache.capacity ∧
      (next.cache.residentCount ≤ state.cache.capacity ∨
        state.Reached events next.cache.residentCount) := by
  induction events using List.reverseRecOn generalizing next with
  | nil =>
      cases reached
      exact ⟨rfl, Or.inl bounded⟩
  | append_singleton events event inductionHypothesis =>
      have whole := reached
      rw [run_concat, Option.bind_eq_some_iff] at reached
      obtain ⟨middle, isMiddle, stepped⟩ := reached
      obtain ⟨capacity_eq, resident⟩ := inductionHypothesis isMiddle
      refine ⟨(capacity_step stepped).trans capacity_eq, ?_⟩
      have unchanged (same : next.cache.residentCount = middle.cache.residentCount) :
          next.cache.residentCount ≤ state.cache.capacity ∨
            state.Reached (events ++ [event]) next.cache.residentCount := by
        rw [same]
        exact resident.imp_right fun earlier => earlier.concat event
      cases isLookup : event.isLookup with
      | false => exact unchanged (residentCount_step stepped isLookup)
      | true =>
          cases event with
          | lookup position =>
              cases stepped
              cases found : middle.cache.entry? position with
              | some entry => exact unchanged (residentCount_lookup_of_found found)
              | none =>
                  have count_eq := (sound.run isMiddle).1.residentCount_lookup position
                  have undecoded_eq := undecodedCount_lookup_of_not_found found
                  simp only [found] at count_eq
                  rw [capacity_eq, ← undecoded_eq] at count_eq
                  rw [count_eq]
                  rcases Nat.le_total (middle.lookup position).undecodedCount
                    (min (middle.cache.residentCount + 1) state.cache.capacity) with few | many
                  · rw [Nat.max_eq_left few]
                    exact Or.inl (Nat.min_le_right _ _)
                  · rw [Nat.max_eq_right many]
                    exact Or.inr ⟨_, [], _, (List.append_nil _).symm, whole, rfl⟩
          | start caller => cases isLookup
          | finish caller tile => cases isLookup
          | collect caller => cases isLookup

/-- In every state that the callers of a cache reach there are no more entries than there
may be, unless as many slots were without a result at one time.  Only a lookup that enters
a slot changes the number of entries, and behind it there are no more than there may be
where no other slot is without a result. -/
theorem bound_restored
    {capacity : Nat}
    {cache : Cache}
    (made : Cache.ofCapacity capacity = .ok cache)
    {events : List Event}
    (reached : (ofCache cache).run events = some state) :
    (state.cache.residentCount ≤ capacity ∨
        (ofCache cache).Reached events state.cache.residentCount) ∧
      (∀ position, state.cache.entry? position = none ->
        (state.lookup position).cache.residentCount =
            max (min (state.cache.residentCount + 1) capacity) (state.undecodedCount + 1) ∧
          (state.undecodedCount = 0 ->
            (state.lookup position).cache.residentCount ≤ capacity)) ∧
      ∀ event next, state.step event = some next ->
        (∀ position, event = .lookup position -> state.cache.entry? position ≠ none) ->
          next.cache.residentCount = state.cache.residentCount := by
  have empty : cache.residentCount = 0 ∧ cache.capacity = capacity := by
    rw [Cache.ofCapacity] at made
    split at made
    next =>
      cases made
      exact ⟨rfl, rfl⟩
    next => cases made
  have sound := sound_ofCache made
  have bounded : (ofCache cache).cache.residentCount ≤ (ofCache cache).cache.capacity :=
    Nat.le_trans (Nat.le_of_eq empty.1) (Nat.zero_le _)
  obtain ⟨capacity_eq, resident⟩ := sound.residentCount_run bounded reached
  rw [show (ofCache cache).cache.capacity = capacity from empty.2] at capacity_eq resident
  refine ⟨resident, ?_, ?_⟩
  · intro position missing
    have count_eq := (sound.run reached).1.residentCount_lookup position
    simp only [missing] at count_eq
    have positive := state.cache.capacity_pos
    rw [capacity_eq] at count_eq positive
    refine ⟨count_eq, ?_⟩
    intro decoded
    rw [count_eq, decoded]
    exact Nat.max_le.mpr ⟨Nat.min_le_right _ _, positive⟩
  · intro event next stepped notMissing
    cases event with
    | lookup position =>
        cases stepped
        obtain ⟨entry, found⟩ := Option.ne_none_iff_exists'.mp (notMissing position rfl)
        exact residentCount_lookup_of_found found
    | start caller => exact residentCount_step stepped rfl
    | finish caller tile => exact residentCount_step stepped rfl
    | collect caller => exact residentCount_step stepped rfl

namespace TwoLoads

/-- A cache for one tile. -/
def cache : Cache := ⟨1, Nat.one_pos, [], 0, ⟨0, 0, 0, 0, 0⟩⟩

/-- Two tiles are looked up before one of them is loaded, and then both are loaded. -/
def events : List Event :=
  [.lookup ⟨0, 0⟩, .lookup ⟨1, 0⟩, .start 0, .start 1, .finish 0 none, .finish 1 none,
    .lookup ⟨1, 0⟩]

end TwoLoads

/-- With both loads done, a cache for one tile holds two until a third one is looked
up. -/
theorem bound_restored_twoLoads :
    Cache.ofCapacity 1 = .ok TwoLoads.cache ∧
      ∃ state, (ofCache TwoLoads.cache).run TwoLoads.events = some state ∧
        state.undecodedCount = 0 ∧
        state.cache.residentCount = 2 ∧
        (ofCache TwoLoads.cache).Reached TwoLoads.events 2 ∧
        (state.lookup ⟨2, 0⟩).cache.residentCount ≤ 1 ∧
        (state.lookup ⟨0, 0⟩).cache.residentCount = 2 := by
  have made : Cache.ofCapacity 1 = .ok TwoLoads.cache := rfl
  refine ⟨made, _, rfl, by decide, by decide, ?_⟩
  obtain ⟨resident, missed, kept⟩ := bound_restored made
    (show (ofCache TwoLoads.cache).run TwoLoads.events = some _ from rfl)
  refine ⟨resident.resolve_left (by decide), (missed ⟨2, 0⟩ rfl).2 (by decide), ?_⟩
  exact kept (.lookup ⟨0, 0⟩) _ rfl (by rintro _ ⟨⟩; decide)

/-- The ends of all loads do not bring the number of entries back to what it may be. -/
theorem bound_not_restored :
    ¬∀ (capacity : Nat) (cache : Cache) (events : List Event) (state : SharedCache),
      Cache.ofCapacity capacity = .ok cache -> (ofCache cache).run events = some state ->
        state.undecodedCount = 0 -> state.cache.residentCount ≤ capacity := by
  intro bounded
  have two := bounded 1 TwoLoads.cache TwoLoads.events _ rfl rfl (by decide)
  exact absurd two (by decide)

end SharedCache
end DeepShadow
