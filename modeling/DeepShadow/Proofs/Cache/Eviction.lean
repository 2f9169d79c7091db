import Mathlib.Data.List.Nodup
import DeepShadow.Cache.Basic

/-!
# Entries that are found and entries that are evicted

An entry that is found only changes the number of its last lookup.  Evictions take out
settled entries and leave all others; where all entries but the new one are settled, those
looked up last are left.
-/

namespace DeepShadow

/-! ## Entries behind a lookup and behind a load -/

namespace CacheEntry

variable (position : TilePosition) (now ticket : Nat) (tile : Option Tile) (entry : CacheEntry)

@[simp] theorem position_touch : (touch position now entry).position = entry.position := by
  rw [touch]
  split <;> rfl

@[simp] theorem ticket_touch : (touch position now entry).ticket = entry.ticket := by
  rw [touch]
  split <;> rfl

@[simp] theorem slot_touch : (touch position now entry).slot = entry.slot := by
  rw [touch]
  split <;> rfl

@[simp] theorem lastUsed_touch_self : (touch entry.position now entry).lastUsed = now := by
  rw [touch, if_pos rfl]

@[simp] theorem position_settle : (settle ticket tile entry).position = entry.position := by
  rw [settle]
  split <;> rfl

@[simp] theorem ticket_settle : (settle ticket tile entry).ticket = entry.ticket := by
  rw [settle]
  split <;> rfl

@[simp] theorem lastUsed_settle : (settle ticket tile entry).lastUsed = entry.lastUsed := by
  rw [settle]
  split <;> rfl

@[simp] theorem position_comp_touch :
    CacheEntry.position ∘ touch position now = CacheEntry.position := by
  funext entry
  exact position_touch position now entry

@[simp] theorem position_comp_settle :
    CacheEntry.position ∘ settle ticket tile = CacheEntry.position := by
  funext entry
  exact position_settle ticket tile entry

theorem slot_settle :
    (settle ticket tile entry).slot =
      if entry.ticket = ticket then .settled tile else entry.slot := by
  rw [settle]
  split <;> rfl

end CacheEntry

namespace Cache

variable {cache : Cache} {position keep : TilePosition} {entry victim : CacheEntry}
  {entries : List CacheEntry} {excess : Nat}

/-! ## Entries that are found -/

theorem of_entry?_eq_some (found : cache.entry? position = some entry) :
    entry ∈ cache.entries ∧ entry.position = position := by
  refine ⟨List.mem_of_find?_eq_some found, ?_⟩
  simpa using List.find?_some found

theorem entry?_eq_none_iff :
    cache.entry? position = none ↔ position ∉ cache.entries.map CacheEntry.position := by
  simp only [ entry?, List.find?_eq_none, decide_eq_true_eq, List.mem_map, not_exists, not_and]

/-- One entry and those of the other tiles are all entries. -/
theorem perm_of_mem
    (distinct : (entries.map CacheEntry.position).Nodup)
    (isEntry : entry ∈ entries) :
    (entry :: entries.filter fun other => other.position ≠ entry.position).Perm entries := by
  induction entries with
  | nil => cases isEntry
  | cons first rest inductionHypothesis =>
      obtain ⟨notInRest, restDistinct⟩ := List.nodup_cons.mp distinct
      have others : ∀ other ∈ rest, other.position ≠ first.position := by
        intro other inRest same
        exact notInRest (List.mem_map.mpr ⟨other, inRest, same⟩)
      rcases List.mem_cons.mp isEntry with rfl | inRest
      · have all : (rest.filter fun other => other.position ≠ entry.position) = rest := by
          simpa using others
        rw [List.filter_cons_of_neg (by simp), all]
      · have different := others entry inRest
        rw [List.filter_cons_of_pos (by simpa using different.symm)]
        exact (List.Perm.swap first entry _).trans
          ((inductionHypothesis restDistinct inRest).cons first)

theorem lookup_of_found (found : cache.entry? position = some entry) :
    cache.lookup position =
      (entry.touch position (cache.clock + 1), [],
        { cache with
          entries := cache.entries.map (CacheEntry.touch position (cache.clock + 1))
          clock := cache.clock + 1
          counters := { cache.counters with hits := cache.counters.hits + 1 } }) := by
  rw [lookup, found]

/-- The entry that is looked up and those of the other tiles are all entries behind the
lookup. -/
theorem perm_map_touch
    (distinct : (entries.map CacheEntry.position).Nodup)
    (isEntry : entry ∈ entries)
    (now : Nat) :
    (entry.touch entry.position now ::
        entries.filter fun other => other.position ≠ entry.position).Perm
      (entries.map (CacheEntry.touch entry.position now)) := by
  have perm := (perm_of_mem distinct isEntry).map (CacheEntry.touch entry.position now)
  have others : (entries.filter fun other => other.position ≠ entry.position).map
      (CacheEntry.touch entry.position now) =
        entries.filter fun other => other.position ≠ entry.position := by
    apply (List.map_congr_left _).trans (List.map_id _)
    intro other isOther
    exact if_neg (by simpa using (List.mem_filter.mp isOther).2)
  rw [List.map_cons, others] at perm
  exact perm

/-! ## Evictions -/

/-- The entry that is evicted next is settled, is not that of the tile to keep, and was
looked up before all others like it. -/
theorem of_victim?_eq_some (evicted : victim? keep entries = some victim) :
    victim ∈ entries ∧ victim.position ≠ keep ∧ victim.slot.isSettled = true ∧
      ∀ other ∈ entries, other.position ≠ keep -> other.slot.isSettled = true ->
        victim.lastUsed ≤ other.lastUsed := by
  have isVictim := List.minOn?_mem evicted
  rw [List.mem_filter, Bool.and_eq_true, decide_eq_true_iff] at isVictim
  refine ⟨isVictim.1, isVictim.2.1, isVictim.2.2, ?_⟩
  intro other isOther notKept settled
  have candidate : other ∈ entries.filter
      fun entry => entry.position ≠ keep && entry.slot.isSettled := by
    simp [isOther, notKept, settled]
  have least := List.apply_get_minOn?_le_of_mem (f := CacheEntry.lastUsed) candidate
  rw [victim?] at evicted
  simpa only [evicted, Option.get_some] using least

theorem victim?_eq_none_iff :
    victim? keep entries = none ↔
      ∀ entry ∈ entries, entry.position ≠ keep -> entry.slot.isSettled = false := by
  rw [victim?, ← Option.not_isSome_iff_eq_none, List.isSome_minOn?_iff, not_not,
    List.filter_eq_nil_iff]
  simp

/-- What is left was there before, in the order it was. -/
theorem evict_sublist (keep : TilePosition) (excess : Nat) (entries : List CacheEntry) :
    (evict keep excess entries).2.Sublist entries := by
  induction excess generalizing entries with
  | zero => exact List.Sublist.refl _
  | succ excess inductionHypothesis =>
      rw [evict]
      split
      next => exact List.Sublist.refl _
      next => exact (inductionHypothesis _).trans List.filter_sublist

theorem nodup_filter
    (distinct : (entries.map CacheEntry.position).Nodup)
    (isKept : CacheEntry -> Bool) :
    ((entries.filter isKept).map CacheEntry.position).Nodup :=
  distinct.sublist (List.filter_sublist.map CacheEntry.position)

/-- Evicted entries and those left are the entries there were. -/
theorem evict_perm
    (distinct : (entries.map CacheEntry.position).Nodup)
    (keep : TilePosition)
    (excess : Nat) :
    ((evict keep excess entries).1 ++ (evict keep excess entries).2).Perm entries := by
  induction excess generalizing entries with
  | zero => exact List.Perm.refl _
  | succ excess inductionHypothesis =>
      rw [evict]
      split
      next => exact List.Perm.refl _
      next victim evicted =>
        obtain ⟨isEntry, -⟩ := of_victim?_eq_some evicted
        exact ((inductionHypothesis (nodup_filter distinct _)).cons victim).trans
          (perm_of_mem distinct isEntry)

/-- Only settled entries are evicted, and not that of the tile to keep. -/
theorem of_mem_evict (isVictim : entry ∈ (evict keep excess entries).1) :
    entry.position ≠ keep ∧ entry.slot.isSettled = true := by
  induction excess generalizing entries with
  | zero => cases isVictim
  | succ excess inductionHypothesis =>
      rw [evict] at isVictim
      split at isVictim
      next => cases isVictim
      next victim evicted =>
        obtain ⟨-, notKept, settled, -⟩ := of_victim?_eq_some evicted
        rcases List.mem_cons.mp isVictim with rfl | isLater
        · exact ⟨notKept, settled⟩
        · exact inductionHypothesis isLater

section Ordered

variable {newest last : CacheEntry} {older kept : List CacheEntry}

/-- Of settled entries in the order of their lookups, the last one is evicted. -/
theorem victim?_eq_last
    (perm : (newest :: (kept ++ [last])).Perm entries)
    (distinct : (entries.map CacheEntry.position).Nodup)
    (ordered : (kept ++ [last]).Pairwise fun later earlier => earlier.lastUsed < later.lastUsed)
    (settled : ∀ entry ∈ kept ++ [last], entry.slot.isSettled = true) :
    victim? newest.position entries = some last := by
  have others := (perm.map CacheEntry.position).nodup_iff.mpr distinct
  rw [List.map_cons, List.nodup_cons] at others
  have isLast : last ∈ kept ++ [last] := List.mem_append_right _ (List.mem_singleton_self last)
  have notNewest : last.position ≠ newest.position := by
    intro same
    exact others.1 (List.mem_map.mpr ⟨last, isLast, same⟩)
  have lastIsEntry : last ∈ entries := perm.mem_iff.mp (List.mem_cons_of_mem _ isLast)
  cases evicted : victim? newest.position entries with
  | none =>
      have pending := victim?_eq_none_iff.mp evicted last lastIsEntry notNewest
      rw [settled last isLast] at pending
      cases pending
  | some victim =>
      obtain ⟨isEntry, notNew, -, oldest⟩ := of_victim?_eq_some evicted
      rcases List.mem_cons.mp (perm.mem_iff.mpr isEntry) with rfl | isOlder
      · exact absurd rfl notNew
      rcases List.mem_append.mp isOlder with isKept | isVictim
      · have later := (List.pairwise_append.mp ordered).2.2 victim isKept last
          (List.mem_singleton_self last)
        have notLater := oldest last lastIsEntry notNewest (settled last isLast)
        exact absurd notLater (Nat.not_le.mpr later)
      · rw [List.mem_singleton.mp isVictim]

/-- Where all entries but the new one are settled, those looked up last are left. -/
theorem evict_perm_of_ordered
    (perm : (newest :: older).Perm entries)
    (distinct : (entries.map CacheEntry.position).Nodup)
    (ordered : older.Pairwise fun later earlier => earlier.lastUsed < later.lastUsed)
    (settled : ∀ entry ∈ older, entry.slot.isSettled = true)
    (enough : excess ≤ older.length) :
    (newest :: older.take (older.length - excess)).Perm
      (evict newest.position excess entries).2 := by
  induction excess generalizing older entries with
  | zero =>
      rw [Nat.sub_zero, List.take_length]
      exact perm
  | succ excess inductionHypothesis =>
      rcases List.eq_nil_or_concat' older with rfl | ⟨kept, last, rfl⟩
      · cases enough
      have evicted := victim?_eq_last perm distinct ordered settled
      obtain ⟨isEntry, -⟩ := of_victim?_eq_some evicted
      have others : (newest :: kept).Perm
          (entries.filter fun other => other.position ≠ last.position) := by
        have lastFirst : (last :: newest :: kept).Perm (newest :: (kept ++ [last])) :=
          (List.perm_append_singleton last (newest :: kept)).symm
        exact (lastFirst.trans (perm.trans (perm_of_mem distinct isEntry).symm)).cons_inv
      rw [List.length_append, List.length_singleton] at enough ⊢
      rw [Nat.add_sub_add_right, List.take_append_of_le_length (Nat.sub_le _ _), evict, evicted]
      exact inductionHypothesis others
        (nodup_filter distinct _)
        (List.pairwise_append.mp ordered).1
        (fun entry isKept => settled entry (List.mem_append_left _ isKept))
        (Nat.le_of_add_le_add_right enough)

end Ordered

/-! ## Entries that are made -/

/-- The entry made for a tile that is not held. -/
def newEntry (cache : Cache) (position : TilePosition) : CacheEntry :=
  ⟨position, cache.counters.misses, cache.clock + 1, .pending⟩

/-- The entries evicted for a new one, and those left with it. -/
def makeRoom (cache : Cache) (position : TilePosition) : List CacheEntry × List CacheEntry :=
  let entries := cache.newEntry position :: cache.entries
  evict position (entries.length - cache.capacity) entries

theorem lookup_of_not_found (missing : cache.entry? position = none) :
    cache.lookup position =
      (cache.newEntry position, (cache.makeRoom position).1.map CacheEntry.position,
        { cache with
          entries := (cache.makeRoom position).2
          clock := cache.clock + 1
          counters :=
            { cache.counters with
              misses := cache.counters.misses + 1
              evictions := cache.counters.evictions + (cache.makeRoom position).1.length } }) := by
  rw [lookup, missing]
  rfl

/-- What is left is the new entry or was there before. -/
theorem mem_of_mem_makeRoom (isLeft : entry ∈ (cache.makeRoom position).2) :
    entry = cache.newEntry position ∨ entry ∈ cache.entries :=
  List.mem_cons.mp ((evict_sublist _ _ _).subset isLeft)

section Missing

variable (distinct : (cache.entries.map CacheEntry.position).Nodup)
  (missing : cache.entry? position = none)

include distinct missing

/-- With the new entry there is still one for each position. -/
theorem nodup_newEntry :
    ((cache.newEntry position :: cache.entries).map CacheEntry.position).Nodup :=
  List.nodup_cons.mpr ⟨entry?_eq_none_iff.mp missing, distinct⟩

theorem makeRoom_perm :
    ((cache.makeRoom position).1 ++ (cache.makeRoom position).2).Perm
      (cache.newEntry position :: cache.entries) :=
  evict_perm (nodup_newEntry distinct missing) _ _

/-- The new entry is not evicted. -/
theorem newEntry_mem_makeRoom : cache.newEntry position ∈ (cache.makeRoom position).2 := by
  have isEntry : cache.newEntry position ∈
      (cache.makeRoom position).1 ++ (cache.makeRoom position).2 :=
    (makeRoom_perm distinct missing).mem_iff.mpr List.mem_cons_self
  rcases List.mem_append.mp isEntry with isVictim | isLeft
  · exact absurd rfl (of_mem_evict isVictim).1
  · exact isLeft

end Missing

/-! ## Settling -/

theorem counters_settle (cache : Cache) (ticket : Nat) (tile : Option Tile) :
    (cache.settle ticket tile).counters.hits = cache.counters.hits ∧
      (cache.settle ticket tile).counters.misses = cache.counters.misses ∧
      (cache.settle ticket tile).counters.evictions = cache.counters.evictions ∧
      (cache.settle ticket tile).counters.decodes + (cache.settle ticket tile).counters.failures =
        cache.counters.decodes + cache.counters.failures + 1 := by
  cases tile with
  | none => exact ⟨rfl, rfl, rfl, rfl⟩
  | some tile => exact ⟨rfl, rfl, rfl, Nat.add_right_comm _ _ _⟩

/-! ## Requests -/

section Requests

variable {ε : Type} {load : TilePosition -> Except ε Tile}

theorem request_of_found
    (found : cache.entry? position = some entry)
    {tile : Option Tile}
    (settled : entry.slot = .settled tile) :
    cache.request load position =
      (⟨tile, [], none⟩,
        { cache with
          entries := cache.entries.map (CacheEntry.touch position (cache.clock + 1))
          clock := cache.clock + 1
          counters := { cache.counters with hits := cache.counters.hits + 1 } }) := by
  rw [request, lookup_of_found found]
  simp only [CacheEntry.slot_touch, settled]

theorem request_of_not_found (missing : cache.entry? position = none) :
    cache.request load position =
      (⟨(load position).toOption, (cache.makeRoom position).1.map CacheEntry.position,
          some (load position)⟩,
        settle
          { cache with
            entries := (cache.makeRoom position).2
            clock := cache.clock + 1
            counters :=
              { cache.counters with
                misses := cache.counters.misses + 1
                evictions := cache.counters.evictions + (cache.makeRoom position).1.length } }
          cache.counters.misses (load position).toOption) := by
  rw [request, lookup_of_not_found missing]
  rfl

end Requests

end Cache
end DeepShadow
