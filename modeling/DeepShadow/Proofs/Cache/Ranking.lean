import DeepShadow.Proofs.Cache.Eviction

/-!
# Entries in the order of their lookups

The entries of a cache are in no order, and the numbers of their last lookups give them
one.  A lookup that finds its entry moves it to the front of this order; one that finds
none puts a new entry there, and cuts off the end.
-/

namespace DeepShadow
namespace Cache

/-- The entries of a cache in the order of their lookups, the last one first. -/
structure Ranked (cache : Cache) (ranked : List CacheEntry) : Prop where
  perm : ranked.Perm cache.entries
  ordered : ranked.Pairwise fun later earlier => earlier.lastUsed < later.lastUsed
  past : ∀ entry ∈ ranked, entry.lastUsed ≤ cache.clock

variable {cache : Cache} {ranked : List CacheEntry} {position : TilePosition}
  {entry : CacheEntry}

theorem ranked_ofCapacity {capacity : Nat} (made : ofCapacity capacity = .ok cache) :
    cache.Ranked [] := by
  rw [ofCapacity] at made
  split at made
  next =>
    cases made
    refine ⟨List.Perm.refl _, List.Pairwise.nil, ?_⟩
    intro entry isEntry
    cases isEntry
  next => cases made

section Lookups

variable (ranking : cache.Ranked ranked)

include ranking

/-- An entry that is looked up now comes first. -/
theorem Ranked.cons
    {newest : CacheEntry}
    (now : newest.lastUsed = cache.clock + 1)
    {others : List CacheEntry}
    (sublist : others.Sublist ranked) :
    (newest :: others).Pairwise (fun later earlier => earlier.lastUsed < later.lastUsed) ∧
      ∀ entry ∈ newest :: others, entry.lastUsed ≤ cache.clock + 1 := by
  constructor
  · refine List.pairwise_cons.mpr ⟨?_, ranking.ordered.sublist sublist⟩
    intro entry isOther
    rw [now]
    exact Nat.lt_succ_of_le (ranking.past entry (sublist.subset isOther))
  · intro entry isEntry
    rcases List.mem_cons.mp isEntry with rfl | isOther
    · exact Nat.le_of_eq now
    · exact Nat.le_succ_of_le (ranking.past entry (sublist.subset isOther))

/-- The entry that is found moves to the front. -/
theorem Ranked.hit
    (distinct : (cache.entries.map CacheEntry.position).Nodup)
    (isEntry : entry ∈ cache.entries)
    (counters : CacheCounters) :
    Ranked
      { cache with
        entries := cache.entries.map (CacheEntry.touch entry.position (cache.clock + 1))
        clock := cache.clock + 1
        counters }
      (entry.touch entry.position (cache.clock + 1) ::
        ranked.filter fun other => other.position ≠ entry.position) := by
  have now := CacheEntry.lastUsed_touch_self (cache.clock + 1) entry
  obtain ⟨ordered, past⟩ := ranking.cons now List.filter_sublist
  exact ⟨((ranking.perm.filter _).cons _).trans (perm_map_touch distinct isEntry _), ordered, past⟩

/-- A new entry comes first, and those that find no place any more are cut off. -/
theorem Ranked.miss
    (distinct : (cache.entries.map CacheEntry.position).Nodup)
    (missing : cache.entry? position = none)
    (settled : ∀ entry ∈ cache.entries, entry.slot.isSettled = true)
    (counters : CacheCounters) :
    Ranked
      { cache with
        entries := (cache.makeRoom position).2
        clock := cache.clock + 1
        counters }
      ((cache.newEntry position :: ranked).take cache.capacity) := by
  have now : (cache.newEntry position).lastUsed = cache.clock + 1 := rfl
  obtain ⟨ordered, past⟩ := ranking.cons now (List.Sublist.refl _)
  have sublist := List.take_sublist cache.capacity (cache.newEntry position :: ranked)
  refine ⟨?_, ordered.sublist sublist, fun entry isEntry => past entry (sublist.subset isEntry)⟩
  have allSettled : ∀ entry ∈ ranked, entry.slot.isSettled = true :=
    fun entry isRanked => settled entry (ranking.perm.mem_iff.mp isRanked)
  obtain ⟨places, places_eq⟩ := Nat.exists_eq_add_one.mpr cache.capacity_pos
  have excess_eq : (cache.newEntry position :: cache.entries).length - cache.capacity =
      ranked.length - places := by
    rw [List.length_cons, places_eq, Nat.add_sub_add_right, ranking.perm.length_eq]
  have left_eq : ranked.take (ranked.length - (ranked.length - places)) = ranked.take places := by
    rw [List.take_eq_take_iff]
    omega
  have left := evict_perm_of_ordered (ranking.perm.cons (cache.newEntry position))
    (nodup_newEntry distinct missing) ranking.ordered allSettled (Nat.sub_le ranked.length places)
  rw [left_eq, ← excess_eq, ← List.take_succ_cons, ← places_eq] at left
  exact left

/-- The end of a load leaves the order. -/
theorem Ranked.settle (ticket : Nat) (tile : Option Tile) :
    (cache.settle ticket tile).Ranked (ranked.map (CacheEntry.settle ticket tile)) := by
  refine ⟨ranking.perm.map _, ?_, ?_⟩
  · simpa [List.pairwise_map] using ranking.ordered
  · simpa [Cache.settle] using ranking.past

end Lookups

end Cache
end DeepShadow
