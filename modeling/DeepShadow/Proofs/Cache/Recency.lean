import DeepShadow.Proofs.Cache.Ranking
import DeepShadow.Proofs.Cache.Source

/-!
# A cache holds the tiles requested last

Requests that are made one after the other leave in a cache the tiles of the different
positions requested last, as many as it has places for, and load a tile exactly where
its position is not among these.  What the cache counts can be read off the positions
requested, and what it answers does not depend on them.
-/

namespace DeepShadow

/-! ## Positions requested last -/

section Distinct

variable {α : Type} [DecidableEq α]

theorem eraseDups_filter
    (keep : α -> Bool)
    (list : List α) :
    (list.filter keep).eraseDups = list.eraseDups.filter keep := by
  induction length_eq : list.length using Nat.strongRecOn generalizing list with
  | _ length inductionHypothesis =>
      cases list with
      | nil => rfl
      | cons first rest =>
          have shorter : (rest.filter fun other => !other == first).length < length := by
            rw [← length_eq, List.length_cons]
            exact Nat.lt_succ_of_le (List.length_filter_le _ _)
          have others := inductionHypothesis _ shorter _ rfl
          rw [List.eraseDups_cons]
          by_cases kept : keep first = true
          · rw [List.filter_cons_of_pos kept, List.filter_cons_of_pos kept, List.eraseDups_cons,
              ← others, List.filter_comm]
          · have different : ∀ other ∈ rest, keep other = true -> (!other == first) = true := by
              intro other _ otherKept
              rw [Bool.not_eq_true', beq_eq_false_iff_ne]
              rintro rfl
              exact kept otherKept
            rw [List.filter_cons_of_neg kept, List.filter_cons_of_neg kept, ← others,
              List.filter_filter]
            congr 1
            apply List.filter_congr
            intro other isOther
            cases otherKept : keep other with
            | false => simp
            | true => simp [different other isOther otherKept]

/-- What is met first is followed by everything else in its order. -/
theorem eraseDups_cons_eq (first : α) (rest : List α) :
    (first :: rest).eraseDups = first :: rest.eraseDups.filter fun other => other ≠ first := by
  rw [List.eraseDups_cons, eraseDups_filter]
  congr 2
  funext other
  by_cases same : other = first <;> simp [same]

theorem nodup_eraseDups (list : List α) : list.eraseDups.Nodup := by
  induction list with
  | nil => exact List.nodup_nil
  | cons first rest inductionHypothesis =>
      rw [eraseDups_cons_eq]
      apply List.nodup_cons.mpr
      exact ⟨by simp, inductionHypothesis.filter _⟩

/-- What is taken out behind the first places does not change what stands there. -/
theorem take_filter_of_not_mem
    {list : List α}
    {value : α}
    {count : Nat}
    (missing : value ∉ list.take count) :
    (list.filter fun other => other ≠ value).take count = list.take count := by
  induction list generalizing count with
  | nil => rfl
  | cons first rest inductionHypothesis =>
      cases count with
      | zero => rfl
      | succ count =>
          rw [List.take_succ_cons, List.mem_cons, not_or] at missing
          rw [List.filter_cons_of_pos (by simpa using Ne.symm missing.1), List.take_succ_cons,
            List.take_succ_cons, inductionHypothesis missing.2]

/-- What is taken out of the first places makes room for one more. -/
theorem take_filter_of_mem
    {list : List α}
    (distinct : list.Nodup)
    {value : α}
    {count : Nat}
    (present : value ∈ list.take (count + 1)) :
    (list.filter fun other => other ≠ value).take count =
      (list.take (count + 1)).filter fun other => other ≠ value := by
  induction list generalizing count with
  | nil => simp
  | cons first rest inductionHypothesis =>
      obtain ⟨notInRest, restDistinct⟩ := List.nodup_cons.mp distinct
      rw [List.take_succ_cons] at present ⊢
      by_cases same : first = value
      · subst same
        have others : ∀ other ∈ rest, decide (other ≠ first) = true := by
          intro other inRest
          simpa using fun equal : other = first => notInRest (equal ▸ inRest)
        rw [List.filter_cons_of_neg (by simp), List.filter_cons_of_neg (by simp),
          List.filter_eq_self.mpr others, List.filter_eq_self.mpr]
        exact fun other isTaken => others other (List.mem_of_mem_take isTaken)
      · have inRest : value ∈ rest.take count :=
          (List.mem_cons.mp present).resolve_left (Ne.symm same)
        rw [List.filter_cons_of_pos (by simpa using same),
          List.filter_cons_of_pos (by simpa using same)]
        cases count with
        | zero => simp at inRest
        | succ count => rw [List.take_succ_cons, inductionHypothesis restDistinct inRest]

end Distinct

namespace Cache

/-- The different positions requested last, for positions from the last one to the
first one. -/
def held (capacity : Nat) (recent : List TilePosition) : List TilePosition :=
  recent.eraseDups.take capacity

section Held

variable {capacity : Nat} {recent : List TilePosition} {position : TilePosition}

theorem length_held_le (capacity : Nat) (recent : List TilePosition) :
    (held capacity recent).length ≤ capacity := List.length_take_le _ _

/-- A position that was not held takes the place of the one requested longest ago. -/
theorem held_cons_of_not_mem
    (positive : 0 < capacity)
    (missing : position ∉ held capacity recent) :
    held capacity (position :: recent) = (position :: held capacity recent).take capacity := by
  obtain ⟨places, rfl⟩ := Nat.exists_eq_add_one.mpr positive
  have missingInFront : position ∉ recent.eraseDups.take places :=
    fun inFront => missing (List.take_subset_take_left _ (Nat.le_succ places) inFront)
  simp only [held, eraseDups_cons_eq, List.take_succ_cons, List.take_take,
    take_filter_of_not_mem missingInFront, Nat.min_eq_left (Nat.le_succ places)]

/-- A position that was held moves to the front. -/
theorem held_cons_of_mem
    (positive : 0 < capacity)
    (isHeld : position ∈ held capacity recent) :
    held capacity (position :: recent) =
      position :: (held capacity recent).filter fun other => other ≠ position := by
  obtain ⟨places, rfl⟩ := Nat.exists_eq_add_one.mpr positive
  rw [held, eraseDups_cons_eq, List.take_succ_cons,
    take_filter_of_mem (nodup_eraseDups recent) isHeld, held]

end Held

/-! ## Requests -/

/-- What is counted for requests of positions, given from the last one to the first
one. -/
def tally {ε : Type} (load : TilePosition -> Except ε Tile) (capacity : Nat) :
    List TilePosition -> CacheCounters
  | [] => ⟨0, 0, 0, 0, 0⟩
  | position :: earlier =>
      let counters := tally load capacity earlier
      if position ∈ held capacity earlier then { counters with hits := counters.hits + 1 }
      else
        { hits := counters.hits
          misses := counters.misses + 1
          decodes := counters.decodes + if (load position).isOk then 1 else 0
          failures := counters.failures + if (load position).isOk then 0 else 1
          evictions :=
            counters.evictions + if (held capacity earlier).length = capacity then 1 else 0 }

variable {ε : Type} {load : TilePosition -> Except ε Tile} {capacity : Nat}
  {recent : List TilePosition} {cache : Cache} {position : TilePosition} {entry : CacheEntry}

/-- A cache behind the requests of positions, given from the last one to the first
one. -/
structure Recent (load : TilePosition -> Except ε Tile) (capacity : Nat)
    (recent : List TilePosition) (cache : Cache) : Prop where
  capacity_eq : cache.capacity = capacity
  ranking : ∃ ranked, cache.Ranked ranked ∧
    ranked.map CacheEntry.position = held capacity recent
  faithful : cache.Faithful load
  counters_eq : cache.counters = tally load capacity recent

section Behind

variable (behind : Recent load capacity recent cache)

include behind

/-- The positions held are those requested last. -/
theorem Recent.perm : (cache.entries.map CacheEntry.position).Perm (held capacity recent) := by
  obtain ⟨ranked, ranking, held_eq⟩ := behind.ranking
  rw [← held_eq]
  exact (ranking.perm.map CacheEntry.position).symm

theorem Recent.distinct : (cache.entries.map CacheEntry.position).Nodup :=
  behind.perm.nodup_iff.mpr ((nodup_eraseDups recent).sublist (List.take_sublist _ _))

theorem Recent.isSettled {entry : CacheEntry} (isEntry : entry ∈ cache.entries) :
    entry.slot.isSettled = true := by
  rw [(behind.faithful entry isEntry).1]
  rfl

theorem Recent.length_eq : cache.entries.length = (held capacity recent).length := by
  rw [← behind.perm.length_eq, List.length_map]

theorem Recent.positive : 0 < capacity := behind.capacity_eq ▸ cache.capacity_pos

/-- A request of a position that is held. -/
theorem Recent.request_of_found (found : cache.entry? position = some entry) :
    position ∈ held capacity recent ∧
      (cache.request load position).1.loaded = none ∧
      Recent load capacity (position :: recent) (cache.request load position).2 := by
  obtain ⟨-, faithful⟩ := behind.faithful.request position
  obtain ⟨isEntry, rfl⟩ := of_entry?_eq_some found
  have isHeld := behind.perm.mem_iff.mp (List.mem_map_of_mem isEntry)
  rw [Cache.request_of_found found (behind.faithful entry isEntry).1] at faithful ⊢
  refine ⟨isHeld, rfl, behind.capacity_eq, ?_, faithful, ?_⟩
  · obtain ⟨ranked, ranking, held_eq⟩ := behind.ranking
    refine ⟨_, ranking.hit behind.distinct isEntry _, ?_⟩
    rw [held_cons_of_mem behind.positive isHeld, ← held_eq, List.filter_map, List.map_cons,
      CacheEntry.position_touch]
    rfl
  · rw [tally, if_pos isHeld, ← behind.counters_eq]

/-- A request of a position that is not held. -/
theorem Recent.request_of_not_found (missing : cache.entry? position = none) :
    position ∉ held capacity recent ∧
      (cache.request load position).1.loaded = some (load position) ∧
      Recent load capacity (position :: recent) (cache.request load position).2 := by
  obtain ⟨-, faithful⟩ := behind.faithful.request position
  have notHeld : position ∉ held capacity recent := by
    rw [← behind.perm.mem_iff]
    exact entry?_eq_none_iff.mp missing
  rw [Cache.request_of_not_found missing] at faithful ⊢
  obtain ⟨ranked, ranking, held_eq⟩ := behind.ranking
  have left := ranking.miss behind.distinct missing fun _ isEntry => behind.isSettled isEntry
  refine ⟨notHeld, rfl, behind.capacity_eq, ⟨_, (left _).settle _ _, ?_⟩, faithful, ?_⟩
  · rw [held_cons_of_not_mem behind.positive notHeld, ← held_eq, ← behind.capacity_eq,
      List.map_map, CacheEntry.position_comp_settle, List.map_take]
    rfl
  · have evicted : (cache.makeRoom position).1.length =
        if (held capacity recent).length = capacity then 1 else 0 := by
      have fits := length_held_le capacity recent
      have all := (makeRoom_perm behind.distinct missing).length_eq
      have leftCount : _ = (cache.makeRoom position).2.length :=
        (left cache.counters).perm.length_eq
      rw [List.length_append, List.length_cons, behind.length_eq] at all
      rw [List.length_take, List.length_cons, ranking.perm.length_eq, behind.length_eq,
        behind.capacity_eq] at leftCount
      split <;> omega
    rw [tally, if_neg notHeld, ← behind.counters_eq, ← evicted]
    cases load position <;> rfl

/-- One more request. -/
theorem Recent.request (position : TilePosition) :
    (cache.request load position).1.loaded =
        (if position ∈ held capacity recent then none else some (load position)) ∧
      Recent load capacity (position :: recent) (cache.request load position).2 := by
  cases found : cache.entry? position with
  | some entry =>
      obtain ⟨isHeld, loaded_eq, next⟩ := behind.request_of_found found
      exact ⟨by rw [if_pos isHeld, loaded_eq], next⟩
  | none =>
      obtain ⟨notHeld, loaded_eq, next⟩ := behind.request_of_not_found found
      exact ⟨by rw [if_neg notHeld, loaded_eq], next⟩

end Behind

theorem Recent.requestAll
    (behind : Recent load capacity recent cache)
    (positions : List TilePosition) :
    Recent load capacity (positions.reverse ++ recent) (cache.requestAll load positions) := by
  induction positions generalizing cache recent with
  | nil => exact behind
  | cons position positions inductionHypothesis =>
      rw [List.reverse_cons, List.append_assoc]
      exact inductionHypothesis (behind.request position).2

/-- A new cache is behind no requests. -/
theorem recent_ofCapacity (positive : 0 < capacity) :
    ∃ empty, ofCapacity capacity = .ok empty ∧
      ∀ {ε : Type} (load : TilePosition -> Except ε Tile), Recent load capacity [] empty := by
  have made : ofCapacity capacity = .ok ⟨capacity, positive, [], 0, ⟨0, 0, 0, 0, 0⟩⟩ :=
    dif_pos positive
  refine ⟨_, made, ?_⟩
  intro ε load
  refine ⟨rfl, ⟨[], ranked_ofCapacity made, by simp [held]⟩, ?_, rfl⟩
  intro entry isEntry
  cases isEntry

theorem Recent.askAll
    {source : TileSource ε}
    (behind : Recent source.load capacity [] cache)
    (inquiries : List Inquiry) :
    Recent source.load capacity (inquiries.flatMap source.requested).reverse
      (cache.askAll source inquiries) := by
  rw [askAll_eq]
  simpa using behind.requestAll (inquiries.flatMap source.requested)

/-- Behind any inquiries, the next request gives what loading its tile gives, and loads
it exactly where its position is not among those requested last; these are the ones
held, and the counters are those of the positions requested.  No visibility and no
curve depends on the inquiries before it, neither for a source of tiles nor for a
reader of a file. -/
theorem recently_requested
    (capacity : Nat)
    (positive : 0 < capacity) :
    ∃ empty, ofCapacity capacity = .ok empty ∧
      (∀ {ε : Type} (source : TileSource ε) (inquiries : List Inquiry),
        let recent := (inquiries.flatMap source.requested).reverse
        let cache := empty.askAll source inquiries
        (cache.entries.map CacheEntry.position).Perm (held capacity recent) ∧
          cache.residentCount = (held capacity recent).length ∧
          cache.counters = tally source.load capacity recent ∧
          (∀ position,
            (cache.request source.load position).1.tile = (source.load position).toOption ∧
              (cache.request source.load position).1.loaded =
                if position ∈ held capacity recent then none else some (source.load position)) ∧
          ∀ x y depth,
            (cache.visibilityAt source x y depth).1 = source.visibilityAt x y depth ∧
              (cache.curveAt source x y).1 = source.curveAt x y) ∧
      ∀ (reader : CachedReader) (inquiries : List Inquiry),
        reader.cache = empty.askAll reader.tiles inquiries ->
          ∀ x y depth,
            ((CachedReader.visibilityAt x y depth).answer reader).value.map Prod.fst =
                reader.tiles.visibilityAt x y depth ∧
              ((CachedReader.curveAt x y).answer reader).value.map Prod.fst =
                reader.tiles.curveAt x y := by
  obtain ⟨empty, made, start⟩ := recent_ofCapacity positive
  refine ⟨empty, made, ?_, ?_⟩
  · intro ε source inquiries
    have behind := (start source.load).askAll inquiries
    refine ⟨behind.perm, behind.length_eq, behind.counters_eq, ?_, ?_⟩
    · intro position
      exact ⟨(behind.faithful.request position).1, (behind.request position).1⟩
    · intro x y depth
      exact ⟨behind.faithful.visibilityAt_eq x y depth, behind.faithful.curveAt_eq x y⟩
  · intro reader inquiries cache_eq x y depth
    have faithful := ((start reader.tiles.load).askAll inquiries).faithful
    rw [← cache_eq] at faithful
    rw [← faithful.visibilityAt_eq x y depth, ← faithful.curveAt_eq x y]
    exact ⟨reader.answer_visibilityAt_eq x y depth, reader.answer_curveAt_eq x y⟩

namespace ThreeTiles

/-- A row of three pixels in tiles of one pixel. -/
def grid : Grid :=
  ⟨3, 1, 1, 1, Nat.succ_pos 2, Nat.one_pos, Nat.one_pos, Nat.one_pos, by decide⟩

/-- The tile in the middle cannot be loaded. -/
def source : TileSource Unit where
  grid := grid
  load position :=
    if position.column = 1 then .error ()
    else .ok (Tile.visible ⟨position, position.column, 0, 1, 1⟩ 1)

def inquiries : List Inquiry :=
  [.tile ⟨0, 0⟩, .visibility 1 0 Single.one, .curve 0 0, .tile ⟨1, 0⟩, .tile ⟨7, 7⟩,
    .visibility 9 9 Single.one, .curve 2 0]

end ThreeTiles

/-- With places for two of them, the tile in the middle and the one outside are kept
like any other, and asking for a pixel outside requests nothing. -/
theorem recently_requested_threeTiles :
    0 < 2 ∧ ∃ empty, ofCapacity 2 = .ok empty ∧
      ((empty.askAll ThreeTiles.source ThreeTiles.inquiries).entries.map
        CacheEntry.position).Perm [⟨2, 0⟩, ⟨7, 7⟩] ∧
      (empty.askAll ThreeTiles.source ThreeTiles.inquiries).counters = ⟨2, 4, 3, 1, 2⟩ ∧
      ((empty.askAll ThreeTiles.source ThreeTiles.inquiries).request ThreeTiles.source.load
        ⟨1, 0⟩).1.loaded = some (.error ()) ∧
      ((empty.askAll ThreeTiles.source ThreeTiles.inquiries).request ThreeTiles.source.load
        ⟨7, 7⟩).1.loaded = none := by
  obtain ⟨empty, made, sources, -⟩ := recently_requested 2 (by decide)
  obtain ⟨perm, -, counters_eq, next, -⟩ := sources ThreeTiles.source ThreeTiles.inquiries
  have held_eq : held 2 (ThreeTiles.inquiries.flatMap ThreeTiles.source.requested).reverse =
      [⟨2, 0⟩, ⟨7, 7⟩] := by decide
  rw [held_eq] at perm
  refine ⟨by decide, empty, made, perm, counters_eq.trans (by decide), ?_, ?_⟩
  · exact (next ⟨1, 0⟩).2.trans (by decide)
  · exact (next ⟨7, 7⟩).2.trans (by decide)

end Cache
end DeepShadow
