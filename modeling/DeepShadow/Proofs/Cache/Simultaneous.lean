import DeepShadow.Proofs.Cache.Source
import DeepShadow.Proofs.Cache.Waiting

/-!
# Pixels that are asked for at the same time

A cache is shared by the threads of a renderer, each of which asks for one pixel after the
other.  A thread holds the lock of the cache while it looks up the tile of its pixel, and
loads the tile, or waits for the one that does, when it has left the lock.  The reader that
runs takes these steps for several threads at once, in the order in which the most tiles are
held that are not loaded: first every thread looks up its tile, and then, thread by thread,
the tile is loaded or taken from the slot into which it came in between.

This ties the cache of the reader to the shared cache, whose theorems are about the steps of
any threads in any order: the order above is one of them.  Behind these steps every slot has
its result, every pixel has the answer that its file gives, and no more tiles are held than
the capacity or the number of threads.
-/

namespace DeepShadow

/-! ## Queries of lists -/

instance : LawfulMonad Traced :=
  LawfulMonad.mk' Traced
    (fun traced => congrArg (Traced.mk traced.value) (List.append_nil traced.lines))
    (fun _ _ => rfl)
    (fun _ _ _ => congrArg (Traced.mk _) (List.append_assoc _ _ _))

namespace Query

variable {State α β : Type}

theorem answer_mapM_cons
    (query : α -> Query State β)
    (first : α)
    (others : List α)
    (state : State) :
    (((first :: others).mapM query).answer state).value =
      match ((query first).answer state).value with
      | .ok (result, next) =>
          ((others.mapM query).answer next).value.map fun (results, last) =>
            (result :: results, last)
      | .error violation => .error violation := by
  rw [List.mapM_cons, answer_bind]
  cases ((query first).answer state).value with
  | error violation => rfl
  | ok answer =>
      simp only
      rw [answer_bind]
      cases ((others.mapM query).answer answer.2).value <;> rfl

theorem answer_mapM_cons_of_ok
    {query : α -> Query State β}
    {first : α}
    {others : List α}
    {state next last : State}
    {result : β}
    {results : List β}
    (answered : ((query first).answer state).value = .ok (result, next))
    (answeredOthers : ((others.mapM query).answer next).value = .ok (results, last)) :
    (((first :: others).mapM query).answer state).value = .ok (result :: results, last) := by
  rw [answer_mapM_cons, answered]
  simp only [answeredOthers]
  rfl

theorem answer_mapM_some
    {query : α -> Query State β}
    {value : α}
    {state next : State}
    {result : β}
    (answered : ((query value).answer state).value = .ok (result, next)) :
    (((some value).mapM query).answer state).value = .ok (some result, next) := by
  rw [Option.mapM_some, ← bind_pure_comp, answer_bind, answered]
  rfl

/-- Contracts that are kept or broken leave the state. -/
theorem answer_mapM_require
    (results : α -> Except Violation β)
    (values : List α)
    (state : State) :
    ((values.mapM fun value => (require (results value) : Query State β)).answer state).value =
      (values.mapM results).map (·, state) := by
  induction values with
  | nil => rfl
  | cons first others inductionHypothesis =>
      have firstAnswer : ((require (results first) : Query State β).answer state).value =
          (results first).map (·, state) := by
        cases results first <;> rfl
      rw [answer_mapM_cons, firstAnswer, List.mapM_cons]
      cases results first with
      | error violation => rfl
      | ok result =>
          simp only [Except.map, inductionHypothesis]
          cases others.mapM results <;> rfl

end Query

namespace TileSource

variable {ε : Type}

/-- The position of the tile that owns the pixel of a point. -/
def positionOf (source : TileSource ε) (point : Nat × Nat × Single) : Option TilePosition :=
  (source.grid.tileForPixel point.1 point.2.1).toOption

/-- The visibility at a point. -/
def answerAt (source : TileSource ε) (point : Nat × Nat × Single) : Except Violation Color :=
  source.visibilityAt point.1 point.2.1 point.2.2

end TileSource

namespace CachedReader

variable {reader : CachedReader} {entry : CacheEntry}

/-- A result that came into the slot of an entry is taken. -/
theorem answer_fetch_of_settled
    {tile : Option Tile}
    (current : ((reader.cache.entries.find? (·.ticket = entry.ticket)).getD entry).slot =
      .settled tile) :
    ((fetch entry).answer reader).value = .ok (tile, reader) := by
  rw [fetch, Query.answer_get_bind]
  simp only [current]
  rfl

/-- Where nothing came into the slot of an entry, its tile is loaded. -/
theorem answer_fetch_of_pending
    (current : ((reader.cache.entries.find? (·.ticket = entry.ticket)).getD entry).slot =
      .pending) :
    ∃ last, ((fetch entry).answer reader).value =
        .ok ((reader.source.load entry.position).toOption, last) ∧
      last.source = reader.source ∧
      last.cache =
        reader.cache.settle entry.ticket (reader.source.load entry.position).toOption := by
  rw [fetch, Query.answer_get_bind]
  simp only [current]
  exact ⟨_, rfl, rfl, rfl⟩

/-- All tiles are looked up before the first one is taken. -/
theorem visibilitiesAt_eq (points : List (Nat × Nat × Single)) :
    visibilitiesAt points = (do
      let tiles := (← get).tiles
      let entries ← points.mapM (Option.mapM enter ∘ tiles.positionOf)
      let results ← entries.mapM (Option.mapM fetch)
      (points.zip results).mapM fun asked =>
        Query.require
          (TileSource.visibilityIn asked.1.1 asked.1.2.1 asked.1.2.2 asked.2.join)) := by
  unfold visibilitiesAt
  refine bind_congr fun reader => bind_congr fun entries => bind_congr fun results => ?_
  congr 1
  funext ⟨⟨x, y, depth⟩, result⟩
  simp only
  cases result.join <;> rfl

theorem answer_visibilitiesAt
    {points : List (Nat × Nat × Single)}
    {entries : List (Option CacheEntry)}
    {middle last : CachedReader}
    (looked : ((points.mapM (Option.mapM enter ∘ reader.tiles.positionOf)).answer reader).value =
      .ok (entries, middle))
    (taken : ((entries.mapM (Option.mapM fetch)).answer middle).value =
      .ok (points.map fun point => (reader.tiles.positionOf point).map fun position =>
        (reader.source.load position).toOption, last)) :
    ((visibilitiesAt points).answer reader).value =
      (points.mapM reader.tiles.answerAt).map (·, last) := by
  have answer_eq (point : Nat × Nat × Single) :
      TileSource.visibilityIn point.1 point.2.1 point.2.2
        ((reader.tiles.positionOf point).map fun position =>
          (reader.source.load position).toOption).join = reader.tiles.answerAt point := by
    unfold TileSource.answerAt TileSource.visibilityAt TileSource.tileForPixel
      TileSource.positionOf
    cases reader.tiles.grid.tileForPixel point.1 point.2.1 <;> rfl
  rw [visibilitiesAt_eq, Query.answer_get_bind]
  simp only
  rw [Query.answer_bind, looked]
  simp only
  rw [Query.answer_bind, taken]
  simp only
  rw [Query.answer_mapM_require, ← List.map_prod_left_eq_zip, List.mapM_map]
  simp only [Function.comp_def, answer_eq]

end CachedReader

namespace SharedCache

variable {state next : SharedCache} {caller : Nat} {position : TilePosition} {entry : CacheEntry}
  {slot : SharedSlot} {ticket : Nat}

/-! ## Readers -/

/-- The cache of a reader is that of a shared cache in which no call loads its tile at the
moment; what came into the slots is what loading the tiles from the file gives. -/
structure Follows (state : SharedCache) (reader : CachedReader) : Prop where
  sound : state.Sound
  cache_eq : state.cache = reader.cache
  contents : ∀ (ticket : Nat) (slot : SharedSlot), state.slots[ticket]? = some slot ->
    slot.content = .empty ∨
      slot.content = .decoded (reader.source.load slot.position).toOption

theorem follows_ofCapacity
    {source : Texture.Reader}
    {capacity : Nat}
    {reader : CachedReader}
    (made : CachedReader.ofCapacity source capacity = .ok reader) :
    (ofCache reader.cache).Follows reader ∧ reader.cache.residentCount = 0 ∧
      reader.cache.capacity = capacity := by
  unfold CachedReader.ofCapacity at made
  cases madeCache : Cache.ofCapacity capacity with
  | error error =>
      rw [madeCache] at made
      cases made
  | ok cache =>
      rw [madeCache] at made
      cases made
      refine ⟨⟨sound_ofCache madeCache, rfl, fun _ _ isSlot => by cases isSlot⟩, ?_⟩
      rw [Cache.ofCapacity] at madeCache
      split at madeCache
      next =>
        cases madeCache
        exact ⟨rfl, rfl⟩
      next => cases madeCache

variable {reader : CachedReader}

/-- The first step of a request is a lookup. -/
theorem Follows.enter
    (follows : state.Follows reader)
    (position : TilePosition) :
    ∃ last, ((CachedReader.enter position).answer reader).value =
        .ok ((state.cache.lookup position).1, last) ∧
      last.source = reader.source ∧
      (state.lookup position).Follows last := by
  refine ⟨{ reader with cache := (reader.cache.lookup position).2.2 }, ?_, rfl, ?_, ?_, ?_⟩
  · rw [follows.cache_eq]
    rfl
  · exact follows.sound.lookup position
  · unfold SharedCache.lookup
    rw [follows.cache_eq]
  · intro ticket slot isSlot
    rcases follows.sound.of_slot_lookup isSlot with isOld | ⟨-, empty⟩
    · exact follows.contents ticket slot isOld
    · exact Or.inl empty

/-- The second step of a request gives the tile of the file: it is either loaded, or it
came into the slot in between. -/
theorem Follows.fetch
    (follows : state.Follows reader)
    (awaits : state.Awaits caller entry) :
    ∃ events next last,
      ((CachedReader.fetch entry).answer reader).value =
        .ok ((reader.source.load entry.position).toOption, last) ∧
      last.source = reader.source ∧
      state.run events = some next ∧
      next.Follows last ∧
      (∀ event ∈ events, event.caller? = some caller) ∧
      ∀ (ticket : Nat) (slot : SharedSlot), next.slots[ticket]? = some slot ->
        slot.content.isDecoded = false ->
          state.slots[ticket]? = some slot ∧ entry.ticket ≠ ticket := by
  obtain ⟨isCall, slot, isSlot, kept⟩ := awaits
  have current := follows.sound.shows.slot_current isSlot kept
  have position_eq : slot.position = entry.position := follows.sound.position_eq isCall isSlot
  rw [follows.cache_eq] at current
  rcases follows.contents _ slot isSlot with empty | decoded
  · rw [empty] at current
    obtain ⟨last, answered, source_eq, lastCache_eq⟩ :=
      CachedReader.answer_fetch_of_pending current
    obtain ⟨next, reached, cache_eq, slots_eq⟩ :=
      run_load isCall isSlot rfl empty (reader.source.load entry.position).toOption
    have set_eq := getElem?_set_of_getElem? isSlot
      { slot with content := .decoded (reader.source.load entry.position).toOption }
    refine ⟨_, next, last, answered, source_eq, reached,
      ⟨(follows.sound.run reached).1, ?_, ?_⟩, ?_, ?_⟩
    · rw [cache_eq, lastCache_eq, follows.cache_eq]
    · intro ticket other isOther
      rw [slots_eq, set_eq] at isOther
      rw [source_eq]
      split at isOther
      next =>
        cases isOther
        rw [position_eq]
        exact Or.inr rfl
      next => exact follows.contents ticket other isOther
    · simp [Event.caller?]
    · intro ticket other isOther undecoded
      rw [slots_eq, set_eq] at isOther
      split at isOther
      next =>
        cases isOther
        cases undecoded
      next different => exact ⟨isOther, different⟩
  · have stepped := step_collect isCall isSlot rfl decoded
    rw [decoded] at current
    rw [← position_eq]
    refine ⟨[.collect caller], _, reader, CachedReader.answer_fetch_of_settled current, rfl, ?_,
      ⟨follows.sound.step stepped, follows.cache_eq, follows.contents⟩, ?_, ?_⟩
    · rw [run_cons, stepped]
      rfl
    · simp [Event.caller?]
    · intro ticket other isOther undecoded
      refine ⟨isOther, ?_⟩
      rintro rfl
      rw [show state.slots[entry.ticket]? = some other from isOther] at isSlot
      cases isSlot
      rw [decoded] at undecoded
      cases undecoded

/-! ## All pixels -/

/-- The entries that are there have a property with the numbers of their calls, which
begin with the given one. -/
def ForCalls (property : Nat -> CacheEntry -> Prop) : Nat -> List (Option CacheEntry) -> Prop
  | _, [] => True
  | caller, none :: entries => ForCalls property caller entries
  | caller, some entry :: entries =>
      property caller entry ∧ ForCalls property (caller + 1) entries

theorem ForCalls.imp
    {property weaker : Nat -> CacheEntry -> Prop}
    {entries : List (Option CacheEntry)}
    (holds : ForCalls property caller entries)
    (implies : ∀ (number : Nat) (entry : CacheEntry), caller ≤ number ->
      property number entry -> weaker number entry) :
    ForCalls weaker caller entries := by
  induction entries generalizing caller with
  | nil => trivial
  | cons first others inductionHypothesis =>
      cases first with
      | none => exact inductionHypothesis holds implies
      | some entry =>
          refine ⟨implies caller entry (Nat.le_refl _) holds.1,
            inductionHypothesis holds.2 fun number entry later => ?_⟩
          exact implies number entry (Nat.le_of_succ_le later)

/-- The tiles of all pixels are looked up first. -/
theorem Follows.enterAll
    (follows : state.Follows reader)
    (positions : List (Option TilePosition)) :
    ∃ entries next last,
      ((positions.mapM (Option.mapM CachedReader.enter)).answer reader).value =
        .ok (entries, last) ∧
      last.source = reader.source ∧
      state.run (lookups positions) = some next ∧
      next.Follows last ∧
      entries.map (Option.map CacheEntry.position) = positions ∧
      ForCalls next.Given state.calls.length entries ∧
      ∀ (ticket : Nat) (slot : SharedSlot), next.slots[ticket]? = some slot ->
        state.slots[ticket]? = some slot ∨
          ∃ entry, some entry ∈ entries ∧ entry.ticket = ticket := by
  induction positions generalizing state reader with
  | nil =>
      exact ⟨[], state, reader, rfl, rfl, rfl, follows, rfl, trivial, fun _ _ => Or.inl⟩
  | cons first others inductionHypothesis =>
      cases first with
      | none =>
          obtain ⟨entries, next, last, answered, source_eq, reached, followsNext, positions_eq,
            given, slots⟩ := inductionHypothesis follows
          refine ⟨none :: entries, next, last, Query.answer_mapM_cons_of_ok rfl answered,
            source_eq, reached, followsNext, congrArg (none :: ·) positions_eq, given, ?_⟩
          intro ticket slot isSlot
          exact (slots ticket slot isSlot).imp_right fun ⟨entry, isEntry, same⟩ =>
            ⟨entry, List.mem_cons_of_mem _ isEntry, same⟩
      | some position =>
          obtain ⟨middle, answeredFirst, middleSource_eq, followsMiddle⟩ := follows.enter position
          obtain ⟨entries, next, last, answered, source_eq, reached, followsNext, positions_eq,
            given, slots⟩ := inductionHypothesis followsMiddle
          have stepped : state.step (.lookup position) = some (state.lookup position) := rfl
          have length_eq : (state.lookup position).calls.length = state.calls.length + 1 :=
            length_calls_step stepped
          rw [lookups_cons_some, run_cons]
          refine ⟨some (state.cache.lookup position).1 :: entries, next, last,
            Query.answer_mapM_cons_of_ok (Query.answer_mapM_some answeredFirst) answered,
            source_eq.trans middleSource_eq, reached, followsNext, ?_, ⟨?_, ?_⟩, ?_⟩
          · rw [List.map_cons, positions_eq, Option.map_some, Cache.position_lookup]
          · exact (follows.sound.given_lookup position).run_lookups reached
          · rw [length_eq] at given
            exact given
          · intro ticket slot isSlot
            rcases slots ticket slot isSlot with isMiddle | ⟨entry, isEntry, same⟩
            · rcases follows.sound.of_slot_lookup isMiddle with isOld | ⟨same, -⟩
              · exact Or.inl isOld
              · exact Or.inr ⟨_, List.mem_cons_self, same⟩
            · exact Or.inr ⟨entry, List.mem_cons_of_mem _ isEntry, same⟩

/-- Then the tiles that are not held are loaded, one after the other. -/
theorem Follows.fetchAll
    (follows : state.Follows reader)
    {entries : List (Option CacheEntry)}
    (awaits : ForCalls state.Awaits caller entries)
    (known : ∀ (ticket : Nat) (slot : SharedSlot), state.slots[ticket]? = some slot ->
      slot.content.isDecoded = false -> ∃ entry, some entry ∈ entries ∧ entry.ticket = ticket) :
    ∃ events next last,
      ((entries.mapM (Option.mapM CachedReader.fetch)).answer reader).value =
        .ok (entries.map (Option.map fun entry =>
          (reader.source.load entry.position).toOption), last) ∧
      last.source = reader.source ∧
      state.run events = some next ∧
      next.Follows last ∧
      (∀ event ∈ events, event.isLookup = false) ∧
      next.undecodedCount = 0 := by
  induction entries generalizing state reader caller with
  | nil =>
      refine ⟨[], state, reader, rfl, rfl, rfl, follows, List.forall_mem_nil _, ?_⟩
      refine List.countP_eq_zero.mpr fun slot isSlot => ?_
      obtain ⟨ticket, isSlot⟩ := List.mem_iff_getElem?.mp isSlot
      intro undecoded
      obtain ⟨entry, isEntry, -⟩ := known ticket slot isSlot (by simpa using undecoded)
      cases isEntry
  | cons first others inductionHypothesis =>
      cases first with
      | none =>
          have knownOthers (ticket : Nat) (slot : SharedSlot)
              (isSlot : state.slots[ticket]? = some slot)
              (undecoded : slot.content.isDecoded = false) :
              ∃ entry, some entry ∈ others ∧ entry.ticket = ticket := by
            simpa using known ticket slot isSlot undecoded
          obtain ⟨events, next, last, answered, rest⟩ :=
            inductionHypothesis follows awaits knownOthers
          exact ⟨events, next, last, Query.answer_mapM_cons_of_ok rfl answered, rest⟩
      | some entry =>
          obtain ⟨own, middle, middleReader, answeredFirst, middleSource_eq, reachedMiddle,
            followsMiddle, isOwn, undecodedBefore⟩ := follows.fetch awaits.1
          have awaitsOthers : ForCalls middle.Awaits (caller + 1) others :=
            awaits.2.imp fun number other later waits =>
              waits.run follows.sound reachedMiddle isOwn (Nat.ne_of_lt later)
          have knownOthers (ticket : Nat) (slot : SharedSlot)
              (isSlot : middle.slots[ticket]? = some slot)
              (undecoded : slot.content.isDecoded = false) :
              ∃ entry, some entry ∈ others ∧ entry.ticket = ticket := by
            obtain ⟨wasSlot, different⟩ := undecodedBefore ticket slot isSlot undecoded
            obtain ⟨other, isEntry, same⟩ := known ticket slot wasSlot undecoded
            rcases List.mem_cons.mp isEntry with isFirst | isOther
            · cases isFirst
              exact absurd same different
            · exact ⟨other, isOther, same⟩
          obtain ⟨events, next, last, answered, source_eq, reached, followsNext, noLookup,
            decoded⟩ := inductionHypothesis followsMiddle awaitsOthers knownOthers
          rw [middleSource_eq] at answered source_eq
          refine ⟨own ++ events, next, last,
            Query.answer_mapM_cons_of_ok (Query.answer_mapM_some answeredFirst) answered, source_eq,
            ?_, followsNext, ?_, decoded⟩
          · rw [run_append, reachedMiddle]
            exact reached
          · intro event isEvent
            rcases List.mem_append.mp isEvent with isFirst | isLater
            · cases event with
              | lookup position => cases isOwn _ isFirst
              | start _ => rfl
              | finish _ _ => rfl
              | collect _ => rfl
            · exact noLookup event isLater

/-! ## Requests one after the other -/

/-- A reader that several threads ask for a pixel each at the same time takes steps of a
shared cache, behind which no slot is without a result.  Every pixel has the answer that the
file gives. -/
theorem Follows.visibilitiesAt
    (follows : state.Follows reader)
    (decoded : state.undecodedCount = 0)
    (points : List (Nat × Nat × Single)) :
    ∃ events next last,
      state.run events = some next ∧
      events.countP Event.isLookup ≤ points.length ∧
      next.Follows last ∧
      next.undecodedCount = 0 ∧
      last.source = reader.source ∧
      ((CachedReader.visibilitiesAt points).answer reader).value =
        (points.mapM reader.tiles.answerAt).map (·, last) := by
  obtain ⟨entries, middle, middleReader, answeredEntries, middleSource_eq, reachedMiddle,
    followsMiddle, positions_eq, given, slots⟩ :=
      follows.enterAll (points.map reader.tiles.positionOf)
  have awaits : ForCalls middle.Awaits state.calls.length entries :=
    given.imp fun _ _ _ isGiven => isGiven.awaits
  have known (ticket : Nat) (slot : SharedSlot) (isSlot : middle.slots[ticket]? = some slot)
      (undecoded : slot.content.isDecoded = false) :
      ∃ entry, some entry ∈ entries ∧ entry.ticket = ticket := by
    refine (slots ticket slot isSlot).resolve_left fun wasSlot => ?_
    have noneLeft := List.countP_eq_zero.mp decoded slot (List.mem_of_getElem? wasSlot)
    rw [undecoded] at noneLeft
    exact noneLeft rfl
  obtain ⟨events, next, last, answeredTiles, source_eq, reached, followsNext, noLookup,
    decodedNext⟩ := followsMiddle.fetchAll awaits known
  rw [middleSource_eq] at answeredTiles source_eq
  have tiles_eq : entries.map (Option.map fun entry =>
      (reader.source.load entry.position).toOption) =
        points.map fun point => (reader.tiles.positionOf point).map fun position =>
          (reader.source.load position).toOption := by
    have mapped := congrArg (List.map (Option.map fun position =>
      (reader.source.load position).toOption)) positions_eq
    simpa only [List.map_map, Function.comp_def, Option.map_map] using mapped
  refine ⟨lookups (points.map reader.tiles.positionOf) ++ events, next, last, ?_, ?_, followsNext,
    decodedNext, source_eq, ?_⟩
  · rw [run_append, reachedMiddle]
    exact reached
  · have none : events.countP Event.isLookup = 0 :=
      List.countP_eq_zero.mpr fun event isEvent => by rw [noLookup event isEvent]; decide
    rw [List.countP_append, none, Nat.add_zero, ← List.length_map reader.tiles.positionOf]
    exact countP_isLookup_lookups _
  · rw [List.mapM_map] at answeredEntries
    rw [tiles_eq] at answeredTiles
    exact CachedReader.answer_visibilitiesAt answeredEntries answeredTiles

/-- However many requests for several pixels are made one after the other, every pixel has
the answer that the file gives, and no more tiles are held than there may be or than there
are pixels in one request. -/
theorem Follows.mapM_visibilitiesAt
    (follows : state.Follows reader)
    (decoded : state.undecodedCount = 0)
    (requests : List (List (Nat × Nat × Single))) :
    ∃ events next last,
      state.run events = some next ∧
      next.Follows last ∧
      next.undecodedCount = 0 ∧
      ((requests.mapM CachedReader.visibilitiesAt).answer reader).value =
        (requests.mapM (List.mapM reader.tiles.answerAt)).map (·, last) ∧
      ∀ bound, state.cache.capacity ≤ bound -> state.cache.residentCount ≤ bound ->
        (∀ points ∈ requests, points.length ≤ bound) -> next.cache.residentCount ≤ bound := by
  induction requests generalizing state reader with
  | nil =>
      exact ⟨[], state, reader, rfl, follows, decoded, rfl, fun _ _ resident_le _ => resident_le⟩
  | cons points others inductionHypothesis =>
      obtain ⟨own, middle, middleReader, reachedMiddle, few, followsMiddle, decodedMiddle,
        source_eq, answeredFirst⟩ := follows.visibilitiesAt decoded points
      obtain ⟨events, next, last, reached, followsNext, decodedNext, answered, bounded⟩ :=
        inductionHypothesis followsMiddle decodedMiddle
      have tiles_eq : middleReader.tiles = reader.tiles := by
        rw [CachedReader.tiles, source_eq, CachedReader.tiles]
      refine ⟨own ++ events, next, last, ?_, followsNext, decodedNext, ?_, ?_⟩
      · rw [run_append, reachedMiddle]
        exact reached
      · rw [Query.answer_mapM_cons, answeredFirst, List.mapM_cons]
        cases points.mapM reader.tiles.answerAt with
        | error violation => rfl
        | ok colors =>
            simp only [Except.map, answered, tiles_eq]
            cases others.mapM (List.mapM reader.tiles.answerAt) <;> rfl
      · intro bound capacity_le resident_le pixels_le
        have few_le := Nat.le_trans few (pixels_le points List.mem_cons_self)
        rw [← Nat.zero_add (own.countP Event.isLookup), ← decoded] at few_le
        obtain ⟨capacity_eq, residentMiddle⟩ :=
          follows.sound.residentCount_run_le reachedMiddle capacity_le resident_le few_le
        rw [← capacity_eq] at capacity_le
        exact bounded bound capacity_le residentMiddle fun other isOther =>
          pixels_le other (List.mem_cons_of_mem _ isOther)

end SharedCache

/-- A new reader answers threads that ask for a pixel each at the same time as its file does,
and so one such request after the other.  Its cache holds no more tiles than its capacity, or
than there are threads in one request. -/
theorem CachedReader.answer_mapM_visibilitiesAt
    {source : Texture.Reader}
    {capacity : Nat}
    {reader : CachedReader}
    (made : CachedReader.ofCapacity source capacity = .ok reader)
    (requests : List (List (Nat × Nat × Single))) :
    ∃ last, ((requests.mapM visibilitiesAt).answer reader).value =
        (requests.mapM (List.mapM reader.tiles.answerAt)).map (·, last) ∧
      ∀ bound, capacity ≤ bound -> (∀ points ∈ requests, points.length ≤ bound) ->
        last.cache.residentCount ≤ bound := by
  obtain ⟨follows, empty, capacity_eq⟩ := SharedCache.follows_ofCapacity made
  obtain ⟨-, next, last, -, followsLast, -, answered, bounded⟩ :=
    follows.mapM_visibilitiesAt rfl requests
  refine ⟨last, answered, ?_⟩
  intro bound capacity_le pixels_le
  rw [← followsLast.cache_eq]
  exact bounded bound (Nat.le_trans (Nat.le_of_eq capacity_eq) capacity_le)
    (Nat.le_trans (Nat.le_of_eq empty) (Nat.zero_le _)) pixels_le

end DeepShadow
