import DeepShadow.Proofs.Cache.Eviction
import DeepShadow.ShadowMap

/-!
# The cache cannot be seen in the answers

Between two requests, every entry of a cache holds what loading its tile gives.
Whatever was requested before and whatever was evicted for it, a request therefore
gives what loading the tile gives, and a map answers like its file.
-/

namespace DeepShadow

namespace Cache

variable {ε : Type} {load : TilePosition -> Except ε Tile} {cache : Cache}

/-- Every entry holds what loading its tile gives, and was entered by one of the
misses so far. -/
def Faithful (load : TilePosition -> Except ε Tile) (cache : Cache) : Prop :=
  ∀ entry ∈ cache.entries,
    entry.slot = .settled (load entry.position).toOption ∧
      entry.ticket < cache.counters.misses

theorem faithful_ofCapacity
    (load : TilePosition -> Except ε Tile)
    {capacity : Nat}
    (positive : 0 < capacity) :
    ∃ cache, ofCapacity capacity = .ok cache ∧ cache.Faithful load := by
  unfold ofCapacity
  rw [dif_pos positive]
  refine ⟨_, rfl, ?_⟩
  intro entry member
  cases member

/-- A request gives what loading the tile gives. -/
theorem Faithful.request
    (faithful : cache.Faithful load)
    (position : TilePosition) :
    (cache.request load position).1.tile = (load position).toOption ∧
      (cache.request load position).2.Faithful load := by
  cases found : cache.entry? position with
  | some entry =>
      obtain ⟨isEntry, position_eq⟩ := of_entry?_eq_some found
      rw [request_of_found found (faithful entry isEntry).1, position_eq]
      refine ⟨rfl, ?_⟩
      intro other isOther
      obtain ⟨original, isOriginal, rfl⟩ := List.mem_map.mp isOther
      simpa using faithful original isOriginal
  | none =>
      rw [request_of_not_found found]
      refine ⟨rfl, ?_⟩
      intro entry isEntry
      obtain ⟨original, isLeft, rfl⟩ := List.mem_map.mp isEntry
      rw [CacheEntry.slot_settle, CacheEntry.position_settle, CacheEntry.ticket_settle,
        (counters_settle _ _ _).2.1]
      rcases mem_of_mem_makeRoom isLeft with rfl | earlier
      · exact ⟨if_pos rfl, Nat.lt_succ_self _⟩
      · -- An entry of an earlier miss is not the one that is settled now.
        obtain ⟨settled, ticket_lt⟩ := faithful original earlier
        rw [if_neg (Nat.ne_of_lt ticket_lt)]
        exact ⟨settled, Nat.lt_succ_of_lt ticket_lt⟩

end Cache

/-! ## Queries -/

namespace Query

variable {State α β : Type}

theorem answer_bind
    (query : Query State α)
    (next : α -> Query State β)
    (state : State) :
    ((query >>= next).answer state).value =
      match (query.answer state).value with
      | .ok (value, state) => ((next value).answer state).value
      | .error violation => .error violation := by
  unfold answer
  rw [StateT.run_bind, ExceptT.run_bind, Traced.value_bind]
  cases (query.run state).run.value with
  | error violation => rfl
  | ok result => rfl

theorem answer_get_bind (next : State -> Query State α) (state : State) :
    (((get : Query State State) >>= next).answer state).value =
      ((next state).answer state).value := by
  rw [answer_bind]
  rfl

end Query

namespace CachedReader

variable {reader : CachedReader}

/-- The tiles held are those of the file. -/
def Faithful (reader : CachedReader) : Prop := reader.cache.Faithful reader.source.load

theorem answer_request
    (faithful : reader.Faithful)
    (position : TilePosition) :
    ∃ next, ((request position).answer reader).value =
        .ok ((reader.source.load position).toOption, next) ∧
      next.source = reader.source ∧
      next.Faithful := by
  obtain ⟨tile_eq, faithfulNext⟩ := Cache.Faithful.request faithful position
  rw [← tile_eq]
  exact ⟨_, rfl, rfl, faithfulNext⟩

/-- The visibility of a pixel is the one that its tile has in the file. -/
theorem answer_visibilityAt
    (faithful : reader.Faithful)
    {x y : Nat}
    {position : TilePosition}
    (owner_eq : reader.source.grid.tileForPixel x y = .ok position)
    {tile : Tile}
    (loaded : reader.source.load position = .ok tile)
    {depth : Single}
    {color : Color}
    (color_eq : tile.visibilityAt x y depth = .ok color) :
    ∃ next, ((visibilityAt x y depth).answer reader).value = .ok (color, next) ∧
      next.source = reader.source ∧
      next.Faithful := by
  obtain ⟨next, answered, source_eq, faithfulNext⟩ := answer_request faithful position
  rw [loaded] at answered
  have asked : ((requestForPixel x y).answer reader).value = .ok (some tile, next) := by
    unfold requestForPixel
    rw [Query.answer_get_bind]
    simp only [owner_eq]
    exact answered
  refine ⟨next, ?_, source_eq, faithfulNext⟩
  unfold visibilityAt
  rw [Query.answer_bind, asked]
  simp only [color_eq]
  rfl

end CachedReader

namespace ShadowMap

/-- A map answers from a file. -/
def Answers (source : Texture.Reader) (map : ShadowMap) : Prop :=
  ∃ reader, map.reader = some reader ∧ reader.source = source ∧ reader.Faithful

variable {source : Texture.Reader} {map : ShadowMap}

/-- A file that is opened makes a map, whatever the capacity of its cache is. -/
theorem open_eq_ok
    (path : String)
    {capacity : Nat}
    (positive : 0 < capacity)
    {bytes : List UInt8}
    (opened : (Texture.Reader.open path (.ok bytes)).value = .ok source) :
    ∃ map, (ShadowMap.open path capacity (.ok bytes)).value = .ok map ∧
      map.Answers source := by
  obtain ⟨cache, made, faithful⟩ := Cache.faithful_ofCapacity source.load positive
  have reader_eq : CachedReader.ofCapacity source capacity = .ok ⟨source, cache, 0⟩ := by
    unfold CachedReader.ofCapacity
    rw [made]
    rfl
  refine ⟨⟨path, some ⟨source, cache, 0⟩⟩, ?_, ⟨source, cache, 0⟩, rfl, rfl, faithful⟩
  unfold ShadowMap.open
  rw [if_neg (Nat.ne_of_gt positive), Traced.value_bind, opened]
  simp only [reader_eq]
  rfl

/-- A map with a reader answers from it. -/
theorem answer_ask
    {α : Type}
    (fallback : α)
    (query : Query CachedReader α)
    {reader : CachedReader}
    (reader_eq : map.reader = some reader) :
    ((ask fallback query).answer map).value =
      match (query.answer reader).value with
      | .ok (value, reader) => .ok (value, { map with reader := some reader })
      | .error violation => .error violation := by
  obtain ⟨path, _⟩ := map
  cases reader_eq
  change (ExceptT.run (query.run reader >>= fun answer =>
    pure (answer.1, (⟨path, some answer.2⟩ : ShadowMap)))).value = _
  rw [ExceptT.run_bind, Traced.value_bind]
  unfold Query.answer
  cases (query.run reader).run.value with
  | error violation => rfl
  | ok answer => rfl

/-- A map answers what the tile of a pixel has in the file. -/
theorem Answers.answer_visibilityAt
    (answers : map.Answers source)
    {x y : Nat}
    {position : TilePosition}
    (owner_eq : source.grid.tileForPixel x y = .ok position)
    {tile : Tile}
    (loaded : source.load position = .ok tile)
    {depth : Single}
    {color : Color}
    (color_eq : tile.visibilityAt x y depth = .ok color) :
    ∃ next, ((visibilityAt x y depth).answer map).value = .ok (color, next) ∧
      next.Answers source := by
  obtain ⟨reader, reader_eq, rfl, faithful⟩ := answers
  obtain ⟨next, answered, source_eq, faithfulNext⟩ :=
    CachedReader.answer_visibilityAt faithful owner_eq loaded color_eq
  refine ⟨{ map with reader := some next }, ?_, next, rfl, source_eq, faithfulNext⟩
  unfold visibilityAt
  rw [answer_ask Color.white _ reader_eq, answered]

/-- Looks up the visibilities of several pixels, one after the other. -/
def visibilities : List (Nat × Nat × Single) -> Query ShadowMap (List Color)
  | [] => return []
  | (x, y, depth) :: requests => do
      let color ← visibilityAt x y depth
      return color :: (← visibilities requests)

/-- Lookups do not disturb each other, in whatever order they come. -/
theorem Answers.answer_visibilities
    (answers : map.Answers source)
    {expected : Nat -> Nat -> Single -> Color}
    (requests : List (Nat × Nat × Single))
    (known : ∀ x y depth, (x, y, depth) ∈ requests ->
      ∃ position tile, source.grid.tileForPixel x y = .ok position ∧
        source.load position = .ok tile ∧
        tile.visibilityAt x y depth = .ok (expected x y depth)) :
    ∃ last, ((visibilities requests).answer map).value =
        .ok (requests.map fun (x, y, depth) => expected x y depth, last) ∧
      last.Answers source := by
  induction requests generalizing map with
  | nil => exact ⟨map, rfl, answers⟩
  | cons request requests inductionHypothesis =>
      obtain ⟨x, y, depth⟩ := request
      obtain ⟨position, tile, owner_eq, loaded, color_eq⟩ := known x y depth List.mem_cons_self
      obtain ⟨next, answered, answersNext⟩ :=
        answers.answer_visibilityAt owner_eq loaded color_eq
      obtain ⟨last, answeredRest, answersLast⟩ := inductionHypothesis answersNext
        fun x y depth member => known x y depth (List.mem_cons_of_mem _ member)
      refine ⟨last, ?_, answersLast⟩
      unfold visibilities
      rw [Query.answer_bind, answered]
      simp only
      rw [Query.answer_bind, answeredRest]
      rfl

end ShadowMap
end DeepShadow
