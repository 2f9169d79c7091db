import DeepShadow.Proofs.Cache.Simultaneous
import DeepShadow.Proofs.ShadowMap.Slices
import DeepShadow.Proofs.Texture.Reading

/-!
# Questions to a map

What a map answers to a question follows from its file alone: neither the capacity of its
cache nor what was asked before can be seen.  A map whose file cannot be opened has no
shadows.  Where the tiles of a file have fewer than `2 ^ 32` pixels, every question has an
answer, whatever else the file holds, except for slices of an image whose colors no array has
room for.  Such an image is larger than one tile, so that a bound of the tiles does not help.
The memory that is there for an array is not counted.
-/

namespace DeepShadow

/-! ## Queries with a known answer -/

namespace Query

variable {State α β : Type} {holds : State -> Prop}

/-- A query has an answer on every state with a property, and leaves such a state. -/
def Gives (holds : State -> Prop) (query : Query State α) (value : α) : Prop :=
  ∀ state, holds state ->
    ∃ next, (query.answer state).value = .ok (value, next) ∧ holds next

theorem gives_pure (value : α) : Gives holds (pure value) value :=
  fun state holdsState => ⟨state, rfl, holdsState⟩

theorem Gives.bind
    {query : Query State α}
    {next : α -> Query State β}
    {value : α}
    {result : β}
    (first : Gives holds query value)
    (second : Gives holds (next value) result) :
    Gives holds (query >>= next) result := by
  intro state holdsState
  obtain ⟨middle, answered, holdsMiddle⟩ := first state holdsState
  obtain ⟨last, answeredNext, holdsLast⟩ := second middle holdsMiddle
  refine ⟨last, ?_, holdsLast⟩
  rw [answer_bind, answered]
  exact answeredNext

/-- What a query does with its state has to be known for the states with the property. -/
theorem gives_get_bind
    {next : State -> Query State α}
    {value : α}
    (known : ∀ state, holds state -> Gives holds (next state) value) :
    Gives holds ((get : Query State State) >>= next) value := by
  intro state holdsState
  rw [answer_get_bind]
  exact known state holdsState state holdsState

theorem gives_require
    {result : Except Violation α}
    {value : α}
    (kept : result = .ok value) :
    Gives holds (require result : Query State α) value := by
  rw [kept]
  exact gives_pure value

theorem gives_mapM
    {query : α -> Query State β}
    {answerOf : α -> β}
    (values : List α)
    (each : ∀ value ∈ values, Gives holds (query value) (answerOf value)) :
    Gives holds (values.mapM query) (values.map answerOf) := by
  induction values with
  | nil => exact gives_pure []
  | cons first others inductionHypothesis =>
      rw [List.mapM_cons]
      refine (each first List.mem_cons_self).bind ?_
      have rest := inductionHypothesis fun value member =>
        each value (List.mem_cons_of_mem _ member)
      exact rest.bind (gives_pure _)

theorem gives_foldlM
    {query : β -> α -> Query State β}
    {step : β -> α -> β}
    (values : List α)
    (each : ∀ sum, ∀ value ∈ values, Gives holds (query sum value) (step sum value))
    (sum : β) :
    Gives holds (values.foldlM query sum) (values.foldl step sum) := by
  induction values generalizing sum with
  | nil => exact gives_pure sum
  | cons first others inductionHypothesis =>
      rw [List.foldlM_cons]
      refine (each sum first List.mem_cons_self).bind (inductionHypothesis ?_ (step sum first))
      exact fun sum value member => each sum value (List.mem_cons_of_mem _ member)

/-! ### Queries that may break a contract -/

/-- The answer of a query, or the contract that it finds broken.  Then the state stays as it
was, as it does where room is wanted before anything else. -/
def outcome (query : Query State α) : Query State (Except Violation α) := fun state =>
  ExceptT.lift do
    match ← query.answer state with
    | .ok (value, next) => return (.ok value, next)
    | .error violation => return (.error violation, state)

theorem answer_outcome (query : Query State α) (state : State) :
    ((outcome query).answer state).value =
      match (query.answer state).value with
      | .ok (value, next) => .ok (.ok value, next)
      | .error violation => .ok (.error violation, state) := by
  have answered : ((outcome query).answer state).value =
      .ok (match (query.answer state).value with
        | .ok (value, next) => (.ok value, next)
        | .error violation => (.error violation, state)) := by
    show ((ExceptT.lift _ : ExceptT Violation Traced _).run).value = _
    rw [ExceptT.run_lift, Traced.value_map, Traced.value_bind]
    cases (query.answer state).value <;> rfl
  rw [answered]
  cases (query.answer state).value <;> rfl

/-- A query finds a contract broken on every state with a property. -/
def Breaks (holds : State -> Prop) (query : Query State α) (violation : Violation) : Prop :=
  ∀ state, holds state -> (query.answer state).value = .error violation

theorem breaks_require
    {result : Except Violation α}
    {violation : Violation}
    (broken : result = .error violation) :
    Breaks holds (require result : Query State α) violation := by
  intro state _
  rw [broken]
  rfl

/-- What stands behind a broken contract is not reached. -/
theorem Breaks.bind
    {query : Query State α}
    {violation : Violation}
    (breaks : Breaks holds query violation)
    (next : α -> Query State β) :
    Breaks holds (query >>= next) violation := by
  intro state holdsState
  rw [answer_bind, breaks state holdsState]

theorem breaks_get_bind
    {next : State -> Query State α}
    {violation : Violation}
    (known : ∀ state, holds state -> Breaks holds (next state) violation) :
    Breaks holds ((get : Query State State) >>= next) violation := by
  intro state holdsState
  rw [answer_get_bind]
  exact known state holdsState state holdsState

theorem Gives.outcome
    {query : Query State α}
    {value : α}
    (gives : Gives holds query value) :
    Gives holds query.outcome (.ok value) := by
  intro state holdsState
  obtain ⟨next, answered, holdsNext⟩ := gives state holdsState
  refine ⟨next, ?_, holdsNext⟩
  rw [answer_outcome, answered]

theorem Breaks.outcome
    {query : Query State α}
    {violation : Violation}
    (breaks : Breaks holds query violation) :
    Gives holds query.outcome (.error violation) := by
  intro state holdsState
  refine ⟨state, ?_, holdsState⟩
  rw [answer_outcome, breaks state holdsState]

end Query

/-! ## Questions -/

/-- What can be asked of a map. -/
inductive Question
  | visibility (x y : Nat) (depth : Single)
  | slice (depth : Single)
  | greatestDepth
deriving DecidableEq, Repr

/-- What a map answers. -/
inductive Reply
  | color (color : Color)
  | colors (colors : List Color)
  | depth (depth : Single)
deriving DecidableEq, Repr

/-- What is answered where there is no file. -/
def Question.lit : Question -> Reply
  | .visibility _ _ _ => .color Color.white
  | .slice _ => .colors []
  | .greatestDepth => .depth Single.zero

namespace TileSource

variable {ε : Type}

/-- The visibility of each pixel at a depth, row by row, where an array has room for them. -/
def depthSlice (source : TileSource ε) (depth : Single) : Except Violation (List Color) := do
  source.grid.reserve
  source.grid.pixels.mapM fun (x, y) => source.visibilityAt x y depth

theorem depthSlice_eq_ok
    (source : TileSource ε)
    {depth : Single}
    {colorOf : Nat × Nat -> Color}
    (room : source.grid.HasRoom)
    (known : ∀ pixel, source.visibilityAt pixel.1 pixel.2 depth = .ok (colorOf pixel)) :
    source.depthSlice depth = .ok (source.grid.pixels.map colorOf) := by
  rw [depthSlice, room.reserve_eq]
  exact mapM_eq_ok source.grid.pixels fun pixel _ => known pixel

theorem depthSlice_eq_error
    (source : TileSource ε)
    (noRoom : ¬source.grid.HasRoom)
    (depth : Single) :
    source.depthSlice depth = .error .capacityOverflow := by
  rw [depthSlice, Grid.reserve_eq_error noRoom]
  rfl

/-- The greater one of a depth and those of a tile, where the tile can be loaded. -/
def deeper (source : TileSource ε) (greatest : Single) (position : TilePosition) : Single :=
  match (source.load position).toOption with
  | some tile => greatest.max tile.greatestDepth
  | none => greatest

/-- The greatest depth of the tiles that can be loaded, at least zero. -/
def greatestDepth (source : TileSource ε) : Single :=
  source.grid.positions.foldl source.deeper Single.zero

/-- The tile of a pixel was loaded. -/
theorem exists_load
    {source : TileSource ε}
    {x y : Nat}
    {tile : Tile}
    (found : source.tileForPixel x y = some tile) :
    ∃ position, source.load position = .ok tile := by
  unfold tileForPixel at found
  cases owner_eq : source.grid.tileForPixel x y with
  | error error =>
      rw [owner_eq] at found
      cases found
  | ok position =>
      rw [owner_eq] at found
      cases loaded : source.load position with
      | error error =>
          simp only [loaded] at found
          cases found
      | ok other =>
          simp only [loaded] at found
          cases found
          exact ⟨position, loaded⟩

/-- The answer to a question, with every tile loaded when it is needed. -/
def reply (source : TileSource ε) : Question -> Except Violation Reply
  | .visibility x y depth => Reply.color <$> source.visibilityAt x y depth
  | .slice depth => Reply.colors <$> source.depthSlice depth
  | .greatestDepth => .ok (.depth source.greatestDepth)

end TileSource

namespace Texture.Reader

/-- A file as a source of tiles. -/
def tiles (reader : Reader) : TileSource ReadError := ⟨reader.grid, reader.load⟩

end Texture.Reader

namespace ShadowMap

/-- Asks a map. -/
def reply : Question -> Query ShadowMap Reply
  | .visibility x y depth => do return .color (← visibilityAt x y depth)
  | .slice depth => do return .colors (← depthSlice depth)
  | .greatestDepth => do return .depth (← greatestDepth)

/-- Asks a map several questions, one after the other, whether they have answers or not. -/
def outcomes (questions : List Question) : Query ShadowMap (List (Except Violation Reply)) :=
  questions.mapM fun question => (reply question).outcome

end ShadowMap

/-! ## Readers -/

namespace CachedReader

open Query

variable {source : Texture.Reader}

/-- A reader of a file holds tiles of this file. -/
def Reads (source : Texture.Reader) (reader : CachedReader) : Prop :=
  reader.source = source ∧ reader.Faithful

theorem gives_request (position : TilePosition) :
    Gives (Reads source) (request position) (source.load position).toOption := by
  rintro reader ⟨rfl, faithful⟩
  exact answer_request faithful position

theorem gives_requestForPixel (x y : Nat) :
    Gives (Reads source) (requestForPixel x y) (source.tiles.tileForPixel x y) := by
  refine gives_get_bind fun reader ⟨source_eq, _⟩ => ?_
  rw [source_eq]
  unfold TileSource.tileForPixel Texture.Reader.tiles
  cases source.grid.tileForPixel x y with
  | ok position => exact gives_request position
  | error error => exact gives_pure none

theorem gives_visibilityAt
    {x y : Nat}
    {depth : Single}
    {color : Color}
    (color_eq : source.tiles.visibilityAt x y depth = .ok color) :
    Gives (Reads source) (visibilityAt x y depth) color := by
  unfold visibilityAt
  refine (gives_requestForPixel x y).bind ?_
  unfold TileSource.visibilityAt at color_eq
  cases found : source.tiles.tileForPixel x y with
  | none =>
      rw [found] at color_eq
      cases color_eq
      exact gives_pure Color.white
  | some tile =>
      rw [found] at color_eq
      exact gives_require color_eq

theorem gives_greatestDepth (source : Texture.Reader) :
    Gives (Reads source) greatestDepth source.tiles.greatestDepth := by
  refine gives_get_bind fun reader ⟨source_eq, _⟩ => ?_
  rw [source_eq]
  refine gives_foldlM _ (fun greatest position _ => ?_) _
  refine (gives_request position).bind ?_
  unfold TileSource.deeper Texture.Reader.tiles
  cases (source.load position).toOption with
  | none => exact gives_pure greatest
  | some tile => exact gives_pure _

/-- The tile of a pixel stands where the pixel looks for it. -/
theorem visibilityAmong_eq
    {x y : Nat}
    (insideX : x < source.grid.imageWidth)
    (insideY : y < source.grid.imageHeight)
    (depth : Single) :
    visibilityAmong source.grid
        (source.grid.positions.map fun position => (source.load position).toOption).toArray
        depth x y =
      source.tiles.visibilityAt x y depth := by
  have place := Grid.getElem?_positions (Grid.contains_owner insideX insideY)
  simp only [Grid.owner] at place
  unfold visibilityAmong TileSource.visibilityAt TileSource.tileForPixel Texture.Reader.tiles
  rw [Grid.tileForPixel_eq_ok insideX insideY, Array.getD_eq_getD_getElem?,
    List.getElem?_toArray, List.getElem?_map, place]
  rfl

theorem gives_depthSlice
    (room : source.grid.HasRoom)
    {depth : Single}
    {colorOf : Nat × Nat -> Color}
    (known : ∀ pixel, source.tiles.visibilityAt pixel.1 pixel.2 depth = .ok (colorOf pixel)) :
    Gives (Reads source) (depthSlice depth) (source.grid.pixels.map colorOf) := by
  refine gives_get_bind fun reader ⟨source_eq, _⟩ => ?_
  rw [source_eq]
  refine (gives_require room.reserve_eq).bind ?_
  refine (gives_mapM _ fun position _ => gives_request position).bind ?_
  apply gives_require
  refine mapM_eq_ok source.grid.pixels ?_
  rintro ⟨x, y⟩ member
  obtain ⟨insideX, insideY⟩ := Grid.mem_pixels.mp member
  exact (visibilityAmong_eq insideX insideY depth).trans (known (x, y))

/-- Without room for its colors there is no slice. -/
theorem breaks_depthSlice
    (noRoom : ¬source.grid.HasRoom)
    (depth : Single) :
    Breaks (Reads source) (depthSlice depth) .capacityOverflow := by
  refine breaks_get_bind fun reader ⟨source_eq, _⟩ => ?_
  rw [source_eq]
  exact (breaks_require (Grid.reserve_eq_error noRoom)).bind _

end CachedReader

/-! ## Maps -/

namespace ShadowMap

open Query

/-- A map answers from a file where this could be opened, and else without one. -/
def Serves (opened : Except Texture.ReadError Texture.Reader) (map : ShadowMap) : Prop :=
  match opened with
  | .ok source => map.Answers source
  | .error _ => map.reader = none

/-- The answer to a question, from what opening a file gave. -/
def replyFrom
    (opened : Except Texture.ReadError Texture.Reader)
    (question : Question) : Except Violation Reply :=
  match opened with
  | .ok source => source.tiles.reply question
  | .error _ => .ok question.lit

variable {source : Texture.Reader}

/-- A map for which the file could not be opened falls back. -/
theorem gives_ask_of_error
    {α : Type}
    (error : Texture.ReadError)
    (fallback : α)
    (query : Query CachedReader α) :
    Gives (Serves (.error error)) (ask fallback query) fallback := by
  intro map noReader
  refine ⟨map, ?_, noReader⟩
  obtain ⟨path, _⟩ := map
  cases noReader
  rfl

/-- A map answers what its reader answers. -/
theorem gives_ask_of_ok
    {α : Type}
    (fallback : α)
    {query : Query CachedReader α}
    {value : α}
    (known : Gives (CachedReader.Reads source) query value) :
    Gives (Serves (.ok source)) (ask fallback query) value := by
  rintro map ⟨reader, reader_eq, source_eq, faithful⟩
  obtain ⟨next, answered, sourceNext, faithfulNext⟩ := known reader ⟨source_eq, faithful⟩
  refine ⟨{ map with reader := some next }, ?_, next, rfl, sourceNext, faithfulNext⟩
  rw [answer_ask fallback query reader_eq, answered]

/-- A map finds the contracts broken that its reader finds broken. -/
theorem breaks_ask_of_ok
    {α : Type}
    (fallback : α)
    {query : Query CachedReader α}
    {violation : Violation}
    (breaks : Breaks (CachedReader.Reads source) query violation) :
    Breaks (Serves (.ok source)) (ask fallback query) violation := by
  rintro map ⟨reader, reader_eq, source_eq, faithful⟩
  rw [answer_ask fallback query reader_eq, breaks reader ⟨source_eq, faithful⟩]

/-- A map without a file answers every question. -/
theorem gives_reply_of_error (error : Texture.ReadError) (question : Question) :
    Gives (Serves (.error error)) (reply question) question.lit := by
  cases question with
  | visibility x y depth => exact (gives_ask_of_error error _ _).bind (gives_pure _)
  | slice depth => exact (gives_ask_of_error error _ _).bind (gives_pure _)
  | greatestDepth => exact (gives_ask_of_error error _ _).bind (gives_pure _)

/-- A map with a file answers questions from the tiles of the file. -/
theorem gives_outcome_of_ok
    (known : ∀ x y depth, ∃ color, source.tiles.visibilityAt x y depth = .ok color)
    (question : Question) :
    Gives (Serves (.ok source)) (reply question).outcome (source.tiles.reply question) := by
  cases question with
  | visibility x y depth =>
      obtain ⟨color, color_eq⟩ := known x y depth
      have asked := gives_ask_of_ok Color.white (CachedReader.gives_visibilityAt color_eq)
      have replied : Gives (Serves (.ok source)) (reply (.visibility x y depth)) (.color color) :=
        asked.bind (gives_pure _)
      rw [TileSource.reply, color_eq]
      exact replied.outcome
  | slice depth =>
      choose colorOf color_eq using fun pixel : Nat × Nat => known pixel.1 pixel.2 depth
      rw [TileSource.reply]
      by_cases room : source.grid.HasRoom
      · have asked := gives_ask_of_ok [] (CachedReader.gives_depthSlice room color_eq)
        have replied : Gives (Serves (.ok source)) (reply (.slice depth))
            (.colors (source.grid.pixels.map colorOf)) := asked.bind (gives_pure _)
        rw [source.tiles.depthSlice_eq_ok room color_eq]
        exact replied.outcome
      · have asked := breaks_ask_of_ok [] (CachedReader.breaks_depthSlice room depth)
        have broken : Breaks (Serves (.ok source)) (reply (.slice depth)) .capacityOverflow :=
          asked.bind _
        rw [source.tiles.depthSlice_eq_error room]
        exact broken.outcome
  | greatestDepth =>
      have asked := gives_ask_of_ok Single.zero (CachedReader.gives_greatestDepth source)
      have replied : Gives (Serves (.ok source)) (reply .greatestDepth)
          (.depth source.tiles.greatestDepth) := asked.bind (gives_pure _)
      exact replied.outcome

/-- Where every pixel has a visibility, only slices that there is no room for have no
answer. -/
theorem reply_eq_error_iff
    (known : ∀ x y depth, ∃ color, source.tiles.visibilityAt x y depth = .ok color)
    {question : Question}
    {violation : Violation} :
    source.tiles.reply question = .error violation ↔
      violation = .capacityOverflow ∧ ¬source.grid.HasRoom ∧
        ∃ depth, question = .slice depth := by
  cases question with
  | visibility x y depth =>
      obtain ⟨color, color_eq⟩ := known x y depth
      rw [TileSource.reply, color_eq]
      refine iff_of_false (fun failed => by cases failed) ?_
      rintro ⟨-, -, _, isSlice⟩
      cases isSlice
  | slice depth =>
      rw [TileSource.reply]
      by_cases room : source.grid.HasRoom
      · choose colorOf color_eq using fun pixel : Nat × Nat => known pixel.1 pixel.2 depth
        rw [source.tiles.depthSlice_eq_ok room color_eq]
        exact iff_of_false (fun failed => by cases failed) fun broken => broken.2.1 room
      · rw [source.tiles.depthSlice_eq_error room]
        constructor
        · intro failed
          cases failed
          exact ⟨rfl, room, depth, rfl⟩
        · rintro ⟨rfl, -⟩
          rfl
  | greatestDepth =>
      refine iff_of_false (fun failed => by cases failed) ?_
      rintro ⟨-, -, _, isSlice⟩
      cases isSlice

end ShadowMap

/-! ## Files -/

namespace Texture.Reader

variable {path : String} {bytes : List UInt8} {source : Reader}

/-- A file with small tiles is a sound source of tiles. -/
theorem SmallTiles.sound
    (small : source.SmallTiles)
    (opened : ofBytes path bytes = .ok source) :
    source.tiles.Sound := by
  intro position tile loaded
  obtain ⟨wellFormed, placed, -⟩ := small.wellFormed_of_load opened loaded
  exact ⟨wellFormed, placed⟩

/-- In a file with small tiles, every pixel has a visibility at every depth. -/
theorem SmallTiles.visibilityAt_eq_ok
    (small : source.SmallTiles)
    (opened : ofBytes path bytes = .ok source)
    (x y : Nat)
    (depth : Single) :
    ∃ color, source.tiles.visibilityAt x y depth = .ok color := by
  unfold TileSource.visibilityAt
  cases found : source.tiles.tileForPixel x y with
  | none => exact ⟨Color.white, rfl⟩
  | some tile =>
      obtain ⟨position, loaded⟩ := TileSource.exists_load found
      exact (small.sound opened position tile loaded).1.visibilityAt_eq_ok x y depth

/-- The sides of an image fit into half a word. -/
theorem sides_lt (opened : ofBytes path bytes = .ok source) :
    source.grid.imageWidth < 2 ^ 32 ∧ source.grid.imageHeight < 2 ^ 32 := by
  obtain ⟨-, imageWidth, imageHeight, -⟩ := Header.grid_eq_ok_iff.mp (fields_eq opened).2.1
  exact ⟨imageWidth ▸ UInt32.toNat_lt _, imageHeight ▸ UInt32.toNat_lt _⟩

/-- A slice that there is room for is painted with the colors that it is answered with. -/
theorem SmallTiles.paintedSlice_eq
    (small : source.SmallTiles)
    (opened : ofBytes path bytes = .ok source)
    (room : source.grid.HasRoom)
    (depth : Single) :
    ∃ colors, source.tiles.depthSlice depth = .ok colors ∧
      source.tiles.paintedSlice depth = some colors.toArray := by
  obtain ⟨widthFits, heightFits⟩ := sides_lt opened
  choose colorOf color_eq using fun pixel : Nat × Nat =>
    small.visibilityAt_eq_ok opened pixel.1 pixel.2 depth
  exact ⟨_, source.tiles.depthSlice_eq_ok room color_eq,
    (small.sound opened).paintedSlice_eq widthFits heightFits color_eq room⟩

/-- A file is opened from its bytes. -/
theorem exists_bytes
    {contents : Except FileError (List UInt8)}
    (opened : (Reader.open path contents).value = .ok source) :
    ∃ bytes, contents = .ok bytes ∧ ofBytes path bytes = .ok source := by
  cases contents with
  | error error => cases opened
  | ok bytes =>
      rw [value_open] at opened
      exact ⟨bytes, rfl, opened⟩

end Texture.Reader

namespace ShadowMap

/-- Opening a map never fails, except for the capacity of its cache. -/
theorem exists_map
    (path : String)
    {capacity : Nat}
    (positive : 0 < capacity)
    (contents : Except FileError (List UInt8)) :
    ∃ map, (ShadowMap.open path capacity contents).value = .ok map ∧
      map.Serves (Texture.Reader.open path contents).value := by
  cases opened : (Texture.Reader.open path contents).value with
  | error error =>
      refine ⟨⟨path, none⟩, ?_, rfl⟩
      unfold ShadowMap.open
      rw [if_neg (Nat.ne_of_gt positive), Traced.value_bind, opened]
      rfl
  | ok source =>
      obtain ⟨bytes, rfl, -⟩ := Texture.Reader.exists_bytes opened
      exact open_eq_ok path positive opened

/-- A file says nothing about a pixel: it could not be opened, the pixel lies outside of its
image, or the tile of the pixel cannot be loaded. -/
def Silent (opened : Except Texture.ReadError Texture.Reader) (x y : Nat) : Prop :=
  match opened with
  | .error _ => True
  | .ok source =>
      (source.grid.imageWidth ≤ x ∨ source.grid.imageHeight ≤ y) ∨
        ∃ position error, source.grid.tileForPixel x y = .ok position ∧
          source.load position = .error error

theorem Silent.replyFrom_eq
    {opened : Except Texture.ReadError Texture.Reader}
    {x y : Nat}
    (silent : Silent opened x y)
    (depth : Single) :
    replyFrom opened (.visibility x y depth) = .ok (.color Color.white) := by
  cases opened with
  | error error => rfl
  | ok source =>
      have noTile : source.tiles.tileForPixel x y = none := by
        unfold TileSource.tileForPixel Texture.Reader.tiles
        rcases silent with outside | ⟨position, error, owner_eq, failed⟩
        · rw [Grid.tileForPixel_eq_error outside]
        · simp only [owner_eq, failed]
          rfl
      unfold replyFrom TileSource.reply TileSource.visibilityAt
      simp only [noTile]
      rfl

/-- A map of a file without room for slices is opened, and breaks a contract when it is asked
for one. -/
theorem exists_map_without_slice
    (path : String)
    {contents : Except FileError (List UInt8)}
    (opened : (Texture.Reader.open path contents).value = .ok source)
    (noRoom : ¬source.grid.HasRoom)
    {capacity : Nat}
    (positive : 0 < capacity)
    (depth : Single) :
    ∃ map, (ShadowMap.open path capacity contents).value = .ok map ∧
      ((reply (.slice depth)).answer map).value = .error .capacityOverflow := by
  obtain ⟨map, made, serves⟩ := exists_map path positive contents
  rw [opened] at serves
  have asked := breaks_ask_of_ok [] (CachedReader.breaks_depthSlice noRoom depth)
  exact ⟨map, made, (asked.bind _) map serves⟩

/-- Whatever a file holds, as long as its tiles have fewer than `2 ^ 32` pixels: loading a
tile does not go wrong on the way, and it gives an error or a tile that lies where the grid
has it and whose offsets and values fit together.  A map of the file answers any questions in
any order as the file does, whatever the capacity of its cache is and whatever was asked
before.  Every question has an answer, except for slices of an image whose colors no array has
room for: asking for one of these breaks a contract before anything is requested.  Any other
slice can be painted tile by tile.  A pixel is fully visible where the file says nothing about
it. -/
theorem any_file_answered
    (path : String)
    (contents : Except FileError (List UInt8))
    (small : ∀ source, (Texture.Reader.open path contents).value = .ok source ->
      source.SmallTiles) :
    (∀ source position, (Texture.Reader.open path contents).value = .ok source ->
        source.checkedLoad position = some (source.load position) ∧
          ∀ tile, source.load position = .ok tile ->
            ∃ placement, source.grid.placement position = .ok placement ∧
              tile.Fits placement source.channels) ∧
      (∀ capacity, 0 < capacity ->
        ∃ map, (ShadowMap.open path capacity contents).value = .ok map ∧
          ∀ questions, ((outcomes questions).answer map).value.map Prod.fst =
            .ok (questions.map (replyFrom (Texture.Reader.open path contents).value))) ∧
      (∀ question violation,
        replyFrom (Texture.Reader.open path contents).value question = .error violation ↔
          violation = .capacityOverflow ∧
            ∃ source, (Texture.Reader.open path contents).value = .ok source ∧
              ¬source.grid.HasRoom ∧ ∃ depth, question = .slice depth) ∧
      (∀ source depth, (Texture.Reader.open path contents).value = .ok source ->
        source.grid.HasRoom ->
          ∃ colors,
            replyFrom (Texture.Reader.open path contents).value (.slice depth) =
              .ok (.colors colors) ∧
            source.tiles.paintedSlice depth = some colors.toArray) ∧
      ∀ x y depth, Silent (Texture.Reader.open path contents).value x y ->
        replyFrom (Texture.Reader.open path contents).value (.visibility x y depth) =
          .ok (.color Color.white) := by
  refine ⟨?_, ?_, ?_, ?_, fun x y depth silent => silent.replyFrom_eq depth⟩
  · intro source position opened
    obtain ⟨bytes, -, read⟩ := Texture.Reader.exists_bytes opened
    refine ⟨(small source opened).checkedLoad_eq read position, fun tile loaded => ?_⟩
    obtain ⟨wellFormed, placed, channels_eq⟩ := (small source opened).wellFormed_of_load read loaded
    exact ⟨tile.placement, placed, channels_eq ▸ wellFormed.fits⟩
  · intro capacity positive
    have gives : ∀ question, Query.Gives (Serves (Texture.Reader.open path contents).value)
        (reply question).outcome (replyFrom (Texture.Reader.open path contents).value question) := by
      intro question
      cases opened : (Texture.Reader.open path contents).value with
      | error error => exact (gives_reply_of_error error question).outcome
      | ok source =>
          obtain ⟨bytes, -, read⟩ := Texture.Reader.exists_bytes opened
          exact gives_outcome_of_ok ((small source opened).visibilityAt_eq_ok read) question
    obtain ⟨map, made, serves⟩ := exists_map path positive contents
    refine ⟨map, made, fun questions => ?_⟩
    obtain ⟨last, answered, -⟩ :=
      Query.gives_mapM questions (fun question _ => gives question) map serves
    rw [outcomes, answered]
    rfl
  · intro question violation
    cases opened : (Texture.Reader.open path contents).value with
    | error error =>
        refine iff_of_false (fun failed => by cases failed) ?_
        rintro ⟨-, source, isSource, -⟩
        cases isSource
    | ok source =>
        obtain ⟨bytes, -, read⟩ := Texture.Reader.exists_bytes opened
        rw [replyFrom, reply_eq_error_iff ((small source opened).visibilityAt_eq_ok read)]
        apply and_congr_right
        intro _
        constructor
        · exact fun broken => ⟨source, rfl, broken⟩
        · rintro ⟨_, isSource, broken⟩
          cases isSource
          exact broken
  · intro source depth opened room
    obtain ⟨bytes, -, read⟩ := Texture.Reader.exists_bytes opened
    obtain ⟨colors, colors_eq, painted⟩ := (small source opened).paintedSlice_eq read room depth
    refine ⟨colors, ?_, painted⟩
    rw [opened, replyFrom, TileSource.reply, colors_eq]
    rfl

namespace SharedBlock

/-- The header of an image of two tiles of one pixel each, for a file of 224 bytes. -/
def header : Texture.Header :=
  { fileSize := 224
    imageWidth := 2
    imageHeight := 1
    channels := 1
    dataSize := 32
    tileWidth := 1
    tileHeight := 1
    tileCount := 2
    transforms := Texture.Transforms.identity }

/-- The nodes of a pixel, whose depths are not a number, two and one. -/
def nodes : List Single :=
  [⟨0x7fc00000⟩, Single.half, Single.ofNat 2, Single.one, Single.one, Single.zero]

/-- A file in which both tiles have the same block. -/
def file : List UInt8 :=
  header.encode ++ [⟨0, 0, 192⟩, ⟨0, 1, 192⟩].flatMap Texture.Entry.encode ++
    Texture.wordsBytes ([0, 3] ++ nodes.map Single.bits)

/-- The second tile. -/
def tile : Tile :=
  { placement := ⟨⟨1, 0⟩, 1, 0, 1, 1⟩
    channels := 1
    offsets := #[0, 3]
    values := nodes.toArray }

theorem exists_reader : ∃ reader, (Texture.Reader.open "" (.ok file)).value = .ok reader := by
  rw [Texture.value_open]
  exact Texture.Reader.exists_ofBytes (by decide +kernel)

variable {reader : Texture.Reader}

theorem smallTiles (opened : (Texture.Reader.open "" (.ok file)).value = .ok reader) :
    reader.SmallTiles := by
  rw [Texture.value_open] at opened
  unfold Texture.Reader.SmallTiles
  rw [(Texture.Reader.fields_eq opened).1]
  decide +kernel

theorem grid_eq (opened : (Texture.Reader.open "" (.ok file)).value = .ok reader) :
    reader.grid.imageWidth = 2 ∧ reader.grid.imageHeight = 1 := by
  rw [Texture.value_open] at opened
  obtain ⟨header_eq, described, -⟩ := Texture.Reader.fields_eq opened
  obtain ⟨-, width_eq, height_eq, -⟩ := Texture.Header.grid_eq_ok_iff.mp described
  rw [width_eq, height_eq, header_eq]
  decide +kernel

/-- There is room for two colors. -/
theorem room (opened : (Texture.Reader.open "" (.ok file)).value = .ok reader) :
    reader.grid.HasRoom := by
  rw [Grid.HasRoom, (grid_eq opened).1, (grid_eq opened).2]
  decide

/-- Each tile is loaded from the block. -/
theorem load_eq
    (opened : (Texture.Reader.open "" (.ok file)).value = .ok reader)
    {x : Nat}
    (inside : x < 2) :
    reader.load ⟨x, 0⟩ = .ok { tile with placement := ⟨⟨x, 0⟩, x, 0, 1, 1⟩ } := by
  rw [Texture.value_open] at opened
  have listed : ∀ x < 2, ∃ entry ∈ Texture.tableOf file,
      entry.position = ⟨x, 0⟩ ∧ entry.offset ≠ 0 ∧ entry.offset.toNat = 192 := by
    decide +kernel
  have framed : ∀ x < 2, (Texture.headerOf file).grid.map (·.frame ⟨x, 0⟩) =
      .ok ⟨⟨x, 0⟩, x, 0, 1, 1⟩ := by
    decide +kernel
  have decoded : ∀ x < 2, (Texture.Block.decode ⟨⟨x, 0⟩, x, 0, 1, 1⟩
      (Texture.headerOf file).channels.toNat (file.length - 192)
      ((file.drop 192).take (file.length - 192))).map Prod.fst =
        .ok { tile with placement := ⟨⟨x, 0⟩, x, 0, 1, 1⟩ } := by
    decide +kernel
  have stored : reader.StoredAt ⟨x, 0⟩ 192 :=
    (Texture.Reader.storedAt_iff opened).mpr (listed x inside)
  exact (stored.load_last opened (by decide +kernel) (by decide +kernel) (framed x inside)).trans
    (decoded x inside)

/-- The second pixel has what its tile reads in the block of the first one. -/
theorem visibilityAt_eq (opened : (Texture.Reader.open "" (.ok file)).value = .ok reader) :
    reader.tiles.visibilityAt 1 0 (Single.ofNat 2) = .ok Color.black := by
  have loaded := load_eq opened (x := 1) (by decide)
  rw [Texture.value_open] at opened
  have owner_eq : (Texture.headerOf file).grid.map (·.tileForPixel 1 0) = .ok (.ok ⟨1, 0⟩) := by
    decide +kernel
  have found : reader.tiles.tileForPixel 1 0 = some tile := by
    unfold TileSource.tileForPixel Texture.Reader.tiles
    simp only [Texture.Reader.of_map_grid opened owner_eq, loaded]
    rfl
  unfold TileSource.visibilityAt
  simp only [found]
  decide +kernel

theorem replyFrom_eq :
    replyFrom (Texture.Reader.open "" (.ok file)).value (.visibility 1 0 (Single.ofNat 2)) =
      .ok (.color Color.black) := by
  obtain ⟨reader, opened⟩ := exists_reader
  rw [opened, replyFrom, TileSource.reply, visibilityAt_eq opened]
  rfl

end SharedBlock

open SharedBlock in
/-- A file with a shared block and unordered depths answers the same with small and large
caches.  The second pixel is occluded, one outside of the image is fully visible, and there
is a slice. -/
theorem any_file_answered_sharedBlock :
    (∃ source, (Texture.Reader.open "" (.ok file)).value = .ok source ∧ source.SmallTiles ∧
      source.grid.HasRoom) ∧
      (∀ capacity, 0 < capacity ->
        ∃ map, (ShadowMap.open "" capacity (.ok file)).value = .ok map ∧
          ∀ questions, ((outcomes questions).answer map).value.map Prod.fst =
            .ok (questions.map (replyFrom (Texture.Reader.open "" (.ok file)).value))) ∧
      replyFrom (Texture.Reader.open "" (.ok file)).value (.visibility 1 0 (Single.ofNat 2)) =
        .ok (.color Color.black) ∧
      replyFrom (Texture.Reader.open "" (.ok file)).value (.visibility 2 0 (Single.ofNat 2)) =
        .ok (.color Color.white) ∧
      ∃ colors, replyFrom (Texture.Reader.open "" (.ok file)).value
        (.slice (Single.ofNat 2)) = .ok (.colors colors) := by
  obtain ⟨source, opened⟩ := exists_reader
  have enough := room opened
  obtain ⟨-, answered, -, sliced, white⟩ :=
    any_file_answered "" (.ok file) fun _ isOpened => smallTiles isOpened
  obtain ⟨colors, colors_eq, -⟩ := sliced source (Single.ofNat 2) opened enough
  refine ⟨⟨source, opened, smallTiles opened, enough⟩, answered, replyFrom_eq, white _ _ _ ?_,
    colors, colors_eq⟩
  rw [opened]
  exact Or.inl (Or.inl (Nat.le_of_eq (grid_eq opened).1))

namespace HugeImage

theorem side_pos : 0 < 0x40000000 := Nat.two_pow_pos 30

/-- An image of `2 ^ 60` pixels, divided into tiles of fewer than `2 ^ 32` pixels. -/
def grid : Grid where
  imageWidth := 0x40000000
  imageHeight := 0x40000000
  tileWidth := 0xffff
  tileHeight := 0x10001
  imageWidth_pos := side_pos
  imageHeight_pos := side_pos
  tileWidth_pos := by decide
  tileHeight_pos := by decide
  tileCount_lt := by decide

/-- The file of the image in which no tile is stored. -/
def layout : Texture.Layout := ⟨grid, 1, Texture.Transforms.identity, []⟩

theorem valid : layout.Valid where
  supported := supportedChannels_one
  imageWidth_lt := by decide
  imageHeight_lt := by decide
  tileWidth_lt := by decide
  tileHeight_lt := by decide
  wellFormed := List.forall_mem_nil _
  channels_eq := List.forall_mem_nil _
  inside := List.forall_mem_nil _
  framed := List.forall_mem_nil _
  distinct := List.nodup_nil
  size_lt := by decide

/-- The file is opened, its tiles are small, and there is no room for its slices. -/
theorem exists_reader :
    ∃ reader, (Texture.Reader.open "" (.ok layout.bytes)).value = .ok reader ∧
      reader.SmallTiles ∧ ¬reader.grid.HasRoom := by
  obtain ⟨reader, opened, readBy⟩ := valid.open_bytes ""
  refine ⟨reader, opened, ?_, ?_⟩
  · rw [Texture.Reader.SmallTiles, readBy.header_eq]
    decide
  · rw [readBy.grid_eq]
    decide

end HugeImage

/-- A map of a file with small tiles is asked for a slice, and there is no answer. -/
theorem huge_slice_unanswered :
    ∃ source map,
      (Texture.Reader.open "" (.ok HugeImage.layout.bytes)).value = .ok source ∧
      source.SmallTiles ∧
      (ShadowMap.open "" 1 (.ok HugeImage.layout.bytes)).value = .ok map ∧
      ((reply (.slice Single.one)).answer map).value = .error .capacityOverflow := by
  obtain ⟨source, opened, small, noRoom⟩ := HugeImage.exists_reader
  obtain ⟨map, made, unanswered⟩ :=
    exists_map_without_slice "" opened noRoom Nat.one_pos Single.one
  exact ⟨source, map, opened, small, made, unanswered⟩

end ShadowMap
end DeepShadow
