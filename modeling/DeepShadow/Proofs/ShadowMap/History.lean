import DeepShadow.Proofs.ShadowMap.Keeping

/-!
# Maps in use

A map is asked for pixels, texture positions, filtered quads, slices and its greatest depth,
in any order.  Nothing of this can be seen in what it answers next.  A slice is painted tile
by tile, with the tiles requested one after the other while it is painted, and has for each
pixel the color that a lookup of the pixel gives, where an array has room for the colors.
-/

namespace DeepShadow

/-! ## Values taken while they are worked in -/

/-- A value that is not there is out of bounds. -/
def inBounds {α : Type} : Option α -> Except Violation α
  | some value => .ok value
  | none => .error .outOfBounds

theorem foldlM_inBounds
    {α β : Type}
    {step : β -> α -> Option β}
    (values : List α)
    {start last : β}
    (folded : values.foldlM step start = some last) :
    values.foldlM (fun sum value => inBounds (step sum value)) start = .ok last := by
  induction values generalizing start with
  | nil =>
      cases folded
      rfl
  | cons first others inductionHypothesis =>
      rw [List.foldlM_cons] at folded ⊢
      cases stepped : step start first with
      | none =>
          rw [stepped] at folded
          cases folded
      | some sum =>
          rw [stepped] at folded
          exact inductionHypothesis folded

namespace Query

variable {State α β γ : Type} {holds : State -> Prop}

theorem require_inBounds_some (value : α) :
    (require (inBounds (some value)) : Query State α) = pure value := rfl

/-- Values that are worked in as soon as they are there leave the state that they leave when
all of them are taken first. -/
theorem answer_foldlM_require
    {query : α -> Query State β}
    {valueOf : α -> β}
    {step : γ -> β -> Except Violation γ}
    (values : List α)
    (each : ∀ value ∈ values, Gives holds (query value) (valueOf value))
    {start last : γ}
    (folded : (values.map valueOf).foldlM step start = .ok last)
    {state : State}
    (holdsState : holds state) :
    ∃ next, ((values.mapM query).answer state).value = .ok (values.map valueOf, next) ∧
      ((values.foldlM (fun sum value => do require (step sum (← query value))) start).answer
        state).value = .ok (last, next) := by
  induction values generalizing start state with
  | nil =>
      cases folded
      exact ⟨state, rfl, rfl⟩
  | cons first others inductionHypothesis =>
      obtain ⟨middle, answered, holdsMiddle⟩ := each first List.mem_cons_self state holdsState
      rw [List.map_cons, List.foldlM_cons] at folded
      cases stepped : step start (valueOf first) with
      | error violation =>
          rw [stepped] at folded
          cases folded
      | ok sum =>
          rw [stepped] at folded
          obtain ⟨next, taken, worked⟩ := inductionHypothesis
            (fun value member => each value (List.mem_cons_of_mem _ member)) folded holdsMiddle
          have workedFirst :
              (((do require (step start (← query first)) : Query State γ)).answer state).value =
                .ok (sum, middle) := by
            rw [answer_bind, answered]
            simp only [stepped]
            rfl
          refine ⟨next, ?_, ?_⟩
          · rw [List.mapM_cons, answer_bind, answered]
            simp only
            rw [answer_bind, taken]
            rfl
          · rw [List.foldlM_cons, answer_bind, workedFirst]
            exact worked

end Query

/-! ## Slices painted through a cache -/

namespace TileSource

variable {ε : Type}

/-- Paints the pixels of a tile, where there is one. -/
def paintLoaded
    (grid : Grid)
    (depth : Single)
    (pixels : Array Color) : Option Tile -> Option (Array Color)
  | some tile =>
      (Rectangle.pixels ⟨0, 0, tile.placement.width, tile.placement.height⟩).foldlM
        (paintPixel grid tile depth) pixels
  | none => some pixels

theorem paintTile_eq
    (source : TileSource ε)
    (depth : Single)
    (pixels : Array Color)
    (position : TilePosition) :
    source.paintTile depth pixels position =
      paintLoaded source.grid depth pixels (source.load position).toOption := by
  unfold paintTile
  cases (source.load position).toOption with
  | none => rfl
  | some tile => rfl

end TileSource

namespace CachedReader

open Query

variable {source : Texture.Reader} {depth : Single}

/-- Paints the visibility of each pixel at a depth, with each tile requested when it is
painted. -/
def paintSlice (depth : Single) : Query CachedReader (Array Color) := do
  let grid := (← get).source.grid
  let count ← require (inBounds (fitting 64 (grid.imageWidth * grid.imageHeight)))
  require grid.reserve
  grid.positions.foldlM
    (fun pixels position => do
      require (inBounds (TileSource.paintLoaded grid depth pixels (← request position))))
    (Array.replicate count Color.white)

/-- A slice that can be painted from the tiles of a file is painted with its colors through a
cache, with the requests that are made for the slice. -/
theorem answer_paintSlice
    (room : source.grid.HasRoom)
    {colorOf : Nat × Nat -> Color}
    (known : ∀ pixel, source.tiles.visibilityAt pixel.1 pixel.2 depth = .ok (colorOf pixel))
    (painted : source.tiles.paintedSlice depth =
      some (source.grid.pixels.map colorOf).toArray)
    {reader : CachedReader}
    (reads : Reads source reader) :
    ∃ next,
      ((depthSlice depth).answer reader).value = .ok (source.grid.pixels.map colorOf, next) ∧
      ((paintSlice depth).answer reader).value =
        .ok ((source.grid.pixels.map colorOf).toArray, next) := by
  unfold TileSource.paintedSlice at painted
  obtain ⟨count, counted, painted⟩ := Option.bind_eq_some_iff.mp painted
  obtain ⟨-, -, folded⟩ := Option.bind_eq_some_iff.mp painted
  have worked : (source.grid.positions.map fun position => (source.load position).toOption).foldlM
      (fun pixels tile => inBounds (TileSource.paintLoaded source.grid depth pixels tile))
      (Array.replicate count Color.white) = .ok (source.grid.pixels.map colorOf).toArray := by
    rw [List.foldlM_map]
    have stepped := foldlM_inBounds _ folded
    simp only [TileSource.paintTile_eq] at stepped
    exact stepped
  obtain ⟨next, taken, answered⟩ := answer_foldlM_require source.grid.positions
    (fun position _ => gives_request position) worked reads
  obtain ⟨last, sliced, -⟩ := gives_depthSlice room known reader reads
  have reserved : ((require source.grid.reserve : Query CachedReader Unit).answer reader).value =
      .ok ((), reader) := by
    rw [room.reserve_eq]
    rfl
  -- What is done with the tiles of a slice leaves the state as it is.
  have last_eq : last = next := by
    rw [depthSlice, answer_get_bind, reads.1, answer_bind, reserved] at sliced
    simp only at sliced
    rw [answer_bind, taken] at sliced
    simp only at sliced
    generalize List.mapM (m := Except Violation) _ _ = result at sliced
    cases result with
    | error violation => cases sliced
    | ok colors =>
        cases sliced
        rfl
  subst last_eq
  refine ⟨last, sliced, ?_⟩
  rw [paintSlice, answer_get_bind, reads.1]
  change fitting 64 (source.grid.imageWidth * source.grid.imageHeight) = some count at counted
  simp only [counted]
  rw [require_inBounds_some, pure_bind, answer_bind, reserved]
  exact answered

/-- Without room for its colors a slice is not painted, either. -/
theorem breaks_paintSlice
    (noRoom : ¬source.grid.HasRoom)
    (counted : source.grid.imageWidth * source.grid.imageHeight < 2 ^ 64)
    (depth : Single) :
    Breaks (Reads source) (paintSlice depth) .capacityOverflow := by
  refine breaks_get_bind fun reader ⟨source_eq, _⟩ => ?_
  rw [source_eq]
  simp only [fitting_eq_some counted]
  rw [require_inBounds_some, pure_bind]
  exact (breaks_require (Grid.reserve_eq_error noRoom)).bind _

end CachedReader

/-! ## Uses of a map -/

namespace ShadowMap

open Query

/-- What a map can be used for. -/
inductive Use
  | visibility (x y : Nat) (depth : Single)
  | texture (point : SamplePoint)
  | filter (quad : SampleQuad) (samples : Nat)
  | slice (depth : Single)
  | greatestDepth
deriving DecidableEq, Repr

/-- An array has room for the colors of a slice. -/
def hasRoom (map : ShadowMap) : Bool :=
  map.reader.all fun reader => decide reader.source.grid.HasRoom

/-- Uses a map, whatever the answer is.  A slice that there is no room for asks for this room
before anything else, and leaves the map as it is. -/
def perform : Use -> Query ShadowMap Unit
  | .visibility x y depth => do let _ ← visibilityAt x y depth
  | .texture point => do let _ ← visibilityAtTexture point
  | .filter quad samples => do let _ ← filter quad samples
  | .slice depth => do if (← get).hasRoom then let _ ← depthSlice depth
  | .greatestDepth => do let _ ← greatestDepth

/-- Uses a map several times. -/
def performAll : List Use -> Query ShadowMap Unit
  | [] => return ()
  | use :: uses => do
      perform use
      performAll uses

/-- A map was opened and then used. -/
def ReachedBy
    (path : String)
    (contents : Except FileError (List UInt8))
    (capacity : Nat)
    (uses : List Use)
    (map : ShadowMap) : Prop :=
  ∃ fresh, (ShadowMap.open path capacity contents).value = .ok fresh ∧
    ((performAll uses).answer fresh).value = .ok ((), map)

/-- Paints the visibility of each pixel at a depth tile by tile, where there is a file. -/
def paintSlice (depth : Single) : Query ShadowMap (Array Color) :=
  ask #[] (CachedReader.paintSlice depth)

/-- The color of a texture position, given those of the pixels. -/
def colorAtTexture
    (grid : Grid)
    (colorOf : Nat -> Nat -> Single -> Color)
    (point : SamplePoint) : Color :=
  colorOf (texel point.s grid.imageWidth) (texel point.t grid.imageHeight) point.depth

/-- The average over a quad, given the colors of texture positions. -/
def filtered (colorAt : SamplePoint -> Color) (quad : SampleQuad) (samples : Nat) : Color :=
  let side := filterSide (min (max samples 1) maxSamples)
  (filterWeights side).foldl (fun sum (u, v) => sum + colorAt (quad.lerp u v)) Color.black *
    (Single.one / (Single.ofNat side * Single.ofNat side))

section Known

variable {source : Texture.Reader} {colorOf : Nat -> Nat -> Single -> Color}
variable (known : ∀ x y depth, source.tiles.visibilityAt x y depth = .ok (colorOf x y depth))

theorem Answers.isValid {map : ShadowMap} (answers : map.Answers source) : map.isValid = true := by
  obtain ⟨reader, reader_eq, -⟩ := answers
  rw [ShadowMap.isValid, reader_eq]
  rfl

theorem Answers.width_eq
    {map : ShadowMap}
    (answers : map.Answers source) :
    map.width = source.grid.imageWidth := by
  obtain ⟨reader, reader_eq, rfl, -⟩ := answers
  rw [width, reader_eq]
  rfl

theorem Answers.height_eq
    {map : ShadowMap}
    (answers : map.Answers source) :
    map.height = source.grid.imageHeight := by
  obtain ⟨reader, reader_eq, rfl, -⟩ := answers
  rw [height, reader_eq]
  rfl

theorem Answers.hasRoom_eq
    {map : ShadowMap}
    (answers : map.Answers source) :
    map.hasRoom = decide source.grid.HasRoom := by
  obtain ⟨reader, reader_eq, rfl, -⟩ := answers
  rw [hasRoom, reader_eq]
  rfl

theorem Answers.channels_eq
    {map : ShadowMap}
    (answers : map.Answers source) :
    map.channels = source.channels := by
  obtain ⟨reader, reader_eq, rfl, -⟩ := answers
  rw [channels, reader_eq]
  rfl

/-- A texture position has the color that it has in the file. -/
theorem gives_lookup
    {point : SamplePoint}
    {color : Color}
    (color_eq : source.tiles.visibilityAtTexture point = .ok color) :
    Gives (Serves (.ok source)) (visibilityAtTexture point) color := by
  refine gives_get_bind fun map (serves : map.Answers source) => ?_
  rw [if_pos serves.isValid, serves.width_eq, serves.height_eq]
  exact gives_ask_of_ok Color.white (CachedReader.gives_visibilityAt color_eq)

/-- Where a texture position has a color, it has this color in the file. -/
theorem Answers.visibilityAtTexture_eq
    {map next : ShadowMap}
    (answers : map.Answers source)
    {point : SamplePoint}
    {color : Color}
    (answered : ((visibilityAtTexture point).answer map).value = .ok (color, next)) :
    source.tiles.visibilityAtTexture point = .ok color := by
  rw [visibilityAtTexture, answer_get_bind, if_pos answers.isValid, answers.width_eq,
    answers.height_eq] at answered
  exact visibilityAt_eq_of_answer answers answered

include known

theorem gives_visibilityAt (x y : Nat) (depth : Single) :
    Gives (Serves (.ok source)) (visibilityAt x y depth) (colorOf x y depth) :=
  gives_ask_of_ok Color.white (CachedReader.gives_visibilityAt (known x y depth))

/-- A texture position has the color of its pixel. -/
theorem gives_visibilityAtTexture (point : SamplePoint) :
    Gives (Serves (.ok source)) (visibilityAtTexture point)
      (colorAtTexture source.grid colorOf point) :=
  gives_lookup (known _ _ _)

theorem gives_filter (quad : SampleQuad) (samples : Nat) :
    Gives (Serves (.ok source)) (filter quad samples)
      (filtered (colorAtTexture source.grid colorOf) quad samples) := by
  refine gives_get_bind fun map (serves : map.Answers source) => ?_
  rw [if_pos serves.isValid]
  refine (gives_foldlM _ (fun sum weights _ => ?_) _).bind (gives_pure _)
  exact (gives_visibilityAtTexture known _).bind (gives_pure _)

theorem gives_depthSlice (room : source.grid.HasRoom) (depth : Single) :
    Gives (Serves (.ok source)) (depthSlice depth)
      (source.grid.pixels.map fun pixel => colorOf pixel.1 pixel.2 depth) :=
  gives_ask_of_ok [] (CachedReader.gives_depthSlice room fun pixel => known pixel.1 pixel.2 depth)

omit known in
theorem gives_greatestDepth (source : Texture.Reader) :
    Gives (Serves (.ok source)) greatestDepth source.tiles.greatestDepth :=
  gives_ask_of_ok Single.zero (CachedReader.gives_greatestDepth source)

theorem gives_perform (use : Use) : Gives (Serves (.ok source)) (perform use) () := by
  cases use with
  | visibility x y depth => exact (gives_visibilityAt known x y depth).bind (gives_pure ())
  | texture point => exact (gives_visibilityAtTexture known point).bind (gives_pure ())
  | filter quad samples => exact (gives_filter known quad samples).bind (gives_pure ())
  | slice depth =>
      refine gives_get_bind fun map (serves : map.Answers source) => ?_
      rw [serves.hasRoom_eq]
      split
      next room =>
        exact (gives_depthSlice known (of_decide_eq_true room) depth).bind (gives_pure ())
      next => exact gives_pure ()
  | greatestDepth => exact (gives_greatestDepth source).bind (gives_pure ())

/-- A map that answers from a file still does so after it was used. -/
theorem gives_performAll (uses : List Use) :
    Gives (Serves (.ok source)) (performAll uses) () := by
  induction uses with
  | nil => exact gives_pure ()
  | cons use uses inductionHypothesis => exact (gives_perform known use).bind inductionHypothesis

/-- A map of a file can be used in any way, and answers from the file then. -/
theorem exists_reachedBy
    {path : String}
    {contents : Except FileError (List UInt8)}
    (opened : (Texture.Reader.open path contents).value = .ok source)
    {capacity : Nat}
    (positive : 0 < capacity)
    (uses : List Use) :
    ∃ map, ReachedBy path contents capacity uses map ∧ Serves (.ok source) map := by
  obtain ⟨fresh, made, serves⟩ := exists_map path positive contents
  rw [opened] at serves
  obtain ⟨map, used, servesToo⟩ := gives_performAll known uses fresh serves
  exact ⟨map, ⟨fresh, made, used⟩, servesToo⟩

omit known in
theorem keeps_perform (use : Use) : Keeps (Serves (.ok source)) (perform use) := by
  cases use with
  | visibility x y depth => exact (keeps_visibilityAt x y depth).bind fun _ => keeps_pure ()
  | texture point => exact (keeps_visibilityAtTexture point).bind fun _ => keeps_pure ()
  | filter quad samples => exact (keeps_filter quad samples).bind fun _ => keeps_pure ()
  | slice depth =>
      refine keeps_get_bind fun map => ?_
      split
      · exact (keeps_depthSlice depth).bind fun _ => keeps_pure ()
      · exact keeps_pure ()
  | greatestDepth => exact keeps_greatestDepth.bind fun _ => keeps_pure ()

omit known in
theorem keeps_performAll (uses : List Use) : Keeps (Serves (.ok source)) (performAll uses) := by
  induction uses with
  | nil => exact keeps_pure ()
  | cons use uses inductionHypothesis =>
      exact (keeps_perform use).bind fun _ => inductionHypothesis

omit known in
/-- A map that was used answers from the tiles of its file. -/
theorem ReachedBy.serves
    {path : String}
    {contents : Except FileError (List UInt8)}
    {capacity : Nat}
    {uses : List Use}
    {map : ShadowMap}
    (reached : ReachedBy path contents capacity uses map)
    (opened : (Texture.Reader.open path contents).value = .ok source) :
    Serves (.ok source) map := by
  obtain ⟨fresh, made, used⟩ := reached
  have positive : 0 < capacity := by
    rcases Nat.eq_zero_or_pos capacity with rfl | positive
    · cases made
    · exact positive
  obtain ⟨other, madeToo, serves⟩ := exists_map path positive contents
  obtain rfl := Except.ok.inj (made.symm.trans madeToo)
  rw [opened] at serves
  exact keeps_performAll uses fresh () map serves used

/-- A slice is painted with its colors, and leaves the map that asking for it leaves. -/
theorem answer_paintSlice
    (room : source.grid.HasRoom)
    {depth : Single}
    (painted : source.tiles.paintedSlice depth =
      some (source.grid.pixels.map fun pixel => colorOf pixel.1 pixel.2 depth).toArray)
    {map : ShadowMap}
    (serves : map.Answers source) :
    ∃ next,
      ((depthSlice depth).answer map).value =
        .ok (source.grid.pixels.map fun pixel => colorOf pixel.1 pixel.2 depth, next) ∧
      ((paintSlice depth).answer map).value =
        .ok ((source.grid.pixels.map fun pixel => colorOf pixel.1 pixel.2 depth).toArray,
          next) := by
  obtain ⟨reader, reader_eq, source_eq, faithful⟩ := serves
  obtain ⟨next, sliced, alsoPainted⟩ := CachedReader.answer_paintSlice room
    (fun pixel => known pixel.1 pixel.2 depth) painted ⟨source_eq, faithful⟩
  refine ⟨{ map with reader := some next }, ?_, ?_⟩
  · rw [depthSlice, answer_ask _ _ reader_eq, sliced]
  · rw [paintSlice, answer_ask _ _ reader_eq, alsoPainted]

end Known

/-! ## Slices and lookups -/

/-- A map of a file without room for slices can be used in any way, and has an answer to every
lookup, but no slice. -/
theorem exists_reachedBy_without_slice
    {path : String}
    {contents : Except FileError (List UInt8)}
    {source : Texture.Reader}
    (opened : (Texture.Reader.open path contents).value = .ok source)
    (small : source.SmallTiles)
    (noRoom : ¬source.grid.HasRoom)
    {capacity : Nat}
    (positive : 0 < capacity)
    (uses : List Use)
    (depth : Single) :
    ∃ map, ReachedBy path contents capacity uses map ∧
      (∀ x y, ∃ color next,
        ((visibilityAt x y depth).answer map).value = .ok (color, next)) ∧
      ((depthSlice depth).answer map).value = .error .capacityOverflow := by
  obtain ⟨bytes, -, read⟩ := Texture.Reader.exists_bytes opened
  choose colorOf known using small.visibilityAt_eq_ok read
  obtain ⟨map, reached, serves⟩ := exists_reachedBy known opened positive uses
  refine ⟨map, reached, fun x y => ?_,
    breaks_ask_of_ok [] (CachedReader.breaks_depthSlice noRoom depth) map serves⟩
  obtain ⟨next, answered, -⟩ := gives_visibilityAt known x y depth map serves
  exact ⟨_, next, answered⟩

/-- Of every file that is opened and whose tiles have fewer than `2 ^ 32` pixels, every map
answers alike, whatever the capacity of its cache is and however it was used.  If an array has
room for the colors of the image, a slice has an entry for each pixel of the image, row by row,
and this entry is what a lookup of the pixel gives at this depth.  The slice is also what is
painted tile by tile.  If there is no room, lookups have the same answers, and asking for a
slice breaks a contract. -/
theorem slice_has_lookups
    {path : String}
    {contents : Except FileError (List UInt8)}
    {source : Texture.Reader}
    (opened : (Texture.Reader.open path contents).value = .ok source)
    (small : source.SmallTiles) :
    ∃ colorOf : Nat -> Nat -> Single -> Color,
      ∀ capacity uses, 0 < capacity ->
        ∃ map, ReachedBy path contents capacity uses map ∧
          ∀ depth,
            (∀ x y, ∃ next,
              ((visibilityAt x y depth).answer map).value = .ok (colorOf x y depth, next)) ∧
            (source.grid.HasRoom ->
              ∃ colors next,
                ((depthSlice depth).answer map).value = .ok (colors, next) ∧
                ((paintSlice depth).answer map).value = .ok (colors.toArray, next) ∧
                colors.length = source.grid.imageWidth * source.grid.imageHeight ∧
                ∀ x y, x < source.grid.imageWidth -> y < source.grid.imageHeight ->
                  colors[y * source.grid.imageWidth + x]? = some (colorOf x y depth)) ∧
            (¬source.grid.HasRoom ->
              ((depthSlice depth).answer map).value = .error .capacityOverflow ∧
              ((paintSlice depth).answer map).value = .error .capacityOverflow) := by
  obtain ⟨bytes, -, read⟩ := Texture.Reader.exists_bytes opened
  choose colorOf known using small.visibilityAt_eq_ok read
  refine ⟨colorOf, fun capacity uses positive => ?_⟩
  obtain ⟨map, reached, serves⟩ := exists_reachedBy known opened positive uses
  refine ⟨map, reached, fun depth => ⟨fun x y => ?_, fun room => ?_, fun noRoom => ?_⟩⟩
  · obtain ⟨next, answered, -⟩ := gives_visibilityAt known x y depth map serves
    exact ⟨next, answered⟩
  · obtain ⟨colors, colors_eq, painted⟩ := small.paintedSlice_eq read room depth
    have looked := source.tiles.depthSlice_eq_ok room fun pixel => known pixel.1 pixel.2 depth
    obtain rfl := Except.ok.inj (colors_eq.symm.trans looked)
    obtain ⟨next, sliced, alsoPainted⟩ := answer_paintSlice known room painted serves
    refine ⟨_, next, sliced, alsoPainted, ?_, fun x y insideX insideY => ?_⟩
    · rw [List.length_map, Grid.length_pixels, Nat.mul_comm]
    · rw [List.getElem?_map, Grid.getElem?_pixels insideX insideY]
      rfl
  · obtain ⟨widthFits, heightFits⟩ := Texture.Reader.sides_lt read
    have counted := Grid.area_lt widthFits heightFits
    exact ⟨breaks_ask_of_ok [] (CachedReader.breaks_depthSlice noRoom depth) map serves,
      breaks_ask_of_ok #[] (CachedReader.breaks_paintSlice noRoom counted depth) map serves⟩

open SharedBlock in
/-- A map of two pixels whose depths are not in order has a slice of two colors after it was
used, and the second pixel is occluded in it. -/
theorem slice_has_lookups_sharedBlock :
    (∃ source, (Texture.Reader.open "" (.ok file)).value = .ok source ∧ source.SmallTiles ∧
      source.grid.HasRoom) ∧
      ∃ map, ReachedBy "" (.ok file) 1 [.visibility 0 0 Single.one, .greatestDepth] map ∧
        ∃ colors next,
          ((depthSlice (Single.ofNat 2)).answer map).value = .ok (colors, next) ∧
          colors.length = 2 ∧ colors[1]? = some Color.black := by
  obtain ⟨source, opened⟩ := exists_reader
  have small := smallTiles opened
  obtain ⟨width_eq, height_eq⟩ := grid_eq opened
  have enough := room opened
  obtain ⟨colorOf, everyMap⟩ := slice_has_lookups opened small
  obtain ⟨map, reached, everyDepth⟩ :=
    everyMap 1 [.visibility 0 0 Single.one, .greatestDepth] (by decide)
  obtain ⟨looked, withRoom, -⟩ := everyDepth (Single.ofNat 2)
  obtain ⟨colors, next, sliced, -, length_eq, found⟩ := withRoom enough
  have occluded : colorOf 1 0 (Single.ofNat 2) = Color.black := by
    obtain ⟨last, answered⟩ := looked 1 0
    obtain ⟨other, alsoAnswered, -⟩ := gives_ask_of_ok Color.white
      (CachedReader.gives_visibilityAt (visibilityAt_eq opened)) map
      (reached.serves opened)
    exact (Prod.mk.inj (Except.ok.inj (answered.symm.trans alsoAnswered))).1
  have second := found 1 0 (by rw [width_eq]; decide) (by rw [height_eq]; decide)
  rw [width_eq, height_eq] at length_eq
  rw [occluded, Nat.zero_mul, Nat.zero_add] at second
  exact ⟨⟨source, opened, small, enough⟩, map, reached, colors, next, sliced, length_eq, second⟩

/-- A map of a file with small tiles, none of which is stored, has a visibility for every
pixel, and there is no slice with these visibilities. -/
theorem huge_slice_without_entries :
    ∃ source map,
      (Texture.Reader.open "" (.ok HugeImage.layout.bytes)).value = .ok source ∧
      source.SmallTiles ∧
      ReachedBy "" (.ok HugeImage.layout.bytes) 1 [] map ∧
      (∀ x y, ∃ color next,
        ((visibilityAt x y Single.one).answer map).value = .ok (color, next)) ∧
      ((depthSlice Single.one).answer map).value = .error .capacityOverflow := by
  obtain ⟨source, opened, small, noRoom⟩ := HugeImage.exists_reader
  obtain ⟨map, reached, looked, unanswered⟩ :=
    exists_reachedBy_without_slice opened small noRoom Nat.one_pos [] Single.one
  exact ⟨source, map, opened, small, reached, looked, unanswered⟩

end ShadowMap
end DeepShadow
