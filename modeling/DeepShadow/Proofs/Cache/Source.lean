import DeepShadow.Proofs.Cache.Transparency

/-!
# Sources of tiles

Whatever gives a tile for each position of a grid, or an error, can stand behind a
cache.  A pixel asked of a source directly has the answer of the tile that owns it;
asked through a cache, it costs one request of this tile.  A file is such a source, and
the readers of files ask it so.
-/

namespace DeepShadow

/-- A grid of tiles with what loading each of them gives. -/
structure TileSource (ε : Type) where
  grid : Grid
  load : TilePosition -> Except ε Tile

/-- What can be asked of a cache. -/
inductive Inquiry
  | tile (position : TilePosition)
  | visibility (x y : Nat) (depth : Single)
  | curve (x y : Nat)
deriving DecidableEq, Repr

namespace TileSource

variable {ε : Type}

/-- The tile that owns a pixel, where there is one and it can be loaded. -/
def tileForPixel (source : TileSource ε) (x y : Nat) : Option Tile :=
  match source.grid.tileForPixel x y with
  | .ok position => (source.load position).toOption
  | .error _ => none

/-- The visibility of a pixel where its tile is given. -/
def visibilityIn (x y : Nat) (depth : Single) : Option Tile -> Except Violation Color
  | some tile => tile.visibilityAt x y depth
  | none => .ok Color.white

/-- The curve of a pixel where its tile is given. -/
def curveIn (x y : Nat) : Option Tile -> Except Violation (Option StoredCurve)
  | some tile => tile.curveAtPixel x y
  | none => .ok none

/-- The visibility of a pixel at a depth. -/
def visibilityAt (source : TileSource ε) (x y : Nat) (depth : Single) : Except Violation Color :=
  visibilityIn x y depth (source.tileForPixel x y)

/-- The curve of a pixel; none outside the image, or where the tile cannot be
loaded. -/
def curveAt (source : TileSource ε) (x y : Nat) : Except Violation (Option StoredCurve) :=
  curveIn x y (source.tileForPixel x y)

/-- The tiles requested for the pixel, at most one. -/
def requestedForPixel (source : TileSource ε) (x y : Nat) : List TilePosition :=
  (source.grid.tileForPixel x y).toOption.toList

/-- The tiles requested for an inquiry. -/
def requested (source : TileSource ε) : Inquiry -> List TilePosition
  | .tile position => [position]
  | .visibility x y _ => source.requestedForPixel x y
  | .curve x y => source.requestedForPixel x y

end TileSource

namespace Cache

variable {ε : Type}

/-- Requests tiles one after the other. -/
def requestAll (load : TilePosition -> Except ε Tile) (cache : Cache)
    (positions : List TilePosition) : Cache :=
  positions.foldl (fun cache position => (cache.request load position).2) cache

/-- Requests the tile that owns a pixel. -/
def requestForPixel (source : TileSource ε) (cache : Cache) (x y : Nat) : Option Tile × Cache :=
  match source.grid.tileForPixel x y with
  | .ok position =>
      let (answer, cache) := cache.request source.load position
      (answer.tile, cache)
  | .error _ => (none, cache)

/-- The visibility of a pixel at a depth, asked through a cache. -/
def visibilityAt (source : TileSource ε) (cache : Cache) (x y : Nat) (depth : Single) :
    Except Violation Color × Cache :=
  let (tile, cache) := cache.requestForPixel source x y
  (TileSource.visibilityIn x y depth tile, cache)

/-- The curve of a pixel, asked through a cache. -/
def curveAt (source : TileSource ε) (cache : Cache) (x y : Nat) :
    Except Violation (Option StoredCurve) × Cache :=
  let (tile, cache) := cache.requestForPixel source x y
  (TileSource.curveIn x y tile, cache)

/-- The cache behind an inquiry. -/
def ask (source : TileSource ε) (cache : Cache) : Inquiry -> Cache
  | .tile position => (cache.request source.load position).2
  | .visibility x y depth => (cache.visibilityAt source x y depth).2
  | .curve x y => (cache.curveAt source x y).2

/-- The cache behind inquiries that are made one after the other. -/
def askAll (source : TileSource ε) (cache : Cache) (inquiries : List Inquiry) : Cache :=
  inquiries.foldl (ask source) cache

theorem requestForPixel_snd
    (source : TileSource ε)
    (cache : Cache)
    (x y : Nat) :
    (cache.requestForPixel source x y).2 =
      cache.requestAll source.load (source.requestedForPixel x y) := by
  simp only [requestForPixel, TileSource.requestedForPixel]
  cases source.grid.tileForPixel x y <;> rfl

/-- An inquiry leaves the cache that its requests leave. -/
theorem ask_eq
    (source : TileSource ε)
    (cache : Cache)
    (inquiry : Inquiry) :
    cache.ask source inquiry = cache.requestAll source.load (source.requested inquiry) := by
  cases inquiry with
  | tile position => rfl
  | visibility x y depth => exact requestForPixel_snd source cache x y
  | curve x y => exact requestForPixel_snd source cache x y

theorem askAll_eq
    (source : TileSource ε)
    (cache : Cache)
    (inquiries : List Inquiry) :
    cache.askAll source inquiries =
      cache.requestAll source.load (inquiries.flatMap source.requested) := by
  induction inquiries generalizing cache with
  | nil => rfl
  | cons inquiry inquiries inductionHypothesis =>
      rw [List.flatMap_cons, requestAll, List.foldl_append]
      exact (inductionHypothesis _).trans (congrArg (requestAll source.load · _)
        (ask_eq source cache inquiry))

/-- The tile of a pixel comes out of the cache as it comes out of the source. -/
theorem Faithful.requestForPixel
    {source : TileSource ε}
    {cache : Cache}
    (faithful : cache.Faithful source.load)
    (x y : Nat) :
    (cache.requestForPixel source x y).1 = source.tileForPixel x y := by
  simp only [Cache.requestForPixel, TileSource.tileForPixel]
  cases source.grid.tileForPixel x y with
  | ok position => exact (faithful.request position).1
  | error error => rfl

theorem Faithful.visibilityAt_eq
    {source : TileSource ε}
    {cache : Cache}
    (faithful : cache.Faithful source.load)
    (x y : Nat)
    (depth : Single) :
    (cache.visibilityAt source x y depth).1 = source.visibilityAt x y depth :=
  congrArg (TileSource.visibilityIn x y depth) (faithful.requestForPixel x y)

theorem Faithful.curveAt_eq
    {source : TileSource ε}
    {cache : Cache}
    (faithful : cache.Faithful source.load)
    (x y : Nat) :
    (cache.curveAt source x y).1 = source.curveAt x y :=
  congrArg (TileSource.curveIn x y) (faithful.requestForPixel x y)

end Cache

namespace CachedReader

/-- The file of a reader as a source of tiles. -/
def tiles (reader : CachedReader) : TileSource Texture.ReadError :=
  ⟨reader.source.grid, reader.source.load⟩

/-- The cache of a reader is requested for the tile. -/
theorem answer_request_eq (reader : CachedReader) (position : TilePosition) :
    ∃ next : CachedReader,
      ((request position).answer reader).value =
        .ok ((reader.cache.request reader.source.load position).1.tile, next) ∧
      next.cache = (reader.cache.request reader.source.load position).2 :=
  ⟨_, rfl, rfl⟩

theorem answer_requestForPixel (reader : CachedReader) (x y : Nat) :
    ∃ next : CachedReader,
      ((requestForPixel x y).answer reader).value =
        .ok ((reader.cache.requestForPixel reader.tiles x y).1, next) ∧
      next.cache = (reader.cache.requestForPixel reader.tiles x y).2 := by
  rw [requestForPixel, Query.answer_get_bind]
  simp only [Cache.requestForPixel, tiles]
  cases reader.source.grid.tileForPixel x y with
  | ok position => exact answer_request_eq reader position
  | error error => exact ⟨reader, rfl, rfl⟩

/-- A reader answers what its cache gives. -/
theorem answer_visibilityAt_eq (reader : CachedReader) (x y : Nat) (depth : Single) :
    ((visibilityAt x y depth).answer reader).value.map Prod.fst =
      (reader.cache.visibilityAt reader.tiles x y depth).1 := by
  obtain ⟨next, answered, -⟩ := answer_requestForPixel reader x y
  rw [visibilityAt, Query.answer_bind, answered]
  simp only [Cache.visibilityAt]
  cases (reader.cache.requestForPixel reader.tiles x y).1 with
  | none => rfl
  | some tile =>
      simp only [TileSource.visibilityIn]
      cases tile.visibilityAt x y depth <;> rfl

theorem answer_curveAt_eq (reader : CachedReader) (x y : Nat) :
    ((curveAt x y).answer reader).value.map Prod.fst =
      (reader.cache.curveAt reader.tiles x y).1 := by
  obtain ⟨next, answered, -⟩ := answer_requestForPixel reader x y
  rw [curveAt, Query.answer_bind, answered]
  simp only [Cache.curveAt]
  cases (reader.cache.requestForPixel reader.tiles x y).1 with
  | none => rfl
  | some tile =>
      simp only [TileSource.curveIn]
      cases tile.curveAtPixel x y <;> rfl

end CachedReader
end DeepShadow
