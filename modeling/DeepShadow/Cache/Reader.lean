import DeepShadow.Cache.Basic
import DeepShadow.Query
import DeepShadow.Region
import DeepShadow.Texture.Reader

/-!
# Reading through a cache

The tiles of a deep texture, requested through a cache.  What the file cannot
answer counts as fully visible.
-/

namespace DeepShadow

namespace Grid

/-- An array has room for a color of each pixel.  A color takes twelve bytes, and no array
takes more bytes than a signed word can count. -/
def HasRoom (grid : Grid) : Prop :=
  grid.imageWidth * grid.imageHeight * 12 < 0x8000000000000000

instance (grid : Grid) : Decidable grid.HasRoom := inferInstanceAs (Decidable (_ < _))

/-- Makes room for a color of each pixel. -/
def reserve (grid : Grid) : Except Violation Unit :=
  if grid.HasRoom then .ok () else .error .capacityOverflow

end Grid

/-- An opened file with the tiles held from it. -/
structure CachedReader where
  source : Texture.Reader
  cache : Cache
  /-- The number of blocks that were decoded. -/
  decodes : Nat

namespace CachedReader

/-- The file with nothing held from it. -/
def ofCapacity (source : Texture.Reader) (capacity : Nat) : Except CacheError CachedReader := do
  return { source, cache := ← Cache.ofCapacity capacity, decodes := 0 }

/-- The lines reported for a request. -/
def requestLines
    (reader : CachedReader)
    (position : TilePosition)
    (answer : Cache.Answer Texture.ReadError) : List LogLine :=
  let evictions := answer.evicted.map fun evicted : TilePosition =>
    ⟨.tiles, .debug, s!"evicted tile ({evicted.row}, {evicted.column})"⟩
  match answer.loaded with
  | none => evictions
  | some result =>
      let failure := match result with
        | .ok _ => []
        | .error error =>
            [⟨.tiles, .warning,
              s!"tile ({position.row}, {position.column}) unavailable, " ++
                s!"treating it as fully visible: {error.message}"⟩]
      evictions ++ reader.source.loadLines position result ++ failure

/-- Requests a tile; none where it cannot be loaded. -/
def request (position : TilePosition) : Query CachedReader (Option Tile) := do
  let reader ← get
  let (answer, cache) := reader.cache.request reader.source.load position
  Query.report (reader.requestLines position answer)
  let decoded := match answer.loaded with
    | some result => reader.source.wasDecoded position result
    | none => false
  set { reader with cache, decodes := if decoded then reader.decodes + 1 else reader.decodes }
  return answer.tile

/-- Requests the tile that owns a pixel; none outside the image. -/
def requestForPixel (x y : Nat) : Query CachedReader (Option Tile) := do
  match (← get).source.grid.tileForPixel x y with
  | .ok position => request position
  | .error _ => return none

/-- The visibility of a pixel at a depth. -/
def visibilityAt (x y : Nat) (depth : Single) : Query CachedReader Color := do
  match ← requestForPixel x y with
  | some tile => Query.require (tile.visibilityAt x y depth)
  | none => return Color.white

/-- The first step of a request: finds the entry of the tile, or enters a new one. -/
def enter (position : TilePosition) : Query CachedReader CacheEntry := do
  let reader ← get
  let (entry, evicted, cache) := reader.cache.lookup position
  Query.report (reader.requestLines position { tile := none, evicted, loaded := none })
  set { reader with cache }
  return entry

/-- The second step of a request: takes the tile of the entry, which is loaded unless
another request has settled the entry in between. -/
def fetch (entry : CacheEntry) : Query CachedReader (Option Tile) := do
  let reader ← get
  let current := (reader.cache.entries.find? (·.ticket = entry.ticket)).getD entry
  match current.slot with
  | .settled tile => return tile
  | .pending =>
      let result := reader.source.load entry.position
      let tile := result.toOption
      Query.report
        (reader.requestLines entry.position { tile, evicted := [], loaded := some result })
      set
        { reader with
          cache := reader.cache.settle entry.ticket tile
          decodes :=
            if reader.source.wasDecoded entry.position result then reader.decodes + 1
            else reader.decodes }
      return tile

/-- The visibilities of pixels at depths, each asked for by a caller of its own at the same
time.  The lock of the cache lets one caller after the other look up its tile, and a tile is
loaded when its caller has left the lock.  Here all callers look up their tiles before the
first one is loaded: of the orders in which their steps can be taken, this is the one in
which the most tiles are held without having been loaded. -/
def visibilitiesAt (points : List (Nat × Nat × Single)) : Query CachedReader (List Color) := do
  let grid := (← get).source.grid
  let entries ← points.mapM fun (x, y, _) => (grid.tileForPixel x y).toOption.mapM enter
  let tiles ← entries.mapM fun entry => entry.mapM fetch
  (points.zip tiles).mapM fun ((x, y, depth), tile) =>
    match tile.join with
    | some tile => Query.require (tile.visibilityAt x y depth)
    | none => return Color.white

/-- The curve of a pixel; none outside the image, or where the tile cannot be
loaded. -/
def curveAt (x y : Nat) : Query CachedReader (Option StoredCurve) := do
  match ← requestForPixel x y with
  | some tile => Query.require (tile.curveAtPixel x y)
  | none => return none

/-- The greatest depth of all tiles, at least zero. -/
def greatestDepth : Query CachedReader Single := do
  (← get).source.grid.positions.foldlM
    (fun greatest position => do
      match ← request position with
      | some tile => return greatest.max tile.greatestDepth
      | none => return greatest)
    Single.zero

/-- The visibility of a pixel at a depth, given the tiles of a grid row by row. -/
def visibilityAmong
    (grid : Grid)
    (tiles : Array (Option Tile))
    (depth : Single)
    (x y : Nat) : Except Violation Color :=
  match tiles.getD (y / grid.tileHeight * grid.columns + x / grid.tileWidth) none with
  | some tile => tile.visibilityAt x y depth
  | none => .ok Color.white

/-- The visibility of each pixel at a depth, row by row.  Room for the colors is made before
the first tile is requested. -/
def depthSlice (depth : Single) : Query CachedReader (List Color) := do
  let grid := (← get).source.grid
  Query.require grid.reserve
  let tiles ← grid.positions.mapM request
  let pixels := Rectangle.pixels ⟨0, 0, grid.imageWidth, grid.imageHeight⟩
  Query.require (pixels.mapM fun (x, y) => visibilityAmong grid tiles.toArray depth x y)

end CachedReader
end DeepShadow
