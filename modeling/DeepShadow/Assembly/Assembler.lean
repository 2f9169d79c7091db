import DeepShadow.Assembly.Error
import DeepShadow.Assembly.Sink

/-!
# The assembler

The assembler collects the regions of an image into tiles.  A region consists of
whole rows of one bucket, and each row of a bucket may arrive once.  When the
last row of a tile has arrived, the tile goes to the sink; when the last tile has
gone there, the sink is finished.
-/

namespace DeepShadow
namespace Assembly

/-- The state of an assembly, whose sink has a state of its own. -/
structure Assembler (State Summary : Type) where
  grid : Grid
  bucket : BucketSize
  divides : bucket.Divides grid
  channels : Nat
  /-- By the number of the tile, the strips of the tiles that have begun to
  arrive and are not complete. -/
  pending : TileMap grid (Option PendingTile)
  /-- The tiles of which everything has arrived. -/
  completed : TileSet grid
  sink : State
  /-- What the sink answered when it was finished. -/
  summary : Option Summary

namespace Assembler

/-- The assembly of which nothing has arrived. -/
def start
    (grid : Grid)
    (bucketWidth bucketHeight channels : Nat)
    (sink : State) : Except Violation (Assembler State Summary) := do
  let bucket ← BucketSize.ofSides bucketWidth bucketHeight
  if divides : bucket.Divides grid then
    return {
      grid, bucket, divides, channels, sink
      pending := TileMap.constant grid none
      completed := TileSet.empty grid
      summary := none }
  else
    throw (.bucketsInTile grid.tileWidth grid.tileHeight bucketWidth bucketHeight)

/-- Whether the sink has been finished. -/
def isFinished (assembler : Assembler State Summary) : Bool := assembler.summary.isSome

/-- The number of tiles of which everything has arrived. -/
def completedCount (assembler : Assembler State Summary) : Nat := assembler.completed.count

/-- The number of tiles of which something is missing. -/
def missingCount (assembler : Assembler State Summary) : Nat :=
  assembler.grid.tileCount - assembler.completed.count

/-- The number of tiles that have begun to arrive and are not complete. -/
def pendingCount (assembler : Assembler State Summary) : Nat :=
  assembler.pending.toList.countP Option.isSome

/-- Checks the curves that a region carries.  Of the number of values that they need, `count`
tells which one is counted. -/
def checkCurvesBy
    (count : Nat -> Nat)
    (region : Region)
    (lengths : List Nat) : Except RegionError Unit := do
  if lengths.length ≠ region.bounds.pixelCount then
    throw (.lengthCount region.bounds.pixelCount lengths.length)
  if lengths.contains 0 then
    throw .emptyCurve
  let expected := count (Region.nodeTotal lengths * (region.channels + 1))
  if region.values.length ≠ expected then
    throw (.valueCount expected region.values.length)

/-- Checks a region without regard to those that have arrived before it.  The column behind
a bucket is a number without a bound: a program that adds words relies on it that no bucket
ends behind the greatest word. -/
def checkBy
    (count : Nat -> Nat)
    (assembler : Assembler State Summary)
    (region : Region) : Except RegionError Unit := do
  let size := assembler.bucket
  let ⟨left, top, right, bottom⟩ := region.bounds
  if assembler.isFinished then
    throw .finished
  if region.channels ≠ assembler.channels then
    throw (.channels assembler.channels region.channels)
  if right ≤ left ∨ bottom ≤ top then
    throw .empty
  if assembler.grid.imageWidth < right ∨ assembler.grid.imageHeight < bottom then
    throw .outsideImage
  if size.width < region.bounds.width then
    throw .widerThanBucket
  if size.height < region.bounds.height then
    throw .tallerThanBucket
  if size.leftOf (right - 1) ≠ size.leftOf left ∨ size.topOf (bottom - 1) ≠ size.topOf top then
    throw .crossesBucket
  if left ≠ size.leftOf left ∨
      right ≠ min (size.leftOf left + size.width) assembler.grid.imageWidth then
    throw .partialRow
  match region.lengths with
  | none => return
  | some lengths => checkCurvesBy count region lengths

/-- Checks a region without regard to those that have arrived before it.  Its values are
counted, however many they are; `checkInWords` counts them in words. -/
def check (assembler : Assembler State Summary) (region : Region) : Except RegionError Unit :=
  assembler.checkBy id region

/-- The place in a tile that a region is put into: the number of the tile and the tile, and
in it the first row and the bucket. -/
structure Place (tileCount : Nat) where
  index : Fin tileCount
  tile : PendingTile
  row : Nat
  column : Nat

/-- Puts strips into a place. -/
def Place.fill
    {tileCount : Nat}
    (place : Place tileCount)
    (strips : List Strip) : Fin tileCount × PendingTile :=
  (place.index, place.tile.putAll place.row place.column strips)

/-- Finds the tile of a region, unless everything has arrived of it. -/
def findTile
    (assembler : Assembler State Summary)
    (region : Region) : Except RegionError (Fin assembler.grid.tileCount × Placement) := do
  let outside {α : Type} (result : Except GridError α) : Except RegionError α :=
    result.mapError fun _ => .outsideImage
  let position ← outside (assembler.grid.tileForPixel region.bounds.left region.bounds.top)
  let index ← outside (assembler.grid.index position)
  if assembler.completed.marks.get index then
    throw (.tileComplete position)
  let placement ← outside (assembler.grid.placement position)
  return (index, placement)

/-- Finds the place of a region, unless one of its rows has arrived. -/
def find
    (assembler : Assembler State Summary)
    (region : Region) : Except RegionError (Place assembler.grid.tileCount) := do
  let (index, placement) ← assembler.findTile region
  let tile := (assembler.pending.get index).getD (PendingTile.empty placement assembler.bucket)
  let row := region.bounds.top - placement.originY
  let column := (region.bounds.left - placement.originX) / assembler.bucket.width
  match tile.firstFilled? row region.bounds.height column with
  | some filled => throw (.rowFilled (placement.originY + filled))
  | none => return ⟨index, tile, row, column⟩

/-- Puts the strips of a region into the tile that owns them, unless the region
has to be refused.  Gives the number of the tile with its strips. -/
def fill
    (assembler : Assembler State Summary)
    (region : Region) :
    Except RegionError (Fin assembler.grid.tileCount × PendingTile) := do
  assembler.check region
  let place ← assembler.find region
  return place.fill (Strip.ofRegion region)

/-- Finishes the sink. -/
def finishSink
    (sink : Sink State Summary)
    (assembler : Assembler State Summary) :
    Traced (Except Error Unit × Assembler State Summary) := do
  match ← sink.finish assembler.sink with
  | (.error error, state) => return (.error (.write error), { assembler with sink := state })
  | (.ok summary, state) =>
      return (.ok (), { assembler with sink := state, summary := some summary })

/-- Hands a tile to the sink, and finishes the sink where the tile is the last
one. -/
def emit
    (sink : Sink State Summary)
    (assembler : Assembler State Summary)
    (tile : AssembledTile) : Traced (Except Error Unit × Assembler State Summary) := do
  match ← sink.accept assembler.sink tile with
  | (.error error, state) => return (.error (.write error), { assembler with sink := state })
  | (.ok (), state) =>
      let assembler := { assembler with sink := state }
      if assembler.completed.isFull then assembler.finishSink sink
      else return (.ok (), assembler)

/-- Goes on with a tile into which the strips of a rectangle were put: a tile of which
everything has arrived goes to the sink. -/
def take
    (sink : Sink State Summary)
    (assembler : Assembler State Summary)
    (bounds : Rectangle)
    (index : Fin assembler.grid.tileCount)
    (tile : PendingTile) :
    Traced (Except Violation (Except Error Unit × Assembler State Summary)) := do
  let ⟨left, top, right, bottom⟩ := bounds
  let position := tile.placement.position
  Traced.say .tiles .debug <|
    s!"region {left},{top}..{right},{bottom} into tile " ++
      s!"({position.row}, {position.column}): " ++
      s!"{tile.filled}/{tile.placement.pixelCount} pixels"
  if tile.isFull then
    match tile.assemble assembler.channels with
    | .error violation => return .error violation
    | .ok assembled =>
        let assembler :=
          { assembler with
            pending := assembler.pending.set index none
            completed := assembler.completed.add index }
        return .ok (← assembler.emit sink assembled)
  else
    return .ok
      (.ok (), { assembler with pending := assembler.pending.set index (some tile) })

/-- Takes a region. -/
def submit
    (sink : Sink State Summary)
    (assembler : Assembler State Summary)
    (region : Region) :
    Traced (Except Violation (Except Error Unit × Assembler State Summary)) := do
  match assembler.fill region with
  | .error error => return .ok (.error (.region error), assembler)
  | .ok (index, tile) => assembler.take sink region.bounds index tile

/-- Finishes the sink although tiles may be missing.  The strips of pending tiles
are discarded. -/
def close
    (sink : Sink State Summary)
    (assembler : Assembler State Summary) :
    Traced (Except Error Unit × Assembler State Summary) := do
  if assembler.isFinished then
    return (.ok (), assembler)
  let pending := assembler.pendingCount
  if pending ≠ 0 then
    Traced.say .tiles .warning
      s!"closing with {pending} partially filled tiles; they are discarded"
  { assembler with pending := TileMap.constant _ none }.finishSink sink

end Assembler
end Assembly
end DeepShadow
