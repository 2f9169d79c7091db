import DeepShadow.Assembly.Strip
import DeepShadow.Bucket.Basic
import DeepShadow.Tile

/-!
# Pending tiles

A tile is pending while some of its strips have not arrived.  It has one slot for
each row of each of its buckets, numbered row by row: in this order the strips
make the tile, whatever the order in which they arrived.
-/

namespace DeepShadow
namespace Assembly

/-- What becomes of the strips of a tile. -/
inductive AssembledTile
  | stored (tile : Tile)
  /-- Each pixel has a single node, so that the tile need not be stored. -/
  | neglectable (position : TilePosition)
deriving DecidableEq, Repr

namespace AssembledTile

/-- The place of the tile. -/
def position : AssembledTile -> TilePosition
  | .stored tile => tile.placement.position
  | .neglectable position => position

end AssembledTile

/-- A tile of which some strips have arrived. -/
structure PendingTile where
  placement : Placement
  /-- The number of buckets side by side. -/
  columns : Nat
  slots : Vector (Option Strip) (placement.height * columns)
  /-- The number of pixels that have arrived. -/
  filled : Nat

namespace PendingTile

/-- The tile of which nothing has arrived. -/
def empty (placement : Placement) (size : BucketSize) : PendingTile :=
  { placement
    columns := partsCovering placement.width size.width
    slots := Vector.replicate _ none
    filled := 0 }

/-- The number of the slot of a row of a bucket. -/
def slot (tile : PendingTile) (row column : Nat) : Nat := row * tile.columns + column

/-- Whether a row of a bucket has arrived. -/
def isFilled (tile : PendingTile) (row column : Nat) : Bool :=
  (tile.slots[tile.slot row column]?.getD none).isSome

/-- The first of `count` rows of a bucket, from `top` on, that has arrived. -/
def firstFilled? (tile : PendingTile) (top count column : Nat) : Option Nat :=
  (List.range' top count).find? fun row => tile.isFilled row column

/-- Puts a strip into its slot. -/
def put (tile : PendingTile) (row column : Nat) (strip : Strip) : PendingTile :=
  { tile with
    slots := tile.slots.setIfInBounds (tile.slot row column) (some strip)
    filled := tile.filled + strip.lengths.length }

/-- Puts the strips of a bucket into their slots, from a row downwards. -/
def putAll (tile : PendingTile) (top column : Nat) : List Strip -> PendingTile
  | [] => tile
  | strip :: strips => (tile.put top column strip).putAll (top + 1) column strips

/-- Whether all pixels have arrived. -/
def isFull (tile : PendingTile) : Bool := tile.filled == tile.placement.pixelCount

/-- The strips that have arrived, in the order of their slots. -/
def strips (tile : PendingTile) : List Strip := tile.slots.toList.filterMap id

/-- The offsets of curves with the given lengths. -/
def offsets (lengths : List Nat) : Array UInt32 :=
  (lengths.foldl
    (fun (offsets, total) length =>
      let total := total + UInt32.ofNat length
      (offsets.push total, total))
    (#[0], 0)).1

/-- The tile that the strips make. -/
def assemble (tile : PendingTile) (channels : Nat) : Except Violation AssembledTile := do
  let position := tile.placement.position
  if tile.strips.all Strip.isNeglectable then
    return .neglectable position
  let values ← tile.strips.mapM (Strip.values channels)
  match Tile.ofParts tile.placement channels (offsets (tile.strips.flatMap Strip.lengths))
      values.flatten.toArray with
  | .ok assembled => return .stored assembled
  | .error error => throw (.inconsistentTile position.row position.column error.message)

end PendingTile
end Assembly
end DeepShadow
