import DeepShadow.Single.Decimal

/-!
# Violations

A call can break the contract of the function it calls: it passes a pixel
outside the tile, or a node that lies before the last one.  Such a call has no
answer.  It gives a `Violation`, which says what was wrong and is not one of the
errors a correct caller has to expect.
-/

namespace DeepShadow

/-- A broken contract. -/
inductive Violation
  /-- An index or a slice lies outside its array. -/
  | outOfBounds
  /-- A curve was extended by a node that is not at or behind its last one. -/
  | nodeBeforeLast (depth last : Single)
  /-- A color was built from neither one nor three components. -/
  | componentCount (count : Nat)
  /-- A color was written with neither one nor three components. -/
  | componentsWanted (channels : Nat)
  /-- A stored curve has no visibility components at all. -/
  | noChannels
  /-- A stored curve ends in the middle of a node. -/
  | partialNode
  /-- A tile was wanted with neither one nor three channels. -/
  | tileChannels (channels : Nat)
  /-- A tile was asked for a pixel that it does not have. -/
  | pixelOutsideTile (x y width height : Nat)
  /-- A region was packed from more or fewer curves than it has pixels. -/
  | curveCount (left top right bottom : Nat)
  /-- A bucket has no pixels. -/
  | emptyBucket
  /-- A tile does not divide into buckets. -/
  | bucketsInTile (tileWidth tileHeight bucketWidth bucketHeight : Nat)
  /-- The rows collected for a tile do not make a tile. -/
  | inconsistentTile (row column : Nat) (reason : String)
  /-- A queue without places was wanted. -/
  | emptyQueue
  /-- An array was wanted that no memory has room for. -/
  | capacityOverflow
deriving DecidableEq, Repr

namespace Violation

/-- The text shown for a violation. -/
def message : Violation -> String
  | outOfBounds => "out of bounds"
  | nodeBeforeLast depth last =>
      s!"visibility node depth {depth.toText} precedes previous depth {last.toText}"
  | componentCount count => s!"unsupported visibility component count {count}"
  | componentsWanted channels => s!"unsupported visibility channel count {channels}"
  | noChannels => "visibility function needs at least one channel"
  | partialNode => "visibility function data is not a whole number of nodes"
  | tileChannels channels => s!"unsupported channel count {channels}"
  | pixelOutsideTile x y width height =>
      s!"local pixel ({x}, {y}) outside tile {width}x{height}"
  | curveCount left top right bottom =>
      s!"region {left},{top}..{right},{bottom} expects one curve per pixel"
  | emptyBucket => "bucket size must be at least 1x1"
  | bucketsInTile tileWidth tileHeight bucketWidth bucketHeight =>
      s!"tile size {tileWidth}x{tileHeight} must be a multiple of bucket size " ++
        s!"{bucketWidth}x{bucketHeight}"
  | inconsistentTile row column reason =>
      s!"assembled tile ({row}, {column}) is inconsistent: {reason}"
  | emptyQueue => "output channel capacity must be greater than zero"
  | capacityOverflow => "capacity overflow"

end Violation
end DeepShadow
