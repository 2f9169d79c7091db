import DeepShadow.Region

/-!
# Strips

A region arrives in strips: the rows of one bucket, each with the curves of its
pixels from left to right.  Strips are the pieces from which a tile is put
together, because a tile lists its curves row by row.
-/

namespace DeepShadow
namespace Assembly

/-- One row of the pixels of a bucket. -/
inductive Strip
  /-- Nothing is occluded. -/
  | unoccluded (width : Nat)
  /-- The number of nodes of each pixel's curve, and the stored form of all
  nodes. -/
  | curves (lengths : List Nat) (values : List Single)
deriving DecidableEq, Inhabited, Repr

namespace Strip

/-- The number of nodes of each pixel's curve. -/
def lengths : Strip -> List Nat
  | .unoccluded width => List.replicate width 1
  | .curves lengths _ => lengths

/-- The stored form of all nodes. -/
def values (channels : Nat) : Strip -> Except Violation (List Single)
  | .unoccluded width => do
      let nodes ← (List.replicate width Node.start).mapM (Curve.flattenNode channels)
      return nodes.flatten
  | .curves _ values => .ok values

/-- Whether each curve has a single node. -/
def isNeglectable (strip : Strip) : Bool := strip.lengths.all (· == 1)

/-- Cuts the curves of `rows` rows of pixels into strips.  Each node takes
`stride` values. -/
def cut
    (width stride : Nat) :
    (rows : Nat) -> (lengths : List Nat) -> (values : List Single) -> List Strip
  | 0, _, _ => []
  | rows + 1, lengths, values =>
      let first := lengths.take width
      let valueCount := Region.nodeTotal first * stride
      .curves first (values.take valueCount) ::
        cut width stride rows (lengths.drop width) (values.drop valueCount)

/-- The strips of a region, from top to bottom. -/
def ofRegion (region : Region) : List Strip :=
  match region.lengths with
  | none => List.replicate region.bounds.height (.unoccluded region.bounds.width)
  | some lengths =>
      cut region.bounds.width (region.channels + 1) region.bounds.height lengths region.values

end Strip
end Assembly
end DeepShadow
