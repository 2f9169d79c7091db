import DeepShadow.Color

/-!
# Hits of subsamples

A pixel is seen through several subsamples.  Each of them meets surfaces on its
way, in ascending depth, and has a weight among the subsamples of its pixel.
-/

namespace DeepShadow

/-- The crossing of one surface. -/
structure Hit where
  depth : Single
  opacity : Color
deriving DecidableEq, Inhabited, Repr

/-- The surfaces met by one subsample. -/
inductive Hits
  /-- One surface, behind which nothing can be seen. -/
  | solid (hit : Hit)
  /-- Surfaces in ascending order of depth. -/
  | layered (hits : List Hit)
deriving DecidableEq, Inhabited, Repr

/-- A subsample with its weight. -/
structure Subsample where
  weight : Single
  hits : Hits
deriving DecidableEq, Inhabited, Repr

namespace Hit

/-- The crossing of a surface that lets nothing through. -/
def ofDepth (depth : Single) : Hit := ⟨depth, Color.white⟩

end Hit

namespace Hits

/-- The surfaces from front to back. -/
def toList : Hits -> List Hit
  | .solid hit => [hit]
  | .layered hits => hits

/-- The number of surfaces. -/
def length (hits : Hits) : Nat := hits.toList.length

/-- Whether no surface was met. -/
def isEmpty (hits : Hits) : Bool := hits.toList.isEmpty

/-- The surface with the given number. -/
def get? (hits : Hits) (index : Nat) : Option Hit := hits.toList[index]?

end Hits

namespace Subsample

/-- Whether the subsample has a part in the visibility of its pixel. -/
def contributes (subsample : Subsample) : Bool :=
  Single.zero < subsample.weight && !subsample.hits.isEmpty

end Subsample
end DeepShadow
