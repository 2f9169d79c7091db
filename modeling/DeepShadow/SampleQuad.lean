import DeepShadow.Single.Arithmetic

/-!
# Sample quads

A quad of texture positions with a depth at each corner, over which visibility
is averaged.  Texture positions run from zero to one in both directions.
-/

namespace DeepShadow

/-- A texture position with a depth. -/
structure SamplePoint where
  s : Single
  t : Single
  depth : Single
deriving DecidableEq, Inhabited, Repr

/-- A quad of texture positions. -/
structure SampleQuad where
  topLeft : SamplePoint
  topRight : SamplePoint
  bottomLeft : SamplePoint
  bottomRight : SamplePoint
deriving DecidableEq, Inhabited, Repr

namespace SampleQuad

/-- The quad that consists of a single point. -/
def ofPoint (point : SamplePoint) : SampleQuad := ⟨point, point, point, point⟩

/-- Interpolates between two values. -/
def mix (start stop weight : Single) : Single := start + (stop - start) * weight

/-- Interpolates one coordinate of the corners, first along the upper and lower
edges and then between these. -/
def mixCorners (quad : SampleQuad) (coordinate : SamplePoint -> Single) (u v : Single) : Single :=
  mix
    (mix (coordinate quad.topLeft) (coordinate quad.topRight) u)
    (mix (coordinate quad.bottomLeft) (coordinate quad.bottomRight) u)
    v

/-- The point of the quad with the given weights. -/
def lerp (quad : SampleQuad) (u v : Single) : SamplePoint :=
  { s := quad.mixCorners SamplePoint.s u v
    t := quad.mixCorners SamplePoint.t u v
    depth := quad.mixCorners SamplePoint.depth u v }

end SampleQuad
end DeepShadow
