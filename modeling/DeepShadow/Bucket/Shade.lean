import DeepShadow.Merge
import DeepShadow.Region

/-!
# Shading a bucket

A producer merges the subsamples of each pixel of a bucket and packs the curves
into a region.  A bucket in which nothing is occluded becomes a region without
curves.
-/

namespace DeepShadow

/-- The region of the given rectangle, whose pixels are asked for row by row. -/
def shade
    (bounds : Rectangle)
    (channels : Nat)
    (subsamples : Nat -> Nat -> List Subsample) : Except Violation Region :=
  let curves := bounds.pixels.map fun (x, y) => merge (subsamples x y)
  if curves.all Curve.isFullyVisible then .ok (Region.unoccluded bounds channels)
  else Region.ofCurves bounds channels curves

end DeepShadow
