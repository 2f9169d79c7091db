import DeepShadow.Visibility.Curve

/-!
# Regions

A region carries the finished curves of a rectangle of pixels from the producer
that shaded them to the output.  A region that nothing occludes says so and
carries no curves.
-/

namespace DeepShadow

/-- A rectangle of pixels; `right` and `bottom` are the first column and row
behind it. -/
structure Rectangle where
  left : Nat
  top : Nat
  right : Nat
  bottom : Nat
deriving DecidableEq, Inhabited, Repr

namespace Rectangle

/-- The number of columns; zero where the sides are exchanged. -/
def width (rectangle : Rectangle) : Nat := rectangle.right - rectangle.left

/-- The number of rows; zero where the sides are exchanged. -/
def height (rectangle : Rectangle) : Nat := rectangle.bottom - rectangle.top

/-- The number of pixels. -/
def pixelCount (rectangle : Rectangle) : Nat := rectangle.width * rectangle.height

/-- The pixels, row by row. -/
def pixels (rectangle : Rectangle) : List (Nat × Nat) :=
  (List.range' rectangle.top rectangle.height).flatMap fun y =>
    (List.range' rectangle.left rectangle.width).map fun x => (x, y)

end Rectangle

/-- The curves of a rectangle of pixels. -/
structure Region where
  bounds : Rectangle
  channels : Nat
  /-- The number of nodes of each pixel's curve, row by row; none where no pixel
  is occluded. -/
  lengths : Option (List Nat)
  /-- The stored form of all nodes, one behind the other. -/
  values : List Single
deriving DecidableEq, Inhabited, Repr

namespace Region

/-- The number of nodes of curves with the given lengths. -/
def nodeTotal (lengths : List Nat) : Nat := lengths.foldr (· + ·) 0

/-- A region that nothing occludes. -/
def unoccluded (bounds : Rectangle) (channels : Nat) : Region :=
  { bounds, channels, lengths := none, values := [] }

/-- Packs one curve for each pixel, row by row.  The numbers of nodes are words, so that of
a number that no word holds the remainder is kept. -/
def ofCurves
    (bounds : Rectangle)
    (channels : Nat)
    (curves : List Curve) : Except Violation Region := do
  if curves.length ≠ bounds.pixelCount then
    throw (.curveCount bounds.left bounds.top bounds.right bounds.bottom)
  let values ← curves.mapM fun curve => curve.flatten channels
  pure
    { bounds
      channels
      lengths := some (curves.map fun curve => curve.length % 0x100000000)
      values := values.flatten }

end Region
end DeepShadow
