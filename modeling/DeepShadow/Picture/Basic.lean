import DeepShadow.Color

/-!
# Pictures

What is exported from a map: one byte for each sample, from zero for no
visibility to 255 for full visibility.  A map with one channel gives a gray
picture.
-/

namespace DeepShadow

/-- What the samples of a pixel mean. -/
inductive SampleLayout
  | gray
  | redGreenBlue
deriving DecidableEq, Repr

/-- A picture with one byte for each sample, row by row. -/
structure Picture where
  width : Nat
  height : Nat
  layout : SampleLayout
  samples : List UInt8
deriving DecidableEq, Repr

namespace Picture

/-- The byte of a value between zero and one, rounded to the nearest with halves
upwards. -/
def sample (value : Single) : UInt8 :=
  UInt8.ofNat (value.clampUnit * Single.ofNat 255).roundHalfUp

/-- The picture of the visibility of each pixel. -/
def ofColors (width height channels : Nat) (pixels : List Color) : Picture :=
  if channels = 1 then
    { width, height, layout := .gray
      samples := pixels.map fun color => sample color.red }
  else
    { width, height, layout := .redGreenBlue
      samples := pixels.flatMap fun color =>
        [sample color.red, sample color.green, sample color.blue] }

end Picture
end DeepShadow
