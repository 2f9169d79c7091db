import DeepShadow.Gather

/-!
# The demonstration scene

An opaque disc in the middle of the image, seen through a sheet of tinted glass
that covers the left half.  Each pixel has four subsamples in a regular pattern.
-/

namespace DeepShadow
namespace Demo

/-- A scene for an image of some size. -/
structure Scene where
  width : Nat
  height : Nat
deriving DecidableEq, Inhabited, Repr

namespace Scene

/-- The depth of the sheet of glass. -/
def glassDepth : Single := Single.ofNat 5

/-- The depth of the disc. -/
def discDepth : Single := Single.ofNat 10

/-- The opacity of the glass. -/
def glassOpacity : Color :=
  ⟨Single.ofDecimal false ⟨6, -1⟩, Single.ofDecimal false ⟨3, -1⟩,
    Single.ofDecimal false ⟨1, -1⟩⟩

/-- The places of the subsamples in a pixel. -/
def pattern : List (Single × Single) :=
  let near := Single.ofDecimal false ⟨25, -2⟩
  let far := Single.ofDecimal false ⟨75, -2⟩
  [(near, near), (far, near), (near, far), (far, far)]

/-- The part of the shorter side of the image that the radius of the disc
takes. -/
def radiusShare : Single := Single.ofDecimal false ⟨3, -1⟩

/-- The surfaces met at a place of the image. -/
def hitsAt (scene : Scene) (x y : Single) : Hits :=
  let centerX := Single.ofNat scene.width * Single.half
  let centerY := Single.ofNat scene.height * Single.half
  let radius := Single.ofNat (min scene.width scene.height) * radiusShare
  let glass := if x < centerX then [⟨glassDepth, glassOpacity⟩] else []
  let disc :=
    if (x - centerX).square + (y - centerY).square < radius.square then
      [Hit.ofDepth discDepth]
    else []
  .layered (glass ++ disc)

/-- The subsamples of a pixel, gathered under a filter one pixel wide that
weighs them equally. -/
def subsamples (scene : Scene) (x y : Nat) : List Subsample :=
  let left := Single.ofNat x
  let top := Single.ofNat y
  let records := pattern.zipIdx.map fun ((dx, dy), slot) =>
    { x := left + dx
      y := top + dy
      slot
      hits := scene.hitsAt (left + dx) (top + dy) }
  gather (left + Single.half) (top + Single.half) ⟨Single.one, Single.one⟩
    (Kernel.uniform pattern.length) records

end Scene
end Demo
end DeepShadow
