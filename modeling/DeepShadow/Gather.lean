import DeepShadow.Hit

/-!
# Gathering the subsamples of a pixel

The sampler records subsamples anywhere in the image.  Those inside the filter's
support around the center of a pixel belong to the pixel, with the weight that
the filter kernel has at their slot.
-/

namespace DeepShadow

/-- The extent of a filter around the center of a pixel, in pixels. -/
structure FilterSupport where
  width : Single
  height : Single
deriving DecidableEq, Inhabited, Repr

namespace FilterSupport

/-- Whether an offset from the center lies in the support, its border
included. -/
def contains (support : FilterSupport) (dx dy : Single) : Bool :=
  dx.abs ≤ support.width * Single.half && dy.abs ≤ support.height * Single.half

end FilterSupport

/-- The weights of a filter, by slot. -/
structure Kernel where
  weights : List Single
deriving DecidableEq, Inhabited, Repr

namespace Kernel

/-- The kernel that weighs the given number of slots equally. -/
def uniform (slots : Nat) : Kernel := ⟨List.replicate slots Single.one⟩

/-- The weight of a slot, which is zero outside the kernel. -/
def weight (kernel : Kernel) (slot : Nat) : Single := kernel.weights.getD slot Single.zero

/-- The number of slots. -/
def length (kernel : Kernel) : Nat := kernel.weights.length

end Kernel

/-- A subsample as recorded by the sampler. -/
structure SubsampleRecord where
  x : Single
  y : Single
  slot : Nat
  hits : Hits
deriving DecidableEq, Inhabited, Repr

/-- The subsamples of the pixel with the given center, in the order of the
records. -/
def gather
    (centerX centerY : Single)
    (support : FilterSupport)
    (kernel : Kernel)
    (records : List SubsampleRecord) : List Subsample :=
  (records.filter fun record =>
    support.contains (record.x - centerX) (record.y - centerY)).map fun record =>
      ⟨kernel.weight record.slot, record.hits⟩

end DeepShadow
