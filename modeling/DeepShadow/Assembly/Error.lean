import DeepShadow.Texture.Error

/-!
# Errors of the assembly

A region is refused when it breaks the rules by which producers hand over an
image.  A region that is taken can still fail, because the tile that it completes
cannot be written.
-/

namespace DeepShadow
namespace Assembly

/-- Why a region is refused. -/
inductive RegionError
  | empty
  | outsideImage
  | widerThanBucket
  | tallerThanBucket
  | crossesBucket
  | partialRow
  | channels (expected actual : Nat)
  | lengthCount (expected actual : Nat)
  | emptyCurve
  | valueCount (expected actual : Nat)
  | rowFilled (y : Nat)
  | tileComplete (position : TilePosition)
  | finished
deriving DecidableEq, Repr

/-- Why a step of the assembly fails. -/
inductive Error
  | region (error : RegionError)
  | write (error : Texture.WriteError)
deriving DecidableEq, Repr

namespace RegionError

/-- The text shown for an error. -/
def message : RegionError -> String
  | empty => "region covers no pixels"
  | outsideImage => "region extends past the image"
  | widerThanBucket => "region is wider than one bucket"
  | tallerThanBucket => "region is taller than one bucket"
  | crossesBucket => "region crosses a bucket boundary"
  | partialRow => "region rows do not span their whole bucket"
  | channels expected actual => s!"region has {actual} channels, image has {expected}"
  | lengthCount expected actual =>
      s!"region carries {actual} function lengths for {expected} pixels"
  | emptyCurve => "region contains a function without nodes"
  | valueCount expected actual =>
      s!"region carries {actual} node values, lengths require {expected}"
  | rowFilled y => s!"row {y} of this bucket was already submitted"
  | tileComplete position => s!"tile ({position.row}, {position.column}) is already complete"
  | finished => "image output already finished"

end RegionError

namespace Error

/-- The text shown for an error. -/
def message : Error -> String
  | region error => s!"protocol error: {error.message}"
  | write error => s!"write error: {error.message}"

/-- The texts of the errors behind this one. -/
def causes : Error -> List String
  | region error => [error.message]
  | write error => error.message :: error.causes

end Error
end Assembly
end DeepShadow
