import DeepShadow.Cache.Reader
import DeepShadow.SampleQuad

/-!
# Deep shadow maps

The view that a renderer has of a file: visibility by pixel, by texture position
and averaged over a quad.  A file that cannot be opened leaves the map invalid,
and an invalid map casts no shadows.
-/

namespace DeepShadow

/-- A map, with the file behind it where this could be opened. -/
structure ShadowMap where
  path : String
  reader : Option CachedReader

namespace ShadowMap

/-- The greatest number of samples that a filter takes. -/
def maxSamples : Nat := 4096

/-- Opens a map, given what the system answered when the bytes of its file were
asked for. -/
def «open»
    (path : String)
    (capacity : Nat)
    (contents : Except FileError (List UInt8)) : Traced (Except CacheError ShadowMap) := do
  if capacity = 0 then
    return .error .noCapacity
  match ← Texture.Reader.open path contents with
  | .error error =>
      Traced.say .tiles .error
        s!"cannot use {path} as a deep shadow map: {error.message}; shadows disabled"
      return .ok { path, reader := none }
  | .ok source =>
      return (CachedReader.ofCapacity source capacity).map fun reader =>
        { path, reader := some reader }

/-- Whether the file could be opened. -/
def isValid (map : ShadowMap) : Bool := map.reader.isSome

/-- The number of columns of the image; zero for an invalid map. -/
def width (map : ShadowMap) : Nat :=
  (map.reader.map fun reader => reader.source.grid.imageWidth).getD 0

/-- The number of rows of the image; zero for an invalid map. -/
def height (map : ShadowMap) : Nat :=
  (map.reader.map fun reader => reader.source.grid.imageHeight).getD 0

/-- The number of channels; zero for an invalid map. -/
def channels (map : ShadowMap) : Nat :=
  (map.reader.map fun reader => reader.source.channels).getD 0

/-- The matrices that the renderer recorded; those of an invalid map change
nothing. -/
def transforms (map : ShadowMap) : Texture.Transforms :=
  (map.reader.map fun reader => reader.source.header.transforms).getD
    Texture.Transforms.identity

/-- Answers from the file, where there is one. -/
def ask (fallback : α) (query : Query CachedReader α) : Query ShadowMap α := fun map =>
  match map.reader with
  | none => pure (fallback, map)
  | some reader => do
      let (value, reader) ← query reader
      pure (value, { map with reader := some reader })

/-- The visibility of a pixel at a depth. -/
def visibilityAt (x y : Nat) (depth : Single) : Query ShadowMap Color :=
  ask Color.white (CachedReader.visibilityAt x y depth)

/-- The pixel of a texture coordinate, in a row or column of `size` pixels. -/
def texel (coordinate : Single) (size : Nat) : Nat :=
  min (coordinate * Single.ofNat size).toWord (size - 1)

/-- The visibility at a texture position; a position outside the image counts as
the nearest one of the border. -/
def visibilityAtTexture (point : SamplePoint) : Query ShadowMap Color := do
  let map ← get
  if map.isValid then
    visibilityAt (texel point.s map.width) (texel point.t map.height) point.depth
  else
    return Color.white

/-- The least number whose square is not below a number of samples.  For as many samples as a
filter takes, this is their rounded square root, rounded up to a whole number: the root of a
square is exact, and no other root is so near to a whole number that it is rounded to it. -/
def filterSide (samples : Nat) : Nat :=
  ((List.range (samples + 1)).find? fun side => samples ≤ side * side).getD samples

/-- The weights of the samples of a filter with the given side, row by row. -/
def filterWeights (side : Nat) : List (Single × Single) :=
  let step := Single.one / Single.ofNat side
  let weight (index : Nat) := (Single.ofNat index + Single.half) * step
  (List.range side).flatMap fun row =>
    (List.range side).map fun column => (weight column, weight row)

/-- The visibility averaged over a quad, from a square pattern of at least the
given number of samples. -/
def filter (quad : SampleQuad) (samples : Nat) : Query ShadowMap Color := do
  if (← get).isValid then
    let side := filterSide (min (max samples 1) maxSamples)
    let sum ← (filterWeights side).foldlM
      (fun (sum : Color) (u, v) => return sum + (← visibilityAtTexture (quad.lerp u v)))
      Color.black
    return sum * (Single.one / (Single.ofNat side * Single.ofNat side))
  else
    return Color.white

/-- The greatest depth of the map, at least zero. -/
def greatestDepth : Query ShadowMap Single :=
  ask Single.zero CachedReader.greatestDepth

/-- The visibility of each pixel at a depth, row by row. -/
def depthSlice (depth : Single) : Query ShadowMap (List Color) :=
  ask [] (CachedReader.depthSlice depth)

end ShadowMap
end DeepShadow
