import DeepShadow.Grid.Basic
import DeepShadow.Visibility.StoredCurve

/-!
# Deep tiles

A tile holds one stored curve for each of its pixels, row by row, in one array
of values.  The offsets say after how many nodes the curve of a pixel starts;
one more offset closes the last curve.
-/

namespace DeepShadow

/-- Why offsets and values do not make a tile. -/
inductive TileError
  | unsupportedChannels (channels : Nat)
  | offsetCount (expected actual : Nat)
  | firstOffset
  | offsetsDecrease (index : Nat)
  | valueCount (expected actual : Nat)
deriving DecidableEq, Repr

namespace TileError

/-- The text shown for an error. -/
def message : TileError -> String
  | unsupportedChannels channels => s!"unsupported channel count {channels}"
  | offsetCount expected actual =>
      s!"function offsets length {actual} does not match expected {expected}"
  | firstOffset => "function offsets must start at zero"
  | offsetsDecrease index => s!"function offsets decrease at index {index}"
  | valueCount expected actual =>
      s!"node data length {actual} does not match expected {expected}"

end TileError

/-- The curves of the pixels of one tile. -/
structure Tile where
  placement : Placement
  channels : Nat
  offsets : Array UInt32
  values : Array Single
deriving DecidableEq, Inhabited, Repr

namespace Tile

/-- The index of the first offset below the one before it. -/
def firstDecrease (offsets : Array UInt32) : Option Nat :=
  ((List.range (offsets.size - 1)).find? fun index =>
    offsets.getD (index + 1) 0 < offsets.getD index 0).map (· + 1)

/-- The tile with the given offsets and values, where they fit together. -/
def ofParts
    (placement : Placement)
    (channels : Nat)
    (offsets : Array UInt32)
    (values : Array Single) : Except TileError Tile :=
  if !supportedChannels channels then .error (.unsupportedChannels channels)
  else if offsets.size ≠ placement.pixelCount + 1 then
    .error (.offsetCount (placement.pixelCount + 1) offsets.size)
  else if offsets.getD 0 0 ≠ 0 then .error .firstOffset
  else match firstDecrease offsets with
    | some index => .error (.offsetsDecrease index)
    | none =>
        let expected := (offsets.getD placement.pixelCount 0).toNat * (channels + 1)
        if values.size ≠ expected then .error (.valueCount expected values.size)
        else .ok { placement, channels, offsets, values }

/-- The stored form of the node of a pixel that nothing occludes. -/
def visibleNode (channels : Nat) : List Single :=
  Single.zero :: List.replicate channels Single.one

/-- The tile whose pixels are all fully visible, for a supported number of
channels.  The offsets count up to the number of pixels as a 32-bit word. -/
def visible (placement : Placement) (channels : Nat) : Tile :=
  let node := (visibleNode channels).toArray
  { placement
    channels
    offsets := Array.ofFn fun index : Fin (placement.pixelCount % 0x100000000 + 1) =>
      UInt32.ofNat index
    values := Array.ofFn fun index : Fin (placement.pixelCount * (channels + 1)) =>
      node.getD (index % (channels + 1)) Single.zero }

/-- The tile whose pixels are all fully visible. -/
def fullyVisible (placement : Placement) (channels : Nat) : Except Violation Tile :=
  if supportedChannels channels then .ok (visible placement channels)
  else .error (.tileChannels channels)

/-- The fully visible tile as it is made in memory, where a 64-bit word can count its
values.  An array takes four bytes for each value, and no more bytes than a signed word can
count. -/
def allocateVisible (placement : Placement) (channels : Nat) : Except Violation Tile :=
  if supportedChannels channels then
    if placement.pixelCount * (channels + 1) < 0x2000000000000000 then
      .ok (visible placement channels)
    else .error .capacityOverflow
  else .error (.tileChannels channels)

/-- The number of nodes of all curves together. -/
def nodeCount (tile : Tile) : Nat := (tile.offsets.getD (tile.offsets.size - 1) 0).toNat

/-- The number of nodes of the curve with the given number. -/
def curveLength (tile : Tile) (index : Nat) : Except Violation Nat :=
  match tile.offsets[index]?, tile.offsets[index + 1]? with
  | some first, some last => .ok (last - first).toNat
  | _, _ => .error .outOfBounds

/-- Whether every pixel has exactly one node, so that the tile need not be
stored. -/
def isNeglectable (tile : Tile) : Bool :=
  (List.range (tile.offsets.size - 1)).all fun index =>
    tile.offsets.getD (index + 1) 0 - tile.offsets.getD index 0 == 1

/-- The curve of a pixel of the tile, counted from the tile's own corner. -/
def curve (tile : Tile) (x y : Nat) : Except Violation StoredCurve :=
  if x < tile.placement.width ∧ y < tile.placement.height then
    let index := y * tile.placement.width + x
    match tile.offsets[index]?, tile.offsets[index + 1]? with
    | some first, some last =>
        let start := first.toNat * (tile.channels + 1)
        let stop := last.toNat * (tile.channels + 1)
        if start ≤ stop ∧ stop ≤ tile.values.size then
          StoredCurve.ofData tile.channels (tile.values.extract start stop)
        else .error .outOfBounds
    | _, _ => .error .outOfBounds
  else .error (.pixelOutsideTile x y tile.placement.width tile.placement.height)

/-- The curve of an image pixel, where the tile owns it. -/
def curveAtPixel (tile : Tile) (x y : Nat) : Except Violation (Option StoredCurve) :=
  if tile.placement.contains x y then
    some <$> tile.curve (x - tile.placement.originX) (y - tile.placement.originY)
  else .ok none

/-- The visibility of an image pixel at a depth; full visibility where the tile
does not own the pixel. -/
def visibilityAt (tile : Tile) (x y : Nat) (depth : Single) : Except Violation Color := do
  match ← tile.curveAtPixel x y with
  | some curve => curve.visibilityAt depth
  | none => return Color.white

/-- The greatest depth of all nodes, at least zero. -/
def greatestDepth (tile : Tile) : Single :=
  (List.range (tile.values.size / (tile.channels + 1))).foldl
    (fun greatest index =>
      greatest.max (tile.values.getD (index * (tile.channels + 1)) Single.zero))
    Single.zero

end Tile
end DeepShadow
