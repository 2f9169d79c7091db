import DeepShadow.Visibility.Curve

/-!
# Stored curves

A visibility function as it lies in a tile: for each node its depth and then its
components, one after the other.  A lookup bisects the nodes by depth and so
gives an answer on every run of whole nodes, whether the depths ascend or not.
-/

namespace DeepShadow

/-- A run of stored nodes with the given number of components each. -/
structure StoredCurve where
  channels : Nat
  data : Array Single
deriving DecidableEq, Inhabited, Repr

namespace StoredCurve

/-- Takes a run of whole nodes. -/
def ofData (channels : Nat) (data : Array Single) : Except Violation StoredCurve :=
  if channels = 0 then .error .noChannels
  else if data.size % (channels + 1) ≠ 0 then .error .partialNode
  else .ok ⟨channels, data⟩

/-- The number of values that a node takes. -/
def stride (curve : StoredCurve) : Nat := curve.channels + 1

/-- The number of nodes. -/
def length (curve : StoredCurve) : Nat := curve.data.size / curve.stride

/-- The depth of a node. -/
def depth (curve : StoredCurve) (index : Nat) : Except Violation Single :=
  match curve.data[index * curve.stride]? with
  | some depth => .ok depth
  | none => .error .outOfBounds

/-- The visibility of a node. -/
def visibility (curve : StoredCurve) (index : Nat) : Except Violation Color :=
  let first := index * curve.stride + 1
  if first + curve.channels ≤ curve.data.size then
    Color.ofComponents (curve.data.extract first (first + curve.channels)).toList
  else .error .outOfBounds

/-- The node with the given number. -/
def node (curve : StoredCurve) (index : Nat) : Except Violation Node := do
  return ⟨← curve.depth index, ← curve.visibility index⟩

/-- All nodes. -/
def nodes (curve : StoredCurve) : Except Violation (List Node) :=
  (List.range curve.length).mapM curve.node

/-- Bisects the nodes from `low` to `high` for the first one behind a depth,
taking the nodes at or before it to come first. -/
def bisect
    (curve : StoredCurve)
    (depth : Single)
    (low high : Nat) : Except Violation Nat :=
  if low < high then do
    let middle := low + (high - low) / 2
    if (← curve.depth middle) ≤ depth then curve.bisect depth (middle + 1) high
    else curve.bisect depth low middle
  else .ok low
termination_by high - low

/-- The visibility of the node in front of the place that bisection finds; full
visibility where there is none. -/
def visibilityAt (curve : StoredCurve) (depth : Single) : Except Violation Color := do
  match ← curve.bisect depth 0 curve.length with
  | 0 => return Color.white
  | count + 1 => curve.visibility count

end StoredCurve
end DeepShadow
