import DeepShadow.Color

/-!
# Visibility curves

Seen along a ray, visibility is a step function of depth.  A curve lists its
nodes from front to back; from the depth of a node on, and up to the next one,
its visibility holds.  In front of the first node everything is visible.
-/

namespace DeepShadow

/-- The visibility from a depth on. -/
structure Node where
  depth : Single
  visibility : Color
deriving DecidableEq, Inhabited, Repr

/-- A visibility function as the list of its nodes, from front to back. -/
structure Curve where
  nodes : List Node
deriving DecidableEq, Inhabited, Repr

namespace Node

/-- The node with which every merged curve starts. -/
def start : Node := ⟨Single.zero, Color.white⟩

end Node

namespace Curve

/-- The curve that never occludes anything. -/
def fullyVisible : Curve := ⟨[Node.start]⟩

/-- The number of nodes. -/
def length (curve : Curve) : Nat := curve.nodes.length

/-- Appends a node, which has to lie at or behind the last one. -/
def push (curve : Curve) (node : Node) : Except Violation Curve :=
  match curve.nodes.getLast? with
  | none => .ok ⟨[node]⟩
  | some last =>
      if last.depth ≤ node.depth then .ok ⟨curve.nodes ++ [node]⟩
      else .error (.nodeBeforeLast node.depth last.depth)

/-- The visibility of the last node at or before a depth, on a curve whose
depths do not decrease. -/
def visibilityAt (curve : Curve) (depth : Single) : Color :=
  match (curve.nodes.takeWhile fun node => node.depth ≤ depth).getLast? with
  | none => Color.white
  | some node => node.visibility

/-- Whether the curve has a single node, which stands for full visibility. -/
def isFullyVisible (curve : Curve) : Bool := curve.length == 1

/-- The stored form of a node: its depth, then the components. -/
def flattenNode (channels : Nat) (node : Node) : Except Violation (List Single) := do
  return node.depth :: (← node.visibility.components channels)

/-- The stored form of all nodes, one behind the other. -/
def flatten (curve : Curve) (channels : Nat) : Except Violation (List Single) := do
  return (← curve.nodes.mapM (flattenNode channels)).flatten

end Curve
end DeepShadow
