import DeepShadow.Hit
import DeepShadow.Visibility.Curve

/-!
# Merging the subsamples of a pixel

The visibility function of a pixel is the weighted mean of those of its
subsamples.  Its hits are taken from front to back over all subsamples; each one
lowers the visibility by its opacity times the share of its subsample.

The merge keeps one cursor for each subsample that still has hits, in the order
in which the hits are taken: by depth in the total order of words, and by the
number of the subsample where the depths are the same word.
-/

namespace DeepShadow
namespace Merge

/-- The next hit of a subsample, with what lies behind it. -/
structure Cursor where
  /-- The number of the subsample. -/
  subsample : Nat
  /-- The weight of the subsample, divided by the sum of all weights and
  negated. -/
  share : Single
  hit : Hit
  behind : List Hit
  /-- The visibility left to this subsample in front of the hit. -/
  running : Color
deriving Repr

namespace Cursor

/-- Whether the hit of one cursor is taken before that of another. -/
def isBefore (left right : Cursor) : Bool :=
  left.hit.depth.totalKey < right.hit.depth.totalKey ||
    (left.hit.depth.totalKey == right.hit.depth.totalKey &&
      left.subsample < right.subsample)

/-- The change of visibility at the hit. -/
def delta (cursor : Cursor) : Color := cursor.hit.opacity * cursor.share

/-- The cursor at the hit behind, where there is one and something is left to be
seen of it. -/
def advance (cursor : Cursor) : Option Cursor :=
  match cursor.behind with
  | [] => none
  | next :: behind =>
      if cursor.running.isBlack then none
      else some
        { cursor with
          hit := next
          behind
          running := (cursor.running + cursor.delta).clampNonNegative }

end Cursor

/-- Puts a cursor into its place in a queue. -/
def enqueue (cursor : Cursor) : List Cursor -> List Cursor
  | [] => [cursor]
  | first :: rest =>
      if cursor.isBefore first then cursor :: first :: rest
      else first :: enqueue cursor rest

/-- The change of visibility per unit of depth between hits: visibility is
constant from one surface to the next. -/
def slope : Color := Color.black

/-- The two nodes of a hit behind a node: the visibility just in front of the
surface and just behind it. -/
def step (previous : Node) (cursor : Cursor) : Node × Node :=
  let depth := cursor.hit.depth.max previous.depth
  let before :=
    (previous.visibility + slope * (depth - previous.depth)).clampNonNegative
  let after := (before + cursor.delta).clampNonNegative
  (⟨depth, before⟩, ⟨depth, after⟩)

/-- The nodes behind a node, for a queue of cursors and no more than `count`
hits.  Nothing follows a node that is black. -/
def nodesFrom (previous : Node) : Nat -> List Cursor -> List Node
  | 0, _ => []
  | _, [] => []
  | count + 1, cursor :: rest =>
      let (before, after) := step previous cursor
      let queue := match cursor.advance with
        | some next => enqueue next rest
        | none => rest
      let behind :=
        if after.visibility.isBlack then [] else nodesFrom after count queue
      before :: after :: behind

/-- The sum of the weights of the subsamples that contribute, in their order. -/
def totalWeight (subsamples : List Subsample) : Single :=
  (subsamples.filter Subsample.contributes).foldl
    (fun total subsample => total + subsample.weight) Single.zero

/-- The cursors at the first hits of the subsamples that contribute. -/
def cursors (subsamples : List Subsample) : List Cursor :=
  let total := totalWeight subsamples
  subsamples.zipIdx.filterMap fun (subsample, number) =>
    match subsample.contributes, subsample.hits.toList with
    | true, hit :: behind => some
        { subsample := number
          share := -subsample.weight / total
          hit
          behind
          running := Color.white }
    | _, _ => none

/-- The number of hits of all subsamples together. -/
def hitCount (subsamples : List Subsample) : Nat :=
  subsamples.foldr (fun subsample count => subsample.hits.length + count) 0

end Merge

/-- The visibility function of a pixel with the given subsamples. -/
def merge (subsamples : List Subsample) : Curve :=
  if Merge.totalWeight subsamples ≤ Single.zero then Curve.fullyVisible
  else
    let queue := (Merge.cursors subsamples).foldr Merge.enqueue []
    ⟨Node.start :: Merge.nodesFrom Node.start (Merge.hitCount subsamples) queue⟩

end DeepShadow
