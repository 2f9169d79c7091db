import DeepShadow.Grid.TileMap

/-!
# Sets of tiles

A set of tiles of a grid, as one mark for each tile and a running count of the
marks.  The count is kept because the completion of an image is asked for after
every tile.
-/

namespace DeepShadow

/-- A set of tiles of a grid. -/
structure TileSet (grid : Grid) where
  marks : TileMap grid Bool
  count : Nat

namespace TileSet

/-- The set without tiles. -/
def empty (grid : Grid) : TileSet grid := ⟨TileMap.constant grid false, 0⟩

/-- Whether a tile is in the set. -/
def contains
    {grid : Grid}
    (set : TileSet grid)
    (position : TilePosition) : Except GridError Bool := do
  let index ← grid.index position
  return set.marks.get index

/-- Adds the tile with the given number. -/
def add {grid : Grid} (set : TileSet grid) (index : Fin grid.tileCount) : TileSet grid :=
  ⟨set.marks.set index true, if set.marks.get index then set.count else set.count + 1⟩

/-- Adds a tile, and tells whether it was in the set before. -/
def insert
    {grid : Grid}
    (set : TileSet grid)
    (position : TilePosition) : Except GridError (Bool × TileSet grid) := do
  let index ← grid.index position
  return (set.marks.get index, set.add index)

/-- Whether every tile of the grid is in the set. -/
def isFull {grid : Grid} (set : TileSet grid) : Bool := set.count == grid.tileCount

/-- The tiles that are not in the set, row by row. -/
def missing {grid : Grid} (set : TileSet grid) : List TilePosition :=
  grid.positions.filter fun position => set.contains position matches .ok false

end TileSet
end DeepShadow
