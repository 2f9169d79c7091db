import DeepShadow.Grid.Basic

/-!
# Values by tile

One value for each tile of a grid, found by the number of the tile.
-/

namespace DeepShadow

/-- A value for each tile of a grid. -/
structure TileMap (grid : Grid) (α : Type) where
  values : Vector α grid.tileCount
deriving DecidableEq

namespace TileMap

/-- The same value for all tiles. -/
def constant (grid : Grid) (value : α) : TileMap grid α :=
  ⟨Vector.replicate grid.tileCount value⟩

/-- The value of a tile. -/
def get {grid : Grid} (map : TileMap grid α) (index : Fin grid.tileCount) : α :=
  map.values[index]

/-- Replaces the value of a tile. -/
def set
    {grid : Grid}
    (map : TileMap grid α)
    (index : Fin grid.tileCount)
    (value : α) : TileMap grid α :=
  ⟨map.values.set index value⟩

/-- The values in the order of the tiles, row by row. -/
def toList {grid : Grid} (map : TileMap grid α) : List α := map.values.toList

@[simp] theorem get_constant
    {grid : Grid}
    (value : α)
    (index : Fin grid.tileCount) :
    (constant grid value).get index = value := by
  simp [constant, get]

@[simp] theorem get_set_self
    {grid : Grid}
    (map : TileMap grid α)
    (index : Fin grid.tileCount)
    (value : α) :
    (map.set index value).get index = value := by
  simp [set, get]

theorem get_set_of_ne
    {grid : Grid}
    (map : TileMap grid α)
    {index other : Fin grid.tileCount}
    (different : index ≠ other)
    (value : α) :
    (map.set index value).get other = map.get other := by
  have differentNumbers : (index : Nat) ≠ other := fun equal => different (Fin.ext equal)
  simp [set, get, differentNumbers]

end TileMap
end DeepShadow
