import DeepShadow.Grid.TileMap
import DeepShadow.Proofs.Grid.Pixels

/-!
# Values by position

A value for each tile is found by the position of the tile; there is none outside
the grid.  Replacing one value leaves the others as they are.
-/

namespace DeepShadow

/-- Tiles are listed in the order of their numbers. -/
theorem Grid.positions_eq (grid : Grid) :
    grid.positions = (List.range grid.tileCount).map fun number =>
      ⟨number % grid.columns, number / grid.columns⟩ := by
  have rowByRow := flatMap_range_mul grid.rows grid.columns fun row column =>
    [(⟨column, row⟩ : TilePosition)]
  unfold positions tileCount
  simp only [List.map_eq_flatMap]
  rw [Nat.mul_comm, rowByRow]

/-- A tile stands in the list at its number. -/
theorem Grid.getElem?_positions
    {grid : Grid}
    {position : TilePosition}
    (inside : grid.Contains position) :
    grid.positions[position.row * grid.columns + position.column]? = some position := by
  have columnsPositive : 0 < grid.columns := Nat.lt_of_le_of_lt (Nat.zero_le _) inside.1
  rw [positions_eq, List.getElem?_map, List.getElem?_range (index_lt inside), Nat.mul_comm]
  simp only [Option.map_some, Nat.mul_add_mod, Nat.mod_eq_of_lt inside.1,
    Nat.mul_add_div columnsPositive, Nat.div_eq_of_lt inside.1, Nat.add_zero]

namespace TileMap

variable {α : Type} {grid : Grid} {position other : TilePosition}

/-- The value of a tile; none outside the grid. -/
def find? (map : TileMap grid α) (position : TilePosition) : Option α :=
  match grid.index position with
  | .ok index => some (map.get index)
  | .error _ => none

theorem find?_eq_some
    (map : TileMap grid α)
    (inside : grid.Contains position) :
    map.find? position = some (map.get (grid.indexOf position inside)) := by
  unfold find?
  rw [Grid.index_eq_ok inside]

theorem find?_eq_none
    (map : TileMap grid α)
    (outside : ¬grid.Contains position) :
    map.find? position = none := by
  unfold find?
  rw [Grid.index_eq_error outside]

theorem find?_constant
    (value : α)
    (inside : grid.Contains position) :
    (constant grid value).find? position = some value := by
  rw [find?_eq_some _ inside, get_constant]

theorem find?_set
    (map : TileMap grid α)
    (inside : grid.Contains position)
    (value : α) :
    (map.set (grid.indexOf position inside) value).find? other =
      if other = position then some value else map.find? other := by
  by_cases otherInside : grid.Contains other
  · rw [find?_eq_some _ otherInside, find?_eq_some _ otherInside]
    by_cases equal : other = position
    · subst equal
      rw [if_pos rfl, get_set_self]
    · have different : grid.indexOf position inside ≠ grid.indexOf other otherInside :=
        fun sameNumber => equal (Grid.indexOf_injective inside otherInside sameNumber).symm
      rw [if_neg equal, get_set_of_ne _ different]
  · have different : other ≠ position := fun equal => otherInside (equal ▸ inside)
    rw [if_neg different, find?_eq_none _ otherInside, find?_eq_none _ otherInside]

/-- The values are listed in the order of the tiles. -/
theorem map_find?_positions (map : TileMap grid α) :
    grid.positions.map map.find? = map.toList.map some := by
  apply List.ext_getElem
  · rw [List.length_map, List.length_map, Grid.length_positions]
    exact (Vector.length_toList).symm
  · intro number bound _
    rw [List.length_map, Grid.length_positions] at bound
    obtain ⟨position, inside, numbered⟩ := Grid.exists_indexOf_eq grid ⟨number, bound⟩
    have number_eq : position.row * grid.columns + position.column = number :=
      congrArg Fin.val numbered
    have position_eq : grid.positions[number]? = some position := by
      rw [← number_eq]
      exact Grid.getElem?_positions inside
    obtain ⟨_, found⟩ := List.getElem?_eq_some_iff.mp position_eq
    rw [List.getElem_map, found, find?_eq_some _ inside, numbered]
    simp only [List.getElem_map]
    rfl

end TileMap
end DeepShadow
