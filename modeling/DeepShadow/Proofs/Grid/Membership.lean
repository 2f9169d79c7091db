import Mathlib.Data.List.Nodup
import DeepShadow.Grid.TileSet
import DeepShadow.Proofs.Grid.Lookup

/-!
# Membership in a set of tiles

A set of tiles is known by the tiles that it has.  Its running count is right
when it is the number of those tiles; this is kept by every insertion, and it
makes a full count mean a full set.
-/

namespace DeepShadow
namespace TileSet

variable {grid : Grid} {position other : TilePosition}

/-- Whether a set has a tile; it has none outside the grid. -/
def has (set : TileSet grid) (position : TilePosition) : Bool :=
  (set.marks.find? position).getD false

theorem has_eq_get
    (set : TileSet grid)
    (inside : grid.Contains position) :
    set.has position = set.marks.get (grid.indexOf position inside) := by
  unfold has
  rw [TileMap.find?_eq_some _ inside, Option.getD_some]

theorem contains_eq_ok
    (set : TileSet grid)
    (inside : grid.Contains position) :
    set.contains position = .ok (set.has position) := by
  unfold contains
  rw [has_eq_get set inside, Grid.index_eq_ok inside]
  rfl

theorem contains_eq_error
    (set : TileSet grid)
    (outside : ¬grid.Contains position) :
    set.contains position = .error .tileOutside := by
  unfold contains
  rw [Grid.index_eq_error outside]
  rfl

@[simp] theorem has_empty : (empty grid).has position = false := by
  unfold has empty
  by_cases inside : grid.Contains position
  · rw [TileMap.find?_constant false inside, Option.getD_some]
  · rw [TileMap.find?_eq_none _ inside, Option.getD_none]

/-- The set with one more tile has this tile and those it had before. -/
theorem has_add
    (set : TileSet grid)
    (inside : grid.Contains position) :
    (set.add (grid.indexOf position inside)).has other =
      (decide (other = position) || set.has other) := by
  unfold has add
  rw [TileMap.find?_set set.marks inside]
  by_cases equal : other = position
  · rw [if_pos equal, decide_eq_true equal]
    rfl
  · rw [if_neg equal, decide_eq_false equal, Bool.false_or]

theorem has_add_self
    (set : TileSet grid)
    (inside : grid.Contains position) :
    (set.add (grid.indexOf position inside)).has position = true := by
  rw [has_add, decide_eq_true rfl, Bool.true_or]

theorem has_add_of_ne
    (set : TileSet grid)
    (inside : grid.Contains position)
    (different : other ≠ position) :
    (set.add (grid.indexOf position inside)).has other = set.has other := by
  rw [has_add, decide_eq_false different, Bool.false_or]

theorem insert_eq_ok
    (set : TileSet grid)
    (inside : grid.Contains position) :
    set.insert position =
      .ok (set.has position, set.add (grid.indexOf position inside)) := by
  unfold insert
  rw [has_eq_get set inside, Grid.index_eq_ok inside]
  rfl

theorem insert_eq_error
    (set : TileSet grid)
    (outside : ¬grid.Contains position) :
    set.insert position = .error .tileOutside := by
  unfold insert
  rw [Grid.index_eq_error outside]
  rfl

/-! ## The count -/

/-- The running count is the number of tiles in the set. -/
def Counted (set : TileSet grid) : Prop := set.count = grid.positions.countP set.has

theorem counted_empty : (empty grid).Counted := by
  unfold Counted
  rw [List.countP_eq_zero.mpr (fun position _ => by simp)]
  rfl

/-- Counting a list without repetitions after one of its elements became true. -/
theorem countP_or_eq
    {α : Type}
    [DecidableEq α]
    {list : List α}
    (distinct : list.Nodup)
    {added : α}
    (member : added ∈ list)
    (before : α -> Bool) :
    list.countP (fun value => decide (value = added) || before value) =
      list.countP before + if before added then 0 else 1 := by
  induction list with
  | nil => simp at member
  | cons first rest inductionHypothesis =>
      obtain ⟨notInRest, restDistinct⟩ := List.nodup_cons.mp distinct
      rw [List.countP_cons, List.countP_cons]
      by_cases same : first = added
      · subst same
        have unchanged : rest.countP (fun value => decide (value = first) || before value) =
            rest.countP before := by
          apply List.countP_congr
          intro value valueMember
          have different : value ≠ first := fun equal => notInRest (equal ▸ valueMember)
          simp [different]
        rw [unchanged]
        cases before first <;> simp
      · have memberOfRest : added ∈ rest :=
          (List.mem_cons.mp member).resolve_left (Ne.symm same)
        rw [inductionHypothesis restDistinct memberOfRest]
        simp only [same, decide_false, Bool.false_or]
        omega

/-- Adding a tile keeps the count right. -/
theorem Counted.add
    {set : TileSet grid}
    (counted : set.Counted)
    (inside : grid.Contains position) :
    (set.add (grid.indexOf position inside)).Counted := by
  unfold Counted
  have membership : (set.add (grid.indexOf position inside)).has =
      fun other => decide (other = position) || set.has other :=
    funext fun other => has_add set inside
  rw [membership, countP_or_eq (Grid.nodup_positions grid) (Grid.mem_positions.mpr inside),
    has_eq_get set inside, ← counted]
  unfold TileSet.add
  split <;> rfl

/-- The missing tiles are those of the grid that the set does not have. -/
theorem missing_eq (set : TileSet grid) :
    set.missing = grid.positions.filter fun position => !set.has position := by
  unfold missing
  apply List.filter_congr
  intro position member
  rw [contains_eq_ok set (Grid.mem_positions.mp member)]
  cases set.has position <;> rfl

/-- The missing tiles and the counted ones are all tiles. -/
theorem length_missing_add_count
    {set : TileSet grid}
    (counted : set.Counted) :
    set.missing.length + set.count = grid.tileCount := by
  rw [missing_eq, ← List.countP_eq_length_filter, counted, ← Grid.length_positions grid,
    List.length_eq_countP_add_countP set.has (l := grid.positions), Nat.add_comm]
  simp

/-- A set counts as full exactly when it has every tile of the grid. -/
theorem isFull_iff
    {set : TileSet grid}
    (counted : set.Counted) :
    set.isFull = true ↔ ∀ position, grid.Contains position -> set.has position = true := by
  unfold isFull
  rw [beq_iff_eq, counted, ← Grid.length_positions grid, List.countP_eq_length]
  simp only [Grid.mem_positions]

end TileSet
end DeepShadow
