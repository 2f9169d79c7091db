import Mathlib.Data.Finset.Card
import DeepShadow.Proofs.Behavior
import DeepShadow.Proofs.Grid.Membership
import DeepShadow.Proofs.Grid.Partition

/-!
# Insertions into a set of tiles

A set of tiles is called again and again: tiles are inserted and asked for, inside the grid and
outside of it.  What it tells afterwards depends only on which tiles of the grid the calls
inserted.  These are the ones that it has and counts; the others are missing, in the order of
their numbers.
-/

namespace DeepShadow

/-! ## Tiles by number -/

/-- The tile with a number. -/
def Grid.tileAt (grid : Grid) (number : Fin grid.tileCount) : TilePosition :=
  ⟨number % grid.columns, number / grid.columns⟩

theorem Grid.position_eq_tileAt (grid : Grid) (number : Fin grid.tileCount) :
    grid.position number = .ok (grid.tileAt number) := position_eq_ok number.isLt

theorem Grid.index_tileAt (grid : Grid) (number : Fin grid.tileCount) :
    grid.index (grid.tileAt number) = .ok number :=
  index_eq_ok_iff.mpr (grid.position_eq_tileAt number)

theorem Grid.positions_eq_map_tileAt (grid : Grid) :
    grid.positions = (List.finRange grid.tileCount).map grid.tileAt := by
  rw [positions_eq, ← List.map_coe_finRange_eq_range, List.map_map]
  rfl

namespace TileSet

/-! ## Calls -/

/-- A call of a set of tiles. -/
inductive Call
  | insert (position : TilePosition)
  | contains (position : TilePosition)
deriving DecidableEq

/-- The tile that a call is about. -/
def Call.position : Call -> TilePosition
  | .insert position => position
  | .contains position => position

variable {grid : Grid} {position : TilePosition}

/-- A call is answered by whether the tile was in the set. -/
abbrev Answer := Except GridError Bool

/-- What calls do. -/
def called : Behavior (TileSet grid) Call Answer
  | set, .insert position =>
      match set.insert position with
      | .ok (before, next) => (.ok before, next)
      | .error error => (.error error, set)
  | set, .contains position => (set.contains position, set)

/-- The answer to a call behind others: whether one of them inserted its tile. -/
def answerAfter (grid : Grid) (earlier : List Call) (call : Call) : Answer :=
  if grid.Contains call.position then .ok (decide (.insert call.position ∈ earlier))
  else .error .tileOutside

/-- The tiles of a grid that calls insert. -/
def inserted (grid : Grid) (calls : List Call) : Finset TilePosition :=
  grid.positions.toFinset.filter fun position => .insert position ∈ calls

theorem mem_inserted {calls : List Call} :
    position ∈ inserted grid calls ↔ grid.Contains position ∧ .insert position ∈ calls := by
  unfold inserted
  rw [Finset.mem_filter, List.mem_toFinset, Grid.mem_positions]

/-- A call about a tile outside of the grid fails and changes nothing. -/
theorem called_outside
    (set : TileSet grid)
    {call : Call}
    (outside : ¬grid.Contains call.position) :
    called set call = (.error .tileOutside, set) := by
  unfold called
  cases call with
  | insert position =>
      have refused : set.insert position = .error .tileOutside := insert_eq_error set outside
      simp only [refused]
  | contains position =>
      have refused : set.contains position = .error .tileOutside := contains_eq_error set outside
      simp only [refused]

/-- What a call does: it inserts a tile of the grid, asks for one, or fails. -/
theorem called_cases (set : TileSet grid) (call : Call) :
    (∃ added, ∃ inside : grid.Contains added, call = .insert added ∧
        called set call = (.ok (set.has added), set.add (grid.indexOf added inside))) ∨
      (∃ asked, grid.Contains asked ∧ call = .contains asked ∧
        called set call = (.ok (set.has asked), set)) ∨
      (¬grid.Contains call.position ∧ called set call = (.error .tileOutside, set)) := by
  by_cases inside : grid.Contains call.position
  · cases call with
    | insert added =>
        have taken := insert_eq_ok set inside
        refine .inl ⟨added, inside, rfl, ?_⟩
        unfold called
        simp only [Call.position] at taken
        simp only [taken]
    | contains asked =>
        refine .inr (.inl ⟨asked, inside, rfl, ?_⟩)
        exact congrArg (fun answer => (answer, set)) (contains_eq_ok set inside)
  · exact .inr (.inr ⟨inside, called_outside set inside⟩)

/-- A call adds the tile that it inserts, where this is one of the grid. -/
theorem has_called (set : TileSet grid) (call : Call) :
    (called set call).2.has position = true ↔
      set.has position = true ∨ grid.Contains position ∧ call = .insert position := by
  rcases called_cases set call with
    ⟨added, inside, rfl, done⟩ | ⟨asked, inside, rfl, done⟩ | ⟨outside, done⟩
  · rw [done, has_add set inside, Bool.or_eq_true, decide_eq_true_eq, Call.insert.injEq]
    constructor
    · rintro (rfl | before)
      · exact .inr ⟨inside, rfl⟩
      · exact .inl before
    · rintro (before | ⟨-, rfl⟩)
      · exact .inr before
      · exact .inl rfl
  · rw [done]
    simp
  · rw [done]
    constructor
    · exact .inl
    · rintro (before | ⟨contained, rfl⟩)
      · exact before
      · exact absurd contained outside

/-- A call keeps the count right. -/
theorem Counted.called
    {set : TileSet grid}
    (counted : set.Counted)
    (call : Call) :
    (TileSet.called set call).2.Counted := by
  rcases called_cases set call with ⟨added, inside, -, done⟩ | ⟨asked, -, -, done⟩ | ⟨-, done⟩
  · rw [done]
    exact counted.add inside
  · rw [done]
    exact counted
  · rw [done]
    exact counted

/-! ## What a set holds -/

/-- A set holds the tiles that calls inserted, and counts them. -/
structure Holds (set : TileSet grid) (calls : List Call) : Prop where
  counted : set.Counted
  has_iff : ∀ position,
    set.has position = true ↔ grid.Contains position ∧ .insert position ∈ calls

namespace Holds

variable {set : TileSet grid} {calls : List Call}

theorem empty : (TileSet.empty grid).Holds [] where
  counted := counted_empty
  has_iff position := by simp

/-- After one more call, a set holds what all of them inserted. -/
theorem called (holds : set.Holds calls) (call : Call) :
    (TileSet.called set call).2.Holds (calls ++ [call]) where
  counted := holds.counted.called call
  has_iff position := by
    rw [has_called, holds.has_iff, List.mem_append, List.mem_singleton, eq_comm, ← and_or_left]

/-- After a sequence of calls, a set holds what all of them inserted. -/
theorem run (holds : set.Holds calls) (later : List Call) :
    (TileSet.called.run set later).2.Holds (calls ++ later) := by
  -- The set changes with each call, and so do the calls that it holds the tiles of.
  induction later generalizing set calls with
  | nil =>
      rw [List.append_nil]
      exact holds
  | cons call later inductionHypothesis =>
      rw [Behavior.run_cons, List.append_cons]
      exact inductionHypothesis (holds.called call)

theorem has_eq (holds : set.Holds calls) (inside : grid.Contains position) :
    set.has position = decide (.insert position ∈ calls) := by
  rw [Bool.eq_iff_iff, holds.has_iff, decide_eq_true_eq]
  exact and_iff_right inside

/-- A call about a tile of the grid is answered by whether an earlier one inserted it. -/
theorem answer_eq (holds : set.Holds calls) (call : Call) :
    (TileSet.called set call).1 = answerAfter grid calls call := by
  unfold answerAfter
  rcases called_cases set call with
    ⟨added, inside, rfl, done⟩ | ⟨asked, inside, rfl, done⟩ | ⟨outside, done⟩
  · rw [done, holds.has_eq inside]
    exact (if_pos inside).symm
  · rw [done, holds.has_eq inside]
    exact (if_pos inside).symm
  · rw [done, if_neg outside]

theorem count_eq (holds : set.Holds calls) : set.count = (inserted grid calls).card := by
  have members_eq : inserted grid calls = (grid.positions.filter set.has).toFinset := by
    ext position
    rw [mem_inserted, List.mem_toFinset, List.mem_filter, Grid.mem_positions, holds.has_iff]
    tauto
  rw [members_eq, List.toFinset_card_of_nodup ((Grid.nodup_positions grid).filter _),
    ← List.countP_eq_length_filter]
  exact holds.counted

theorem mem_missing_iff (holds : set.Holds calls) :
    position ∈ set.missing ↔ grid.Contains position ∧ .insert position ∉ calls := by
  rw [missing_eq, List.mem_filter, Grid.mem_positions, Bool.not_eq_true',
    ← Bool.not_eq_true, holds.has_iff]
  tauto

end Holds

/-- A set counts as full where no tile is missing. -/
theorem isFull_iff_missing_eq_nil
    {set : TileSet grid}
    (counted : set.Counted) :
    set.isFull = true ↔ set.missing = [] := by
  have all := length_missing_add_count counted
  unfold isFull
  rw [beq_iff_eq, ← List.length_eq_zero_iff]
  omega

/-! ## The order of the missing tiles -/

/-- The numbers of the tiles that a set does not have. -/
def vacant (set : TileSet grid) : List (Fin grid.tileCount) :=
  (List.finRange grid.tileCount).filter fun number => !set.marks.get number

theorem vacant_pairwise_lt (set : TileSet grid) : set.vacant.Pairwise (· < ·) :=
  (List.pairwise_lt_finRange _).filter _

theorem has_tileAt (set : TileSet grid) (number : Fin grid.tileCount) :
    set.has (grid.tileAt number) = set.marks.get number := by
  unfold has TileMap.find?
  rw [grid.index_tileAt]
  rfl

/-- The missing tiles are those with the vacant numbers, in the order of these. -/
theorem missing_eq_map_vacant (set : TileSet grid) :
    set.missing = set.vacant.map grid.tileAt := by
  unfold vacant
  rw [missing_eq, grid.positions_eq_map_tileAt, List.filter_map]
  simp only [Function.comp_def, has_tileAt]

theorem map_index_missing (set : TileSet grid) :
    set.missing.map grid.index = set.vacant.map .ok := by
  rw [missing_eq_map_vacant, List.map_map]
  exact List.map_congr_left fun number _ => grid.index_tileAt number

/-! ## What a set tells -/

/-- What a set of tiles tells after calls: which tiles of the grid they inserted. -/
structure Tells (set : TileSet grid) (calls : List Call) : Prop where
  count_eq : set.count = (inserted grid calls).card
  /-- Whatever is called next is answered by whether its tile was inserted. -/
  answer_eq : ∀ call, (called set call).1 = answerAfter grid calls call
  mem_missing_iff : ∀ position,
    position ∈ set.missing ↔ grid.Contains position ∧ .insert position ∉ calls
  /-- The missing tiles are listed once each, in the order of their numbers. -/
  ascending : ∃ numbers : List (Fin grid.tileCount),
    set.missing.map grid.index = numbers.map .ok ∧ numbers.Pairwise (· < ·)
  isFull_iff : set.isFull = true ↔ set.missing = []
  outside : ∀ call, ¬grid.Contains call.position -> called set call = (.error .tileOutside, set)

theorem Holds.tells
    {set : TileSet grid}
    {calls : List Call}
    (holds : set.Holds calls) : set.Tells calls where
  count_eq := holds.count_eq
  answer_eq := holds.answer_eq
  mem_missing_iff _ := holds.mem_missing_iff
  ascending := ⟨set.vacant, set.map_index_missing, set.vacant_pairwise_lt⟩
  isFull_iff := isFull_iff_missing_eq_nil holds.counted
  outside _ := called_outside set

/-- The calls of an empty set are answered by what was inserted before each of them. -/
theorem answers_run_empty (grid : Grid) (calls : List Call) :
    (called.run (TileSet.empty grid) calls).1 = calls.mapIdx fun number call =>
      (call, answerAfter grid (calls.take number) call) := by
  rw [Behavior.answers_run]
  congr 1
  funext number call
  rw [(Holds.empty.run (calls.take number)).answer_eq, List.nil_append]

end TileSet
end DeepShadow
