import DeepShadow.Proofs.Grid.Insertions
import DeepShadow.Violation

/-!
# Sets of tiles as bitmaps

The marks of a set are bits in an array that is changed in place.  Nothing says that the array
has a bit for each tile, so each bit is looked up where it may not exist, and a bit may have a
number that no tile has.  The count of the bits that are set is a word.  However a bitmap is
called, it neither stops nor loses count, and its answers and its tiles are those of the set.
-/

namespace DeepShadow

/-- Bits with numbers and the count of those that are set. -/
structure Bitmap where
  grid : Grid
  bits : Array Bool
  count : Nat
deriving DecidableEq

namespace Bitmap

/-! ## Changes in place -/

/-- Why a bitmap stops in the middle of a call. -/
inductive Panic
  /-- A bit has a number that no tile has. -/
  | outsideGrid (number : Nat)
  /-- The count does not fit into a word. -/
  | uncountable
  /-- A contract is broken. -/
  | violation (violation : Violation)
deriving DecidableEq

/-- The text shown. -/
def Panic.message : Panic -> String
  | outsideGrid number => s!"bitmap index {number} outside its own grid"
  | uncountable => "attempt to add with overflow"
  | violation broken => broken.message

/-- The bitmap of a grid in which no bit is set. -/
def blank (grid : Grid) : Bitmap := ⟨grid, Array.replicate grid.tileCount false, 0⟩

/-- Reads a bit. -/
def read (bitmap : Bitmap) (number : Nat) : Except Panic Bool :=
  match bitmap.bits[number]? with
  | some bit => .ok bit
  | none => .error (.violation .outOfBounds)

/-- Sets a bit. -/
def mark (bitmap : Bitmap) (number : Nat) : Except Panic Bitmap :=
  if bound : number < bitmap.bits.size then
    .ok { bitmap with bits := bitmap.bits.set number true }
  else .error (.violation .outOfBounds)

/-- Adds to the count. -/
def raise (bitmap : Bitmap) (amount : Nat) : Except Panic Bitmap :=
  match fitting 64 (bitmap.count + amount) with
  | some count => .ok { bitmap with count }
  | none => .error .uncountable

/-- Marks a tile, and then counts it unless it was marked before. -/
def insert
    (bitmap : Bitmap)
    (position : TilePosition) : Except Panic (TileSet.Answer × Bitmap) :=
  match bitmap.grid.index position with
  | .error error => .ok (.error error, bitmap)
  | .ok number => do
      -- Once its bit is set, nothing shows any more that a tile is new.
      let before ← bitmap.read number
      let bitmap ← bitmap.mark number
      let bitmap ← bitmap.raise (!before).toNat
      return (.ok before, bitmap)

/-- Whether a tile is marked. -/
def contains
    (bitmap : Bitmap)
    (position : TilePosition) : Except Panic TileSet.Answer :=
  match bitmap.grid.index position with
  | .error error => .ok (.error error)
  | .ok number => do return .ok (← bitmap.read number)

/-- What a call does. -/
def step (bitmap : Bitmap) : TileSet.Call -> Except Panic (TileSet.Answer × Bitmap)
  | .insert position => bitmap.insert position
  | .contains position => do return (← bitmap.contains position, bitmap)

/-- What calls do; after a panic there is no bitmap. -/
def called : Behavior (Except Panic Bitmap) TileSet.Call (Except Panic TileSet.Answer) :=
  .stopping step

/-- The numbers of the bits that are not set, in ascending order. -/
def zeros (bitmap : Bitmap) : List Nat :=
  (List.range bitmap.bits.size).filter fun number => bitmap.bits[number]? == some false

/-- The tiles that are not marked, each found by the number of its bit. -/
def unmarked (bitmap : Bitmap) : Except Panic (List TilePosition) :=
  bitmap.zeros.mapM fun number =>
    (bitmap.grid.position number).mapError fun _ => .outsideGrid number

/-- Whether as many bits are set as the grid has tiles. -/
def isFull (bitmap : Bitmap) : Bool := bitmap.count == bitmap.grid.tileCount

end Bitmap

/-- The set as a bitmap. -/
def TileSet.bitmap {grid : Grid} (set : TileSet grid) : Bitmap :=
  ⟨grid, set.marks.values.toArray, set.count⟩

namespace Bitmap

variable {grid : Grid} {set : TileSet grid} {position : TilePosition}

/-! ## The bitmap of a set -/

theorem size_bits (set : TileSet grid) : set.bitmap.bits.size = grid.tileCount :=
  Vector.size_toArray _

theorem getElem?_bits (set : TileSet grid) (number : Fin grid.tileCount) :
    set.bitmap.bits[(number : Nat)]? = some (set.marks.get number) := by
  have bound : (number : Nat) < set.bitmap.bits.size :=
    number.isLt.trans_eq (size_bits set).symm
  exact Array.getElem?_eq_getElem bound

theorem read_bitmap (set : TileSet grid) (number : Fin grid.tileCount) :
    set.bitmap.read number = .ok (set.marks.get number) := by
  unfold read
  rw [getElem?_bits]

theorem index_bitmap (set : TileSet grid) (inside : grid.Contains position) :
    set.bitmap.grid.index position = .ok (grid.indexOf position inside) :=
  Grid.index_eq_ok inside

theorem read_indexOf (set : TileSet grid) (inside : grid.Contains position) :
    set.bitmap.read (grid.indexOf position inside) = .ok (set.has position) := by
  rw [read_bitmap, TileSet.has_eq_get set inside]

theorem mark_bitmap (set : TileSet grid) (number : Fin grid.tileCount) :
    set.bitmap.mark number =
      .ok { set.bitmap with bits := (set.marks.set number true).values.toArray } := by
  have bound : (number : Nat) < set.bitmap.bits.size :=
    number.isLt.trans_eq (size_bits set).symm
  unfold mark
  rw [dif_pos bound]
  rfl

theorem raise_eq_ok
    {bitmap : Bitmap}
    {amount : Nat}
    (fits : bitmap.count + amount < 2 ^ 64) :
    bitmap.raise amount = .ok { bitmap with count := bitmap.count + amount } := by
  unfold raise
  rw [fitting_eq_some fits]

/-- The count stays in its word, since no more tiles are counted than the grid has. -/
theorem insert_bitmap
    (counted : set.Counted)
    (inside : grid.Contains position) :
    set.bitmap.insert position =
      .ok (.ok (set.has position), (set.add (grid.indexOf position inside)).bitmap) := by
  have fits : set.count + (!set.has position).toNat < 2 ^ 64 := by
    have all := TileSet.length_missing_add_count counted
    have few := grid.tileCount_lt_word
    have atMostOne := Bool.toNat_le (!set.has position)
    omega
  have raised : Bitmap.raise
      { set.bitmap with
        bits := (set.marks.set (grid.indexOf position inside) true).values.toArray }
      (!set.has position).toNat = .ok (set.add (grid.indexOf position inside)).bitmap := by
    rw [raise_eq_ok fits, TileSet.has_eq_get set inside]
    unfold TileSet.bitmap TileSet.add
    cases set.marks.get (grid.indexOf position inside) <;> rfl
  unfold insert
  simp only [index_bitmap set inside, read_indexOf set inside, mark_bitmap, raised, bind,
    Except.bind]
  rfl

theorem contains_bitmap (set : TileSet grid) (inside : grid.Contains position) :
    set.bitmap.contains position = .ok (.ok (set.has position)) := by
  unfold contains
  simp only [index_bitmap set inside, read_indexOf set inside]
  rfl

/-- A call about a tile outside of the grid fails before anything is looked up. -/
theorem step_outside
    {bitmap : Bitmap}
    {call : TileSet.Call}
    (outside : ¬bitmap.grid.Contains call.position) :
    bitmap.step call = .ok (.error .tileOutside, bitmap) := by
  have refused : bitmap.grid.index call.position = .error .tileOutside :=
    Grid.index_eq_error outside
  cases call with
  | insert position =>
      unfold step insert
      rw [TileSet.Call.position] at refused
      simp only [refused]
  | contains position =>
      unfold step contains
      rw [TileSet.Call.position] at refused
      simp only [refused]
      rfl

/-- A bitmap does at each call what the set does that it is of. -/
theorem step_bitmap
    (counted : set.Counted)
    (call : TileSet.Call) :
    set.bitmap.step call =
      .ok ((TileSet.called set call).1, (TileSet.called set call).2.bitmap) := by
  rcases TileSet.called_cases set call with
    ⟨added, inside, rfl, done⟩ | ⟨asked, inside, rfl, done⟩ | ⟨outside, done⟩
  · rw [done]
    exact insert_bitmap counted inside
  · rw [done]
    unfold step
    simp only [contains_bitmap set inside]
    rfl
  · rw [done]
    exact step_outside outside

theorem zeros_bitmap (set : TileSet grid) : set.bitmap.zeros = set.vacant.map Fin.val := by
  unfold zeros TileSet.vacant
  rw [size_bits, ← List.map_coe_finRange_eq_range, List.filter_map]
  congr 1
  apply List.filter_congr
  intro number _
  rw [Function.comp_apply, getElem?_bits]
  cases set.marks.get number <;> rfl

/-- Each bit has the number of a tile, and so all tiles are found. -/
theorem unmarked_bitmap (set : TileSet grid) : set.bitmap.unmarked = .ok set.missing := by
  unfold unmarked
  rw [zeros_bitmap, TileSet.missing_eq_map_vacant, List.mapM_map]
  apply mapM_eq_ok
  intro number _
  have found : set.bitmap.grid.position number = .ok (grid.tileAt number) :=
    grid.position_eq_tileAt number
  rw [Function.comp_apply, found]
  rfl

/-- A bit behind those of the tiles would stop the listing. -/
example : ∃ grid, Grid.ofSizes 64 32 32 32 = .ok grid ∧
    (⟨grid, #[false, true, false], 1⟩ : Bitmap).unmarked.mapError Panic.message =
      .error "bitmap index 2 outside its own grid" := ⟨_, rfl, by decide +kernel⟩

/-- However the bitmap of a grid is called, it does what the empty set of tiles does. -/
theorem run_called_blank (grid : Grid) (calls : List TileSet.Call) :
    let after := TileSet.called.run (TileSet.empty grid) calls
    called.run (.ok (blank grid)) calls =
      (after.1.map fun answered => (answered.1, .ok answered.2), .ok after.2.bitmap) := by
  have kept (set : TileSet grid) (call : TileSet.Call) (counted : set.Counted) :
      (TileSet.called set call).2.Counted := counted.called call
  have steps (set : TileSet grid) (call : TileSet.Call) (counted : set.Counted) :=
    step_bitmap counted call
  exact Behavior.run_stopping kept steps TileSet.counted_empty calls

end Bitmap

/-- However a set of tiles is called, it counts the different tiles of its grid that the calls
inserted.  Each call is answered by whether its tile was inserted before it.  The other tiles are
missing, in the order of their numbers, and the set is full where none is.  A call about a tile
outside of the grid fails and leaves the set as it was.  A bitmap that is changed in place does
all of this, too, and never stops. -/
theorem TileSet.insertions_counted (grid : Grid) (calls : List TileSet.Call) :
    let after := TileSet.called.run (TileSet.empty grid) calls
    (after.1 = calls.mapIdx fun number call =>
        (call, answerAfter grid (calls.take number) call)) ∧
      after.2.Tells calls ∧
      ∃ bitmap,
        Bitmap.called.run (.ok (Bitmap.blank grid)) calls =
            (after.1.map fun answered => (answered.1, .ok answered.2), .ok bitmap) ∧
          bitmap.count = after.2.count ∧ bitmap.isFull = after.2.isFull ∧
          bitmap.unmarked = .ok after.2.missing ∧
          ∀ call, ¬grid.Contains call.position ->
            bitmap.step call = .ok (.error .tileOutside, bitmap) := by
  have holds := (@TileSet.Holds.empty grid).run calls
  exact ⟨answers_run_empty grid calls, holds.tells, _, Bitmap.run_called_blank grid calls,
    rfl, rfl, Bitmap.unmarked_bitmap _, fun call outside => Bitmap.step_outside outside⟩

/-- Of two tiles, the second one is inserted twice, and one outside of the grid. -/
example : ∃ grid, Grid.ofSizes 64 32 32 32 = .ok grid ∧
    let after := TileSet.called.run (TileSet.empty grid)
      [.insert ⟨1, 0⟩, .insert ⟨1, 0⟩, .insert ⟨2, 0⟩, .contains ⟨0, 0⟩]
    after.1.map Prod.snd = [.ok false, .ok true, .error .tileOutside, .ok false] ∧
      after.2.count = 1 ∧ after.2.missing = [⟨0, 0⟩] := ⟨_, rfl, by decide +kernel⟩

end DeepShadow
