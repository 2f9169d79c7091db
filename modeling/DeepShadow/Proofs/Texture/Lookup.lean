import DeepShadow.Proofs.Grid.Lookup
import DeepShadow.Proofs.Grid.Membership
import DeepShadow.Texture.Table

/-!
# Looking up places in the table

The table is known by the place that it tells for each tile of the grid.
Recording one place leaves the others as they are, and so entering a list of
entries, no two for the same tile, gives each tile the place of its entry.
-/

namespace DeepShadow
namespace Texture

/-- The entry with the row and the column of a tile of a grid is for this tile. -/
theorem Entry.position_ofNat
    {grid : Grid}
    {position : TilePosition}
    (inside : grid.Contains position)
    (offset : UInt32) :
    (⟨UInt32.ofNat position.row, UInt32.ofNat position.column, offset⟩ : Entry).position =
      position := by
  obtain ⟨columnBound, rowBound⟩ := inside.lt_word
  unfold Entry.position
  simp only [UInt32.toNat_ofNat']
  rw [Nat.mod_eq_of_lt columnBound, Nat.mod_eq_of_lt rowBound]

namespace Table

variable {grid : Grid} {position other : TilePosition}

theorem offset?_eq_find?
    (table : Table grid)
    (position : TilePosition) :
    table.offset? position = table.offsets.find? position := rfl

theorem offset?_empty (inside : grid.Contains position) :
    (empty grid).offset? position = some 0 :=
  TileMap.find?_constant 0 inside

/-- Recording the place of one block leaves the others as they are. -/
theorem offset?_set
    (table : Table grid)
    (inside : grid.Contains position)
    (offset : UInt32) :
    (table.set position offset).offset? other =
      if other = position then some offset else table.offset? other := by
  unfold set
  rw [Grid.index_eq_ok inside]
  exact TileMap.find?_set table.offsets inside offset

/-- The tiles that are not stored, counted by position. -/
theorem elidedCount_eq (table : Table grid) :
    table.elidedCount = grid.positions.countP fun position => table.offset? position = some 0 := by
  have byNumber := congrArg (List.countP fun offset : Option UInt32 => offset = some 0)
    (TileMap.map_find?_positions table.offsets)
  rw [List.countP_map, List.countP_map] at byNumber
  refine Eq.trans ?_ byNumber.symm
  unfold elidedCount
  rw [List.count_eq_countP]
  apply List.countP_congr
  intro offset _
  simp

/-- A table is known by the places that it tells. -/
theorem eq_of_offset?_eq
    {first second : Table grid}
    (same : ∀ position, grid.Contains position ->
      first.offset? position = second.offset? position) :
    first = second := by
  have offsets : first.offsets.toList.map some = second.offsets.toList.map some := by
    rw [← TileMap.map_find?_positions, ← TileMap.map_find?_positions]
    exact List.map_congr_left fun position member => same position (Grid.mem_positions.mp member)
  obtain ⟨⟨firstValues⟩⟩ := first
  obtain ⟨⟨secondValues⟩⟩ := second
  congr 2
  apply Vector.toList_inj.mp
  exact List.map_injective_iff.mpr (fun _ _ => Option.some.inj) offsets

/-- The offsets of a table are those of the tiles of the grid. -/
theorem mem_toList_offsets
    (table : Table grid)
    (offset : UInt32) :
    offset ∈ table.offsets.toList ↔
      ∃ position, grid.Contains position ∧ table.offset? position = some offset := by
  unfold TileMap.toList
  rw [Vector.mem_toList_iff, Vector.mem_iff_getElem]
  constructor
  · rintro ⟨number, bound, rfl⟩
    obtain ⟨position, inside, numbered⟩ := Grid.exists_indexOf_eq grid ⟨number, bound⟩
    refine ⟨position, inside, ?_⟩
    rw [offset?_eq_find?, TileMap.find?_eq_some _ inside, numbered]
    rfl
  · rintro ⟨position, inside, found⟩
    rw [offset?_eq_find?, TileMap.find?_eq_some _ inside] at found
    exact ⟨grid.indexOf position inside, (grid.indexOf position inside).isLt,
      Option.some.inj found⟩

/-- The entry that a list has for a tile, or what was known before. -/
def offsetAmong
    (entries : List Entry)
    (position : TilePosition)
    (known : Option UInt32) : Option UInt32 :=
  match entries.find? fun entry => entry.position = position with
  | some entry => some entry.offset
  | none => known

/-- An entry is entered where it is for a tile of the grid that was not entered before and
does not point in front of `dataStart`. -/
theorem enter_eq_ok_iff
    {dataStart : Nat}
    {seen : TileSet grid}
    {table : Table grid}
    {entry : Entry}
    {next : TileSet grid × Table grid} :
    enter dataStart (seen, table) entry = .ok next ↔
      ∃ inside : grid.Contains entry.position,
        seen.has entry.position = false ∧
        (entry.offset ≠ 0 -> dataStart ≤ entry.offset.toNat) ∧
        next = (seen.add (grid.indexOf entry.position inside),
          table.set entry.position entry.offset) := by
  unfold enter
  by_cases inside : grid.Contains entry.position
  swap
  · simp only [TileSet.insert_eq_error seen inside]
    refine iff_of_false ?_ fun holds => inside holds.1
    intro entered
    cases entered
  simp only [TileSet.insert_eq_ok seen inside, exists_prop_of_true inside]
  cases seen.has entry.position with
  | true =>
      refine iff_of_false ?_ fun holds => Bool.false_ne_true holds.1.symm
      intro entered
      cases entered
  | false =>
      by_cases early : entry.offset ≠ 0 ∧ entry.offset.toNat < dataStart
      · simp only [if_pos early]
        refine iff_of_false ?_ fun holds => Nat.not_lt.mpr (holds.2.1 early.1) early.2
        intro entered
        cases entered
      · simp only [if_neg early, Except.ok.injEq, true_and]
        refine ⟨fun equal => ⟨fun stored => ?_, equal.symm⟩, fun holds => holds.2.symm⟩
        exact Nat.not_lt.mp fun tooEarly => early ⟨stored, tooEarly⟩

/-- Entries for different tiles of the grid, none of which points in front of
`dataStart`, are entered one after the other. -/
theorem foldlM_enter
    (dataStart : Nat)
    (entries : List Entry)
    (seen : TileSet grid)
    (table : Table grid)
    (inside : ∀ entry ∈ entries, grid.Contains entry.position)
    (behindTable : ∀ entry ∈ entries, entry.offset ≠ 0 -> dataStart ≤ entry.offset.toNat)
    (distinct : (entries.map Entry.position).Nodup)
    (unseen : ∀ entry ∈ entries, seen.has entry.position = false) :
    ∃ seenAfter tableAfter,
      entries.foldlM (enter dataStart) (seen, table) = .ok (seenAfter, tableAfter) ∧
      ∀ position, tableAfter.offset? position =
        offsetAmong entries position (table.offset? position) := by
  induction entries generalizing seen table with
  | nil => exact ⟨seen, table, rfl, fun _ => rfl⟩
  | cons entry entries inductionHypothesis =>
      have entryInside := inside entry List.mem_cons_self
      have entryUnseen := unseen entry List.mem_cons_self
      rw [List.map_cons, List.nodup_cons] at distinct
      have entered : enter dataStart (seen, table) entry =
          .ok (seen.add (grid.indexOf entry.position entryInside),
            table.set entry.position entry.offset) := by
        exact enter_eq_ok_iff.mpr
          ⟨entryInside, entryUnseen, behindTable entry List.mem_cons_self, rfl⟩
      have laterUnseen : ∀ later ∈ entries,
          (seen.add (grid.indexOf entry.position entryInside)).has later.position = false := by
        intro later member
        have different : later.position ≠ entry.position := fun equal =>
          distinct.1 (equal ▸ List.mem_map_of_mem member)
        rw [TileSet.has_add seen entryInside, unseen later (List.mem_cons_of_mem _ member)]
        simp [different]
      obtain ⟨seenAfter, tableAfter, run, offsets⟩ :=
        inductionHypothesis (seen.add (grid.indexOf entry.position entryInside))
          (table.set entry.position entry.offset)
          (fun later member => inside later (List.mem_cons_of_mem _ member))
          (fun later member => behindTable later (List.mem_cons_of_mem _ member))
          distinct.2 laterUnseen
      refine ⟨seenAfter, tableAfter, ?_, fun position => ?_⟩
      · rw [List.foldlM_cons, entered]
        exact run
      · rw [offsets, offset?_set table entryInside]
        unfold offsetAmong
        rw [List.find?_cons]
        by_cases here : entry.position = position
        · have notLater : entries.find? (fun later => later.position = position) = none := by
            rw [List.find?_eq_none]
            intro later member same
            rw [decide_eq_true_eq] at same
            exact distinct.1 (by
              rw [here, ← same]
              exact List.mem_map_of_mem member)
          rw [notLater]
          simp [here]
        · simp [here, Ne.symm here]

/-- What is needed of entries so that they make a table: each is for another tile of the
grid, and none points in front of `dataStart`. -/
structure Enterable (grid : Grid) (dataStart : Nat) (entries : List Entry) : Prop where
  inside : ∀ entry ∈ entries, grid.Contains entry.position
  behindTable : ∀ entry ∈ entries, entry.offset ≠ 0 -> dataStart ≤ entry.offset.toNat
  distinct : (entries.map Entry.position).Nodup

/-- Entries that are entered one after the other are for different tiles of the grid, for
none of those seen before, and none points in front of `dataStart`. -/
theorem enterable_of_foldlM
    {dataStart : Nat}
    {entries : List Entry}
    {seen : TileSet grid}
    {table : Table grid}
    {after : TileSet grid × Table grid}
    (run : entries.foldlM (enter dataStart) (seen, table) = .ok after) :
    Enterable grid dataStart entries ∧ ∀ entry ∈ entries, seen.has entry.position = false := by
  induction entries generalizing seen table with
  | nil =>
      exact
        ⟨{ inside := fun _ member => absurd member List.not_mem_nil
           behindTable := fun _ member => absurd member List.not_mem_nil
           distinct := List.nodup_nil },
          fun _ member => absurd member List.not_mem_nil⟩
  | cons entry entries inductionHypothesis =>
      rw [List.foldlM_cons] at run
      cases entered : enter dataStart (seen, table) entry with
      | error error =>
          rw [entered] at run
          cases run
      | ok next =>
          rw [entered] at run
          obtain ⟨inside, unseen, behindTable, rfl⟩ := enter_eq_ok_iff.mp entered
          obtain ⟨rest, restUnseen⟩ := inductionHypothesis run
          have apart : ∀ later ∈ entries,
              later.position ≠ entry.position ∧ seen.has later.position = false := by
            intro later member
            have notLater := restUnseen later member
            rw [TileSet.has_add seen inside, Bool.or_eq_false_iff, decide_eq_false_iff_not]
              at notLater
            exact notLater
          refine
            ⟨{ inside := List.forall_mem_cons.mpr ⟨inside, rest.inside⟩
               behindTable := List.forall_mem_cons.mpr ⟨behindTable, rest.behindTable⟩
               distinct := ?_ },
              List.forall_mem_cons.mpr ⟨unseen, fun later member => (apart later member).2⟩⟩
          rw [List.map_cons, List.nodup_cons]
          refine ⟨fun again => ?_, rest.distinct⟩
          obtain ⟨later, member, same⟩ := List.mem_map.mp again
          exact (apart later member).1 same

/-- Entries for different tiles are found by their tiles. -/
theorem offsetAmong_of_mem
    {entries : List Entry}
    (distinct : (entries.map Entry.position).Nodup)
    {entry : Entry}
    (member : entry ∈ entries)
    (known : Option UInt32) :
    offsetAmong entries entry.position known = some entry.offset := by
  unfold offsetAmong
  cases found : entries.find? fun other => other.position = entry.position with
  | none =>
      rw [List.find?_eq_none] at found
      exact absurd (decide_eq_true rfl) (found entry member)
  | some other =>
      have same := List.find?_some found
      rw [decide_eq_true_eq] at same
      rw [List.inj_on_of_nodup_map distinct (List.mem_of_find?_eq_some found) member same]

/-- The order of entries for different tiles does not matter. -/
theorem offsetAmong_perm
    {entries others : List Entry}
    (permuted : others.Perm entries)
    (distinct : (entries.map Entry.position).Nodup)
    (position : TilePosition)
    (known : Option UInt32) :
    offsetAmong others position known = offsetAmong entries position known := by
  have othersDistinct : (others.map Entry.position).Nodup :=
    (permuted.map Entry.position).nodup_iff.mpr distinct
  cases found : entries.find? fun entry => entry.position = position with
  | some entry =>
      have member := List.mem_of_find?_eq_some found
      have same := List.find?_some found
      rw [decide_eq_true_eq] at same
      rw [← same, offsetAmong_of_mem othersDistinct (permuted.mem_iff.mpr member),
        offsetAmong_of_mem distinct member]
  | none =>
      have absent : others.find? (fun entry => entry.position = position) = none := by
        rw [List.find?_eq_none] at found ⊢
        exact fun entry member => found entry (permuted.mem_iff.mp member)
      unfold offsetAmong
      rw [found, absent]

theorem Enterable.perm
    {dataStart : Nat}
    {entries others : List Entry}
    (enterable : Enterable grid dataStart entries)
    (permuted : others.Perm entries) :
    Enterable grid dataStart others :=
  { inside := fun entry member => enterable.inside entry (permuted.mem_iff.mp member)
    behindTable := fun entry member => enterable.behindTable entry (permuted.mem_iff.mp member)
    distinct := (permuted.map Entry.position).nodup_iff.mpr enterable.distinct }

/-- Entries that make a table give each tile the place of its entry. -/
theorem Enterable.exists_ofEntries
    {dataStart : Nat}
    {entries : List Entry}
    (enterable : Enterable grid dataStart entries) :
    ∃ table, ofEntries grid entries dataStart = .ok table ∧
      ∀ position, grid.Contains position ->
        table.offset? position = offsetAmong entries position (some 0) := by
  obtain ⟨seen, table, run, offsets⟩ := foldlM_enter dataStart entries (TileSet.empty grid)
    (empty grid) enterable.inside enterable.behindTable enterable.distinct
    (fun _ _ => TileSet.has_empty)
  refine ⟨table, ?_, fun position inside => ?_⟩
  · unfold ofEntries
    rw [run]
    rfl
  · rw [offsets, offset?_empty inside]

/-- The table of some entries, where they make one. -/
theorem ofEntries_eq_ok_iff
    {dataStart : Nat}
    {entries : List Entry}
    {table : Table grid} :
    ofEntries grid entries dataStart = .ok table ↔
      Enterable grid dataStart entries ∧
        ∀ position, grid.Contains position ->
          table.offset? position = offsetAmong entries position (some 0) := by
  constructor
  · intro isTable
    have enterable : Enterable grid dataStart entries := by
      unfold ofEntries at isTable
      cases run : entries.foldlM (enter dataStart) (TileSet.empty grid, empty grid) with
      | error error =>
          rw [run] at isTable
          cases isTable
      | ok after => exact (enterable_of_foldlM run).1
    obtain ⟨made, isMade, offsets⟩ := enterable.exists_ofEntries
    cases isMade.symm.trans isTable
    exact ⟨enterable, offsets⟩
  · rintro ⟨enterable, offsets⟩
    obtain ⟨made, isMade, madeOffsets⟩ := enterable.exists_ofEntries
    rw [isMade]
    exact congrArg Except.ok (eq_of_offset?_eq fun position inside =>
      (madeOffsets position inside).trans (offsets position inside).symm)

/-! ## One entry for each tile -/

section Positions

variable {dataStart : Nat} {entryOf : TilePosition -> Entry}
  (position_entryOf : ∀ position, grid.Contains position ->
    (entryOf position).position = position)

include position_entryOf

theorem map_position_map_positions :
    (grid.positions.map entryOf).map Entry.position = grid.positions := by
  rw [List.map_map]
  conv_rhs => rw [← List.map_id grid.positions]
  apply List.map_congr_left
  intro position member
  exact position_entryOf position (Grid.mem_positions.mp member)

/-- Entries for all tiles of the grid make a table. -/
theorem enterable_map_positions
    (behindTable : ∀ position, grid.Contains position ->
      (entryOf position).offset ≠ 0 -> dataStart ≤ (entryOf position).offset.toNat) :
    Enterable grid dataStart (grid.positions.map entryOf) := by
  refine
    { inside := ?_
      behindTable := ?_
      distinct := by
        rw [map_position_map_positions position_entryOf]
        exact grid.nodup_positions }
  · intro entry member
    obtain ⟨position, positionMember, rfl⟩ := List.mem_map.mp member
    have inside := Grid.mem_positions.mp positionMember
    rw [position_entryOf position inside]
    exact inside
  · intro entry member
    obtain ⟨position, positionMember, rfl⟩ := List.mem_map.mp member
    exact behindTable position (Grid.mem_positions.mp positionMember)

/-- Each tile is found at its own entry. -/
theorem offsetAmong_map_positions
    (inside : grid.Contains position)
    (known : Option UInt32) :
    offsetAmong (grid.positions.map entryOf) position known =
      some (entryOf position).offset := by
  have distinct : ((grid.positions.map entryOf).map Entry.position).Nodup := by
    rw [map_position_map_positions position_entryOf]
    exact grid.nodup_positions
  have member : entryOf position ∈ grid.positions.map entryOf :=
    List.mem_map_of_mem (Grid.mem_positions.mpr inside)
  have found := offsetAmong_of_mem distinct member known
  rw [position_entryOf position inside] at found
  exact found

end Positions

/-- A tile is stored where one of the entries tells. -/
theorem offset?_eq_some_iff
    {dataStart : Nat}
    {entries : List Entry}
    {table : Table grid}
    {offset : UInt32}
    (made : ofEntries grid entries dataStart = .ok table)
    (stored : offset ≠ 0) :
    table.offset? position = some offset ↔
      ∃ entry ∈ entries, entry.position = position ∧ entry.offset = offset := by
  obtain ⟨enterable, offsets⟩ := ofEntries_eq_ok_iff.mp made
  constructor
  · intro found
    have inside : grid.Contains position := by
      by_contra outside
      rw [offset?_eq_find?, TileMap.find?_eq_none _ outside] at found
      cases found
    have entered := found.symm.trans (offsets position inside)
    unfold offsetAmong at entered
    split at entered
    next entry isEntry =>
      exact ⟨entry, List.mem_of_find?_eq_some isEntry,
        of_decide_eq_true (List.find?_some isEntry :), (Option.some.inj entered).symm⟩
    next noEntry => exact absurd (Option.some.inj entered) stored
  · rintro ⟨entry, member, rfl, rfl⟩
    rw [offsets entry.position (enterable.inside entry member)]
    exact offsetAmong_of_mem enterable.distinct member (some 0)

/-- Entries make the same table in any order. -/
theorem ofEntries_perm
    {dataStart : Nat}
    {entries others : List Entry}
    {table : Table grid}
    (permuted : others.Perm entries)
    (made : ofEntries grid entries dataStart = .ok table) :
    ofEntries grid others dataStart = .ok table := by
  obtain ⟨enterable, offsets⟩ := ofEntries_eq_ok_iff.mp made
  refine ofEntries_eq_ok_iff.mpr ⟨enterable.perm permuted, fun position inside => ?_⟩
  rw [offsets position inside, offsetAmong_perm permuted enterable.distinct]

end Table

end Texture
end DeepShadow
