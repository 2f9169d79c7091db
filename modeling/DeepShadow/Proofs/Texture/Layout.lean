import DeepShadow.Proofs.Grid.Tiling
import DeepShadow.Proofs.Texture.Codec

/-!
# The layout of a finished file

A finished file is a header with its sizes, one table entry for each tile of the
grid, row by row, and the blocks of the stored tiles one behind the other.  This
module says it in one piece, without the way in which a writer gets there: which
bytes the file has, and where each block lies.
-/

namespace DeepShadow
namespace Texture

/-! ## Blocks one behind the other -/

/-- The number of bytes of several blocks. -/
def blocksSize : List Tile -> Nat
  | [] => 0
  | tile :: tiles => Block.size tile + blocksSize tiles

@[simp] theorem blocksSize_nil : blocksSize [] = 0 := rfl

@[simp] theorem blocksSize_cons (tile : Tile) (tiles : List Tile) :
    blocksSize (tile :: tiles) = Block.size tile + blocksSize tiles := rfl

theorem blocksSize_append (first second : List Tile) :
    blocksSize (first ++ second) = blocksSize first + blocksSize second := by
  induction first with
  | nil => simp
  | cons tile tiles inductionHypothesis =>
      rw [List.cons_append, blocksSize_cons, blocksSize_cons, inductionHypothesis, Nat.add_assoc]

/-- The order of blocks does not change their size. -/
theorem blocksSize_perm
    {first second : List Tile}
    (permuted : first.Perm second) :
    blocksSize first = blocksSize second := by
  induction permuted with
  | nil => rfl
  | cons tile _ inductionHypothesis => rw [blocksSize_cons, blocksSize_cons, inductionHypothesis]
  | swap first second rest =>
      simp only [blocksSize_cons]
      omega
  | trans _ _ firstEqual secondEqual => rw [firstEqual, secondEqual]

theorem length_flatMap_encode_blocks (tiles : List Tile) :
    (tiles.flatMap Block.encode).length = blocksSize tiles := by
  induction tiles with
  | nil => rfl
  | cons tile tiles inductionHypothesis =>
      rw [List.flatMap_cons, List.length_append, Block.length_encode, inductionHypothesis,
        blocksSize_cons]

/-- The place of a tile's block, where the first block starts at `start`. -/
def placeFrom (start : Nat) : List Tile -> TilePosition -> Option Nat
  | [], _ => none
  | tile :: tiles, position =>
      if tile.placement.position = position then some start
      else placeFrom (start + Block.size tile) tiles position

/-- A block lies behind the blocks of the tiles in front of it. -/
theorem placeFrom_eq_some
    {start place : Nat}
    {tiles : List Tile}
    {position : TilePosition}
    (found : placeFrom start tiles position = some place) :
    ∃ before tile behind,
      tiles = before ++ tile :: behind ∧
      tile.placement.position = position ∧
      place = start + blocksSize before := by
  induction tiles generalizing start with
  | nil => simp [placeFrom] at found
  | cons first rest inductionHypothesis =>
      unfold placeFrom at found
      by_cases here : first.placement.position = position
      · rw [if_pos here] at found
        exact ⟨[], first, rest, rfl, here, (Option.some.inj found).symm⟩
      · rw [if_neg here] at found
        obtain ⟨before, tile, behind, split, same, placed⟩ := inductionHypothesis found
        refine ⟨first :: before, tile, behind, ?_, same, ?_⟩
        · rw [split]
          rfl
        · rw [placed, blocksSize_cons]
          omega

/-- A tile has no block where none of the tiles has its position. -/
theorem placeFrom_eq_none
    {start : Nat}
    {tiles : List Tile}
    {position : TilePosition}
    (absent : position ∉ tiles.map fun tile => tile.placement.position) :
    placeFrom start tiles position = none := by
  induction tiles generalizing start with
  | nil => rfl
  | cons first rest inductionHypothesis =>
      rw [List.map_cons, List.mem_cons, not_or] at absent
      rw [placeFrom, if_neg (Ne.symm absent.1)]
      exact inductionHypothesis absent.2

/-- The place of a block among tiles at different positions. -/
theorem placeFrom_append_cons
    (start : Nat)
    {before behind : List Tile}
    {tile : Tile}
    (absent : tile.placement.position ∉ before.map fun tile => tile.placement.position) :
    placeFrom start (before ++ tile :: behind) tile.placement.position =
      some (start + blocksSize before) := by
  induction before generalizing start with
  | nil => simp [placeFrom]
  | cons first rest inductionHypothesis =>
      rw [List.map_cons, List.mem_cons, not_or] at absent
      rw [List.cons_append, placeFrom, if_neg (Ne.symm absent.1), inductionHypothesis _ absent.2,
        blocksSize_cons, Nat.add_assoc]

/-- A block that is appended leaves the places of the others as they are. -/
theorem placeFrom_append_of_ne
    (start : Nat)
    (tiles : List Tile)
    {tile : Tile}
    {position : TilePosition}
    (different : tile.placement.position ≠ position) :
    placeFrom start (tiles ++ [tile]) position = placeFrom start tiles position := by
  induction tiles generalizing start with
  | nil => simp [placeFrom, different]
  | cons first rest inductionHypothesis =>
      rw [List.cons_append, placeFrom, placeFrom, inductionHypothesis]

/-! ## Files -/

/-- What a finished file contains. -/
structure Layout where
  grid : Grid
  channels : UInt32
  transforms : Transforms
  /-- The tiles that have a block, in the order of the blocks. -/
  stored : List Tile

namespace Layout

/-- The number of bytes in front of the first block. -/
def dataStart (layout : Layout) : Nat := headerSize + Table.encodedSize layout.grid

/-- The number of bytes. -/
def size (layout : Layout) : Nat := layout.dataStart + blocksSize layout.stored

/-- The header, with the sizes of the file and of its blocks. -/
def header (layout : Layout) : Header :=
  { Header.ofGrid layout.grid layout.channels layout.transforms with
    fileSize := UInt32.ofNat layout.size
    dataSize := UInt32.ofNat (blocksSize layout.stored) }

/-- The place of a tile's block; none where the tile is not stored. -/
def place? (layout : Layout) (position : TilePosition) : Option Nat :=
  placeFrom layout.dataStart layout.stored position

/-- The place that the table tells for a tile. -/
def offset (layout : Layout) (position : TilePosition) : UInt32 :=
  UInt32.ofNat ((layout.place? position).getD 0)

/-- The table entry of a tile. -/
def entry (layout : Layout) (position : TilePosition) : Entry :=
  { row := UInt32.ofNat position.row
    column := UInt32.ofNat position.column
    offset := layout.offset position }

/-- The table entries, row by row. -/
def entries (layout : Layout) : List Entry := layout.grid.positions.map layout.entry

/-- The bytes of the file. -/
def bytes (layout : Layout) : List UInt8 :=
  layout.header.encode ++ layout.entries.flatMap Entry.encode ++
    layout.stored.flatMap Block.encode

/-- A layout that a file can have: its tiles are tiles of the image, each at most
once, and all sizes fit into words. -/
structure Valid (layout : Layout) : Prop where
  supported : supportedChannels layout.channels.toNat = true
  imageWidth_lt : layout.grid.imageWidth < 0x100000000
  imageHeight_lt : layout.grid.imageHeight < 0x100000000
  tileWidth_lt : layout.grid.tileWidth < 0x100000000
  tileHeight_lt : layout.grid.tileHeight < 0x100000000
  wellFormed : ∀ tile ∈ layout.stored, tile.WellFormed
  channels_eq : ∀ tile ∈ layout.stored, tile.channels = layout.channels.toNat
  inside : ∀ tile ∈ layout.stored, layout.grid.Contains tile.placement.position
  framed : ∀ tile ∈ layout.stored, tile.placement = layout.grid.frame tile.placement.position
  distinct : (layout.stored.map fun tile => tile.placement.position).Nodup
  size_lt : layout.size < 0x100000000

variable {layout : Layout}

@[simp] theorem length_entries (layout : Layout) :
    layout.entries.length = layout.grid.tileCount := by
  rw [entries, List.length_map, Grid.length_positions]

@[simp] theorem length_bytes (layout : Layout) : layout.bytes.length = layout.size := by
  rw [bytes, List.length_append, List.length_append, Header.length_encode,
    Entry.length_flatMap_encode, length_entries, length_flatMap_encode_blocks]
  rfl

/-- The bytes of a file around one of its blocks. -/
theorem bytes_split
    {before behind : List Tile}
    {tile : Tile}
    (split : layout.stored = before ++ tile :: behind) :
    ∃ front, front.length = layout.dataStart + blocksSize before ∧
      layout.bytes = front ++ (Block.encode tile ++ behind.flatMap Block.encode) := by
  refine ⟨layout.header.encode ++ layout.entries.flatMap Entry.encode ++
    before.flatMap Block.encode, ?_, ?_⟩
  · rw [List.length_append, List.length_append, Header.length_encode,
      Entry.length_flatMap_encode, length_entries, length_flatMap_encode_blocks]
    rfl
  · rw [bytes, split, List.flatMap_append, List.flatMap_cons, ← List.append_assoc]

/-- The bytes of one of the blocks. -/
theorem take_drop_bytes
    {before behind : List Tile}
    {tile : Tile}
    (split : layout.stored = before ++ tile :: behind) :
    (layout.bytes.drop (layout.dataStart + blocksSize before)).take (Block.size tile) =
      Block.encode tile := by
  obtain ⟨front, frontLength, bytesEqual⟩ := bytes_split split
  rw [bytesEqual, ← frontLength, List.drop_left, ← Block.length_encode, List.take_left]

/-- A stored tile has its place behind the tiles in front of it. -/
theorem Valid.place?_eq
    (valid : layout.Valid)
    {before behind : List Tile}
    {tile : Tile}
    (split : layout.stored = before ++ tile :: behind) :
    layout.place? tile.placement.position = some (layout.dataStart + blocksSize before) := by
  have distinct := valid.distinct
  rw [split, List.map_append, List.map_cons, List.nodup_append] at distinct
  have absent : tile.placement.position ∉ before.map fun tile => tile.placement.position :=
    fun member => distinct.2.2 _ member _ List.mem_cons_self rfl
  unfold place?
  rw [split]
  exact placeFrom_append_cons layout.dataStart absent

/-- A block of a file lies behind the header and the table and ends inside the
file. -/
theorem place_bounds
    {before behind : List Tile}
    {tile : Tile}
    (split : layout.stored = before ++ tile :: behind) :
    layout.dataStart + blocksSize before + Block.size tile + blocksSize behind = layout.size := by
  rw [size, split, blocksSize_append, blocksSize_cons]
  omega

theorem headerSize_le_dataStart (layout : Layout) : headerSize ≤ layout.dataStart :=
  Nat.le_add_right _ _

/-- Behind a block lies the next one or the end of the file, and nothing starts
in between. -/
theorem Valid.no_start_inside
    (valid : layout.Valid)
    {before behind : List Tile}
    {tile other : Tile}
    (split : layout.stored = before ++ tile :: behind)
    (member : other ∈ layout.stored)
    {start : Nat}
    (placed : layout.place? other.placement.position = some start)
    (later : layout.dataStart + blocksSize before < start) :
    layout.dataStart + blocksSize before + Block.size tile ≤ start := by
  obtain ⟨otherBefore, otherBehind, otherSplit⟩ := List.append_of_mem member
  rw [valid.place?_eq otherSplit] at placed
  have startEqual := Option.some.inj placed
  have frontPrefix : before <+: layout.stored := ⟨_, split.symm⟩
  have otherPrefix : otherBefore <+: layout.stored := ⟨_, otherSplit.symm⟩
  -- The tiles in front of the two blocks are prefixes of one list, so one of
  -- them contains the other.
  rcases Nat.lt_or_ge before.length otherBefore.length with shorter | longer
  · have tilePrefix : before ++ [tile] <+: layout.stored := ⟨behind, by rw [split]; simp⟩
    obtain ⟨between, otherEqual⟩ :=
      List.prefix_of_prefix_length_le tilePrefix otherPrefix (by
        rw [List.length_append]
        exact shorter)
    rw [← otherEqual, blocksSize_append, blocksSize_append, blocksSize_cons, blocksSize_nil]
      at startEqual
    omega
  · obtain ⟨between, beforeEqual⟩ :=
      List.prefix_of_prefix_length_le otherPrefix frontPrefix longer
    rw [← beforeEqual, blocksSize_append] at later
    omega

end Layout
end Texture
end DeepShadow
