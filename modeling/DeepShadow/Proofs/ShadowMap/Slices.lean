import DeepShadow.Proofs.Cache.Source
import DeepShadow.Proofs.Texture.Loading

/-!
# Slices painted tile by tile

A slice of a map can be painted: all pixels are white at first, and then each tile that can
be loaded puts the colors of its pixels where they belong in the image.  The places are
computed in words, and a place behind the last pixel is not written.  Where tiles are well
formed and lie where the grid has them, this never goes wrong, and every pixel ends up with
the color that it has when it is asked for alone.
-/

namespace DeepShadow

/-! ## The pixels of an image -/

namespace Grid

variable {grid : Grid} {pixel other : Nat × Nat}

theorem HasRoom.reserve_eq (room : grid.HasRoom) : grid.reserve = .ok () := if_pos room

theorem reserve_eq_error (noRoom : ¬grid.HasRoom) : grid.reserve = .error .capacityOverflow :=
  if_neg noRoom

/-- A word counts the pixels of an image whose sides fit into half a word. -/
theorem area_lt
    (widthFits : grid.imageWidth < 2 ^ 32)
    (heightFits : grid.imageHeight < 2 ^ 32) :
    grid.imageWidth * grid.imageHeight < 2 ^ 64 :=
  calc grid.imageWidth * grid.imageHeight
      ≤ 2 ^ 32 * grid.imageHeight := Nat.mul_le_mul_right _ (Nat.le_of_lt widthFits)
    _ < 2 ^ 32 * 2 ^ 32 := (Nat.mul_lt_mul_left (by decide)).mpr heightFits

/-- The pixels of the image, row by row. -/
def pixels (grid : Grid) : List (Nat × Nat) :=
  Rectangle.pixels ⟨0, 0, grid.imageWidth, grid.imageHeight⟩

/-- The place of a pixel in the image. -/
def placeOf (grid : Grid) (pixel : Nat × Nat) : Nat := pixel.2 * grid.imageWidth + pixel.1

theorem mem_pixels :
    pixel ∈ grid.pixels ↔ pixel.1 < grid.imageWidth ∧ pixel.2 < grid.imageHeight := by
  unfold pixels
  rw [Rectangle.mem_pixels]
  simp [Rectangle.Covers]

theorem length_pixels (grid : Grid) :
    grid.pixels.length = grid.imageHeight * grid.imageWidth := by
  unfold pixels
  rw [Rectangle.length_pixels, Nat.mul_comm]
  rfl

theorem placeOf_lt (inside : pixel ∈ grid.pixels) :
    grid.placeOf pixel < grid.imageHeight * grid.imageWidth :=
  place_in_rows_lt (mem_pixels.mp inside).1 (mem_pixels.mp inside).2

/-- Different pixels have different places. -/
theorem placeOf_injective
    (inside : pixel ∈ grid.pixels)
    (otherInside : other ∈ grid.pixels)
    (same : grid.placeOf pixel = grid.placeOf other) :
    pixel = other := by
  obtain ⟨row_eq, column_eq⟩ :=
    place_eq_of_number_eq (mem_pixels.mp inside).1 (mem_pixels.mp otherInside).1 same
  exact Prod.ext column_eq row_eq

/-- The pixels of an image stand row by row. -/
theorem getElem?_pixels
    {x y : Nat}
    (insideX : x < grid.imageWidth)
    (insideY : y < grid.imageHeight) :
    grid.pixels[y * grid.imageWidth + x]? = some (x, y) :=
  Rectangle.getElem?_pixels ⟨⟨Nat.zero_le _, insideX⟩, Nat.zero_le _, insideY⟩

/-- Every place of the image is the place of the pixel that stands there in the list. -/
theorem exists_pixel
    {place : Nat}
    (inside : place < grid.imageHeight * grid.imageWidth) :
    ∃ pixel ∈ grid.pixels, grid.placeOf pixel = place ∧ grid.pixels[place]? = some pixel := by
  have inRow : place % grid.imageWidth < grid.imageWidth := Nat.mod_lt _ grid.imageWidth_pos
  have inColumn : place / grid.imageWidth < grid.imageHeight :=
    (Nat.div_lt_iff_lt_mul grid.imageWidth_pos).mpr inside
  have place_eq := Nat.div_add_mod' place grid.imageWidth
  have found := grid.getElem?_pixels inRow inColumn
  rw [place_eq] at found
  exact ⟨(_, _), mem_pixels.mpr ⟨inRow, inColumn⟩, place_eq, found⟩

end Grid

namespace TileSource

variable {ε : Type}

/-! ## Painting -/

/-- The place in the image of a pixel that is counted from the corner of a tile. -/
def checkedPlace (grid : Grid) (placement : Placement) (pixel : Nat × Nat) : Option Nat := do
  let row ← fitting 32 (placement.originY + pixel.2)
  let start ← fitting 64 (row * grid.imageWidth)
  let column ← fitting 32 (placement.originX + pixel.1)
  fitting 64 (start + column)

/-- Replaces a pixel; none behind the last one. -/
def writePixel (pixels : Array Color) (place : Nat) (color : Color) : Option (Array Color) :=
  if inside : place < pixels.size then some (pixels.set place color) else none

/-- Paints a pixel that is counted from the corner of its tile. -/
def paintPixel
    (grid : Grid)
    (tile : Tile)
    (depth : Single)
    (pixels : Array Color)
    (pixel : Nat × Nat) : Option (Array Color) := do
  let place ← checkedPlace grid tile.placement pixel
  let curve ← (tile.curve pixel.1 pixel.2).toOption
  let color ← (curve.visibilityAt depth).toOption
  writePixel pixels place color

/-- Paints the tile at a position, where it can be loaded. -/
def paintTile
    (source : TileSource ε)
    (depth : Single)
    (pixels : Array Color)
    (position : TilePosition) : Option (Array Color) :=
  match (source.load position).toOption with
  | some tile =>
      (Rectangle.pixels ⟨0, 0, tile.placement.width, tile.placement.height⟩).foldlM
        (paintPixel source.grid tile depth) pixels
  | none => some pixels

/-- Paints the pixels of the image, row by row. -/
def paintedSlice (source : TileSource ε) (depth : Single) : Option (Array Color) := do
  let count ← fitting 64 (source.grid.imageWidth * source.grid.imageHeight)
  source.grid.reserve.toOption
  source.grid.positions.foldlM (paintTile source depth) (Array.replicate count Color.white)

/-! ## What is painted so far -/

/-- Every pixel is white or has its color, and it has its color where it was painted. -/
structure Painting
    (grid : Grid)
    (colorOf : Nat × Nat -> Color)
    (done : Nat × Nat -> Prop)
    (pixels : Array Color) : Prop where
  size_eq : pixels.size = grid.imageHeight * grid.imageWidth
  each : ∀ pixel ∈ grid.pixels,
    pixels[grid.placeOf pixel]? = some (colorOf pixel) ∨
      ¬done pixel ∧ pixels[grid.placeOf pixel]? = some Color.white

variable {grid : Grid} {colorOf : Nat × Nat -> Color} {done : Nat × Nat -> Prop}
variable {pixels : Array Color}

theorem painting_replicate (grid : Grid) (colorOf : Nat × Nat -> Color) :
    Painting grid colorOf (fun _ => False)
      (Array.replicate (grid.imageHeight * grid.imageWidth) Color.white) where
  size_eq := Array.size_replicate
  each pixel inside := by
    rw [Array.getElem?_replicate, if_pos (Grid.placeOf_lt inside)]
    exact Or.inr ⟨not_false, rfl⟩

theorem Painting.mono
    {less : Nat × Nat -> Prop}
    (painting : Painting grid colorOf done pixels)
    (imp : ∀ pixel, less pixel -> done pixel) :
    Painting grid colorOf less pixels where
  size_eq := painting.size_eq
  each pixel inside :=
    (painting.each pixel inside).imp_right fun ⟨notDone, white⟩ =>
      ⟨fun isLess => notDone (imp pixel isLess), white⟩

/-- One more pixel is painted. -/
theorem Painting.write
    (painting : Painting grid colorOf done pixels)
    {pixel : Nat × Nat}
    (inside : pixel ∈ grid.pixels) :
    ∃ next, writePixel pixels (grid.placeOf pixel) (colorOf pixel) = some next ∧
      Painting grid colorOf (fun other => done other ∨ other = pixel) next := by
  have inPixels : grid.placeOf pixel < pixels.size := painting.size_eq ▸ Grid.placeOf_lt inside
  refine ⟨_, dif_pos inPixels, ?_, ?_⟩
  · rw [Array.size_set, painting.size_eq]
  · intro other otherInside
    by_cases same : other = pixel
    · subst same
      rw [Array.getElem?_set_self]
      exact Or.inl rfl
    · have differentPlace : grid.placeOf pixel ≠ grid.placeOf other := fun samePlace =>
        same (Grid.placeOf_injective inside otherInside samePlace).symm
      rw [Array.getElem?_set_ne inPixels differentPlace]
      refine (painting.each other otherInside).imp_right fun ⟨notDone, white⟩ => ⟨?_, white⟩
      exact fun isDone => isDone.elim notDone same

/-- What is painted step by step is painted in the end. -/
theorem Painting.foldlM
    {α : Type}
    {step : Array Color -> α -> Option (Array Color)}
    {covers : α -> Nat × Nat -> Prop}
    (values : List α)
    (each : ∀ value ∈ values, ∀ done pixels, Painting grid colorOf done pixels ->
      ∃ next, step pixels value = some next ∧
        Painting grid colorOf (fun pixel => done pixel ∨ covers value pixel) next)
    (painting : Painting grid colorOf done pixels) :
    ∃ last, values.foldlM step pixels = some last ∧
      Painting grid colorOf (fun pixel => done pixel ∨ ∃ value ∈ values, covers value pixel)
        last := by
  induction values generalizing done pixels with
  | nil =>
      refine ⟨pixels, rfl, painting.mono ?_⟩
      rintro pixel (isDone | ⟨_, member, _⟩)
      · exact isDone
      · cases member
  | cons first others inductionHypothesis =>
      obtain ⟨next, stepped, paintingNext⟩ := each first List.mem_cons_self done pixels painting
      obtain ⟨last, folded, paintingLast⟩ := inductionHypothesis
        (fun value member => each value (List.mem_cons_of_mem _ member)) paintingNext
      refine ⟨last, ?_, paintingLast.mono ?_⟩
      · rw [List.foldlM_cons, stepped]
        exact folded
      · rintro pixel (isDone | ⟨value, member, covered⟩)
        · exact Or.inl (Or.inl isDone)
        · rcases List.mem_cons.mp member with rfl | inOthers
          · exact Or.inl (Or.inr covered)
          · exact Or.inr ⟨value, inOthers, covered⟩

/-- An image with the color of every pixel is the list of these colors. -/
theorem Painting.eq_colors
    (painting : Painting grid colorOf done pixels)
    (white : ∀ pixel ∈ grid.pixels, ¬done pixel -> colorOf pixel = Color.white) :
    pixels = (grid.pixels.map colorOf).toArray := by
  apply Array.ext_getElem?
  intro place
  rcases Nat.lt_or_ge place (grid.imageHeight * grid.imageWidth) with inside | outside
  · obtain ⟨pixel, member, rfl, found⟩ := Grid.exists_pixel inside
    have color_eq : (grid.pixels.map colorOf).toArray[grid.placeOf pixel]? =
        some (colorOf pixel) := by
      rw [List.getElem?_toArray, List.getElem?_map, found]
      rfl
    rw [color_eq]
    rcases painting.each pixel member with painted | ⟨notDone, isWhite⟩
    · exact painted
    · rw [isWhite, white pixel member notDone]
  · have few : (grid.pixels.map colorOf).toArray.size ≤ place := by
      rw [List.size_toArray, List.length_map, Grid.length_pixels]
      exact outside
    rw [Array.getElem?_eq_none (painting.size_eq ▸ outside), Array.getElem?_eq_none few]

/-! ## Painting tiles -/

/-- Tiles are well formed and lie where the grid has them. -/
def Sound (source : TileSource ε) : Prop :=
  ∀ position tile, source.load position = .ok tile ->
    tile.WellFormed ∧ source.grid.placement position = .ok tile.placement

variable {source : TileSource ε} {position : TilePosition} {tile : Tile} {depth : Single}
variable {x y : Nat}

/-- A pixel of a tile that was loaded is a pixel of the image, and it is the tile's own. -/
theorem Sound.owns
    (sound : source.Sound)
    (loaded : source.load position = .ok tile)
    (contained : tile.placement.contains x y = true) :
    (x, y) ∈ source.grid.pixels ∧ source.tileForPixel x y = some tile := by
  obtain ⟨inside, placement_eq⟩ := Grid.placement_eq_ok_iff.mp (sound position tile loaded).2
  have bounds := Placement.mem_pixels.mp (Placement.contains_iff_mem_pixels.mp contained)
  obtain ⟨endX, endY⟩ := Grid.frame_inside inside
  rw [placement_eq] at bounds contained
  have insideX : x < source.grid.imageWidth := by omega
  have insideY : y < source.grid.imageHeight := by omega
  refine ⟨Grid.mem_pixels.mpr ⟨insideX, insideY⟩, ?_⟩
  unfold TileSource.tileForPixel
  rw [Grid.tileForPixel_eq_ok insideX insideY,
    ← (Grid.contains_frame_iff insideX insideY).mp contained]
  simp only [loaded]
  rfl

/-- A pixel of the image that lies in no tile that can be loaded is fully visible. -/
theorem Sound.white_of_uncovered
    (sound : source.Sound)
    (inside : (x, y) ∈ source.grid.pixels)
    (depth : Single)
    (uncovered : ∀ position tile, source.load position = .ok tile ->
      ¬tile.placement.contains x y = true) :
    source.visibilityAt x y depth = .ok Color.white := by
  obtain ⟨insideX, insideY⟩ := Grid.mem_pixels.mp inside
  unfold TileSource.visibilityAt TileSource.tileForPixel
  rw [Grid.tileForPixel_eq_ok insideX insideY]
  cases loaded : source.load (source.grid.owner x y) with
  | error error =>
      simp only [loaded]
      rfl
  | ok tile =>
      obtain ⟨-, placement_eq⟩ := Grid.placement_eq_ok_iff.mp (sound _ tile loaded).2
      refine absurd ?_ (uncovered _ tile loaded)
      rw [placement_eq]
      exact (Grid.contains_frame_iff insideX insideY).mpr rfl

section Slice

variable (sound : source.Sound)
variable (widthFits : source.grid.imageWidth < 2 ^ 32)
variable (heightFits : source.grid.imageHeight < 2 ^ 32)

include widthFits heightFits

/-- The place of a pixel fits into words. -/
theorem checkedPlace_eq
    {placement : Placement}
    (inside : (placement.originX + x, placement.originY + y) ∈ source.grid.pixels) :
    checkedPlace source.grid placement (x, y) =
      some (source.grid.placeOf (placement.originX + x, placement.originY + y)) := by
  obtain ⟨insideX, insideY⟩ := Grid.mem_pixels.mp inside
  have last : (placement.originY + y) * source.grid.imageWidth + (placement.originX + x) <
      2 ^ 64 :=
    calc (placement.originY + y) * source.grid.imageWidth + (placement.originX + x)
        < source.grid.imageHeight * source.grid.imageWidth := place_in_rows_lt insideX insideY
      _ ≤ 2 ^ 32 * 2 ^ 32 := Nat.mul_le_mul (Nat.le_of_lt heightFits) (Nat.le_of_lt widthFits)
  unfold checkedPlace
  rw [fitting_eq_some (Nat.lt_trans insideY heightFits),
    fitting_eq_some (Nat.lt_trans insideX widthFits)]
  simp only [Option.bind_eq_bind, Option.bind_some]
  rw [fitting_eq_some (Nat.lt_of_le_of_lt (Nat.le_add_right _ _) last), Option.bind_some]
  exact fitting_eq_some last

variable (known : ∀ pixel, source.visibilityAt pixel.1 pixel.2 depth = .ok (colorOf pixel))

include sound known

theorem Sound.paintPixel
    (loaded : source.load position = .ok tile)
    (insideX : x < tile.placement.width)
    (insideY : y < tile.placement.height)
    (painting : Painting source.grid colorOf done pixels) :
    ∃ next, TileSource.paintPixel source.grid tile depth pixels (x, y) = some next ∧
      Painting source.grid colorOf
        (fun pixel => done pixel ∨
          pixel = (tile.placement.originX + x, tile.placement.originY + y)) next := by
  have contained : tile.placement.contains (tile.placement.originX + x)
      (tile.placement.originY + y) = true := by
    rw [Placement.contains_iff_mem_pixels, Placement.mem_pixels]
    omega
  obtain ⟨inside, owner_eq⟩ := sound.owns loaded contained
  have curve_eq := (sound position tile loaded).1.curve_eq insideX insideY
  have found := Tile.curveAtPixel_of_curve contained
    (by rwa [Nat.add_sub_cancel_left, Nat.add_sub_cancel_left])
  have color_eq := known (tile.placement.originX + x, tile.placement.originY + y)
  unfold TileSource.visibilityAt at color_eq
  rw [owner_eq, visibilityIn, Tile.visibilityAt_of_curve found] at color_eq
  obtain ⟨next, written, paintingNext⟩ := painting.write inside
  refine ⟨next, ?_, paintingNext⟩
  unfold TileSource.paintPixel
  rw [checkedPlace_eq widthFits heightFits inside, curve_eq]
  simp only [Option.bind_eq_bind, Option.bind_some, Except.toOption, color_eq]
  exact written

theorem Sound.paintTile
    (position : TilePosition)
    (painting : Painting source.grid colorOf done pixels) :
    ∃ next, TileSource.paintTile source depth pixels position = some next ∧
      Painting source.grid colorOf
        (fun pixel => done pixel ∨ ∃ tile, source.load position = .ok tile ∧
          tile.placement.contains pixel.1 pixel.2 = true) next := by
  unfold TileSource.paintTile
  cases loaded : source.load position with
  | error error =>
      refine ⟨pixels, rfl, painting.mono ?_⟩
      rintro pixel (isDone | ⟨_, isLoaded, _⟩)
      · exact isDone
      · cases isLoaded
  | ok tile =>
      have each : ∀ pixel ∈ Rectangle.pixels ⟨0, 0, tile.placement.width, tile.placement.height⟩,
          ∀ done pixels, Painting source.grid colorOf done pixels ->
            ∃ next, TileSource.paintPixel source.grid tile depth pixels pixel = some next ∧
              Painting source.grid colorOf
                (fun other => done other ∨ other =
                  (tile.placement.originX + pixel.1, tile.placement.originY + pixel.2)) next := by
        rintro ⟨x, y⟩ member done pixels painting
        obtain ⟨⟨-, insideX⟩, -, insideY⟩ := Rectangle.mem_pixels.mp member
        exact sound.paintPixel widthFits heightFits known loaded insideX insideY painting
      obtain ⟨next, folded, paintingNext⟩ := painting.foldlM _ each
      refine ⟨next, folded, paintingNext.mono ?_⟩
      rintro ⟨x, y⟩ (isDone | ⟨_, isLoaded, contained⟩)
      · exact Or.inl isDone
      cases isLoaded
      have bounds := Placement.mem_pixels.mp (Placement.contains_iff_mem_pixels.mp contained)
      obtain ⟨insideX, insideY⟩ := Placement.sub_origin_lt contained
      refine Or.inr ⟨(x - tile.placement.originX, y - tile.placement.originY), ?_, ?_⟩
      · exact Rectangle.mem_pixels.mpr ⟨⟨Nat.zero_le _, insideX⟩, Nat.zero_le _, insideY⟩
      · rw [Nat.add_sub_cancel' bounds.1.1, Nat.add_sub_cancel' bounds.2.1]

/-- A slice that there is room for is painted to the end, and every pixel has the color that
it has alone. -/
theorem Sound.paintedSlice_eq (room : source.grid.HasRoom) :
    source.paintedSlice depth = some (source.grid.pixels.map colorOf).toArray := by
  have count : fitting 64 (source.grid.imageWidth * source.grid.imageHeight) =
      some (source.grid.imageHeight * source.grid.imageWidth) := by
    rw [fitting_eq_some (Grid.area_lt widthFits heightFits), Nat.mul_comm]
  obtain ⟨last, folded, painting⟩ := (painting_replicate source.grid colorOf).foldlM
    source.grid.positions fun position _ done pixels painting =>
      sound.paintTile widthFits heightFits known position painting
  unfold paintedSlice
  rw [count, Option.bind_eq_bind, Option.bind_some, room.reserve_eq]
  refine folded.trans ?_
  refine congrArg some (painting.eq_colors ?_)
  -- The tile of a pixel that was not painted could not be loaded.
  rintro ⟨x, y⟩ inside notDone
  have white := sound.white_of_uncovered inside depth fun position tile loaded contained =>
    notDone (Or.inr ⟨position, ?_, tile, loaded, contained⟩)
  · rw [known (x, y)] at white
    exact Except.ok.inj white
  · exact Grid.mem_positions.mpr (Grid.placement_eq_ok_iff.mp (sound position tile loaded).2).1

end Slice

end TileSource
end DeepShadow
