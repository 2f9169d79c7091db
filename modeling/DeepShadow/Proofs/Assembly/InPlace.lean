import DeepShadow.Proofs.Assembly.Workbench

/-!
# Assembling in place

The assembly as it changes in place: the tile of a region and the bucket in it are looked for,
and made where they are missing, before the rows of the bucket are looked at.  To a reader this
is the assembly that gives the next state at once.
-/

namespace DeepShadow
namespace Assembly

variable {State Summary : Type}

/-! ## Where a region belongs -/

namespace Assembler

variable {assembler : Assembler State Summary} {region : Region}

/-- The number and the place of the tile of a region, unless the region has to be refused
whatever has arrived of this tile. -/
def locate
    (assembler : Assembler State Summary)
    (region : Region) : Except RegionError (Fin assembler.grid.tileCount × Placement) := do
  assembler.check region
  assembler.findTile region

/-- A region that has a tile is put into it unless one of its rows is filled. -/
theorem fill_eq (assembler : Assembler State Summary) (region : Region) :
    assembler.fill region =
      match assembler.locate region with
      | .error error => .error error
      | .ok (index, placement) =>
          let tile := (assembler.pending.get index).getD
            (PendingTile.empty placement assembler.bucket)
          let row := region.bounds.top - placement.originY
          let column := (region.bounds.left - placement.originX) / assembler.bucket.width
          match tile.firstFilled? row region.bounds.height column with
          | some filled => .error (.rowFilled (placement.originY + filled))
          | none => .ok (index, tile.putAll row column (Strip.ofRegion region)) := by
  unfold fill find locate
  cases assembler.check region with
  | error error => rfl
  | ok _ =>
      simp only [bind, Except.bind]
      cases assembler.findTile region with
      | error error => rfl
      | ok pair =>
          simp only
          cases ((assembler.pending.get pair.1).getD
              (PendingTile.empty pair.2 assembler.bucket)).firstFilled?
              (region.bounds.top - pair.2.originY) region.bounds.height
              ((region.bounds.left - pair.2.originX) / assembler.bucket.width) with
          | some filled => rfl
          | none => rfl

/-- A region that has a tile consists of whole rows of a bucket of this tile. -/
theorem of_locate
    {index : Fin assembler.grid.tileCount}
    {placement : Placement}
    (located : assembler.locate region = .ok (index, placement)) :
    assembler.outline.Admits region.outline ∧ region.WellFormed ∧
      ∃ inside : assembler.grid.Contains (assembler.outline.tileOf region.outline),
        index = assembler.grid.indexOf _ inside ∧
        placement = assembler.grid.frame (assembler.outline.tileOf region.outline) := by
  unfold locate at located
  cases checked : assembler.check region with
  | error error =>
      rw [checked] at located
      cases located
  | ok _ =>
      obtain ⟨_, admits, wellFormed⟩ := of_check_eq_ok checked
      have inside : assembler.grid.Contains (assembler.outline.tileOf region.outline) :=
        admits.contains_tileOf
      have owner_eq : assembler.grid.tileForPixel region.bounds.left region.bounds.top =
          .ok (assembler.outline.tileOf region.outline) :=
        Grid.tileForPixel_eq_ok (Nat.lt_of_lt_of_le admits.left_lt admits.right_le)
          (Nat.lt_of_lt_of_le admits.top_lt admits.bottom_le)
      refine ⟨admits, wellFormed, inside, ?_⟩
      simp only [checked, bind, Except.bind, findTile, owner_eq, Except.mapError,
        Grid.index_eq_ok inside, Grid.placement_eq_ok inside] at located
      split at located
      · cases located
      · cases located
        exact ⟨rfl, rfl⟩

end Assembler

namespace Image

variable {image : Image} {region : Region}

/-- The bucket of a region starts in the tile of the region. -/
theorem Admits.origin_le_bucket (admits : image.Admits region) :
    (image.grid.frame (image.tileOf region)).originX ≤ image.bucket.leftOf region.bounds.left ∧
      (image.grid.frame (image.tileOf region)).originY ≤ image.bucket.topOf region.bounds.top := by
  have left_eq := admits.liesIn.left_eq
  have aligned := admits.left_eq
  obtain ⟨row, top_eq, _⟩ :=
    parts_nested image.grid.tileHeight_pos image.divides.2 region.bounds.top
  constructor
  · omega
  · simp only [Grid.frame, tileOf, Grid.owner, BucketSize.topOf]
    omega

/-- A region is as wide as its bucket. -/
theorem Admits.widthAt_eq (admits : image.Admits region) :
    image.bucket.widthAt image.grid (image.bucket.leftOf region.bounds.left) =
      region.bounds.width := by
  have left_eq := admits.left_eq
  have right_eq := admits.right_eq
  unfold BucketSize.widthAt Rectangle.width
  omega

/-- A region ends where its bucket ends, at the latest. -/
theorem Admits.le_heightAt (admits : image.Admits region) :
    OpenTile.firstOf image.bucket region + region.bounds.height ≤
      image.bucket.heightAt image.grid (image.bucket.topOf region.bounds.top) := by
  have top_lt := admits.top_lt
  have bottom_le := admits.bottom_le
  have sameRow := admits.sameRow
  have top_le := Nat.div_mul_le_self region.bounds.top image.bucket.height
  have lastRow := Nat.div_add_mod' (region.bounds.bottom - 1) image.bucket.height
  have lastRowBound := Nat.mod_lt (region.bounds.bottom - 1) image.bucket.height_pos
  unfold BucketSize.topOf at sameRow
  unfold OpenTile.firstOf BucketSize.heightAt Rectangle.height BucketSize.topOf
  omega

/-- The rows of a region are rows of the bucket with its corner. -/
theorem Admits.cell (admits : image.Admits region) :
    OpenTile.Cell image.bucket
      (OpenTile.cornerOf image.bucket (image.grid.frame (image.tileOf region)) region)
      (region.bounds.top - (image.grid.frame (image.tileOf region)).originY)
      (image.columnOf region) (OpenTile.firstOf image.bucket region) region.bounds.height := by
  have left_eq := admits.liesIn.left_eq
  have aligned := admits.left_eq
  have top_le := Nat.div_mul_le_self region.bounds.top image.bucket.height
  have fits := admits.le_heightAt
  obtain ⟨row, top_eq, _⟩ :=
    parts_nested image.grid.tileHeight_pos image.divides.2 region.bounds.top
  have corner_eq : image.bucket.topOf region.bounds.top -
      (image.grid.frame (image.tileOf region)).originY = row * image.bucket.height := by
    simp only [Grid.frame, tileOf, Grid.owner, BucketSize.topOf]
    omega
  have origin_le := admits.origin_le_bucket.2
  unfold OpenTile.cornerOf OpenTile.firstOf at *
  refine ⟨by omega, ?_, ?_⟩
  · unfold BucketSize.topOf at *
    omega
  intro other from_row lt_end
  have inRow : other / image.bucket.height = row := by
    unfold BucketSize.heightAt BucketSize.topOf at *
    apply Nat.div_eq_of_lt_le
    · omega
    · rw [Nat.succ_mul]
      omega
  rw [inRow]
  exact corner_eq.symm

end Image

/-- A region that has a tile consists of rows of a bucket of this tile. -/
theorem Assembler.receives_of_locate
    {assembler : Assembler State Summary}
    {region : Region}
    {index : Fin assembler.grid.tileCount}
    {placement : Placement}
    (located : assembler.locate region = .ok (index, placement)) :
    OpenTile.Receives assembler.bucket assembler.grid placement region := by
  obtain ⟨admits, wellFormed, _, _, rfl⟩ := of_locate located
  have lies : region.LiesIn assembler.bucket
      (assembler.grid.frame (assembler.outline.tileOf region.outline))
      (assembler.outline.columnOf region.outline) := { admits.liesIn with }
  have top_le := lies.top_le
  have bottom_le := lies.bottom_le
  have top_lt := lies.top_lt
  have origin_le := admits.origin_le_bucket
  exact
    { wellFormed
      originY_le := top_le
      left_eq := Nat.add_sub_of_le origin_le.1
      top_eq := Nat.add_sub_of_le origin_le.2
      cell := admits.cell
      rows_le := by
        unfold Rectangle.height
        omega
      column_lt := lies.column_lt
      width_eq := admits.widthAt_eq
      height_le := admits.le_heightAt }

/-! ## The assembly in place -/

/-- The state of an assembly that changes in place. -/
structure Workbench (grid : Grid) (State Summary : Type) where
  bucket : BucketSize
  divides : bucket.Divides grid
  channels : Nat
  tiles : TileMap grid (Option OpenTile)
  completed : TileSet grid
  sink : State
  summary : Option Summary

namespace Workbench

variable {grid : Grid} {bench : Workbench grid State Summary} {region : Region}

/-- What a reader sees of the assembly. -/
def view (bench : Workbench grid State Summary) : Assembler State Summary :=
  { grid
    bucket := bench.bucket
    divides := bench.divides
    channels := bench.channels
    pending := bench.tiles.map (Option.map (OpenTile.pending bench.bucket))
    completed := bench.completed
    sink := bench.sink
    summary := bench.summary }

@[simp] theorem bucket_view : bench.view.bucket = bench.bucket := rfl

@[simp] theorem sink_view : bench.view.sink = bench.sink := rfl

/-- The assembly of which nothing has arrived. -/
def start
    (grid : Grid)
    (bucketWidth bucketHeight channels : Nat)
    (sink : State) : Except Violation (Workbench grid State Summary) := do
  let bucket ← BucketSize.ofSides bucketWidth bucketHeight
  if divides : bucket.Divides grid then
    return {
      bucket, divides, channels, sink
      tiles := TileMap.constant grid none
      completed := TileSet.empty grid
      summary := none }
  else
    throw (.bucketsInTile grid.tileWidth grid.tileHeight bucketWidth bucketHeight)

/-- Puts a tile into its place. -/
def put
    (bench : Workbench grid State Summary)
    (index : Fin grid.tileCount)
    (tile : OpenTile) : Workbench grid State Summary :=
  { bench with tiles := bench.tiles.set index (some tile) }

/-- Puts the rows of a region into the tile that owns them.  The tile and the bucket are made
where they are missing, and then the region may still have to be refused because of the rows
that are in the bucket. -/
def place
    (bench : Workbench grid State Summary)
    (region : Region) :
    Except Violation
      (Except RegionError (Fin grid.tileCount × OpenTile) × Workbench grid State Summary) :=
  match bench.view.locate region with
  | .error error => .ok (.error error, bench)
  | .ok (index, placement) =>
      let left := bench.bucket.leftOf region.bounds.left
      let top := bench.bucket.topOf region.bounds.top
      let corner := (left - placement.originX, top - placement.originY)
      let tile := (bench.tiles.get index).getD (OpenTile.empty placement)
      let bench := bench.put index tile
      let bucket := (tile.buckets corner).getD
        (OpenBucket.empty (bench.bucket.widthAt grid left) (bench.bucket.heightAt grid top))
      let tile := tile.set corner bucket
      let bench := bench.put index tile
      let first := region.bounds.top - top
      let count := region.bounds.height
      if bucket.rows.length < first + count then .error .outOfBounds
      else
        match bucket.firstFilled? first count with
        | some offset => .ok (.error (.rowFilled (region.bounds.top + offset)), bench)
        | none =>
            let tile := tile.set corner (bucket.putAll first (bucket.strips region))
            let tile := tile.add region.bounds.pixelCount
            .ok (.ok (index, tile), bench.put index tile)

/-- Finishes the sink. -/
def finishSink
    (sink : Sink State Summary)
    (bench : Workbench grid State Summary) : Except Error Unit × Workbench grid State Summary :=
  match (sink.finish bench.sink).value with
  | (.error error, state) => (.error (.write error), { bench with sink := state })
  | (.ok summary, state) =>
      let bench := { bench with sink := state }
      (.ok (), { bench with summary := some summary })

/-- Hands a tile to the sink, and finishes the sink where the tile is the last one. -/
def emit
    (sink : Sink State Summary)
    (bench : Workbench grid State Summary)
    (tile : AssembledTile) : Except Error Unit × Workbench grid State Summary :=
  match (sink.accept bench.sink tile).value with
  | (.error error, state) => (.error (.write error), { bench with sink := state })
  | (.ok (), state) =>
      let bench := { bench with sink := state }
      if bench.completed.isFull then bench.finishSink sink else (.ok (), bench)

/-- Takes a tile of which everything has arrived out of its place. -/
def complete
    (bench : Workbench grid State Summary)
    (index : Fin grid.tileCount) : Workbench grid State Summary :=
  { bench with
    tiles := bench.tiles.set index none
    completed := bench.completed.add index }

/-- Takes a region. -/
def submit
    (sink : Sink State Summary)
    (bench : Workbench grid State Summary)
    (region : Region) :
    Except Violation (Except Error Unit × Workbench grid State Summary) :=
  match bench.place region with
  | .error violation => .error violation
  | .ok (.error error, bench) => .ok (.error (.region error), bench)
  | .ok (.ok (index, tile), bench) =>
      if tile.filled = tile.placement.pixelCount then
        let bench := bench.complete index
        match (tile.pending bench.bucket).assemble bench.channels with
        | .error violation => .error violation
        | .ok assembled => .ok (bench.emit sink assembled)
      else .ok (.ok (), bench)

/-- Finishes the sink although tiles may be missing. -/
def close
    (sink : Sink State Summary)
    (bench : Workbench grid State Summary) : Except Error Unit × Workbench grid State Summary :=
  if bench.summary.isSome then (.ok (), bench)
  else
    let bench := { bench with tiles := TileMap.constant grid none }
    bench.finishSink sink

/-! ## Refused regions -/

@[simp] theorem put_put
    (bench : Workbench grid State Summary)
    (index : Fin grid.tileCount)
    (first second : OpenTile) :
    (bench.put index first).put index second = bench.put index second := by
  unfold put
  simp only [TileMap.set_set]

/-- A tile that is in its place already can be put there again. -/
theorem put_of_eq
    {index : Fin grid.tileCount}
    {tile : OpenTile}
    (isThere : bench.tiles.get index = some tile) :
    bench.put index tile = bench := by
  unfold put
  rw [← isThere, TileMap.set_get]

/-- The tile of a region, which is made where it is missing. -/
def tileAt
    (bench : Workbench grid State Summary)
    (index : Fin grid.tileCount)
    (placement : Placement) : OpenTile :=
  (bench.tiles.get index).getD (OpenTile.empty placement)

variable {index : Fin grid.tileCount} {placement : Placement}

/-- What becomes of a region that has a tile. -/
theorem place_of_located
    (located : bench.view.locate region = .ok (index, placement)) :
    let tile := bench.tileAt index placement
    let bucket := tile.bucketFor bench.bucket grid placement region
    let filled := tile.fillWith bench.bucket grid placement region
    bench.place region =
      if bucket.rows.length < OpenTile.firstOf bench.bucket region + region.bounds.height then
        .error .outOfBounds
      else
        match bucket.firstFilled? (OpenTile.firstOf bench.bucket region) region.bounds.height with
        | some offset => .ok (.error (.rowFilled (region.bounds.top + offset)),
            bench.put index (tile.openFor bench.bucket grid placement region))
        | none => .ok (.ok (index, filled), bench.put index filled) := by
  unfold place
  rw [located]
  simp only [put_put, OpenTile.set_set]
  rfl

/-- Nothing is made for a region of which a row is filled. -/
theorem put_openFor_of_firstFilled?
    {first count offset : Nat}
    (found : ((bench.tileAt index placement).bucketFor bench.bucket grid placement
      region).firstFilled? first count = some offset) :
    bench.put index ((bench.tileAt index placement).openFor bench.bucket grid placement region) =
      bench := by
  have hasBucket := OpenTile.of_firstFilled? found
  unfold OpenTile.openFor
  rw [OpenTile.set_of_eq hasBucket]
  cases hasTile : bench.tiles.get index with
  | none =>
      unfold tileAt at hasBucket
      rw [hasTile] at hasBucket
      cases hasBucket
  | some tile =>
      unfold tileAt
      rw [hasTile, Option.getD_some]
      exact put_of_eq hasTile

/-- A region that is refused leaves no tile, no bucket and no row behind. -/
theorem eq_of_place_error
    {error : RegionError}
    {next : Workbench grid State Summary}
    (placed : bench.place region = .ok (.error error, next)) :
    next = bench := by
  cases located : bench.view.locate region with
  | error other =>
      unfold place at placed
      rw [located] at placed
      cases placed
      rfl
  | ok pair =>
      rw [place_of_located located] at placed
      split at placed
      · cases placed
      · split at placed
        next found =>
          cases placed
          exact put_openFor_of_firstFilled? found
        next => cases placed

/-! ## What a reader sees -/

/-- All open tiles have their places and sizes in the image. -/
def Sound (bench : Workbench grid State Summary) : Prop :=
  ∀ position (inside : grid.Contains position) tile,
    bench.tiles.get (grid.indexOf position inside) = some tile ->
      tile.placement = grid.frame position ∧ tile.Fits bench.bucket grid

theorem Sound.put
    (sound : bench.Sound)
    {position : TilePosition}
    (inside : grid.Contains position)
    {tile : OpenTile}
    (placement_eq : tile.placement = grid.frame position)
    (fits : tile.Fits bench.bucket grid) :
    (bench.put (grid.indexOf position inside) tile).Sound := by
  intro other otherInside otherTile found
  unfold Workbench.put at found
  by_cases same : grid.indexOf position inside = grid.indexOf other otherInside
  · obtain rfl := Grid.indexOf_injective inside otherInside same
    rw [TileMap.get_set_self] at found
    cases found
    exact ⟨placement_eq, fits⟩
  · rw [TileMap.get_set_of_ne _ same] at found
    exact sound other otherInside otherTile found

theorem Sound.tileAt
    (sound : bench.Sound)
    {position : TilePosition}
    (inside : grid.Contains position) :
    (bench.tileAt (grid.indexOf position inside) (grid.frame position)).placement =
        grid.frame position ∧
      (bench.tileAt (grid.indexOf position inside) (grid.frame position)).Fits bench.bucket
        grid := by
  unfold Workbench.tileAt
  cases found : bench.tiles.get (grid.indexOf position inside) with
  | none => exact ⟨rfl, OpenTile.fits_empty bench.bucket grid _⟩
  | some tile => exact sound position inside tile found

/-- A reader sees the tile of a region as it is looked for. -/
theorem pending_tileAt
    (bench : Workbench grid State Summary)
    (index : Fin grid.tileCount)
    (placement : Placement) :
    (bench.view.pending.get index).getD (PendingTile.empty placement bench.bucket) =
      (bench.tileAt index placement).pending bench.bucket := by
  have seen : bench.view.pending.get index =
      (bench.tiles.get index).map (OpenTile.pending bench.bucket) := TileMap.get_map _ _ _
  unfold tileAt
  rw [seen]
  cases bench.tiles.get index with
  | none => exact (OpenTile.pending_empty bench.bucket placement).symm
  | some tile => rfl

/-- A region that has a tile consists of rows of a bucket of this tile, and the tile can be put
back. -/
theorem Sound.of_located
    (sound : bench.Sound)
    {index : Fin grid.tileCount}
    {placement : Placement}
    (located : bench.view.locate region = .ok (index, placement)) :
    (bench.tileAt index placement).placement = placement ∧
      (bench.tileAt index placement).Fits bench.bucket grid ∧
      OpenTile.Receives bench.bucket grid placement region ∧
      ∀ tile : OpenTile, tile.placement = placement -> tile.Fits bench.bucket grid ->
        (bench.put index tile).Sound := by
  have receives := Assembler.receives_of_locate located
  obtain ⟨_, _, inside, rfl, rfl⟩ := Assembler.of_locate located
  obtain ⟨placement_eq, fits⟩ := sound.tileAt inside
  exact ⟨placement_eq, fits, receives, fun _ => sound.put inside⟩

/-- A region is refused or put into its tile as a reader sees it, whatever is made for it
before this is known. -/
theorem Sound.place_eq (sound : bench.Sound) (region : Region) :
    match bench.view.fill region with
    | .error error => bench.place region = .ok (.error error, bench)
    | .ok (index, pending) => ∃ tile,
        bench.place region = .ok (.ok (index, tile), bench.put index tile) ∧
          tile.pending bench.bucket = pending ∧ (bench.put index tile).Sound := by
  rw [Assembler.fill_eq]
  cases located : bench.view.locate region with
  | error error =>
      unfold place
      rw [located]
  | ok pair =>
      obtain ⟨index, placement⟩ := pair
      obtain ⟨placement_eq, fits, receives, putBack⟩ := sound.of_located located
      have placed := place_of_located located
      have seen := pending_tileAt bench index placement
      change Fin grid.tileCount at index
      -- Whether the tile was there or was made for the region does not matter any more.
      generalize bench.tileAt index placement = tile at *
      obtain rfl := placement_eq
      have room := receives.room fits
      have firstFilled := receives.firstFilled?_eq
      simp only [bucket_view] at placed ⊢
      rw [if_neg (by omega)] at placed
      rw [seen]
      cases found : (tile.bucketFor bench.bucket grid tile.placement region).firstFilled?
          (OpenTile.firstOf bench.bucket region) region.bounds.height with
      | some offset =>
          rw [found] at firstFilled placed
          obtain ⟨row, rowFound, row_eq⟩ := Option.map_eq_some_iff.mp firstFilled
          rw [rowFound]
          simp only
          rw [row_eq, placed, eq_of_place_error placed]
      | none =>
          rw [found] at firstFilled placed
          rw [Option.map_eq_none_iff.mp firstFilled]
          exact ⟨_, placed, receives.pending_fillWith fits,
            putBack _ rfl (receives.fits_fillWith fits)⟩

end Workbench

end Assembly
end DeepShadow
