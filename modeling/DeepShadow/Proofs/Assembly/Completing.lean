import DeepShadow.Proofs.Assembly.FullTiles

/-!
# Completing tiles

A tile is completed when the number of its pixels says that it is full.  It is then taken out
of its place, where it has to be, and put together from its rows, none of which may be
missing.  As the number is that of all pixels only where every row of every bucket has
arrived, nothing is missing, whatever was called before.
-/

namespace DeepShadow
namespace Assembly

/-- A region that has a tile has passed the checks. -/
theorem Assembler.check_of_locate
    {State Summary : Type}
    {assembler : Assembler State Summary}
    {region : Region}
    {located : Fin assembler.grid.tileCount × Placement}
    (isLocated : assembler.locate region = .ok located) :
    assembler.check region = .ok () := by
  unfold locate at isLocated
  cases checked : assembler.check region with
  | error error =>
      rw [checked] at isLocated
      cases isLocated
  | ok _ => rfl

namespace Workbench

variable {State Summary : Type} {grid : Grid}

/-- Completes a tile: takes it out of its place, looks up its rows and hands it to the
sink. -/
def completeOrPanic
    (sink : Sink State Summary)
    (bench : Workbench grid State Summary)
    (index : Fin grid.tileCount)
    (position : TilePosition) :
    Except Panic (Except Error Unit × Workbench grid State Summary) :=
  match bench.tiles.get index with
  | none => .error (.notPending position)
  | some tile =>
      match tile.assemble bench.bucket bench.channels with
      | .error panic => .error panic
      | .ok assembled => .ok ((bench.complete index).emit sink assembled)

/-- Takes a region, where a full tile is looked for in its place and its rows in its
buckets. -/
def submitOrPanic
    (sink : Sink State Summary)
    (bench : Workbench grid State Summary)
    (region : Region) :
    Except Panic (Except Error Unit × Workbench grid State Summary) :=
  match bench.place region with
  | .error violation => .error (.violation violation)
  | .ok (.error error, bench) => .ok (.error (.region error), bench)
  | .ok (.ok (index, tile), bench) =>
      if tile.filled = tile.placement.pixelCount then
        bench.completeOrPanic sink index tile.placement.position
      else .ok (.ok (), bench)

/-- The open tiles of an assembly are accounted for, and their rows hold runs. -/
structure InOrder
    (size : BucketSize)
    (channels : Nat)
    (bench : Workbench grid State Summary) : Prop where
  bucket_eq : bench.bucket = size
  channels_eq : bench.channels = channels
  sound : bench.Sound
  accounted : ∀ index tile, bench.tiles.get index = some tile -> tile.Accounted size
  stocked : supportedChannels channels = true ->
    ∀ index tile, bench.tiles.get index = some tile -> tile.Stocked channels

variable {bench next : Workbench grid State Summary} {size : BucketSize} {channels : Nat}
  {region : Region} {sink : Sink State Summary} {index : Fin grid.tileCount} {tile : OpenTile}

theorem HasTilesOf.inOrder
    (hasTiles : next.HasTilesOf bench)
    (inOrder : bench.InOrder size channels) :
    next.InOrder size channels where
  bucket_eq := hasTiles.bucket_eq.trans inOrder.bucket_eq
  channels_eq := hasTiles.channels_eq.trans inOrder.channels_eq
  sound := hasTiles.sound inOrder.sound
  accounted index tile found := inOrder.accounted index tile (hasTiles.isThere index tile found)
  stocked supported index tile found :=
    inOrder.stocked supported index tile (hasTiles.isThere index tile found)

/-- The tile of a region is in order, also where it is made for it. -/
theorem InOrder.tileAt
    (inOrder : bench.InOrder size channels)
    (index : Fin grid.tileCount)
    (placement : Placement) :
    (bench.tileAt index placement).Accounted size ∧
      (supportedChannels channels = true ->
        (bench.tileAt index placement).Stocked channels) := by
  unfold Workbench.tileAt
  cases found : bench.tiles.get index with
  | none =>
      exact ⟨OpenTile.accounted_empty size placement,
        fun _ => OpenTile.stocked_empty channels placement⟩
  | some tile =>
      exact ⟨inOrder.accounted index tile found,
        fun supported => inOrder.stocked supported index tile found⟩

/-- A tile is put into its place. -/
theorem InOrder.put
    (inOrder : bench.InOrder size channels)
    (sound : (bench.put index tile).Sound)
    (accounted : tile.Accounted size)
    (stocked : supportedChannels channels = true -> tile.Stocked channels) :
    (bench.put index tile).InOrder size channels := by
  have isThere : ∀ other there, (bench.put index tile).tiles.get other = some there ->
      there = tile ∨ bench.tiles.get other = some there := by
    intro other there found
    unfold Workbench.put at found
    by_cases same : index = other
    · rw [same, TileMap.get_set_self] at found
      exact Or.inl (Option.some.inj found).symm
    · rw [TileMap.get_set_of_ne _ same] at found
      exact Or.inr found
  refine ⟨inOrder.bucket_eq, inOrder.channels_eq, sound, ?_, ?_⟩
  · intro other there found
    rcases isThere other there found with rfl | before
    · exact accounted
    · exact inOrder.accounted other there before
  · intro supported other there found
    rcases isThere other there found with rfl | before
    · exact stocked supported
    · exact inOrder.stocked supported other there before

/-- A region that is put into its tile leaves the assembly in order, with the tile in its
place. -/
theorem InOrder.of_place
    (inOrder : bench.InOrder size channels)
    (placed : bench.place region = .ok (.ok (index, tile), next)) :
    next.tiles.get index = some tile ∧ next.InOrder size channels := by
  cases located : bench.view.locate region with
  | error error =>
      unfold place at placed
      rw [located] at placed
      cases placed
  | ok pair =>
      obtain ⟨other, placement⟩ := pair
      obtain ⟨placement_eq, fits, receives, putBack⟩ := inOrder.sound.of_located located
      obtain ⟨admits, _, inside, _, isFrame⟩ := Assembler.of_locate located
      have sameChannels : region.channels = bench.channels :=
        (Image.check_passes_iff.mp (Assembler.check_of_locate located)).2.1.1
      have nonempty : 0 < region.bounds.height := Nat.sub_pos_of_lt admits.top_lt
      obtain ⟨accounted, stocked⟩ := inOrder.tileAt other placement
      rw [place_of_located located] at placed
      split at placed
      next => cases placed
      next =>
        split at placed
        next => cases placed
        next isFree =>
          cases placed
          change Fin grid.tileCount at index
          generalize bench.tileAt index placement = before at *
          obtain rfl := placement_eq
          have divides := bench.divides
          rw [inOrder.bucket_eq] at fits receives putBack isFree divides ⊢
          rw [inOrder.channels_eq] at sameChannels
          have fitsFilled := receives.fits_fillWith fits
          refine ⟨TileMap.get_set_self _ _ _, inOrder.put (putBack _ rfl fitsFilled) ?_ ?_⟩
          · exact receives.accounted_fillWith fits nonempty divides isFrame accounted isFree
          · rw [← sameChannels] at stocked ⊢
            exact fun supported => receives.stocked_fillWith fits supported (stocked supported)

variable {answer : Except Error Unit}

theorem InOrder.calledBy
    {call : Call}
    (inOrder : bench.InOrder size channels)
    (performed : calledBy (submit sink) (close sink) bench call = .ok (answer, next)) :
    next.InOrder size channels := by
  cases call with
  | submit region =>
      rcases submit_cases performed with ⟨_, rfl⟩ | ⟨_, located, placed, isPlaced, hasTiles⟩
      · exact inOrder
      · exact hasTiles.inOrder (inOrder.of_place isPlaced).2
  | close =>
      have closed : bench.close sink = (answer, next) := Except.ok.inj performed
      have hasTiles := (close_frame sink bench).2
      rw [closed] at hasTiles
      exact hasTiles.inOrder inOrder

/-- A reader sees what calls do in place, and the assembly stays in order. -/
theorem sees_called_inOrder (sink : Sink State Summary) :
    Behavior.Sees (Except.map view)
      (fun state => ∀ bench : Workbench grid State Summary, state = .ok bench ->
        bench.InOrder size channels)
      (called sink) (Assembler.called sink) := by
  apply Behavior.sees_stopping
  · exact fun bench call answer next inOrder performed => inOrder.calledBy performed
  · exact fun bench call inOrder => inOrder.sound.calledBy_view sink call

/-- An assembly is in order when it starts. -/
theorem start_inOrder
    {bucketWidth bucketHeight : Nat}
    {state : State}
    (started : start grid bucketWidth bucketHeight channels state = .ok bench) :
    ∃ size, BucketSize.ofSides bucketWidth bucketHeight = .ok size ∧
      bench.InOrder size channels := by
  have sound := (start_view started).2
  unfold start at started
  cases sized : BucketSize.ofSides bucketWidth bucketHeight with
  | error violation =>
      rw [sized] at started
      cases started
  | ok size =>
      rw [sized] at started
      simp only [bind, Except.bind] at started
      split at started
      next =>
        cases started
        have isEmpty : ∀ index tile,
            (TileMap.constant grid (none : Option OpenTile)).get index ≠ some tile := by
          intro index tile found
          rw [TileMap.get_constant] at found
          cases found
        exact ⟨size, rfl, rfl, rfl, sound,
          fun index tile found => absurd found (isEmpty index tile),
          fun _ index tile found => absurd found (isEmpty index tile)⟩
      next => cases started

/-! ## What cannot happen -/

/-- The tile of a region is in its place, and it is full where the number of its pixels
says so. -/
theorem InOrder.accounted_of_place
    (inOrder : bench.InOrder size channels)
    (placed : bench.place region = .ok (.ok (index, tile), next)) :
    next.tiles.get index = some tile ∧ tile.Accounted size ∧
      (tile.filled = tile.placement.pixelCount ↔ tile.IsFull size) := by
  obtain ⟨isThere, nextInOrder⟩ := inOrder.of_place placed
  have accounted := nextInOrder.accounted index tile isThere
  exact ⟨isThere, accounted, accounted.filled_eq_iff⟩

/-- A tile that counts as full is in its place, and all of its rows are there. -/
theorem InOrder.submitOrPanic_eq
    (inOrder : bench.InOrder size channels)
    (sink : Sink State Summary)
    (region : Region) :
    bench.submitOrPanic sink region = (bench.submit sink region).mapError .violation := by
  unfold submitOrPanic Workbench.submit
  cases placed : bench.place region with
  | error violation => rfl
  | ok pair =>
      obtain ⟨error | ⟨index, tile⟩, next⟩ := pair
      · rfl
      obtain ⟨isThere, _, counted_iff⟩ := inOrder.accounted_of_place placed
      simp only
      split
      next counted =>
        have full := counted_iff.mp counted
        rw [← (inOrder.of_place placed).2.bucket_eq] at full
        have made_eq : (tile.pending (next.complete index).bucket).assemble
            (next.complete index).channels =
              (tile.pending next.bucket).assemble next.channels := rfl
        unfold completeOrPanic
        rw [isThere, made_eq]
        simp only
        rw [full.assemble_eq]
        cases (tile.pending next.bucket).assemble next.channels with
        | error violation => rfl
        | ok assembled => rfl
      next => rfl

/-- A region is answered where there are one or three channels and a word can count the nodes
of its tile. -/
theorem InOrder.exists_submit
    (inOrder : bench.InOrder size channels)
    (supported : supportedChannels channels = true)
    (countable : ∀ index tile placed, bench.place region = .ok (.ok (index, tile), placed) ->
      tile.nodeTotal size < 0x100000000)
    (sink : Sink State Summary) :
    ∃ answer next, bench.submit sink region = .ok (answer, next) := by
  have place_eq := inOrder.sound.place_eq region
  unfold Workbench.submit
  cases filled : bench.view.fill region with
  | error error =>
      rw [filled] at place_eq
      rw [place_eq]
      exact ⟨_, _, rfl⟩
  | ok pair =>
      obtain ⟨index, pending⟩ := pair
      rw [filled] at place_eq
      obtain ⟨tile, placed, _⟩ := place_eq
      obtain ⟨isThere, accounted, counted_iff⟩ := inOrder.accounted_of_place placed
      obtain ⟨_, nextInOrder⟩ := inOrder.of_place placed
      rw [placed]
      generalize bench.put index tile = next at *
      simp only
      split
      next counted =>
        obtain ⟨assembled, made⟩ := (counted_iff.mp counted).exists_assembled accounted supported
          (nextInOrder.stocked supported _ tile isThere) (countable _ tile _ placed)
        rw [← nextInOrder.bucket_eq, ← nextInOrder.channels_eq] at made
        have made_eq : (tile.pending (next.complete index).bucket).assemble
            (next.complete index).channels =
              (tile.pending next.bucket).assemble next.channels := rfl
        rw [made_eq, made]
        exact ⟨_, _, rfl⟩
      next => exact ⟨_, _, rfl⟩

/-- Each tile that is open has its place in the image, is accounted for, and counts as full
exactly where every row of every bucket has arrived. -/
def Accounts (size : BucketSize) (bench : Workbench grid State Summary) : Prop :=
  ∀ position (inside : grid.Contains position) tile,
    bench.tiles.get (grid.indexOf position inside) = some tile ->
      tile.placement = grid.frame position ∧ tile.Accounted size ∧
        (tile.filled = tile.placement.pixelCount ↔ tile.IsFull size)

theorem InOrder.accounts (inOrder : bench.InOrder size channels) : bench.Accounts size := by
  intro position inside tile isThere
  have accounted := inOrder.accounted _ tile isThere
  exact ⟨(inOrder.sound position inside tile isThere).1, accounted, accounted.filled_eq_iff⟩

end Workbench

/-- A full count means a full tile.  However an assembly is called after its start, each tile
that is open has buckets that start at whole buckets in it and are reduced at its edges, keeps
the number of pixels that is the sum of the rows in them, and has this number at that of all
its pixels exactly where every row of every bucket is there; this also holds of the tile that
has just received a region.  So the tile that is completed is always in its place, with all of
its rows, and the only way to stop in the middle of a region is a broken contract.  With one or
three channels, and as long as a word can count the nodes of the tile, there is none. -/
theorem full_count_means_full_tile
    {State Summary : Type}
    {sink : Sink State Summary}
    {grid : Grid}
    {bucketWidth bucketHeight channels : Nat}
    {state : State}
    {started : Workbench grid State Summary}
    (isStarted : Workbench.start grid bucketWidth bucketHeight channels state = .ok started)
    (calls : List Call) :
    let after := (Workbench.called sink).run (.ok started) calls
    ∃ size, BucketSize.ofSides bucketWidth bucketHeight = .ok size ∧
      Assembler.start grid bucketWidth bucketHeight channels state = .ok started.view ∧
      (Assembler.called sink).run (.ok started.view) calls =
        (after.1, after.2.map Workbench.view) ∧
      ∀ bench, after.2 = .ok bench ->
        bench.Accounts size ∧
        ∀ region,
          (∀ index tile placed, bench.place region = .ok (.ok (index, tile), placed) ->
            placed.tiles.get index = some tile ∧ placed.Accounts size) ∧
          bench.submitOrPanic sink region = (bench.submit sink region).mapError .violation ∧
          (supportedChannels channels = true ->
            (∀ index tile placed, bench.place region = .ok (.ok (index, tile), placed) ->
              tile.nodeTotal size < 0x100000000) ->
            ∃ answer next, bench.submitOrPanic sink region = .ok (answer, next)) := by
  obtain ⟨size, isSize, inOrder⟩ := Workbench.start_inOrder isStarted
  have startInOrder : ∀ bench, (.ok started : Except Violation _) = .ok bench ->
      bench.InOrder size channels := by
    rintro bench ⟨⟩
    exact inOrder
  obtain ⟨seen, afterInOrder⟩ :=
    (Workbench.sees_called_inOrder sink).run startInOrder calls
  refine ⟨size, isSize, (Workbench.start_view isStarted).1, seen, fun bench reached => ?_⟩
  have benchInOrder := afterInOrder bench reached
  refine ⟨benchInOrder.accounts, fun region => ⟨?_, benchInOrder.submitOrPanic_eq sink region, ?_⟩⟩
  · intro index tile placed isPlaced
    obtain ⟨isThere, placedInOrder⟩ := benchInOrder.of_place isPlaced
    exact ⟨isThere, placedInOrder.accounts⟩
  · intro supported countable
    obtain ⟨answer, next, submitted⟩ := benchInOrder.exists_submit supported countable sink
    refine ⟨answer, next, ?_⟩
    rw [benchInOrder.submitOrPanic_eq, submitted]
    rfl

/-- Whether a region is put into a tile that then counts as full, with so many nodes. -/
def Workbench.completes
    {State Summary : Type}
    {grid : Grid}
    (bench : Workbench grid State Summary)
    (region : Region)
    (nodes : Nat) : Bool :=
  match bench.place region with
  | .ok (.ok (_, tile), _) =>
      tile.filled == tile.placement.pixelCount && tile.nodeTotal bench.bucket == nodes
  | _ => false

theorem Workbench.of_completes
    {State Summary : Type}
    {grid : Grid}
    {bench : Workbench grid State Summary}
    {region : Region}
    {nodes : Nat}
    (holds : bench.completes region nodes = true) :
    ∃ index tile placed, bench.place region = .ok (.ok (index, tile), placed) ∧
      tile.filled = tile.placement.pixelCount ∧ tile.nodeTotal bench.bucket = nodes := by
  unfold completes at holds
  split at holds
  next index tile placed isPlaced =>
    rw [Bool.and_eq_true, beq_iff_eq, beq_iff_eq] at holds
    exact ⟨index, tile, placed, isPlaced, holds⟩
  next => cases holds

/-- The row that completes the first of four tiles. -/
def FourTiles.lastRow : Region := .unoccluded ⟨0, 0, 2, 1⟩ 1

open FourTiles in
/-- The second row of the first tile has arrived before the first one, which completes the
tile. -/
theorem full_count_means_full_tile_fourTiles :
    ∃ started bench : Workbench image.grid Recording Nat,
      Workbench.start image.grid 2 2 1 Recording.empty = .ok started ∧
      ((Workbench.called recorder).run (.ok started) calls).2 = .ok bench ∧
      (∃ index tile placed, bench.place lastRow = .ok (.ok (index, tile), placed) ∧
        tile.filled = tile.placement.pixelCount ∧ tile.IsFull image.bucket) ∧
      ∃ answer next, bench.submitOrPanic recorder lastRow = .ok (answer, next) := by
  obtain ⟨started, isStarted⟩ : ∃ started : Workbench image.grid Recording Nat,
      Workbench.start image.grid 2 2 1 Recording.empty = .ok started := ⟨_, rfl⟩
  obtain ⟨bench, reached, bucket_eq, holds⟩ : ∃ bench,
      ((Workbench.called recorder).run (.ok started) calls).2 = .ok bench ∧
        bench.bucket = image.bucket ∧ bench.completes lastRow 4 = true := by
    cases isStarted
    exact ⟨_, rfl, rfl, by decide +kernel⟩
  obtain ⟨index, tile, placed, isPlaced, counted, nodes_eq⟩ := Workbench.of_completes holds
  obtain ⟨size, isSize, _, _, always⟩ :=
    @full_count_means_full_tile _ _ recorder _ _ _ _ _ _ isStarted calls
  obtain rfl : image.bucket = size := Except.ok.inj isSize
  obtain ⟨inTile, _, succeeds⟩ := (always bench reached).2 lastRow
  obtain ⟨isThere, accounts⟩ := inTile index tile placed isPlaced
  refine ⟨started, bench, isStarted, reached, ⟨index, tile, placed, isPlaced, counted, ?_⟩, ?_⟩
  · obtain ⟨position, inside, rfl⟩ := image.grid.exists_indexOf_eq index
    exact (accounts position inside tile isThere).2.2.mp counted
  · apply succeeds supportedChannels_one
    intro otherIndex otherTile otherPlaced isOther
    cases isPlaced.symm.trans isOther
    rw [← bucket_eq, nodes_eq]
    decide

/-- With two channels, which nothing refuses before, a single region fills its tile with two
nodes, and the assembly stops since they do not make a tile. -/
theorem exists_inconsistent_tile :
    ∃ grid, ∃ started : Workbench grid Recording Nat, ∃ region,
      Grid.ofSizes 1 1 1 1 = .ok grid ∧
      Workbench.start grid 1 1 2 Recording.empty = .ok started ∧
      (∃ index tile placed, started.place region = .ok (.ok (index, tile), placed) ∧
        tile.filled = tile.placement.pixelCount ∧ tile.nodeTotal started.bucket = 2) ∧
      Panic.messageOf? (started.submitOrPanic FourTiles.recorder region) =
        some "assembled tile (0, 0) is inconsistent: unsupported channel count 2" := by
  let region : Region :=
    { bounds := ⟨0, 0, 1, 1⟩
      channels := 2
      lengths := some [2]
      values := [.zero, .one, .one, .one, .zero, .zero] }
  exact ⟨_, _, region, rfl, rfl, Workbench.of_completes (by decide +kernel), by decide +kernel⟩

end Assembly
end DeepShadow
