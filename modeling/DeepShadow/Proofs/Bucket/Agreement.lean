import DeepShadow.Proofs.Assembly.Emission
import DeepShadow.Proofs.Bucket.Shading
import DeepShadow.Proofs.Visibility.Refinement

/-!
# Producers and the assembly agree on buckets

The bounds of a bucket are computed when an image is divided, when a region is checked and
when its rows are put into a tile.  The buckets of an image share it out row by row, each
of them lies in one tile, and the region that a producer makes of it carries the stored
curves of its pixels in their order; only where each of them is the node that occludes
nothing does it carry no curves.  Where a word counts the nodes of each pixel, the region
passes the checks of an assembly with the same settings, whatever was seen at its pixels.
-/

namespace DeepShadow

/-! ## Rectangles that share out an image -/

/-- In reading order a rectangle comes before another one: above it, or on its left in the
same rows. -/
def Rectangle.Precedes (first second : Rectangle) : Prop :=
  first.bottom ≤ second.top ∨
    (first.top = second.top ∧ first.bottom = second.bottom) ∧ first.right ≤ second.left

/-- Rectangles with pixels that share out an image, row by row. -/
structure ShareOut (rectangles : List Rectangle) (imageWidth imageHeight : Nat) : Prop where
  nonempty : ∀ rectangle ∈ rectangles,
    rectangle.left < rectangle.right ∧ rectangle.top < rectangle.bottom
  inside : ∀ rectangle ∈ rectangles,
    rectangle.right ≤ imageWidth ∧ rectangle.bottom ≤ imageHeight
  once : ∀ x y, x < imageWidth -> y < imageHeight ->
    (rectangles.countP fun rectangle => rectangle.Covers x y) = 1
  ordered : rectangles.Pairwise Rectangle.Precedes

namespace BucketSize

variable {size : BucketSize}

/-- A pixel of the image lies in one bucket. -/
theorem countP_cover
    {imageWidth imageHeight x y : Nat}
    (insideX : x < imageWidth)
    (insideY : y < imageHeight) :
    ((size.cover imageWidth imageHeight).countP fun cell => cell.Covers x y) = 1 := by
  have member : (y / size.height, x / size.width) ∈ size.places imageWidth imageHeight :=
    mem_places.mpr ⟨Nat.lt_of_le_of_lt (Nat.div_mul_le_self y _) insideY,
      Nat.lt_of_le_of_lt (Nat.div_mul_le_self x _) insideX⟩
  have owner : ∀ place ∈ size.places imageWidth imageHeight,
      (((fun cell : Rectangle => decide (cell.Covers x y)) ∘
        size.part imageWidth imageHeight) place = true ↔
          (place == (y / size.height, x / size.width)) = true) := by
    intro place _
    rw [Function.comp_apply, decide_eq_true_iff, covers_part_iff, beq_iff_eq, Prod.ext_iff]
    constructor
    · rintro ⟨⟨_, column_eq⟩, _, row_eq⟩
      exact ⟨row_eq.symm, column_eq.symm⟩
    · rintro ⟨row_eq, column_eq⟩
      exact ⟨⟨insideX, column_eq.symm⟩, insideY, row_eq.symm⟩
  rw [cover_eq, List.countP_map, List.countP_congr owner]
  exact List.count_eq_one_of_mem (size.nodup_places imageWidth imageHeight) member

/-- The buckets are listed in reading order. -/
theorem ordered_cover (size : BucketSize) (imageWidth imageHeight : Nat) :
    (size.cover imageWidth imageHeight).Pairwise Rectangle.Precedes := by
  -- A part ends in front of the next one, so in front of all that follow.
  have before : ∀ {sides length first second : Nat}, first < second ->
      min (first * sides + sides) length ≤ second * sides := by
    intro sides length first second less
    calc min (first * sides + sides) length
        ≤ first * sides + sides := Nat.min_le_left _ _
      _ = (first + 1) * sides := (Nat.succ_mul _ _).symm
      _ ≤ second * sides := Nat.mul_le_mul_right _ less
  unfold cover
  rw [List.pairwise_flatMap]
  constructor
  · intro row _
    rw [List.pairwise_map]
    exact List.pairwise_lt_range.imp fun less => Or.inr ⟨⟨rfl, rfl⟩, before less⟩
  · refine List.pairwise_lt_range.imp fun less first firstMember second secondMember => ?_
    obtain ⟨_, _, rfl⟩ := List.mem_map.mp firstMember
    obtain ⟨_, _, rfl⟩ := List.mem_map.mp secondMember
    exact Or.inl (before less)

theorem shareOut_cover (size : BucketSize) (imageWidth imageHeight : Nat) :
    ShareOut (size.cover imageWidth imageHeight) imageWidth imageHeight where
  nonempty _ member := ⟨(sides_of_mem_cover member).1.1, (sides_of_mem_cover member).2.1⟩
  inside _ member := ⟨(sides_of_mem_cover member).1.2.2, (sides_of_mem_cover member).2.2.2⟩
  once _ _ insideX insideY := countP_cover insideX insideY
  ordered := ordered_cover size imageWidth imageHeight

/-- All pixels of a bucket lie in the tile of its first pixel. -/
theorem Divides.exists_tile
    {grid : Grid}
    (divides : size.Divides grid)
    {cell : Rectangle}
    (member : cell ∈ size.cover grid.imageWidth grid.imageHeight) :
    ∃ position placement, grid.placement position = .ok placement ∧
      ∀ x y, cell.Covers x y ->
        placement.contains x y = true ∧ grid.tileForPixel x y = .ok position := by
  obtain ⟨⟨left_lt, _, right_le⟩, top_lt, _, bottom_le⟩ := sides_of_mem_cover member
  have corner : cell.Covers cell.left cell.top :=
    ⟨⟨Nat.le_refl _, left_lt⟩, Nat.le_refl _, top_lt⟩
  have inside : grid.Contains (grid.owner cell.left cell.top) :=
    Grid.contains_owner (Nat.lt_of_lt_of_le left_lt right_le)
      (Nat.lt_of_lt_of_le top_lt bottom_le)
  refine ⟨_, _, Grid.placement_eq_ok inside, ?_⟩
  intro x y covers
  have insideX : x < grid.imageWidth := Nat.lt_of_lt_of_le covers.1.2 right_le
  have insideY : y < grid.imageHeight := Nat.lt_of_lt_of_le covers.2.2 bottom_le
  have same := divides.owner_eq_of_covers member covers corner
  rw [← same]
  exact ⟨(Grid.contains_frame_iff insideX insideY).mpr rfl, Grid.tileForPixel_eq_ok insideX insideY⟩

end BucketSize

/-! ## What a producer makes of a bucket -/

/-- With a number of channels that is not supported no node has a stored form. -/
theorem Curve.flatten_eq_error
    {channels : Nat}
    (unsupported : ¬supportedChannels channels = true)
    {curve : Curve}
    {first : Node}
    {behind : List Node}
    (nodes_eq : curve.nodes = first :: behind) :
    curve.flatten channels = .error (.componentsWanted channels) := by
  rw [supportedChannels_iff, not_or] at unsupported
  have firstFails : Curve.flattenNode channels first = .error (.componentsWanted channels) := by
    unfold Curve.flattenNode Color.components
    rw [if_neg unsupported.1, if_neg unsupported.2]
    rfl
  unfold Curve.flatten
  rw [nodes_eq, List.mapM_cons, firstFails]
  rfl

/-- A region carries the given curves, one for each pixel and row by row: it has their
lengths, as far as words hold them, and their stored forms, one behind the other.  It has
neither only where each of them is the node that occludes nothing. -/
structure Region.Packs (region : Region) (curves : List Curve) : Prop where
  unoccluded_iff : region.lengths = none ↔ ∀ curve ∈ curves, curve = Curve.fullyVisible
  values_eq_nil : region.lengths = none -> region.values = []
  packed : ∀ lengths, region.lengths = some lengths ->
    lengths = curves.map (fun curve => curve.length % 0x100000000) ∧
      ∃ runs, curves.mapM (fun curve => curve.flatten region.channels) = .ok runs ∧
        region.values = runs.flatten

section Shade

variable
  {bounds : Rectangle}
  {channels : Nat}
  {subsamples : Nat -> Nat -> List Subsample}
  {region : Region}

theorem isFullyVisible_merge_iff (subsamples : List Subsample) :
    (merge subsamples).isFullyVisible = true ↔ merge subsamples = Curve.fullyVisible := by
  constructor
  · intro single
    exact congrArg Curve.mk (merge_of_isFullyVisible single)
  · intro visible
    rw [visible]
    rfl

/-- The curves of a bucket are all fully visible where each of its pixels is. -/
theorem all_isFullyVisible_iff :
    (bounds.pixels.map fun (x, y) => merge (subsamples x y)).all Curve.isFullyVisible = true ↔
      ∀ curve ∈ bounds.pixels.map fun (x, y) => merge (subsamples x y),
        curve = Curve.fullyVisible := by
  rw [List.all_eq_true, List.forall_mem_map, List.forall_mem_map]
  exact forall₂_congr fun pixel _ => isFullyVisible_merge_iff _

/-- With a number of channels that is not supported only a bucket in which nothing is
occluded is shaded. -/
theorem shade_eq_error
    (unsupported : ¬supportedChannels channels = true)
    (occluded : ¬(bounds.pixels.map fun (x, y) => merge (subsamples x y)).all
      Curve.isFullyVisible = true) :
    shade bounds channels subsamples = .error (.componentsWanted channels) := by
  unfold shade
  simp only
  rw [if_neg occluded]
  unfold Region.ofCurves
  rw [List.length_map, Rectangle.length_pixels, if_neg (not_not_intro rfl)]
  cases pixels_eq : bounds.pixels with
  | nil =>
      rw [pixels_eq] at occluded
      exact absurd rfl occluded
  | cons pixel others =>
      obtain ⟨behind, nodes_eq⟩ := head_merge (subsamples pixel.1 pixel.2)
      rw [List.map_cons, List.mapM_cons, Curve.flatten_eq_error unsupported nodes_eq]
      rfl

/-- What was shaded carries the merged curves of its pixels, also with a number of channels
that is not supported. -/
theorem packs_of_shade_eq_ok (made : shade bounds channels subsamples = .ok region) :
    (region.bounds = bounds ∧ region.channels = channels) ∧
      region.Packs (bounds.pixels.map fun (x, y) => merge (subsamples x y)) := by
  by_cases visible : (bounds.pixels.map fun (x, y) => merge (subsamples x y)).all
      Curve.isFullyVisible = true
  · unfold shade at made
    simp only at made
    rw [if_pos visible] at made
    cases made
    refine ⟨⟨rfl, rfl⟩, ⟨?_, fun _ => rfl, fun lengths carried => ?_⟩⟩
    · exact iff_of_true rfl (all_isFullyVisible_iff.mp visible)
    · cases carried
  · by_cases supported : supportedChannels channels = true
    · have made_eq := (shade_eq_ok_inWords supported).symm.trans made
      cases made_eq
      refine ⟨⟨bounds_shaded, channels_shaded⟩, ?_⟩
      unfold Region.inWords shaded
      simp only
      rw [if_neg visible]
      refine ⟨iff_of_false (fun carried => ?_) (mt all_isFullyVisible_iff.mpr visible),
        fun carried => ?_, fun lengths carried => ?_⟩
      · cases carried
      · cases carried
      · cases carried
        exact ⟨List.map_map, _, mapM_eq_ok _ fun curve _ => Curve.flatten_eq_ok supported curve,
          rfl⟩
    · rw [shade_eq_error supported visible] at made
      cases made

/-- What was shaded is well formed, where a word counts the nodes of each pixel. -/
theorem wellFormed_of_shade_eq_ok
    (countable : bounds.Countable subsamples)
    (made : shade bounds channels subsamples = .ok region) :
    region.WellFormed := by
  by_cases supported : supportedChannels channels = true
  · have made_eq := (shade_eq_ok supported countable).symm.trans made
    cases made_eq
    exact wellFormed_shaded supported
  · -- Only the region without curves is made.
    by_cases visible : (bounds.pixels.map fun (x, y) => merge (subsamples x y)).all
        Curve.isFullyVisible = true
    · unfold shade at made
      simp only at made
      rw [if_pos visible] at made
      cases made
      intro lengths carried
      cases carried
    · rw [shade_eq_error supported visible] at made
      cases made

/-- At each pixel of what was shaded the stored form of its merged curve is found. -/
theorem flatten_eq_runAt
    (supported : supportedChannels channels = true)
    (countable : bounds.Countable subsamples)
    (made : shade bounds channels subsamples = .ok region)
    {x y : Nat}
    (covers : bounds.Covers x y) :
    (merge (subsamples x y)).flatten channels = .ok (region.runAt x y) := by
  have made_eq := (shade_eq_ok supported countable).symm.trans made
  cases made_eq
  rw [runAt_shaded supported covers]
  exact Curve.flatten_eq_ok supported _

end Shade

/-! ## A pixel whose nodes are not counted

Each surface in front of a pixel gives it two nodes, also if the surface hides nothing.  A
pixel with `2 ^ 31` of them has more nodes than a word counts. -/

namespace Glass

open Merge

variable {previous : Node} {behind count : Nat}

/-- A surface that hides nothing. -/
def pane : Hit := ⟨Single.one, Color.black⟩

/-- A subsample that sees the given number of such surfaces. -/
def panes (count : Nat) : Subsample := ⟨Single.one, .layered (List.replicate count pane)⟩

/-- The cursor at one of them, with those behind it. -/
def cursor (behind : Nat) : Cursor :=
  ⟨0, -Single.one / Single.one, pane, List.replicate behind pane, Color.white⟩

/-- The node at the surfaces. -/
def clear : Node := ⟨Single.one, Color.white⟩

theorem step_cursor (isClear : previous = Node.start ∨ previous = clear) :
    step previous (cursor behind) = (clear, clear) := by
  have same : step previous (cursor behind) = step previous (cursor 0) := rfl
  rw [same]
  rcases isClear with rfl | rfl
  · decide +kernel
  · decide +kernel

theorem advance_cursor : (cursor (behind + 1)).advance = some (cursor behind) := by
  have visible : Color.white.isBlack = false := by decide +kernel
  have running : Color.white.lower (cursor 0).delta = Color.white := by decide +kernel
  exact Cursor.advance_eq_some_iff.mpr ⟨visible, rfl, rfl, rfl, running.symm⟩

/-- Each surface has two nodes, because something is left of the pixel behind it. -/
theorem length_nodesFrom
    (isClear : previous = Node.start ∨ previous = clear)
    (enough : behind < count) :
    (nodesFrom previous count [cursor behind]).length = 2 * (behind + 1) := by
  have visible : ¬clear.visibility.isBlack = true := by decide +kernel
  induction behind generalizing previous count with
  | zero =>
      obtain ⟨count, rfl⟩ := Nat.exists_eq_add_one_of_ne_zero (Nat.ne_of_gt enough)
      have last : requeue (cursor 0) [] = [] := rfl
      rw [nodesFrom_cons, step_cursor isClear, last, if_neg visible]
      cases count with
      | zero => rfl
      | succ count => rfl
  | succ behind inductionHypothesis =>
      obtain ⟨count, rfl⟩ := Nat.exists_eq_add_one_of_ne_zero (Nat.ne_zero_of_lt enough)
      have next : requeue (cursor (behind + 1)) [] = [cursor behind] := by
        rw [requeue, advance_cursor]
        rfl
      rw [nodesFrom_cons, step_cursor isClear, next, if_neg visible, List.length_cons,
        List.length_cons, inductionHypothesis (Or.inr rfl) (Nat.lt_of_succ_lt_succ enough)]
      rfl

/-- The pixel has two nodes for each surface, behind the one in front of them. -/
theorem length_merge (behind : Nat) :
    (merge [panes (behind + 1)]).length = 2 * (behind + 1) + 1 := by
  have positive : Single.zero < Single.one := by decide +kernel
  have contributes : (panes (behind + 1)).contributes = true := by
    rw [Subsample.contributes]
    exact Bool.and_eq_true_iff.mpr ⟨decide_eq_true positive, rfl⟩
  have total : totalWeight [panes (behind + 1)] = Single.one := by
    have sum : Single.zero + Single.one = Single.one := by decide +kernel
    rw [totalWeight, List.filter_cons_of_pos contributes]
    exact sum
  have queued : (cursors [panes (behind + 1)]).foldr enqueue [] = [cursor behind] := by
    simp only [cursors, total, List.zipIdx_cons, List.zipIdx_nil, List.filterMap_cons, contributes]
    rfl
  have notAbove : ¬totalWeight [panes (behind + 1)] ≤ Single.zero := by
    rw [total]
    decide +kernel
  have hits : hitCount [panes (behind + 1)] = behind + 1 :=
    List.length_replicate
  rw [merge, if_neg notAbove]
  simp only [queued, hits]
  exact congrArg (· + 1) (length_nodesFrom (Or.inl rfl) (Nat.lt_succ_self behind))

/-- Where a word does not count the nodes, the remainder is taken for their number. -/
theorem lengths_eq_some
    {region : Region}
    (packs : region.Packs [merge [panes (behind + 1)]]) :
    region.lengths = some [(2 * (behind + 1) + 1) % 0x100000000] := by
  cases carried : region.lengths with
  | none =>
      have visible := packs.unoccluded_iff.mp carried _ List.mem_cons_self
      have length_eq := congrArg Curve.length visible
      rw [length_merge] at length_eq
      exact absurd (Nat.succ.inj length_eq) (Nat.succ_ne_zero _)
  | some lengths => rw [(packs.packed lengths carried).1, List.map_singleton, length_merge]

theorem length_values
    {region : Region}
    (supported : supportedChannels region.channels = true)
    (packs : region.Packs [merge [panes (behind + 1)]]) :
    region.values.length = (2 * (behind + 1) + 1) * (region.channels + 1) := by
  obtain ⟨runs, flattened, values_eq⟩ := (packs.packed _ (lengths_eq_some packs)).2
  rw [mapM_eq_ok _ fun curve _ => Curve.flatten_eq_ok supported curve] at flattened
  cases flattened
  rw [values_eq, length_flatten_stored supported, List.map_singleton, length_merge]
  rfl

end Glass

/-! ## The agreement -/

/-- The buckets of an image of any size share it out.  Where a tile consists of whole
buckets, each of them lies in one tile, and a producer makes a region of it that carries
the merged curves of its pixels.  As long as a word counts the nodes of each pixel, the
region passes the checks of an assembly that has the same settings and is not finished, and
the stored form of each curve is found at its pixel. -/
theorem cover_agrees (size : BucketSize) :
    (∀ imageWidth imageHeight,
      ShareOut (size.cover imageWidth imageHeight) imageWidth imageHeight) ∧
    ∀ grid : Grid, size.Divides grid ->
      ∀ cell ∈ size.cover grid.imageWidth grid.imageHeight,
        (∃ position placement, grid.placement position = .ok placement ∧
          ∀ x y, cell.Covers x y ->
            placement.contains x y = true ∧ grid.tileForPixel x y = .ok position) ∧
        ∀ (State Summary : Type) (assembler : Assembly.Assembler State Summary)
          (subsamples : Nat -> Nat -> List Subsample),
          assembler.grid = grid -> assembler.bucket = size -> assembler.isFinished = false ->
            (supportedChannels assembler.channels = true ->
              ∃ region, shade cell assembler.channels subsamples = .ok region) ∧
            ∀ region, shade cell assembler.channels subsamples = .ok region ->
              (region.bounds = cell ∧ region.channels = assembler.channels) ∧
              region.Packs (cell.pixels.map fun (x, y) => merge (subsamples x y)) ∧
              ((∀ x y, cell.Covers x y -> (merge (subsamples x y)).length < 0x100000000) ->
                assembler.check region = .ok () ∧
                (supportedChannels assembler.channels = true -> ∀ x y, cell.Covers x y ->
                  (merge (subsamples x y)).flatten assembler.channels =
                    .ok (region.runAt x y))) := by
  refine ⟨size.shareOut_cover, ?_⟩
  intro grid divides cell member
  refine ⟨divides.exists_tile member, ?_⟩
  intro State Summary assembler subsamples grid_eq bucket_eq unfinished
  subst grid_eq bucket_eq
  refine ⟨fun supported => ⟨_, shade_eq_ok_inWords supported⟩, ?_⟩
  intro region made
  obtain ⟨⟨rfl, channels_eq⟩, packs⟩ := packs_of_shade_eq_ok made
  refine ⟨⟨rfl, channels_eq⟩, packs, fun countable => ⟨?_, fun supported x y covers => ?_⟩⟩
  · exact Assembly.Assembler.check_of_mem_cover unfinished member channels_eq
      (wellFormed_of_shade_eq_ok countable made)
  · exact flatten_eq_runAt supported countable made covers

namespace TwoRows

/-- An opaque surface in front of the last pixel of the upper row. -/
def corner (x y : Nat) : List Subsample :=
  if x = 2 ∧ y = 0 then [⟨Single.one, .solid (Hit.ofDepth Single.one)⟩] else []

theorem countable_corner : (⟨2, 0, 3, 1⟩ : Rectangle).Countable corner := by
  have decided : ∀ pixel ∈ (⟨2, 0, 3, 1⟩ : Rectangle).pixels,
      (merge (corner pixel.1 pixel.2)).length < 0x100000000 := by
    decide +kernel
  exact fun x y covers => decided (x, y) (Rectangle.mem_pixels.mpr covers)

end TwoRows

/-- At the right edge a bucket of the image has one column.  Its region is taken, with the
three nodes of the pixel that the surface hides. -/
theorem cover_agrees_twoRows :
    ∃ region, shade ⟨2, 0, 3, 1⟩ 1 TwoRows.corner = .ok region ∧
      Assembly.Image.TwoRows.narrow.fresh.check region = .ok () ∧ region.lengths = some [3] := by
  obtain ⟨_, forGrids⟩ := cover_agrees Assembly.Image.TwoRows.narrow.bucket
  obtain ⟨_, forAssemblers⟩ := forGrids Assembly.Image.TwoRows.narrow.grid
    Assembly.Image.TwoRows.narrow.divides ⟨2, 0, 3, 1⟩ (by decide)
  obtain ⟨produced, taken⟩ :=
    forAssemblers Unit Unit Assembly.Image.TwoRows.narrow.fresh TwoRows.corner rfl rfl rfl
  obtain ⟨region, made⟩ := produced supportedChannels_one
  obtain ⟨_, packs, fitting⟩ := taken region made
  obtain ⟨checked, _⟩ := fitting TwoRows.countable_corner
  refine ⟨region, made, checked, ?_⟩
  cases carried : region.lengths with
  | none =>
      have visible := packs.unoccluded_iff.mp carried
      revert visible
      decide +kernel
  | some lengths =>
      rw [(packs.packed lengths carried).1]
      decide +kernel

namespace TwoRows

/-- A region of the bucket at the right edge that has one node too many or too few. -/
theorem check_miscounted
    {region : Region}
    (isCorner : region.bounds = ⟨2, 0, 3, 1⟩ ∧ region.channels = 1)
    (counted : region.lengths = some [1])
    (miscounted : region.values.length ≠ 2) :
    Assembly.Image.TwoRows.narrow.fresh.check region =
      .error (.valueCount 2 region.values.length) := by
  obtain ⟨bounds, channels, lengths, values⟩ := region
  obtain ⟨rfl, rfl⟩ := isCorner
  obtain rfl := counted
  have others : Assembly.Image.TwoRows.narrow.fresh.check ⟨⟨2, 0, 3, 1⟩, 1, some [1], values⟩ =
      if values.length ≠ 2 then .error (.valueCount 2 values.length) else .ok () := rfl
  rw [others, if_pos miscounted]

/-- Behind the glass that a word does not count, only the first node is taken to be there. -/
theorem exists_miscounted
    {behind : Nat}
    (wraps : (2 * (behind + 1) + 1) % 0x100000000 = 1) :
    ∃ region,
      shade ⟨2, 0, 3, 1⟩ 1 (fun _ _ => [Glass.panes (behind + 1)]) = .ok region ∧
      region.lengths = some [1] ∧
      Assembly.Image.TwoRows.narrow.fresh.check region =
        .error (.valueCount 2 ((2 * (behind + 1) + 1) * 2)) := by
  have tooMany : (2 * (behind + 1) + 1) * 2 ≠ 2 := by omega
  obtain ⟨region, made⟩ : ∃ region,
      shade ⟨2, 0, 3, 1⟩ 1 (fun _ _ => [Glass.panes (behind + 1)]) = .ok region :=
    ⟨_, shade_eq_ok_inWords supportedChannels_one⟩
  obtain ⟨isCorner, packs⟩ := packs_of_shade_eq_ok made
  have lengths_eq := Glass.lengths_eq_some packs
  rw [wraps] at lengths_eq
  have count : region.values.length = (2 * (behind + 1) + 1) * 2 := by
    have supported : supportedChannels region.channels = true := by
      rw [isCorner.2]
      exact supportedChannels_one
    rw [Glass.length_values supported packs, isCorner.2]
  rw [← count] at tooMany ⊢
  exact ⟨region, made, lengths_eq, check_miscounted isCorner lengths_eq tooMany⟩

end TwoRows

/-- With two channels, which nothing refuses before, a bucket in which something is occluded
is not shaded.  And of a pixel with two nodes for each of `2 ^ 31` surfaces that hide
nothing, the region has a single node and is refused for the values of all others. -/
theorem shading_disagrees :
    (∃ assembler : Assembly.Assembler Unit Unit,
      Assembly.Assembler.start Assembly.Image.TwoRows.narrow.grid 2 1 2 () = .ok assembler ∧
      ⟨2, 0, 3, 1⟩ ∈ assembler.bucket.cover 3 2 ∧
      shade ⟨2, 0, 3, 1⟩ assembler.channels TwoRows.corner = .error (.componentsWanted 2)) ∧
    ∃ region,
      shade ⟨2, 0, 3, 1⟩ 1 (fun _ _ => [Glass.panes 0x80000000]) = .ok region ∧
      region.lengths = some [1] ∧
      Assembly.Image.TwoRows.narrow.fresh.check region =
        .error (.valueCount 2 0x200000002) := by
  constructor
  · exact ⟨_, rfl, by decide, by decide +kernel⟩
  · have wraps : (2 * (0x7fffffff + 1) + 1) % 0x100000000 = 1 := rfl
    exact TwoRows.exists_miscounted wraps

end DeepShadow
