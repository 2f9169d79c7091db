import DeepShadow.Proofs.Bucket.Shading
import DeepShadow.Proofs.Session.Storing

/-!
# Images of merged pixels

When all buckets of an image have arrived, the canvas has the merged curve of each
pixel, whatever their order was.  Each tile of this canvas, stored or not, answers
for a pixel what its merged curve does.
-/

namespace DeepShadow
namespace Assembly
namespace Image

variable {image : Image} {canvas later : Canvas} {position : TilePosition}
variable {subsamples : Nat -> Nat -> List Subsample}

/-! ## Canvases with the same tiles -/

/-- Two canvases are the same in all tiles of an image. -/
def SameTiles (image : Image) (later canvas : Canvas) : Prop :=
  ∀ position, image.grid.Contains position -> later.SameIn (image.grid.frame position) canvas

theorem SameTiles.storedTiles_eq (same : image.SameTiles later canvas) :
    image.storedTiles later = image.storedTiles canvas := by
  apply List.filterMap_congr
  intro position member
  exact stored?_of_sameIn (same position (Grid.mem_positions.mp member))

theorem SameTiles.fileSize_eq (same : image.SameTiles later canvas) :
    image.fileSize later = image.fileSize canvas := by
  unfold fileSize
  rw [same.storedTiles_eq]

theorem SameTiles.summary_eq (same : image.SameTiles later canvas) :
    image.summary later = image.summary canvas := by
  unfold summary
  rw [same.storedTiles_eq, same.fileSize_eq]

theorem SameTiles.countable
    (same : image.SameTiles later canvas)
    (countable : image.Countable canvas) :
    image.Countable later := by
  intro position inside completes
  unfold Canvas.nodeTotal
  rw [(same position inside).runs_eq]
  exact countable position inside ((same position inside).completes_iff.mp completes)

/-! ## The buckets of an image -/

/-- The regions of the buckets of an image, row by row. -/
def shadedBuckets
    (image : Image)
    (subsamples : Nat -> Nat -> List Subsample) : List Region :=
  (image.bucket.cover image.grid.imageWidth image.grid.imageHeight).map fun bounds =>
    shaded bounds image.channels subsamples

/-- The canvas on which each pixel has its merged curve. -/
def merged (image : Image) (subsamples : Nat -> Nat -> List Subsample) : Canvas :=
  fun x y => some (mergedRun image.channels (subsamples x y))

theorem completes_merged (position : TilePosition) :
    image.Completes (image.merged subsamples) position := fun _ _ => rfl

/-- Where the nodes of each tile can be counted, so can those of each pixel. -/
theorem countable_of_mem_cover
    (countable : image.Countable (image.merged subsamples))
    {bounds : Rectangle}
    (member : bounds ∈ image.bucket.cover image.grid.imageWidth image.grid.imageHeight) :
    bounds.Countable subsamples := by
  intro x y covers
  obtain ⟨⟨_, _, right_le⟩, _, _, bottom_le⟩ := BucketSize.sides_of_mem_cover member
  have insideX := Nat.lt_of_lt_of_le covers.1.2 right_le
  have insideY := Nat.lt_of_lt_of_le covers.2.2 bottom_le
  have owned : (x, y) ∈ (image.grid.frame (image.grid.owner x y)).pixels := by
    rw [← Placement.contains_iff_mem_pixels, Grid.contains_frame_iff insideX insideY]
  have counted : (merge (subsamples x y)).length ∈ nodeCounts image.channels
      ((image.merged subsamples).runs (image.grid.frame (image.grid.owner x y))) := by
    refine List.mem_map.mpr ⟨mergedRun image.channels (subsamples x y), ?_,
      length_mergedRun image.supported _⟩
    exact List.mem_map.mpr ⟨(x, y), owned, rfl⟩
  have bound := countable _ (Grid.contains_owner insideX insideY) (completes_merged _)
  unfold Canvas.nodeTotal at bound
  exact Nat.lt_of_le_of_lt (Region.le_nodeTotal_of_mem counted) bound

/-- All buckets of an image are shaded. -/
theorem mapM_shade (countable : image.Countable (image.merged subsamples)) :
    (image.bucket.cover image.grid.imageWidth image.grid.imageHeight).mapM
        (fun bounds => shade bounds image.channels subsamples) =
      .ok (image.shadedBuckets subsamples) :=
  mapM_eq_ok _ fun _ member =>
    shade_eq_ok image.supported (countable_of_mem_cover countable member)

section Order

variable {order : List Region} (arrived : order.Perm (image.shadedBuckets subsamples))

include arrived

theorem exists_bounds_of_mem
    {region : Region}
    (member : region ∈ order) :
    ∃ bounds ∈ image.bucket.cover image.grid.imageWidth image.grid.imageHeight,
      region = shaded bounds image.channels subsamples := by
  obtain ⟨bounds, covered, rfl⟩ := List.mem_map.mp (arrived.mem_iff.mp member)
  exact ⟨bounds, covered, rfl⟩

/-- In whatever order the buckets arrive, all of them are taken. -/
theorem taken_of_perm : image.taken order = order := by
  apply takenFrom_of_disjoint
  · intro region member
    obtain ⟨bounds, covered, rfl⟩ := exists_bounds_of_mem arrived member
    exact admits_shaded covered subsamples
  · have symmetric : ∀ {first second : Region},
        (∀ x y, first.bounds.Covers x y -> ¬second.bounds.Covers x y) ->
          ∀ x y, second.bounds.Covers x y -> ¬first.bounds.Covers x y :=
      fun apart x y inSecond inFirst => apart x y inFirst inSecond
    rw [arrived.pairwise_iff symmetric]
    unfold shadedBuckets
    rw [List.pairwise_map]
    simp only [bounds_shaded]
    exact image.bucket.disjoint_cover _ _
  · intro _ _ _ _ _
    rfl

/-- In whatever order the buckets arrive, each pixel has its merged curve. -/
theorem sameTiles_of_perm :
    image.SameTiles (image.painted order) (image.merged subsamples) := by
  obtain ⟨pictures, _⟩ := image.pictures_painted order
  rw [taken_of_perm arrived] at pictures
  rintro position inside ⟨x, y⟩ member
  obtain ⟨⟨_, right⟩, _, bottom⟩ := Placement.mem_pixels.mp member
  obtain ⟨rightInside, bottomInside⟩ := Grid.frame_inside inside
  -- The bucket of the pixel has arrived, at whatever place of the order.
  obtain ⟨bounds, covered, covers⟩ := image.bucket.exists_mem_cover
    (Nat.lt_of_lt_of_le right rightInside) (Nat.lt_of_lt_of_le bottom bottomInside)
  have region : shaded bounds image.channels subsamples ∈ order :=
    arrived.mem_iff.mpr (List.mem_map_of_mem covered)
  have coversToo : (shaded bounds image.channels subsamples).bounds.Covers x y := by
    rw [bounds_shaded]
    exact covers
  simp only
  rw [pictures.runAt_eq _ region x y coversToo, runAt_shaded image.supported covers]
  rfl

end Order

/-! ## Tiles of merged pixels -/

theorem sound_merged : (image.merged subsamples).Sound image.channels := by
  intro x y run carried
  cases carried
  exact isRun_mergedRun image.supported (subsamples x y)

/-- A tile that is not stored is loaded with the run of each of its pixels as well,
because a merged curve of one node is fully visible. -/
theorem stored?_merged
    (countable : image.Countable (image.merged subsamples))
    (inside : image.grid.Contains position) :
    (image.stored? (image.merged subsamples) position).getD
        (Tile.visible (image.grid.frame position) image.channels) =
      Tile.ofRuns (image.grid.frame position) image.channels
        ((image.merged subsamples).runs (image.grid.frame position)) := by
  have bound := countable position inside (completes_merged position)
  unfold stored? assembled Canvas.assemble
  rw [if_pos (completes_merged position)]
  by_cases neglectable : ∀ count ∈ nodeCounts image.channels
      ((image.merged subsamples).runs (image.grid.frame position)), count = 1
  · -- One node for each pixel: these are the nodes that a fully visible tile has.
    have runs_eq : (image.merged subsamples).runs (image.grid.frame position) =
        List.replicate (image.grid.frame position).pixelCount
          (Tile.visibleNode image.channels) := by
      rw [← Placement.length_pixels, ← List.map_const']
      apply List.map_congr_left
      intro pixel member
      have single := (Canvas.forall_nodeCounts_runs _).mp neglectable pixel member
      apply mergedRun_of_isFullyVisible image.supported
      unfold Curve.isFullyVisible
      rw [beq_iff_eq, ← length_mergedRun image.supported]
      exact single
    rw [if_pos neglectable, runs_eq]
    unfold Canvas.nodeTotal at bound
    rw [runs_eq, Tile.nodeCounts_visible, Region.nodeTotal_replicate_one] at bound
    exact Tile.visible_eq_ofRuns bound
  · rw [if_neg neglectable]
    rfl

/-- The tile of a pixel answers what the merged curve of the pixel does. -/
theorem visibilityAt_merged
    (countable : image.Countable (image.merged subsamples))
    (inside : image.grid.Contains position)
    {x y : Nat}
    (member : (x, y) ∈ (image.grid.frame position).pixels)
    (depth : Single) :
    (Tile.ofRuns (image.grid.frame position) image.channels
        ((image.merged subsamples).runs (image.grid.frame position))).visibilityAt x y depth =
      .ok (((merge (subsamples x y)).visibilityAt depth).seen image.channels) := by
  have curve_eq := sound_merged.curveAtPixel_ofRuns image.supported (completes_merged position)
    (countable position inside (completes_merged position)) member rfl
  unfold Tile.visibilityAt
  rw [curve_eq]
  exact (ascending_merge (subsamples x y)).visibilityAt_ofCurve image.supported depth

end Image
end Assembly
end DeepShadow
