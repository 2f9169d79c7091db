import DeepShadow.Bucket.Shade
import DeepShadow.Proofs.Assembly.Image
import DeepShadow.Proofs.Bucket.Cover
import DeepShadow.Proofs.Visibility.Merging

/-!
# Shaded buckets

The region of a bucket carries the stored form of the merged curve of each of its
pixels, also where nothing in it is occluded and it carries no curves.  Such regions
are taken, in whatever order the buckets of an image arrive, as long as a word counts
the nodes of each pixel.
-/

namespace DeepShadow

open Region (nodeTotal)

/-- The run of a merged pixel. -/
def mergedRun (channels : Nat) (subsamples : List Subsample) : List Single :=
  (merge subsamples).stored channels

/-- The region of a rectangle of merged pixels, with as many nodes as there are. -/
def shaded
    (bounds : Rectangle)
    (channels : Nat)
    (subsamples : Nat -> Nat -> List Subsample) : Region :=
  let curves := bounds.pixels.map fun (x, y) => merge (subsamples x y)
  if curves.all Curve.isFullyVisible then Region.unoccluded bounds channels
  else
    { bounds
      channels
      lengths := some (curves.map Curve.length)
      values := (curves.map fun curve => curve.stored channels).flatten }

/-- A region whose numbers of nodes are kept in words. -/
def Region.inWords (region : Region) : Region :=
  { region with lengths := region.lengths.map fun lengths => lengths.map (· % 0x100000000) }

/-- A word counts the nodes of each merged pixel of a rectangle. -/
def Rectangle.Countable
    (bounds : Rectangle)
    (subsamples : Nat -> Nat -> List Subsample) : Prop :=
  ∀ x y, bounds.Covers x y -> (merge (subsamples x y)).length < 0x100000000

/-! ## Runs of curves -/

section Runs

variable {channels : Nat} (supported : supportedChannels channels = true)

include supported

theorem length_stored (curve : Curve) :
    (curve.stored channels).length = curve.length * (channels + 1) :=
  length_flatMap_stored supported curve.nodes

/-- The stored forms of curves are cut where one was put behind the other. -/
theorem splitRuns_stored (curves : List Curve) :
    splitRuns (channels + 1) (curves.map Curve.length)
        (curves.map fun curve => curve.stored channels).flatten =
      curves.map fun curve => curve.stored channels := by
  induction curves with
  | nil => rfl
  | cons curve curves inductionHypothesis =>
      rw [List.map_cons, List.map_cons, List.flatten_cons, splitRuns, ← length_stored supported,
        List.take_left, List.drop_left, inductionHypothesis]

theorem length_flatten_stored (curves : List Curve) :
    (curves.map fun curve => curve.stored channels).flatten.length =
      nodeTotal (curves.map Curve.length) * (channels + 1) := by
  induction curves with
  | nil => exact (Nat.zero_mul _).symm
  | cons curve curves inductionHypothesis =>
      rw [List.map_cons, List.map_cons, List.flatten_cons, List.length_append,
        Region.nodeTotal_cons, Nat.add_mul, inductionHypothesis, length_stored supported]

/-- A pixel that nothing occludes has the run that stands for this. -/
theorem mergedRun_of_isFullyVisible
    {subsamples : List Subsample}
    (single : (merge subsamples).isFullyVisible = true) :
    mergedRun channels subsamples = Tile.visibleNode channels := by
  unfold mergedRun Curve.stored
  rw [merge_of_isFullyVisible single]
  rcases supportedChannels_iff.mp supported with rfl | rfl
  · decide +kernel
  · decide +kernel

/-- The nodes of a merged pixel are counted from its run. -/
theorem length_mergedRun (subsamples : List Subsample) :
    (mergedRun channels subsamples).length / (channels + 1) = (merge subsamples).length := by
  unfold mergedRun
  rw [length_stored supported, Nat.mul_div_cancel _ (Nat.succ_pos channels)]

theorem isRun_mergedRun (subsamples : List Subsample) :
    IsRun channels (mergedRun channels subsamples) := by
  obtain ⟨behind, nodes_eq⟩ := head_merge subsamples
  refine ⟨(merge subsamples).length, ?_, length_stored supported _⟩
  unfold Curve.length
  rw [nodes_eq]
  exact Nat.succ_pos _

end Runs

/-! ## Regions of buckets -/

variable {bounds : Rectangle} {channels : Nat} {subsamples : Nat -> Nat -> List Subsample}

@[simp] theorem bounds_shaded : (shaded bounds channels subsamples).bounds = bounds := by
  unfold shaded
  simp only
  split
  · rfl
  · rfl

@[simp] theorem channels_shaded : (shaded bounds channels subsamples).channels = channels := by
  unfold shaded
  simp only
  split
  · rfl
  · rfl

/-- Shading a rectangle succeeds, with the numbers of nodes in words. -/
theorem shade_eq_ok_inWords (supported : supportedChannels channels = true) :
    shade bounds channels subsamples = .ok (shaded bounds channels subsamples).inWords := by
  have flattened : (fun curve : Curve => curve.flatten channels) =
      fun curve => pure (curve.stored channels) := by
    funext curve
    exact Curve.flatten_eq_ok supported curve
  unfold shade shaded
  simp only
  split
  · rfl
  · unfold Region.ofCurves
    rw [List.length_map, Rectangle.length_pixels, if_neg (not_not_intro rfl), flattened,
      List.mapM_pure]
    simp only [Region.inWords, Option.map_some, List.map_map]
    rfl

/-- Numbers of nodes that fit into words are kept as they are. -/
theorem inWords_shaded (countable : bounds.Countable subsamples) :
    (shaded bounds channels subsamples).inWords = shaded bounds channels subsamples := by
  unfold shaded
  simp only
  split
  · rfl
  · simp only [Region.inWords, Option.map_some, List.map_map]
    congr 2
    apply List.map_congr_left
    rintro ⟨x, y⟩ member
    exact Nat.mod_eq_of_lt (countable x y (Rectangle.mem_pixels.mp member))

/-- Shading a rectangle succeeds, and gives all nodes that there are. -/
theorem shade_eq_ok
    (supported : supportedChannels channels = true)
    (countable : bounds.Countable subsamples) :
    shade bounds channels subsamples = .ok (shaded bounds channels subsamples) := by
  rw [shade_eq_ok_inWords supported, inWords_shaded countable]

theorem wellFormed_shaded (supported : supportedChannels channels = true) :
    (shaded bounds channels subsamples).WellFormed := by
  unfold shaded
  simp only
  split
  · intro lengths carried
    cases carried
  · intro lengths carried
    cases carried
    refine ⟨?_, ?_, length_flatten_stored supported _⟩
    · rw [List.length_map, List.length_map, Rectangle.length_pixels]
    · intro length member
      rw [List.map_map, List.mem_map] at member
      obtain ⟨⟨x, y⟩, _, rfl⟩ := member
      obtain ⟨behind, nodes_eq⟩ := head_merge (subsamples x y)
      unfold Function.comp Curve.length
      rw [nodes_eq]
      exact Nat.succ_pos _

theorem runs_shaded (supported : supportedChannels channels = true) :
    (shaded bounds channels subsamples).runs =
      bounds.pixels.map fun pixel => mergedRun channels (subsamples pixel.1 pixel.2) := by
  unfold shaded
  simp only
  split
  next visible =>
    -- A region without curves stands for the node that each of its pixels has.
    rw [List.all_map, List.all_eq_true] at visible
    have allVisible : bounds.pixels.map (fun pixel => mergedRun channels
        (subsamples pixel.1 pixel.2)) = bounds.pixels.map fun _ => Tile.visibleNode channels :=
      List.map_congr_left fun pixel member =>
        mergedRun_of_isFullyVisible supported (visible pixel member)
    rw [allVisible, List.map_const', Rectangle.length_pixels]
    rfl
  · unfold Region.runs
    simp only
    rw [splitRuns_stored supported, List.map_map]
    rfl

/-- A shaded region carries the merged curve of each of its pixels. -/
theorem runAt_shaded
    (supported : supportedChannels channels = true)
    {x y : Nat}
    (covers : bounds.Covers x y) :
    (shaded bounds channels subsamples).runAt x y = mergedRun channels (subsamples x y) := by
  unfold Region.runAt Region.pixelIndex
  rw [runs_shaded supported, bounds_shaded, List.getD_eq_getElem?_getD, List.getElem?_map,
    Rectangle.getElem?_pixels covers]
  rfl

namespace Assembly

/-- A well-formed region of a bucket passes the checks. -/
theorem Assembler.check_of_mem_cover
    {State Summary : Type}
    {assembler : Assembler State Summary}
    (unfinished : assembler.isFinished = false)
    {region : Region}
    (member : region.bounds ∈ assembler.bucket.cover assembler.grid.imageWidth
      assembler.grid.imageHeight)
    (channels_eq : region.channels = assembler.channels)
    (wellFormed : region.WellFormed) :
    assembler.check region = .ok () := by
  obtain ⟨⟨left_lt, width_le, right_le⟩, top_lt, height_le, bottom_le⟩ :=
    BucketSize.sides_of_mem_cover member
  obtain ⟨⟨left_eq, lastLeft_eq, right_eq⟩, top_eq, lastTop_eq⟩ :=
    BucketSize.aligned_of_mem_cover member
  rw [Image.check_passes_iff]
  refine ⟨unfinished, ⟨channels_eq, ⟨left_lt, top_lt⟩, ⟨right_le, bottom_le⟩,
    Nat.sub_le_iff_le_add'.mpr width_le, Nat.sub_le_iff_le_add'.mpr height_le,
    ⟨lastLeft_eq.trans left_eq.symm, lastTop_eq.trans top_eq.symm⟩, left_eq.symm, ?_⟩,
    wellFormed⟩
  rw [left_eq]
  exact right_eq

namespace Image

variable {image : Image} {canvas : Canvas} {region : Region}

/-- A bucket of the image makes a region that the image admits. -/
theorem admits_shaded
    {bounds : Rectangle}
    (member : bounds ∈ image.bucket.cover image.grid.imageWidth image.grid.imageHeight)
    (subsamples : Nat -> Nat -> List Subsample) :
    image.Admits (shaded bounds image.channels subsamples) := by
  apply check_fresh_eq_ok_iff.mp
  apply Assembler.check_of_mem_cover rfl
  · rw [bounds_shaded]
    exact member
  · exact channels_shaded
  · exact wellFormed_shaded image.supported

/-- A region that the image admits is taken where none of its pixels has arrived. -/
theorem Admits.refusal?_eq_none
    (admits : image.Admits region)
    (isBlank : ∀ x y, region.bounds.Covers x y -> canvas x y = none) :
    image.refusal? canvas region = none := by
  have notArrived : ∀ x y, region.bounds.Covers x y -> canvas.has x y = false := by
    intro x y covers
    unfold Canvas.has
    rw [isBlank x y covers]
    rfl
  have corner : region.bounds.Covers region.bounds.left region.bounds.top :=
    ⟨⟨Nat.le_refl _, admits.left_lt⟩, Nat.le_refl _, admits.top_lt⟩
  have incomplete : ¬image.Completes canvas (image.tileOf region) := by
    intro completes
    have arrived := completes _ (admits.liesIn.mem_pixels corner)
    rw [notArrived _ _ corner] at arrived
    cases arrived
  unfold refusal?
  rw [check_fresh_eq_ok_iff.mpr admits]
  simp only [if_neg incomplete]
  rw [Option.map_eq_none_iff, List.find?_eq_none]
  intro y member
  rw [List.mem_range'_1] at member
  unfold Rectangle.height at member
  have top_lt := admits.top_lt
  rw [notArrived _ y ⟨⟨Nat.le_refl _, admits.left_lt⟩, member.1, by omega⟩]
  exact Bool.false_ne_true

/-- Regions that do not overlap are all taken. -/
theorem takenFrom_of_disjoint
    {regions : List Region}
    (admitted : ∀ region ∈ regions, image.Admits region)
    (disjoint : regions.Pairwise fun first second =>
      ∀ x y, first.bounds.Covers x y -> ¬second.bounds.Covers x y)
    (isBlank : ∀ region ∈ regions, ∀ x y, region.bounds.Covers x y -> canvas x y = none) :
    image.takenFrom canvas regions = regions := by
  induction regions generalizing canvas with
  | nil => rfl
  | cons region regions inductionHypothesis =>
      obtain ⟨apart, disjointRest⟩ := List.pairwise_cons.mp disjoint
      have taken := (admitted region List.mem_cons_self).refusal?_eq_none
        (isBlank region List.mem_cons_self)
      rw [takenFrom, taken]
      refine congrArg (region :: ·) (inductionHypothesis
        (fun other member => admitted other (List.mem_cons_of_mem _ member)) disjointRest ?_)
      intro other member x y covers
      rw [Canvas.paint_of_not_covers fun inFirst => apart other member x y inFirst covers]
      exact isBlank other (List.mem_cons_of_mem _ member) x y covers

end Image
end Assembly
end DeepShadow
