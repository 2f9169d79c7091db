import DeepShadow.Proofs.Cache.Transparency
import DeepShadow.Proofs.Session.Merged
import DeepShadow.Proofs.Session.Outcome

/-!
# From subsamples to shadows

Producers merge the subsamples of each pixel of an image, bucket by bucket, and send
the regions of the buckets in some order to a session.  The file that is written
answers for each pixel and depth what the merged curve of the pixel does, reduced to
its mean where the file has one channel.
-/

namespace DeepShadow
namespace Session

open Assembly (Image)

variable {image : Image} {canvas : Canvas} {session : Session}
variable {subsamples : Nat -> Nat -> List Subsample} {order : List Region}

/-! ## Writing -/

/-- A session takes regions of which none is refused. -/
theorem takenBy_map_region
    {regions : List Region}
    (taken : image.takenFrom canvas regions = regions) :
    takenBy image canvas (regions.map .region) = regions := by
  induction regions generalizing canvas with
  | nil => rfl
  | cons region regions inductionHypothesis =>
      rw [Image.takenFrom] at taken
      cases refused : image.refusal? canvas region with
      | some error =>
          rw [refused] at taken
          -- A refused region would leave fewer regions than there are.
          have taken_eq : image.takenFrom canvas regions = region :: regions := taken
          have fewer := (image.takenFrom_sublist canvas regions).length_le
          rw [taken_eq, List.length_cons] at fewer
          exact absurd fewer (Nat.not_succ_le_self _)
      | none =>
          rw [refused] at taken
          rw [List.map_cons, takenBy_of_taken refused,
            inductionHypothesis (List.cons.inj taken).2]

/-- An image of which all buckets have arrived is complete. -/
theorem isComplete_of_perm
    (arrived : order.Perm (image.shadedBuckets subsamples)) :
    image.IsComplete (image.painted order) := by
  intro position member
  have sameIn := Image.sameTiles_of_perm arrived position (Grid.mem_positions.mp member)
  exact sameIn.completes_iff.mpr (Image.completes_merged position)

/-- The regions of the buckets of an image, in whatever order they arrive, end a
session with the same report of the same file. -/
theorem Waits.receiveAll_buckets
    (waits : session.Waits image Canvas.blank)
    (going : session.ending = none)
    (arrived : order.Perm (image.shadedBuckets subsamples))
    (countable : image.Countable (image.merged subsamples))
    (fits : image.fileSize (image.merged subsamples) < 0x100000000) :
    ∃ last writer,
      (session.receiveAll (order.map .region)).value = .ok last ∧
      last.join.value =
        (.ok ⟨session.regions + order.length, image.summary (image.merged subsamples)⟩,
          writer) ∧
      image.Finishes (image.painted order) writer := by
  have sameTiles := Image.sameTiles_of_perm arrived
  have taken_eq : takenBy image Canvas.blank (order.map .region) = order :=
    takenBy_map_region (Image.taken_of_perm arrived)
  have countableNow := sameTiles.countable countable
  have fitsNow := fits
  rw [← sameTiles.fileSize_eq] at fitsNow
  unfold Image.painted at countableNow fitsNow
  rw [← taken_eq] at countableNow fitsNow
  obtain ⟨last, result, writer, rest, received, joined, split, _, decides, finishes⟩ :=
    waits.receiveAll_eq going (order.map .region) countableNow fitsNow
  rw [taken_eq] at split decides finishes
  have complete : image.IsComplete (image.paintedFrom Canvas.blank order) :=
    isComplete_of_perm arrived
  have summary_eq : image.summary (image.paintedFrom Canvas.blank order) =
      image.summary (image.merged subsamples) := sameTiles.summary_eq
  refine ⟨last, writer, received, ?_, finishes⟩
  rw [joined]
  -- All other endings are those of an image of which pixels are missing.
  cases decides with
  | complete _ _ => rw [summary_eq]
  | rejected incomplete _ _ => exact absurd complete incomplete
  | finish incomplete _ => exact absurd complete incomplete
  | gone incomplete => exact absurd complete incomplete

/-! ## Reading -/

/-- A map of the file answers what the merged curves of the pixels do. -/
theorem answer_of_finishes
    {writer : Texture.Writer}
    (finishes : image.Finishes (image.painted order) writer)
    (arrived : order.Perm (image.shadedBuckets subsamples))
    (countable : image.Countable (image.merged subsamples))
    (path : String)
    {capacity : Nat}
    (positive : 0 < capacity) :
    ∃ map, (ShadowMap.open path capacity (.ok writer.contents)).value = .ok map ∧
      ∀ requests : List (Nat × Nat × Single),
        (∀ x y depth, (x, y, depth) ∈ requests ->
          x < image.grid.imageWidth ∧ y < image.grid.imageHeight) ->
        ∃ last, ((ShadowMap.visibilities requests).answer map).value =
          .ok (requests.map fun (x, y, depth) =>
            ((merge (subsamples x y)).visibilityAt depth).seen image.channels, last) := by
  obtain ⟨reader, opened, grid_eq, _, _, _, loads⟩ := finishes.open_eq path
  obtain ⟨map, made, answers⟩ := ShadowMap.open_eq_ok path positive opened
  refine ⟨map, made, ?_⟩
  intro requests insideImage
  have known : ∀ x y depth, (x, y, depth) ∈ requests ->
      ∃ position tile, reader.grid.tileForPixel x y = .ok position ∧
        reader.load position = .ok tile ∧
        tile.visibilityAt x y depth =
          .ok (((merge (subsamples x y)).visibilityAt depth).seen image.channels) := by
    intro x y depth member
    obtain ⟨insideX, insideY⟩ := insideImage x y depth member
    have inside : image.grid.Contains (image.grid.owner x y) :=
      Grid.contains_owner insideX insideY
    have owned : (x, y) ∈ (image.grid.frame (image.grid.owner x y)).pixels := by
      rw [← Placement.contains_iff_mem_pixels, Grid.contains_frame_iff insideX insideY]
    refine ⟨image.grid.owner x y, _, ?_, ?_,
      Image.visibilityAt_merged countable inside owned depth⟩
    · rw [grid_eq]
      exact Grid.tileForPixel_eq_ok insideX insideY
    · rw [loads _ inside, Image.stored?_of_sameIn (Image.sameTiles_of_perm arrived _ inside),
        Image.stored?_merged countable inside]
  obtain ⟨last, answered, _⟩ := answers.answer_visibilities requests known
  exact ⟨last, answered⟩

/-! ## From one end to the other -/

/-- For all settings that are accepted, all subsamples, and all orders in which the
regions of the buckets arrive, the session reports one region for each bucket and
always the same summary.  The file is opened with a cache of any capacity, and answers
for each pixel and depth what the merged curve of the pixel does. -/
theorem shadows_of_subsamples
    (path : String)
    (settings : Settings)
    (grid : Grid)
    (accepted : settings.texture.grid = .ok grid)
    (hasPlaces : settings.capacity ≠ 0)
    (subsamples : Nat -> Nat -> List Subsample)
    (countable : (imageOf accepted).Countable ((imageOf accepted).merged subsamples))
    (fits : (imageOf accepted).fileSize ((imageOf accepted).merged subsamples) <
      0x100000000) :
    ∃ bucket regions session summary,
      BucketSize.ofSides settings.texture.bucketWidth.toNat
        settings.texture.bucketHeight.toNat = .ok bucket ∧
      (bucket.cover settings.texture.imageWidth.toNat settings.texture.imageHeight.toNat).mapM
        (fun bounds => shade bounds settings.texture.channels.toNat subsamples) = .ok regions ∧
      (start path settings none).value = .ok (.ok session) ∧
      (settings.texture.channels = 1 ∨ settings.texture.channels = 3) ∧
      ∀ order : List Region, order.Perm regions ->
        ∃ last writer,
          (session.receiveAll (order.map .region)).value = .ok last ∧
          last.join.value =
            (.ok
              { regions := (bucket.cover settings.texture.imageWidth.toNat
                  settings.texture.imageHeight.toNat).length
                summary },
              writer) ∧
          ∀ capacity, 0 < capacity ->
            ∃ map, (ShadowMap.open path capacity (.ok writer.contents)).value = .ok map ∧
              ∀ requests : List (Nat × Nat × Single),
                (∀ x y depth, (x, y, depth) ∈ requests ->
                  x < settings.texture.imageWidth.toNat ∧
                    y < settings.texture.imageHeight.toNat) ->
                ∃ answers lastMap,
                  ((ShadowMap.visibilities requests).answer map).value =
                    .ok (answers, lastMap) ∧
                  (settings.texture.channels = 3 ->
                    answers = requests.map fun (x, y, depth) =>
                      (merge (subsamples x y)).visibilityAt depth) ∧
                  (settings.texture.channels = 1 ->
                    answers = requests.map fun (x, y, depth) =>
                      Color.gray ((merge (subsamples x y)).visibilityAt depth).mean) := by
  obtain ⟨supported, width_eq, height_eq, _, _, bucketWidth_pos, bucketHeight_pos, _⟩ :=
    Texture.Settings.grid_eq_ok accepted
  have startFits : Texture.headerSize + Texture.Table.encodedSize grid < 0x100000000 :=
    Nat.lt_of_le_of_lt (Nat.le_add_right _ _) fits
  obtain ⟨session, started, going, regions_eq, waits⟩ :=
    start_eq_ok path accepted hasPlaces startFits
  have oneOrThree : settings.texture.channels = 1 ∨ settings.texture.channels = 3 := by
    rcases supportedChannels_iff.mp supported with one | three
    · exact Or.inl (UInt32.toNat_inj.mp one)
    · exact Or.inr (UInt32.toNat_inj.mp three)
  have sides : BucketSize.ofSides settings.texture.bucketWidth.toNat
      settings.texture.bucketHeight.toNat = .ok (imageOf accepted).bucket := by
    unfold BucketSize.ofSides
    rw [dif_pos bucketWidth_pos, dif_pos bucketHeight_pos]
    rfl
  rw [← width_eq, ← height_eq]
  refine ⟨_, _, session, (imageOf accepted).summary ((imageOf accepted).merged subsamples),
    sides, Image.mapM_shade countable, started, oneOrThree, ?_⟩
  intro order arrived
  obtain ⟨last, writer, received, joined, finishes⟩ :=
    waits.receiveAll_buckets going arrived countable fits
  have regionCount : session.regions + order.length =
      ((imageOf accepted).bucket.cover grid.imageWidth grid.imageHeight).length := by
    rw [regions_eq, Nat.zero_add, arrived.length_eq]
    exact List.length_map _
  rw [regionCount] at joined
  refine ⟨last, writer, received, joined, ?_⟩
  intro capacity positive
  obtain ⟨map, opened, answers⟩ := answer_of_finishes finishes arrived countable path positive
  refine ⟨map, opened, ?_⟩
  intro requests insideImage
  obtain ⟨lastMap, answered⟩ := answers requests insideImage
  refine ⟨_, lastMap, answered, ?_, ?_⟩
  · intro three
    have channels_eq : (imageOf accepted).channels = 3 := congrArg UInt32.toNat three
    rw [channels_eq]
    rfl
  · intro one
    have channels_eq : (imageOf accepted).channels = 1 := congrArg UInt32.toNat one
    rw [channels_eq]
    rfl

namespace TwoRows

/-- An opaque surface in front of the first pixel of the image. -/
def surfaces (x y : Nat) : List Subsample :=
  if x = 0 ∧ y = 0 then [⟨Single.one, .solid (Hit.ofDepth Single.one)⟩] else []

/-- Depths to look up, the last of which is not a number. -/
def requests : List (Nat × Nat × Single) :=
  [(0, 0, Single.half), (0, 0, Single.one), (2, 1, Single.invalid)]

end TwoRows

/-- The buckets arrive in reverse order.  The surface casts its shadow from its depth
on. -/
theorem shadows_of_subsamples_twoRows :
    ∃ bucket regions session summary last writer map lastMap,
      BucketSize.ofSides 2 1 = .ok bucket ∧
      (bucket.cover 3 2).mapM (fun bounds => shade bounds 1 TwoRows.surfaces) = .ok regions ∧
      (start "map" TwoRows.settings none).value = .ok (.ok session) ∧
      (session.receiveAll (regions.reverse.map .region)).value = .ok last ∧
      last.join.value = (.ok ⟨4, summary⟩, writer) ∧
      (ShadowMap.open "map" 1 (.ok writer.contents)).value = .ok map ∧
      ((ShadowMap.visibilities TwoRows.requests).answer map).value =
        .ok ([Color.white, Color.black, Color.white], lastMap) := by
  have decided : ∀ position ∈ (imageOf TwoRows.accepted).grid.positions,
      ((imageOf TwoRows.accepted).merged TwoRows.surfaces).nodeTotal
        (imageOf TwoRows.accepted).channels ((imageOf TwoRows.accepted).grid.frame position) <
          0x100000000 := by
    decide +kernel
  have countable : (imageOf TwoRows.accepted).Countable
      ((imageOf TwoRows.accepted).merged TwoRows.surfaces) :=
    fun position inside _ => decided position (Grid.mem_positions.mpr inside)
  have fits : (imageOf TwoRows.accepted).fileSize
      ((imageOf TwoRows.accepted).merged TwoRows.surfaces) < 0x100000000 := by
    decide +kernel
  obtain ⟨bucket, regions, session, summary, sides, made, started, _, anyOrder⟩ :=
    shadows_of_subsamples "map" TwoRows.settings _ TwoRows.accepted (by decide)
      TwoRows.surfaces countable fits
  obtain ⟨last, writer, received, joined, anyCapacity⟩ :=
    anyOrder regions.reverse (List.reverse_perm regions)
  obtain ⟨map, opened, anyRequests⟩ := anyCapacity 1 Nat.one_pos
  have insideImage : ∀ x y depth, (x, y, depth) ∈ TwoRows.requests -> x < 3 ∧ y < 2 := by
    intro x y depth member
    simp only [TwoRows.requests, List.mem_cons, List.not_mem_nil, or_false, Prod.mk.injEq]
      at member
    omega
  obtain ⟨answers, lastMap, answered, _, oneChannel⟩ := anyRequests _ insideImage
  have answers_eq : answers = [Color.white, Color.black, Color.white] := by
    rw [oneChannel rfl]
    decide +kernel
  have bucketCount : (bucket.cover 3 2).length = 4 := by
    cases sides
    decide +kernel
  have joined_eq : last.join.value = (.ok ⟨(bucket.cover 3 2).length, summary⟩, writer) := joined
  rw [answers_eq] at answered
  rw [bucketCount] at joined_eq
  exact ⟨bucket, regions, session, summary, last, writer, map, lastMap, sides, made, started,
    received, joined_eq, opened, answered⟩

end Session
end DeepShadow
