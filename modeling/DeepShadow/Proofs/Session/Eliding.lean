import DeepShadow.Proofs.Assembly.Eliding
import DeepShadow.Proofs.Texture.Eliding

/-!
# What is lost by eliding

Whether a tile is stored is decided in two places, by the writer of a file and by the
assembly in front of it, and in both from the numbers of nodes alone.  Nothing is lost
where functions start with a white node, as merged ones do.  A function whose only node
occludes something is lost when all its neighbours in the tile have one node as well.
-/

namespace DeepShadow
namespace Session

open Assembly (AssembledTile Image Sink)
open Texture (Submission)

/-- Eliding keeps all answers of a tile, except where each of its pixels has a single
node and one of these nodes is not clear.

A file is created, tiles are submitted in any order and number, and the file is
finished and opened again; it is too large exactly where nothing fits behind its
table.  The first tile is taken if it belongs to the image and there is room for its
block.  Every tile that was taken is loaded, and answers for all pixels and depths
what the submitted tile did if and only if the submitted tile is not neglectable or its
nodes are clear; what is loaded of a neglectable tile answers white.

An assembly that accepted regions for all pixels of a tile tells it to be neglectable
if and only if each of their functions for the tile has a single node.  Such a function
answers white at every depth if and only if its node is clear. -/
theorem lossless_iff_clear
    (path : String)
    (settings : Texture.Settings)
    (grid : Grid)
    (accepted : settings.grid = .ok grid)
    (submissions : List Submission) :
    (∃ writer results last,
      (Texture.Writer.create path settings none).value = .ok writer ∧
      (writer.submitAll submissions).value = (results, last) ∧
      if Texture.headerSize + Texture.Table.encodedSize grid < 0x100000000 then
        results.length = submissions.length ∧
        (∀ tile built rest, submissions = .tile tile built :: rest ->
          grid.placement tile.placement.position = .ok tile.placement ->
          tile.channels = settings.channels.toNat ->
          (tile.isNeglectable = false -> Texture.headerSize + Texture.Table.encodedSize grid +
            Texture.Block.size tile < 0x100000000) ->
          results.head? = some (.ok ())) ∧
        ∃ summary closed reader,
          last.finish.value = (.ok summary, closed) ∧
          (Texture.Reader.open path (.ok closed.contents)).value = .ok reader ∧
          ∀ tile built, tile.WellFormed ->
            (.tile tile built, .ok ()) ∈ submissions.zip results ->
            ∃ loaded, reader.load tile.placement.position = .ok loaded ∧
              ((∀ x y depth, loaded.visibilityAt x y depth = tile.visibilityAt x y depth) ↔
                (tile.isNeglectable = true -> tile.Clear)) ∧
              (tile.isNeglectable = true ->
                ∀ x y depth, loaded.visibilityAt x y depth = .ok Color.white)
      else last.finish.value.1 = .error .fileTooLarge) ∧
    ∀ (image : Image) {State Summary : Type} (sink : Sink State Summary) (state : State)
      (regions : List Region),
      (image.Countable (image.painted regions) ->
        ∃ taken offered, image.Offers sink state regions taken offered) ∧
      ∀ taken offered, image.Offers sink state regions taken offered ->
        ∀ position placement, image.grid.placement position = .ok placement ->
          image.Covered taken position ->
          (AssembledTile.neglectable position ∈ offered ↔
            ∀ region ∈ taken, ∀ x y, placement.contains x y = true ->
              region.bounds.Covers x y -> ∃ node, (region.curveAt x y).nodes = .ok [node]) ∧
          (AssembledTile.neglectable position ∈ offered ->
            ∀ region ∈ taken, ∀ x y, placement.contains x y = true ->
              region.bounds.Covers x y ->
              ((∀ depth, (region.curveAt x y).visibilityAt depth = .ok Color.white) ↔
                ∃ node, (region.curveAt x y).nodes = .ok [node] ∧ node.IsClear)) := by
  constructor
  · by_cases fits : Texture.headerSize + Texture.Table.encodedSize grid < 0x100000000
    · obtain ⟨writer, results, last, summary, closed, reader, created, represents, submitted,
        sameLength, finished, opened, loads⟩ :=
        Texture.load_readBack path accepted fits submissions
      refine ⟨writer, results, last, created, submitted, ?_⟩
      rw [if_pos fits]
      refine ⟨sameLength, ?_, summary, closed, reader, finished, opened, ?_⟩
      · intro tile built rest first framed channels_eq roomLeft
        exact represents.head_taken submitted first framed channels_eq roomLeft
      · intro tile built wellFormed taken
        exact ⟨_, loads tile built taken, wellFormed.readBack_iff,
          wellFormed.visibilityAt_readBack⟩
    · obtain ⟨writer, created, overfull⟩ := Texture.Writer.create_overfull path accepted fits
      refine ⟨writer, _, _, created, rfl, ?_⟩
      rw [if_neg fits]
      exact (overfull.submitAll submissions).finish_eq
  · intro image State Summary sink state regions
    refine ⟨fun countable => ⟨_, _, image.offers_taken sink state regions countable⟩, ?_⟩
    intro taken offered offers position placement placed covered
    have inside : image.grid.Contains position := by
      by_contra outside
      rw [Grid.placement_eq_error outside] at placed
      cases placed
    rw [Grid.placement_eq_ok inside] at placed
    cases placed
    have single_iff := offers.neglectable_iff_single inside covered
    refine ⟨single_iff, ?_⟩
    intro neglectable region member x y contained covers
    obtain ⟨node, single⟩ := single_iff.mp neglectable region member x y contained covers
    exact StoredCurve.white_iff_exists_of_single single

namespace OnePixel

/-- The settings of a file with a single pixel. -/
def settings : Texture.Settings :=
  { imageWidth := 1
    imageHeight := 1
    tileWidth := 1
    tileHeight := 1
    bucketWidth := 1
    bucketHeight := 1
    channels := 1 }

/-- The image of this pixel. -/
def image : Image where
  grid :=
    { imageWidth := 1
      imageHeight := 1
      tileWidth := 1
      tileHeight := 1
      imageWidth_pos := Nat.one_pos
      imageHeight_pos := Nat.one_pos
      tileWidth_pos := Nat.one_pos
      tileHeight_pos := Nat.one_pos
      tileCount_lt := by decide }
  bucket := { width := 1, height := 1, width_pos := Nat.one_pos, height_pos := Nat.one_pos }
  divides := by decide
  channels := 1
  supported := supportedChannels_one

/-- A tile whose pixel has a single node. -/
def tile (node : Node) : Tile :=
  { placement := ⟨⟨0, 0⟩, 0, 0, 1, 1⟩
    channels := 1
    offsets := #[0, 1]
    values := #[node.depth, node.visibility.red] }

/-- A region whose pixel has a single node. -/
def region (node : Node) : Region :=
  ⟨⟨0, 0, 1, 1⟩, 1, some [1], [node.depth, node.visibility.red]⟩

/-- A node that occludes everything from the start. -/
def shadow : Node := ⟨Single.zero, Color.black⟩

/-- A node from whose depth on nothing is occluded either. -/
def light : Node := ⟨Single.half, Color.white⟩

theorem made_tile (node : Node) :
    Tile.ofParts (tile node).placement 1 (tile node).offsets (tile node).values =
      .ok (tile node) := rfl

theorem accepted : settings.grid = .ok image.grid := by decide

/-- What the tile and the region have for their pixel. -/
theorem nodes_eq (node : Node) :
    (StoredCurve.mk 1 #[node.depth, node.visibility.red]).nodes =
      .ok [⟨node.depth, Color.gray node.visibility.red⟩] :=
  StoredCurve.nodes_eq_singleton_iff.mpr ⟨Nat.div_self (Nat.succ_pos 1), rfl, rfl⟩

theorem curveAtPixel_tile (node : Node) :
    (tile node).curveAtPixel 0 0 =
      .ok (some ⟨1, #[node.depth, node.visibility.red]⟩) := by
  cbv

theorem contains_iff {x y : Nat} :
    (image.grid.frame ⟨0, 0⟩).contains x y = true ↔ x = 0 ∧ y = 0 := by
  rw [Placement.contains_iff_mem_pixels]
  simp [Placement.mem_pixels, Grid.frame, image]

theorem covered_region (node : Node) : image.Covered [region node] ⟨0, 0⟩ := by
  intro x y contained
  refine ⟨region node, List.mem_singleton_self _, ?_⟩
  obtain ⟨rfl, rfl⟩ := contains_iff.mp contained
  exact (show (Rectangle.mk 0 0 1 1).Covers 0 0 by decide)

/-- The regions of one node are taken. -/
theorem exists_offers
    (node : Node)
    (taken_eq : image.taken [region node] = [region node])
    (decided : ∀ position ∈ image.grid.positions,
      (image.painted [region node]).nodeTotal image.channels (image.grid.frame position) <
        0x100000000) :
    ∃ offered, image.Offers (Assembly.Recording.sink none false) Assembly.Recording.empty
      [region node] [region node] offered := by
  have countable : image.Countable (image.painted [region node]) :=
    fun position inside _ => decided position (Grid.mem_positions.mpr inside)
  have offers := image.offers_taken (Assembly.Recording.sink none false)
    Assembly.Recording.empty _ countable
  rw [taken_eq] at offers
  exact ⟨_, offers⟩

end OnePixel

/-- A node that is white changes nothing, at whatever depth it lies. -/
theorem lossless_iff_clear_onePixel :
    ∃ writer last summary closed reader loaded offered,
      (Texture.Writer.create "map" OnePixel.settings none).value = .ok writer ∧
      (writer.submitAll [.tile _ (.ofParts (OnePixel.made_tile OnePixel.light))]).value =
        ([.ok ()], last) ∧
      last.finish.value = (.ok summary, closed) ∧
      (Texture.Reader.open "map" (.ok closed.contents)).value = .ok reader ∧
      reader.load ⟨0, 0⟩ = .ok loaded ∧
      (∀ x y depth, loaded.visibilityAt x y depth =
        (OnePixel.tile OnePixel.light).visibilityAt x y depth) ∧
      OnePixel.image.Offers (Assembly.Recording.sink none false) Assembly.Recording.empty
        [OnePixel.region OnePixel.light] [OnePixel.region OnePixel.light] offered ∧
      AssembledTile.neglectable ⟨0, 0⟩ ∈ offered ∧
      ∀ depth, ((OnePixel.region OnePixel.light).curveAt 0 0).visibilityAt depth =
        .ok Color.white := by
  obtain ⟨⟨writer, results, last, created, submitted, file⟩, assembly⟩ :=
    lossless_iff_clear "map" OnePixel.settings _ OnePixel.accepted
      [.tile _ (.ofParts (OnePixel.made_tile OnePixel.light))]
  rw [if_pos (by decide)] at file
  obtain ⟨sameLength, headTaken, summary, closed, reader, finished, opened, loads⟩ := file
  have head_eq := headTaken _ _ [] rfl rfl rfl (fun stored => by cases stored)
  obtain ⟨result, rfl⟩ := List.length_eq_one_iff.mp sameLength
  cases head_eq
  have clear : (OnePixel.tile OnePixel.light).Clear := by
    intro x y contained
    obtain ⟨rfl, rfl⟩ := OnePixel.contains_iff.mp contained
    exact ⟨_, _, OnePixel.curveAtPixel_tile _, OnePixel.nodes_eq _, Or.inl rfl⟩
  obtain ⟨loaded, load_eq, same_iff, _⟩ :=
    loads _ _ (Tile.WellFormed.ofParts (OnePixel.made_tile OnePixel.light))
      (List.mem_singleton_self _)
  obtain ⟨offered, offers⟩ := OnePixel.exists_offers OnePixel.light (by decide +kernel)
    (by decide +kernel)
  obtain ⟨_, decisions⟩ := assembly OnePixel.image (Assembly.Recording.sink none false)
    Assembly.Recording.empty [OnePixel.region OnePixel.light]
  obtain ⟨neglectable_iff, white_iff⟩ := decisions _ offered offers ⟨0, 0⟩ _ rfl
    (OnePixel.covered_region _)
  have neglectable : AssembledTile.neglectable ⟨0, 0⟩ ∈ offered := by
    rw [neglectable_iff]
    intro region member x y contained _
    rw [List.mem_singleton.mp member]
    obtain ⟨rfl, rfl⟩ := OnePixel.contains_iff.mp contained
    exact ⟨_, OnePixel.nodes_eq _⟩
  refine ⟨writer, last, summary, closed, reader, loaded, offered, created, submitted, finished,
    opened, load_eq, same_iff.mpr fun _ => clear, offers, neglectable, ?_⟩
  rw [white_iff neglectable _ (List.mem_singleton_self _) 0 0 (by decide) (by decide)]
  exact ⟨_, OnePixel.nodes_eq _, Or.inl rfl⟩

/-- A single node that is black is lost on both ways: the tile is taken and answers
white after it was read back, and an assembly tells the tile of the same node to be
neglectable. -/
theorem shadow_elided :
    (Tile.ofParts ⟨⟨0, 0⟩, 0, 0, 1, 1⟩ 1 #[0, 1] #[Single.zero, Single.zero] =
        .ok (OnePixel.tile OnePixel.shadow) ∧
      (OnePixel.tile OnePixel.shadow).visibilityAt 0 0 Single.zero = .ok Color.black ∧
      ∃ writer last summary closed reader loaded,
        (Texture.Writer.create "map" OnePixel.settings none).value = .ok writer ∧
        (writer.submitAll [.tile _ (.ofParts (OnePixel.made_tile OnePixel.shadow))]).value =
          ([.ok ()], last) ∧
        last.finish.value = (.ok summary, closed) ∧
        (Texture.Reader.open "map" (.ok closed.contents)).value = .ok reader ∧
        reader.load ⟨0, 0⟩ = .ok loaded ∧
        loaded.visibilityAt 0 0 Single.zero = .ok Color.white) ∧
    ∃ offered,
      OnePixel.image.Offers (Assembly.Recording.sink none false) Assembly.Recording.empty
        [OnePixel.region OnePixel.shadow] [OnePixel.region OnePixel.shadow] offered ∧
      OnePixel.image.Covered [OnePixel.region OnePixel.shadow] ⟨0, 0⟩ ∧
      AssembledTile.neglectable ⟨0, 0⟩ ∈ offered ∧
      ((OnePixel.region OnePixel.shadow).curveAt 0 0).visibilityAt Single.zero =
        .ok Color.black := by
  have answer : (StoredCurve.mk 1 #[Single.zero, Single.zero]).visibilityAt Single.zero =
      .ok Color.black :=
    StoredCurve.visibilityAt_of_single (OnePixel.nodes_eq OnePixel.shadow) Single.zero
  constructor
  · obtain ⟨writer, results, last, summary, closed, reader, created, represents, submitted,
      sameLength, finished, opened, loads⟩ :=
      Texture.load_readBack "map" OnePixel.accepted (by decide)
        [.tile _ (.ofParts (OnePixel.made_tile OnePixel.shadow))]
    have head_eq := represents.head_taken submitted rfl rfl rfl (fun stored => by cases stored)
    obtain ⟨result, rfl⟩ := List.length_eq_one_iff.mp sameLength
    cases head_eq
    have wellFormed := Tile.WellFormed.ofParts (OnePixel.made_tile OnePixel.shadow)
    refine ⟨OnePixel.made_tile OnePixel.shadow, ?_, writer, last, summary, closed, reader, _,
      created, submitted, finished, opened, loads _ _ (List.mem_singleton_self _),
      wellFormed.visibilityAt_readBack (by decide) 0 0 Single.zero⟩
    rw [Tile.visibilityAt_of_curve (OnePixel.curveAtPixel_tile _)]
    exact answer
  · obtain ⟨offered, offers⟩ := OnePixel.exists_offers OnePixel.shadow (by decide +kernel)
      (by decide +kernel)
    refine ⟨offered, offers, OnePixel.covered_region _, ?_, answer⟩
    rw [offers.neglectable_iff_single (by decide) (OnePixel.covered_region _)]
    intro region member x y contained _
    rw [List.mem_singleton.mp member]
    obtain ⟨rfl, rfl⟩ := OnePixel.contains_iff.mp contained
    exact ⟨_, OnePixel.nodes_eq _⟩

end Session
end DeepShadow
