import Mathlib.Data.Finset.Prod
import Mathlib.Order.Interval.Finset.Nat
import DeepShadow.Assembly.Assembler
import DeepShadow.Proofs.Assembly.Runs
import DeepShadow.Proofs.Grid.Pixels

/-!
# The canvas

What an assembly has received is a canvas: the run of each pixel that has
arrived.  A region paints the pixels of its rectangle.  The canvas does not know
tiles, buckets or strips, nor in which order its pixels arrived, and a complete
tile is a function of the canvas alone.
-/

namespace DeepShadow

open Region (nodeTotal)

/-! ## The runs of a region -/

/-- Cuts values into runs with the given numbers of nodes. -/
def splitRuns (stride : Nat) : List Nat -> List Single -> List (List Single)
  | [], _ => []
  | length :: lengths, values =>
      values.take (length * stride) :: splitRuns stride lengths (values.drop (length * stride))

@[simp] theorem length_splitRuns
    (stride : Nat)
    (lengths : List Nat)
    (values : List Single) :
    (splitRuns stride lengths values).length = lengths.length := by
  induction lengths generalizing values with
  | nil => rfl
  | cons length lengths inductionHypothesis =>
      rw [splitRuns, List.length_cons, List.length_cons, inductionHypothesis]

theorem splitRuns_append
    (stride : Nat)
    (first second : List Nat)
    (values : List Single) :
    splitRuns stride (first ++ second) values =
      splitRuns stride first (values.take (nodeTotal first * stride)) ++
        splitRuns stride second (values.drop (nodeTotal first * stride)) := by
  induction first generalizing values with
  | nil => simp [splitRuns]
  | cons length first inductionHypothesis =>
      have front : length * stride ≤ (length + nodeTotal first) * stride :=
        Nat.mul_le_mul_right _ (Nat.le_add_right _ _)
      rw [List.cons_append, splitRuns, splitRuns, inductionHypothesis, Region.nodeTotal_cons,
        List.cons_append, List.take_take, Nat.min_eq_left front, List.drop_take, List.drop_drop,
        ← Nat.add_mul, ← Nat.sub_mul, Nat.add_sub_cancel_left]

/-- The runs are the values, and each has its number of nodes. -/
theorem splitRuns_eq
    {stride : Nat}
    {lengths : List Nat}
    {values : List Single}
    (enough : values.length = nodeTotal lengths * stride) :
    (splitRuns stride lengths values).flatten = values ∧
      (splitRuns stride lengths values).map List.length = lengths.map (· * stride) := by
  induction lengths generalizing values with
  | nil =>
      rw [Region.nodeTotal_nil, Nat.zero_mul, List.length_eq_zero_iff] at enough
      rw [enough]
      exact ⟨rfl, rfl⟩
  | cons length lengths inductionHypothesis =>
      rw [Region.nodeTotal_cons, Nat.add_mul] at enough
      have rest : (values.drop (length * stride)).length = nodeTotal lengths * stride := by
        rw [List.length_drop]
        omega
      obtain ⟨flatten_eq, lengths_eq⟩ := inductionHypothesis rest
      constructor
      · rw [splitRuns, List.flatten_cons, flatten_eq, List.take_append_drop]
      · rw [splitRuns, List.map_cons, List.map_cons, lengths_eq, List.length_take,
          Nat.min_eq_left (by omega)]

theorem nodeCounts_splitRuns
    {channels : Nat}
    {lengths : List Nat}
    {values : List Single}
    (enough : values.length = nodeTotal lengths * (channels + 1)) :
    nodeCounts channels (splitRuns (channels + 1) lengths values) = lengths := by
  have lengths_eq := congrArg (List.map (· / (channels + 1))) (splitRuns_eq enough).2
  rw [List.map_map, List.map_map] at lengths_eq
  unfold nodeCounts
  calc (splitRuns (channels + 1) lengths values).map (fun run => run.length / (channels + 1))
      = lengths.map ((· / (channels + 1)) ∘ (· * (channels + 1))) := lengths_eq
    _ = lengths.map id := List.map_congr_left fun length _ =>
          Nat.mul_div_cancel length (Nat.succ_pos channels)
    _ = lengths := List.map_id _

theorem isRun_splitRuns
    {channels : Nat}
    {lengths : List Nat}
    {values : List Single}
    (enough : values.length = nodeTotal lengths * (channels + 1))
    (positive : ∀ length ∈ lengths, 0 < length) :
    ∀ run ∈ splitRuns (channels + 1) lengths values, IsRun channels run := by
  intro run member
  have lengthMember : run.length ∈ lengths.map (· * (channels + 1)) := by
    rw [← (splitRuns_eq enough).2]
    exact List.mem_map_of_mem member
  obtain ⟨length, inLengths, equal⟩ := List.mem_map.mp lengthMember
  exact ⟨length, positive length inLengths, equal.symm⟩

/-- The node of a pixel that nothing occludes is a run. -/
theorem isRun_visibleNode (channels : Nat) : IsRun channels (Tile.visibleNode channels) := by
  refine ⟨1, Nat.one_pos, ?_⟩
  rw [Tile.length_visibleNode, Nat.one_mul]

namespace Region

/-- The curves of a region fit its rectangle and its values. -/
def WellFormed (region : Region) : Prop :=
  ∀ lengths, region.lengths = some lengths ->
    lengths.length = region.bounds.pixelCount ∧
      (∀ length ∈ lengths, 0 < length) ∧
      region.values.length = nodeTotal lengths * (region.channels + 1)

/-- The runs of the pixels of a region, row by row. -/
def runs (region : Region) : List (List Single) :=
  match region.lengths with
  | none => List.replicate region.bounds.pixelCount (Tile.visibleNode region.channels)
  | some lengths => splitRuns (region.channels + 1) lengths region.values

/-- The place of a pixel among the pixels of a region. -/
def pixelIndex (region : Region) (x y : Nat) : Nat :=
  (y - region.bounds.top) * region.bounds.width + (x - region.bounds.left)

/-- The run that a region carries for a pixel. -/
def runAt (region : Region) (x y : Nat) : List Single :=
  region.runs.getD (region.pixelIndex x y) []

/-- The number of nodes that a region tells for a pixel; one where nothing is
occluded. -/
def lengthAt (region : Region) (x y : Nat) : Nat :=
  match region.lengths with
  | none => 1
  | some lengths => lengths.getD (region.pixelIndex x y) 0

/-- A well-formed region carries one run for each of its pixels. -/
theorem WellFormed.length_runs
    {region : Region}
    (wellFormed : region.WellFormed) :
    region.runs.length = region.bounds.pixelCount := by
  unfold runs
  cases carried : region.lengths with
  | none => exact List.length_replicate
  | some lengths =>
      obtain ⟨count, _, _⟩ := wellFormed lengths carried
      simp only [length_splitRuns]
      exact count

theorem WellFormed.areRuns
    {region : Region}
    (wellFormed : region.WellFormed) :
    ∀ run ∈ region.runs, IsRun region.channels run := by
  unfold runs
  cases carried : region.lengths with
  | none =>
      intro run member
      rw [List.eq_of_mem_replicate member]
      exact isRun_visibleNode region.channels
  | some lengths =>
      obtain ⟨_, positive, enough⟩ := wellFormed lengths carried
      exact isRun_splitRuns enough positive

/-- The place of a pixel is one of the places of the runs. -/
theorem pixelIndex_lt
    {region : Region}
    {x y : Nat}
    (covers : region.bounds.Covers x y) :
    region.pixelIndex x y < region.bounds.pixelCount := by
  obtain ⟨⟨left, right⟩, top, bottom⟩ := covers
  unfold pixelIndex Rectangle.pixelCount
  have column : x - region.bounds.left < region.bounds.width := by
    unfold Rectangle.width
    omega
  have row : y - region.bounds.top < region.bounds.height := by
    unfold Rectangle.height
    omega
  rw [Nat.mul_comm region.bounds.width]
  exact place_in_rows_lt column row

theorem WellFormed.isRun_runAt
    {region : Region}
    (wellFormed : region.WellFormed)
    {x y : Nat}
    (covers : region.bounds.Covers x y) :
    IsRun region.channels (region.runAt x y) := by
  have bound := pixelIndex_lt covers
  rw [← wellFormed.length_runs] at bound
  unfold runAt
  rw [List.getD_eq_getElem?_getD, List.getElem?_eq_getElem bound, Option.getD_some]
  exact wellFormed.areRuns _ (List.getElem_mem bound)

/-- The run of a pixel has the number of nodes that the region tells for it. -/
theorem WellFormed.length_runAt
    {region : Region}
    (wellFormed : region.WellFormed)
    {x y : Nat}
    (covers : region.bounds.Covers x y) :
    (region.runAt x y).length / (region.channels + 1) = region.lengthAt x y := by
  have bound := pixelIndex_lt covers
  unfold runAt lengthAt runs
  cases carried : region.lengths with
  | none =>
      simp only
      rw [List.getD_eq_getElem?_getD, List.getElem?_replicate, if_pos bound, Option.getD_some,
        Tile.length_visibleNode, Nat.div_self (Nat.succ_pos _)]
  | some lengths =>
      obtain ⟨count, _, enough⟩ := wellFormed lengths carried
      have counts := nodeCounts_splitRuns enough
      rw [← count] at bound
      simp only
      rw [List.getD_eq_getElem?_getD, List.getD_eq_getElem?_getD]
      conv_rhs => rw [← counts]
      unfold nodeCounts
      rw [List.getElem?_map, List.getElem?_eq_getElem (by rw [length_splitRuns]; exact bound)]
      rfl

end Region

/-! ## Canvases -/

/-- The run of each pixel that has arrived. -/
abbrev Canvas := Nat -> Nat -> Option (List Single)

namespace Canvas

/-- The canvas on which nothing has arrived. -/
def blank : Canvas := fun _ _ => none

/-- The canvas after a region has arrived. -/
def paint (canvas : Canvas) (region : Region) : Canvas := fun x y =>
  if region.bounds.Covers x y then some (region.runAt x y) else canvas x y

/-- Whether a pixel has arrived. -/
def has (canvas : Canvas) (x y : Nat) : Bool := (canvas x y).isSome

/-- Whether all pixels of a tile have arrived. -/
def Completes (canvas : Canvas) (placement : Placement) : Prop :=
  ∀ pixel ∈ placement.pixels, canvas.has pixel.1 pixel.2 = true

instance (canvas : Canvas) (placement : Placement) : Decidable (canvas.Completes placement) :=
  inferInstanceAs (Decidable (∀ _ ∈ _, _))

/-- The runs of the pixels of a tile, row by row. -/
def runs (canvas : Canvas) (placement : Placement) : List (List Single) :=
  placement.pixels.map fun pixel => (canvas pixel.1 pixel.2).getD []

/-- The number of nodes of a tile. -/
def nodeTotal (canvas : Canvas) (channels : Nat) (placement : Placement) : Nat :=
  Region.nodeTotal (nodeCounts channels (canvas.runs placement))

/-- The tile of a canvas on which all its pixels have arrived. -/
def assemble
    (canvas : Canvas)
    (channels : Nat)
    (placement : Placement) : Assembly.AssembledTile :=
  if ∀ count ∈ nodeCounts channels (canvas.runs placement), count = 1 then
    .neglectable placement.position
  else .stored (Tile.ofRuns placement channels (canvas.runs placement))

/-- What becomes of all pixels of a tile.  There is no tile where its offsets do not
count its nodes. -/
def build
    (canvas : Canvas)
    (channels : Nat)
    (placement : Placement) : Except Violation Assembly.AssembledTile :=
  if ∀ count ∈ nodeCounts channels (canvas.runs placement), count = 1 then
    .ok (.neglectable placement.position)
  else match Tile.ofParts placement channels
      (Assembly.PendingTile.offsets (nodeCounts channels (canvas.runs placement)))
      (canvas.runs placement).flatten.toArray with
    | .ok tile => .ok (.stored tile)
    | .error error =>
        .error (.inconsistentTile placement.position.row placement.position.column error.message)

/-- All that has arrived on one canvas is on another one as well. -/
def Extends (later earlier : Canvas) : Prop :=
  ∀ x y run, earlier x y = some run -> later x y = some run

/-- What has arrived are runs. -/
def Sound (canvas : Canvas) (channels : Nat) : Prop :=
  ∀ x y run, canvas x y = some run -> IsRun channels run

variable {canvas later : Canvas} {region : Region} {placement : Placement} {channels x y : Nat}

theorem paint_of_covers (covers : region.bounds.Covers x y) :
    canvas.paint region x y = some (region.runAt x y) := if_pos covers

theorem paint_of_not_covers (outside : ¬region.bounds.Covers x y) :
    canvas.paint region x y = canvas x y := if_neg outside

theorem has_paint :
    (canvas.paint region).has x y = (decide (region.bounds.Covers x y) || canvas.has x y) := by
  unfold has
  by_cases covers : region.bounds.Covers x y
  · rw [paint_of_covers covers, decide_eq_true covers]
    rfl
  · rw [paint_of_not_covers covers, decide_eq_false covers]
    rfl

theorem Extends.refl (canvas : Canvas) : canvas.Extends canvas := fun _ _ _ arrived => arrived

theorem Extends.trans
    {last : Canvas}
    (second : last.Extends later)
    (first : later.Extends canvas) :
    last.Extends canvas :=
  fun x y run arrived => second x y run (first x y run arrived)

/-- A region that paints blank pixels leaves the others. -/
theorem extends_paint
    (isBlank : ∀ x y, region.bounds.Covers x y -> canvas x y = none) :
    (canvas.paint region).Extends canvas := by
  intro x y run arrived
  by_cases covers : region.bounds.Covers x y
  · rw [isBlank x y covers] at arrived
    cases arrived
  · rw [paint_of_not_covers covers]
    exact arrived

theorem sound_blank (channels : Nat) : blank.Sound channels := by
  intro x y run arrived
  cases arrived

theorem Sound.paint
    (sound : canvas.Sound channels)
    (wellFormed : region.WellFormed)
    (channels_eq : region.channels = channels) :
    (canvas.paint region).Sound channels := by
  intro x y run arrived
  by_cases covers : region.bounds.Covers x y
  · rw [paint_of_covers covers] at arrived
    cases arrived
    rw [← channels_eq]
    exact wellFormed.isRun_runAt covers
  · rw [paint_of_not_covers covers] at arrived
    exact sound x y run arrived

theorem Extends.completes
    (extend : later.Extends canvas)
    (completes : canvas.Completes placement) :
    later.Completes placement := by
  intro pixel member
  obtain ⟨run, arrived⟩ := Option.isSome_iff_exists.mp (completes pixel member)
  unfold has
  rw [extend _ _ _ arrived]
  rfl

/-- Two canvases are the same in the rectangle of a tile. -/
def SameIn (placement : Placement) (later earlier : Canvas) : Prop :=
  ∀ pixel ∈ placement.pixels, later pixel.1 pixel.2 = earlier pixel.1 pixel.2

theorem SameIn.completes_iff (same : later.SameIn placement canvas) :
    later.Completes placement ↔ canvas.Completes placement := by
  unfold Completes has
  constructor
  · intro completes pixel member
    rw [← same pixel member]
    exact completes pixel member
  · intro completes pixel member
    rw [same pixel member]
    exact completes pixel member

theorem SameIn.runs_eq (same : later.SameIn placement canvas) :
    later.runs placement = canvas.runs placement := by
  unfold runs
  apply List.map_congr_left
  intro pixel member
  rw [same pixel member]

/-- A complete tile does not change any more. -/
theorem Extends.runs_eq
    (extend : later.Extends canvas)
    (completes : canvas.Completes placement) :
    later.runs placement = canvas.runs placement := by
  unfold runs
  apply List.map_congr_left
  intro pixel member
  obtain ⟨run, arrived⟩ := Option.isSome_iff_exists.mp (completes pixel member)
  rw [arrived, extend _ _ _ arrived]

theorem Extends.assemble_eq
    (extend : later.Extends canvas)
    (completes : canvas.Completes placement) :
    later.assemble channels placement = canvas.assemble channels placement := by
  unfold assemble
  rw [extend.runs_eq completes]

theorem Extends.nodeTotal_eq
    (extend : later.Extends canvas)
    (completes : canvas.Completes placement) :
    later.nodeTotal channels placement = canvas.nodeTotal channels placement := by
  unfold nodeTotal
  rw [extend.runs_eq completes]

@[simp] theorem length_runs (canvas : Canvas) (placement : Placement) :
    (canvas.runs placement).length = placement.pixelCount := by
  unfold runs
  rw [List.length_map, Placement.length_pixels]

theorem Sound.isRun_runs
    (sound : canvas.Sound channels)
    (completes : canvas.Completes placement) :
    ∀ run ∈ canvas.runs placement, IsRun channels run := by
  intro run member
  obtain ⟨pixel, pixelMember, rfl⟩ := List.mem_map.mp member
  obtain ⟨run, arrived⟩ := Option.isSome_iff_exists.mp (completes pixel pixelMember)
  rw [arrived]
  exact sound _ _ _ arrived

/-- Where there is a tile, it is the one of the canvas. -/
theorem eq_assemble_of_build
    {assembled : Assembly.AssembledTile}
    (built : canvas.build channels placement = .ok assembled) :
    assembled = canvas.assemble channels placement := by
  unfold build at built
  unfold assemble
  split at built
  next single =>
    cases built
    rw [if_pos single]
  next notSingle =>
    rw [if_neg notSingle]
    split at built
    next tile made =>
      cases built
      rw [(Tile.ofParts_eq_ok_iff.mp made).2]
      rfl
    next => cases built

/-- There is a tile where its nodes can be counted. -/
theorem Sound.build_eq_ok
    (supported : supportedChannels channels = true)
    (sound : canvas.Sound channels)
    (completes : canvas.Completes placement)
    (countable : canvas.nodeTotal channels placement < 0x100000000) :
    canvas.build channels placement = .ok (canvas.assemble channels placement) := by
  unfold build assemble
  split
  · rfl
  · rw [Tile.ofParts_ofRuns supported (canvas.length_runs placement)
      (sound.isRun_runs completes) countable]

/-- A canvas carries what some regions carry, no two of them for one pixel. -/
structure Pictures (regions : List Region) (canvas : Canvas) : Prop where
  runAt_eq : ∀ region ∈ regions, ∀ x y, region.bounds.Covers x y ->
    canvas x y = some (region.runAt x y)
  exists_region : ∀ x y, canvas.has x y = true ->
    ∃ region ∈ regions, region.bounds.Covers x y
  disjoint : regions.Pairwise fun first second =>
    ∀ x y, first.bounds.Covers x y -> ¬second.bounds.Covers x y

theorem pictures_blank : blank.Pictures [] := by
  refine ⟨?_, ?_, List.Pairwise.nil⟩
  · intro region member
    cases member
  · intro x y arrived
    cases arrived

theorem Pictures.paint
    {regions : List Region}
    (pictures : canvas.Pictures regions)
    (isBlank : ∀ x y, region.bounds.Covers x y -> canvas x y = none) :
    (canvas.paint region).Pictures (regions ++ [region]) := by
  refine ⟨?_, ?_, ?_⟩
  · intro other member x y covers
    rcases List.mem_append.mp member with earlier | last
    · exact extends_paint isBlank x y _ (pictures.runAt_eq other earlier x y covers)
    · rw [List.mem_singleton.mp last] at covers ⊢
      exact paint_of_covers covers
  · intro x y arrived
    rw [has_paint, Bool.or_eq_true, decide_eq_true_eq] at arrived
    rcases arrived with covers | earlier
    · exact ⟨region, List.mem_append_right _ List.mem_cons_self, covers⟩
    · obtain ⟨other, member, covers⟩ := pictures.exists_region x y earlier
      exact ⟨other, List.mem_append_left _ member, covers⟩
  · rw [List.pairwise_append]
    refine ⟨pictures.disjoint, List.pairwise_singleton _ _, ?_⟩
    intro other member last lastMember x y covers lastCovers
    rw [List.mem_singleton.mp lastMember] at lastCovers
    have arrived := pictures.runAt_eq other member x y covers
    rw [isBlank x y lastCovers] at arrived
    cases arrived

theorem Pictures.has_iff
    {regions : List Region}
    (pictures : canvas.Pictures regions)
    (x y : Nat) :
    canvas.has x y = true ↔ ∃ region ∈ regions, region.bounds.Covers x y := by
  refine ⟨pictures.exists_region x y, ?_⟩
  rintro ⟨region, member, covers⟩
  unfold has
  rw [pictures.runAt_eq region member x y covers]
  rfl

/-! ## Tiles of a canvas -/

/-- The tile of a canvas has the run of each of its pixels. -/
theorem Sound.curveAtPixel_ofRuns
    (supported : supportedChannels channels = true)
    (sound : canvas.Sound channels)
    (completes : canvas.Completes placement)
    (countable : canvas.nodeTotal channels placement < 0x100000000)
    (member : (x, y) ∈ placement.pixels)
    {run : List Single}
    (arrived : canvas x y = some run) :
    (Tile.ofRuns placement channels (canvas.runs placement)).curveAtPixel x y =
      .ok (some ⟨channels, run.toArray⟩) := by
  obtain ⟨⟨left, right⟩, top, bottom⟩ := Placement.mem_pixels.mp member
  have insideX : x - placement.originX < placement.width := by omega
  have insideY : y - placement.originY < placement.height := by omega
  have run_eq : (canvas.runs placement).getD
      ((y - placement.originY) * placement.width + (x - placement.originX)) [] = run := by
    unfold runs
    rw [List.getD_eq_getElem?_getD, List.getElem?_map, Placement.getElem?_pixels insideX insideY,
      Nat.add_sub_of_le left, Nat.add_sub_of_le top, Option.map_some, arrived]
    rfl
  have contained : (Tile.ofRuns placement channels (canvas.runs placement)).placement.contains x y =
      true := Placement.contains_iff_mem_pixels.mpr member
  unfold Tile.curveAtPixel
  rw [if_pos contained]
  have curve_eq := Tile.curve_ofRuns supported (length_runs canvas placement)
    (sound.isRun_runs completes) countable insideX insideY
  rw [run_eq] at curve_eq
  exact congrArg (Except.map some) curve_eq

/-- Whether a tile has to be stored is decided pixel by pixel. -/
theorem forall_nodeCounts_runs
    (predicate : Nat -> Prop) :
    (∀ count ∈ nodeCounts channels (canvas.runs placement), predicate count) ↔
      ∀ pixel ∈ placement.pixels,
        predicate (((canvas pixel.1 pixel.2).getD []).length / (channels + 1)) := by
  unfold nodeCounts runs
  rw [List.map_map, List.forall_mem_map]
  rfl

theorem position_assemble :
    (canvas.assemble channels placement).position = placement.position := by
  unfold assemble
  split <;> rfl

/-! ## Counting pixels -/

/-- The pixels of a tile, as a set. -/
def area (placement : Placement) : Finset (Nat × Nat) :=
  Finset.Ico placement.originX (placement.originX + placement.width) ×ˢ
    Finset.Ico placement.originY (placement.originY + placement.height)

/-- The number of pixels of a tile that have arrived. -/
def arrivedCount (canvas : Canvas) (placement : Placement) : Nat :=
  ((area placement).filter fun pixel => canvas.has pixel.1 pixel.2 = true).card

theorem mem_area : (x, y) ∈ area placement ↔ (x, y) ∈ placement.pixels := by
  unfold area
  rw [Finset.mem_product, Finset.mem_Ico, Finset.mem_Ico, Placement.mem_pixels]

/-- A tile is complete when as many pixels have arrived as it has. -/
theorem arrivedCount_eq_iff :
    canvas.arrivedCount placement = placement.pixelCount ↔ canvas.Completes placement := by
  have card_area : (area placement).card = placement.pixelCount := by
    unfold area Placement.pixelCount
    rw [Finset.card_product, Nat.card_Ico, Nat.card_Ico, Nat.add_sub_cancel_left,
      Nat.add_sub_cancel_left]
  unfold arrivedCount Completes
  rw [← card_area, Finset.card_filter_eq_iff]
  constructor
  · rintro all ⟨x, y⟩ member
    exact all (x, y) (mem_area.mpr member)
  · rintro all ⟨x, y⟩ member
    exact all (x, y) (mem_area.mp member)

theorem arrivedCount_congr
    (agree : ∀ pixel ∈ placement.pixels, later.has pixel.1 pixel.2 = canvas.has pixel.1 pixel.2) :
    later.arrivedCount placement = canvas.arrivedCount placement := by
  unfold arrivedCount
  apply congrArg
  apply Finset.filter_congr
  rintro ⟨x, y⟩ member
  rw [agree (x, y) (mem_area.mp member)]

theorem arrivedCount_eq_zero
    (isBlank : ∀ pixel ∈ placement.pixels, canvas pixel.1 pixel.2 = none) :
    canvas.arrivedCount placement = 0 := by
  unfold arrivedCount
  rw [Finset.card_eq_zero, Finset.filter_eq_empty_iff]
  rintro ⟨x, y⟩ member
  unfold has
  rw [isBlank _ (mem_area.mp member)]
  exact Bool.false_ne_true

/-- A region that paints blank pixels of a tile adds as many as it has. -/
theorem arrivedCount_paint
    (inside : ∀ x y, region.bounds.Covers x y -> (x, y) ∈ placement.pixels)
    (isBlank : ∀ x y, region.bounds.Covers x y -> canvas x y = none) :
    (canvas.paint region).arrivedCount placement =
      canvas.arrivedCount placement + region.bounds.pixelCount := by
  have painted : (area placement).filter (fun pixel =>
      (canvas.paint region).has pixel.1 pixel.2 = true) =
        (area placement).filter (fun pixel => canvas.has pixel.1 pixel.2 = true) ∪
          Finset.Ico region.bounds.left region.bounds.right ×ˢ
            Finset.Ico region.bounds.top region.bounds.bottom := by
    ext ⟨x, y⟩
    rw [Finset.mem_filter, Finset.mem_union, Finset.mem_filter, Finset.mem_product,
      Finset.mem_Ico, Finset.mem_Ico, has_paint, Bool.or_eq_true, decide_eq_true_eq]
    constructor
    · rintro ⟨member, covers | arrived⟩
      · exact Or.inr covers
      · exact Or.inl ⟨member, arrived⟩
    · rintro (⟨member, arrived⟩ | covers)
      · exact ⟨member, Or.inr arrived⟩
      · exact ⟨mem_area.mpr (inside x y covers), Or.inl covers⟩
  have disjoint : Disjoint
      ((area placement).filter (fun pixel => canvas.has pixel.1 pixel.2 = true))
      (Finset.Ico region.bounds.left region.bounds.right ×ˢ
        Finset.Ico region.bounds.top region.bounds.bottom) := by
    rw [Finset.disjoint_left]
    rintro ⟨x, y⟩ arrivedMember covers
    have arrived := (Finset.mem_filter.mp arrivedMember).2
    rw [Finset.mem_product, Finset.mem_Ico, Finset.mem_Ico] at covers
    unfold has at arrived
    rw [isBlank x y covers] at arrived
    cases arrived
  unfold arrivedCount
  rw [painted, Finset.card_union_of_disjoint disjoint, Finset.card_product, Nat.card_Ico,
    Nat.card_Ico]
  rfl

end Canvas
end DeepShadow
