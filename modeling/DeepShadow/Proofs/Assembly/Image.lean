import DeepShadow.Proofs.Assembly.Slots

/-!
# Images and the regions they take

An image fixes what a region is checked against.  Whether a region is taken
depends on the image and on the canvas of what was taken before, and on nothing
else: it has to consist of whole rows of one bucket, and none of these rows may
have arrived.
-/

namespace DeepShadow
namespace Assembly

/-- An image as the assembly sees it. -/
structure Image where
  grid : Grid
  bucket : BucketSize
  divides : bucket.Divides grid
  channels : Nat
  supported : supportedChannels channels = true

/-- A region has the channels of an assembly, and its rectangle consists of whole rows of one
of the buckets. -/
def Assembler.Frames
    {State Summary : Type}
    (assembler : Assembler State Summary)
    (region : Region) : Prop :=
  region.channels = assembler.channels ∧
  (region.bounds.left < region.bounds.right ∧ region.bounds.top < region.bounds.bottom) ∧
  (region.bounds.right ≤ assembler.grid.imageWidth ∧
    region.bounds.bottom ≤ assembler.grid.imageHeight) ∧
  region.bounds.width ≤ assembler.bucket.width ∧
  region.bounds.height ≤ assembler.bucket.height ∧
  (assembler.bucket.leftOf (region.bounds.right - 1) =
      assembler.bucket.leftOf region.bounds.left ∧
    assembler.bucket.topOf (region.bounds.bottom - 1) =
      assembler.bucket.topOf region.bounds.top) ∧
  (region.bounds.left = assembler.bucket.leftOf region.bounds.left ∧
    region.bounds.right = min (assembler.bucket.leftOf region.bounds.left +
      assembler.bucket.width) assembler.grid.imageWidth)

namespace Image

/-- The assembly of which nothing has arrived. -/
def start {State Summary : Type} (image : Image) (sink : State) : Assembler State Summary :=
  { grid := image.grid
    bucket := image.bucket
    divides := image.divides
    channels := image.channels
    pending := TileMap.constant image.grid none
    completed := TileSet.empty image.grid
    sink
    summary := none }

/-- The same without a sink. -/
def fresh (image : Image) : Assembler Unit Unit := image.start ()

/-- The tile that owns the first pixel of a region. -/
def tileOf (image : Image) (region : Region) : TilePosition :=
  image.grid.owner region.bounds.left region.bounds.top

/-- Whether all pixels of a tile have arrived on a canvas. -/
def Completes (image : Image) (canvas : Canvas) (position : TilePosition) : Prop :=
  canvas.Completes (image.grid.frame position)

instance (image : Image) (canvas : Canvas) (position : TilePosition) :
    Decidable (image.Completes canvas position) :=
  inferInstanceAs (Decidable (canvas.Completes _))

/-- No tile is complete at the start. -/
theorem not_completes_blank
    {image : Image}
    {position : TilePosition}
    (inside : image.grid.Contains position) :
    ¬image.Completes Canvas.blank position := by
  intro completes
  obtain ⟨widthPositive, heightPositive⟩ := Grid.frame_pos inside
  have arrived := completes ((image.grid.frame position).originX,
    (image.grid.frame position).originY) (by rw [Placement.mem_pixels]; omega)
  cases arrived

/-- Why a region is refused, where the canvas has arrived before. -/
def refusal? (image : Image) (canvas : Canvas) (region : Region) : Option RegionError :=
  match image.fresh.check region with
  | .error error => some error
  | .ok () =>
      if image.Completes canvas (image.tileOf region) then
        some (.tileComplete (image.tileOf region))
      else
        ((List.range' region.bounds.top region.bounds.height).find? fun y =>
          canvas.has region.bounds.left y).map .rowFilled

/-- The regions that are taken of a sequence, where the canvas has arrived
before. -/
def takenFrom (image : Image) (canvas : Canvas) : List Region -> List Region
  | [] => []
  | region :: regions =>
      match image.refusal? canvas region with
      | some _ => image.takenFrom canvas regions
      | none => region :: image.takenFrom (canvas.paint region) regions

/-- What has arrived after a sequence of regions, of which some are refused. -/
def paintedFrom (image : Image) (canvas : Canvas) : List Region -> Canvas
  | [] => canvas
  | region :: regions =>
      match image.refusal? canvas region with
      | some _ => image.paintedFrom canvas regions
      | none => image.paintedFrom (canvas.paint region) regions

/-- The nodes of each complete tile can be counted. -/
def Countable (image : Image) (canvas : Canvas) : Prop :=
  ∀ position, image.grid.Contains position -> image.Completes canvas position ->
    canvas.nodeTotal image.channels (image.grid.frame position) < 0x100000000

/-- What a region has to be, whatever has arrived before. -/
structure Admits (image : Image) (region : Region) : Prop where
  channels_eq : region.channels = image.channels
  left_lt : region.bounds.left < region.bounds.right
  top_lt : region.bounds.top < region.bounds.bottom
  right_le : region.bounds.right ≤ image.grid.imageWidth
  bottom_le : region.bounds.bottom ≤ image.grid.imageHeight
  width_le : region.bounds.width ≤ image.bucket.width
  height_le : region.bounds.height ≤ image.bucket.height
  sameColumn : image.bucket.leftOf (region.bounds.right - 1) =
    image.bucket.leftOf region.bounds.left
  sameRow : image.bucket.topOf (region.bounds.bottom - 1) =
    image.bucket.topOf region.bounds.top
  left_eq : region.bounds.left = image.bucket.leftOf region.bounds.left
  right_eq : region.bounds.right =
    min (image.bucket.leftOf region.bounds.left + image.bucket.width) image.grid.imageWidth
  wellFormed : region.WellFormed

variable {image : Image} {canvas later : Canvas} {region : Region}

/-! ## The checks -/

/-- A check that fails ends all checks. -/
theorem check_eq_ok_iff
    {condition : Prop}
    [Decidable condition]
    {error : RegionError}
    {others : Except RegionError Unit} :
    (if condition then (do throw error; others) else others) = .ok () ↔
      ¬condition ∧ others = .ok () := by
  by_cases fails : condition
  · rw [if_pos fails]
    constructor
    · intro succeeds
      cases succeeds
    · rintro ⟨holds, _⟩
      exact absurd fails holds
  · rw [if_neg fails]
    exact (and_iff_right fails).symm

theorem checkCurvesBy_eq_ok_iff (count : Nat -> Nat) (lengths : List Nat) :
    Assembler.checkCurvesBy count region lengths = .ok () ↔
      lengths.length = region.bounds.pixelCount ∧
        (∀ length ∈ lengths, 0 < length) ∧
        region.values.length = count (Region.nodeTotal lengths * (region.channels + 1)) := by
  unfold Assembler.checkCurvesBy
  rw [check_eq_ok_iff, check_eq_ok_iff, Decidable.not_not]
  apply and_congr_right
  intro _
  apply and_congr
  · rw [List.contains_iff_mem]
    constructor
    · intro noZero length member
      apply Nat.pos_of_ne_zero
      rintro rfl
      exact noZero member
    · intro positive zero
      exact Nat.lt_irrefl 0 (positive 0 zero)
  · by_cases enough : region.values.length =
        count (Region.nodeTotal lengths * (region.channels + 1))
    · rw [if_neg (not_not_intro enough)]
      exact iff_of_true rfl enough
    · rw [if_pos enough]
      exact iff_of_false (by intro succeeds; cases succeeds) enough

section Checks

variable {State Summary : Type} {assembler : Assembler State Summary} {count : Nat -> Nat}

/-- A region passes the checks when it breaks none of their rules. -/
theorem checkBy_passes_iff :
    assembler.checkBy count region = .ok () ↔
      assembler.isFinished = false ∧ assembler.Frames region ∧
        ∀ lengths, region.lengths = some lengths ->
          Assembler.checkCurvesBy count region lengths = .ok () := by
  obtain ⟨⟨left, top, right, bottom⟩, channels, lengths, values⟩ := region
  unfold Assembler.checkBy Assembler.Frames
  simp only
  rw [check_eq_ok_iff, check_eq_ok_iff, check_eq_ok_iff, check_eq_ok_iff, check_eq_ok_iff,
    check_eq_ok_iff, check_eq_ok_iff, check_eq_ok_iff]
  simp only [not_or, Decidable.not_not, Nat.not_le, Nat.not_lt, Bool.not_eq_true, and_assoc]
  -- Of the rules, only the one about the curves is written differently on the two sides.
  iterate 12
    apply and_congr_right
    intro _
  cases lengths with
  | none => exact iff_of_true rfl fun lengths carried => by cases carried
  | some lengths =>
      refine ⟨?_, fun checked => checked lengths rfl⟩
      intro checked _ carried
      cases carried
      exact checked

theorem check_passes_iff :
    assembler.check region = .ok () ↔
      assembler.isFinished = false ∧ assembler.Frames region ∧ region.WellFormed := by
  unfold Assembler.check
  simp only [checkBy_passes_iff, checkCurvesBy_eq_ok_iff, id_eq, Region.WellFormed]

end Checks

theorem check_fresh_eq_ok_iff :
    image.fresh.check region = .ok () ↔ image.Admits region := by
  rw [check_passes_iff]
  constructor
  · rintro ⟨_, ⟨channels_eq, ⟨left_lt, top_lt⟩, ⟨right_le, bottom_le⟩, width_le, height_le,
      ⟨sameColumn, sameRow⟩, left_eq, right_eq⟩, wellFormed⟩
    exact ⟨channels_eq, left_lt, top_lt, right_le, bottom_le, width_le, height_le, sameColumn,
      sameRow, left_eq, right_eq, wellFormed⟩
  · intro admits
    exact ⟨rfl, ⟨admits.channels_eq, ⟨admits.left_lt, admits.top_lt⟩,
      ⟨admits.right_le, admits.bottom_le⟩, admits.width_le, admits.height_le,
      ⟨admits.sameColumn, admits.sameRow⟩, admits.left_eq, admits.right_eq⟩, admits.wellFormed⟩

/-- The checks of an assembly are those of its image, until it is finished. -/
theorem check_eq
    {State Summary : Type}
    {assembler : Assembler State Summary}
    (grid_eq : assembler.grid = image.grid)
    (bucket_eq : assembler.bucket = image.bucket)
    (channels_eq : assembler.channels = image.channels)
    (region : Region) :
    assembler.check region =
      if assembler.isFinished then .error .finished else image.fresh.check region := by
  unfold Assembler.check Assembler.checkBy
  rw [grid_eq, bucket_eq, channels_eq]
  by_cases finished : assembler.isFinished = true
  · rw [if_pos finished]
    simp only [finished]
    rfl
  · rw [if_neg finished]
    simp only [finished]
    rfl

/-! ## Regions in their tiles -/

/-- A region that an image admits starts in the image. -/
theorem Admits.contains_tileOf (admits : image.Admits region) :
    image.grid.Contains (image.tileOf region) :=
  Grid.contains_owner
    (Nat.lt_of_lt_of_le admits.left_lt admits.right_le)
    (Nat.lt_of_lt_of_le admits.top_lt admits.bottom_le)

/-- The number of the bucket of a region in its tile. -/
def columnOf (image : Image) (region : Region) : Nat :=
  (region.bounds.left - (image.grid.frame (image.tileOf region)).originX) / image.bucket.width

/-- A region that an image admits consists of whole rows of a bucket of its
tile. -/
theorem Admits.liesIn (admits : image.Admits region) :
    region.LiesIn image.bucket (image.grid.frame (image.tileOf region))
      (image.columnOf region) := by
  obtain ⟨column, left_eq, columnInTile⟩ :=
    parts_nested image.grid.tileWidth_pos image.divides.1 region.bounds.left
  obtain ⟨row, top_eq, rowInTile⟩ :=
    parts_nested image.grid.tileHeight_pos image.divides.2 region.bounds.top
  have left_lt := admits.left_lt
  have right_le := admits.right_le
  have bottom_le := admits.bottom_le
  have top_lt := admits.top_lt
  have leftAligned := admits.left_eq
  have right_eq := admits.right_eq
  have sameRow := admits.sameRow
  unfold BucketSize.leftOf at leftAligned right_eq
  unfold BucketSize.topOf at sameRow
  have widthPositive := image.bucket.width_pos
  have lastRow := Nat.div_add_mod' (region.bounds.bottom - 1) image.bucket.height
  have lastRowBound := Nat.mod_lt (region.bounds.bottom - 1) image.bucket.height_pos
  have topFromStart := Nat.div_mul_le_self region.bounds.top image.grid.tileHeight
  have column_eq : image.columnOf region = column := by
    have distance : region.bounds.left - (image.grid.frame (image.tileOf region)).originX =
        column * image.bucket.width := by
      simp only [Grid.frame, tileOf, Grid.owner]
      omega
    unfold columnOf
    rw [distance, Nat.mul_div_cancel _ widthPositive]
  rw [column_eq]
  refine ⟨?_, ?_, ?_, ?_, top_lt, ?_⟩
  · rw [lt_partsCovering_iff widthPositive]
    simp only [Grid.frame, tileOf, Grid.owner]
    omega
  · simp only [Grid.frame, tileOf, Grid.owner]
    omega
  · simp only [Grid.frame, tileOf, Grid.owner]
    omega
  · exact topFromStart
  · simp only [Grid.frame, tileOf, Grid.owner]
    omega

/-! ## Rows of buckets -/

/-- The rows of buckets have arrived as a whole or not at all. -/
def Uniform (image : Image) (canvas : Canvas) : Prop :=
  ∀ x y, x < image.grid.imageWidth -> canvas.has x y = canvas.has (image.bucket.leftOf x) y

/-- All columns of a region belong to its bucket. -/
theorem Admits.leftOf_eq
    (admits : image.Admits region)
    {x : Nat}
    (left : region.bounds.left ≤ x)
    (right : x < region.bounds.right) :
    image.bucket.leftOf x = region.bounds.left := by
  have left_eq := admits.left_eq
  have right_eq := admits.right_eq
  unfold BucketSize.leftOf at left_eq right_eq ⊢
  have same : x / image.bucket.width = region.bounds.left / image.bucket.width := by
    apply Nat.div_eq_of_lt_le
    · omega
    · rw [Nat.succ_mul]
      omega
  rw [same]
  exact left_eq.symm

/-- A region covers all pixels of a row of its bucket, or none of them. -/
theorem Admits.covers_leftOf_iff
    (admits : image.Admits region)
    {x y : Nat}
    (insideX : x < image.grid.imageWidth) :
    region.bounds.Covers (image.bucket.leftOf x) y ↔ region.bounds.Covers x y := by
  unfold Rectangle.Covers
  apply and_congr_left
  intro _
  constructor
  · rintro ⟨left, right⟩
    have aligned := admits.leftOf_eq left right
    have right_eq := admits.right_eq
    have left_eq := admits.left_eq
    have fromStart := Nat.div_mul_le_self x image.bucket.width
    have withinWidth := Nat.div_add_mod' x image.bucket.width
    have remainder := Nat.mod_lt x image.bucket.width_pos
    have idempotent : image.bucket.leftOf (image.bucket.leftOf x) = image.bucket.leftOf x := by
      unfold BucketSize.leftOf
      rw [Nat.mul_div_cancel _ image.bucket.width_pos]
    rw [idempotent] at aligned
    unfold BucketSize.leftOf at aligned left_eq right_eq
    omega
  · rintro ⟨left, right⟩
    rw [admits.leftOf_eq left right]
    exact ⟨Nat.le_refl _, admits.left_lt⟩

theorem uniform_blank (image : Image) : image.Uniform Canvas.blank := fun _ _ _ => rfl

theorem Uniform.paint
    (uniform : image.Uniform canvas)
    (admits : image.Admits region) :
    image.Uniform (canvas.paint region) := by
  intro x y insideX
  rw [Canvas.has_paint, Canvas.has_paint, uniform x y insideX,
    decide_eq_decide.mpr (admits.covers_leftOf_iff insideX)]

/-- A region that is taken covers pixels of an incomplete tile, none of which has
arrived. -/
theorem Uniform.of_refusal?_eq_none
    (uniform : image.Uniform canvas)
    (taken : image.refusal? canvas region = none) :
    image.Admits region ∧ ¬image.Completes canvas (image.tileOf region) ∧
      ∀ x y, region.bounds.Covers x y -> canvas x y = none := by
  unfold refusal? at taken
  split at taken
  · cases taken
  next checked =>
    have admits := check_fresh_eq_ok_iff.mp checked
    split at taken
    · cases taken
    next incomplete =>
      refine ⟨admits, incomplete, ?_⟩
      intro x y covers
      rw [Option.map_eq_none_iff, List.find?_eq_none] at taken
      have rowMember : y ∈ List.range' region.bounds.top region.bounds.height := by
        rw [List.mem_range'_1]
        unfold Rectangle.height
        have rows := covers.2
        omega
      have insideX : x < image.grid.imageWidth :=
        Nat.lt_of_lt_of_le covers.1.2 admits.right_le
      have missing := taken y rowMember
      rw [← admits.leftOf_eq covers.1.1 covers.1.2, ← uniform x y insideX, Bool.not_eq_true]
        at missing
      exact Option.isNone_iff_eq_none.mp (Option.isSome_eq_false_iff.mp missing)

/-- A region leaves the tiles that do not own it as they are. -/
theorem Admits.sameIn_paint
    (admits : image.Admits region)
    {position : TilePosition}
    (different : position ≠ image.tileOf region)
    (canvas : Canvas) :
    (canvas.paint region).SameIn (image.grid.frame position) canvas := by
  rintro ⟨x, y⟩ member
  apply Canvas.paint_of_not_covers
  intro covers
  have insideX : x < image.grid.imageWidth := Nat.lt_of_lt_of_le covers.1.2 admits.right_le
  have insideY : y < image.grid.imageHeight := Nat.lt_of_lt_of_le covers.2.2 admits.bottom_le
  have inTile := admits.liesIn.mem_pixels covers
  rw [← Placement.contains_iff_mem_pixels, Grid.contains_frame_iff insideX insideY]
    at member inTile
  exact different (member.trans inTile.symm)

/-! ## Sequences of regions -/

theorem paintedFrom_append
    (image : Image)
    (canvas : Canvas)
    (first second : List Region) :
    image.paintedFrom canvas (first ++ second) =
      image.paintedFrom (image.paintedFrom canvas first) second := by
  induction first generalizing canvas with
  | nil => rfl
  | cons region first inductionHypothesis =>
      rw [List.cons_append, paintedFrom, paintedFrom]
      cases image.refusal? canvas region with
      | some _ => exact inductionHypothesis canvas
      | none => exact inductionHypothesis (canvas.paint region)

theorem paintedFrom_cons
    (image : Image)
    (canvas : Canvas)
    (region : Region)
    (regions : List Region) :
    image.paintedFrom canvas (region :: regions) =
      image.paintedFrom (image.paintedFrom canvas [region]) regions :=
  image.paintedFrom_append canvas [region] regions

theorem paintedFrom_of_refused
    {error : RegionError}
    (refused : image.refusal? canvas region = some error) :
    image.paintedFrom canvas [region] = canvas := by
  unfold paintedFrom
  rw [refused]
  rfl

theorem paintedFrom_of_taken (taken : image.refusal? canvas region = none) :
    image.paintedFrom canvas [region] = canvas.paint region := by
  unfold paintedFrom
  rw [taken]
  rfl

theorem takenFrom_cons
    (image : Image)
    (canvas : Canvas)
    (region : Region)
    (regions : List Region) :
    image.takenFrom canvas (region :: regions) =
      (if (image.refusal? canvas region).isNone then [region] else []) ++
        image.takenFrom (image.paintedFrom canvas [region]) regions := by
  rw [takenFrom]
  cases refused : image.refusal? canvas region with
  | some error =>
      rw [paintedFrom_of_refused refused]
      rfl
  | none =>
      rw [paintedFrom_of_taken refused]
      rfl

theorem takenFrom_sublist
    (image : Image)
    (canvas : Canvas)
    (regions : List Region) :
    (image.takenFrom canvas regions).Sublist regions := by
  induction regions generalizing canvas with
  | nil => exact List.Sublist.refl []
  | cons region regions inductionHypothesis =>
      rw [takenFrom]
      cases image.refusal? canvas region with
      | some _ => exact (inductionHypothesis canvas).cons region
      | none => exact (inductionHypothesis (canvas.paint region)).cons_cons region

theorem Uniform.paint_all
    (uniform : image.Uniform canvas)
    (regions : List Region) :
    image.Uniform (image.paintedFrom canvas regions) := by
  induction regions generalizing canvas with
  | nil => exact uniform
  | cons region regions inductionHypothesis =>
      rw [paintedFrom_cons]
      apply inductionHypothesis
      cases refused : image.refusal? canvas region with
      | some error =>
          rw [paintedFrom_of_refused refused]
          exact uniform
      | none =>
          rw [paintedFrom_of_taken refused]
          exact uniform.paint (uniform.of_refusal?_eq_none refused).1

/-- What has arrived is not changed by the regions that follow. -/
theorem Uniform.extends_paintedFrom
    (uniform : image.Uniform canvas)
    (regions : List Region) :
    (image.paintedFrom canvas regions).Extends canvas := by
  induction regions generalizing canvas with
  | nil => exact Canvas.Extends.refl canvas
  | cons region regions inductionHypothesis =>
      rw [paintedFrom]
      cases refused : image.refusal? canvas region with
      | some _ => exact inductionHypothesis uniform
      | none =>
          obtain ⟨admits, _, isBlank⟩ := uniform.of_refusal?_eq_none refused
          exact (inductionHypothesis (uniform.paint admits)).trans (Canvas.extends_paint isBlank)

/-- When all tiles are complete, every region is refused. -/
theorem Uniform.refusal?_of_complete
    (uniform : image.Uniform canvas)
    (complete : ∀ position, image.grid.Contains position -> image.Completes canvas position)
    (region : Region) :
    ∃ error, image.refusal? canvas region = some error := by
  cases refused : image.refusal? canvas region with
  | some error => exact ⟨error, rfl⟩
  | none =>
      obtain ⟨admits, incomplete, _⟩ := uniform.of_refusal?_eq_none refused
      exact absurd (complete _ admits.contains_tileOf) incomplete

/-- A tile that was complete before has no fewer nodes than it has now. -/
theorem Countable.of_extends
    (countable : image.Countable later)
    (extend : later.Extends canvas) :
    image.Countable canvas := by
  intro position inside completes
  have bound := countable position inside (extend.completes completes)
  rw [extend.nodeTotal_eq completes] at bound
  exact bound

/-- The canvas carries the regions that were taken, and these are regions that the
image admits. -/
theorem Uniform.pictures_paintedFrom
    (uniform : image.Uniform canvas)
    {earlier : List Region}
    (pictures : canvas.Pictures earlier)
    (admitted : ∀ region ∈ earlier, image.Admits region)
    (regions : List Region) :
    (image.paintedFrom canvas regions).Pictures (earlier ++ image.takenFrom canvas regions) ∧
      ∀ region ∈ earlier ++ image.takenFrom canvas regions, image.Admits region := by
  induction regions generalizing canvas earlier with
  | nil =>
      rw [paintedFrom, takenFrom, List.append_nil]
      exact ⟨pictures, admitted⟩
  | cons region regions inductionHypothesis =>
      rw [paintedFrom, takenFrom]
      cases refused : image.refusal? canvas region with
      | some _ => exact inductionHypothesis uniform pictures admitted
      | none =>
          obtain ⟨admits, _, isBlank⟩ := uniform.of_refusal?_eq_none refused
          have admittedNow : ∀ other ∈ earlier ++ [region], image.Admits other := by
            intro other member
            rcases List.mem_append.mp member with before | last
            · exact admitted other before
            · rw [List.mem_singleton.mp last]
              exact admits
          have rest := inductionHypothesis (uniform.paint admits) (pictures.paint isBlank)
            admittedNow
          rw [List.append_assoc, List.singleton_append] at rest
          exact rest

/-- What has arrived after a sequence of regions. -/
def painted (image : Image) (regions : List Region) : Canvas :=
  image.paintedFrom Canvas.blank regions

/-- The regions that are taken of a sequence. -/
def taken (image : Image) (regions : List Region) : List Region :=
  image.takenFrom Canvas.blank regions

theorem pictures_painted
    (image : Image)
    (regions : List Region) :
    (image.painted regions).Pictures (image.taken regions) ∧
      ∀ region ∈ image.taken regions, image.Admits region :=
  (uniform_blank image).pictures_paintedFrom Canvas.pictures_blank
    (fun region member => by cases member) regions

end Image
end Assembly
end DeepShadow
