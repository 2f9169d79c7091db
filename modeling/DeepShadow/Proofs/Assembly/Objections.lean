import DeepShadow.Proofs.Assembly.Words
import DeepShadow.Proofs.Bucket.Cover

/-!
# Objections to a region

A region has to keep rules: it consists of whole rows of one of the buckets that cover
the image, its curves fit its pixels, its tile is not complete, and none of its rows has
arrived before.  An assembly objects to every rule that is broken, in a fixed order, and
a region is refused for the first objection.  An assembly that counts in words may miss one of
them: it does not object to curves that lack as many values as words cannot tell from none.
-/

namespace DeepShadow

/-- A rectangle consists of whole rows of another one. -/
structure Rectangle.RowsOf (rectangle cell : Rectangle) : Prop where
  left_eq : cell.left = rectangle.left
  right_eq : cell.right = rectangle.right
  top_le : cell.top ≤ rectangle.top
  top_lt : rectangle.top < rectangle.bottom
  bottom_le : rectangle.bottom ≤ cell.bottom

namespace Assembly

/-- The objection to a region that breaks a rule; none where the rule is kept. -/
def objection (broken : Prop) [Decidable broken] (error : RegionError) : List RegionError :=
  if broken then [error] else []

/-- The objections to the curves that a region carries for its pixels.  Of the number of
values that they need, `count` tells which one is counted. -/
def curveObjections (count : Nat -> Nat) (region : Region) : List RegionError :=
  match region.lengths with
  | none => []
  | some lengths =>
      let expected := count (Region.nodeTotal lengths * (region.channels + 1))
      objection (lengths.length ≠ region.bounds.pixelCount)
          (.lengthCount region.bounds.pixelCount lengths.length) ++
        objection (0 ∈ lengths) .emptyCurve ++
        objection (region.values.length ≠ expected) (.valueCount expected region.values.length)

namespace Assembler

variable {State Summary : Type}

/-- Whether the row of a bucket that has a pixel waits for other rows of its tile. -/
def holdsRow (assembler : Assembler State Summary) (x y : Nat) : Bool :=
  let placement := assembler.grid.frame (assembler.grid.owner x y)
  (assembler.pendingAt assembler.bucket placement).isFilled (y - placement.originY)
    ((x - placement.originX) / assembler.bucket.width)

/-- The buckets that cover the image of an assembly. -/
def buckets (assembler : Assembler State Summary) : List Rectangle :=
  assembler.bucket.cover assembler.grid.imageWidth assembler.grid.imageHeight

/-- The objections to the rectangle of a region. -/
def shapeObjections
    (assembler : Assembler State Summary)
    (bounds : Rectangle) : List RegionError :=
  let ⟨left, top, right, bottom⟩ := bounds
  objection (right ≤ left ∨ bottom ≤ top) .empty ++
    objection (assembler.grid.imageWidth < right ∨ assembler.grid.imageHeight < bottom)
      .outsideImage ++
    objection (assembler.bucket.width < right - left) .widerThanBucket ++
    objection (assembler.bucket.height < bottom - top) .tallerThanBucket ++
    objection
      (¬∃ cell ∈ assembler.buckets, cell.Covers left top ∧ cell.Covers (right - 1) (bottom - 1))
      .crossesBucket ++
    objection
      (¬∃ cell ∈ assembler.buckets,
        cell.Covers left top ∧ cell.left = left ∧ cell.right = right)
      .partialRow

/-- The objections to a region whatever has arrived before. -/
def ruleObjections
    (count : Nat -> Nat)
    (assembler : Assembler State Summary)
    (region : Region) : List RegionError :=
  objection (assembler.isFinished = true) .finished ++
    objection (region.channels ≠ assembler.channels)
      (.channels assembler.channels region.channels) ++
    assembler.shapeObjections region.bounds ++
    curveObjections count region

/-- The objections to a region because of what has arrived before. -/
def arrivalObjections
    (assembler : Assembler State Summary)
    (region : Region) : List RegionError :=
  let owner := assembler.grid.owner region.bounds.left region.bounds.top
  objection (assembler.completed.has owner = true) (.tileComplete owner) ++
    ((List.range' region.bounds.top region.bounds.height).filter
      (assembler.holdsRow region.bounds.left)).map .rowFilled

/-- All objections to a region, in the order in which they are made. -/
def objectionsBy
    (count : Nat -> Nat)
    (assembler : Assembler State Summary)
    (region : Region) : List RegionError :=
  assembler.ruleObjections count region ++ assembler.arrivalObjections region

/-- The objections to a region whose values are counted, however many they are. -/
def objections (assembler : Assembler State Summary) (region : Region) : List RegionError :=
  assembler.objectionsBy id region

/-- The objections that are made where values are counted in words. -/
def objectionsInWords
    (assembler : Assembler State Summary)
    (region : Region) : List RegionError :=
  assembler.objectionsBy inWord region

/-- A region is refused with an error. -/
def Refuses
    (sink : Sink State Summary)
    (assembler : Assembler State Summary)
    (region : Region)
    (error : RegionError) : Prop :=
  ∃ next, (assembler.submitInWords sink region).value = .ok (.error (.region error), next)

end Assembler

/-! ## The first objection -/

/-- A computation fails with the first objection, and only if there is one. -/
def FailsWithFirst {α : Type} (result : Except RegionError α) (made : List RegionError) : Prop :=
  ∀ error, result = .error error ↔ made.head? = some error

namespace FailsWithFirst

variable {α β : Type} {result : Except RegionError α} {made others : List RegionError}

/-- Without objections there is a result. -/
theorem ok (value : α) : FailsWithFirst (.ok value : Except RegionError α) [] := by
  intro error
  exact iff_of_false (fun failed => by cases failed) (fun first => by cases first)

/-- A failure is the first objection. -/
theorem error (error : RegionError) (others : List RegionError) :
    FailsWithFirst (.error error : Except RegionError α) (error :: others) := by
  intro other
  constructor
  · intro failed
    cases failed
    rfl
  · intro first
    cases first
    rfl

/-- Where there is a result, there are no objections. -/
theorem eq_nil_of_ok
    {value : α}
    (failsWithFirst : FailsWithFirst (.ok value : Except RegionError α) made) :
    made = [] := by
  cases made with
  | nil => rfl
  | cons error _ =>
      have failed := (failsWithFirst error).mpr rfl
      cases failed

/-- One check more, before the others.  The others may rely on the rule that it checks. -/
theorem check
    {condition broken : Prop}
    [Decidable condition]
    [Decidable broken]
    {error : RegionError}
    {rest : Except RegionError α}
    (same : condition ↔ broken)
    (failsWithFirst : ¬broken -> FailsWithFirst rest others) :
    FailsWithFirst (if condition then .error error else rest)
      (objection broken error ++ others) := by
  unfold objection
  by_cases holds : broken
  · rw [if_pos (same.mpr holds), if_pos holds]
    exact .error error others
  · rw [if_neg (mt same.mp holds), if_neg holds]
    exact failsWithFirst holds

/-- A computation that goes on after some checks. -/
theorem bind
    {next : α -> Except RegionError β}
    (first : FailsWithFirst result made)
    (second : ∀ value, result = .ok value -> FailsWithFirst (next value) others) :
    FailsWithFirst (result >>= next) (made ++ others) := by
  cases result with
  | error error =>
      obtain ⟨rest, rfl⟩ := List.head?_eq_some_iff.mp ((first error).mp rfl)
      exact .error error (rest ++ others)
  | ok value =>
      rw [first.eq_nil_of_ok]
      exact second value rfl

/-- A search for objections fails with the first one that there is. -/
theorem search
    {found : Option Nat}
    {toError : Nat -> RegionError}
    {value : α}
    (first : found.map toError = made.head?) :
    FailsWithFirst
      (match found with
        | some place => .error (toError place)
        | none => .ok value)
      made := by
  cases found with
  | some place =>
      obtain ⟨rest, rfl⟩ := List.head?_eq_some_iff.mp first.symm
      exact .error (toError place) rest
  | none =>
      rw [List.head?_eq_none_iff.mp first.symm]
      exact .ok value

end FailsWithFirst

theorem objection_eq_nil_iff {broken : Prop} [Decidable broken] {error : RegionError} :
    objection broken error = [] ↔ ¬broken := by
  unfold objection
  split <;> simp_all

theorem failsWithFirst_checkCurvesBy
    (count : Nat -> Nat)
    {region : Region}
    {lengths : List Nat}
    (carried : region.lengths = some lengths) :
    FailsWithFirst (Assembler.checkCurvesBy count region lengths)
      (curveObjections count region) := by
  unfold Assembler.checkCurvesBy curveObjections
  rw [carried]
  simp only [List.append_assoc]
  refine .check Iff.rfl fun _ => .check List.contains_iff_mem fun _ => ?_
  rw [← List.append_nil (objection _ _)]
  exact .check Iff.rfl fun _ => .ok ()

theorem curveObjections_eq_nil_iff {region : Region} :
    curveObjections id region = [] ↔ region.WellFormed := by
  unfold curveObjections Region.WellFormed
  cases carried : region.lengths with
  | none => exact iff_of_true rfl fun lengths isSome => by cases isSome
  | some lengths =>
      simp only [List.append_eq_nil_iff, objection_eq_nil_iff, Decidable.not_not, id_eq]
      constructor
      · rintro ⟨⟨count, positive⟩, enough⟩ _ isLengths
        cases isLengths
        refine ⟨count, fun length member => ?_, enough⟩
        exact Nat.pos_of_ne_zero fun isZero => positive (isZero ▸ member)
      · intro wellFormed
        obtain ⟨count, positive, enough⟩ := wellFormed lengths rfl
        exact ⟨⟨count, fun member => Nat.lt_irrefl 0 (positive 0 member)⟩, enough⟩

namespace Assembler

variable {State Summary : Type} {assembler : Assembler State Summary} {region : Region}

/-- The checks of a region fail with the first rule that it breaks. -/
theorem failsWithFirst_checkBy
    (count : Nat -> Nat)
    (assembler : Assembler State Summary)
    (region : Region) :
    FailsWithFirst (assembler.checkBy count region) (assembler.ruleObjections count region) := by
  obtain ⟨⟨left, top, right, bottom⟩, channels, lengths, values⟩ := region
  unfold checkBy ruleObjections shapeObjections
  simp only [List.append_assoc]
  refine .check Iff.rfl fun _ => .check Iff.rfl fun _ => .check Iff.rfl fun nonempty =>
    .check Iff.rfl fun inside => .check Iff.rfl fun _ => .check Iff.rfl fun _ => ?_
  -- The first and the last pixel of the region lie in the image.
  have insideX : left < assembler.grid.imageWidth := by omega
  have insideY : top < assembler.grid.imageHeight := by omega
  refine .check ?_ fun _ => .check ?_ fun _ => ?_
  · unfold buckets
    rw [BucketSize.exists_common_bucket_iff insideX insideY (by omega) (by omega)]
    exact Decidable.not_and_iff_or_not.symm
  · unfold buckets
    rw [BucketSize.exists_mem_cover_and_iff insideX insideY, ← Decidable.not_and_iff_or_not]
    exact not_congr (and_congr eq_comm eq_comm)
  · cases lengths with
    | none => exact .ok ()
    | some lengths => exact failsWithFirst_checkCurvesBy count rfl

/-- The bucket with the rows of a rectangle has its first pixel, which lies in the
image. -/
theorem covers_of_rowsOf
    (assembler : Assembler State Summary)
    {rectangle cell : Rectangle}
    (member : cell ∈ assembler.buckets)
    (rows : rectangle.RowsOf cell) :
    cell.Covers rectangle.left rectangle.top ∧
      rectangle.left < assembler.grid.imageWidth ∧ rectangle.top < assembler.grid.imageHeight := by
  obtain ⟨left_eq, right_eq, top_le, top_lt, bottom_le⟩ := rows
  have sides := BucketSize.sides_of_mem_cover member
  unfold Rectangle.Covers
  omega

/-- There is no objection to a rectangle when it consists of whole rows of a bucket. -/
theorem shapeObjections_eq_nil_iff {bounds : Rectangle} :
    assembler.shapeObjections bounds = [] ↔
      ∃ cell ∈ assembler.buckets, bounds.RowsOf cell := by
  obtain ⟨left, top, right, bottom⟩ := bounds
  unfold shapeObjections
  simp only [List.append_eq_nil_iff, objection_eq_nil_iff, Decidable.not_not, not_or,
    Nat.not_le, Nat.not_lt]
  constructor
  · rintro ⟨⟨⟨⟨⟨nonempty, inside⟩, _⟩, _⟩, common⟩, whole⟩
    have insideX : left < assembler.grid.imageWidth := by omega
    have insideY : top < assembler.grid.imageHeight := by omega
    -- The bucket with the last pixel is the one whose sides the region has.
    unfold buckets at common whole ⊢
    rw [BucketSize.exists_mem_cover_and_iff insideX insideY] at common whole
    obtain ⟨cell, member, ⟨_, top_le, _⟩, ⟨_, _, lastRow_lt⟩, left_eq, right_eq⟩ :=
      (BucketSize.exists_mem_cover_and_iff insideX insideY fun cell =>
        cell.Covers (right - 1) (bottom - 1) ∧ cell.left = left ∧ cell.right = right).mpr
          ⟨common, whole⟩
    have bottom_le : bottom ≤ cell.bottom := by omega
    exact ⟨cell, member, left_eq, right_eq, top_le, nonempty.2, bottom_le⟩
  · rintro ⟨cell, member, left_eq, right_eq, top_le, top_lt, bottom_le⟩
    simp only at left_eq right_eq top_le top_lt bottom_le
    have sides := BucketSize.sides_of_mem_cover member
    have coversFirst : cell.Covers left top := by
      unfold Rectangle.Covers
      omega
    have coversLast : cell.Covers (right - 1) (bottom - 1) := by
      unfold Rectangle.Covers
      omega
    refine ⟨⟨⟨⟨⟨?_, ?_⟩, ?_⟩, ?_⟩, ⟨cell, member, coversFirst, coversLast⟩⟩,
      ⟨cell, member, coversFirst, left_eq, right_eq⟩⟩
    all_goals omega

/-- A region breaks no rule when it consists of rows of a bucket of the image and its
curves fit its pixels. -/
theorem ruleObjections_eq_nil_iff :
    assembler.ruleObjections id region = [] ↔
      assembler.isFinished = false ∧
      region.channels = assembler.channels ∧
      region.WellFormed ∧
      ∃ cell ∈ assembler.buckets, region.bounds.RowsOf cell := by
  unfold ruleObjections
  simp only [List.append_eq_nil_iff, objection_eq_nil_iff, curveObjections_eq_nil_iff,
    shapeObjections_eq_nil_iff, Decidable.not_not, Bool.not_eq_true, and_assoc]
  rw [and_comm (b := region.WellFormed)]

/-! ## Refusals -/

/-- Where the rows of a pixel column have one tile, the first of them that has arrived is
the first one that this tile holds. -/
theorem map_firstFilled?_eq
    {position : TilePosition}
    {left top : Nat}
    (count : Nat)
    (owner_eq : ∀ y, top ≤ y -> y < top + count -> assembler.grid.owner left y = position)
    (top_le : (assembler.grid.frame position).originY ≤ top) :
    ((assembler.pendingAt assembler.bucket (assembler.grid.frame position)).firstFilled?
        (top - (assembler.grid.frame position).originY) count
        ((left - (assembler.grid.frame position).originX) / assembler.bucket.width)).map
          ((assembler.grid.frame position).originY + ·) =
      (List.range' top count).find? (assembler.holdsRow left) := by
  rw [PendingTile.map_firstFilled? _ top_le]
  apply List.find?_congr
  intro y member
  rw [List.mem_range'_1] at member
  unfold holdsRow
  rw [owner_eq y member.1 member.2]

/-- The rows of a region that an image admits have the tile of its first pixel. -/
theorem owner_eq_of_admits
    (admits : assembler.outline.Admits region.outline)
    {y : Nat}
    (top_le : region.bounds.top ≤ y)
    (lt_bottom : y < region.bounds.bottom) :
    assembler.grid.owner region.bounds.left y =
      assembler.grid.owner region.bounds.left region.bounds.top := by
  apply assembler.divides.owner_eq rfl
  have sameRow : (region.bounds.bottom - 1) / assembler.bucket.height =
      region.bounds.top / assembler.bucket.height :=
    Nat.mul_right_cancel assembler.bucket.height_pos admits.sameRow
  have last := Nat.div_le_div_right (c := assembler.bucket.height) (Nat.le_sub_one_of_lt lt_bottom)
  have first := Nat.div_le_div_right (c := assembler.bucket.height) top_le
  omega

/-- A region that passes the checks has a place unless there is an objection because of what
has arrived. -/
theorem failsWithFirst_find (admits : assembler.outline.Admits region.outline) :
    FailsWithFirst (assembler.find region) (assembler.arrivalObjections region) := by
  have insideX : region.bounds.left < assembler.grid.imageWidth :=
    Nat.lt_of_lt_of_le admits.left_lt admits.right_le
  have insideY : region.bounds.top < assembler.grid.imageHeight :=
    Nat.lt_of_lt_of_le admits.top_lt admits.bottom_le
  rw [find_eq (Grid.tileForPixel_eq_ok insideX insideY) (Grid.contains_owner insideX insideY)]
  refine .check Iff.rfl fun _ => ?_
  have rows_eq := map_firstFilled?_eq region.bounds.height
    (fun y top_le lt_end => owner_eq_of_admits admits top_le
      (Nat.lt_of_lt_of_eq lt_end (Nat.add_sub_of_le (Nat.le_of_lt admits.top_lt))))
    (Nat.div_mul_le_self region.bounds.top assembler.grid.tileHeight)
  refine .search ?_
  rw [List.head?_map, List.head?_filter, ← rows_eq, Option.map_map]
  rfl

/-- What stands in front of the strips fails with the first objection. -/
theorem failsWithFirst_objectionsBy
    (count : Nat -> Nat)
    (assembler : Assembler State Summary)
    (region : Region) :
    FailsWithFirst (assembler.checkBy count region >>= fun _ => assembler.find region)
      (assembler.objectionsBy count region) := by
  refine (failsWithFirst_checkBy count assembler region).bind fun _ checked => ?_
  obtain ⟨_, frames, _⟩ := Image.checkBy_passes_iff.mp checked
  exact failsWithFirst_find frames.admits

/-- A region cannot be put into its tile where there is an objection. -/
theorem fillInWords_eq_error_iff {error : RegionError} :
    assembler.fillInWords region = .ok (.error error) ↔
      (assembler.objectionsInWords region).head? = some error := by
  unfold objectionsInWords
  rw [← failsWithFirst_objectionsBy inWord assembler region error]
  unfold fillInWords checkInWords
  cases assembler.checkBy inWord region >>= fun _ => assembler.find region with
  | error other =>
      constructor
      · intro failed
        cases failed
        rfl
      · intro failed
        cases failed
        rfl
  | ok place =>
      refine iff_of_false (fun failed => ?_) (fun failed => by cases failed)
      cases made : Strip.ofRegionInWords region with
      | error violation =>
          simp only [made] at failed
          cases failed
      | ok strips =>
          simp only [made] at failed
          cases failed

/-- Finishing the sink is not refused, and the channels stay. -/
theorem finishSink_answers
    (sink : Sink State Summary)
    (assembler : Assembler State Summary) :
    isRefusal (assembler.finishSink sink).value.1 = false ∧
      (assembler.finishSink sink).value.2.channels = assembler.channels := by
  unfold finishSink
  rw [Traced.value_bind]
  split <;> exact ⟨rfl, rfl⟩

/-- Handing a tile to the sink is not refused, and the channels stay. -/
theorem emit_answers
    (sink : Sink State Summary)
    (assembler : Assembler State Summary)
    (tile : AssembledTile) :
    isRefusal (assembler.emit sink tile).value.1 = false ∧
      (assembler.emit sink tile).value.2.channels = assembler.channels := by
  unfold emit
  rw [Traced.value_bind]
  split
  · exact ⟨rfl, rfl⟩
  · simp only
    split
    · exact finishSink_answers sink _
    · exact ⟨rfl, rfl⟩

/-- A region that goes on to its tile is not refused, and the channels stay. -/
theorem take_answers
    {sink : Sink State Summary}
    {bounds : Rectangle}
    {index : Fin assembler.grid.tileCount}
    {tile : PendingTile}
    {result : Except Error Unit}
    {next : Assembler State Summary}
    (taken : (assembler.take sink bounds index tile).value = .ok (result, next)) :
    isRefusal result = false ∧ next.channels = assembler.channels := by
  rw [take_eq] at taken
  split at taken
  · cases made : tile.assemble assembler.channels with
    | error violation =>
        rw [made] at taken
        cases taken
    | ok assembled =>
        have answers := emit_answers sink
          { assembler with
            pending := assembler.pending.set index none
            completed := assembler.completed.add index } assembled
        rw [made] at taken
        simp only [Except.map, Except.ok.injEq] at taken
        rw [taken] at answers
        exact answers
  · cases taken
    exact ⟨rfl, rfl⟩

/-- A region that can be put into its tile is not refused, and the channels stay. -/
theorem submitInWords_answers
    {sink : Sink State Summary}
    {result : Except Error Unit}
    {next : Assembler State Summary}
    (submitted : (assembler.submitInWords sink region).value = .ok (result, next)) :
    (∀ pair, assembler.fillInWords region = .ok (.ok pair) -> isRefusal result = false) ∧
      next.channels = assembler.channels := by
  unfold submitInWords at submitted
  cases filled : assembler.fillInWords region with
  | error violation =>
      rw [filled] at submitted
      cases submitted
  | ok outcome =>
      rw [filled] at submitted
      cases outcome with
      | error error =>
          cases submitted
          exact ⟨fun _ isOk => (by cases isOk), rfl⟩
      | ok pair =>
          obtain ⟨notRefused, channels_eq⟩ := take_answers submitted
          exact ⟨fun _ _ => notRefused, channels_eq⟩

/-- A region is refused exactly when it cannot be put into its tile. -/
theorem refuses_iff
    {sink : Sink State Summary}
    {error : RegionError} :
    assembler.Refuses sink region error ↔ assembler.fillInWords region = .ok (.error error) := by
  constructor
  · rintro ⟨next, submitted⟩
    have answers := submitInWords_answers submitted
    unfold submitInWords at submitted
    cases filled : assembler.fillInWords region with
    | error violation =>
        rw [filled] at submitted
        cases submitted
    | ok outcome =>
        cases outcome with
        | error other =>
            rw [filled] at submitted
            cases submitted
            rfl
        | ok pair => exact absurd (answers.1 pair filled).symm Bool.false_ne_true
  · intro filled
    unfold Refuses submitInWords
    rw [filled]
    exact ⟨assembler, rfl⟩

/-- A region is refused with the first objection to it. -/
theorem refuses_iff_first
    {sink : Sink State Summary}
    {error : RegionError} :
    assembler.Refuses sink region error ↔
      (assembler.objectionsInWords region).head? = some error :=
  refuses_iff.trans fillInWords_eq_error_iff

/-- Where words hold the number of values, no objection is missed. -/
theorem objectionsInWords_eq (measurable : region.Measurable) :
    assembler.objectionsInWords region = assembler.objections region := by
  unfold objectionsInWords objections objectionsBy ruleObjections
  have same : curveObjections inWord region = curveObjections id region := by
    unfold curveObjections
    cases carried : region.lengths with
    | none => rfl
    | some lengths =>
        simp only [inWord_of_lt (measurable lengths carried)]
        rfl
  rw [same]

/-- A region is not refused exactly when there is no objection to it. -/
theorem not_refuses_iff {sink : Sink State Summary} :
    (¬∃ error, assembler.Refuses sink region error) ↔
      assembler.objectionsInWords region = [] := by
  simp only [refuses_iff_first]
  rw [← List.head?_eq_none_iff, Option.eq_none_iff_forall_ne_some]
  exact not_exists

/-- There is no objection because of what has arrived as long as the tile of a region is
not complete and holds none of its rows. -/
theorem arrivalObjections_eq_nil_iff :
    assembler.arrivalObjections region = [] ↔
      assembler.completed.has (assembler.grid.owner region.bounds.left region.bounds.top) =
        false ∧
      ∀ y, region.bounds.top ≤ y -> y < region.bounds.bottom ->
        assembler.holdsRow region.bounds.left y = false := by
  unfold arrivalObjections Rectangle.height
  simp only [List.append_eq_nil_iff, objection_eq_nil_iff, List.map_eq_nil_iff,
    List.filter_eq_nil_iff, List.mem_range'_1, Bool.not_eq_true]
  apply and_congr_right
  intro _
  constructor
  · intro none y top_le lt_bottom
    exact none y ⟨top_le, by omega⟩
  · rintro none y ⟨top_le, lt_end⟩
    exact none y top_le (by omega)

/-- A region is not refused when it consists of rows of a bucket that its tile waits
for. -/
theorem objections_eq_nil_iff :
    assembler.objections region = [] ↔
      assembler.isFinished = false ∧
      region.channels = assembler.channels ∧
      region.WellFormed ∧
      ∃ cell ∈ assembler.buckets, region.bounds.RowsOf cell ∧
        ∃ position, assembler.grid.Contains position ∧
          (∀ x y, cell.Covers x y ->
            (assembler.grid.frame position).contains x y = true) ∧
          assembler.completed.has position = false ∧
          ∀ y, region.bounds.top ≤ y -> y < region.bounds.bottom ->
            assembler.holdsRow region.bounds.left y = false := by
  unfold objections objectionsBy
  rw [List.append_eq_nil_iff, ruleObjections_eq_nil_iff, arrivalObjections_eq_nil_iff]
  constructor
  · rintro ⟨⟨unfinished, channels_eq, wellFormed, cell, member, rows⟩, notComplete, noRow⟩
    obtain ⟨coversFirst, insideX, insideY⟩ := assembler.covers_of_rowsOf member rows
    refine ⟨unfinished, channels_eq, wellFormed, cell, member, rows, _,
      Grid.contains_owner insideX insideY, ?_, notComplete, noRow⟩
    intro x y covers
    have sides := BucketSize.sides_of_mem_cover member
    have lt_right := covers.1.2
    have lt_bottom := covers.2.2
    rw [Grid.contains_frame_iff (by omega) (by omega)]
    exact assembler.divides.owner_eq_of_covers member coversFirst covers
  · rintro ⟨unfinished, channels_eq, wellFormed, cell, member, rows, position, _, contains,
      notComplete, noRow⟩
    refine ⟨⟨unfinished, channels_eq, wellFormed, cell, member, rows⟩, ?_, noRow⟩
    obtain ⟨coversFirst, insideX, insideY⟩ := assembler.covers_of_rowsOf member rows
    rw [← (Grid.contains_frame_iff insideX insideY).mp (contains _ _ coversFirst)]
    exact notComplete

/-! ## What has arrived before -/

/-- As long as a tile is not complete, it holds the rows that have arrived on the canvas. -/
theorem Keeps.holdsRow_eq
    {image : Image}
    {canvas : Canvas}
    (keeps : assembler.Keeps image canvas)
    (unfinished : assembler.isFinished = false)
    {x y : Nat}
    (insideX : x < assembler.grid.imageWidth)
    (insideY : y < assembler.grid.imageHeight)
    (notComplete : assembler.completed.has (assembler.grid.owner x y) = false) :
    assembler.holdsRow x y = canvas.has x y := by
  obtain ⟨rfl, _, _, pending, _⟩ := keeps
  obtain ⟨holds, _⟩ := pending unfinished _ (Grid.contains_owner insideX insideY) notComplete
  exact holds.isFilled_of_contains ((Grid.contains_frame_iff insideX insideY).mpr rfl)

/-- Closing an assembly leaves the number of channels as it is. -/
theorem channels_close
    (sink : Sink State Summary)
    (assembler : Assembler State Summary) :
    (assembler.close sink).value.2.channels = assembler.channels := by
  cases finished : assembler.isFinished with
  | true => rw [close_of_finished finished]
  | false =>
      rw [close_of_unfinished finished]
      exact (finishSink_answers sink _).2

/-- Calls leave the number of channels as it is. -/
theorem channels_performAllInWords
    {sink : Sink State Summary}
    {assembler last : Assembler (State × List Request) Summary}
    {calls : List Call}
    {steps : List Step}
    (performed : assembler.performAllInWords sink calls = (steps, .ok last)) :
    last.channels = assembler.channels := by
  unfold performAllInWords at performed
  induction calls generalizing assembler steps with
  | nil =>
      cases performed
      rfl
  | cons call calls inductionHypothesis =>
      rw [performAllBy] at performed
      split at performed
      next => cases performed
      next step next performedFirst =>
        simp only [Prod.mk.injEq] at performed
        rw [inductionHypothesis (Prod.ext rfl performed.2)]
        cases call with
        | submit region =>
            obtain ⟨result, submitted, _⟩ := performBy_submit_eq_ok_iff.mp performedFirst
            exact (submitInWords_answers submitted).2
        | close =>
            cases performedFirst
            exact channels_close sink.recorded assembler.forget

/-- An assembly is started for its sizes and channels. -/
theorem sizes_of_start
    {grid : Grid}
    {bucketWidth bucketHeight channels : Nat}
    {sink : State}
    (started : start grid bucketWidth bucketHeight channels sink = .ok assembler) :
    assembler.grid = grid ∧ assembler.bucket.width = bucketWidth ∧
      assembler.bucket.height = bucketHeight ∧ assembler.channels = channels := by
  unfold start BucketSize.ofSides at started
  split at started
  next widthPositive =>
    split at started
    next heightPositive =>
      simp only [bind, Except.bind] at started
      split at started
      next =>
        cases started
        exact ⟨rfl, rfl, rfl, rfl⟩
      next => cases started
    next => cases started
  next => cases started

end Assembler

namespace FourTiles

theorem side_pos : 0 < 3 := Nat.succ_pos 2

/-- An image of three columns and three rows in four tiles, each of them one bucket. -/
def image : Image where
  grid :=
    { imageWidth := 3
      imageHeight := 3
      tileWidth := 2
      tileHeight := 2
      imageWidth_pos := side_pos
      imageHeight_pos := side_pos
      tileWidth_pos := Nat.two_pos
      tileHeight_pos := Nat.two_pos
      tileCount_lt := by decide }
  bucket := { width := 2, height := 2, width_pos := Nat.two_pos, height_pos := Nat.two_pos }
  divides := by decide
  channels := 1
  supported := supportedChannels_one

/-- The second row of the first tile arrives, and then all of the tile beside it. -/
def calls : List Call :=
  [.submit (.unoccluded ⟨0, 1, 2, 2⟩ 1), .submit (.unoccluded ⟨2, 0, 3, 2⟩ 1)]

/-- The assembly of the image, whose sink records what is asked of it. -/
def started : Assembler (Recording × List Request) Nat := image.start (Recording.empty, [])

/-- What the calls make of the assembly. -/
def called : List Step × Except Violation (Assembler (Recording × List Request) Nat) :=
  started.performAllInWords (Recording.sink none false) calls

/-- The assembly after the calls. -/
def reached : Assembler (Recording × List Request) Nat :=
  match called.2 with
  | .ok assembler => assembler
  | .error _ => started

theorem performAll_calls :
    started.performAllInWords (Recording.sink none false) calls = (called.1, .ok reached) := by
  have succeeds : called.2.isOk = true := by decide +kernel
  refine Prod.ext rfl ?_
  show called.2 = .ok reached
  unfold reached
  cases outcome : called.2 with
  | ok assembler => rfl
  | error violation =>
      rw [outcome] at succeeds
      cases succeeds

end FourTiles

namespace Unmeasurable

/-- An image of one bucket, whose nodes have a depth and as many channels as words count. -/
def grid : Grid where
  imageWidth := 2
  imageHeight := 2
  tileWidth := 2
  tileHeight := 2
  imageWidth_pos := Nat.two_pos
  imageHeight_pos := Nat.two_pos
  tileWidth_pos := Nat.two_pos
  tileHeight_pos := Nat.two_pos
  tileCount_lt := by decide

/-- The assembly of the image. -/
def started : Except Violation (Assembler Recording Nat) :=
  Assembler.start grid 2 2 0xffffffff Recording.empty

/-- Its first row, without any values. -/
def region : Region :=
  { bounds := ⟨0, 0, 2, 1⟩
    channels := 0xffffffff
    lengths := some [0x80000000, 0x80000000]
    values := [] }

end Unmeasurable

end Assembly
end DeepShadow
