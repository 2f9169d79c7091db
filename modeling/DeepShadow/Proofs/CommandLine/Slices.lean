import DeepShadow.Proofs.CommandLine.Runs
import DeepShadow.Proofs.ShadowMap.GreatestDepth

/-!
# Slices of a whole map

The slices of a map are meant to reach from depth zero to the greatest depth.  Each depth is
a product that is rounded and then a quotient that is rounded, so the last one is the
greatest depth only where the product is exact.  Else it can be the number next to it on
either side, or infinite.  In front of the greatest depth, the last picture lacks what lies
at this depth.
-/

namespace DeepShadow
namespace CommandLine

open Procedure

/-! ## Depths of slices -/

/-- How the depths of some slices lie between zero and the greatest depth: they do not
decrease, and there is no number between the last one and the greatest depth, unless the
greatest depth times the number of steps is infinite. -/
structure Spread (greatest : Single) (count : Nat) : Prop where
  first_eq : sliceDepth greatest count 0 = Single.zero
  ordered : ∀ first second, first ≤ second -> second < count ->
    sliceDepth greatest count first ≤ sliceDepth greatest count second
  notBefore : ∀ depth, depth < greatest -> depth ≤ sliceDepth greatest count (count - 1)
  notBehind : (greatest * Single.ofNat (count - 1)).isFinite = true ->
    ∀ depth, greatest < depth -> sliceDepth greatest count (count - 1) ≤ depth
  infinite : (greatest * Single.ofNat (count - 1)).isFinite = false ->
    sliceDepth greatest count (count - 1) = Single.ofMagnitude false Single.infinityMagnitude
  last_eq : (greatest * Single.ofNat (count - 1)).isFinite = true ->
    (greatest * Single.ofNat (count - 1)).toRat =
        greatest.toRat * (Single.ofNat (count - 1)).toRat ->
      sliceDepth greatest count (count - 1) = greatest

theorem sliceDepth_eq
    {count : Nat}
    (several : 2 ≤ count)
    (greatest : Single)
    (index : Nat) :
    sliceDepth greatest count index =
      greatest * Single.ofNat index / Single.ofNat (count - 1) := by
  rw [sliceDepth, if_neg (by omega)]

section Steps

variable {greatest : Single} {count : Nat}
variable (level : greatest.IsLevel) (several : 2 ≤ count) (bound : count < 2 ^ 32)

include level several bound

omit level in
/-- The number of steps between the slices is one at least, and finite. -/
theorem isLevel_steps :
    (Single.ofNat (count - 1)).IsLevel ∧ Single.one ≤ Single.ofNat (count - 1) :=
  ⟨Single.isLevel_ofNat (by omega), Single.one_le_ofNat (by omega) (by omega)⟩

theorem sliceDepth_zero : sliceDepth greatest count 0 = Single.zero := by
  obtain ⟨steps, large⟩ := isLevel_steps several bound
  have none : Single.ofNat 0 = Single.zero := by decide
  rw [sliceDepth_eq several, none, level.mul_zero, steps.zero_div (steps.zero_lt_of_one_le large)]

theorem sliceDepth_mono
    {first second : Nat}
    (ordered : first ≤ second)
    (inside : second < count) :
    sliceDepth greatest count first ≤ sliceDepth greatest count second := by
  obtain ⟨steps, large⟩ := isLevel_steps several bound
  have lower : (Single.ofNat first).IsLevel := Single.isLevel_ofNat (by omega)
  have upper : (Single.ofNat second).IsLevel := Single.isLevel_ofNat (by omega)
  rw [sliceDepth_eq several, sliceDepth_eq several]
  apply (level.mul lower).div_le_div steps (steps.zero_lt_of_one_le large) (level.mul upper)
  exact level.mul_le_mul lower upper (Single.ofNat_le_ofNat ordered (by omega))

/-- The depths of two or more slices are spread from zero to a finite depth. -/
theorem spread_of_isLevel : Spread greatest count := by
  obtain ⟨steps, large⟩ := isLevel_steps several bound
  have last_eq := sliceDepth_eq several greatest (count - 1)
  have infinite_eq (infinite : (greatest * Single.ofNat (count - 1)).isFinite = false) :
      sliceDepth greatest count (count - 1) =
        Single.ofMagnitude false Single.infinityMagnitude :=
    last_eq.trans ((level.mul steps).div_eq_infinity steps infinite)
  constructor
  case first_eq => exact sliceDepth_zero level several bound
  case ordered => exact fun _ _ => sliceDepth_mono level several bound
  case notBefore =>
    intro depth below
    cases finite : (greatest * Single.ofNat (count - 1)).isFinite with
    | true =>
        rw [last_eq]
        exact (level.mul_div_near steps large finite).1 depth below
    | false =>
        rw [infinite_eq finite]
        exact Single.le_trans (Single.le_of_lt below) level.amount.le_infinity
  case notBehind =>
    intro finite depth above
    rw [last_eq]
    exact (level.mul_div_near steps large finite).2 depth above
  case infinite => exact infinite_eq
  case last_eq =>
    intro finite exactly
    rw [last_eq]
    exact level.mul_div_eq steps large finite exactly

end Steps

/-! ## Colors of the last slice -/

/-- At the depth of the last slice a pixel has its color at the greatest depth, unless it has
a node there which is behind the last slice. -/
theorem Spread.visibilityAt_last
    {ε : Type}
    {source : TileSource ε}
    {count : Nat}
    (spread : Spread source.greatestDepth count)
    (positive : 0 < count)
    (whole : source.HasWholeNodes)
    {x y : Nat}
    (seen : source.greatestDepth ≤ sliceDepth source.greatestDepth count (count - 1) ∨
      ¬source.NodeAt x y source.greatestDepth) :
    source.visibilityAt x y (sliceDepth source.greatestDepth count (count - 1)) =
      source.visibilityAt x y source.greatestDepth := by
  by_cases behind : source.greatestDepth ≤ sliceDepth source.greatestDepth count (count - 1)
  · exact whole.visibilityAt_of_greatestDepth_le behind x y
  have noNode := seen.resolve_left behind
  refine TileSource.visibilityAt_congr fun node isNode =>
    ⟨whole.le_greatestDepth_of_le isNode, fun ordered => ?_⟩
  · by_cases below : node < source.greatestDepth
    · exact spread.notBefore node below
    -- The last slice is in front of the greatest depth, which so is not zero.
    have zero_le := spread.ordered 0 (count - 1) (Nat.zero_le _) (by omega)
    rw [spread.first_eq] at zero_le
    have above : Single.zero < source.greatestDepth := by
      by_contra notAbove
      refine behind (Single.le_trans ?_ zero_le)
      exact (Single.not_lt_iff (by decide) source.isAmount_greatestDepth.isNumber).mp notAbove
    exact absurd (Single.eq_of_le_of_not_lt above ordered below ▸ isNode) noNode

/-! ## Files -/

/-- The system has certain bytes in a file, and writes every file that it is asked for. -/
def Grants (file : String) (contents : Except FileError (List UInt8)) : Exchange -> Prop
  | ⟨.readFile path, answer⟩ => path = file -> answer = contents
  | ⟨.writeFile _ _, answer⟩ => answer = .ok ()
  | _ => True

/-- The picture of a slice of a file. -/
def slicePicture
    (source : Texture.Reader)
    (colorOf : Nat -> Nat -> Single -> Color)
    (depth : Single) : Picture :=
  Picture.ofColors source.grid.imageWidth source.grid.imageHeight source.channels
    (source.grid.pixels.map fun pixel => colorOf pixel.1 pixel.2 depth)

/-- The file of a slice. -/
def sliceFile (directory : String) (index : Nat) (picture : Picture) : String × FileContent :=
  (joinPath directory (sliceName index), .picture picture)

/-- The files of evenly spread slices of a file. -/
def sliceFiles
    (directory : String)
    (source : Texture.Reader)
    (colorOf : Nat -> Nat -> Single -> Color)
    (count : Nat) : List (String × FileContent) :=
  (List.range count).map fun index =>
    sliceFile directory index
      (slicePicture source colorOf (sliceDepth source.tiles.greatestDepth count index))

/-- Some files are written, or none is since the system refuses to create a directory. -/
def Exported
    (directory : String)
    (files : List (String × FileContent))
    (result : Except Abort Unit)
    (exchanges : List Exchange) : Prop :=
  (result = .ok () ∧ writtenIn exchanges = files) ∨
    ∃ path refusal, ⟨.createDirectory path, .error refusal⟩ ∈ exchanges ∧
      writtenIn exchanges = [] ∧ result =
        .error (.failure ⟨s!"create output directory {directory}", [refusal.message]⟩)

section Files

variable {verbosity : Nat} {configuration : Configuration} {file directory : String}
variable {contents : Except FileError (List UInt8)} {source : Texture.Reader}

theorem ends_openMap
    (opened : (Texture.Reader.open file contents).value = .ok source)
    (positive : 0 < configuration.maxResidentTiles) :
    ∃ map, ShadowMap.Serves (.ok source) map ∧
      Ends (Grants file contents) (openMap verbosity configuration file) [] (.ok map) := by
  obtain ⟨map, made, serves⟩ := ShadowMap.exists_map file positive contents
  rw [opened] at serves
  have valid : map.isValid = true := ShadowMap.Answers.isValid serves
  refine ⟨map, serves, ?_⟩
  have asked : Ends (Grants file contents) (ask (.readFile file)) [] (.ok contents) :=
    ends_ask fun answer granted => granted rfl
  have shown := ends_ofTraced (Grants file contents) verbosity
    (ShadowMap.open file configuration.maxResidentTiles contents)
  rw [made] at shown
  refine asked.bind (shown.bind ((ends_pure _ map).bind ?_))
  rw [if_pos valid]
  exact ends_pure _ map

variable {colorOf : Nat -> Nat -> Single -> Color}
variable (known : ∀ x y depth, source.tiles.visibilityAt x y depth = .ok (colorOf x y depth))

include known

theorem ends_writeSlice
    (room : source.grid.HasRoom)
    (index : Nat)
    (depth : Single)
    {map : ShadowMap}
    (serves : map.Answers source) :
    ∃ next, ShadowMap.Answers source next ∧
      Ends (Grants file contents) (writeSlice verbosity directory index depth map)
        [sliceFile directory index (slicePicture source colorOf depth)] (.ok next) := by
  obtain ⟨next, answered, servesNext : next.Answers source⟩ :=
    ShadowMap.gives_depthSlice known room depth map serves
  refine ⟨next, servesNext, ?_⟩
  have picture_eq : Picture.ofColors next.width next.height next.channels
      (source.grid.pixels.map fun pixel => colorOf pixel.1 pixel.2 depth) =
        slicePicture source colorOf depth := by
    rw [servesNext.width_eq, servesNext.height_eq, servesNext.channels_eq]
    rfl
  have written : Ends (Grants file contents)
      (ask (.writeFile (joinPath directory (sliceName index))
        (.picture (slicePicture source colorOf depth))))
      [sliceFile directory index (slicePicture source colorOf depth)] (.ok (.ok ())) :=
    ends_ask fun answer granted => granted
  unfold writeSlice
  refine (ends_checked _ verbosity answered).bind ?_
  simp only [picture_eq]
  refine written.bind ((ends_pure _ ()).bind ?_)
  exact (ends_ofTraced _ verbosity _).bind (ends_pure _ next)

/-- The exporter writes one file for each slice, unless the system refuses a directory. -/
theorem ensures_writeSlices
    (opened : (Texture.Reader.open file contents).value = .ok source)
    (room : source.grid.HasRoom)
    (positive : 0 < configuration.maxResidentTiles)
    {count : Nat}
    (some : count ≠ 0) :
    Ensures (Grants file contents) (writeSlices verbosity configuration file count directory)
      (Exported directory (sliceFiles directory source colorOf count)) := by
  obtain ⟨map, serves, opening⟩ := ends_openMap opened positive
  unfold writeSlices
  rw [if_neg some]
  refine opening.ensures_bind fun atFirst noneAtFirst => ?_
  refine ensures_liftM_bind fun making created ranMaking => ?_
  have noneMaking := (Program.keepsFiles_ensureNested _ _).writtenIn_eq ranMaking
  cases created with
  | error refusal =>
      have failed : Ends (Grants file contents)
          (fail s!"create output directory {directory}" [refusal.message] : Procedure Unit) []
          (.error (.failure ⟨s!"create output directory {directory}", [refusal.message]⟩)) :=
        ends_fail _ _ _
      refine (failed.bind_error _).ensures fun atLast noneAtLast => Or.inr ?_
      obtain ⟨path, refused⟩ := Program.refused_of_ensureNested ranMaking
      refine ⟨path, refusal, ?_, ?_, rfl⟩
      · exact List.mem_append_right _ (List.mem_append_left _ refused)
      · simp [noneAtFirst, noneMaking, noneAtLast]
  | ok created =>
      obtain ⟨next, answered, servesNext⟩ := ShadowMap.gives_greatestDepth source map serves
      obtain ⟨last, ⟨reader, reader_eq, -⟩, written⟩ := ends_foldlM (List.range count)
        (fun index _ map serves => ends_writeSlice known room index
          (sliceDepth source.tiles.greatestDepth count index) serves) servesNext
      refine (ends_pure _ ()).ensures_bind fun atThird noneAtThird => ?_
      refine (ends_checked _ verbosity answered).ensures_bind fun asking noneAsking => ?_
      refine written.ensures_bind fun writing written_eq => ?_
      simp only [reader_eq]
      refine (ends_ofTraced _ verbosity _).ensures_bind fun counting noneCounting => ?_
      refine (ends_printLine _ _).ensures fun atLast noneAtLast => Or.inl ⟨rfl, ?_⟩
      simp [noneAtFirst, noneMaking, noneAtThird, noneAsking, written_eq, noneCounting, noneAtLast,
        sliceFiles]

end Files

/-- Of every file that is opened and whose greatest depth is finite, the depths of two or more
slices are spread from zero to the greatest depth, or next to it.  At the last one every pixel
has its color at the greatest depth, except for pixels with a node at the greatest depth
where this is behind the last slice.  Where an array has room for the colors of the image and
every pixel of the file has a color, the exporter writes the pictures of these slices, in every
run in which the system reads the file and writes all files, unless the system refuses to create
a directory. -/
theorem slices_spread
    (verbosity : Nat)
    (configuration : Configuration)
    (directory : String)
    {file : String}
    {contents : Except FileError (List UInt8)}
    {source : Texture.Reader}
    {count : Nat}
    (opened : (Texture.Reader.open file contents).value = .ok source)
    (finite : source.tiles.greatestDepth.isFinite = true)
    (positive : 0 < configuration.maxResidentTiles)
    (several : 2 ≤ count)
    (bound : count < 2 ^ 32) :
    Spread source.tiles.greatestDepth count ∧
      (∀ x y,
        source.tiles.greatestDepth ≤ sliceDepth source.tiles.greatestDepth count (count - 1) ∨
            ¬source.tiles.NodeAt x y source.tiles.greatestDepth ->
          source.tiles.visibilityAt x y
              (sliceDepth source.tiles.greatestDepth count (count - 1)) =
            source.tiles.visibilityAt x y source.tiles.greatestDepth) ∧
      (source.grid.HasRoom -> ∀ colorOf : Nat -> Nat -> Single -> Color,
        (∀ x y depth, source.tiles.visibilityAt x y depth = .ok (colorOf x y depth)) ->
          Ensures (Grants file contents)
            (writeSlices verbosity configuration file count directory)
            (Exported directory (sliceFiles directory source colorOf count))) := by
  obtain ⟨bytes, -, read⟩ := Texture.Reader.exists_bytes opened
  have spread := spread_of_isLevel ⟨source.tiles.isAmount_greatestDepth.sign, finite⟩ several bound
  refine ⟨spread, fun x y seen => ?_, fun room colorOf known => ?_⟩
  · exact spread.visibilityAt_last (by omega) (Texture.Reader.hasWholeNodes read) seen
  · exact ensures_writeSlices known opened room positive (by omega)

/-! ## A surface at the end -/

namespace SurfaceAtEnd

/-- The depth of the surface, about seventeen tenths. -/
def depth : Single := ⟨0x3fd9999a⟩

/-- The header of an image of one pixel, for a file of 204 bytes. -/
def header : Texture.Header :=
  { fileSize := 204
    imageWidth := 1
    imageHeight := 1
    channels := 1
    dataSize := 24
    tileWidth := 1
    tileHeight := 1
    tileCount := 1
    transforms := Texture.Transforms.identity }

/-- The nodes of the pixel: fully visible up to the surface, and occluded from there. -/
def nodes : List Single := [Single.zero, Single.one, depth, Single.zero]

def file : List UInt8 :=
  header.encode ++ [⟨0, 0, 180⟩].flatMap Texture.Entry.encode ++
    Texture.wordsBytes ([0, 2] ++ nodes.map Single.bits)

def tile : Tile :=
  { placement := ⟨⟨0, 0⟩, 0, 0, 1, 1⟩
    channels := 1
    offsets := #[0, 2]
    values := nodes.toArray }

theorem exists_reader :
    ∃ reader, (Texture.Reader.open "map.dtex" (.ok file)).value = .ok reader := by
  rw [Texture.value_open]
  exact Texture.Reader.exists_ofBytes (by decide +kernel)

section Opened

variable {reader : Texture.Reader}
variable (opened : (Texture.Reader.open "map.dtex" (.ok file)).value = .ok reader)

include opened

theorem smallTiles : reader.SmallTiles := by
  rw [Texture.value_open] at opened
  unfold Texture.Reader.SmallTiles
  rw [(Texture.Reader.fields_eq opened).1]
  decide +kernel

theorem load_eq : reader.load ⟨0, 0⟩ = .ok tile := by
  rw [Texture.value_open] at opened
  have stored : reader.StoredAt ⟨0, 0⟩ 180 :=
    (Texture.Reader.storedAt_iff opened).mpr (by decide +kernel)
  have framed : (Texture.headerOf file).grid.map (·.frame ⟨0, 0⟩) = .ok tile.placement := by
    decide +kernel
  rw [stored.load_last opened (by decide +kernel) (by decide +kernel) framed]
  decide +kernel

theorem grid_eq :
    (reader.grid.imageWidth = 1 ∧ reader.grid.imageHeight = 1) ∧
      reader.grid.positions = [⟨0, 0⟩] ∧ reader.grid.pixels = [(0, 0)] ∧
      reader.grid.tileForPixel 0 0 = .ok ⟨0, 0⟩ := by
  have computed : (Texture.headerOf file).grid.map
      (fun grid => ((grid.imageWidth, grid.imageHeight), grid.positions, grid.pixels,
        grid.tileForPixel 0 0)) = .ok ((1, 1), [⟨0, 0⟩], [(0, 0)], .ok ⟨0, 0⟩) := by
    decide +kernel
  rw [Texture.value_open] at opened
  simpa using Texture.Reader.of_map_grid opened computed

/-- There is room for the color of the pixel. -/
theorem room : reader.grid.HasRoom := by
  rw [Grid.HasRoom, (grid_eq opened).1.1, (grid_eq opened).1.2]
  decide

theorem greatestDepth_eq : reader.tiles.greatestDepth = depth := by
  have positions : reader.tiles.grid.positions = [⟨0, 0⟩] := (grid_eq opened).2.1
  have loads : reader.tiles.load = reader.load := rfl
  rw [TileSource.greatestDepth, positions]
  simp only [List.foldl_cons, List.foldl_nil, TileSource.deeper, loads, load_eq opened]
  decide +kernel

theorem visibilityAt_eq (depth : Single) :
    reader.tiles.visibilityAt 0 0 depth = tile.visibilityAt 0 0 depth := by
  have found : reader.tiles.tileForPixel 0 0 = some tile := by
    unfold TileSource.tileForPixel Texture.Reader.tiles
    simp only [(grid_eq opened).2.2.2, load_eq opened]
    rfl
  rw [TileSource.visibilityAt, found]
  rfl

theorem depthSlice_eq (depth : Single) :
    reader.tiles.depthSlice depth = (tile.visibilityAt 0 0 depth).map fun color => [color] := by
  have pixels : reader.tiles.grid.pixels = [(0, 0)] := (grid_eq opened).2.2.1
  have reserved : reader.tiles.grid.reserve = .ok () := (room opened).reserve_eq
  rw [TileSource.depthSlice, reserved, pixels, ← visibilityAt_eq opened]
  cases looked : reader.tiles.visibilityAt 0 0 depth with
  | error violation => simp [looked, Except.map, bind, Except.bind]
  | ok color => simp [looked, Except.map, bind, Except.bind, pure, Except.pure]

/-- The last one of twenty pictures is white. -/
theorem slicePicture_eq
    {colorOf : Nat -> Nat -> Single -> Color}
    (known : ∀ x y depth, reader.tiles.visibilityAt x y depth = .ok (colorOf x y depth)) :
    slicePicture reader colorOf (sliceDepth depth 20 19) = ⟨1, 1, .gray, [255]⟩ := by
  obtain ⟨⟨width_eq, height_eq⟩, -, pixels_eq, -⟩ := grid_eq opened
  have channels_eq : reader.channels = 1 := by
    rw [Texture.value_open] at opened
    rw [Texture.Reader.channels, (Texture.Reader.fields_eq opened).1]
    decide +kernel
  have white := known 0 0 (sliceDepth depth 20 19)
  rw [visibilityAt_eq opened] at white
  have looked : tile.visibilityAt 0 0 (sliceDepth depth 20 19) = .ok Color.white := by
    decide +kernel
  rw [slicePicture, width_eq, height_eq, channels_eq, pixels_eq, List.map_singleton,
    ← Except.ok.inj (looked.symm.trans white)]
  decide +kernel

end Opened

/-- A system with one file that refuses nothing. -/
def answerTo : {Answer : Type} -> Request Answer -> Answer
  | _, .readFile _ => .ok file
  | _, .createFile _ => .ok ()
  | _, .writeFile _ _ => .ok ()
  | _, .createDirectory _ => .ok ()
  | _, .isDirectory _ => true
  | _, .print _ => ()
  | _, .complain _ => ()

end SurfaceAtEnd

open SurfaceAtEnd in
/-- The exporter writes twenty pictures of a map of one pixel, and the last one is white. -/
theorem slices_spread_surfaceAtEnd :
    (∃ source, (Texture.Reader.open "map.dtex" (.ok file)).value = .ok source ∧
      source.tiles.greatestDepth.isFinite = true) ∧
      ∃ exchanges, (writeSlices 0 {} "map.dtex" 20 "slices").run.Runs exchanges (.ok ()) ∧
        (writtenIn exchanges).length = 20 ∧
        (writtenIn exchanges)[19]? =
          some (joinPath "slices" (sliceName 19), .picture ⟨1, 1, .gray, [255]⟩) := by
  obtain ⟨source, opened⟩ := exists_reader
  have finite : source.tiles.greatestDepth.isFinite = true := by
    rw [greatestDepth_eq opened]
    decide
  refine ⟨⟨source, opened, finite⟩, ?_⟩
  obtain ⟨bytes, -, read⟩ := Texture.Reader.exists_bytes opened
  choose colorOf known using (smallTiles opened).visibilityAt_eq_ok read
  obtain ⟨-, -, exported⟩ := slices_spread 0 {} "slices" opened finite (by decide)
    (by decide : 2 ≤ 20) (by decide)
  obtain ⟨exchanges, result, run, answered⟩ :=
    Program.exists_runs answerTo (writeSlices 0 {} "map.dtex" 20 "slices").run
  have granted : ∀ exchange ∈ exchanges, Grants "map.dtex" (.ok file) exchange := by
    rintro ⟨request, answer⟩ member
    obtain rfl : answer = answerTo request := answered _ member
    cases request with
    | readFile path => exact fun _ => rfl
    | writeFile path content => rfl
    | _ => trivial
  obtain ⟨rfl, written⟩ | ⟨path, refusal, refused, -⟩ :=
    exported (room opened) colorOf known exchanges result run granted
  · refine ⟨exchanges, run, ?_, ?_⟩
    · rw [written, sliceFiles, List.length_map, List.length_range]
    · rw [written, sliceFiles, List.getElem?_map, List.getElem?_range (by decide),
        Option.map_some, greatestDepth_eq opened, slicePicture_eq opened known, sliceFile]
  · cases answered _ refused

open SurfaceAtEnd in
/-- Of twenty slices of a map with a surface at its greatest depth, the last one is in front
of this depth, and the surface is not seen in it. -/
theorem surface_not_in_last_slice :
    ∃ source, (Texture.Reader.open "map.dtex" (.ok file)).value = .ok source ∧
      source.tiles.greatestDepth = depth ∧ sliceDepth depth 20 19 < depth ∧
      source.tiles.depthSlice (sliceDepth depth 20 19) = .ok [Color.white] ∧
      source.tiles.depthSlice depth = .ok [Color.black] := by
  obtain ⟨source, opened⟩ := exists_reader
  refine ⟨source, opened, greatestDepth_eq opened, by decide +kernel, ?_, ?_⟩
  · rw [depthSlice_eq opened]
    decide +kernel
  · rw [depthSlice_eq opened]
    decide +kernel

end CommandLine
end DeepShadow
