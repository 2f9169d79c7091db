import DeepShadow.Proofs.ShadowMap.History
import DeepShadow.Proofs.Single.Order

/-!
# The greatest depth

A lookup compares the depth that is asked for with the depths of nodes, and with nothing
else.  The greatest depth of a map lies at or behind every node whose depth is a number, and
a node at no number is behind every depth.  So all comparisons come out the same at the
greatest depth and behind it, in whatever order the nodes are.
-/

namespace DeepShadow

namespace Single

/-- What is larger than a number without a sign has none either. -/
theorem IsAmount.max
    {x : Single}
    (amount : x.IsAmount)
    (y : Single) :
    (x.max y).IsAmount := by
  unfold Single.max
  rw [if_neg (by simp [amount.isNumber])]
  split_ifs with below
  · exact isAmount_of_lt amount.zero_le below
  · exact amount

/-- The greatest one of many numbers is at least each of them; what is not a number does not
count. -/
theorem IsAmount.foldl_max
    {α : Type}
    (depthOf : α -> Single)
    (values : List α)
    {start : Single}
    (amount : start.IsAmount) :
    (values.foldl (fun greatest value => greatest.max (depthOf value)) start).IsAmount ∧
      start ≤ values.foldl (fun greatest value => greatest.max (depthOf value)) start ∧
      ∀ value ∈ values, depthOf value ≤ depthOf value ->
        depthOf value ≤ values.foldl (fun greatest value => greatest.max (depthOf value))
          start := by
  induction values generalizing start with
  | nil => exact ⟨amount, le_self_of_le amount.zero_le, by simp⟩
  | cons first others inductionHypothesis =>
      have notBelow : start ≤ start.max (depthOf first) := le_max_left amount.isNumber _
      obtain ⟨isAmount, maxBelow, othersBelow⟩ := inductionHypothesis (amount.max (depthOf first))
      refine ⟨isAmount, le_trans notBelow maxBelow, ?_⟩
      refine List.forall_mem_cons.mpr ⟨fun firstNumber => ?_, othersBelow⟩
      exact le_trans (le_max firstNumber start) maxBelow

end Single

/-! ## Comparisons of a lookup -/

namespace StoredCurve

theorem eq_of_ofData
    {channels : Nat}
    {data : Array Single}
    {curve : StoredCurve}
    (made : ofData channels data = .ok curve) :
    curve = ⟨channels, data⟩ := by
  unfold ofData at made
  split at made
  · cases made
  · split at made
    · cases made
    · exact (Except.ok.inj made).symm

variable {curve : StoredCurve} {depth other : Single}
variable (same : ∀ index node, curve.depth index = .ok node -> (node ≤ depth ↔ node ≤ other))

include same

/-- Two depths with the same nodes at or before them are bisected alike. -/
theorem bisect_congr (low high : Nat) :
    curve.bisect depth low high = curve.bisect other low high := by
  fun_induction bisect curve depth low high with
  | case1 low high below middle inductionBehind inductionBefore =>
      have unfolded : curve.bisect other low high =
          (do if (← curve.depth middle) ≤ other then curve.bisect other (middle + 1) high
              else curve.bisect other low middle) := by
        rw [bisect, if_pos below]
      rw [unfolded]
      cases depth_eq : curve.depth middle with
      | error violation => rfl
      | ok node =>
          simp only [bind, Except.bind, same middle node depth_eq]
          split
          · exact inductionBehind
          · exact inductionBefore
  | case2 low high notBelow =>
      conv_rhs => rw [bisect, if_neg notBelow]

theorem visibilityAt_congr : curve.visibilityAt depth = curve.visibilityAt other := by
  unfold visibilityAt
  rw [bisect_congr same]

end StoredCurve

/-! ## Tiles -/

namespace Tile

variable {tile : Tile} {node : Single}

theorem zero_le_greatestDepth (tile : Tile) : Single.zero ≤ tile.greatestDepth :=
  (Single.isLevel_zero.amount.foldl_max _ _).2.1

/-- The curve of a pixel is a part of the values that starts with a node. -/
theorem exists_extract_of_curve
    {x y : Nat}
    {curve : StoredCurve}
    (curve_eq : tile.curve x y = .ok curve) :
    ∃ start stop, curve = ⟨tile.channels,
      tile.values.extract (start * (tile.channels + 1)) (stop * (tile.channels + 1))⟩ := by
  unfold Tile.curve at curve_eq
  dsimp only at curve_eq
  split at curve_eq
  · split at curve_eq
    · split at curve_eq
      · exact ⟨_, _, StoredCurve.eq_of_ofData curve_eq⟩
      · cases curve_eq
    · cases curve_eq
  · cases curve_eq

theorem curve_of_curveAtPixel
    {x y : Nat}
    {curve : StoredCurve}
    (curve_eq : tile.curveAtPixel x y = .ok (some curve)) :
    tile.curve (x - tile.placement.originX) (y - tile.placement.originY) = .ok curve := by
  unfold curveAtPixel at curve_eq
  split at curve_eq
  · cases found : tile.curve (x - tile.placement.originX) (y - tile.placement.originY) with
    | error violation =>
        rw [found] at curve_eq
        cases curve_eq
    | ok other =>
        rw [found] at curve_eq
        cases curve_eq
        rfl
  · cases curve_eq

section WholeNodes

variable (whole : tile.channels + 1 ∣ tile.values.size)

include whole

/-- The greatest depth of a tile is at least that of each node. -/
theorem le_greatestDepth
    {index : Nat}
    (found : tile.values[index * (tile.channels + 1)]? = some node)
    (isNumber : node ≤ node) :
    node ≤ tile.greatestDepth := by
  have inside : index < tile.values.size / (tile.channels + 1) := by
    obtain ⟨bound, -⟩ := Array.getElem?_eq_some_iff.mp found
    obtain ⟨count, size_eq⟩ := whole
    rw [size_eq, Nat.mul_comm] at bound
    rw [size_eq, Nat.mul_div_cancel_left _ (Nat.succ_pos _)]
    exact Nat.lt_of_mul_lt_mul_left bound
  have node_eq : tile.values.getD (index * (tile.channels + 1)) Single.zero = node := by
    rw [Array.getD_eq_getD_getElem?, found, Option.getD_some]
  have below := (Single.isLevel_zero.amount.foldl_max
    (fun index => tile.values.getD (index * (tile.channels + 1)) Single.zero)
    (List.range (tile.values.size / (tile.channels + 1)))).2.2 index (List.mem_range.mpr inside)
  rw [node_eq] at below
  exact below isNumber

/-- The nodes of a pixel stand among the values of its tile. -/
theorem le_greatestDepth_of_depth
    {x y index : Nat}
    {curve : StoredCurve}
    (curve_eq : tile.curve x y = .ok curve)
    (depth_eq : curve.depth index = .ok node)
    (isNumber : node ≤ node) :
    node ≤ tile.greatestDepth := by
  obtain ⟨start, stop, rfl⟩ := exists_extract_of_curve curve_eq
  unfold StoredCurve.depth StoredCurve.stride at depth_eq
  simp only [Array.getElem?_extract] at depth_eq
  split at depth_eq
  next depth found =>
    cases depth_eq
    split at found
    · rw [← Nat.add_mul] at found
      exact le_greatestDepth whole found isNumber
    · cases found
  next => cases depth_eq

end WholeNodes

end Tile

/-! ## Sources of tiles -/

namespace TileSource

variable {ε : Type} {source : TileSource ε} {x y : Nat} {depth other node : Single}

/-- The curve of a pixel has a node at a depth. -/
def NodeAt (source : TileSource ε) (x y : Nat) (depth : Single) : Prop :=
  ∃ curve index, source.curveAt x y = .ok (some curve) ∧ curve.depth index = .ok depth

theorem greatestDepth_eq (source : TileSource ε) :
    source.greatestDepth =
      (source.grid.positions.filterMap fun position => (source.load position).toOption).foldl
        (fun greatest tile => greatest.max tile.greatestDepth) Single.zero := by
  rw [List.foldl_filterMap]
  unfold greatestDepth
  congr 1
  funext greatest position
  unfold deeper
  cases (source.load position).toOption with
  | none => rfl
  | some tile => rfl

theorem isAmount_greatestDepth (source : TileSource ε) : source.greatestDepth.IsAmount := by
  rw [greatestDepth_eq]
  exact (Single.isLevel_zero.amount.foldl_max _ _).1

/-- Two depths with the same nodes of a pixel at or before them have the same color. -/
theorem visibilityAt_congr
    (same : ∀ node, source.NodeAt x y node -> (node ≤ depth ↔ node ≤ other)) :
    source.visibilityAt x y depth = source.visibilityAt x y other := by
  unfold visibilityAt
  unfold NodeAt curveAt at same
  cases found : source.tileForPixel x y with
  | none => rfl
  | some tile =>
      rw [found] at same
      simp only [visibilityIn, curveIn, Tile.visibilityAt] at same ⊢
      cases curve_eq : tile.curveAtPixel x y with
      | error violation => rfl
      | ok curve =>
          cases curve with
          | none => rfl
          | some curve =>
              exact StoredCurve.visibilityAt_congr fun index node depth_eq =>
                same node ⟨curve, index, curve_eq, depth_eq⟩

/-- Every tile lies in the grid and has whole nodes. -/
def HasWholeNodes (source : TileSource ε) : Prop :=
  ∀ position tile, source.load position = .ok tile ->
    source.grid.Contains position ∧ tile.channels + 1 ∣ tile.values.size

/-- The greatest depth is at least that of each node of a pixel. -/
theorem HasWholeNodes.le_greatestDepth
    (whole : source.HasWholeNodes)
    (isNode : source.NodeAt x y node)
    (isNumber : node ≤ node) :
    node ≤ source.greatestDepth := by
  obtain ⟨curve, index, curve_eq, depth_eq⟩ := isNode
  unfold curveAt at curve_eq
  cases found : source.tileForPixel x y with
  | none =>
      rw [found] at curve_eq
      cases curve_eq
  | some tile =>
      rw [found] at curve_eq
      obtain ⟨position, loaded⟩ := exists_load found
      obtain ⟨inside, wholeTile⟩ := whole position tile loaded
      have inTile := Tile.le_greatestDepth_of_depth wholeTile (Tile.curve_of_curveAtPixel curve_eq)
        depth_eq isNumber
      have isLoaded : tile ∈
          source.grid.positions.filterMap fun position => (source.load position).toOption :=
        List.mem_filterMap.mpr ⟨position, Grid.mem_positions.mpr inside, by rw [loaded]; rfl⟩
      rw [greatestDepth_eq]
      refine Single.le_trans inTile
        ((Single.isLevel_zero.amount.foldl_max _ _).2.2 tile isLoaded ?_)
      exact Single.le_self_of_le tile.zero_le_greatestDepth

/-- A node at or before some depth is at or before the greatest depth. -/
theorem HasWholeNodes.le_greatestDepth_of_le
    (whole : source.HasWholeNodes)
    (isNode : source.NodeAt x y node)
    (ordered : node ≤ depth) :
    node ≤ source.greatestDepth := by
  have isNumber := (Single.le_iff_key.mp ordered).1
  exact whole.le_greatestDepth isNode
    (Single.le_iff_key.mpr ⟨isNumber, isNumber, Int.le_refl _⟩)

/-- At and behind the greatest depth a pixel has one color. -/
theorem HasWholeNodes.visibilityAt_of_greatestDepth_le
    (whole : source.HasWholeNodes)
    (behind : source.greatestDepth ≤ depth)
    (x y : Nat) :
    source.visibilityAt x y depth = source.visibilityAt x y source.greatestDepth :=
  visibilityAt_congr fun _ isNode =>
    ⟨whole.le_greatestDepth_of_le isNode, fun ordered => Single.le_trans ordered behind⟩

end TileSource

/-- The tiles of a file have whole nodes, however many pixels they have. -/
theorem Texture.Reader.hasWholeNodes
    {path : String}
    {bytes : List UInt8}
    {source : Texture.Reader}
    (opened : Texture.Reader.ofBytes path bytes = .ok source) :
    source.tiles.HasWholeNodes := fun _ _ loaded =>
  ⟨(Grid.placement_eq_ok_iff.mp (Texture.Reader.load_cases opened loaded).1).1,
    Texture.Reader.stride_dvd_of_load opened loaded⟩

namespace ShadowMap

open Query

/-- Of every file that is opened and whose tiles have fewer than `2 ^ 32` pixels, every map
answers alike, whatever the capacity of its cache is and however it was used: its greatest
depth is a number that is not below zero, and a lookup gives at every depth behind it what it
gives at the greatest depth. -/
theorem constant_from_greatestDepth
    {path : String}
    {contents : Except FileError (List UInt8)}
    {source : Texture.Reader}
    (opened : (Texture.Reader.open path contents).value = .ok source)
    (small : source.SmallTiles) :
    ∃ greatest, Single.zero ≤ greatest ∧
      ∃ colorOf : Nat -> Nat -> Single -> Color,
        (∀ x y depth, greatest ≤ depth -> colorOf x y depth = colorOf x y greatest) ∧
        ∀ capacity uses, 0 < capacity ->
          ∃ map, ReachedBy path contents capacity uses map ∧
            (∃ next, (greatestDepth.answer map).value = .ok (greatest, next)) ∧
            ∀ x y depth, ∃ next,
              ((visibilityAt x y depth).answer map).value = .ok (colorOf x y depth, next) := by
  obtain ⟨bytes, -, read⟩ := Texture.Reader.exists_bytes opened
  choose colorOf known using small.visibilityAt_eq_ok read
  refine ⟨source.tiles.greatestDepth, source.tiles.isAmount_greatestDepth.zero_le, colorOf, ?_, ?_⟩
  · intro x y depth behind
    have same := (Texture.Reader.hasWholeNodes read).visibilityAt_of_greatestDepth_le behind x y
    rw [known, known] at same
    exact Except.ok.inj same
  · intro capacity uses positive
    obtain ⟨map, reached, serves⟩ := exists_reachedBy known opened positive uses
    refine ⟨map, reached, ?_, fun x y depth => ?_⟩
    · obtain ⟨next, answered, -⟩ := gives_greatestDepth source map serves
      exact ⟨next, answered⟩
    · obtain ⟨next, answered, -⟩ := gives_visibilityAt known x y depth map serves
      exact ⟨next, answered⟩

namespace SharedBlock

/-- Of the three depths of the block, the greatest one that is a number is two. -/
theorem greatestDepth_eq
    {reader : Texture.Reader}
    (opened : (Texture.Reader.open "" (.ok file)).value = .ok reader) :
    reader.tiles.greatestDepth = Single.ofNat 2 := by
  have first := load_eq opened (x := 0) (by decide)
  have second := load_eq opened (x := 1) (by decide)
  have positions_eq : (Texture.headerOf file).grid.map (·.positions) = .ok [⟨0, 0⟩, ⟨1, 0⟩] := by
    decide +kernel
  rw [Texture.value_open] at opened
  have positions : reader.tiles.grid.positions = [⟨0, 0⟩, ⟨1, 0⟩] :=
    Texture.Reader.of_map_grid opened positions_eq
  have loads : reader.tiles.load = reader.load := rfl
  rw [TileSource.greatestDepth, positions]
  simp only [List.foldl_cons, List.foldl_nil, TileSource.deeper, loads, first, second]
  decide +kernel

end SharedBlock

open SharedBlock in
/-- A map of two pixels with a depth that is no number: its second pixel is occluded at the
greatest depth of two and behind it. -/
theorem constant_from_greatestDepth_sharedBlock :
    (∃ source, (Texture.Reader.open "" (.ok file)).value = .ok source ∧ source.SmallTiles) ∧
      ∃ map, ReachedBy "" (.ok file) 1 [.slice Single.one] map ∧
        (∃ next, (greatestDepth.answer map).value = .ok (Single.ofNat 2, next)) ∧
        (∃ next, ((visibilityAt 1 0 (Single.ofNat 2)).answer map).value =
          .ok (Color.black, next)) ∧
        ∃ next, ((visibilityAt 1 0 (Single.ofNat 3)).answer map).value =
          .ok (Color.black, next) := by
  obtain ⟨source, opened⟩ := exists_reader
  have small := smallTiles opened
  obtain ⟨greatest, -, colorOf, constant, everyMap⟩ := constant_from_greatestDepth opened small
  obtain ⟨map, reached, ⟨next, answered⟩, looked⟩ := everyMap 1 [.slice Single.one] (by decide)
  have serves := reached.serves opened
  have greatest_eq : greatest = Single.ofNat 2 := by
    obtain ⟨other, alsoAnswered, -⟩ := gives_greatestDepth source map serves
    rw [SharedBlock.greatestDepth_eq opened] at alsoAnswered
    exact (Prod.mk.inj (Except.ok.inj (answered.symm.trans alsoAnswered))).1
  subst greatest_eq
  have occluded : colorOf 1 0 (Single.ofNat 2) = Color.black := by
    obtain ⟨last, lookedUp⟩ := looked 1 0 (Single.ofNat 2)
    obtain ⟨other, alsoAnswered, -⟩ := gives_ask_of_ok Color.white
      (CachedReader.gives_visibilityAt (visibilityAt_eq opened)) map serves
    exact (Prod.mk.inj (Except.ok.inj (lookedUp.symm.trans alsoAnswered))).1
  have behind := constant 1 0 (Single.ofNat 3) (by decide)
  rw [occluded] at behind
  refine ⟨⟨source, opened, small⟩, map, reached, ⟨next, answered⟩, ?_, ?_⟩
  · exact occluded ▸ looked 1 0 (Single.ofNat 2)
  · exact behind ▸ looked 1 0 (Single.ofNat 3)

end ShadowMap
end DeepShadow
