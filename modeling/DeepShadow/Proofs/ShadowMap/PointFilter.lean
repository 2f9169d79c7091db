import DeepShadow.Proofs.CommandLine.Slices
import DeepShadow.Proofs.ShadowMap.Pattern

/-!
# Filtering a point

A quad that consists of one point has this point at all of its samples, except that a zero
among the coordinates loses its sign, which a lookup does not see.  So a filter adds the
color of the point for each sample.  Where the color is white or black, this gives the color
back, unless the shares of the samples make less than one.
-/

namespace DeepShadow

/-! ## Points -/

namespace SamplePoint

/-- The coordinates and the depth of a point are finite. -/
structure IsFinite (point : SamplePoint) : Prop where
  s : point.s.isFinite = true
  t : point.t.isFinite = true
  depth : point.depth.isFinite = true

/-- The point with the signs taken from zeros. -/
def unsignedZero (point : SamplePoint) : SamplePoint :=
  ⟨point.s.unsignedZero, point.t.unsignedZero, point.depth.unsignedZero⟩

end SamplePoint

namespace SampleQuad

/-- Between a number and itself lies the number. -/
theorem mix_self
    {value weight : Single}
    (finite : value.isFinite = true)
    (level : weight.IsLevel) :
    mix value value weight = value.unsignedZero := by
  rw [mix, Single.sub_self finite, level.zero_mul, Single.add_zero finite]

/-- All samples of a point are taken at the point. -/
theorem lerp_ofPoint
    {point : SamplePoint}
    (finite : point.IsFinite)
    {u v : Single}
    (level : u.IsLevel)
    (levelToo : v.IsLevel) :
    (ofPoint point).lerp u v = point.unsignedZero := by
  have mixed {value : Single} (finite : value.isFinite = true) :
      mix (mix value value u) (mix value value u) v = value.unsignedZero := by
    rw [mix_self finite level, mix_self (Single.isFinite_unsignedZero finite) levelToo,
      Single.unsignedZero_unsignedZero]
  rw [lerp, SamplePoint.unsignedZero, ← mixed finite.s, ← mixed finite.t, ← mixed finite.depth]
  rfl

end SampleQuad

/-- A zero lies in the first row or column, with and without a sign. -/
theorem ShadowMap.texel_unsignedZero (coordinate : Single) (size : Nat) :
    texel coordinate.unsignedZero size = texel coordinate size := by
  unfold Single.unsignedZero
  split_ifs with nothing
  · unfold texel
    rw [Single.toWord_mul_eq_zero (by decide), Single.toWord_mul_eq_zero nothing]
  · rfl

/-- A lookup does not see the signs of zeros. -/
theorem TileSource.visibilityAtTexture_unsignedZero
    {ε : Type}
    (source : TileSource ε)
    (point : SamplePoint) :
    source.visibilityAtTexture point.unsignedZero = source.visibilityAtTexture point := by
  unfold visibilityAtTexture SamplePoint.unsignedZero
  rw [ShadowMap.texel_unsignedZero, ShadowMap.texel_unsignedZero]
  exact visibilityAt_congr fun _ _ => Single.le_unsignedZero_iff

/-! ## Colors -/

/-- White or black: one, or a zero of either sign. -/
def Single.IsExtreme (x : Single) : Prop := x = one ∨ x.magnitude = 0

/-- Each channel is white or black. -/
structure Color.IsExtreme (color : Color) : Prop where
  red : color.red.IsExtreme
  green : color.green.IsExtreme
  blue : color.blue.IsExtreme

namespace ShadowMap

open Query

/-- The average of a value that is one or nothing over a pattern. -/
def average (samples : Nat) (value : Single) : Single :=
  if value = Single.one then if Dims samples then ⟨0x3f7fffff⟩ else Single.one
  else Single.zero

/-- The values of all samples, added and multiplied with the share of one sample. -/
theorem foldl_mul_share
    {value : Single}
    (extreme : value.IsExtreme)
    (samples : Nat) :
    (filterWeights (side samples)).foldl (fun sum _ => sum + value) Single.zero * share samples =
      average samples value := by
  unfold average
  rcases extreme with rfl | nothing
  · have squares := Nat.mul_le_mul (side_bounds samples).2 (side_bounds samples).2
    have digits : 0 + (filterWeights (side samples)).length < 0x1000000 := by
      rw [length_filterWeights]
      omega
    rw [if_pos rfl, ← Single.ofNat_zero, foldl_add_one _ digits, length_filterWeights, Nat.zero_add,
      count_mul_share]
  · have notOne : value ≠ Single.one := by
      rintro rfl
      exact absurd nothing (by decide)
    rw [if_neg notOne, foldl_add_nothing _ nothing, (isLevel_share samples).zero_mul]

/-- A color of white and black channels is averaged channel by channel. -/
theorem foldl_color_mul_share
    {color : Color}
    (extreme : color.IsExtreme)
    (samples : Nat) :
    (filterWeights (side samples)).foldl (fun sum _ => sum + color) Color.black * share samples =
      color.map (average samples) := by
  rw [foldl_add_color, Color.map, ← foldl_mul_share extreme.red, ← foldl_mul_share extreme.green,
    ← foldl_mul_share extreme.blue]
  rfl

/-- Where the shares make one, the average is the value. -/
theorem average_of_not_dims
    {value : Single}
    (extreme : value.IsExtreme)
    {samples : Nat}
    (kept : ¬Dims samples) :
    average samples value = value.unsignedZero := by
  unfold average
  rcases extreme with rfl | nothing
  · rw [if_pos rfl, if_neg kept]
    decide
  · have notOne : value ≠ Single.one := by
      rintro rfl
      exact absurd nothing (by decide)
    rw [if_neg notOne, Single.unsignedZero, if_pos nothing]

/-! ## Filters -/

section Filters

variable {source : Texture.Reader} {point : SamplePoint} {color : Color}

/-- Filtering a point adds its color for each sample. -/
theorem gives_filter_ofPoint
    (color_eq : source.tiles.visibilityAtTexture point = .ok color)
    (finite : point.IsFinite)
    (samples : Nat) :
    Gives (Serves (.ok source)) (filter (.ofPoint point) samples)
      ((filterWeights (side samples)).foldl (fun sum _ => sum + color) Color.black *
        share samples) := by
  refine gives_get_bind fun map (serves : map.Answers source) => ?_
  rw [if_pos serves.isValid]
  refine (gives_foldlM _ (fun sum weights member => ?_) _).bind (gives_pure _)
  have few : side samples < 0x800000 := Nat.lt_of_le_of_lt (side_bounds samples).2 (by decide)
  obtain ⟨level, levelToo⟩ := isLevel_of_mem_filterWeights few member
  refine (gives_lookup ?_).bind (gives_pure _)
  rw [SampleQuad.lerp_ofPoint finite level levelToo, TileSource.visibilityAtTexture_unsignedZero,
    color_eq]

/-- A white or black color of a point is averaged to white or black. -/
theorem gives_average
    (color_eq : source.tiles.visibilityAtTexture point = .ok color)
    (finite : point.IsFinite)
    (extreme : color.IsExtreme)
    (samples : Nat) :
    Gives (Serves (.ok source)) (filter (.ofPoint point) samples)
      (color.map (average samples)) := by
  rw [← foldl_color_mul_share extreme]
  exact gives_filter_ofPoint color_eq finite samples

end Filters

/-- Of every file that is opened, however the map was used: where a lookup of a finite point
gives white or black in each channel, filtering the point gives the color of the lookup, with
zeros without a sign, unless there are 101 to 121, 442 to 484 or 1850 to 1936 samples.  With
these, black is given back, and instead of white the number in front of one. -/
theorem point_filtered
    {path : String}
    {contents : Except FileError (List UInt8)}
    {source : Texture.Reader}
    (opened : (Texture.Reader.open path contents).value = .ok source)
    {capacity : Nat}
    {uses : List Use}
    {map next : ShadowMap}
    (reached : ReachedBy path contents capacity uses map)
    {point : SamplePoint}
    (finite : point.IsFinite)
    {color : Color}
    (looked : ((visibilityAtTexture point).answer map).value = .ok (color, next))
    (extreme : color.IsExtreme)
    (samples : Nat) :
    ∃ averaged last,
      ((filter (.ofPoint point) samples).answer map).value = .ok (averaged, last) ∧
        (¬Dims samples -> averaged = color.map Single.unsignedZero) ∧
        (Dims samples ->
          averaged = color.map fun value =>
            if value = Single.one then ⟨0x3f7fffff⟩ else Single.zero) := by
  have serves := reached.serves opened
  have color_eq := Answers.visibilityAtTexture_eq serves looked
  obtain ⟨last, filtered, -⟩ := gives_average color_eq finite extreme samples map serves
  refine ⟨_, last, filtered, fun kept => ?_, fun dims => ?_⟩
  · rw [Color.map, average_of_not_dims extreme.red kept, average_of_not_dims extreme.green kept,
      average_of_not_dims extreme.blue kept]
    rfl
  · simp only [Color.map, average, if_pos dims]

section Pixel

open CommandLine.SurfaceAtEnd

/-- The middle of the only pixel of the map, at a depth. -/
def middle (depth : Single) : SamplePoint := ⟨Single.half, Single.half, depth⟩

theorem visibilityAtTexture_middle
    {reader : Texture.Reader}
    (opened : (Texture.Reader.open "map.dtex" (.ok file)).value = .ok reader)
    (depth : Single) :
    reader.tiles.visibilityAtTexture (middle depth) = tile.visibilityAt 0 0 depth := by
  have sizes : reader.tiles.grid.imageWidth = 1 ∧ reader.tiles.grid.imageHeight = 1 :=
    (grid_eq opened).1
  have first : texel Single.half 1 = 0 := by decide +kernel
  rw [TileSource.visibilityAtTexture, sizes.1, sizes.2, middle, first, visibilityAt_eq opened]

/-- In front of the surface the pixel is white, and at the surface it is black. -/
theorem visibilityAt_tile :
    tile.visibilityAt 0 0 Single.one = .ok Color.white ∧
      tile.visibilityAt 0 0 depth = .ok Color.black := by
  decide +kernel

theorem isFinite_middle :
    (middle Single.one).IsFinite ∧ (middle depth).IsFinite :=
  ⟨⟨by decide, by decide, by decide⟩, by decide, by decide, by decide⟩

theorem isExtreme_white : Color.white.IsExtreme := ⟨Or.inl rfl, Or.inl rfl, Or.inl rfl⟩

theorem isExtreme_black : Color.black.IsExtreme :=
  ⟨Or.inr (by decide), Or.inr (by decide), Or.inr (by decide)⟩

/-- The map can be used in any way. -/
theorem exists_reachedBy_file (uses : List Use) :
    ∃ source map, (Texture.Reader.open "map.dtex" (.ok file)).value = .ok source ∧
      ReachedBy "map.dtex" (.ok file) 1 uses map ∧ Serves (.ok source) map := by
  obtain ⟨source, opened⟩ := exists_reader
  obtain ⟨bytes, -, read⟩ := Texture.Reader.exists_bytes opened
  choose colorOf known using (smallTiles opened).visibilityAt_eq_ok read
  obtain ⟨map, reached, serves⟩ := exists_reachedBy known opened (by decide : 0 < 1) uses
  exact ⟨source, map, opened, reached, serves⟩

/-- In front of the surface a filter gives white for few samples and for very many of them, and
at the surface it gives black for any number. -/
theorem point_filtered_surfaceAtEnd :
    ∃ map, ReachedBy "map.dtex" (.ok file) 1 [.greatestDepth] map ∧
      (∃ last, ((filter (.ofPoint (middle Single.one)) 16).answer map).value =
        .ok (Color.white, last)) ∧
      (∃ last, ((filter (.ofPoint (middle Single.one)) 0xffffffff).answer map).value =
        .ok (Color.white, last)) ∧
      ∃ last, ((filter (.ofPoint (middle depth)) 121).answer map).value =
        .ok (Color.black, last) := by
  obtain ⟨source, map, opened, reached, serves⟩ := exists_reachedBy_file [.greatestDepth]
  obtain ⟨white_eq, black_eq⟩ := visibilityAt_tile
  obtain ⟨finite, finiteToo⟩ := isFinite_middle
  obtain ⟨next, looked, -⟩ := gives_lookup
    ((visibilityAtTexture_middle opened Single.one).trans white_eq) map serves
  obtain ⟨other, lookedToo, -⟩ := gives_lookup
    ((visibilityAtTexture_middle opened depth).trans black_eq) map serves
  have white_kept : Color.white.map Single.unsignedZero = Color.white := by decide
  have black_kept : (Color.black.map fun value =>
      if value = Single.one then ⟨0x3f7fffff⟩ else Single.zero) = Color.black := by decide
  refine ⟨map, reached, ?_, ?_, ?_⟩
  · obtain ⟨averaged, last, filtered, kept, -⟩ :=
      point_filtered opened reached finite looked isExtreme_white 16
    rw [kept (by decide), white_kept] at filtered
    exact ⟨last, filtered⟩
  · obtain ⟨averaged, last, filtered, kept, -⟩ :=
      point_filtered opened reached finite looked isExtreme_white 0xffffffff
    rw [kept (by decide), white_kept] at filtered
    exact ⟨last, filtered⟩
  · obtain ⟨averaged, last, filtered, -, dims⟩ :=
      point_filtered opened reached finiteToo lookedToo isExtreme_black 121
    rw [dims (by decide), black_kept] at filtered
    exact ⟨last, filtered⟩

/-- A point in front of the surface is white, and filtering it with 121 samples gives less. -/
theorem lit_point_filtered_darker :
    ∃ map next last, ReachedBy "map.dtex" (.ok file) 1 [] map ∧
      ((visibilityAtTexture (middle Single.one)).answer map).value = .ok (Color.white, next) ∧
      ((filter (.ofPoint (middle Single.one)) 121).answer map).value =
        .ok (Color.gray ⟨0x3f7fffff⟩, last) := by
  obtain ⟨source, map, opened, reached, serves⟩ := exists_reachedBy_file []
  have white_eq := (visibilityAtTexture_middle opened Single.one).trans visibilityAt_tile.1
  obtain ⟨next, looked, -⟩ := gives_lookup white_eq map serves
  obtain ⟨last, filtered, -⟩ :=
    gives_average white_eq isFinite_middle.1 isExtreme_white 121 map serves
  have darker : Color.white.map (average 121) = Color.gray ⟨0x3f7fffff⟩ := by decide
  rw [darker] at filtered
  exact ⟨map, next, last, reached, looked, filtered⟩

end Pixel

end ShadowMap
end DeepShadow
