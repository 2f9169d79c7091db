import DeepShadow.Proofs.Assembly.Emission
import DeepShadow.Proofs.Visibility.SingleNode

/-!
# Tiles that are told to be neglectable

An assembly tells a tile to be neglectable exactly where the accepted regions carry a
single node for each pixel of the tile.  What these nodes are is not looked at: a
function with one node answers white at every depth where its node is clear.
-/

namespace DeepShadow

namespace Region

variable {region : Region} {x y : Nat}

/-- The function that a region carries for a pixel, in its stored form. -/
def curveAt (region : Region) (x y : Nat) : StoredCurve :=
  ⟨region.channels, (region.runAt x y).toArray⟩

/-- A function has one node where the region tells so. -/
theorem WellFormed.lengthAt_eq_one_iff
    (wellFormed : region.WellFormed)
    (supported : supportedChannels region.channels = true)
    (covers : region.bounds.Covers x y) :
    region.lengthAt x y = 1 ↔ ∃ node, (region.curveAt x y).nodes = .ok [node] := by
  have length_eq := wellFormed.length_runAt covers
  constructor
  · intro one
    apply StoredCurve.exists_single_of_size supported
    rw [one] at length_eq
    rw [List.size_toArray, ← (wellFormed.isRun_runAt covers).length_eq, length_eq, Nat.one_mul]
  · rintro ⟨node, single⟩
    have one : (region.curveAt x y).length = 1 := StoredCurve.length_of_nodes_eq_ok single
    unfold StoredCurve.length StoredCurve.stride curveAt at one
    rw [List.size_toArray, length_eq] at one
    exact one

end Region

namespace Assembly
namespace Image

variable {image : Image} {canvas : Canvas} {position : TilePosition}

/-- A tile that some regions complete is among the tiles that they complete. -/
theorem Uniform.assembled_mem_completedFrom
    (uniform : image.Uniform canvas)
    {regions : List Region}
    (inside : image.grid.Contains position)
    (before : ¬image.Completes canvas position)
    (now : image.Completes (image.paintedFrom canvas regions) position) :
    image.assembled (image.paintedFrom canvas regions) position ∈
      image.completedFrom canvas regions := by
  induction regions generalizing canvas with
  | nil => exact absurd now before
  | cons region regions inductionHypothesis =>
      rw [paintedFrom_cons] at now ⊢
      rw [completedFrom, List.mem_append]
      have uniformNext := uniform.paint_all [region]
      by_cases completes : image.Completes (image.paintedFrom canvas [region]) position
      · have extend := uniformNext.extends_paintedFrom regions
        refine Or.inl ((uniform.mem_completedBy region _).mpr
          ⟨position, inside, completes, before, ?_⟩)
        exact extend.assemble_eq completes
      · exact Or.inr (inductionHypothesis uniformNext completes now)

variable {State Summary : Type} {sink : Sink State Summary} {state : State}
variable {regions taken : List Region} {offered : List AssembledTile}

/-- A tile that the accepted regions fill is told to be neglectable where they carry
one node for each of its pixels. -/
theorem Offers.neglectable_iff
    (offers : image.Offers sink state regions taken offered)
    (inside : image.grid.Contains position)
    (covered : image.Covered taken position) :
    .neglectable position ∈ offered ↔
      ∀ region ∈ taken, ∀ x y, (image.grid.frame position).contains x y = true ->
        region.bounds.Covers x y -> region.lengthAt x y = 1 := by
  obtain ⟨rfl, rfl⟩ := offers.eq_taken
  obtain ⟨pictures, admitted⟩ := image.pictures_painted regions
  have completes := (covered_iff pictures position).mp covered
  rw [← forall_nodeCounts_iff pictures admitted completes]
  constructor
  · intro member
    obtain ⟨other, _, _, tile_eq⟩ := (uniform_blank image).of_mem_completedFrom member
    have position_eq := congrArg AssembledTile.position tile_eq
    rw [position_assembled] at position_eq
    have other_eq : other = position := position_eq.symm
    rw [other_eq] at tile_eq
    by_contra notSingle
    have stored_eq : image.assembled (image.painted regions) position = .stored _ :=
      if_neg notSingle
    cases tile_eq.trans stored_eq
  · intro single
    have tile_eq : image.assembled (image.painted regions) position = .neglectable position :=
      if_pos single
    rw [← tile_eq]
    exact (uniform_blank image).assembled_mem_completedFrom inside (not_completes_blank inside)
      completes

/-- The regions that an assembly takes are those that its image admits. -/
theorem Offers.admitted
    (offers : image.Offers sink state regions taken offered) :
    ∀ region ∈ taken, image.Admits region := by
  obtain ⟨rfl, _⟩ := offers.eq_taken
  exact (image.pictures_painted regions).2

/-- An accepted function has one node where its region tells so. -/
theorem Offers.lengthAt_eq_one_iff
    (offers : image.Offers sink state regions taken offered)
    {region : Region}
    (member : region ∈ taken)
    {x y : Nat}
    (covers : region.bounds.Covers x y) :
    region.lengthAt x y = 1 ↔ ∃ node, (region.curveAt x y).nodes = .ok [node] := by
  have admits := offers.admitted region member
  have supported : supportedChannels region.channels = true := by
    rw [admits.channels_eq]
    exact image.supported
  exact admits.wellFormed.lengthAt_eq_one_iff supported covers

/-- A tile that the accepted regions fill is told to be neglectable where each of its
functions has a single node. -/
theorem Offers.neglectable_iff_single
    (offers : image.Offers sink state regions taken offered)
    (inside : image.grid.Contains position)
    (covered : image.Covered taken position) :
    .neglectable position ∈ offered ↔
      ∀ region ∈ taken, ∀ x y, (image.grid.frame position).contains x y = true ->
        region.bounds.Covers x y -> ∃ node, (region.curveAt x y).nodes = .ok [node] := by
  rw [offers.neglectable_iff inside covered]
  constructor
  · intro single region member x y contained covers
    exact (offers.lengthAt_eq_one_iff member covers).mp (single region member x y contained covers)
  · intro single region member x y contained covers
    exact (offers.lengthAt_eq_one_iff member covers).mpr (single region member x y contained covers)

end Image
end Assembly
end DeepShadow
