import DeepShadow.Tile

/-!
# Well-formed tiles

A tile is well formed when its offsets and values fit together, which is what
`Tile.ofParts` checks.  Tiles come from there or are fully visible, and so a tile
that has to be stored is well formed.
-/

namespace DeepShadow
namespace Tile

/-- The offsets and values of a tile fit together. -/
def WellFormed (tile : Tile) : Prop :=
  ofParts tile.placement tile.channels tile.offsets tile.values = .ok tile

/-- What makes offsets and values a tile. -/
theorem ofParts_eq_ok_iff
    {placement : Placement}
    {channels : Nat}
    {offsets : Array UInt32}
    {values : Array Single}
    {tile : Tile} :
    ofParts placement channels offsets values = .ok tile ↔
      (supportedChannels channels = true ∧
        offsets.size = placement.pixelCount + 1 ∧
        offsets.getD 0 0 = 0 ∧
        firstDecrease offsets = none ∧
        values.size = (offsets.getD placement.pixelCount 0).toNat * (channels + 1)) ∧
      tile = { placement, channels, offsets, values } := by
  unfold ofParts
  by_cases supported : supportedChannels channels = true
  · simp only [supported, Bool.not_true, Bool.false_eq_true, if_false, true_and]
    by_cases count : offsets.size = placement.pixelCount + 1
    · simp only [count, ne_eq, not_true_eq_false, if_false, true_and]
      by_cases first : offsets.getD 0 0 = 0
      · simp only [first, not_true_eq_false, if_false, true_and]
        cases decrease : firstDecrease offsets with
        | some index => simp
        | none =>
            by_cases total :
                values.size = (offsets.getD placement.pixelCount 0).toNat * (channels + 1)
            · simp only [total, not_true_eq_false, if_false, true_and, Except.ok.injEq]
              exact eq_comm
            · simp only [total, not_false_eq_true, if_true, reduceCtorEq, and_false, false_and]
      · simp only [first, not_false_eq_true, if_true, reduceCtorEq, false_and]
    · simp only [count, ne_eq, not_false_eq_true, if_true, reduceCtorEq, false_and]
  · simp [supported]

theorem WellFormed.ofParts
    {placement : Placement}
    {channels : Nat}
    {offsets : Array UInt32}
    {values : Array Single}
    {tile : Tile}
    (built : Tile.ofParts placement channels offsets values = .ok tile) :
    tile.WellFormed := by
  obtain ⟨_, rfl⟩ := ofParts_eq_ok_iff.mp built
  exact built

theorem WellFormed.supported {tile : Tile} (wellFormed : tile.WellFormed) :
    supportedChannels tile.channels = true :=
  (ofParts_eq_ok_iff.mp wellFormed).1.1

theorem WellFormed.size_offsets {tile : Tile} (wellFormed : tile.WellFormed) :
    tile.offsets.size = tile.placement.pixelCount + 1 :=
  (ofParts_eq_ok_iff.mp wellFormed).1.2.1

theorem WellFormed.size_values {tile : Tile} (wellFormed : tile.WellFormed) :
    tile.values.size =
      (tile.offsets.getD tile.placement.pixelCount 0).toNat * (tile.channels + 1) :=
  (ofParts_eq_ok_iff.mp wellFormed).1.2.2.2.2

/-! ## Where tiles come from -/

/-- The ways in which a tile can come about. -/
inductive Built (tile : Tile) : Prop
  | ofParts
      {placement : Placement}
      {channels : Nat}
      {offsets : Array UInt32}
      {values : Array Single}
      (made : Tile.ofParts placement channels offsets values = .ok tile)
  | fullyVisible
      {placement : Placement}
      {channels : Nat}
      (made : Tile.fullyVisible placement channels = .ok tile)

/-- A tile that is fully visible is neglectable. -/
theorem isNeglectable_visible
    (placement : Placement)
    (channels : Nat) :
    (visible placement channels).isNeglectable = true := by
  unfold isNeglectable visible
  rw [List.all_eq_true]
  intro index member
  simp only [Array.size_ofFn, Nat.add_sub_cancel, List.mem_range] at member
  simp only [Array.getD_eq_getD_getElem?, Array.getElem?_ofFn]
  rw [dif_pos (by omega), dif_pos (by omega)]
  simp only [Option.getD_some, UInt32.ofNat_add, UInt32.add_comm (UInt32.ofNat index),
    UInt32.add_sub_cancel]
  rfl

/-- A tile that has to be stored is well formed. -/
theorem Built.wellFormed
    {tile : Tile}
    (built : tile.Built)
    (stored : tile.isNeglectable = false) :
    tile.WellFormed := by
  cases built with
  | ofParts made => exact Tile.WellFormed.ofParts made
  | fullyVisible made =>
      unfold Tile.fullyVisible at made
      split at made
      · cases made
        rw [isNeglectable_visible] at stored
        cases stored
      · cases made

end Tile
end DeepShadow
