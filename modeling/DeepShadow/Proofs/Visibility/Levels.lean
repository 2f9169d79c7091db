import DeepShadow.Hit
import DeepShadow.Visibility.Curve
import DeepShadow.Proofs.Single.Lowering

/-!
# Levels of visibility

What holds of the visibility of one channel is carried over to colors, channel by
channel.  A color that is black stays black whatever lowers it, and a color stays
below another one when both are lowered by the same change.
-/

namespace DeepShadow

/-- One of the three channels of a color. -/
inductive Channel
  | red
  | green
  | blue
deriving DecidableEq, Repr

namespace Color

/-- The value in a channel. -/
def value (color : Color) : Channel -> Single
  | .red => color.red
  | .green => color.green
  | .blue => color.blue

@[simp] theorem value_add
    (left right : Color)
    (channel : Channel) :
    (left + right).value channel = left.value channel + right.value channel := by
  cases channel <;> rfl

@[simp] theorem value_mul
    (color : Color)
    (factor : Single)
    (channel : Channel) :
    (color * factor).value channel = color.value channel * factor := by
  cases channel <;> rfl

@[simp] theorem value_clampNonNegative
    (color : Color)
    (channel : Channel) :
    color.clampNonNegative.value channel = (color.value channel).clampNonNegative := by
  cases channel <;> rfl

@[simp] theorem value_white (channel : Channel) : white.value channel = Single.one := by
  cases channel <;> rfl

@[simp] theorem value_black (channel : Channel) : black.value channel = Single.zero := by
  cases channel <;> rfl

theorem eq_of_value
    {left right : Color}
    (values : ∀ channel, left.value channel = right.value channel) :
    left = right := by
  have red : left.red = right.red := values .red
  have green : left.green = right.green := values .green
  have blue : left.blue = right.blue := values .blue
  cases left
  cases right
  simp_all

theorem isBlack_iff {color : Color} :
    color.isBlack = true ↔ ∀ channel, color.value channel ≤ Single.zero := by
  simp only [isBlack, Bool.and_eq_true, decide_eq_true_eq, and_assoc]
  constructor
  · rintro ⟨red, green, blue⟩ channel
    cases channel <;> assumption
  · intro values
    exact ⟨values .red, values .green, values .blue⟩

/-! ## Order and levels -/

/-- A color is nowhere above another one. -/
def AtMost (left right : Color) : Prop := ∀ channel, left.value channel ≤ right.value channel

/-- Each channel is a level. -/
def IsLevel (color : Color) : Prop := ∀ channel, (color.value channel).IsLevel

/-- A change that raises no channel. -/
def Lowers (change : Color) : Prop := ∀ channel, ¬Single.zero < change.value channel

/-- What is left of a visibility after a change. -/
def lower (visibility change : Color) : Color := (visibility + change).clampNonNegative

@[simp] theorem value_lower
    (visibility change : Color)
    (channel : Channel) :
    (visibility.lower change).value channel =
      (visibility.value channel).lower (change.value channel) := by
  simp [lower, Single.lower]

theorem isLevel_white : white.IsLevel := by
  intro channel
  rw [value_white]
  exact Single.isLevel_one

theorem isLevel_black : black.IsLevel := by
  intro channel
  rw [value_black]
  exact Single.isLevel_zero

variable {left middle right visibility change : Color}

theorem IsLevel.black_atMost (level : visibility.IsLevel) : black.AtMost visibility := by
  intro channel
  rw [value_black]
  exact (level channel).zero_le

theorem AtMost.trans
    (first : left.AtMost middle)
    (second : middle.AtMost right) :
    left.AtMost right :=
  fun channel => Single.le_trans (first channel) (second channel)

theorem IsLevel.atMost_self (level : visibility.IsLevel) : visibility.AtMost visibility :=
  fun channel => ((level channel).le_iff (level channel)).mpr (Nat.le_refl _)

/-- What is nowhere above a black color is black. -/
theorem AtMost.isBlack
    (ordered : left.AtMost right)
    (black : right.isBlack = true) :
    left.isBlack = true := by
  rw [isBlack_iff] at black ⊢
  exact fun channel => Single.le_trans (ordered channel) (black channel)

theorem IsLevel.eq_black
    (level : visibility.IsLevel)
    (isBlack : visibility.isBlack = true) :
    visibility = black := by
  apply eq_of_value
  intro channel
  rw [value_black]
  exact (level channel).eq_zero (isBlack_iff.mp isBlack channel)

section Lowering

variable (level : visibility.IsLevel) (lowers : change.Lowers)

include level lowers

theorem IsLevel.lower : (visibility.lower change).IsLevel := by
  intro channel
  rw [value_lower]
  exact (level channel).lower (lowers channel)

theorem IsLevel.lower_atMost : (visibility.lower change).AtMost visibility := by
  intro channel
  rw [value_lower]
  exact (level channel).lower_le (lowers channel)

/-- A color that is black stays as it is. -/
theorem IsLevel.lower_of_isBlack (isBlack : visibility.isBlack = true) :
    visibility.lower change = visibility := by
  have stays := (level.lower_atMost lowers).isBlack isBlack
  rw [(level.lower lowers).eq_black stays, level.eq_black isBlack]

theorem IsLevel.lower_atMost_lower
    (levelToo : right.IsLevel)
    (ordered : visibility.AtMost right) :
    (visibility.lower change).AtMost (right.lower change) := by
  intro channel
  rw [value_lower, value_lower]
  exact (level channel).lower_le_lower (levelToo channel) (ordered channel) (lowers channel)

/-- Nothing is left after a change that is not a number. -/
theorem IsLevel.lower_of_isNaN
    (notNumber : ∀ channel, (change.value channel).isNaN = true) :
    visibility.lower change = black := by
  apply eq_of_value
  intro channel
  rw [value_lower, value_black]
  exact (level channel).lower_of_not_finite (lowers channel)
    (Single.isFinite_eq_false_of_isNaN (notNumber channel))

end Lowering

/-- A change by nothing, with either sign, leaves a visibility as it is. -/
theorem IsLevel.lower_of_magnitude_eq_zero
    (level : visibility.IsLevel)
    (nothing : ∀ channel, (change.value channel).magnitude = 0) :
    visibility.lower change = visibility := by
  apply eq_of_value
  intro channel
  rw [value_lower]
  exact (level channel).lower_of_magnitude_eq_zero (nothing channel)

end Color

/-! ## Hits -/

/-- A hit at a finite depth, with a finite opacity that is nowhere below zero. -/
structure Hit.Proper (hit : Hit) : Prop where
  depth : hit.depth.isFinite = true
  finite : ∀ channel, (hit.opacity.value channel).isFinite = true
  notBelow : ∀ channel, Single.zero ≤ hit.opacity.value channel

/-- Proper hits from front to back in the total order of words. -/
structure Subsample.Ordered (subsample : Subsample) : Prop where
  proper : ∀ hit ∈ subsample.hits.toList, hit.Proper
  ascending : subsample.hits.toList.Pairwise fun front behind =>
    front.depth.totalKey ≤ behind.depth.totalKey

/-- An opaque surface at a finite depth is a proper hit. -/
theorem Hit.proper_ofDepth
    {depth : Single}
    (finite : depth.isFinite = true) :
    (Hit.ofDepth depth).Proper := by
  have opacity (channel : Channel) : (Hit.ofDepth depth).opacity.value channel = Single.one :=
    Color.value_white channel
  refine ⟨finite, ?_, ?_⟩
  · intro channel
    rw [opacity]
    decide
  · intro channel
    rw [opacity]
    decide

/-- A hit whose opacity is nowhere below zero. -/
def Hit.Occluding (hit : Hit) : Prop := ∀ channel, ¬hit.opacity.value channel < Single.zero

instance (hit : Hit) : Decidable hit.Occluding :=
  decidable_of_iff
    (¬hit.opacity.red < Single.zero ∧ ¬hit.opacity.green < Single.zero ∧
      ¬hit.opacity.blue < Single.zero)
    ⟨fun ⟨red, green, blue⟩ => fun | .red => red | .green => green | .blue => blue,
      fun occluding => ⟨occluding .red, occluding .green, occluding .blue⟩⟩

/-- A negative share of the opacity of an occluding hit raises no visibility. -/
theorem Hit.Occluding.lowers
    {hit : Hit}
    (occluding : hit.Occluding)
    {share : Single}
    (sign : share.isNaN = true ∨ share.negative = true) :
    (hit.opacity * share).Lowers := by
  intro channel
  rw [Color.value_mul]
  exact Single.not_zero_lt_mul (occluding channel) sign

theorem Hit.Proper.occluding {hit : Hit} (proper : hit.Proper) : hit.Occluding := by
  intro channel below
  have ordered := (Single.le_iff_key.mp (proper.notBelow channel)).2.2
  have reversed := (Single.lt_iff_key.mp below).2.2
  omega

theorem Hit.Proper.lowers
    {hit : Hit}
    (proper : hit.Proper)
    {share : Single}
    (sign : share.isNaN = true ∨ share.negative = true) :
    (hit.opacity * share).Lowers :=
  proper.occluding.lowers sign

end DeepShadow
