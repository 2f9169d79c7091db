import DeepShadow.Violation

/-!
# Colors

Opacity and visibility have one value for each of red, green and blue.  Data
with one channel is carried as gray and stored as the mean of the three.
-/

namespace DeepShadow

/-- One value for each of the three color channels. -/
structure Color where
  red : Single
  green : Single
  blue : Single
deriving DecidableEq, Inhabited, Repr

/-- Stored data has one channel or three. -/
def supportedChannels (channels : Nat) : Bool := channels == 1 || channels == 3

theorem supportedChannels_one : supportedChannels 1 = true := rfl

namespace Color

/-- The same value in each channel. -/
def gray (value : Single) : Color := ⟨value, value, value⟩

/-- Full visibility, and the opacity of an opaque surface. -/
def white : Color := gray Single.one

/-- No visibility. -/
def black : Color := gray Single.zero

/-- Applies a function to each channel. -/
def map (color : Color) (function : Single -> Single) : Color :=
  ⟨function color.red, function color.green, function color.blue⟩

/-- Joins two colors channel by channel. -/
def zipWith (function : Single -> Single -> Single) (left right : Color) : Color :=
  ⟨function left.red right.red, function left.green right.green,
    function left.blue right.blue⟩

instance : Add Color := ⟨zipWith (· + ·)⟩
instance : Sub Color := ⟨zipWith (· - ·)⟩
instance : HMul Color Single Color := ⟨fun color factor => color.map (· * factor)⟩

/-- The mean of the three channels, summed from red to blue. -/
def mean (color : Color) : Single :=
  (color.red + color.green + color.blue) / Single.ofNat 3

/-- Replaces by zero what is not above zero. -/
def clampNonNegative (color : Color) : Color := color.map Single.clampNonNegative

/-- Whether no channel is above zero; a NaN is never black. -/
def isBlack (color : Color) : Bool :=
  color.red ≤ Single.zero && color.green ≤ Single.zero && color.blue ≤ Single.zero

/-- Reads one stored component as gray, or three as red, green and blue. -/
def ofComponents : List Single -> Except Violation Color
  | [value] => .ok (gray value)
  | [red, green, blue] => .ok ⟨red, green, blue⟩
  | components => .error (.componentCount components.length)

/-- The components stored for a color with the given number of channels. -/
def components (color : Color) (channels : Nat) : Except Violation (List Single) :=
  if channels = 1 then .ok [color.mean]
  else if channels = 3 then .ok [color.red, color.green, color.blue]
  else .error (.componentsWanted channels)

@[simp] theorem ofComponents_one (value : Single) :
    ofComponents [value] = .ok (gray value) := rfl

@[simp] theorem ofComponents_three (red green blue : Single) :
    ofComponents [red, green, blue] = .ok ⟨red, green, blue⟩ := rfl

@[simp] theorem components_one (color : Color) :
    color.components 1 = .ok [color.mean] := rfl

@[simp] theorem components_three (color : Color) :
    color.components 3 = .ok [color.red, color.green, color.blue] := rfl

end Color
end DeepShadow
