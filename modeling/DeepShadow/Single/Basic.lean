/-!
# Single-precision numbers

Depths, opacities and visibilities are IEEE 754 single-precision numbers.  A
`Single` is the stored 32-bit word itself, so that two words are equal exactly
when their bits are, a stored NaN keeps its payload, and a word read from a file
is written back unchanged.

A finite number is a whole multiple of the *unit* `2 ^ (-149)`: with
`magnitude = exponent * 2 ^ 23 + significand`, its absolute value is
`significand * 2 ^ exponent` units.  Comparisons are comparisons of the integer
`key`, which reads the word as sign and magnitude.
-/

namespace DeepShadow

/-- A single-precision number, as its 32-bit word. -/
structure Single where
  /-- The sign bit, eight exponent bits and twenty-three fraction bits. -/
  bits : UInt32
deriving DecidableEq, Inhabited, Repr

namespace Single

/-! ## Parts of the word -/

/-- The magnitude word of an infinity; larger magnitudes are NaNs. -/
def infinityMagnitude : Nat := 0x7f800000

/-- Whether the sign bit is set. -/
def negative (x : Single) : Bool := 0x80000000 ≤ x.bits

/-- The word without its sign bit. -/
def magnitude (x : Single) : Nat := x.bits.toNat % 0x80000000

/-- Whether the word is not a number. -/
def isNaN (x : Single) : Bool := infinityMagnitude < x.magnitude

/-- Whether the word is an infinity. -/
def isInfinite (x : Single) : Bool := x.magnitude == infinityMagnitude

/-- Whether the word is a zero of either sign. -/
def isZero (x : Single) : Bool := x.magnitude == 0

/-- Whether the word is a number and not an infinity. -/
def isFinite (x : Single) : Bool := x.magnitude < infinityMagnitude

/-- The power of two, counted from the unit, that scales the significand. -/
def exponent (x : Single) : Nat := x.magnitude / 0x800000 - 1

/-- The significand, below `2 ^ 24` and with the leading bit made explicit. -/
def significand (x : Single) : Nat := x.magnitude - x.exponent * 0x800000

/-- The word with the given sign and magnitude. -/
def ofMagnitude (negative : Bool) (magnitude : Nat) : Single :=
  ⟨UInt32.ofNat (if negative then 0x80000000 + magnitude else magnitude)⟩

/-! ## Constants -/

/-- Positive zero. -/
def zero : Single := ⟨0x00000000⟩

/-- One half. -/
def half : Single := ⟨0x3f000000⟩

/-- One. -/
def one : Single := ⟨0x3f800000⟩

/-- The NaN that an invalid operation gives. -/
def invalid : Single := ⟨0xffc00000⟩

/-! ## Order -/

/-- The integer by which numbers are compared; both zeros have the key zero. -/
def key (x : Single) : Int :=
  if x.negative then -(x.magnitude : Int) else x.magnitude

/-- Less or equal as numbers; false as soon as one side is a NaN. -/
def le (x y : Single) : Bool :=
  !x.isNaN && !y.isNaN && decide (x.key ≤ y.key)

/-- Strictly less as numbers; false as soon as one side is a NaN. -/
def lt (x y : Single) : Bool :=
  !x.isNaN && !y.isNaN && decide (x.key < y.key)

instance : LE Single := ⟨fun x y => x.le y = true⟩
instance : LT Single := ⟨fun x y => x.lt y = true⟩

instance (x y : Single) : Decidable (x ≤ y) := inferInstanceAs (Decidable (x.le y = true))
instance (x y : Single) : Decidable (x < y) := inferInstanceAs (Decidable (x.lt y = true))

/-- The integer of the total order of words: negative NaNs, negative numbers,
negative zero, positive zero, positive numbers, positive NaNs. -/
def totalKey (x : Single) : Int :=
  if x.negative then -(x.magnitude : Int) - 1 else x.magnitude

/-- The larger of two numbers; a NaN gives way to the other side, and of two
equal numbers the first is taken. -/
def max (x y : Single) : Single :=
  if x.isNaN then y else if x < y then y else x

/-- The number, or positive zero where the number is not above zero. -/
def clampNonNegative (x : Single) : Single :=
  if zero < x then x else zero

/-- The number brought into the range from zero to one; a NaN stays. -/
def clampUnit (x : Single) : Single :=
  if x < zero then zero else if one < x then one else x

/-- The number with its sign bit cleared. -/
def abs (x : Single) : Single := ofMagnitude false x.magnitude

/-- The number with its sign bit turned over. -/
def neg (x : Single) : Single := ofMagnitude (!x.negative) x.magnitude

instance : Neg Single := ⟨neg⟩

@[simp] theorem le_iff (x y : Single) : x.le y = true ↔ x ≤ y := Iff.rfl

@[simp] theorem lt_iff (x y : Single) : x.lt y = true ↔ x < y := Iff.rfl

/-- The significand and the exponent put the magnitude together again. -/
theorem magnitude_eq (x : Single) :
    x.magnitude = x.exponent * 0x800000 + x.significand := by
  unfold significand exponent
  omega

end Single
end DeepShadow
