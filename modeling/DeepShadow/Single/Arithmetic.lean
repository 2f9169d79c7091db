import DeepShadow.Single.Basic

/-!
# Correctly rounded arithmetic

Every operation computes the exact result as an integer quotient and rounds it
once, to the nearest word and to the even one of two equally near.  Nothing here
depends on the floating-point unit of the machine.

A NaN operand is handed on, the first of two, with its quiet bit set; an
operation without a meaning (`inf - inf`, `0 * inf`, `0 / 0`, `inf / inf`) gives
`Single.invalid`.
-/

namespace DeepShadow
namespace Single

/-! ## Rounding -/

/-- The integer nearest to `num / den`, the even one of two equally near. -/
def roundQuotient (num den : Nat) : Nat :=
  let floor := num / den
  let twice := 2 * (num % den)
  if twice < den then floor
  else if den < twice then floor + 1
  else floor + floor % 2

/-- The magnitude word nearest to `num / den * 2 ^ scale` units, for a positive
`den` that is one where `scale` is not zero.

The exponent is the least one for which the significand fits into twenty-four
bits.  A significand that rounds up to `2 ^ 24` carries into the exponent field,
and everything above the last finite word is the infinity. -/
def nearestMagnitude (num den scale : Nat) : Nat :=
  if num = 0 then 0 else
  let exponent := (num / den).log2 + scale - 23
  let significand := roundQuotient (num <<< (scale - exponent)) (den <<< (exponent - scale))
  min (exponent <<< 23 + significand) infinityMagnitude

/-! ## Operations -/

/-- The NaN with its quiet bit set. -/
def quiet (x : Single) : Single := ⟨x.bits ||| 0x00400000⟩

/-- The significand with the sign of the number. -/
def signedSignificand (x : Single) : Int :=
  if x.negative then -(x.significand : Int) else x.significand

/-- The rounded sum.  An exact sum of zero is negative only where both sides
are. -/
def add (x y : Single) : Single :=
  if x.isNaN then x.quiet
  else if y.isNaN then y.quiet
  else if x.isInfinite then
    if y.isInfinite && x.negative != y.negative then invalid else x
  else if y.isInfinite then y
  else
    let scale := min x.exponent y.exponent
    let sum := x.signedSignificand * ((1 <<< (x.exponent - scale) : Nat) : Int) +
      y.signedSignificand * ((1 <<< (y.exponent - scale) : Nat) : Int)
    if sum = 0 then ofMagnitude (x.negative && y.negative) 0
    else ofMagnitude (sum < 0) (nearestMagnitude sum.natAbs 1 scale)

/-- The rounded difference. -/
def sub (x y : Single) : Single :=
  if y.isNaN then if x.isNaN then x.quiet else y.quiet
  else add x (neg y)

/-- The rounded product. -/
def mul (x y : Single) : Single :=
  if x.isNaN then x.quiet
  else if y.isNaN then y.quiet
  else
    let sign := x.negative != y.negative
    if x.isInfinite || y.isInfinite then
      if x.isZero || y.isZero then invalid else ofMagnitude sign infinityMagnitude
    else
      let scale := x.exponent + y.exponent
      ofMagnitude sign
        (nearestMagnitude (x.significand * y.significand) (1 <<< (149 - scale)) (scale - 149))

/-- The rounded quotient; a number that is not zero divided by zero is
infinite. -/
def div (x y : Single) : Single :=
  if x.isNaN then x.quiet
  else if y.isNaN then y.quiet
  else
    let sign := x.negative != y.negative
    if x.isInfinite then
      if y.isInfinite then invalid else ofMagnitude sign infinityMagnitude
    else if y.isInfinite then ofMagnitude sign 0
    else if y.isZero then
      if x.isZero then invalid else ofMagnitude sign infinityMagnitude
    else
      ofMagnitude sign
        (nearestMagnitude (x.significand <<< (149 + x.exponent)) (y.significand <<< y.exponent) 0)

instance : Add Single := ⟨add⟩
instance : Sub Single := ⟨sub⟩
instance : Mul Single := ⟨mul⟩
instance : Div Single := ⟨div⟩

/-- The square of a number. -/
def square (x : Single) : Single := x * x

/-! ## Integers -/

/-- The number nearest to a natural number. -/
def ofNat (n : Nat) : Single := ofMagnitude false (nearestMagnitude n 1 149)

/-- The whole part of a number, brought into the range of 32-bit words: zero
for what is negative or not a number. -/
def toWord (x : Single) : Nat :=
  if x.isNaN || x.negative then 0
  else min (x.significand <<< x.exponent >>> 149) 0xffffffff

/-- The integer nearest to a number that is not negative, with halves upwards;
zero for a NaN. -/
def roundHalfUp (x : Single) : Nat :=
  if x.isNaN || x.negative then 0
  else (x.significand <<< (x.exponent + 1) + 1 <<< 149) >>> 150

end Single
end DeepShadow
