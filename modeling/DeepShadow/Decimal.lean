/-!
# Decimals

A decimal is a whole number that is moved by decimal places.
-/

namespace DeepShadow

/-- The decimal number `digits * 10 ^ exponent`. -/
structure Decimal where
  digits : Nat
  exponent : Int
deriving DecidableEq, Repr

namespace Decimal

/-- The number of digits in front of the decimal point; where it is negative, the
number of zeros right behind the point. -/
def place (decimal : Decimal) : Int :=
  decimal.exponent + (Nat.toDigits 10 decimal.digits).length

/-- Whether a decimal is no less than a positive whole number.  They are
multiplied out only where both have as many digits in front of the point. -/
def reaches (decimal : Decimal) (bound : Nat) : Bool :=
  let width : Int := (Nat.toDigits 10 bound).length
  if decimal.digits = 0 ∨ decimal.place < width then false
  else if width < decimal.place then true
  else
    bound * Nat.pow 10 (-decimal.exponent).toNat ≤
      decimal.digits * Nat.pow 10 decimal.exponent.toNat

end Decimal
end DeepShadow
