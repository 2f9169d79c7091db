import DeepShadow.Decimal
import DeepShadow.Toml.Value

/-!
# Numbers, truth values and moments

A value without quotes or brackets is one word, which is read as a whole.
-/

namespace DeepShadow
namespace Toml

/-! ## Numbers -/

/-- The value of digits to a base, with single underscores between digits. -/
def digitsValue? (base : Nat) (chars : List Char) : Option Nat :=
  let digit? (char : Char) : Option Nat :=
    let value :=
      if char.isDigit then char.toNat - '0'.toNat
      else if char.isLower then char.toNat - 'a'.toNat + 10
      else if char.isUpper then char.toNat - 'A'.toNat + 10
      else base
    if value < base then some value else none
  let rec more (value : Nat) : List Char -> Option Nat
    | [] => some value
    | '_' :: char :: rest => do more (value * base + (← digit? char)) rest
    | char :: rest => do more (value * base + (← digit? char)) rest
  match chars with
  | [] => none
  | char :: rest => do more (← digit? char) rest

/-- Splits a sign from what follows it. -/
def splitSign : List Char -> Bool × List Char
  | '+' :: rest => (false, rest)
  | '-' :: rest => (true, rest)
  | chars => (false, chars)

/-- The value of decimal digits without leading zeros. -/
def wholeValue? : List Char -> Option Nat
  | ['0'] => some 0
  | '0' :: _ => none
  | chars => digitsValue? 10 chars

/-- Whether an integer fits into 64 bits with its sign. -/
def fits (value : Int) : Bool := -0x8000000000000000 ≤ value && value < 0x8000000000000000

/-- Reads an integer: decimal, or hexadecimal, octal or binary without a sign. -/
def integer? (chars : List Char) : Option Int := do
  let magnitude ← match chars with
    | '0' :: 'x' :: digits => digitsValue? 16 digits
    | '0' :: 'o' :: digits => digitsValue? 8 digits
    | '0' :: 'b' :: digits => digitsValue? 2 digits
    | _ => wholeValue? (splitSign chars).2
  let value : Int := if (splitSign chars).1 then -magnitude else magnitude
  if fits value then some value else none

/-- Reads a number with a fraction or an exponent, as its sign and its absolute
value. -/
def decimal? (chars : List Char) : Option (Bool × Decimal) := do
  let (negative, unsigned) := splitSign chars
  let isExponentMark (char : Char) : Bool := char == 'e' || char == 'E'
  let mantissa := unsigned.takeWhile fun char => !isExponentMark char
  let behindMantissa := unsigned.dropWhile fun char => !isExponentMark char
  let behindWhole := mantissa.dropWhile (· != '.')
  if behindWhole.isEmpty && behindMantissa.isEmpty then none
  let whole ← wholeValue? (mantissa.takeWhile (· != '.'))
  let (fraction, places) ← match behindWhole with
    | [] => pure (0, 0)
    | _ :: digits => pure (← digitsValue? 10 digits, (digits.filter Char.isDigit).length)
  let exponent : Int ← match behindMantissa with
    | [] => pure 0
    | _ :: signed =>
        let magnitude : Int := ← digitsValue? 10 (splitSign signed).2
        pure (if (splitSign signed).1 then -magnitude else magnitude)
  return (negative, ⟨whole * Nat.pow 10 places + fraction, exponent - places⟩)

/-- The midpoint between the greatest number of double precision and the power of
two above it, from which on numbers round to infinity. -/
def infinityBound : Nat := 0x3fffffffffffff <<< 970

/-- Whether a word is a number that is not an integer: one with a fraction or an
exponent, or one of the words `inf` and `nan`.  A positive number must not round
to infinity. -/
def isFraction (chars : List Char) : Bool :=
  let unsigned := (splitSign chars).2
  if unsigned == "inf".toList || unsigned == "nan".toList then true
  else match decimal? chars with
    | some (negative, decimal) => negative || !decimal.reaches infinityBound
    | none => false

/-! ## Moments -/

/-- The value of exactly `count` digits. -/
def fixedDigits? (count : Nat) (chars : List Char) : Option Nat :=
  if chars.length = count && chars.all Char.isDigit then
    some (chars.foldl (fun value char => value * 10 + (char.toNat - '0'.toNat)) 0)
  else none

/-- The number of days of a month. -/
def monthLength (year month : Nat) : Nat :=
  if month = 2 then
    if year % 4 = 0 && (year % 100 ≠ 0 || year % 400 = 0) then 29 else 28
  else if month = 4 || month = 6 || month = 9 || month = 11 then 30
  else 31

/-- Whether characters are a date: year, month and day. -/
def isDate (chars : List Char) : Bool :=
  match fixedDigits? 4 (chars.take 4), fixedDigits? 2 ((chars.drop 5).take 2),
    fixedDigits? 2 (chars.drop 8) with
  | some year, some month, some day =>
      chars[4]? == some '-' && chars[7]? == some '-' && 1 ≤ month && month ≤ 12 &&
        1 ≤ day && day ≤ monthLength year month
  | _, _, _ => false

/-- Whether characters are hours and minutes. -/
def isHourMinute (chars : List Char) : Bool :=
  match fixedDigits? 2 (chars.take 2), fixedDigits? 2 (chars.drop 3) with
  | some hour, some minute => chars[2]? == some ':' && hour < 24 && minute < 60
  | _, _ => false

/-- Whether characters are a time: hours, minutes and seconds with their
fraction. -/
def isTime (chars : List Char) : Bool :=
  let fraction := chars.drop 8
  match fixedDigits? 2 ((chars.drop 6).take 2) with
  | some second =>
      isHourMinute (chars.take 5) && chars[5]? == some ':' && second ≤ 60 &&
        (fraction.isEmpty ||
          (fraction.head? == some '.' && 1 < fraction.length && fraction.tail.all Char.isDigit))
  | none => false

/-- Whether characters are the distance from universal time. -/
def isOffset (chars : List Char) : Bool :=
  match chars with
  | ['Z'] | ['z'] => true
  | sign :: rest => (sign == '+' || sign == '-') && isHourMinute rest
  | [] => false

/-- Whether a word is a date, a time, or a date with a time behind it. -/
def isMoment (chars : List Char) : Bool :=
  let time := chars.drop 11
  let clock := time.takeWhile fun char => char.isDigit || char == ':' || char == '.'
  let offset := time.dropWhile fun char => char.isDigit || char == ':' || char == '.'
  let mark := (chars[10]?).getD ' '
  isDate chars || isTime chars ||
    (isDate (chars.take 10) && (mark == 'T' || mark == 't' || mark == ' ') && isTime clock &&
      (offset.isEmpty || isOffset offset))

/-- Reads a word. -/
def scalar? (chars : List Char) : Option Value :=
  let text := String.ofList chars
  if text = "true" then some (.boolean true)
  else if text = "false" then some (.boolean false)
  else match integer? chars with
    | some value => some (.integer value)
    | none =>
        if isFraction chars then some (.fraction text)
        else if isMoment chars then some (.moment text)
        else none

end Toml
end DeepShadow
