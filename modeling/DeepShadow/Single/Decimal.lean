import DeepShadow.Decimal
import DeepShadow.Single.Arithmetic

/-!
# Decimal text of single-precision numbers

Writing takes the fewest digits that read back as the same word, and of those
the nearest to the number.  A decimal of the form `digits * 10 ^ exponent` reads
back exactly when it lies between the midpoints to the two neighbouring words
(`Spread`), so the shortest one is found at the highest decimal place that has a
multiple in this interval.

Reading rounds the exact decimal once.  What is left to the places that print
numbers is a `NumberStyle`: where positional writing ends, whether a whole number
shows a point, and which of two equally near digits is taken.
-/

namespace DeepShadow
namespace Single

/-! ## Shortest digits -/

/-- A positive number between the midpoints to its neighbours, all three as
multiples of a quarter of the unit; `closed` tells whether the midpoints
themselves round to the number. -/
structure Spread where
  low : Nat
  value : Nat
  high : Nat
  closed : Bool
deriving Repr

/-- The numbers that round to the absolute value of a finite word.  Below a
power of two the neighbours lie half as far apart. -/
def spread (x : Single) : Spread :=
  let quarters := 4 * x.significand
  let below := if x.significand = 0x800000 ∧ 0 < x.exponent then 1 else 2
  { low := (quarters - below) <<< x.exponent
    value := quarters <<< x.exponent
    high := (quarters + 2) <<< x.exponent
    closed := x.significand % 2 == 0 }

namespace Spread

/-- Whether `num / den` quarter units round to the number. -/
def admits (spread : Spread) (num den : Nat) : Bool :=
  if spread.closed then spread.low * den ≤ num && num ≤ spread.high * den
  else spread.low * den < num && num < spread.high * den

/-- The multiple of `10 ^ place` that rounds to the number and is nearest to it,
where there is one; `halfUp` decides between two equally near ones, which else
goes to the even digit. -/
def decimalAt? (spread : Spread) (halfUp : Bool) (place : Int) : Option Decimal :=
  let den := Nat.pow 10 (-place).toNat
  let step := Nat.pow 10 place.toNat <<< 151
  let scaled := spread.value * den
  let below := scaled / step
  let twice := 2 * (scaled % step)
  let takesBelow := twice < step || (twice == step && !halfUp && below % 2 == 0)
  let nearer := if takesBelow then below else below + 1
  let further := if takesBelow then below + 1 else below
  if 0 < nearer && spread.admits (nearer * step) den then some ⟨nearer, place⟩
  else if 0 < further && spread.admits (further * step) den then some ⟨further, place⟩
  else none

/-- The first decimal found on the way down from `10 ^ place`, trying `count`
further places. -/
def shortestFrom (spread : Spread) (halfUp : Bool) (place : Int) : Nat -> Decimal
  | 0 => ⟨0, 0⟩
  | count + 1 =>
    match spread.decimalAt? halfUp place with
    | some decimal => decimal
    | none => shortestFrom spread halfUp (place - 1) count

end Spread

/-- The shortest decimal that reads back as the absolute value of a finite word.
All finite words lie between `10 ^ (-46)` and `10 ^ 39`. -/
def shortestDecimal (x : Single) (halfUp : Bool) : Decimal :=
  x.spread.shortestFrom halfUp 39 86

/-! ## Writing -/

/-- The choices left open by the digits of a number. -/
structure NumberStyle where
  /-- Whether the upper one of two equally near decimals is taken; else the one
  with the even last digit. -/
  halfUp : Bool
  /-- The places of the leading digit, first and last, that are written without
  an exponent; none stands for all of them. -/
  positional : Option (Int × Int)
  /-- Whether a whole number shows a point and a zero. -/
  point : Bool

namespace NumberStyle

/-- Digits around a decimal point, with zeros where the digits do not reach. -/
def positionalText (style : NumberStyle) (digits : List Char) (exponent : Int) : List Char :=
  if 0 ≤ exponent then
    digits ++ List.replicate exponent.toNat '0' ++ (if style.point then ['.', '0'] else [])
  else
    let fraction := (-exponent).toNat
    if fraction < digits.length then
      digits.take (digits.length - fraction) ++ '.' :: digits.drop (digits.length - fraction)
    else
      '0' :: '.' :: List.replicate (fraction - digits.length) '0' ++ digits

/-- One digit before the point and the power of ten behind the digits. -/
def scientificText (digits : List Char) (place : Int) : List Char :=
  let mantissa := match digits with
    | [] => []
    | [digit] => [digit]
    | digit :: rest => digit :: '.' :: rest
  let sign := if place < 0 then '-' else '+'
  mantissa ++ 'e' :: sign :: Nat.toDigits 10 place.natAbs

/-- The text of a finite number. -/
def finiteText (style : NumberStyle) (x : Single) : String :=
  let sign := if x.negative then ['-'] else []
  let body :=
    if x.isZero then style.positionalText ['0'] 0
    else
      let decimal := x.shortestDecimal style.halfUp
      let digits := Nat.toDigits 10 decimal.digits
      let place := decimal.exponent + digits.length - 1
      match style.positional with
      | none => style.positionalText digits decimal.exponent
      | some (first, last) =>
        if first ≤ place ∧ place ≤ last then style.positionalText digits decimal.exponent
        else scientificText digits place
  String.ofList (sign ++ body)

end NumberStyle

/-- Plain numbers have no exponent at all, and whole numbers no point. -/
def plainStyle : NumberStyle := ⟨true, none, false⟩

/-- The text of a number in messages and listings. -/
def toText (x : Single) : String :=
  if x.isNaN then "NaN"
  else if x.isInfinite then if x.negative then "-inf" else "inf"
  else plainStyle.finiteText x

instance : ToString Single := ⟨toText⟩

/-! ## Reading -/

/-- The word nearest to a decimal.  Decimals beyond the range of all words are
decided by the place of their leading digit alone. -/
def ofDecimal (negative : Bool) (decimal : Decimal) : Single :=
  ofMagnitude negative <|
    if decimal.digits = 0 ∨ decimal.place < -46 then 0
    else if 40 < decimal.place then infinityMagnitude
    else nearestMagnitude ((decimal.digits * Nat.pow 10 decimal.exponent.toNat) <<< 149)
      (Nat.pow 10 (-decimal.exponent).toNat) 0

/-- The value of a run of decimal digits. -/
def digitsValue (digits : List Char) : Nat :=
  digits.foldl (fun value digit => value * 10 + (digit.toNat - '0'.toNat)) 0

/-- The exponent of a number behind the letter `e`, which needs a digit. -/
def readExponent (text : List Char) : Option Int :=
  match text with
  | '-' :: digits => if valid digits then some (-(digitsValue digits : Int)) else none
  | '+' :: digits => if valid digits then some (digitsValue digits) else none
  | digits => if valid digits then some (digitsValue digits) else none
where
  valid (digits : List Char) : Bool := !digits.isEmpty && digits.all Char.isDigit

/-- A number without its sign: digits with at most one point among them, at
least one digit, and an optional exponent. -/
def readUnsigned (text : List Char) : Option Decimal :=
  let whole := text.takeWhile Char.isDigit
  let afterWhole := text.dropWhile Char.isDigit
  let (fraction, rest) := match afterWhole with
    | '.' :: tail => (tail.takeWhile Char.isDigit, tail.dropWhile Char.isDigit)
    | _ => ([], afterWhole)
  let decimal (exponent : Int) : Decimal :=
    ⟨digitsValue (whole ++ fraction), exponent - fraction.length⟩
  if whole.isEmpty && fraction.isEmpty then none
  else match rest with
    | [] => some (decimal 0)
    | letter :: tail =>
      if letter = 'e' ∨ letter = 'E' then (readExponent tail).map decimal else none

/-- Reads a number: an optional sign, then a decimal, or one of the words `inf`,
`infinity` and `nan` in any case. -/
def ofText? (text : String) : Option Single :=
  let (negative, body) := match text.toList with
    | '-' :: rest => (true, rest)
    | '+' :: rest => (false, rest)
    | all => (false, all)
  let word := String.ofList (body.map Char.toLower)
  if word = "inf" ∨ word = "infinity" then some (ofMagnitude negative infinityMagnitude)
  else if word = "nan" then some (ofMagnitude negative 0x7fc00000)
  else (readUnsigned body).map (ofDecimal negative)

end Single
end DeepShadow
