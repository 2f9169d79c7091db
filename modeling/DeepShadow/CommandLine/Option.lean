import DeepShadow.Single.Decimal

/-!
# Options and operands

The words of a command line are options and operands.  An option starts with a
hyphen.  It has a long name, which stands behind two hyphens, and perhaps a
letter; letters may stand together behind one hyphen.  The value of an option
follows it in the same word or in the next one.  Behind a word of two hyphens
all words are operands.
-/

namespace DeepShadow
namespace CommandLine

/-- Why words are no command line. -/
inductive UsageError
  | unknownOption (text : String)
  | missingValue (option : String)
  | unwantedValue (option : String)
  | repeatedOption (option : String)
  | badValue (text : String)
  | unknownCommand (text : String)
  | unexpectedOperand (text : String)
  | missingOperand
  | missingCommand
deriving DecidableEq, Repr

namespace UsageError

/-- The text shown for an error. -/
def message : UsageError -> String
  | unknownOption text => s!"unknown option {text}"
  | missingValue option => s!"--{option} needs a value"
  | unwantedValue option => s!"--{option} takes no value"
  | repeatedOption option => s!"--{option} is given twice"
  | badValue text => s!"{text} is not a value of the wanted kind"
  | unknownCommand text => s!"unknown command {text}"
  | unexpectedOperand text => s!"unexpected operand {text}"
  | missingOperand => "an operand is missing"
  | missingCommand => "a command is missing"

end UsageError

/-! ## Values -/

/-- What a value has to be. -/
inductive ValueKind
  | path
  /-- A number of pixels or of slices. -/
  | size
  /-- A number of workers. -/
  | count
  | depth
deriving DecidableEq, Repr

/-- The number that decimal digits stand for. -/
def readDigits? (digits : List Char) : Option Nat :=
  if digits.isEmpty || digits.any fun char => !char.isDigit then none
  else some (Single.digitsValue digits)

/-- A size as a number below `2 ^ 32`.  A sign may stand in front of it, a minus
sign only of zero. -/
def readSize? (text : String) : Option UInt32 := do
  let value ← match text.toList with
    | '+' :: digits => readDigits? digits
    | '-' :: digits => (readDigits? digits).filter (· = 0)
    | digits => readDigits? digits
  if value < 0x100000000 then some (UInt32.ofNat value) else none

/-- A count as a number below `2 ^ 64`, in front of which a plus sign may
stand. -/
def readCount? (text : String) : Option Nat := do
  let value ← match text.toList with
    | '+' :: digits => readDigits? digits
    | digits => readDigits? digits
  if value < 0x10000000000000000 then some value else none

/-- Whether a text is a value of a kind. -/
def ValueKind.admits : ValueKind -> String -> Bool
  | path, text => !text.isEmpty
  | size, text => (readSize? text).isSome
  | count, text => (readCount? text).isSome
  | depth, text => (Single.ofText? text).isSome

/-! ## Options -/

/-- An option of the command line. -/
structure OptionRule where
  name : String
  letter : Option Char
  /-- What the value has to be; an option without a value is a flag. -/
  value : Option ValueKind
  /-- Whether the option may be given more than once. -/
  repeatable : Bool
deriving DecidableEq, Repr

/-- What a word, or a part of it, stands for. -/
inductive Piece
  | flag (rule : OptionRule)
  | setting (rule : OptionRule) (value : String)
  | operand (text : String)
  | malformed (error : UsageError)
deriving DecidableEq, Repr

/-- Whether a word cannot be an operand or the value of an option. -/
def looksLikeOption (word : String) : Bool :=
  match word.toList with
  | '-' :: _ :: _ => true
  | _ => false

/-- The pieces of a word, and the option that still needs a value. -/
abbrev Scanned := List Piece × Option OptionRule

/-- Reads what stands behind the two hyphens of a long option. -/
def scanLong (rules : List OptionRule) (text : List Char) : Scanned :=
  let name := String.ofList (text.takeWhile (· != '='))
  let value? := match text.dropWhile (· != '=') with
    | [] => none
    | _ :: value => some (String.ofList value)
  match rules.find? fun rule => rule.name == name, value? with
  | none, _ => ([.malformed (.unknownOption name)], none)
  | some rule, none => if rule.value.isSome then ([], some rule) else ([.flag rule], none)
  | some rule, some value =>
      if rule.value.isSome then ([.setting rule value], none)
      else ([.malformed (.unwantedValue name)], none)

/-- Reads letters that stand together.  What stands behind the letter of an
option with a value is the value. -/
def scanLetters (rules : List OptionRule) : List Char -> Scanned
  | [] => ([], none)
  | letter :: rest =>
      match rules.find? fun rule => rule.letter == some letter with
      | none => ([.malformed (.unknownOption (String.singleton letter))], none)
      | some rule =>
          if rule.value.isNone then
            let (pieces, waiting) := scanLetters rules rest
            (.flag rule :: pieces, waiting)
          else
            match rest with
            | [] => ([], some rule)
            | '=' :: value => ([.setting rule (String.ofList value)], none)
            | value => ([.setting rule (String.ofList value)], none)

/-- Reads a word that no option waits for. -/
def scanWord (rules : List OptionRule) (word : String) : Scanned :=
  match word.toList with
  | '-' :: '-' :: text => scanLong rules text
  | '-' :: letter :: letters => scanLetters rules (letter :: letters)
  | _ => ([.operand word], none)

end CommandLine
end DeepShadow
