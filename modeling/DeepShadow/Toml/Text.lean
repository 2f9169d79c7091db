import DeepShadow.Toml.Scan

/-!
# Blanks, strings and keys

Between the parts of a line stand blanks and tabs; a comment runs to the end of
its line.  Strings are written in quotes, with escapes, or in apostrophes,
without; three of either allow line breaks.
-/

namespace DeepShadow
namespace Toml

/-- A blank or a tab. -/
def isBlank (char : Char) : Bool := char == ' ' || char == '\t'

/-- A character that may stand in a line: no control character but the tab. -/
def isLineChar (char : Char) : Bool :=
  char == '\t' || (0x20 ≤ char.toNat && char.toNat ≠ 0x7f)

/-- Takes blanks. -/
def blanks : Scan Unit := do let _ ← Scan.span isBlank

/-- Takes a line break, where one comes next. -/
def lineBreak : Scan Bool := do
  if ← Scan.accept "\n" then return true
  Scan.accept "\r\n"

/-- Takes what may stand behind the last part of a line, up to the line break. -/
def lineRest : Scan Unit := do
  blanks
  if ← Scan.accept "#" then
    let _ ← Scan.span isLineChar

/-- Takes blanks, line breaks and comments. -/
def gaps : Scan Unit :=
  Scan.repeatUntil
    (fun _ => do
      lineRest
      return ((), !(← lineBreak)))
    ()

/-! ## Strings -/

/-- The character with the given number of hexadecimal digits as its code. -/
def codePoint (digits : Nat) : Scan Char := do
  let chars ← get
  let code := chars.take digits
  let isHexadecimal (char : Char) : Bool :=
    char.isDigit || ('a' ≤ char && char ≤ 'f') || ('A' ≤ char && char ≤ 'F')
  if code.length ≠ digits || !code.all isHexadecimal then failure
  set (chars.drop digits)
  let digit (char : Char) : Nat :=
    if char.isDigit then char.toNat - '0'.toNat else char.toLower.toNat - 'a'.toNat + 10
  let value := code.foldl (fun value char => value * 16 + digit char) 0
  if value.isValidChar then return Char.ofNat value else failure

/-- The character that stands behind a backslash. -/
def escaped : Scan Char := do
  match ← Scan.next with
  | 'b' => return '\x08'
  | 't' => return '\t'
  | 'n' => return '\n'
  | 'f' => return '\x0c'
  | 'r' => return '\r'
  | '"' => return '"'
  | '\\' => return '\\'
  | 'u' => codePoint 4
  | 'U' => codePoint 8
  | _ => failure

/-- Takes one character of a string, unless the string ends here. -/
def stringChar (quote : String) (escapes : Bool) (taken : List Char) :
    Scan (List Char × Bool) := do
  if ← Scan.accept quote then return (taken, true)
  let char ← Scan.next
  if escapes && char == '\\' then return ((← escaped) :: taken, false)
  if isLineChar char then return (char :: taken, false) else failure

/-- A string in one line, behind its opening quote. -/
def lineString (quote : String) (escapes : Bool) : Scan String := do
  return String.ofList (← Scan.repeatUntil (stringChar quote escapes) []).reverse

/-- Takes blanks and line breaks. -/
def blankLines : Scan Unit :=
  Scan.repeatUntil
    (fun _ => do
      blanks
      return ((), !(← lineBreak)))
    ()

/-- Takes one character of a string that may have several lines, unless the
string ends here.  Up to two quotes may stand in front of those that end it. -/
def blockChar (quote : Char) (escapes : Bool) (taken : List Char) :
    Scan (List Char × Bool) := do
  let quotes := (← get).takeWhile (· == quote)
  if 3 ≤ quotes.length then
    let count := min quotes.length 5
    modify (·.drop count)
    return (List.replicate (count - 3) quote ++ taken, true)
  if ← lineBreak then return ('\n' :: taken, false)
  let char ← Scan.next
  if escapes && char == '\\' then
    let rest ← get
    blanks
    if ← lineBreak then
      blankLines
      return (taken, false)
    set rest
    return ((← escaped) :: taken, false)
  if isLineChar char then return (char :: taken, false) else failure

/-- A string that may have several lines, behind its opening quotes.  A line
break right behind these does not belong to it. -/
def blockString (quote : Char) (escapes : Bool) : Scan String := do
  let _ ← lineBreak
  return String.ofList (← Scan.repeatUntil (blockChar quote escapes) []).reverse

/-- A string in one line; none where no string comes next. -/
def simpleString? : Scan (Option String) := do
  if ← Scan.accept "\"" then return some (← lineString "\"" true)
  if ← Scan.accept "'" then return some (← lineString "'" false)
  return none

/-- A string; none where no string comes next. -/
def string? : Scan (Option String) := do
  if ← Scan.accept "\"\"\"" then return some (← blockString '"' true)
  if ← Scan.accept "'''" then return some (← blockString '\'' false)
  simpleString?

/-! ## Keys -/

/-- A character that may stand in a key without quotes. -/
def isBareKeyChar (char : Char) : Bool := char.isAlphanum || char == '_' || char == '-'

/-- One part of a key. -/
def keyPart : Scan String := do
  match ← simpleString? with
  | some name => return name
  | none => return String.ofList (← Scan.spanSome isBareKeyChar)

/-- How deep a document may nest: the number of brackets around a value, and the
number of parts of a key. -/
def depthLimit : Nat := 79

/-- The parts of a key, with points between them. -/
def key : Scan (List String) := do
  let parts ← Scan.repeatUntil
    (fun parts => do
      blanks
      let part ← keyPart
      blanks
      return (part :: parts, !(← Scan.accept ".")))
    []
  if depthLimit < parts.length then failure
  return parts.reverse

end Toml
end DeepShadow
