import DeepShadow.Toml.Scalar
import DeepShadow.Toml.Text

/-!
# TOML documents

A document is read line by line: a line holds a key with its value, or the header
of the table to which the keys of the following lines belong.
-/

namespace DeepShadow
namespace Toml

/-- A character of a word. -/
def isWordChar (char : Char) : Bool :=
  char.isAlphanum || char == '_' || char == '+' || char == '-' || char == '.' || char == ':'

/-- A value without quotes or brackets.  A blank may stand between a date and a
time. -/
def word : Scan Value := do
  let first ← Scan.spanSome isWordChar
  let behind ← get
  let both := match behind with
    | ' ' :: rest => first ++ ' ' :: rest.takeWhile isWordChar
    | _ => first
  if isDate first && isMoment both && first.length < both.length then
    set (behind.drop (both.length - first.length))
    return .moment (String.ofList both)
  else
    fun chars => (scalar? first).map fun value => (value, chars)

/-- Takes a comma or a closing bracket, and tells whether it was the bracket. -/
def commaOrClose (close : String) : Scan Bool := do
  if ← Scan.accept close then return true
  Scan.expect ","
  return false

/-- The values of a list, behind its opening bracket.  A comma may stand behind
the last one. -/
def listValues (value : Scan Value) : Scan (List Value) := do
  let values ← Scan.repeatUntil
    (fun values => do
      gaps
      if ← Scan.accept "]" then return (values, true)
      let next ← value
      gaps
      return (next :: values, ← commaOrClose "]"))
    []
  return values.reverse

/-- A key with its value. -/
def keyValue (value : Scan Value) : Scan (List String × Value) := do
  let path ← key
  Scan.expect "="
  blanks
  return (path, ← value)

/-- The entries of a table in braces, behind the opening brace. -/
def inlineEntries (value : Scan Value) : Scan Table := do
  blanks
  if ← Scan.accept "\x7d" then return []
  Scan.repeatUntil
    (fun (table : Table) => do
      let (path, next) ← keyValue value
      blanks
      match table.addDotted path next with
      | none => failure
      | some table => return (table, ← commaOrClose "\x7d"))
    []

/-- A value without brackets. -/
def simpleValue : Scan Value := do
  if let some text := ← string? then return .text text
  word

/-- A value, with brackets nested to no more than the given depth. -/
def value : Nat -> Scan Value
  | 0 => simpleValue
  | depth + 1 => do
      if ← Scan.accept "[" then return .list (← listValues (value depth))
      if ← Scan.accept "\x7b" then return .table .inline (← inlineEntries (value depth))
      simpleValue

/-- The document as far as it was read. -/
structure Progress where
  root : Table
  /-- The header in force. -/
  header : List String

namespace Progress

/-- Takes the rest of a line, and tells whether it was the last one. -/
def finishLine : Scan Bool := do
  lineRest
  if ← lineBreak then return false
  if (← get).isEmpty then return true
  failure

/-- The document with one more line, unless the line breaks a rule. -/
def extend (header : List String) (root : Option Table) : Scan Progress :=
  match root with
  | some root => return { root, header }
  | none => failure

/-- Reads one line. -/
def readLine (progress : Progress) : Scan (Progress × Bool) := do
  blanks
  let progress ← match ← Scan.peek? with
    | none | some '#' | some '\n' | some '\r' => pure progress
    | some '[' =>
        if ← Scan.accept "[[" then
          let header ← key
          Scan.expect "]]"
          extend header (progress.root.openNext header)
        else
          Scan.expect "["
          let header ← key
          Scan.expect "]"
          extend header (progress.root.openHeader header)
    | some _ =>
        let (path, next) ← keyValue (value depthLimit)
        extend progress.header (progress.root.addBelow progress.header path next)
  return (progress, ← finishLine)

end Progress

/-- The table that a text describes; none where the text is no document.  A byte
order mark may stand in front. -/
def ofText? (text : String) : Option Table := do
  let chars := text.toList
  let chars := if chars.head? == some '\ufeff' then chars.tail else chars
  let (progress, _) ← (Scan.repeatUntil Progress.readLine ⟨[], []⟩).run chars
  return progress.root

end Toml
end DeepShadow
