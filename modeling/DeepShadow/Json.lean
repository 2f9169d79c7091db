import DeepShadow.Single.Decimal

/-!
# JSON text

The machine-readable form of a report.  Each item of a list or an object stands
in a line of its own, indented by two blanks for each level around it.
-/

namespace DeepShadow

/-- A value of a JSON text. -/
inductive Json
  | nothing
  | natural (value : Nat)
  | single (value : Single)
  | text (value : String)
  | list (items : List Json)
  | object (fields : List (String × Json))

namespace Json

/-- Numbers are written with a point, or with an exponent below `10 ^ (-6)` and
from `10 ^ 13` on. -/
def numberStyle : Single.NumberStyle := ⟨false, some (-6, 12), true⟩

/-- The text of a number; none of the texts of JSON stands for what is not a
finite number. -/
def singleText (value : Single) : String :=
  if value.isFinite then numberStyle.finiteText value else "null"

/-- The digits of a control character in an escape. -/
def controlDigits (char : Char) : List Char :=
  ['\\', 'u', '0', '0', Nat.digitChar (char.toNat / 16), Nat.digitChar (char.toNat % 16)]

/-- A character as it stands in a text. -/
def escape (char : Char) : List Char :=
  if char == '"' then ['\\', '"']
  else if char == '\\' then ['\\', '\\']
  else if char == '\n' then ['\\', 'n']
  else if char == '\r' then ['\\', 'r']
  else if char == '\t' then ['\\', 't']
  else if char == '\x08' then ['\\', 'b']
  else if char == '\x0c' then ['\\', 'f']
  else if char.toNat < 0x20 then controlDigits char
  else [char]

/-- A text in quotes. -/
def quoted (value : String) : String :=
  "\"" ++ String.ofList (value.toList.flatMap escape) ++ "\""

/-- Lines between brackets, one for each item. -/
def bracketed (opening closing : String) (depth : Nat) (items : List String) : String :=
  let indent (depth : Nat) := String.ofList (List.replicate (2 * depth) ' ')
  if items.isEmpty then opening ++ closing
  else
    opening ++ "\n" ++
      String.intercalate ",\n" (items.map fun item => indent (depth + 1) ++ item) ++
      "\n" ++ indent depth ++ closing

mutual

/-- The text of a value with `depth` levels around it. -/
def render (depth : Nat) : Json -> String
  | .nothing => "null"
  | .natural value => toString value
  | .single value => singleText value
  | .text value => quoted value
  | .list items => bracketed "[" "]" depth (renderItems (depth + 1) items)
  | .object fields => bracketed "\x7b" "\x7d" depth (renderFields (depth + 1) fields)

/-- The texts of several values. -/
def renderItems (depth : Nat) : List Json -> List String
  | [] => []
  | item :: items => item.render depth :: renderItems depth items

/-- The texts of several named values. -/
def renderFields (depth : Nat) : List (String × Json) -> List String
  | [] => []
  | (name, value) :: fields =>
      (quoted name ++ ": " ++ value.render depth) :: renderFields depth fields

end

/-- The text of a value. -/
def toText (value : Json) : String := value.render 0

end Json
end DeepShadow
