/-!
# TOML values

A document is a table of named values.  Tables can be written in four ways, which
have different rules about what may be added to them later, so that a table
remembers how it came to be.
-/

namespace DeepShadow
namespace Toml

/-- How a table was introduced. -/
inductive Origin
  /-- By the header of a table further inside. -/
  | implied
  /-- By a header of its own. -/
  | header
  /-- By a dotted key. -/
  | dotted
  /-- As a value in braces, to which nothing can be added. -/
  | inline
deriving DecidableEq, Repr

/-- A value of a document. -/
inductive Value
  | integer (value : Int)
  /-- A number that is not an integer, as it is written. -/
  | fraction (text : String)
  | boolean (value : Bool)
  | text (value : String)
  /-- A date, a time, or both, as it is written. -/
  | moment (text : String)
  | list (values : List Value)
  /-- The tables that have the same header in double brackets. -/
  | tables (tables : List (List (String × Value)))
  | table (origin : Origin) (entries : List (String × Value))

/-- The entries of a table, in the order in which they were written. -/
abbrev Table := List (String × Value)

namespace Table

/-- The value with a name. -/
def find? (table : Table) (name : String) : Option Value := table.lookup name

/-- Puts a value in the place of the one with the same name, or behind all
others. -/
def put (table : Table) (name : String) (value : Value) : Table :=
  match table with
  | [] => [(name, value)]
  | (other, old) :: rest =>
      if other = name then (name, value) :: rest
      else (other, old) :: put rest name value

/-- Adds the value of a dotted key.  The key may pass through tables introduced
by dotted keys, and must not be there already. -/
def addDotted (table : Table) : List String -> Value -> Option Table
  | [], _ => none
  | [name], value =>
      match table.find? name with
      | some _ => none
      | none => some (table.put name value)
  | name :: path, value =>
      match table.find? name with
      | none => do
          let inner ← addDotted [] path value
          return table.put name (.table .dotted inner)
      | some (.table .dotted entries) => do
          let inner ← addDotted entries path value
          return table.put name (.table .dotted inner)
      | some _ => none

/-- Changes the table that a header names, which is created along with the tables
around it where it is missing.  The path leads into the last one of several
tables with the same header. -/
def changeAt
    (change : Option Value -> Option Value)
    (table : Table) : List String -> Option Table
  | [] => none
  | [name] => do
      let value ← change (table.find? name)
      return table.put name value
  | name :: path =>
      match table.find? name with
      | none => do
          let inner ← changeAt change [] path
          return table.put name (.table .implied inner)
      | some (.table .inline _) => none
      | some (.table origin entries) => do
          let inner ← changeAt change entries path
          return table.put name (.table origin inner)
      | some (.tables tables) => do
          let last ← tables.getLast?
          let inner ← changeAt change last path
          return table.put name (.tables (tables.dropLast ++ [inner]))
      | some _ => none

/-- Opens the table of a header, which must not have been opened before. -/
def openHeader (table : Table) (path : List String) : Option Table :=
  changeAt
    (fun
      | none => some (.table .header [])
      | some (.table .implied entries) => some (.table .header entries)
      | some _ => none)
    table path

/-- Opens one more of the tables of a header in double brackets. -/
def openNext (table : Table) (path : List String) : Option Table :=
  changeAt
    (fun
      | none => some (.tables [[]])
      | some (.tables tables) => some (.tables (tables ++ [[]]))
      | some _ => none)
    table path

/-- Adds a value to the table that was opened last. -/
def addBelow (table : Table) (header key : List String) (value : Value) : Option Table :=
  if header = [] then table.addDotted key value
  else
    changeAt
      (fun
        | some (.table origin entries) => do
            return .table origin (← addDotted entries key value)
        | some (.tables tables) => do
            let last ← tables.getLast?
            return .tables (tables.dropLast ++ [← addDotted last key value])
        | _ => none)
      table header

end Table
end Toml
end DeepShadow
