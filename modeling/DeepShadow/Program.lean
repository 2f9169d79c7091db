import DeepShadow.FileError
import DeepShadow.Log
import DeepShadow.Picture.Png
import DeepShadow.Route

/-!
# Programs

A program is a tree of requests to the system around it, each followed by what
the program does with the answer.  It can be run on the files of a computer, or
on a file tree that is a value.
-/

namespace DeepShadow

/-- What a program puts into a file. -/
inductive FileContent
  | bytes (data : List UInt8)
  | picture (value : Picture)
deriving DecidableEq, Repr

namespace FileContent

/-- The bytes of the file. -/
def toBytes : FileContent -> List UInt8
  | .bytes data => data
  | .picture value => Png.encode value

end FileContent

/-- A request to the system, by the type of its answer. -/
inductive Request : Type -> Type
  /-- The bytes of a file. -/
  | readFile (path : String) : Request (Except FileError (List UInt8))
  /-- A new file, where none of this name is there. -/
  | createFile (path : String) : Request (Except FileError Unit)
  /-- The contents of a file, which may be new. -/
  | writeFile (path : String) (content : FileContent) : Request (Except FileError Unit)
  /-- A new directory, where nothing of this name is there. -/
  | createDirectory (path : String) : Request (Except FileError Unit)
  /-- Whether a path leads to a directory. -/
  | isDirectory (path : String) : Request Bool
  /-- A text for the standard output. -/
  | print (text : String) : Request Unit
  /-- A text for the standard error output. -/
  | complain (text : String) : Request Unit

/-- A program that gives a value. -/
inductive Program (α : Type) : Type 1
  | done (value : α) : Program α
  | step {β : Type} (request : Request β) (next : β -> Program α) : Program α

namespace Program

/-- The program that makes one request. -/
def ask (request : Request α) : Program α := .step request .done

/-- Goes on with another program. -/
def bind (program : Program α) (next : α -> Program β) : Program β :=
  match program with
  | .done value => next value
  | .step request rest => .step request fun answer => (rest answer).bind next

instance : Monad Program where
  pure := .done
  bind := bind

/-- Creates a directory, unless one is there. -/
def ensureDirectory (path : String) : Program (Except FileError Unit) := do
  match ← ask (.createDirectory path) with
  | .ok () => return .ok ()
  | .error refusal =>
      if ← ask (.isDirectory path) then return .ok () else return .error refusal

/-- Creates a directory, after the directories around it where one of these is
missing.  They are given from the innermost one outwards. -/
def ensureNested (path : String) : List String -> Program (Except FileError Unit)
  | [] => ensureDirectory path
  | around :: outer => do
      match ← ensureDirectory path with
      | .error .notFound =>
          match ← ensureNested around outer with
          | .ok () => ensureDirectory path
          | .error refusal => return .error refusal
      | result => return result

/-- Creates a directory and those around it, as far as they are missing. -/
def createDirectories (path : String) : Program (Except FileError Unit) :=
  ensureNested path (Route.ofPath path).directoriesAround

/-- Shows the lines of a computation that are wanted at a verbosity. -/
def showLines (verbosity : Nat) : List LogLine -> Program Unit
  | [] => .done ()
  | line :: lines =>
      if line.level.verbosity ≤ verbosity then
        .step (.complain (line.render ++ "\n")) fun _ => showLines verbosity lines
      else showLines verbosity lines

/-- The value of a computation, whose lines are shown. -/
def ofTraced (verbosity : Nat) (traced : Traced α) : Program α := do
  showLines verbosity traced.lines
  return traced.value

end Program
end DeepShadow
