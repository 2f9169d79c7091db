import DeepShadow.Program

/-!
# File trees

The files and directories below a working directory, as a value.  Running a
program on a file tree tells what it would write and print.
-/

namespace DeepShadow

/-- A file or a directory. -/
inductive FileNode
  | file (content : FileContent)
  | directory
deriving DecidableEq, Repr

/-- The files and directories below a working directory, by the names that lead
to them. -/
structure FileTree where
  nodes : List (List String × FileNode)
deriving DecidableEq, Repr

namespace FileTree

/-- The tree without files. -/
def empty : FileTree := ⟨[]⟩

/-- What is at a place.  Of the directories around the working directory nothing
is known but that they are there. -/
def node? (tree : FileTree) (place : List String) : Option FileNode :=
  if place.all (· == "..") || place == ["/"] then some .directory
  else tree.nodes.lookup place

/-- Puts something at a place. -/
def put (tree : FileTree) (place : List String) (node : FileNode) : FileTree :=
  ⟨(place, node) :: tree.nodes.filter fun (other, _) => other != place⟩

/-- The directory around a place. -/
def parent (place : List String) : List String :=
  if place.all (· == "..") then place ++ [".."]
  else if place == ["/"] then place
  else place.dropLast

/-- The longest name of a file or directory, in bytes. -/
def longestName : Nat := 255

/-- The longest path, in bytes. -/
def longestPath : Nat := 4095

/-- Follows names from a place, each but the last of which has to lead to a
directory. -/
def walk (tree : FileTree) : List String -> List String -> Except FileError (List String)
  | place, [] => .ok place
  | place, name :: names =>
      match tree.node? place with
      | none => .error .notFound
      | some (.file _) => .error .notDirectory
      | some .directory =>
          if name = "." then tree.walk place names
          else if name = ".." then tree.walk (parent place) names
          else if longestName < name.utf8ByteSize then .error .nameTooLong
          else tree.walk (place ++ [name]) names

/-- Follows the names of a path. -/
def follow (tree : FileTree) (route : Route) : Except FileError (List String) :=
  tree.walk (if route.absolute then ["/"] else []) route.names

/-- What a path says, unless it is empty or too long. -/
def route (path : String) : Except FileError Route :=
  if path.isEmpty then .error .notFound
  else if longestPath < path.utf8ByteSize then .error .nameTooLong
  else .ok (Route.ofPath path)

/-- What a path leads to.  A slash at its end asks for a directory. -/
def find (tree : FileTree) (path : String) : Except FileError FileNode := do
  let route ← route path
  let names := if route.slashed then route.names ++ ["."] else route.names
  match tree.node? (← tree.follow { route with names }) with
  | none => throw .notFound
  | some node => return node

/-- The place for a file.  A path to a file does not end in a slash. -/
def placeForFile (tree : FileTree) (path : String) : Except FileError (List String) := do
  let route ← route path
  if route.slashed && route.endsInName then
    let _ ← tree.follow { route with names := route.names.dropLast ++ ["."] }
    throw .isDirectory
  tree.follow route

/-- The contents of a file. -/
def content (tree : FileTree) (path : String) : Except FileError FileContent := do
  match ← tree.find path with
  | .directory => throw .isDirectory
  | .file content => return content

/-- Whether a path leads to a directory. -/
def isDirectory (tree : FileTree) (path : String) : Bool :=
  tree.find path matches .ok .directory

/-- Creates an empty file where nothing is there. -/
def createFile (tree : FileTree) (path : String) : Except FileError FileTree := do
  let place ← tree.placeForFile path
  match tree.node? place with
  | some _ => throw .exists
  | none => return tree.put place (.file (.bytes []))

/-- Writes a file where no directory is there. -/
def writeFile
    (tree : FileTree)
    (path : String)
    (content : FileContent) : Except FileError FileTree := do
  let place ← tree.placeForFile path
  match tree.node? place with
  | some .directory => throw .isDirectory
  | _ => return tree.put place (.file content)

/-- Creates a directory where nothing is there. -/
def createDirectory (tree : FileTree) (path : String) : Except FileError FileTree := do
  let place ← tree.follow (← route path)
  match tree.node? place with
  | some _ => throw .exists
  | none => return tree.put place .directory

/-- Puts a file into the tree, with the directories around it. -/
def withFile (tree : FileTree) (path : String) (data : List UInt8) : FileTree :=
  let place := (Route.ofPath path).names
  let around := (List.range place.length).tail.map fun count => place.take count
  (around.foldl (fun tree place => tree.put place .directory) tree).put place
    (.file (.bytes data))

end FileTree

/-- What a program has done to the system around it. -/
structure SystemState where
  files : FileTree
  output : String
  errorOutput : String

namespace SystemState

/-- The system with some files and nothing printed. -/
def ofFiles (files : FileTree) : SystemState := ⟨files, "", ""⟩

/-- Takes over a change of the files, where it was possible. -/
def change
    (state : SystemState)
    (result : Except FileError FileTree) : Except FileError Unit × SystemState :=
  match result with
  | .error error => (.error error, state)
  | .ok files => (.ok (), { state with files })

/-- Answers a request. -/
def answer (state : SystemState) : Request α -> α × SystemState
  | .readFile path => ((state.files.content path).map FileContent.toBytes, state)
  | .createFile path => state.change (state.files.createFile path)
  | .writeFile path content => state.change (state.files.writeFile path content)
  | .createDirectory path => state.change (state.files.createDirectory path)
  | .isDirectory path => (state.files.isDirectory path, state)
  | .print text => ((), { state with output := state.output ++ text })
  | .complain text => ((), { state with errorOutput := state.errorOutput ++ text })

end SystemState

/-- Runs a program on a file tree. -/
def Program.runOn (state : SystemState) : Program α -> α × SystemState
  | .done value => (value, state)
  | .step request next =>
      let (answer, state) := state.answer request
      (next answer).runOn state

end DeepShadow
