import DeepShadow.CommandLine.Invocation
import DeepShadow.CommandLine.Report
import DeepShadow.Configuration
import DeepShadow.Demo.Render
import DeepShadow.Program
import DeepShadow.ShadowMap

/-!
# The commands

Each command as a program.  A command that fails shows why and exits with 1; a
command line that asks for nothing that there is exits with 2.
-/

namespace DeepShadow
namespace CommandLine

/-- Why a command comes to no good end. -/
inductive Abort
  | failure (failure : Failure)
  | violation (violation : Violation)
deriving DecidableEq, Repr

/-- A program that may fail. -/
abbrev Procedure := ExceptT Abort Program

namespace Procedure

/-- Makes a request to the system. -/
def ask (request : Request α) : Procedure α := liftM (Program.ask request)

/-- Fails. -/
def fail (text : String) (causes : List String) : Procedure α :=
  throw (.failure ⟨text, causes⟩)

/-- The value, or a failure with the texts of the errors behind it. -/
def require (result : Except ε α) (text : String) (causes : ε -> List String) : Procedure α :=
  match result with
  | .ok value => pure value
  | .error error => fail text (causes error)

/-- Shows the lines of a computation, and gives its value. -/
def ofTraced (verbosity : Nat) (traced : Traced α) : Procedure α :=
  liftM (Program.ofTraced verbosity traced)

/-- Shows the lines of a computation, and gives its value where it kept its
contracts. -/
def checked (verbosity : Nat) (traced : Traced (Except Violation α)) : Procedure α := do
  match ← ofTraced verbosity traced with
  | .ok value => return value
  | .error violation => throw (.violation violation)

/-- Prints a line. -/
def printLine (text : String) : Procedure Unit := ask (.print (text ++ "\n"))

/-- Reports what the command line does. -/
def sayInfo (verbosity : Nat) (text : String) : Procedure Unit :=
  ofTraced verbosity (Traced.say .command .info text)

end Procedure

open Procedure

/-! ## Configuration -/

/-- The text that bytes encode. -/
def decodeText (bytes : List UInt8) : Option String :=
  String.fromUTF8? (ByteArray.mk bytes.toArray)

/-- The configuration of a file, or the one with all defaults. -/
def loadConfiguration : Option String -> Procedure Configuration
  | none => return {}
  | some path => do
      let bytes ← require (← ask (.readFile path)) s!"read config {path}"
        fun error => [error.message]
      match decodeText bytes with
      | none => fail s!"read config {path}" ["stream did not contain valid UTF-8"]
      | some text =>
          require (Configuration.ofText text) s!"parse config {path}"
            ConfigurationError.messages

/-! ## Commands -/

/-- Describes a file. -/
def describe (verbosity : Nat) (file : String) (asJson withTable : Bool) : Procedure Unit := do
  let opened ← ofTraced verbosity (Texture.Reader.open file (← ask (.readFile file)))
  let reader ← require opened s!"open {file}" fun error => error.message :: error.causes
  let report := TextureReport.ofReader reader withTable
  if asJson then
    printLine report.toJson.toText
  else
    report.lines.forM printLine

/-- Opens a map that has to be valid. -/
def openMap
    (verbosity : Nat)
    (configuration : Configuration)
    (file : String) : Procedure ShadowMap := do
  let contents ← ask (.readFile file)
  let opened ← ofTraced verbosity (ShadowMap.open file configuration.maxResidentTiles contents)
  let map ← require opened "tile cache settings" fun error => [error.message]
  if map.isValid then return map
  else fail s!"{file} is not a readable deep shadow map" []

/-- The text of a visibility with some channels. -/
def visibilityText (channels : Nat) (visibility : Color) : String :=
  if channels = 1 then visibility.red.toText
  else
    s!"{visibility.red.toText} {visibility.green.toText} {visibility.blue.toText}"

/-- Shows the visibility of a pixel at a depth. -/
def lookUp
    (verbosity : Nat)
    (configuration : Configuration)
    (file : String)
    (x y : Nat)
    (depth : Single) : Procedure Unit := do
  let map ← openMap verbosity configuration file
  if x ≥ map.width ∨ y ≥ map.height then
    fail s!"pixel ({x}, {y}) is outside the {map.width}x{map.height} map" []
  let (visibility, map) ← checked verbosity ((ShadowMap.visibilityAt x y depth).answer map)
  printLine (visibilityText map.channels visibility)

/-- The depth of a slice: the slices are evenly spaced from zero to the greatest
depth, and a single one is at the greatest depth. -/
def sliceDepth (greatest : Single) (count index : Nat) : Single :=
  if count = 1 then greatest
  else greatest * Single.ofNat index / Single.ofNat (count - 1)

/-- The name of a file in a directory. -/
def joinPath (directory name : String) : String :=
  if directory.endsWith "/" then directory ++ name else directory ++ "/" ++ name

/-- The name of the picture of a slice, with at least three digits. -/
def sliceName (index : Nat) : String :=
  let digits := toString index
  "slice_" ++ String.ofList (List.replicate (3 - digits.length) '0') ++ digits ++ ".png"

/-- Writes the picture of a slice. -/
def writeSlice
    (verbosity : Nat)
    (directory : String)
    (index : Nat)
    (depth : Single)
    (map : ShadowMap) : Procedure ShadowMap := do
  let (pixels, map) ← checked verbosity ((ShadowMap.depthSlice depth).answer map)
  let path := joinPath directory (sliceName index)
  let picture := Picture.ofColors map.width map.height map.channels pixels
  require (← ask (.writeFile path (.picture picture))) s!"write {path}"
    fun error => [error.message]
  sayInfo verbosity s!"depth {depth.toText} -> {path}"
  return map

/-- Writes pictures of the map at evenly spaced depths. -/
def writeSlices
    (verbosity : Nat)
    (configuration : Configuration)
    (file : String)
    (count : Nat)
    (directory : String) : Procedure Unit := do
  if count = 0 then
    fail "slice count must be at least 1" []
  let map ← openMap verbosity configuration file
  let created ← liftM (Program.createDirectories directory)
  require created s!"create output directory {directory}" fun error => [error.message]
  let (greatest, map) ← checked verbosity (ShadowMap.greatestDepth.answer map)
  let map ← (List.range count).foldlM
    (fun map index =>
      writeSlice verbosity directory index (sliceDepth greatest count index) map)
    map
  if let some reader := map.reader then
    let counters := reader.cache.counters
    sayInfo verbosity <|
      s!"cache: {counters.hits} hits, {counters.misses} misses, " ++
        s!"{counters.decodes} decodes, {counters.evictions} evictions"
  printLine s!"wrote {count} slices to {directory}"

/-- Creates the file of a session, where its settings make a grid. -/
def createFile (path : String) (settings : Session.Settings) : Procedure (Option FileError) := do
  match settings.texture.grid with
  | .error _ => return none
  | .ok _ =>
      match ← ask (.createFile path) with
      | .error refusal => return some refusal
      | .ok () => return none

/-- Renders the demonstration scene into a new file. -/
def renderDemo
    (verbosity : Nat)
    (settings : Session.Settings)
    (file : String)
    (producers : Nat) : Procedure Unit := do
  let refusal ← createFile file settings
  let rendered ← checked verbosity (Demo.render file settings producers refusal)
  let (result, writer) ← require rendered s!"create {file}"
    fun error => error.message :: error.causes
  require (← ask (.writeFile file (.bytes writer.contents))) s!"write {file}"
    fun error => [error.message]
  let report ← require result s!"write {file}" fun error => error.message :: error.causes
  let summary := report.summary
  printLine <|
    s!"{file}: {report.regions} regions, {summary.tilesWritten} tiles written, " ++
      s!"{summary.tilesElided} elided, {summary.fileSize} bytes"

/-- Runs a command. -/
def Command.run (verbosity : Nat) (configuration : Configuration) : Command -> Procedure Unit
  | .info file asJson withTable => describe verbosity file asJson withTable
  | .lookup file x y depth => lookUp verbosity configuration file x.toNat y.toNat depth
  | .slices file count directory =>
      writeSlices verbosity configuration file count.toNat directory
  | .demo file width height channels producers =>
      renderDemo verbosity (configuration.sessionSettings width height channels) file producers

/-! ## The whole program -/

/-- The line that tells the version. -/
def versionLine : String := "umbra 0.1.0"

/-- The lines that tell how the program is used. -/
def usageLines : List String :=
  [ "Inspect and produce deep shadow maps"
  , ""
  , "Usage: umbra [--config <PATH>] [-v...] <COMMAND>"
  , ""
  , "Commands:"
  , "  info <FILE> [--json] [--table]"
  , "  lookup <FILE> <X> <Y> <DEPTH>"
  , "  slices <FILE> [--count <N>] [--out <PATH>]"
  , "  demo <FILE> [--width <N>] [--height <N>] [--channels <N>] [--producers <N>]"
  , "  help" ]

/-- Prints lines to the standard error output. -/
def complainLines (lines : List String) : Program Unit :=
  lines.forM fun line => Program.ask (.complain (line ++ "\n"))

/-- Runs a procedure, and gives the exit code. -/
def Procedure.exitCode (procedure : Procedure Unit) : Program Nat := do
  match ← procedure.run with
  | .ok () => return 0
  | .error (.failure failure) =>
      complainLines failure.lines
      return 1
  | .error (.violation violation) =>
      complainLines [violation.message]
      return 101

/-- The program for the words of a command line.  Its value is the exit code. -/
def program (words : List String) : Program Nat :=
  match Invocation.ofWords words with
  | .error error => do
      complainLines [s!"error: {error.message}"]
      return 2
  | .ok .version => do
      Program.ask (.print (versionLine ++ "\n"))
      return 0
  | .ok .help => do
      usageLines.forM fun line => Program.ask (.print (line ++ "\n"))
      return 0
  | .ok (.run options command) =>
      Procedure.exitCode do
        command.run options.verbosity (← loadConfiguration options.configuration)

end CommandLine
end DeepShadow
