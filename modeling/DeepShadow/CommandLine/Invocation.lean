import DeepShadow.CommandLine.Option

/-!
# Invocations

What a command line asks for: a command with its operands and options, or the
version, or help.  Options that concern every command may stand in front of the
name of the command or behind it; behind it they count more.
-/

namespace DeepShadow
namespace CommandLine

/-- The name of a command. -/
inductive CommandName
  | info
  | lookup
  | slices
  | demo
deriving DecidableEq, Repr

/-- A command with all that it needs. -/
inductive Command
  /-- Describes a file. -/
  | info (file : String) (asJson withTable : Bool)
  /-- Shows the visibility of a pixel at a depth. -/
  | lookup (file : String) (x y : UInt32) (depth : Single)
  /-- Writes pictures of the map at evenly spaced depths. -/
  | slices (file : String) (count : UInt32) (directory : String)
  /-- Renders the demonstration scene into a new file. -/
  | demo (file : String) (width height channels : UInt32) (producers : Nat)
deriving DecidableEq, Repr

/-- What concerns every command. -/
structure Options where
  /-- The path of the configuration file. -/
  configuration : Option String
  /-- How often more output was asked for. -/
  verbosity : Nat
deriving DecidableEq, Repr

/-- What a command line asks for. -/
inductive Invocation
  | version
  | help
  | run (options : Options) (command : Command)
deriving DecidableEq, Repr

/-! ## The options of each command -/

/-- The option that names the configuration file. -/
def configurationRule : OptionRule := ⟨"config", none, some .path, false⟩

/-- The option that asks for more output. -/
def verboseRule : OptionRule := ⟨"verbose", some 'v', none, true⟩

/-- The option that asks for help. -/
def helpRule : OptionRule := ⟨"help", some 'h', none, false⟩

/-- The option that asks for the version. -/
def versionRule : OptionRule := ⟨"version", some 'V', none, false⟩

/-- The options in front of the name of the command. -/
def outerRules : List OptionRule := [configurationRule, verboseRule, helpRule, versionRule]

namespace CommandName

/-- The command with a name. -/
def ofText? : String -> Option CommandName
  | "info" => some info
  | "lookup" => some lookup
  | "slices" => some slices
  | "demo" => some demo
  | _ => none

/-- What the operands of a command have to be. -/
def operands : CommandName -> List ValueKind
  | info => [.path]
  | lookup => [.path, .size, .size, .depth]
  | slices => [.path]
  | demo => [.path]

/-- The options of a command alone. -/
def ownRules : CommandName -> List OptionRule
  | info => [⟨"json", none, none, false⟩, ⟨"table", none, none, false⟩]
  | lookup => []
  | slices => [⟨"count", none, some .size, false⟩, ⟨"out", some 'o', some .path, false⟩]
  | demo =>
      [ ⟨"width", none, some .size, false⟩
      , ⟨"height", none, some .size, false⟩
      , ⟨"channels", none, some .size, false⟩
      , ⟨"producers", none, some .count, false⟩ ]

/-- The options behind the name of a command. -/
def rules (name : CommandName) : List OptionRule :=
  [configurationRule, verboseRule, helpRule] ++ name.ownRules

end CommandName

/-! ## Reading words -/

/-- The options of one place: in front of the name of the command, or behind
it. -/
structure GivenOptions where
  flags : List OptionRule
  settings : List (OptionRule × String)
deriving DecidableEq, Repr

namespace GivenOptions

/-- No options. -/
def empty : GivenOptions := ⟨[], []⟩

/-- The number of times that a flag was given. -/
def count (given : GivenOptions) (name : String) : Nat :=
  given.flags.countP fun rule => rule.name == name

/-- The value that an option was given. -/
def setting? (given : GivenOptions) (name : String) : Option String :=
  (given.settings.find? fun (rule, _) => rule.name == name).map Prod.snd

end GivenOptions

/-- What was read of a command line. -/
structure Draft where
  outer : GivenOptions
  command : Option CommandName
  inner : GivenOptions
  operands : List String
deriving DecidableEq, Repr

/-- Why no further word is read. -/
inductive Stop
  | version
  | help
  | error (error : UsageError)
deriving DecidableEq, Repr

namespace Draft

/-- Nothing was read yet. -/
def empty : Draft := ⟨.empty, none, .empty, []⟩

/-- The options that may be given now. -/
def rules (draft : Draft) : List OptionRule :=
  match draft.command with
  | none => outerRules
  | some name => name.rules

/-- The options given in the place that is read now. -/
def given (draft : Draft) : GivenOptions :=
  match draft.command with
  | none => draft.outer
  | some _ => draft.inner

/-- Replaces the options given in the place that is read now. -/
def withGiven (draft : Draft) (given : GivenOptions) : Draft :=
  match draft.command with
  | none => { draft with outer := given }
  | some _ => { draft with inner := given }

/-- Takes a flag. -/
def takeFlag (draft : Draft) (rule : OptionRule) : Except Stop Draft :=
  let given := draft.given
  if rule = versionRule then .error .version
  else if rule = helpRule then .error .help
  else if !rule.repeatable && given.flags.contains rule then
    .error (.error (.repeatedOption rule.name))
  else .ok (draft.withGiven { given with flags := rule :: given.flags })

/-- Takes the value of an option. -/
def takeSetting
    (draft : Draft)
    (rule : OptionRule)
    (value : String) : Except Stop Draft :=
  let given := draft.given
  if (given.setting? rule.name).isSome then .error (.error (.repeatedOption rule.name))
  else if rule.value.all fun kind => kind.admits value then
    .ok (draft.withGiven { given with settings := (rule, value) :: given.settings })
  else .error (.error (.badValue value))

/-- Takes an operand.  The first one is the name of the command. -/
def takeOperand (draft : Draft) (text : String) : Except Stop Draft :=
  match draft.command with
  | none =>
      match CommandName.ofText? text with
      | some name => .ok { draft with command := some name }
      | none => .error (.error (.unknownCommand text))
  | some name =>
      match name.operands[draft.operands.length]? with
      | none => .error (.error (.unexpectedOperand text))
      | some kind =>
          if kind.admits text then .ok { draft with operands := draft.operands ++ [text] }
          else .error (.error (.badValue text))

/-- Takes a piece of a word. -/
def take (draft : Draft) : Piece -> Except Stop Draft
  | .flag rule => draft.takeFlag rule
  | .setting rule value => draft.takeSetting rule value
  | .operand text => draft.takeOperand text
  | .malformed error => .error (.error error)

/-- Takes words behind two hyphens.  None of them can be the name of the
command. -/
def takeOperands (draft : Draft) (words : List String) : Except Stop Draft :=
  match draft.command, words with
  | none, word :: _ => .error (.error (.unexpectedOperand word))
  | _, _ => words.foldlM takeOperand draft

/-- The words behind the command `help`, which may name another command. -/
def takeHelp : List String -> Stop
  | [] => .help
  | [word] =>
      if (CommandName.ofText? word).isSome || word == "help" then .help
      else .error (.unknownCommand word)
  | _ :: word :: _ => .error (.unknownCommand word)

/-- Takes words, the first of which may be the value that an option waits for. -/
def takeWords (draft : Draft) : (waiting : Option OptionRule) -> List String -> Except Stop Draft
  | none, [] => .ok draft
  | some rule, [] => .error (.error (.missingValue rule.name))
  | some rule, word :: words =>
      if looksLikeOption word then .error (.error (.missingValue rule.name))
      else
        match draft.takeSetting rule word with
        | .error stop => .error stop
        | .ok draft => draft.takeWords none words
  | none, word :: words =>
      if word = "--" then draft.takeOperands words
      else if draft.command.isNone && word == "help" then .error (takeHelp words)
      else
        let (pieces, waiting) := scanWord draft.rules word
        match pieces.foldlM take draft with
        | .error stop => .error stop
        | .ok draft => draft.takeWords waiting words

/-! ## What was asked for -/

/-- What concerns every command.  A path or a verbosity given behind the name of
the command replaces the one in front of it. -/
def options (draft : Draft) : Options :=
  let verbosity := draft.inner.count "verbose"
  { configuration := (draft.inner.setting? "config").or (draft.outer.setting? "config")
    verbosity := if verbosity = 0 then draft.outer.count "verbose" else verbosity }

/-- The size given for an option. -/
def size? (draft : Draft) (name : String) (default : UInt32) : Option UInt32 :=
  match draft.inner.setting? name with
  | some text => readSize? text
  | none => some default

/-- The count given for an option. -/
def count? (draft : Draft) (name : String) (default : Nat) : Option Nat :=
  match draft.inner.setting? name with
  | some text => readCount? text
  | none => some default

/-- The command, where no operand is missing. -/
def command? (draft : Draft) (name : CommandName) : Option Command :=
  match name, draft.operands with
  | .info, [file] =>
      some (.info file (draft.inner.count "json" != 0) (draft.inner.count "table" != 0))
  | .lookup, [file, x, y, depth] => do
      return .lookup file (← readSize? x) (← readSize? y) (← Single.ofText? depth)
  | .slices, [file] => do
      return .slices file (← draft.size? "count" 20) ((draft.inner.setting? "out").getD "slices")
  | .demo, [file] => do
      return .demo file (← draft.size? "width" 256) (← draft.size? "height" 256)
        (← draft.size? "channels" 3) (← draft.count? "producers" 4)
  | _, _ => none

end Draft

/-- What the words of a command line ask for. -/
def Invocation.ofWords (words : List String) : Except UsageError Invocation :=
  match Draft.empty.takeWords none words with
  | .error .version => .ok .version
  | .error .help => .ok .help
  | .error (.error error) => .error error
  | .ok draft =>
      match draft.command with
      | none => .error .missingCommand
      | some name =>
          match draft.command? name with
          | some command => .ok (.run draft.options command)
          | none => .error .missingOperand

end CommandLine
end DeepShadow
