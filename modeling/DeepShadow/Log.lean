/-!
# Log lines

What the library does is reported in lines, each from one of its components and
at one level.  A computation that reports is a `Traced` value: its value with the
lines in the order in which they were written.  The value of a sequence of
computations does not depend on the lines.
-/

namespace DeepShadow

/-- How much a line matters. -/
inductive LogLevel
  | error
  | warning
  | info
  | debug
deriving DecidableEq, Repr

/-- The part of the library that a line comes from. -/
inductive Component
  /-- Reading and writing of deep textures. -/
  | texture
  /-- Assembly, caching and lookup of tiles. -/
  | tiles
  /-- The output session. -/
  | output
  /-- The command line. -/
  | command
deriving DecidableEq, Repr

/-- One line of the log. -/
structure LogLine where
  component : Component
  level : LogLevel
  text : String
deriving DecidableEq, Repr

namespace LogLevel

/-- The number of times that more output has to be asked for until lines of the
level are shown. -/
def verbosity : LogLevel -> Nat
  | error => 0
  | warning => 0
  | info => 1
  | debug => 2

end LogLevel

namespace Component

/-- The name shown in brackets. -/
def label : Component -> String
  | texture => "dtex"
  | tiles => "tiles"
  | output => "engine"
  | command => "umbra"

end Component

namespace LogLine

/-- The line as it is shown. -/
def render (line : LogLine) : String :=
  let mark := match line.level with
    | .error => "error: "
    | .warning => "warning: "
    | .info => ""
    | .debug => ""
  s!"[{line.component.label}] {mark}{line.text}"

end LogLine

/-- A value with the lines reported on the way to it. -/
structure Traced (α : Type) where
  value : α
  lines : List LogLine
deriving Repr

namespace Traced

/-- Reports one line. -/
def say (component : Component) (level : LogLevel) (text : String) : Traced Unit :=
  ⟨(), [⟨component, level, text⟩]⟩

/-- Reports several lines. -/
def report (lines : List LogLine) : Traced Unit := ⟨(), lines⟩

instance : Monad Traced where
  pure value := ⟨value, []⟩
  bind first next :=
    let second := next first.value
    ⟨second.value, first.lines ++ second.lines⟩

@[simp] theorem value_pure (value : α) : (pure value : Traced α).value = value := rfl

@[simp] theorem value_bind
    (first : Traced α)
    (next : α -> Traced β) :
    (first >>= next).value = (next first.value).value := rfl

@[simp] theorem value_map
    (function : α -> β)
    (traced : Traced α) :
    (function <$> traced).value = function traced.value := rfl

@[simp] theorem lines_pure (value : α) : (pure value : Traced α).lines = [] := rfl

@[simp] theorem lines_bind
    (first : Traced α)
    (next : α -> Traced β) :
    (first >>= next).lines = first.lines ++ (next first.value).lines := rfl

end Traced
end DeepShadow
