/-!
# Scanning text

A scan takes characters from the front of a text and gives a value, or fails.
Loops of scans are bounded by the number of characters that are left, because
each round takes at least one.
-/

namespace DeepShadow
namespace Toml

/-- A scan of the characters that are left. -/
abbrev Scan := StateT (List Char) Option

namespace Scan

/-- The next character, which is not taken. -/
def peek? : Scan (Option Char) := return (← get).head?

/-- Takes the next character. -/
def next : Scan Char := fun
  | [] => none
  | char :: rest => some (char, rest)

/-- Takes the characters of a text. -/
def expect (text : String) : Scan Unit := fun chars =>
  if text.toList.isPrefixOf chars then some ((), chars.drop text.length) else none

/-- Takes the characters of a text where they come next, and tells whether they
did. -/
def accept (text : String) : Scan Bool := fun chars =>
  if text.toList.isPrefixOf chars then some (true, chars.drop text.length)
  else some (false, chars)

/-- Takes the characters that satisfy a condition. -/
def span (condition : Char -> Bool) : Scan (List Char) := fun chars =>
  some (chars.takeWhile condition, chars.dropWhile condition)

/-- Takes the characters that satisfy a condition, of which there must be one. -/
def spanSome (condition : Char -> Bool) : Scan (List Char) := do
  let taken ← span condition
  if taken.isEmpty then failure
  return taken

/-- Repeats a step until it says that it is the last one, at most `count`
times. -/
def repeatUpTo (step : State -> Scan (State × Bool)) : Nat -> State -> Scan State
  | 0, _ => failure
  | count + 1, state => do
      let (state, last) ← step state
      if last then return state else repeatUpTo step count state

/-- Repeats a step until it says that it is the last one.  Each step but the last
has to take a character. -/
def repeatUntil (step : State -> Scan (State × Bool)) (state : State) : Scan State := do
  repeatUpTo step ((← get).length + 1) state

end Scan
end Toml
end DeepShadow
