import DeepShadow.Log
import DeepShadow.Violation

/-!
# Queries

A query answers from a state that it may change on the way, such as the tiles
held in a cache, and reports what it does.
-/

namespace DeepShadow

/-- A computation that reads and changes a state, reports lines, and may find a
broken contract. -/
abbrev Query (State α : Type) := StateT State (ExceptT Violation Traced) α

namespace Query

/-- The answer of a query on a state, with the state that it leaves. -/
def answer (query : Query State α) (state : State) : Traced (Except Violation (α × State)) :=
  (query.run state).run

/-- Reports lines. -/
def report (lines : List LogLine) : Query State Unit :=
  liftM (Traced.report lines)

/-- The value of a computation that keeps its contracts. -/
def require (result : Except Violation α) : Query State α :=
  match result with
  | .ok value => pure value
  | .error violation => throw violation

end Query
end DeepShadow
