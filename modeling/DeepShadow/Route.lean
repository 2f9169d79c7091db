/-!
# Paths

A path lists names with slashes between them.  It leads from the root, where a
slash stands in front, and else from the working directory, from name to name;
the name `.` stays where it is, and `..` leads back.
-/

namespace DeepShadow

/-- What a path says. -/
structure Route where
  /-- Whether the path leads from the root. -/
  absolute : Bool
  names : List String
  /-- Whether a slash stands behind the last name. -/
  slashed : Bool
deriving DecidableEq, Repr

namespace Route

/-- Reads a path.  Several slashes count as one. -/
def ofPath (path : String) : Route :=
  { absolute := path.startsWith "/"
    names := (path.splitOn "/").filter (· != "")
    slashed := path.endsWith "/" }

/-- Whether the last name is the name of something, and not one of the names that
stay or lead back. -/
def endsInName (route : Route) : Bool :=
  match route.names.getLast? with
  | some name => name != "." && name != ".."
  | none => false

/-- The directories around what a path leads to, from the innermost one
outwards. -/
def directoriesAround (route : Route) : List String :=
  let names := route.names.filter (· != ".")
  let root := if route.absolute then "/" else ""
  (List.range names.length).tail.reverse.map fun count =>
    root ++ "/".intercalate (names.take count)

end Route
end DeepShadow
