/-!
# Refusals of the operating system

What the system answers when a file cannot be read or created, with the text and
number that it shows for it.
-/

namespace DeepShadow

/-- A refusal of the operating system. -/
inductive FileError
  | notFound
  | permissionDenied
  | exists
  | notDirectory
  | isDirectory
  | nameTooLong
  /-- A refusal of another kind, with its text. -/
  | other (text : String)
deriving DecidableEq, Repr

namespace FileError

/-- The text shown for a refusal. -/
def message : FileError -> String
  | notFound => "No such file or directory (os error 2)"
  | permissionDenied => "Permission denied (os error 13)"
  | .exists => "File exists (os error 17)"
  | notDirectory => "Not a directory (os error 20)"
  | isDirectory => "Is a directory (os error 21)"
  | nameTooLong => "File name too long (os error 36)"
  | other text => text

end FileError
end DeepShadow
