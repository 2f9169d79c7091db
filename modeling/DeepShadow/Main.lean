import DeepShadow.CommandLine.Run

/-!
# The command line of a computer

Runs the program on the files of the computer.
-/

namespace DeepShadow

namespace FileError

/-- The refusal behind an error of the system.  The number of the error may be
negated. -/
def ofSystemError : IO.Error -> FileError
  | .noFileOrDirectory .. => notFound
  | .permissionDenied .. => permissionDenied
  | .alreadyExists .. => .exists
  | error@(.inappropriateType _ code _) =>
      if code = 20 || 0 - code = 20 then notDirectory
      else if code = 21 || 0 - code = 21 then isDirectory
      else other (toString error)
  | error@(.invalidArgument _ code _) =>
      if code = 36 || 0 - code = 36 then nameTooLong else other (toString error)
  | error => other (toString error)

end FileError

namespace Request

/-- Carries out an operation that the system may refuse. -/
def attempt (operation : IO α) : IO (Except FileError α) := do
  try
    return .ok (← operation)
  catch error =>
    return .error (FileError.ofSystemError error)

/-- Whether a path leads to a directory. -/
def leadsToDirectory (path : String) : IO Bool := do
  return (← attempt (IO.FS.readBinFile path)) matches .error .isDirectory

/-- Carries out a request. -/
def perform : Request α -> IO α
  | .readFile path => attempt do
      return (← IO.FS.readBinFile path).toList
  | .createFile path => attempt do
      let _ ← IO.FS.Handle.mk path .writeNew
  | .writeFile path content => attempt do
      IO.FS.writeBinFile path ⟨content.toBytes.toArray⟩
  | .createDirectory path => attempt (IO.FS.createDir path)
  | .isDirectory path => leadsToDirectory path
  | .print text => do
      let output ← IO.getStdout
      output.putStr text
  | .complain text => do
      let output ← IO.getStderr
      output.putStr text

end Request

/-- Runs a program on the files of the computer. -/
def Program.perform : Program α -> IO α
  | .done value => return value
  | .step request next => do
      (next (← request.perform)).perform

end DeepShadow

/-- Runs the words of the command line, and exits with the code of the
program. -/
def main (words : List String) : IO UInt32 := do
  return UInt32.ofNat (← (DeepShadow.CommandLine.program words).perform)
