import DeepShadow.Assembly.Assembler

/-!
# Output sessions

A session owns a file and the assembly that feeds it.  Producers send regions;
the session ends when the image is complete, when a region is refused, or when a
producer asks for it.  What is sent afterwards is refused.  Whichever way a
session ends, its file is finished and can be read.
-/

namespace DeepShadow

/-- The assembly of a deep texture. -/
abbrev TextureAssembler := Assembly.Assembler Texture.Writer Texture.Summary

namespace Session

/-- What has to be known to start a session. -/
structure Settings where
  texture : Texture.Settings
  /-- The number of regions that may wait in the queue. -/
  capacity : Nat := 64
deriving DecidableEq, Repr

/-- What producers send. -/
inductive Message
  | region (region : Region)
  | finish
deriving DecidableEq, Repr

/-- Why a message is not taken. -/
inductive SendError
  | closed
deriving DecidableEq, Repr

/-- The text shown for an error. -/
def SendError.message : SendError -> String
  | closed => "output thread no longer accepts regions"

/-- What became of a complete image. -/
structure Report where
  regions : Nat
  summary : Texture.Summary
deriving DecidableEq, Repr

/-- Why there is no complete image. -/
inductive Error
  | assembly (error : Assembly.Error)
  /-- The producers are gone, and some tiles never arrived.  The file shows them
  as fully visible. -/
  | incomplete (missing : Nat) (summary : Option Texture.Summary)
deriving DecidableEq, Repr

namespace Error

/-- The text shown for an error. -/
def message : Error -> String
  | assembly error => error.message
  | incomplete missing _ => s!"output closed with {missing} tiles never completed"

/-- The texts of the errors behind this one. -/
def causes : Error -> List String
  | assembly error => error.message :: error.causes
  | incomplete _ _ => []

end Error

/-- How a session has come to take no more messages. -/
inductive Ending
  /-- The image is complete, or a producer asked for the end. -/
  | stopped
  | rejected (error : Assembly.Error)
deriving DecidableEq, Repr

end Session

/-- A session in which messages are taken one after the other. -/
structure Session where
  assembler : TextureAssembler
  /-- The number of regions received, the refused one included. -/
  regions : Nat
  ending : Option Session.Ending

namespace Session

/-- Starts a session, unless the system refuses to create the file. -/
def start
    (path : String)
    (settings : Settings)
    (refusal : Option FileError) :
    Traced (Except Violation (Except Texture.WriteError Session)) := do
  if settings.capacity = 0 then
    return .error .emptyQueue
  match ← Texture.Writer.create path settings.texture refusal with
  | .error error => return .ok (.error error)
  | .ok writer =>
      match Assembly.Assembler.start writer.grid settings.texture.bucketWidth.toNat
        settings.texture.bucketHeight.toNat writer.channels writer with
      | .error violation => return .error violation
      | .ok assembler => return .ok (.ok { assembler, regions := 0, ending := none })

/-- Why a message sent now would be refused. -/
def refusal? (session : Session) : Option SendError :=
  if session.ending.isSome then some .closed else none

/-- Ends a session because of a refused region.  The file is finished with what
has arrived. -/
def reject (session : Session) (error : Assembly.Error) : Traced Session := do
  Traced.say .output .error
    s!"rejecting output after region {session.regions}: {error.message}"
  let (result, assembler) ← session.assembler.close Assembly.Sink.writer
  if let .error closing := result then
    Traced.say .output .warning s!"could not finish file after error: {closing.message}"
  return { session with assembler, ending := some (.rejected error) }

/-- Receives a message; a session that has ended ignores it. -/
def receive (session : Session) (message : Message) : Traced (Except Violation Session) := do
  if session.ending.isSome then
    return .ok session
  match message with
  | .finish => return .ok { session with ending := some .stopped }
  | .region region =>
      match ← session.assembler.submit Assembly.Sink.writer region with
      | .error violation => return .error violation
      | .ok (result, assembler) =>
          let session := { session with assembler, regions := session.regions + 1 }
          match result with
          | .error error => return .ok (← session.reject error)
          | .ok () =>
              if assembler.isFinished then
                return .ok { session with ending := some .stopped }
              else
                return .ok session

/-- Receives several messages, one after the other. -/
def receiveAll (session : Session) : List Message -> Traced (Except Violation Session)
  | [] => return .ok session
  | message :: messages => do
      match ← session.receive message with
      | .error violation => return .error violation
      | .ok session => session.receiveAll messages

/-- The result of a session whose producers are gone. -/
def result (session : Session) : Traced (Except Error Report × TextureAssembler) := do
  match session.ending with
  | some (.rejected error) => return (.error (.assembly error), session.assembler)
  | _ =>
      match session.assembler.summary with
      | some summary =>
          Traced.say .output .info <|
            s!"output complete: {session.regions} regions, " ++
              s!"{summary.tilesWritten} tiles written, {summary.tilesElided} elided"
          return (.ok { regions := session.regions, summary }, session.assembler)
      | none =>
          let missing := session.assembler.missingCount
          Traced.say .output .warning s!"output closed early, {missing} tiles missing"
          match ← session.assembler.close Assembly.Sink.writer with
          | (.error error, assembler) => return (.error (.assembly error), assembler)
          | (.ok (), assembler) =>
              return (.error (.incomplete missing assembler.summary), assembler)

/-- Waits for the end of a session whose producers are gone, and gives its file
with the result. -/
def join (session : Session) : Traced (Except Error Report × Texture.Writer) := do
  let (result, assembler) ← session.result
  let writer ← assembler.sink.release
  return (result, writer)

end Session
end DeepShadow
