import DeepShadow.Assembly.PendingTile
import DeepShadow.Texture.Writer

/-!
# Sinks

A sink takes the tiles of an image as they are completed, and is finished when
all of them have been taken.  Both can fail.  The usual sink is the writer of a
deep texture.
-/

namespace DeepShadow
namespace Assembly

/-- What the assembly does with tiles, on a state of its own. -/
structure Sink (State Summary : Type) where
  accept : State -> AssembledTile -> Traced (Except Texture.WriteError Unit × State)
  finish : State -> Traced (Except Texture.WriteError Summary × State)

namespace Sink

/-- The sink that writes a deep texture. -/
def writer : Sink Texture.Writer Texture.Summary where
  accept
    | writer, .stored tile => writer.submitTile tile
    | writer, .neglectable position => writer.submitNeglectable position
  finish := Texture.Writer.finish

end Sink

/-- A record of the calls that a sink has received. -/
structure Recording where
  /-- The tiles that were taken, the last one first. -/
  tiles : List AssembledTile
  /-- The number of tiles offered. -/
  offered : Nat
  /-- The number of attempts to finish. -/
  finishes : Nat
deriving DecidableEq, Repr

namespace Recording

/-- The record without calls. -/
def empty : Recording := ⟨[], 0, 0⟩

/-- The sink that records its calls.  It refuses the tile with the number
`refused`, counted from one, and fails to finish where this is asked for. -/
def sink (refused : Option Nat) (failsToFinish : Bool) : Sink Recording Nat where
  accept recording tile :=
    let offered := recording.offered + 1
    if refused = some offered then
      return (.error (.duplicate tile.position), { recording with offered })
    else
      return (.ok (), { recording with tiles := tile :: recording.tiles, offered })
  finish recording :=
    let finished := { recording with finishes := recording.finishes + 1 }
    if failsToFinish then return (.error .fileTooLarge, finished)
    else return (.ok recording.offered, finished)

end Recording
end Assembly
end DeepShadow
