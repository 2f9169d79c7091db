import DeepShadow.Texture.Word

/-!
# Files under construction

A file grows at its end, and parts of what was written can be written over later.
-/

namespace DeepShadow
namespace Texture

/-- A file under construction, as the pieces written to it, the last one
first. -/
structure OutputFile where
  pieces : List (List UInt8)
deriving DecidableEq, Repr

namespace OutputFile

/-- The bytes of the file. -/
def contents (file : OutputFile) : List UInt8 := file.pieces.reverse.flatten

/-- The file with some bytes. -/
def ofBytes (bytes : List UInt8) : OutputFile := ⟨[bytes]⟩

/-- Writes bytes behind the end. -/
def append (file : OutputFile) (bytes : List UInt8) : OutputFile := ⟨bytes :: file.pieces⟩

/-- Writes bytes over those that start at a place. -/
def overwrite (file : OutputFile) (place : Nat) (bytes : List UInt8) : OutputFile :=
  let old := file.contents
  ofBytes (old.take place ++ bytes ++ old.drop (place + bytes.length))

/-- Writes a word over the bytes that start at a place. -/
def overwriteWord (file : OutputFile) (place : Nat) (word : UInt32) : OutputFile :=
  file.overwrite place (wordBytes word)

@[simp] theorem contents_ofBytes (bytes : List UInt8) : (ofBytes bytes).contents = bytes := by
  simp [contents, ofBytes]

@[simp] theorem contents_append
    (file : OutputFile)
    (bytes : List UInt8) :
    (file.append bytes).contents = file.contents ++ bytes := by
  simp [contents, append]

@[simp] theorem contents_overwrite
    (file : OutputFile)
    (place : Nat)
    (bytes : List UInt8) :
    (file.overwrite place bytes).contents =
      file.contents.take place ++ bytes ++ file.contents.drop (place + bytes.length) := by
  simp [overwrite]

end OutputFile
end Texture
end DeepShadow
