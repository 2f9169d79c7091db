import DeepShadow.Assembly.Assembler

/-!
# Assembling with words

An assembly that counts the values of a region in words of 64 bits keeps of each product and
sum what a word holds.  As long as words hold the number of values that the curves of a region
need, it does what the assembly does that counts without a bound.  A region whose curves need
more values is not told from one that needs the remainder.
-/

namespace DeepShadow
namespace Assembly

/-- What a word holds of a number. -/
def inWord (count : Nat) : Nat := count % 0x10000000000000000

namespace Strip

/-- Cuts the curves of `rows` rows of pixels into strips, of which the first one starts with
the value with the number `start`. -/
def cutInWords
    (width stride : Nat)
    (values : List Single) :
    (rows : Nat) -> (lengths : List Nat) -> (start : Nat) -> Except Violation (List Strip)
  | 0, _, _ => .ok []
  | rows + 1, lengths, start => do
      let first := lengths.take width
      let stop := inWord (start + Region.nodeTotal first * stride)
      if stop < start ∨ values.length < stop then
        throw .outOfBounds
      let others ← cutInWords width stride values rows (lengths.drop width) stop
      return .curves first ((values.take stop).drop start) :: others

/-- The strips of a region, from top to bottom. -/
def ofRegionInWords (region : Region) : Except Violation (List Strip) :=
  match region.lengths with
  | none => .ok (List.replicate region.bounds.height (.unoccluded region.bounds.width))
  | some lengths =>
      cutInWords region.bounds.width (region.channels + 1) region.values region.bounds.height
        lengths 0

end Strip

namespace Assembler

/-- Checks a region without regard to those that have arrived before it. -/
def checkInWords
    (assembler : Assembler State Summary)
    (region : Region) : Except RegionError Unit :=
  assembler.checkBy inWord region

/-- Puts the strips of a region into the tile that owns them, unless the region
has to be refused.  Gives the number of the tile with its strips. -/
def fillInWords
    (assembler : Assembler State Summary)
    (region : Region) :
    Except Violation (Except RegionError (Fin assembler.grid.tileCount × PendingTile)) :=
  match assembler.checkInWords region >>= fun _ => assembler.find region with
  | .error error => .ok (.error error)
  | .ok place => do
      let strips ← Strip.ofRegionInWords region
      return .ok (place.fill strips)

/-- Takes a region. -/
def submitInWords
    (sink : Sink State Summary)
    (assembler : Assembler State Summary)
    (region : Region) :
    Traced (Except Violation (Except Error Unit × Assembler State Summary)) := do
  match assembler.fillInWords region with
  | .error violation => return .error violation
  | .ok (.error error) => return .ok (.error (.region error), assembler)
  | .ok (.ok (index, tile)) => assembler.take sink region.bounds index tile

end Assembler
end Assembly
end DeepShadow
