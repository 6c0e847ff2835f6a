/-
The allocator of stolen memory.

It carves blocks from the first free extent that has room at the wanted
alignment, and takes them back in any order.  A block that cannot have come from
here as things stand, because it overlaps free memory or reaches past the end,
is refused and reported, and nothing changes.  For the overlap only two free extents
are looked at, those between which the block would go.

Requests come as machine words, so every sum made from them is checked against
the size of a word: while searching, an extent whose rounded start or whose block
end would not fit is passed over; anywhere else such a sum is a fault.
-/
import Igd.Extents
import Igd.Notice

namespace Igd.Stolen

/-- What is free, and how much has been handed out. -/
structure Allocator where
  /-- The free extents, in ascending order. -/
  extents : List Extent
  /-- The number of bytes under management. -/
  length : Nat
  /-- The number of blocks carved and not yet given back. -/
  blocksOut : Nat
  deriving DecidableEq, Repr

namespace Allocator

/-- An allocator with nothing under management. -/
def empty : Allocator := ⟨[], 0, 0⟩

/-- An allocator of the offsets below `length`, all of them free. -/
def ofLength (length : Nat) : Allocator :=
  ⟨if 0 < length then [⟨0, length⟩] else [], length, 0⟩

/-- The offset in an extent for `size` bytes at a multiple of `mask + 1`. -/
def place (size mask : Nat) (e : Extent) : Option Nat :=
  match roundUp? mask e.start with
  | none => none
  | some start =>
    if start + size < wordCount ∧ start + size ≤ e.stop then some start else none

/-- Carve `size` bytes at a multiple of `align` from the first extent with room. -/
def allocate (a : Allocator) (size align : Nat) : Checked (Except AllocError Block × Allocator) :=
  if size = 0 ∨ ¬ isPowerOfTwo align then return (.error .invalidRequest, a)
  else do
    let mask ← Checked.sub align 1
    match Extents.firstFit (place size mask) a.extents with
    | none => return (.error .outOfSpace, a)
    | some fit =>
      let sides ← Extents.nonempty (fit.sides size)
      let blocksOut ← Checked.add a.blocksOut 1
      return (.ok ⟨fit.start, size⟩,
        { a with extents := fit.before ++ sides ++ fit.after, blocksOut })

/-- Give a block back, between the free extents that start below it and the others.
It is refused with a message if it overlaps the one it would follow or the one it would
precede, or if it reaches past the end. -/
def free (a : Allocator) (b : Block) : Checked (Allocator × Option Notice) := do
  let block : Extent := ⟨b.base, ← b.stop⟩
  let before := Extents.startingBelow block.start a.extents
  let after := Extents.startingFrom block.start a.extents
  if Extents.overlapsNeighbour before block after || decide (a.length < block.stop) then
    return (a, some (.foreignBlock block.start (← block.length)))
  else
    return ({ a with
      extents := Extents.splice before (Extents.joinFront block after)
      blocksOut := a.blocksOut - 1 }, none)

/-- Stop managing anything.  Blocks still out are reported and forgotten. -/
def close (a : Allocator) : Allocator × Option Notice :=
  (empty, if a.blocksOut = 0 then none else some (.blocksStillCarved a.blocksOut))

/-- Nothing is under management. -/
def isEmpty (a : Allocator) : Bool := a.length == 0

/-- The number of free bytes. -/
def available (a : Allocator) : Checked Nat := Extents.total a.extents

end Allocator

end Igd.Stolen
