/-
Headers of holes.

A heap keeps the list of its holes in the holes themselves.  Each begins with two
64-bit words, its size and the address of the next hole or zero.  A hole that goes
away, because a block took its place or its neighbour took it in, leaves its size
behind and a zero next to it.
-/
import Igd.Dma.Heap
import Igd.Testbed.Memory

namespace Igd.Testbed.HoleHeader

/-- Write a header. -/
def write (start size next : Nat) (m : Memory) : Memory :=
  (m.store64 (.ofNat start) (.ofNat size)).store64 (.ofNat (start + 8)) (.ofNat next)

/-- Write the headers of the holes of a list. -/
def writeAll : List Extent → Memory → Memory
  | [], m => m
  | [hole], m => write hole.start (hole.stop - hole.start) 0 m
  | hole :: next :: rest, m =>
    writeAll (next :: rest) (write hole.start (hole.stop - hole.start) next.start m)

/-- Cut the headers of holes that are no longer there off the list, and write those
that are. -/
def relink (before after : List Extent) (m : Memory) : Memory :=
  let gone := before.filter fun hole => !after.any (·.start == hole.start)
  writeAll after (gone.foldl (fun m hole => m.store64 (.ofNat (hole.start + 8)) 0) m)

/-- What taking a block from a heap leaves in memory. -/
def afterAllocate (heap : Dma.Heap) (size align : Nat) (m : Memory) : Memory :=
  match heap.allocate? size align with
  | none => m
  | some (_, after) => relink heap.holes after.holes m

/-- What putting a block back leaves in memory: the block becomes a hole first, and
then joins its neighbours. -/
def afterDeallocate (heap : Dma.Heap) (start size : Nat) (m : Memory) : Memory :=
  relink heap.holes (heap.deallocate start size).holes (write start (Dma.blockSize size) 0 m)

/-- What taking a block and putting it straight back leaves in memory. -/
def afterRefusal (heap : Dma.Heap) (size align : Nat) (m : Memory) : Memory :=
  match heap.allocate? size align with
  | none => m
  | some (start, taken) =>
    afterDeallocate taken start size (relink heap.holes taken.holes m)

end Igd.Testbed.HoleHeader
