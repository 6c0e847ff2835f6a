/-
A first-fit heap.

The heap keeps its free memory as holes in ascending order.  A hole carries its
own header, so none is ever smaller than a header, and every size and address is
a multiple of eight.  A block goes into the first hole where it fits at its
alignment without leaving a fragment too small to be a hole.
-/
import Igd.Addressing
import Igd.Extents

namespace Igd.Dma

/-- The number of bytes in the header of a hole, and so the least size of one. -/
def headerSize : Nat := 16

/-- The unit of sizes and addresses in a heap. -/
def granule : Nat := 8

/-- The least multiple of `unit` at or above `n`. -/
def roundUp (n unit : Nat) : Nat := (n + (unit - 1)) / unit * unit

/-- A size and an alignment that can be asked for: the alignment is a power of
two, and the size rounded up to it stays below half the address space. -/
def isLayout (size align : Nat) : Bool :=
  isPowerOfTwo align && decide (size + align ≤ signedCount)

/-- The bytes a heap uses for a request of `size`. -/
def blockSize (size : Nat) : Nat := roundUp (max size headerSize) granule

/-- Free memory, and how much has been handed out. -/
structure Heap where
  holes : List Extent
  used : Nat
  deriving DecidableEq, Repr

namespace Heap

/-- A heap over `size` bytes from `bottom`: one hole between the bounds, each
moved inwards to the granule. -/
def ofRange (bottom size : Nat) : Checked Heap :=
  let start := roundUp bottom granule
  let usable := (size - (start - bottom)) / granule * granule
  if size < headerSize then .error .heapTooSmall
  else if usable < headerSize then .error .alignedHeapTooSmall
  else .ok ⟨[⟨start, start + usable⟩], 0⟩

/-- The address in a hole for a block of `size` bytes at a multiple of `align`.
What is left in front of it and behind it is nothing or a whole hole. -/
def place (size align : Nat) (hole : Extent) : Option Nat :=
  let start :=
    if hole.start % align = 0 then hole.start else roundUp (hole.start + headerSize) align
  let stop := start + size
  if stop ≤ hole.stop ∧ (hole.stop = stop ∨ stop + headerSize ≤ hole.stop) then some start
  else none

/-- The holes left on either side of a block. -/
def sides (fit : Extents.Fit) (size : Nat) : List Extent :=
  (fit.sides size).filter fun e => decide (e.start < e.stop)

/-- Take a block for a request of `size` bytes at a multiple of `align`. -/
def allocate? (h : Heap) (size align : Nat) : Option (Nat × Heap) :=
  let block := blockSize size
  if isLayout block align then
    (Extents.firstFit (place block align) h.holes).map fun fit =>
      (fit.start, ⟨fit.before ++ sides fit block ++ fit.after, h.used + block⟩)
  else none

/-- Put back the block at `start` that was taken for a request of `size` bytes. -/
def deallocate (h : Heap) (start size : Nat) : Heap :=
  let block := blockSize size
  ⟨Extents.insert ⟨start, start + block⟩ h.holes, h.used - block⟩

end Heap

end Igd.Dma
