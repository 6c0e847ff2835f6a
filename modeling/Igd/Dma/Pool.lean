/-
A pool of DMA memory.

The pool is one range of memory that the device sees at a fixed distance from
where the processor sees it.  Buffers come from a heap over the range.  The limit
that a request puts on bus addresses is tested on the block the heap chose; a
block above it goes straight back.
-/
import Igd.Dma.Buffer
import Igd.Dma.Heap
import Igd.Notice

namespace Igd.Dma

/-- A range of memory, its two addresses, and the heap over it. -/
structure Pool where
  heap : Heap
  base : VirtAddr
  bus : PhysAddr
  size : Nat
  deriving DecidableEq, Repr

namespace Pool

/-- A pool with nothing handed out. -/
def ofRange (base : VirtAddr) (bus : PhysAddr) (size : Nat) : Checked Pool := do
  return ⟨← Heap.ofRange base.toNat size, base, bus, size⟩

/-- The number of bytes handed out, as the heap counts them. -/
def used (p : Pool) : Nat := p.heap.used

/-- The bus address of a place in the pool. -/
def busOf (p : Pool) (vaddr : VirtAddr) : Checked PhysAddr := do
  p.bus.add (← Checked.sub vaddr.toNat p.base.toNat)

/-- The last byte of a buffer is at or below `limit` on the bus. -/
def withinLimit (bus : PhysAddr) (size limit : Nat) : Bool :=
  let last := bus.toNat + (size - 1)
  decide (last < wordCount) && decide (last ≤ limit)

/-- Hand out `size` bytes at a multiple of `align`, if that is possible with every
byte at or below `limit` on the bus. -/
def allocate (p : Pool) (size align limit : Nat) :
    Checked (Option DmaBuffer × Pool × Option Notice) :=
  if size = 0 ∨ ¬ isLayout size align then return (none, p, none)
  else
    match p.heap.allocate? size align with
    | none => return (none, p, none)
    | some (start, heap) => do
      let vaddr : VirtAddr := ⟨.ofNat start⟩
      let bus ← p.busOf vaddr
      if withinLimit bus size limit then
        return (some ⟨vaddr, bus, size, align⟩, { p with heap }, none)
      else
        return (none, { p with heap := heap.deallocate start size },
          some (.aboveLimit size bus limit))

/-- A buffer lies inside the pool. -/
def contains (p : Pool) (b : DmaBuffer) : Checked Bool :=
  let start := b.vaddr.toNat
  if start < p.base.toNat ∨ b.vaddr.isNull ∨ wordCount ≤ start + b.size then return false
  else do
    let stop ← Checked.add p.base.toNat p.size
    return decide (start + b.size ≤ stop)

/-- Take a buffer back.  One that does not lie inside the pool is refused with a
message. -/
def free (p : Pool) (b : DmaBuffer) :
    Checked (Except ServiceError Unit × Pool × Option Notice) := do
  if ← p.contains b then
    if isLayout b.size b.align then
      return (.ok (), { p with heap := p.heap.deallocate b.vaddr.toNat b.size }, none)
    else return (.error .invalid, p, none)
  else return (.error .invalid, p, some (.foreignBuffer b.vaddr))

end Pool

end Igd.Dma
