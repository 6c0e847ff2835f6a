/-
DMA buffers.

A buffer lies in memory that the processor and the device both see, each at an
address of its own.
-/
import Igd.Addressing

namespace Igd

/-- Memory handed out for DMA. -/
structure DmaBuffer where
  /-- Where the processor sees it. -/
  vaddr : VirtAddr
  /-- Where the device sees it. -/
  bus : PhysAddr
  /-- The number of bytes asked for. -/
  size : Nat
  /-- The alignment asked for. -/
  align : Nat
  deriving DecidableEq, Repr

/-- A buffer with its fields. -/
def DmaBuffer.describe (b : DmaBuffer) : String :=
  Text.record "DmaBuffer"
    [("vaddr", b.vaddr.describe), ("bus_addr", b.bus.describe), ("size", toString b.size),
      ("align", toString b.align)]

end Igd
