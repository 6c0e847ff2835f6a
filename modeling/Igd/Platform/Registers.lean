/-
The window of control registers.

Registers are 32-bit words at multiples of four.  A register is reached only if
all of it lies inside the window; elsewhere a read gives all ones, as the bus
does when nobody answers, and a write is dropped.  Either is logged.
-/
import Igd.Platform.Program

namespace Igd

/-- A mapping of the control registers. -/
structure RegisterWindow where
  mapping : IoMapping
  deriving DecidableEq, Repr

namespace RegisterWindow

/-- The control register of the primary ring buffer. -/
def ringControl : UInt32 := 0x203c

/-- The register that holds the address of the status page. -/
def statusPageAddress : UInt32 := 0x2080

/-- What the status page register holds when the device uses no page. -/
def noStatusPage : UInt32 := 0x1ffff000

/-- The number of bytes in the window. -/
def length (w : RegisterWindow) : Nat := w.mapping.length

/-- Where a register is, if all of it lies inside the window. -/
def address? (w : RegisterWindow) (register : UInt32) : Option VirtAddr :=
  let offset := register.toNat
  if offset % 4 = 0 ∧ offset + 4 ≤ w.length then some (w.mapping.virt.add offset) else none

/-- Read a register. -/
def read (w : RegisterWindow) (register : UInt32) : Program UInt32 :=
  match w.address? register with
  | some address => Program.request (.load32 address)
  | none => do
    Program.log (.readOutside register)
    return 0xffffffff

/-- Write a register. -/
def write (w : RegisterWindow) (register value : UInt32) : Program Unit :=
  match w.address? register with
  | some address => Program.request (.store32 address value)
  | none => Program.log (.writeOutside register)

/-- A window with its mapping. -/
def describe (w : RegisterWindow) : String :=
  Text.record "Mmio" [("mapping", w.mapping.describe)]

end RegisterWindow

end Igd
