/-
Addresses.

A physical address is what a device puts on the bus, a virtual address what the
processor uses.  Both are 64-bit words, and neither is a number that may be
mixed with the other.  Moving a physical address past the end of its word is a
fault; a virtual address wraps.
-/
import Igd.Fault
import Igd.Text.Hex
import Igd.Text.Record

namespace Igd

/-- The size of a page in bytes. -/
def pageSize : Nat := 4096

/-- The bits of an address below its page. -/
def pageMask : Nat := pageSize - 1

/-- The bytes in a mebibyte. -/
def mebibyte : Nat := 1024 * 1024

/-- An address on the bus. -/
structure PhysAddr where
  val : UInt64
  deriving DecidableEq, Repr

/-- An address as the processor sees it. -/
structure VirtAddr where
  val : UInt64
  deriving DecidableEq, Repr

namespace PhysAddr

/-- The address as a number. -/
def toNat (a : PhysAddr) : Nat := a.val.toNat

/-- An address stands at the start of a page. -/
def isPageAligned (a : PhysAddr) : Bool := a.toNat &&& pageMask == 0

/-- The address `offset` bytes further on. -/
def add (a : PhysAddr) (offset : Nat) : Checked PhysAddr := do
  return ⟨.ofNat (← Checked.add a.toNat offset)⟩

/-- The address as a 32-bit register holds it, if it fits. -/
def register? (a : PhysAddr) : Option UInt32 :=
  if a.toNat < registerCount then some (.ofNat a.toNat) else none

/-- Sixteen hexadecimal digits. -/
def text (a : PhysAddr) : String := Text.hex 16 a.toNat

/-- The address with the name of its kind. -/
def describe (a : PhysAddr) : String := Text.applied "PhysAddr" [a.text]

end PhysAddr

namespace VirtAddr

/-- The address as a number. -/
def toNat (a : VirtAddr) : Nat := a.val.toNat

/-- An address stands at the start of a page. -/
def isPageAligned (a : VirtAddr) : Bool := a.toNat &&& pageMask == 0

/-- The address zero, which no mapping has. -/
def isNull (a : VirtAddr) : Bool := a.val == 0

/-- The address `offset` bytes further on, around the end of the word. -/
def add (a : VirtAddr) (offset : Nat) : VirtAddr := ⟨a.val + .ofNat offset⟩

/-- Sixteen hexadecimal digits. -/
def text (a : VirtAddr) : String := Text.hex 16 a.toNat

/-- The address with the name of its kind. -/
def describe (a : VirtAddr) : String := Text.applied "VirtAddr" [a.text]

end VirtAddr

/-! ### Alignment -/

/-- `n` is a power of two: it has one bit, and no other.  Zero is not, since one is
the least number with a bit. -/
def isPowerOfTwo (n : Nat) : Bool := 1 <<< n.log2 == n

/-- The word `value` rounded up by clearing the bits of `mask` in `value + mask`,
unless that sum leaves the word. -/
def roundUp? (mask value : Nat) : Option Nat :=
  if value + mask < wordCount then some (value + mask - ((value + mask) &&& mask)) else none

/-- The least multiple of `align` at or above `value`, for a power of two
`align`; nothing if it does not fit a word. -/
def roundUpTo (value align : Nat) : Checked (Option Nat) := do
  return roundUp? (← Checked.sub align 1) value

end Igd
