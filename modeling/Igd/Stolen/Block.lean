/-
Blocks of stolen memory.

Stolen memory is the part of the machine's memory that the firmware sets aside
for graphics.  A block of it is named by its offset from the start of that part,
which is not an address.
-/
import Igd.Fault

namespace Igd.Stolen

/-- A block carved out of stolen memory. -/
structure Block where
  /-- The offset of the first byte. -/
  base : Nat
  /-- The number of bytes. -/
  length : Nat
  deriving DecidableEq, Repr

/-- The offset after the last byte of a block. -/
def Block.stop (b : Block) : Checked Nat := Checked.add b.base b.length

/-- Why a block was not carved. -/
inductive AllocError
  /-- No free extent has room for the size at the alignment. -/
  | outOfSpace
  /-- The size is zero, or the alignment is not a power of two. -/
  | invalidRequest
  deriving DecidableEq, Repr

namespace AllocError

/-- The name of the error. -/
def describe : AllocError → String
  | .outOfSpace => "OutOfSpace"
  | .invalidRequest => "InvalidRequest"

/-- The error in words. -/
def message : AllocError → String
  | .outOfSpace => "no free stolen memory available"
  | .invalidRequest => "invalid size or alignment"

end AllocError

end Igd.Stolen
