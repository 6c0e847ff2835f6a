/-
Base address registers.

A device says through its BARs where its windows lie and how long they are.
-/
import Igd.Addressing

namespace Igd

/-- A window of a device. -/
structure Bar where
  start : PhysAddr
  length : UInt64
  deriving DecidableEq, Repr

/-- What a BAR that is not assigned reads as. -/
def Bar.unassigned : Bar := ⟨⟨0⟩, 0⟩

/-- The windows of a device, by index. -/
structure BarTable where
  bars : List Bar
  deriving DecidableEq, Repr

/-- The BAR with an index. -/
def BarTable.bar (t : BarTable) (index : Nat) : Bar := t.bars.getD index .unassigned

end Igd
