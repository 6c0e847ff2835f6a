/-
What a write of a register asks.

A register that lies inside the window is written by one store, which is not a call of a
service.  One that does not is not written at all.
-/
import Igd.Platform.Registers
import Igd.Proofs.Run

namespace Igd.RegisterWindow

open Program

/-- The requests that a store of a register makes, if the window reaches that far. -/
def stores (w : RegisterWindow) (register value : UInt32) : List Request :=
  (w.address? register).toList.map fun address => .store32 address value

theorem filter_stores (w : RegisterWindow) (register value : UInt32) :
    (w.stores register value).filter Request.isCall = [] := by
  unfold stores
  cases w.address? register <;> rfl

theorem write_returns (w : RegisterWindow) (register value : UInt32) :
    (w.write register value).Returns fun t _ => requests t = w.stores register value := by
  unfold write stores
  cases w.address? register <;> simp [requests]

theorem write_calls (w : RegisterWindow) (register value : UInt32) :
    (w.write register value).Returns fun t _ => calls t = [] := by
  unfold write
  cases w.address? register <;> simp [Request.isCall]

end Igd.RegisterWindow
