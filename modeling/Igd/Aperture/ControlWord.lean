/-
The graphics control word of the host bridge.

The firmware writes into it how much memory it set aside.  Bits 7 to 4 hold a
code for the amount, and on the oldest parts bit 0 selects the size of the
aperture.
-/
import Igd.Text.Hex
import Igd.Text.Record

namespace Igd

/-- Why no geometry was found. -/
inductive GeometryError
  /-- The host bridge could not be read. -/
  | bridgeUnavailable
  /-- The firmware set no memory aside. -/
  | disabled
  /-- The amount has a code outside the table. -/
  | unrecognized (code : UInt16)
  deriving DecidableEq, Repr

namespace GeometryError

/-- The name of the error, with the code it holds. -/
def describe : GeometryError → String
  | .bridgeUnavailable => "BridgeUnavailable"
  | .disabled => "Disabled"
  | .unrecognized code => Text.applied "Unrecognized" [toString code.toNat]

/-- The error in words. -/
def message : GeometryError → String
  | .bridgeUnavailable => "bridge device not found"
  | .disabled => "video memory is disabled"
  | .unrecognized code => "unexpected GMCH_GMS value: " ++ Text.hex 2 code.toNat

end GeometryError

/-- Where the base of stolen memory stands in the configuration space of the device. -/
def stolenBaseOffset : UInt16 := 0x5c

namespace ControlWord

/-- Where the control word stands in the configuration space of the bridge. -/
def offset : UInt16 := 0x52

/-- The bit that selects the size of the aperture on legacy parts. -/
def apertureMask : UInt16 := 0x1

/-- The bits that hold the code for the amount of stolen memory. -/
def stolenMask : UInt16 := 0xf0

/-- The amount of stolen memory in mebibytes. -/
def stolenMebibytes (word : UInt16) : Except GeometryError Nat :=
  let code := word &&& stolenMask
  match code.toNat with
  | 0x00 => .error .disabled
  | 0x10 => .ok 1
  | 0x20 => .ok 4
  | 0x30 => .ok 8
  | 0x40 => .ok 16
  | 0x50 => .ok 32
  | 0x60 => .ok 48
  | 0x70 => .ok 64
  | _ => .error (.unrecognized code)

/-- The size of the aperture in mebibytes, as a legacy part has it. -/
def apertureMebibytes (word : UInt16) : Nat :=
  if word &&& apertureMask = apertureMask then 64 else 128

end ControlWord

end Igd
