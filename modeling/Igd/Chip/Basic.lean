/-
Chips.

A PCI function is known by its vendor and device numbers.  The table says which
numbers name a supported graphics function, its name, its generation and its
features; every decision that depends on the hardware is made from an entry of
this table.
-/
import Igd.Chip.Feature

namespace Igd

/-- The generation of a chip. -/
inductive Generation
  /-- 830, 845, 855 and 865: the size of the aperture comes from the control word. -/
  | legacy
  /-- 915 and later: the size of the aperture is the length of its BAR. -/
  | i9xx
  /-- G33, Q33 and Q35: as 915, with the status page in stolen memory. -/
  | g33
  deriving DecidableEq, Repr

/-- The name of a generation. -/
def Generation.describe : Generation → String
  | .legacy => "Legacy"
  | .i9xx => "I9xx"
  | .g33 => "G33"

/-- A supported graphics function. -/
structure Chip where
  vendor : UInt16
  device : UInt16
  name : String
  generation : Generation
  features : Features
  deriving DecidableEq, Repr

namespace Chip

/-- The vendor number of every supported chip. -/
def intelVendor : UInt16 := 0x8086

/-- A table entry. -/
def entry (device : UInt16) (name : String) (generation : Generation)
    (features : List Feature) : Chip :=
  ⟨intelVendor, device, name, generation, .ofList features⟩

/-- Every supported chip. -/
def table : List Chip :=
  [ entry 0x3577 "830M" .legacy [.mobile],
    entry 0x2562 "845G" .legacy [],
    entry 0x3582 "855GM" .legacy [.mobile],
    entry 0x2572 "865G" .legacy [],
    entry 0x2582 "915G" .i9xx [.i9xx],
    entry 0x2592 "915GM" .i9xx [.i9xx, .mobile],
    entry 0x2772 "945G" .i9xx [.i9xx],
    entry 0x27a2 "945GM" .i9xx [.i9xx, .mobile],
    entry 0x27ae "945GME" .i9xx [.i9xx, .mobile],
    entry 0x2972 "946GZ" .i9xx [.i9xx, .i965g],
    entry 0x2982 "G35" .i9xx [.i9xx, .i965g],
    entry 0x2992 "Q965" .i9xx [.i9xx, .i965g],
    entry 0x29a2 "965G" .i9xx [.i9xx, .i965g],
    entry 0x2a02 "965GM" .i9xx [.i9xx, .i965g, .mobile],
    entry 0x2a12 "965GME" .i9xx [.i9xx, .i965g, .mobile],
    entry 0x2a42 "GM45" .i9xx [.i9xx, .i965g, .mobile],
    entry 0x2e02 "IGD-E" .i9xx [.i9xx, .i965g],
    entry 0x2e12 "Q45" .i9xx [.i9xx, .i965g],
    entry 0x2e22 "G45" .i9xx [.i9xx, .i965g],
    entry 0x2e32 "G41" .i9xx [.i9xx, .i965g],
    entry 0x29c2 "G33" .g33 [.i9xx, .g33],
    entry 0x29b2 "Q35" .g33 [.i9xx, .g33],
    entry 0x29d2 "Q33" .g33 [.i9xx, .g33] ]

/-- The chip with these numbers, if it is supported. -/
def find? (vendor device : UInt16) : Option Chip :=
  if vendor = intelVendor then table.find? (·.device == device) else none

/-- A 915 or later, the G33 class included. -/
def is9Series (c : Chip) : Bool := c.features.contains .i9xx

/-- The hardware cursor needs memory at a physical address.  Mobile parts and the
9-series do, except the 965 and G33 classes, which reach it through the
page table of the aperture. -/
def needsPhysicalCursor (c : Chip) : Bool :=
  !c.features.containsAny [.i965g, .g33] && c.features.containsAny [.mobile, .i9xx]

/-- The name, the numbers and the generation of a chip. -/
def describe (c : Chip) : String :=
  Text.applied "DeviceIdentity"
    [c.name ++ " " ++ Text.hexDigits 4 c.vendor.toNat ++ ":" ++ Text.hexDigits 4 c.device.toNat,
      c.generation.describe]

end Chip

end Igd
