/-
The hardware status page.

The status page is one page that the device writes its progress into.  Most chips
take it from DMA memory and are told its bus address.  The G33 class takes it from
stolen memory and is told its offset in the aperture, through which the processor
maps it.

A page is cleared before the device is told of it.  A failed bring-up gives back
what it took, and leaves what was held before as it was.
-/
import Igd.Platform.Registers
import Igd.Stolen.Allocator

namespace Igd

/-- A status page, held or not. -/
inductive StatusPage
  /-- A page of DMA memory. -/
  | host (buffer : Option DmaBuffer)
  /-- A page of stolen memory and its mapping. -/
  | device (block : Option Stolen.Block) (mapping : Option IoMapping)
  deriving DecidableEq, Repr

namespace StatusPage

/-- The status page of a chip, not held yet. -/
def forChip (chip : Chip) : StatusPage :=
  match chip.generation with
  | .g33 => .device none none
  | .legacy | .i9xx => .host none

/-- The name of the kind of memory a page is in. -/
def kind : StatusPage → String
  | .host _ => "HostBacked"
  | .device _ _ => "DeviceBacked"

/-- Where the processor sees the page, while it is held. -/
def vaddr? : StatusPage → Option VirtAddr
  | .host buffer => buffer.map (·.vaddr)
  | .device _ mapping => mapping.map (·.virt)

/-- A page is held. -/
def isLive (p : StatusPage) : Bool := p.vaddr?.isSome

/-- The offset in the aperture of a page in stolen memory, while it is held. -/
def apertureOffset? : StatusPage → Option Nat
  | .host _ => none
  | .device block _ => block.map (·.base)

/-- The highest bus address that the register can hold. -/
def busLimit : Nat := 0xffffffff

/-- A mapping that can be used: one that was made, and not at the null address. -/
def usable : Option IoMapping → Option IoMapping
  | some m => if m.virt.isNull then none else some m
  | none => none

/-- Take a page of DMA memory, clear it and tell the device. -/
def enableHost (window : RegisterWindow) : Program (Except StatusPageError DmaBuffer) := do
  match ← Program.request (.dmaAlloc pageSize pageSize busLimit) with
  | none =>
    Program.log .pageNotAllocated
    return .error .outOfMemory
  | some buffer =>
    match buffer.bus.register? with
    | none =>
      Program.log (.pageAboveReach buffer.bus)
      Program.reportRefusal .rejectedPageNotFreed (← Program.request (.dmaFree buffer))
      return .error .outOfMemory
    | some bus =>
      Program.request (.clear buffer.vaddr pageSize)
      window.write RegisterWindow.statusPageAddress bus
      Program.log (.hostPageEnabled bus)
      return .ok buffer

/-- Give a block back, with its message. -/
def giveBack (stolen : Stolen.Allocator) (block : Stolen.Block) : Program Stolen.Allocator := do
  let (stolen, notice) ← stolen.free block
  Program.report notice
  return stolen

/-- Carve a page of stolen memory, map it, clear it and tell the device. -/
def enableDevice (window : RegisterWindow) (stolen : Stolen.Allocator)
    (apertureBase : PhysAddr) :
    Program (Except StatusPageError (Stolen.Block × IoMapping) × Stolen.Allocator) := do
  let (carved, stolen) ← stolen.allocate pageSize pageSize
  match carved with
  | .error e =>
    Program.log (.pageNotCarved e)
    return (.error .outOfMemory, stolen)
  | .ok block =>
    if registerCount ≤ block.base then
      return (.error .outOfMemory, ← giveBack stolen block)
    else
      let phys ← apertureBase.add block.base
      match usable (← Program.request (.map phys pageSize)) with
      | none =>
        Program.log .pageNotMapped
        return (.error .mappingFailed, ← giveBack stolen block)
      | some mapping =>
        Program.request (.clear mapping.virt pageSize)
        window.write RegisterWindow.statusPageAddress (.ofNat block.base)
        Program.log (.devicePageEnabled block.base)
        return (.ok (block, mapping), stolen)

/-- Acquire and enable the page. -/
def enable (p : StatusPage) (window : RegisterWindow) (stolen : Stolen.Allocator)
    (apertureBase : PhysAddr) :
    Program (Except StatusPageError Unit × StatusPage × Stolen.Allocator) :=
  match p with
  | .host _ => do
    match ← enableHost window with
    | .error e => return (.error e, p, stolen)
    | .ok buffer => return (.ok (), .host (some buffer), stolen)
  | .device _ _ => do
    match ← enableDevice window stolen apertureBase with
    | (.error e, stolen) => return (.error e, p, stolen)
    | (.ok (block, mapping), stolen) =>
      return (.ok (), .device (some block) (some mapping), stolen)

/-- Tell the device to use no page. -/
def withdraw : Option RegisterWindow → Program Unit
  | some window => window.write RegisterWindow.statusPageAddress RegisterWindow.noStatusPage
  | none => Program.log .registersUnmapped

/-- End a mapping that is held. -/
def unmapHeld : Option IoMapping → Program Unit
  | none => return ()
  | some mapping => do
    Program.reportRefusal .pageNotUnmapped (← Program.request (.unmap mapping))

/-- Free a buffer that is held. -/
def freeHeld : Option DmaBuffer → Program Unit
  | none => return ()
  | some buffer => do
    Program.reportRefusal .pageNotFreed (← Program.request (.dmaFree buffer))

/-- Give a block that is held back to the allocator, if that is still there. -/
def releaseHeld (stolen : Option Stolen.Allocator) :
    Option Stolen.Block → Program (Option Stolen.Allocator)
  | none => return stolen
  | some block =>
    match stolen with
    | some stolen => do
      return some (← giveBack stolen block)
    | none => do
      Program.log .carveDropped
      return none

/-- Let go of whatever is held, and then tell the device to use no page. -/
def letGo (p : StatusPage) (window : Option RegisterWindow)
    (stolen : Option Stolen.Allocator) : Program (StatusPage × Option Stolen.Allocator) :=
  match p with
  | .host buffer => do
    freeHeld buffer
    withdraw window
    return (.host none, stolen)
  | .device block mapping => do
    unmapHeld mapping
    let stolen ← releaseHeld stolen block
    withdraw window
    return (.device none none, stolen)

end StatusPage

end Igd
