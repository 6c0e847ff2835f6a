/-
What the driver asks of its platform.

Every service is a request, and each request has the type of its answer.  A
request and the answer it got make an exchange; the exchanges of a run say all
that passed between the driver and its platform.
-/
import Igd.Dma.Buffer
import Igd.Platform.Bar
import Igd.Platform.Error

namespace Igd

/-- Device memory as the processor sees it. -/
structure IoMapping where
  phys : PhysAddr
  virt : VirtAddr
  /-- The number of bytes mapped. -/
  length : Nat
  deriving DecidableEq, Repr

/-- A mapping with its fields. -/
def IoMapping.describe (m : IoMapping) : String :=
  Text.record "IoMapping"
    [("phys", m.phys.describe), ("virt", m.virt.describe), ("len", toString m.length)]

/-- The number of a workqueue. -/
structure Workqueue where
  id : UInt32
  deriving DecidableEq, Repr

/-- A workqueue by its number. -/
def Workqueue.describe (w : Workqueue) : String :=
  Text.applied "Workqueue" [toString w.id.toNat]

/-- Services that take no argument and only succeed or fail. -/
inductive Hook
  | ringInit
  | ringCleanup
  | lastClose
  | biosInit
  | modesetInit
  | modesetCleanup
  | irqInstall
  | irqUninstall
  deriving DecidableEq, Repr

/-- Every hook. -/
def Hook.all : List Hook :=
  [.ringInit, .ringCleanup, .lastClose, .biosInit, .modesetInit, .modesetCleanup, .irqInstall,
    .irqUninstall]

/-- Something the driver asks for. -/
inductive Request
  /-- The BARs of the device. -/
  | bars
  /-- A word of the host bridge's configuration space. -/
  | readBridge (offset : UInt16)
  /-- A double word of the device's configuration space. -/
  | readDevice (offset : UInt16)
  /-- A mapping of device memory. -/
  | map (phys : PhysAddr) (length : Nat)
  /-- The end of a mapping, which is gone whatever the answer. -/
  | unmap (mapping : IoMapping)
  /-- DMA memory whose last bus address is at or below a limit. -/
  | dmaAlloc (size align limit : Nat)
  /-- The return of DMA memory, which is gone whatever the answer. -/
  | dmaFree (buffer : DmaBuffer)
  /-- The hand-over of a range of the aperture to the object manager. -/
  | handOver (start stop : Nat)
  /-- A workqueue. -/
  | createWorkqueue (name : String)
  /-- The end of a workqueue, which is gone whatever the answer. -/
  | destroyWorkqueue (queue : Workqueue)
  /-- The choice of the initial outputs. -/
  | initialOutputs (canGrow : Bool)
  /-- A service without arguments. -/
  | hook (which : Hook)
  /-- The 32-bit word at a device address. -/
  | load32 (address : VirtAddr)
  /-- A store of a 32-bit word at a device address. -/
  | store32 (address : VirtAddr) (value : UInt32)
  /-- A store of zero to each byte of a range, one after another. -/
  | clear (address : VirtAddr) (length : Nat)
  deriving DecidableEq, Repr

/-- The type of the answer to a request. -/
abbrev Request.Answer : Request → Type
  | .bars => BarTable
  | .readBridge _ => Option UInt16
  | .readDevice _ => UInt32
  | .map _ _ => Option IoMapping
  | .unmap _ => Except ServiceError Unit
  | .dmaAlloc _ _ _ => Option DmaBuffer
  | .dmaFree _ => Except ServiceError Unit
  | .handOver _ _ => Unit
  | .createWorkqueue _ => Option Workqueue
  | .destroyWorkqueue _ => Except ServiceError Unit
  | .initialOutputs _ => Unit
  | .hook _ => Except ServiceError Unit
  | .load32 _ => UInt32
  | .store32 _ _ => Unit
  | .clear _ _ => Unit

/-- A request is a call of a service, and not a look at the BARs or an access to
memory that is mapped already. -/
def Request.isCall : Request → Bool
  | .bars | .load32 _ | .store32 _ _ | .clear _ _ => false
  | _ => true

/-- A request with its answer. -/
structure Exchange where
  request : Request
  answer : request.Answer

end Igd
