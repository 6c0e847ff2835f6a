/-
A replica of a chipset.

The replica is a platform in memory for whole runs.  It has the BARs of one of two
families of chipsets and an arena of sixteen pages for DMA, and keeps every buffer
it ever mapped, so that memory can be looked at after it was unmapped.  It records
what succeeded, one event for each service that did something.
-/
import Igd.Testbed.Bench
import Igd.Testbed.HoleHeader
import Igd.Text.Quoted

namespace Igd.Testbed

/-- Something that a platform did. -/
inductive Event
  | map (phys : PhysAddr) (length : Nat)
  | unmap (phys : PhysAddr)
  | dmaAlloc (bus : PhysAddr)
  | dmaFree (bus : PhysAddr)
  | handOver (start stop : Nat)
  | workqueueCreate (name : String)
  | workqueueDestroy
  | initialOutputs
  | hook (which : Hook)
  deriving DecidableEq, Repr

/-- The name of a hook among events. -/
def hookName : Hook → String
  | .ringInit => "RingInit"
  | .ringCleanup => "RingCleanup"
  | .lastClose => "LastClose"
  | .biosInit => "BiosInit"
  | .modesetInit => "ModesetInit"
  | .modesetCleanup => "ModesetCleanup"
  | .irqInstall => "IrqInstall"
  | .irqUninstall => "IrqUninstall"

namespace Event

/-- An event with its fields. -/
def describe : Event → String
  | .map phys length =>
    Text.record "Map" [("phys", toString phys.toNat), ("len", toString length)]
  | .unmap phys => Text.record "Unmap" [("phys", toString phys.toNat)]
  | .dmaAlloc bus => Text.record "DmaAlloc" [("bus", toString bus.toNat)]
  | .dmaFree bus => Text.record "DmaFree" [("bus", toString bus.toNat)]
  | .handOver start stop =>
    Text.record "GemInit" [("start", toString start), ("end", toString stop)]
  | .workqueueCreate name => Text.applied "WorkqueueCreate" [Text.quoted name]
  | .workqueueDestroy => "WorkqueueDestroy"
  | .initialOutputs => "InitialConfig"
  | .hook which => hookName which

/-- The event of an exchange, if the service did something. -/
def ofExchange? : Exchange → Option Event
  | ⟨.map phys length, some _⟩ => some (.map phys length)
  | ⟨.unmap mapping, .ok ()⟩ => some (.unmap mapping.phys)
  | ⟨.dmaAlloc _ _ _, some buffer⟩ => some (.dmaAlloc buffer.bus)
  | ⟨.dmaFree buffer, .ok ()⟩ => some (.dmaFree buffer.bus)
  | ⟨.handOver start stop, _⟩ => some (.handOver start stop)
  | ⟨.createWorkqueue name, some _⟩ => some (.workqueueCreate name)
  | ⟨.destroyWorkqueue _, .ok ()⟩ => some .workqueueDestroy
  | ⟨.initialOutputs _, _⟩ => some .initialOutputs
  | ⟨.hook which, .ok ()⟩ => some (.hook which)
  | _ => none

end Event

/-- Which services of a replica fail. -/
structure Breakdown where
  mapRegisters : Bool
  mapAperture : Bool
  dma : Bool
  ring : Bool
  workqueue : Bool
  bios : Bool
  modeset : Bool
  irq : Bool
  ringCleanup : Bool
  irqUninstall : Bool
  deriving DecidableEq, Repr

namespace Breakdown

/-- Nothing fails. -/
def off : Breakdown := ⟨false, false, false, false, false, false, false, false, false, false⟩

/-- Why a hook fails, if it does. -/
def hookFailure (b : Breakdown) : Hook → Option ServiceError
  | .ringInit => if b.ring then some .noMemory else none
  | .ringCleanup => if b.ringCleanup then some .io else none
  | .biosInit => if b.bios then some .noDevice else none
  | .modesetInit => if b.modeset then some .io else none
  | .irqInstall => if b.irq then some .busy else none
  | .irqUninstall => if b.irqUninstall then some .busy else none
  | .lastClose | .modesetCleanup => none

end Breakdown

/-- A replica. -/
structure Replica where
  bars : BarTable
  /-- The BAR whose mapping is the register window. -/
  registerBar : Nat
  apertureBar : Nat
  controlWord : Option UInt16
  stolenBase : UInt32
  breakdown : Breakdown
  pool : Dma.Pool
  memory : Memory
  /-- The register window mapped last. -/
  window : Option IoMapping
  /-- Every mapping ever made, the latest first. -/
  mappings : List IoMapping
  /-- Where the live mappings are. -/
  live : List VirtAddr
  /-- Where the next mapping goes. -/
  nextVirt : UInt64
  /-- The number of workqueues created. -/
  workqueues : UInt32
  /-- What was done, in order. -/
  events : List Event

namespace Replica

/-- The number of bytes in the arena. -/
def arenaSize : Nat := 16 * pageSize

/-- Where the device sees the arena. -/
def arenaBus : PhysAddr := ⟨0x10000000⟩

/-- The base of stolen memory that a replica reports at first. -/
def standardStolenBase : UInt32 := 0x7f800000

/-- The window of control registers. -/
def registers : Bar := ⟨⟨0xfeb00000⟩, 0x80000⟩

/-- The hole that is all of an arena. -/
def wholeArena : Extent :=
  ⟨Bench.arenaBase.toNat, Bench.arenaBase.toNat + arenaSize⟩

/-- A replica on which nothing happened yet. -/
def ofBars (bars : List Bar) (registerBar apertureBar : Nat) (controlWord : UInt16) :
    Replica where
  bars := ⟨bars⟩
  registerBar
  apertureBar
  controlWord := some controlWord
  stolenBase := standardStolenBase
  breakdown := .off
  pool := ⟨⟨[wholeArena], 0⟩, Bench.arenaBase, arenaBus, arenaSize⟩
  memory := HoleHeader.writeAll [wholeArena]
    (Memory.blank.fill Bench.arenaBase.val (.ofNat arenaSize) Bench.stale)
  window := none
  mappings := []
  live := []
  nextVirt := Bench.mappingBase
  workqueues := 0
  events := []

/-- The 9-series: registers in BAR 0 and an aperture of 256 MiB in BAR 2. -/
def nineSeries (controlWord : UInt16) : Replica :=
  ofBars [registers, .unassigned, ⟨⟨0xd0000000⟩, .ofNat (256 * mebibyte)⟩] 0 2 controlWord

/-- The older parts: an aperture of 128 MiB in BAR 0 and registers in BAR 1. -/
def legacy (controlWord : UInt16) : Replica :=
  ofBars [⟨⟨0xe0000000⟩, .ofNat (128 * mebibyte)⟩, registers, .unassigned] 1 0 controlWord

/-- Make a mapping. -/
def map (phys : PhysAddr) (length : Nat) : StateT Replica Logged (Option IoMapping) := do
  let r ← get
  let isWindow := phys == (r.bars.bar r.registerBar).start
  if (isWindow && r.breakdown.mapRegisters) || (!isWindow && r.breakdown.mapAperture) then
    return none
  let mapping : IoMapping := ⟨phys, ⟨r.nextVirt⟩, length⟩
  set { r with
    memory := r.memory.fill r.nextVirt (.ofNat (Dma.roundUp length 8))
      (if isWindow then 0 else Bench.stale)
    window := if isWindow then some mapping else r.window
    mappings := mapping :: r.mappings
    live := mapping.virt :: r.live
    nextVirt := r.nextVirt + UInt64.ofNat (Dma.roundUp (length + 1) pageSize) }
  return some mapping

/-- End a mapping that is live. -/
def unmap (mapping : IoMapping) : StateT Replica Logged (Except ServiceError Unit) := do
  let r ← get
  if r.live.contains mapping.virt then
    set { r with live := r.live.erase mapping.virt }
    return .ok ()
  else return .error .invalid

/-- Hand out memory of the arena. -/
def allocate (size align limit : Nat) : StateT Replica Logged (Option DmaBuffer) := do
  let r ← get
  if r.breakdown.dma then return none
  let (buffer, pool, notice) ← r.pool.allocate size align limit
  Logged.report notice
  let memory := match buffer, notice with
    | some _, _ => HoleHeader.afterAllocate r.pool.heap size align r.memory
    | none, some _ => HoleHeader.afterRefusal r.pool.heap size align r.memory
    | none, none => r.memory
  set { r with pool, memory }
  return buffer

/-- Take memory of the arena back. -/
def free (buffer : DmaBuffer) : StateT Replica Logged (Except ServiceError Unit) := do
  let r ← get
  let (result, pool, notice) ← r.pool.free buffer
  Logged.report notice
  let memory := match result with
    | .ok () =>
      HoleHeader.afterDeallocate r.pool.heap buffer.vaddr.toNat buffer.size r.memory
    | .error _ => r.memory
  set { r with pool, memory }
  return result

/-- Create a workqueue. -/
def createWorkqueue : StateT Replica Logged (Option Workqueue) := do
  let r ← get
  if r.breakdown.workqueue then return none
  let id := r.workqueues + 1
  set { r with workqueues := id }
  return some ⟨id⟩

/-- Do to memory what a request writes. -/
def write (request : Request) : StateT Replica Logged Unit :=
  modify fun r => { r with memory := request.writeTo r.memory }

/-- The answer to a request. -/
def answer : Handler Replica
  | .bars => return (← get).bars
  | .readBridge offset => do
    return (← get).controlWord.map fun word => if offset = ControlWord.offset then word else 0
  | .readDevice offset => do
    let stolenBase := (← get).stolenBase
    return if offset = stolenBaseOffset then stolenBase else 0
  | .map phys length => map phys length
  | .unmap mapping => unmap mapping
  | .dmaAlloc size align limit => allocate size align limit
  | .dmaFree buffer => free buffer
  | .handOver _ _ => return ()
  | .createWorkqueue _ => createWorkqueue
  | .destroyWorkqueue _ => return .ok ()
  | .initialOutputs _ => return ()
  | .hook which => return refusal ((← get).breakdown.hookFailure which)
  | .load32 address => return (← get).memory.load32 address.val
  | .store32 address value => write (.store32 address value)
  | .clear address length => write (.clear address length)

/-- Answer a request, and record the event. -/
def serve : Handler Replica := fun request => do
  let reply ← answer request
  modify fun r => { r with events := r.events ++ (Event.ofExchange? ⟨request, reply⟩).toList }
  return reply

/-- A register of the window mapped last, whether it is live or not. -/
def register (r : Replica) (register : UInt32) : UInt32 :=
  match r.window with
  | none => 0
  | some window => r.memory.load32 (window.virt.add register.toNat).val

/-- The latest mapping of an address holds nothing but zeros, looked at by the
64-bit word. -/
def isMappingZero (r : Replica) (phys : PhysAddr) : Bool :=
  match r.mappings.find? (·.phys == phys) with
  | none => false
  | some mapping => r.memory.isZero mapping.virt.val (mapping.length / 8 * 8)

/-- Every byte of the page at an address is zero. -/
def isPageZero (r : Replica) (address : VirtAddr) : Bool := r.memory.isZero address.val pageSize

/-- A page at an address ends inside the arena. -/
def holdsPage (r : Replica) (address : VirtAddr) : Bool :=
  decide (address.toNat + pageSize ≤ r.pool.base.toNat + r.pool.size)

/-- The bus address that was handed out last, among the events. -/
def lastDmaBus? (r : Replica) : Option PhysAddr :=
  r.events.reverse.findSome? fun
    | .dmaAlloc bus => some bus
    | _ => none

/-- How often an event is among the events. -/
def count (r : Replica) (event : Event) : Nat := r.events.count event

/-- Where an event first is among the events. -/
def position? (r : Replica) (event : Event) : Option Nat := r.events.idxOf? event

end Replica

end Igd.Testbed
