/-
A test bench.

The bench is a platform whose every answer can be switched to a failure.  It keeps
the exchanges it took part in, the mappings that are live, and the memory behind
them, so that what a run did to the device can be looked at afterwards.  The
mapping of one physical address counts as the window of control registers.
-/
import Igd.Dma.Pool
import Igd.Platform.Registers
import Igd.Testbed.Memory

namespace Igd.Testbed

/-- How a mapping fails. -/
inductive MapFailure
  /-- No mapping is made. -/
  | refused
  /-- The mapping is at the null address. -/
  | null
  deriving DecidableEq, Repr

/-- How an allocation of DMA memory fails. -/
inductive AllocFailure
  /-- No memory is given. -/
  | refused
  /-- Memory is given without regard to the limit. -/
  | limitIgnored
  deriving DecidableEq, Repr

/-- Which services fail, and how. -/
structure Switches where
  map : Option MapFailure
  /-- Mappings of this address only are to fail. -/
  mapOnly : Option PhysAddr
  unmap : Option ServiceError
  alloc : Option AllocFailure
  free : Option ServiceError
  noWorkqueue : Bool
  destroyWorkqueue : Option ServiceError
  hooks : List (Hook × ServiceError)
  deriving DecidableEq, Repr

/-- Nothing fails. -/
def Switches.off : Switches := ⟨none, none, none, none, none, false, none, []⟩

/-- A refusal, if there is a cause for one. -/
def refusal : Option ServiceError → Except ServiceError Unit
  | none => .ok ()
  | some cause => .error cause

/-- A bench. -/
structure Bench where
  bars : BarTable
  controlWord : Option UInt16
  stolenBase : UInt32
  /-- The physical address whose mapping is the register window. -/
  windowBase : PhysAddr
  switches : Switches
  pool : Dma.Pool
  memory : Memory
  /-- The register window mapped last. -/
  window : Option IoMapping
  /-- The mappings that were made and not ended. -/
  live : List IoMapping
  /-- Where the next mapping goes. -/
  nextVirt : UInt64
  /-- The number of workqueues created. -/
  workqueues : UInt32
  /-- The service calls so far, in order. -/
  exchanges : List Exchange

namespace Bench

/-- Where the processor sees DMA memory. -/
def arenaBase : VirtAddr := ⟨0x200000000000⟩

/-- Where the processor sees the first mapping. -/
def mappingBase : UInt64 := 0x100000000000

/-- The longest mapping that is made. -/
def longestMapping : Nat := mebibyte

/-- What memory that nobody cleared holds. -/
def stale : UInt8 := 0xa5

/-- A bench on which nothing happened yet. -/
def start (bars : BarTable) (controlWord : Option UInt16) (stolenBase : UInt32)
    (windowBase : PhysAddr) (switches : Switches) (dmaBus : PhysAddr) (dmaPages : Nat) :
    Checked Bench := do
  let pool ← Dma.Pool.ofRange arenaBase dmaBus (dmaPages * pageSize)
  return {
    bars, controlWord, stolenBase, windowBase, switches, pool
    memory := .blank
    window := none
    live := []
    nextVirt := mappingBase
    workqueues := 0
    exchanges := [] }

/-- How mapping an address fails, if it does. -/
def mapFailure (b : Bench) (phys : PhysAddr) (length : Nat) : Option MapFailure :=
  if longestMapping < length then some .refused
  else if b.switches.mapOnly.all (· == phys) then b.switches.map
  else none

/-- Make a mapping. -/
def map (phys : PhysAddr) (length : Nat) : StateT Bench Logged (Option IoMapping) := do
  let b ← get
  match b.mapFailure phys length with
  | some .refused => return none
  | some .null => return some ⟨phys, ⟨0⟩, length⟩
  | none =>
    let mapping : IoMapping := ⟨phys, ⟨b.nextVirt⟩, length⟩
    let isWindow := phys == b.windowBase
    set { b with
      memory := b.memory.fill b.nextVirt (.ofNat length) (if isWindow then 0 else stale)
      window := if isWindow then some mapping else b.window
      live := mapping :: b.live
      nextVirt := b.nextVirt + UInt64.ofNat (Dma.roundUp (length + 1) pageSize) }
    return some mapping

/-- End a mapping. -/
def unmap (mapping : IoMapping) : StateT Bench Logged (Except ServiceError Unit) := do
  let b ← get
  match b.switches.unmap with
  | some cause => return .error cause
  | none =>
    set { b with live := b.live.erase mapping }
    return .ok ()

/-- Hand out DMA memory. -/
def allocate (size align limit : Nat) : StateT Bench Logged (Option DmaBuffer) := do
  let b ← get
  match b.switches.alloc with
  | some .refused => return none
  | failure =>
    let limit := if failure = some .limitIgnored then wordCount - 1 else limit
    let (buffer, pool, notice) ← b.pool.allocate size align limit
    Logged.report notice
    set { b with pool }
    return buffer

/-- Take DMA memory back. -/
def free (buffer : DmaBuffer) : StateT Bench Logged (Except ServiceError Unit) := do
  let b ← get
  match b.switches.free with
  | some cause => return .error cause
  | none =>
    let (result, pool, notice) ← b.pool.free buffer
    Logged.report notice
    set { b with pool }
    return result

/-- Create a workqueue. -/
def createWorkqueue : StateT Bench Logged (Option Workqueue) := do
  let b ← get
  if b.switches.noWorkqueue then return none
  let id := b.workqueues + 1
  set { b with workqueues := id }
  return some ⟨id⟩

/-- Do to memory what a request writes. -/
def write (request : Request) : StateT Bench Logged Unit :=
  modify fun b => { b with memory := request.writeTo b.memory }

/-- The answer to a request. -/
def answer : Handler Bench
  | .bars => return (← get).bars
  | .readBridge offset => do
    return (← get).controlWord.map fun word => if offset = ControlWord.offset then word else 0
  | .readDevice offset => do
    let stolenBase := (← get).stolenBase
    return if offset = stolenBaseOffset then stolenBase else 0
  | .map phys length => map phys length
  | .unmap mapping => unmap mapping
  | .dmaAlloc size align limit => allocate size align limit
  | .dmaFree buffer => free buffer
  | .handOver _ _ => return ()
  | .createWorkqueue _ => createWorkqueue
  | .destroyWorkqueue _ => return refusal (← get).switches.destroyWorkqueue
  | .initialOutputs _ => return ()
  | .hook which => return refusal ((← get).switches.hooks.lookup which)
  | .load32 address => return (← get).memory.load32 address.val
  | .store32 address value => write (.store32 address value)
  | .clear address length => write (.clear address length)

/-- Answer a request, and keep the exchange if it called a service. -/
def serve : Handler Bench := fun request => do
  let reply ← answer request
  if request.isCall then
    modify fun b => { b with exchanges := b.exchanges ++ [⟨request, reply⟩] }
  return reply

/-- A register of the window mapped last, if there is one and it reaches that far. -/
def register? (b : Bench) (register : UInt32) : Option UInt32 := do
  let address ← RegisterWindow.address? ⟨← b.window⟩ register
  return b.memory.load32 address.val

/-- Every byte of the page at an address is zero. -/
def isPageZero (b : Bench) (address : VirtAddr) : Bool := b.memory.isZero address.val pageSize

end Bench

end Igd.Testbed
