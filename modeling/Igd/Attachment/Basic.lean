/-
Attachments.

An attachment is everything that one attached device holds.  Its stage says how
far it has come up, and what is held goes with the stage.
-/
import Igd.Aperture.Geometry
import Igd.StatusPage.Basic
import Igd.Text.Quoted

namespace Igd

/-- What a driver can be told. -/
structure Settings where
  /-- The name of the workqueue. -/
  workqueueName : String
  /-- Clients may submit batch buffers. -/
  allowBatchBuffer : Bool
  /-- The most buffers validated for one submission. -/
  maxValidateBuffers : UInt32
  /-- The initial outputs may grow. -/
  initialOutputsCanGrow : Bool
  deriving DecidableEq, Repr

namespace Settings

/-- The settings of a driver that was told nothing. -/
def standard : Settings := ⟨"i915", true, 4096, false⟩

/-- Settings with their fields. -/
def describe (s : Settings) : String :=
  Text.record "DriverConfig"
    [("workqueue_name", Text.quoted s.workqueueName),
      ("allow_batchbuffer", Text.truth s.allowBatchBuffer),
      ("max_validate_buffers", toString s.maxValidateBuffers.toNat),
      ("initial_config_can_grow", Text.truth s.initialOutputsCanGrow)]

end Settings

/-- What the BARs of a device say before anything is mapped. -/
structure Resources where
  /-- The index of the BAR of the control registers. -/
  registerBar : Nat
  registerBase : PhysAddr
  registerLength : UInt64
  /-- The base of the framebuffer, to a multiple of 16 MiB. -/
  framebufferBase : PhysAddr
  /-- The base of the aperture. -/
  apertureBase : PhysAddr
  deriving DecidableEq, Repr

namespace Resources

/-- The bits of an aperture base that the framebuffer base keeps. -/
def framebufferMask : UInt64 := 0xff000000

/-- Find the registers and the aperture among the BARs.  The 9-series has them in
BAR 0 and BAR 2; older parts have the aperture in BAR 0 and, if it is assigned,
the registers in BAR 1. -/
def ofBars (chip : Chip) (table : BarTable) : Except AttachError Resources × Notice :=
  let found :=
    if chip.is9Series then some (0, 2)
    else if (table.bar 1).start.val = 0 then none
    else some (1, 0)
  match found with
  | none => (.error .noRegisterBar, .registerBarMissing)
  | some (registerBar, apertureBar) =>
    let registers := table.bar registerBar
    if registers.length = 0 then (.error .noRegisterBar, .registerBarEmpty registerBar)
    else
      let apertureBase := (table.bar apertureBar).start
      let framebufferBase : PhysAddr := ⟨apertureBase.val &&& framebufferMask⟩
      (.ok ⟨registerBar, registers.start, registers.length, framebufferBase, apertureBase⟩,
        .framebufferBase framebufferBase)

/-- Ask for the BARs, and find the registers and the aperture among them. -/
def find (chip : Chip) : Program (Except AttachError Resources) := do
  let (result, notice) := ofBars chip (← Program.request .bars)
  Program.log notice
  return result

end Resources

/-- What one attached device holds. -/
structure Attachment where
  chip : Chip
  settings : Settings
  /-- The highest stage reached and not yet left. -/
  stage : Stage
  resources : Resources
  physicalCursor : Bool
  /-- The base of stolen memory, which only the 9-series reports. -/
  stolenBase : Option UInt32
  registers : Option RegisterWindow
  geometry : Option Geometry
  stolen : Option Stolen.Allocator
  objectsReady : Bool
  ringBuilt : Bool
  statusPage : StatusPage
  workqueue : Option Workqueue
  modesSet : Bool
  interruptInstalled : Bool
  deriving DecidableEq, Repr

namespace Attachment

/-- An attachment that holds nothing. -/
def fresh (chip : Chip) (settings : Settings) (resources : Resources) : Attachment where
  chip
  settings
  stage := .down
  resources
  physicalCursor := chip.needsPhysicalCursor
  stolenBase := none
  registers := none
  geometry := none
  stolen := none
  objectsReady := false
  ringBuilt := false
  statusPage := .forChip chip
  workqueue := none
  modesSet := false
  interruptInstalled := false

/-- Every stage is reached. -/
def isOperational (a : Attachment) : Bool := a.stage == .interrupt

/-- Record a stage, which must be above the one reached before. -/
def record (a : Attachment) (stage : Stage) : Checked Attachment :=
  if a.stage < stage then .ok { a with stage } else .error .stageNotAbove

end Attachment

end Igd
