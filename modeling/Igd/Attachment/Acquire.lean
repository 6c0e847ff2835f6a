/-
Bringing an attachment up.

Stages are entered from the lowest up, and a stage either acquires all it is for
or nothing.  The stage is recorded only once it is entered, so after a failure the
record says what there is to give back.

Giving back happens on two levels.  `bringUp` leaves the stages that it entered
itself and no others.  `start` maps the registers first and brings up the rest, and
if that fails it leaves every stage, the registers included.
-/
import Igd.Attachment.Release

namespace Igd.Attachment

/-- How a step of bring-up ends. -/
abbrev Attempt := Program (Except AttachError Unit × Attachment)

/-- Map the control registers. -/
def acquireRegisters (a : Attachment) : Attempt := do
  let base := a.resources.registerBase
  match StatusPage.usable
      (← Program.request (.map base a.resources.registerLength.toNat)) with
  | none =>
    Program.log (.registersNotMapped base)
    return (.error .registersNotMapped, a)
  | some mapping => return (.ok (), { a with registers := some ⟨mapping⟩ })

/-- Find the geometry, and hand the aperture on.  A stolen size below zero makes an
allocator with nothing to carve. -/
def acquireAperture (a : Attachment) : Attempt := do
  match ← Geometry.find a.chip with
  | .error e => return (.error (.geometry e), a)
  | .ok geometry =>
    let usable := geometry.usable
    Program.request (.handOver usable geometry.apertureSize)
    return (.ok (), { a with
      stolen := some (.ofLength usable)
      geometry := some geometry
      objectsReady := true })

/-- Enable the status page. -/
def acquireStatusPage (a : Attachment) : Attempt :=
  match a.registers, a.stolen with
  | none, _ => return (.error .registersNotMapped, a)
  | some _, none => return (.error (.stolen .invalidRequest), a)
  | some window, some stolen => do
    let (result, statusPage, stolen) ←
      a.statusPage.enable window stolen a.resources.apertureBase
    return (result.mapError .statusPage, { a with statusPage, stolen := some stolen })

/-- Set up mode setting, once there is a workqueue. -/
def acquireModes (a : Attachment) : Attempt := do
  match ← Program.request (.hook .biosInit) with
  | .error _ =>
    Program.log .videoTablesMissing
    return (.error .noVideoTables, a)
  | .ok () =>
    match ← Program.request (.hook .modesetInit) with
    | .error e => return (.error (.modeset e), a)
    | .ok () =>
      Program.request (.initialOutputs a.settings.initialOutputsCanGrow)
      return (.ok (), { a with modesSet := true })

/-- Create the workqueue and set up mode setting, or neither. -/
def acquireDisplay (a : Attachment) : Attempt := do
  match ← Program.request (.createWorkqueue a.settings.workqueueName) with
  | none =>
    Program.log .workqueueNotCreated
    return (.error .workqueueUnavailable, a)
  | some queue =>
    match ← acquireModes { a with workqueue := some queue } with
    | (.ok (), a) => return (.ok (), a)
    | (.error e, a) => return (.error e, ← a.releaseDisplay)

/-- Acquire what a stage is for. -/
def acquireStage (a : Attachment) : Stage → Attempt
  | .down => return (.ok (), a)
  | .registers => a.acquireRegisters
  | .aperture => a.acquireAperture
  | .ring => do
    match ← Program.request (.hook .ringInit) with
    | .error e => return (.error (.ring e), a)
    | .ok () => return (.ok (), { a with ringBuilt := true })
  | .statusPage => a.acquireStatusPage
  | .display => a.acquireDisplay
  | .interrupt => do
    match ← Program.request (.hook .irqInstall) with
    | .error e => return (.error (.interrupt e), a)
    | .ok () => return (.ok (), { a with interruptInstalled := true })

/-- Enter the listed stages above the one reached, up to `target`. -/
def climb (target : Stage) : List Stage → Attachment → Attempt
  | [], a => return (.ok (), a)
  | stage :: rest, a =>
    if stage ≤ a.stage then climb target rest a
    else if target < stage then return (.ok (), a)
    else do
      match ← a.acquireStage stage with
      | (.error e, a) => return (.error e, a)
      | (.ok (), a) => climb target rest (← a.record stage)

/-- Enter every stage above the one reached, up to `target`.  The first failure
ends it, with the stage on the last one that was entered. -/
def climbTo (a : Attachment) (target : Stage) : Attempt := climb target Stage.ascending a

/-- Enter every stage above the one reached, or none of them. -/
def bringUp (a : Attachment) : Attempt := do
  match ← a.climbTo .interrupt with
  | (.ok (), up) => return (.ok (), up)
  | (.error e, part) =>
    Program.log (.bringUpFailed part.stage e)
    return (.error e, ← part.descendTo a.stage)

/-- Read the base of stolen memory, where the chip reports it. -/
def readStolenBase (a : Attachment) : Program Attachment := do
  if a.chip.is9Series then
    let base ← Program.request (.readDevice stolenBaseOffset)
    Program.log (.stolenBase base)
    return { a with stolenBase := some base }
  else return a

/-- Bring a device up from nothing. -/
def start (chip : Chip) (settings : Settings) : Program (Except AttachError Attachment) := do
  Program.log (.attaching chip)
  match ← Resources.find chip with
  | .error e => return .error e
  | .ok resources =>
    let a ← readStolenBase (fresh chip settings resources)
    match ← a.climbTo .registers with
    | (.error e, _) => return .error e
    | (.ok (), a) =>
      match ← a.bringUp with
      | (.error e, a) =>
        let _ ← a.descendTo .down
        return .error e
      | (.ok (), a) =>
        Program.log (.operational chip)
        return .ok a

end Igd.Attachment
