/-
Letting go of an attachment.

Stages are left from the highest down.  Leaving one gives back what it acquired
and forgets it at once, so that nothing is given back twice.  A service that
refuses is reported, and the next stage is left all the same.
-/
import Igd.Attachment.Basic

namespace Igd.Attachment

/-- Call a hook that releases something, if that is held. -/
def releaseHook (held : Bool) (what : Release) (hook : Hook) : Program Unit :=
  if held then do
    Program.reportRefusal (.releaseFailed what) (← Program.request (.hook hook))
  else return ()

/-- End a workqueue that is held. -/
def releaseWorkqueue : Option Workqueue → Program Unit
  | none => return ()
  | some queue => do
    Program.reportRefusal (.releaseFailed .workqueue)
      (← Program.request (.destroyWorkqueue queue))

/-- Stop managing stolen memory. -/
def closeStolen : Option Stolen.Allocator → Program Unit
  | none => return ()
  | some stolen => Program.report stolen.close.2

/-- Unmap a register window, which must be there. -/
def unmapWindow : Option RegisterWindow → Program Unit
  | none => Program.log .registersAlreadyUnmapped
  | some window => do
    Program.reportRefusal (.releaseFailed .registers)
      (← Program.request (.unmap window.mapping))

/-- Let go of mode setting and of the workqueue. -/
def releaseDisplay (a : Attachment) : Program Attachment := do
  releaseHook a.modesSet .modeset .modesetCleanup
  releaseWorkqueue a.workqueue
  return { a with modesSet := false, workqueue := none }

/-- Let go of the aperture and of the allocator of stolen memory. -/
def releaseAperture (a : Attachment) : Program Attachment := do
  closeStolen a.stolen
  releaseHook a.objectsReady .aperture .lastClose
  return { a with stolen := none, objectsReady := false, geometry := none }

/-- Unmap the control registers. -/
def releaseRegisters (a : Attachment) : Program Attachment := do
  unmapWindow a.registers
  return { a with registers := none }

/-- Give back what a stage acquired. -/
def releaseStage (a : Attachment) : Stage → Program Attachment
  | .down => return a
  | .registers => a.releaseRegisters
  | .aperture => a.releaseAperture
  | .ring => do
    releaseHook a.ringBuilt .ring .ringCleanup
    return { a with ringBuilt := false }
  | .statusPage => do
    let (statusPage, stolen) ← a.statusPage.letGo a.registers a.stolen
    return { a with statusPage, stolen }
  | .display => a.releaseDisplay
  | .interrupt => do
    releaseHook a.interruptInstalled .interrupt .irqUninstall
    return { a with interruptInstalled := false }

/-- Leave the listed stages one after the other. -/
def descend : List Stage → Attachment → Program Attachment
  | [], a => return a
  | stage :: rest, a => do
    let a ← a.releaseStage stage
    descend rest { a with stage := stage.below.getD .down }

/-- Leave every stage above `floor`. -/
def descendTo (a : Attachment) (floor : Stage) : Program Attachment :=
  descend (Stage.descent a.stage floor) a

/-- Stop the ring, if it was built and can be reached. -/
def stopRing (a : Attachment) : Program Unit :=
  if Stage.ring ≤ a.stage then
    match a.registers with
    | none => return ()
    | some window => window.write RegisterWindow.ringControl 0
  else return ()

/-- Stop the ring, and leave every stage. -/
def stop (a : Attachment) : Program Attachment := do
  a.stopRing
  let a ← a.descendTo .down
  Program.log (.released a.chip)
  return a

end Igd.Attachment
