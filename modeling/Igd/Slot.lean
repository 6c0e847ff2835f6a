/-
The slot of a device.

A slot holds at most one attachment.  Attaching to a slot that is taken is
refused, and detaching from an empty one does nothing; neither asks the platform
for anything.
-/
import Igd.Attachment.Acquire

namespace Igd

/-- A device, attached or not. -/
structure Slot where
  settings : Settings
  attachment : Option Attachment
  deriving DecidableEq, Repr

namespace Slot

/-- A slot with no device attached. -/
def vacant (settings : Settings) : Slot := ⟨settings, none⟩

/-- Attach the device with these numbers. -/
def attach (s : Slot) (vendor device : UInt16) :
    Program (Except AttachError Unit × Slot) :=
  match s.attachment with
  | some _ => return (.error .alreadyAttached, s)
  | none =>
    match Chip.find? vendor device with
    | none => do
      Program.log (.unsupportedDevice vendor device)
      return (.error .unsupportedDevice, s)
    | some chip => do
      match ← Attachment.start chip s.settings with
      | .error e => return (.error e, s)
      | .ok attachment => return (.ok (), { s with attachment := some attachment })

/-- Detach whatever is attached. -/
def detach (s : Slot) : Program Slot :=
  match s.attachment with
  | none => return s
  | some attachment => do
    let _ ← attachment.stop
    return { s with attachment := none }

/-- A device is attached. -/
def isAttached (s : Slot) : Bool := s.attachment.isSome

/-- The stage of the attachment, if there is one. -/
def stage (s : Slot) : Stage :=
  match s.attachment with
  | none => .down
  | some attachment => attachment.stage

end Slot

end Igd
