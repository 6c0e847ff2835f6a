/-
Messages to the log.

Every message has its own constructor, which holds the facts it reports, so that
what a run logged can be asked about without reading text.
-/
import Igd.Addressing
import Igd.Attachment.Error
import Igd.Attachment.Stage
import Igd.Chip.Basic

namespace Igd

/-- How serious a message is. -/
inductive Level
  | error
  | warn
  | info
  | debug
  deriving DecidableEq, Repr

/-- The word a level is printed with. -/
def Level.text : Level → String
  | .error => "ERROR"
  | .warn => "WARN"
  | .info => "INFO"
  | .debug => "DEBUG"

/-- A release that is reported when it fails. -/
inductive Release
  | interrupt
  | modeset
  | workqueue
  | ring
  | aperture
  | registers
  deriving DecidableEq, Repr

/-- What a release is called in the log. -/
def Release.text : Release → String
  | .interrupt => "irq uninstall"
  | .modeset => "modeset cleanup"
  | .workqueue => "workqueue destroy"
  | .ring => "ring cleanup"
  | .aperture => "lastclose"
  | .registers => "register unmap"

/-- A message to the log. -/
inductive Notice
  -- stolen memory
  | foreignBlock (base length : Nat)
  | blocksStillCarved (count : Nat)
  -- DMA memory
  | aboveLimit (size : Nat) (bus : PhysAddr) (limit : Nat)
  | foreignBuffer (vaddr : VirtAddr)
  -- control registers
  | readOutside (register : UInt32)
  | writeOutside (register : UInt32)
  -- geometry
  | geometryRejected (cause : GeometryError)
  | overheadExceedsStolen (overhead mebibytes : Nat)
  | geometryKnown (apertureKibibytes : Nat) (stolenSize : Int) (word : UInt16)
  -- status page
  | registersUnmapped
  | pageNotAllocated
  | pageAboveReach (bus : PhysAddr)
  | rejectedPageNotFreed (cause : ServiceError)
  | hostPageEnabled (bus : UInt32)
  | pageNotFreed (cause : ServiceError)
  | pageNotCarved (cause : Stolen.AllocError)
  | pageNotMapped
  | devicePageEnabled (offset : Nat)
  | pageNotUnmapped (cause : ServiceError)
  | carveDropped
  -- bring-up
  | attaching (chip : Chip)
  | unsupportedDevice (vendor device : UInt16)
  | registerBarMissing
  | registerBarEmpty (index : Nat)
  | framebufferBase (base : PhysAddr)
  | stolenBase (base : UInt32)
  | registersNotMapped (base : PhysAddr)
  | workqueueNotCreated
  | videoTablesMissing
  | bringUpFailed (reached : Stage) (cause : AttachError)
  | operational (chip : Chip)
  -- teardown
  | releaseFailed (what : Release) (cause : ServiceError)
  | registersAlreadyUnmapped
  | released (chip : Chip)
  deriving DecidableEq, Repr

namespace Notice

/-- How serious the message is. -/
def level : Notice → Level
  | geometryRejected _ | pageNotAllocated | pageAboveReach _ | pageNotCarved _ | pageNotMapped
  | unsupportedDevice _ _ | registerBarMissing | registerBarEmpty _ | registersNotMapped _
  | workqueueNotCreated | videoTablesMissing | bringUpFailed _ _ => .error
  | foreignBlock _ _ | blocksStillCarved _ | foreignBuffer _ | readOutside _ | writeOutside _
  | overheadExceedsStolen _ _ | registersUnmapped | rejectedPageNotFreed _ | pageNotFreed _
  | pageNotUnmapped _ | carveDropped | releaseFailed _ _ | registersAlreadyUnmapped => .warn
  | operational _ => .info
  | aboveLimit _ _ _ | geometryKnown _ _ _ | hostPageEnabled _ | devicePageEnabled _
  | attaching _ | framebufferBase _ | stolenBase _ | released _ => .debug

/-- The words of the message. -/
def text : Notice → String
  | foreignBlock base length =>
    "[VRAM] ignoring release of foreign block " ++ Text.hex 1 base ++ "+" ++ Text.hex 1 length
  | blocksStillCarved count =>
    "[VRAM] takedown with " ++ toString count ++ " block(s) still carved"
  | aboveLimit size bus limit =>
    "[DMA] " ++ toString size ++ " bytes at " ++ bus.text ++ " exceed limit " ++ Text.hex 1 limit
  | foreignBuffer vaddr => "[DMA] free of foreign buffer at " ++ vaddr.text
  | readOutside register =>
    "[MMIO] read of " ++ Text.hex 5 register.toNat ++ " outside register window"
  | writeOutside register =>
    "[MMIO] write of " ++ Text.hex 5 register.toNat ++ " outside register window"
  | geometryRejected cause => "[GMCH] " ++ cause.message
  | overheadExceedsStolen overhead mebibytes =>
    "[GMCH] GTT overhead " ++ Text.hex 1 overhead ++ " exceeds " ++ toString mebibytes
      ++ " MiB stolen"
  | geometryKnown apertureKibibytes stolenSize word =>
    "[GMCH] aperture " ++ toString apertureKibibytes ++ " KiB, stolen " ++ toString stolenSize
      ++ " bytes (ctrl " ++ Text.hex 4 word.toNat ++ ")"
  | registersUnmapped => "[HWS] registers unmapped, cannot disable status page"
  | pageNotAllocated => "[HWS] Can not allocate hardware status page"
  | pageAboveReach bus => "[HWS] status page at " ++ bus.text ++ " is above 4 GiB"
  | rejectedPageNotFreed cause => "[HWS] can not free rejected page: " ++ cause.message
  | hostPageEnabled bus =>
    "[HWS] Enabled hardware status page at bus " ++ Text.hex 8 bus.toNat
  | pageNotFreed cause => "[HWS] can not free hardware status page: " ++ cause.message
  | pageNotCarved cause => "[HWS] No free vram available, aborting (" ++ cause.message ++ ")"
  | pageNotMapped => "[HWS] can not ioremap virtual addr for G33 hw status page"
  | devicePageEnabled offset =>
    "[HWS] Enabled hardware status page at aperture offset " ++ Text.hex 1 offset
  | pageNotUnmapped cause => "[HWS] can not unmap hardware status page: " ++ cause.message
  | carveDropped => "[HWS] stolen allocator already gone, dropping carve"
  | attaching chip => "[LOAD] attaching " ++ chip.describe
  | unsupportedDevice vendor device =>
    "[LOAD] unsupported device " ++ Text.hexDigits 4 vendor.toNat ++ ":"
      ++ Text.hexDigits 4 device.toNat
  | registerBarMissing => "[LOAD] can not find MMIO resource"
  | registerBarEmpty index => "[LOAD] MMIO resource " ++ toString index ++ " is empty"
  | framebufferBase base => "[LOAD] fb_base: " ++ base.text
  | stolenBase base => "[LOAD] stolen base " ++ Text.hex 8 base.toNat
  | registersNotMapped base => "[LOAD] can not map MMIO registers at " ++ base.text
  | workqueueNotCreated => "[LOAD] can not create workqueue"
  | videoTablesMissing => "[LOAD] failed to find VBIOS tables"
  | bringUpFailed reached cause =>
    "[LOAD] bring-up failed after " ++ reached.describe ++ ": " ++ cause.message
  | operational chip => "[LOAD] " ++ chip.name ++ " operational"
  | releaseFailed what cause =>
    "[UNLOAD] " ++ what.text ++ " failed: " ++ cause.message ++ ", continuing"
  | registersAlreadyUnmapped => "[UNLOAD] registers already unmapped"
  | released chip => "[UNLOAD] " ++ chip.name ++ " released"

/-- The message as a line of the log. -/
def line (n : Notice) : String := n.level.text ++ " " ++ n.text

end Notice

end Igd
