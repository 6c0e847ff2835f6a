/-
Errors of bringing a device up.

The error of the stage that failed is reported as it is, after the stages before
it have been released.
-/
import Igd.Aperture.ControlWord
import Igd.Platform.Error
import Igd.Stolen.Block
import Igd.StatusPage.Error

namespace Igd

/-- Why a device was not attached. -/
inductive AttachError
  /-- The chip is not in the table. -/
  | unsupportedDevice
  /-- No BAR holds the control registers. -/
  | noRegisterBar
  /-- The control registers could not be mapped. -/
  | registersNotMapped
  /-- The geometry of the aperture could not be found. -/
  | geometry (cause : GeometryError)
  /-- The allocator of stolen memory refused. -/
  | stolen (cause : Stolen.AllocError)
  /-- The ring buffer could not be built. -/
  | ring (cause : ServiceError)
  /-- The status page could not be set up. -/
  | statusPage (cause : StatusPageError)
  /-- The workqueue could not be created. -/
  | workqueueUnavailable
  /-- The tables of the video firmware are missing. -/
  | noVideoTables
  /-- Mode setting could not be set up. -/
  | modeset (cause : ServiceError)
  /-- The interrupt handler could not be installed. -/
  | interrupt (cause : ServiceError)
  /-- The device is attached already. -/
  | alreadyAttached
  deriving DecidableEq, Repr

namespace AttachError

/-- The negative error number a kernel reports for the error. -/
def errno : AttachError → Int
  | .unsupportedDevice | .noRegisterBar | .noVideoTables | .geometry _ =>
    ServiceError.noDevice.errno
  | .registersNotMapped | .workqueueUnavailable | .stolen _ | .statusPage _ =>
    ServiceError.noMemory.errno
  | .ring cause | .modeset cause | .interrupt cause => cause.errno
  | .alreadyAttached => ServiceError.busy.errno

/-- The name of the error, with the cause it holds. -/
def describe : AttachError → String
  | .unsupportedDevice => "UnsupportedDevice"
  | .noRegisterBar => "NoMmioResource"
  | .registersNotMapped => "MmioMapFailed"
  | .geometry cause => Text.applied "Probe" [cause.describe]
  | .stolen cause => Text.applied "Region" [cause.describe]
  | .ring cause => Text.applied "Ring" [cause.describe]
  | .statusPage cause => Text.applied "StatusPage" [cause.describe]
  | .workqueueUnavailable => "WorkqueueUnavailable"
  | .noVideoTables => "NoVbios"
  | .modeset cause => Text.applied "Modeset" [cause.describe]
  | .interrupt cause => Text.applied "Irq" [cause.describe]
  | .alreadyAttached => "AlreadyAttached"

/-- The error in words. -/
def message : AttachError → String
  | .unsupportedDevice => "unsupported device"
  | .noRegisterBar => "can not find MMIO resource"
  | .registersNotMapped => "can not map MMIO registers"
  | .geometry cause => "geometry probe failed: " ++ cause.message
  | .stolen cause => "stolen memory: " ++ cause.message
  | .ring cause => "ring buffer init failed: " ++ cause.message
  | .statusPage cause => cause.message
  | .workqueueUnavailable => "can not create workqueue"
  | .noVideoTables => "no VBIOS tables found"
  | .modeset cause => "mode setting init failed: " ++ cause.message
  | .interrupt cause => "can not install interrupt handler: " ++ cause.message
  | .alreadyAttached => "device already attached"

end AttachError

end Igd
