/-
Errors that platform services report.
-/

namespace Igd

/-- Why a platform service refused. -/
inductive ServiceError
  /-- The device, or one of its tables, is absent. -/
  | noDevice
  /-- The service could not allocate. -/
  | noMemory
  /-- The resource is taken. -/
  | busy
  /-- The hardware did not respond as expected. -/
  | io
  /-- The argument is not one the service accepts. -/
  | invalid
  deriving DecidableEq, Repr

namespace ServiceError

/-- Every error, in the order of declaration. -/
def all : List ServiceError := [.noDevice, .noMemory, .busy, .io, .invalid]

/-- The negative error number a kernel reports for the error. -/
def errno : ServiceError → Int
  | .noDevice => -19
  | .noMemory => -12
  | .busy => -16
  | .io => -5
  | .invalid => -22

/-- The name of the error. -/
def describe : ServiceError → String
  | .noDevice => "NoDevice"
  | .noMemory => "NoMemory"
  | .busy => "Busy"
  | .io => "Io"
  | .invalid => "Invalid"

/-- The error in words. -/
def message : ServiceError → String
  | .noDevice => "no such device"
  | .noMemory => "out of memory"
  | .busy => "resource busy"
  | .io => "I/O error"
  | .invalid => "invalid argument"

end ServiceError

end Igd
