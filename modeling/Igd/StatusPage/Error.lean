/-
Errors of the hardware status page.
-/

namespace Igd

/-- Why no status page came up. -/
inductive StatusPageError
  /-- There is no memory for the page, be it DMA or stolen. -/
  | outOfMemory
  /-- The carved page could not be mapped. -/
  | mappingFailed
  deriving DecidableEq, Repr

namespace StatusPageError

/-- The name of the error. -/
def describe : StatusPageError → String
  | .outOfMemory => "OutOfMemory"
  | .mappingFailed => "MappingFailed"

/-- The error in words. -/
def message : StatusPageError → String
  | .outOfMemory => "can not allocate hardware status page"
  | .mappingFailed => "can not map hardware status page"

end StatusPageError

end Igd
