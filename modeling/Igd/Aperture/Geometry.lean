/-
The geometry of the aperture.

Part of stolen memory is taken by the page table of the aperture, one
kibibyte for each mebibyte, and by one page beside it.  What is left may be less
than nothing, when a large aperture meets a small amount of stolen memory; the
size is kept with its sign and only the bytes that can be used are cut at zero.
-/
import Igd.Aperture.ControlWord
import Igd.Chip.Basic
import Igd.Platform.Program

namespace Igd

/-- The sizes that the aperture and stolen memory have. -/
structure Geometry where
  /-- The number of bytes of the aperture. -/
  apertureSize : Nat
  /-- The number of bytes of stolen memory left after the overhead. -/
  stolenSize : Int
  deriving DecidableEq, Repr

namespace Geometry

/-- The BAR of the aperture on the 9-series. -/
def apertureBar : Nat := 2

/-- The page reserved beside the page table. -/
def popupSize : Nat := 4096

/-- The bytes of stolen memory that an aperture of this size takes. -/
def overheadOf (apertureSize : Nat) : Checked Nat := Checked.add (apertureSize / 1024) popupSize

/-- The bytes of stolen memory taken by the aperture. -/
def overhead (g : Geometry) : Checked Nat := overheadOf g.apertureSize

/-- The bytes of stolen memory that can be handed out. -/
def usable (g : Geometry) : Nat := g.stolenSize.toNat

/-- A geometry with its fields. -/
def describe (g : Geometry) : String :=
  Text.record "ApertureGeometry"
    [("aperture_size", toString g.apertureSize), ("stolen_size", toString g.stolenSize)]

/-- The size of the aperture: legacy parts have it in the control word, and the
9-series has it as the length of a BAR. -/
def apertureSizeOf (chip : Chip) (word : UInt16) (barLength : UInt64) : Nat :=
  match chip.generation with
  | .legacy => ControlWord.apertureMebibytes word * mebibyte
  | .i9xx | .g33 => barLength.toNat

/-- A word read as a signed number. -/
def signed (n : Nat) : Int := (n : Int).bmod wordCount

/-- The geometry that a control word and the length of the aperture BAR say, and
the message that goes with it. -/
def decode (chip : Chip) (word : UInt16) (barLength : UInt64) :
    Checked (Except GeometryError Geometry × Option Notice) := do
  let apertureSize := apertureSizeOf chip word barLength
  let overhead ← overheadOf apertureSize
  match ControlWord.stolenMebibytes word with
  | .error e => return (.error e, some (.geometryRejected e))
  | .ok mebibytes =>
    let stolenSize ← Checked.subSigned (signed (mebibytes * mebibyte)) (signed overhead)
    let notice :=
      if stolenSize < 0 then some (.overheadExceedsStolen overhead mebibytes) else none
    return (.ok ⟨apertureSize, stolenSize⟩, notice)

/-- Decode, and write the message to the log. -/
def decodeLogged (chip : Chip) (word : UInt16) (barLength : UInt64) :
    Program (Except GeometryError Geometry) := do
  let (result, notice) ← decode chip word barLength
  Program.report notice
  return result

/-- Read the control word and the BARs, and find the geometry. -/
def find (chip : Chip) : Program (Except GeometryError Geometry) := do
  match ← Program.request (.readBridge ControlWord.offset) with
  | none =>
    Program.log (.geometryRejected .bridgeUnavailable)
    return .error .bridgeUnavailable
  | some word =>
    let table ← Program.request .bars
    match ← decodeLogged chip word (table.bar apertureBar).length with
    | .error e => return .error e
    | .ok geometry =>
      Program.log
        (.geometryKnown (geometry.apertureSize / 1024) geometry.stolenSize word)
      return .ok geometry

end Geometry

end Igd
