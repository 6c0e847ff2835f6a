/-
Stages of an attachment.

A device comes up one stage at a time and goes down the same way back.  Stages
are ordered by their rank; an attachment remembers the highest one it reached.
-/

namespace Igd

/-- How far a device has come up. -/
inductive Stage
  /-- Nothing is held. -/
  | down
  /-- The control registers are mapped. -/
  | registers
  /-- The geometry is known and the aperture handed on. -/
  | aperture
  /-- The ring buffer is built. -/
  | ring
  /-- The status page is enabled. -/
  | statusPage
  /-- The workqueue exists and mode setting is set up. -/
  | display
  /-- The interrupt handler is installed. -/
  | interrupt
  deriving DecidableEq, Repr

namespace Stage

/-- The number of stages below a stage. -/
def rank : Stage → Nat
  | .down => 0
  | .registers => 1
  | .aperture => 2
  | .ring => 3
  | .statusPage => 4
  | .display => 5
  | .interrupt => 6

instance : LE Stage := ⟨fun s t => s.rank ≤ t.rank⟩

instance : LT Stage := ⟨fun s t => s.rank < t.rank⟩

instance (s t : Stage) : Decidable (s ≤ t) := inferInstanceAs (Decidable (s.rank ≤ t.rank))

instance (s t : Stage) : Decidable (s < t) := inferInstanceAs (Decidable (s.rank < t.rank))

instance : Ord Stage := ⟨fun s t => compare s.rank t.rank⟩

/-- Every stage that acquires something, in the order of bring-up. -/
def ascending : List Stage :=
  [.registers, .aperture, .ring, .statusPage, .display, .interrupt]

/-- The stage just below. -/
def below : Stage → Option Stage
  | .down => none
  | .registers => some .down
  | .aperture => some .registers
  | .ring => some .aperture
  | .statusPage => some .ring
  | .display => some .statusPage
  | .interrupt => some .display

/-- The stages above `floor` up to `top`, from the highest down. -/
def descent (top floor : Stage) : List Stage :=
  ascending.reverse.filter fun s => decide (floor < s) && decide (s ≤ top)

/-- The name of the stage. -/
def describe : Stage → String
  | .down => "Unloaded"
  | .registers => "MmioMapped"
  | .aperture => "GeometryProbed"
  | .ring => "RingReady"
  | .statusPage => "StatusPageReady"
  | .display => "AuxReady"
  | .interrupt => "Operational"

end Stage

end Igd
