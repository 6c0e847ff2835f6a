/-
Chip features.

A feature is a trait of a chip that decisions consult beside its generation.  A
set of features is kept as a word with one bit for each.
-/
import Igd.Text.Hex
import Igd.Text.Record

namespace Igd

/-- A trait of a chip. -/
inductive Feature
  /-- A mobile part. -/
  | mobile
  /-- A 915 or later. -/
  | i9xx
  /-- A render core of the 965 class. -/
  | i965g
  /-- A memory controller of the G33 class. -/
  | g33
  deriving DecidableEq, Repr

namespace Feature

/-- Every feature, from the lowest bit up. -/
def all : List Feature := [.mobile, .i9xx, .i965g, .g33]

/-- The bit that stands for the feature. -/
def bit : Feature → UInt32
  | .mobile => 1
  | .i9xx => 2
  | .i965g => 4
  | .g33 => 8

/-- The name of the feature. -/
def name : Feature → String
  | .mobile => "MOBILE"
  | .i9xx => "I9XX"
  | .i965g => "I965G"
  | .g33 => "G33"

end Feature

/-- A set of features. -/
structure Features where
  bits : UInt32
  deriving DecidableEq, Repr

namespace Features

/-- The set of the listed features. -/
def ofList (fs : List Feature) : Features := ⟨fs.foldl (fun bits f => bits ||| f.bit) 0⟩

/-- Every feature. -/
def full : Features := ofList Feature.all

/-- The features among the bits of a word; the other bits are dropped. -/
def truncate (bits : UInt32) : Features := ⟨bits &&& full.bits⟩

/-- Every bit of the word stands for a feature. -/
def isKnown (bits : UInt32) : Bool := (truncate bits).bits == bits

/-- The feature is in the set. -/
def contains (s : Features) (f : Feature) : Bool := s.bits &&& f.bit == f.bit

/-- Some listed feature is in the set. -/
def containsAny (s : Features) (fs : List Feature) : Bool := fs.any s.contains

/-- The features that are not in the set. -/
def complement (s : Features) : Features := truncate (s.bits ^^^ full.bits)

/-- The features in the set, from the lowest bit up. -/
def toList (s : Features) : List Feature := Feature.all.filter s.contains

/-- The names of the features in the set, or a bare zero if there is none. -/
def describe (s : Features) : String :=
  let names := s.toList.map Feature.name
  Text.applied "ChipFeatures" [if names.isEmpty then Text.hex 1 0 else " | ".intercalate names]

end Features

end Igd
