/-
The ways an operation stops instead of answering.

Sizes and offsets are natural numbers here, while the machine keeps them in
64-bit words.  A sum that leaves the word, a difference below zero, or a
requirement that does not hold ends the operation with a `Fault`; nothing after
it runs.  Keeping the check inside each operation is what lets "this never
overflows" be a statement about the operation.
-/

namespace Igd

/-- Why an operation stopped. -/
inductive Fault
  /-- A sum does not fit a machine word. -/
  | addOverflow
  /-- A difference does not fit a machine word. -/
  | subOverflow
  /-- The memory offered to a heap is smaller than one hole header. -/
  | heapTooSmall
  /-- Nothing useful is left of a heap's memory once its bounds are aligned. -/
  | alignedHeapTooSmall
  /-- A bring-up stage was recorded that is not above the one reached before. -/
  | stageNotAbove
  deriving DecidableEq, Repr

/-- The text a fault is reported with. -/
def Fault.message : Fault → String
  | .addOverflow => "attempt to add with overflow"
  | .subOverflow => "attempt to subtract with overflow"
  | .heapTooSmall => "assertion failed: hole_size >= size_of::<Hole>()"
  | .alignedHeapTooSmall => "assertion failed: aligned_hole_size >= size_of::<Hole>()"
  | .stageNotAbove => "assertion failed: stage > marker"

/-- A value, unless a fault came first. -/
abbrev Checked (α : Type) := Except Fault α

/-- How many values a machine word has: two to the sixty-fourth. -/
def wordCount : Nat := 0x10000000000000000

/-- How many values a machine word has that are not below zero when it is signed. -/
def signedCount : Nat := 0x8000000000000000

/-- How many values a 32-bit register has. -/
def registerCount : Nat := 0x100000000

namespace Checked

/-- The sum of two words. -/
def add (a b : Nat) : Checked Nat :=
  if a + b < wordCount then .ok (a + b) else .error .addOverflow

/-- The difference of two words. -/
def sub (a b : Nat) : Checked Nat :=
  if b ≤ a then .ok (a - b) else .error .subOverflow

/-- The difference of two signed words. -/
def subSigned (a b : Int) : Checked Int :=
  if -(signedCount : Int) ≤ a - b ∧ a - b < signedCount then .ok (a - b) else .error .subOverflow

-- The brackets around `rfl` keep these from being unfolded where they are used: the
-- kernel would then compare the continuations by computing with numbers of word size.

@[simp] theorem ok_bind {α β : Type} (a : α) (next : α → Checked β) :
    ((.ok a : Checked α) >>= next) = next a := (rfl)

@[simp] theorem error_bind {α β : Type} (f : Fault) (next : α → Checked β) :
    ((.error f : Checked α) >>= next) = .error f := (rfl)

theorem bind_eq_ok {α β : Type} {x : Checked α} {next : α → Checked β} {b : β}
    (h : (x >>= next) = .ok b) : ∃ a, x = .ok a ∧ next a = .ok b := by
  cases x with
  | error f => cases h
  | ok a => exact ⟨a, rfl, h⟩

theorem add_eq {a b : Nat} (h : a + b < wordCount) : add a b = .ok (a + b) := if_pos h

theorem sub_eq {a b : Nat} (h : b ≤ a) : sub a b = .ok (a - b) := if_pos h

end Checked

end Igd
