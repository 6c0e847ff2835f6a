/-
Giving blocks back undoes carving them, in any order.

What is free at a moment of a session is the range less the blocks that are out, and the free
extents are in order.  Since only one list in order holds given offsets, the blocks that are
out determine the allocator: extents, length and count.  That is `Pieces.unique`.  It does
not matter how the session got there, and so neither does the order in which blocks are given
back, nor whether a block was carved that is no longer out.

The induction behind it, `Pieces.freeAll`, is on the blocks that are given back: each of them
is taken without a report, and those that are still out and what is free stay the range in
pieces.
-/
import Igd.Proofs.Stolen.Partition
import Mathlib.Data.List.Perm.Subperm

namespace Igd.Stolen

open Extents

/-- Give back blocks one after the other, with what is reported of them. -/
def Allocator.freeAll (a : Allocator) : List Block → Checked (Allocator × List Notice)
  | [] => return (a, [])
  | b :: rest => do
    let (a, notice) ← a.free b
    let (a, notices) ← a.freeAll rest
    return (a, notice.toList ++ notices)

theorem Allocator.freeAll_cons {a a' : Allocator} {b : Block} (rest : List Block)
    (hfree : a.free b = .ok (a', none)) : a.freeAll (b :: rest) = a'.freeAll rest := by
  simp only [freeAll, hfree, Checked.ok_bind]
  cases a'.freeAll rest <;> rfl

namespace Session.Pieces

variable {length : Nat} {s t : Session}

/-- **The blocks that are out determine the allocator.**  What is free is the rest of the
range, in order, and the count is the number of blocks. -/
theorem unique (h : s.Pieces length) (h' : t.Pieces length) (hheld : s.held.Perm t.held) :
    s.allocator = t.allocator := by
  have htaken : s.taken.Perm t.taken := hheld.map _
  have hextents : s.allocator.extents = t.allocator.extents :=
    (h.recut.cancel h'.recut htaken).eq h.tidy.order h'.tidy.order
  have hlength := h.length_eq.trans h'.length_eq.symm
  have hcount : s.allocator.blocksOut = t.allocator.blocksOut := by
    rw [h.blocksOut, h'.blocksOut, hheld.length_eq]
  exact Allocator.ext hextents hlength hcount

theorem perm {held : List Held} (h : s.Pieces length) (hheld : s.held.Perm held) :
    (⟨s.allocator, held⟩ : Session).Pieces length := by
  refine ⟨h.tidy, h.length_eq, h.blocksOut.trans hheld.length_eq, ?_, ?_, fun measure hadd => ?_⟩
  · exact fun x hx => h.asked x (hheld.mem_iff.mpr hx)
  · exact fun x hx => h.holds x (hheld.mem_iff.mpr hx)
  · have hranges : s.ranges.Perm (⟨s.allocator, held⟩ : Session).ranges :=
      (hheld.map _).append_left _
    rw [← measured_perm measure hranges]
    exact h.whole measure hadd

theorem giveBack_head {a : Allocator} {x : Held} {rest : List Held}
    (h : (⟨a, x :: rest⟩ : Session).Pieces length) :
    (⟨a.afterFreeing x.block, rest⟩ : Session).Pieces length :=
  h.giveBack (show (x :: rest)[0]? = some x from rfl)

/-- **Blocks that are out are taken back one after the other**, whichever come first. -/
theorem freeAll (h : s.Pieces length) (hword : length < wordCount) {order rest : List Held}
    (hheld : s.held.Perm (order ++ rest)) :
    ∃ a, s.allocator.freeAll (order.map (·.block)) = .ok (a, []) ∧
      (⟨a, rest⟩ : Session).Pieces length := by
  induction order generalizing s with
  | nil => exact ⟨s.allocator, rfl, h.perm hheld⟩
  | cons x order ih =>
    have hfirst := h.perm hheld
    have hfree := hfirst.accepted hword (x := x) (by simp)
    obtain ⟨a, hall, hpieces⟩ := ih hfirst.giveBack_head (.refl _)
    exact ⟨a, (Allocator.freeAll_cons _ hfree).trans hall, hpieces⟩

end Session.Pieces

namespace Session

/-- Whatever was carved can be undone. -/
structure Restorable (length : Nat) (s : Session) : Prop where
  /-- A block that is given back as soon as it is carved leaves no trace. -/
  undo : ∀ (size align : UInt64) b a,
    s.allocator.allocate size.toNat align.toNat = .ok (.ok b, a) →
    a.free b = .ok (s.allocator, none)
  /-- Any blocks that are out are taken back, and come to the same in any order. -/
  anyOrder : ∀ order order' : List Held, order.Subperm s.held → order.Perm order' →
    ∃ a, s.allocator.freeAll (order.map (·.block)) = .ok (a, []) ∧
      s.allocator.freeAll (order'.map (·.block)) = .ok (a, [])
  /-- When all are given back the allocator is as it was made. -/
  whole : ∀ order : List Held, order.Perm s.held →
    s.allocator.freeAll (order.map (·.block)) = .ok (.ofLength length, [])

theorem Pieces.restorable {length : UInt64} {s : Session} (h : s.Pieces length.toNat) :
    s.Restorable length.toNat := by
  have hword : length.toNat < wordCount := length.toNat_lt
  refine ⟨?_, ?_, ?_⟩
  · exact fun size align b a hcarve => h.tidy.free_allocated hcarve
  · intro order order' hsub hperm
    obtain ⟨listed, hlisted, hpart⟩ := hsub
    obtain ⟨rest, hrest⟩ := hpart.exists_perm_append
    have hheld : s.held.Perm (order ++ rest) := hrest.trans (hlisted.append_right rest)
    obtain ⟨a, hall, hpieces⟩ := h.freeAll hword hheld
    obtain ⟨a', hall', hpieces'⟩ := h.freeAll hword (hheld.trans (hperm.append_right rest))
    obtain rfl : a = a' := hpieces.unique hpieces' (.refl _)
    exact ⟨a, hall, hall'⟩
  · intro order hperm
    have hheld : s.held.Perm (order ++ []) := by simpa using hperm.symm
    obtain ⟨a, hall, hpieces⟩ := h.freeAll hword hheld
    obtain rfl : a = .ofLength length.toNat := hpieces.unique (Pieces.start length) (.refl _)
    exact hall

/-- **Carving can be undone.**  After any calls on a new allocator, of any length: a block
given back as soon as it is carved leaves the allocator as it was, any blocks out may be given
back in any order, and giving back all of them makes it new. -/
theorem restorable_run (length : UInt64) (calls : List Call) :
    ∃ s, (start length).run calls = .ok s ∧ s.Restorable length.toNat := by
  obtain ⟨s, hrun, hpieces⟩ := (Pieces.start length).run length.toNat_lt calls
  exact ⟨s, hrun, hpieces.restorable⟩

end Session

end Igd.Stolen
