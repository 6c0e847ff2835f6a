/-
The limit loses no request that could be met.

A pool tests the limit on one block only, the one in the first hole that has a place.  It
does not look for another when that block ends above the limit.  A search that did would
find nothing either: the holes are in order and a place lies inside its hole, so the place
in the first hole is the lowest, and on the bus it is the lowest too, since there all of the
pool is moved by the same distance.  Of this `allocate?_isLeast` is the half about the heap.
-/
import Igd.Proofs.Dma.Bank
import Mathlib.Order.Bounds.Basic

namespace Igd.Dma

open Extents

namespace Heap

/-- The address in a hole at which the heap would take a block for a request of `size` bytes
at a multiple of `align`. -/
def placeFor (size align : Nat) (hole : Extent) : Option Nat :=
  if isLayout (blockSize size) align then place (blockSize size) align hole else none

variable {h h' : Heap} {size align start : Nat}

theorem placeFor_within {hole : Extent} (hplace : placeFor size align hole = some start) :
    hole.start ≤ start ∧ start < hole.stop := by
  have hpos := blockSize_pos size
  unfold placeFor at hplace
  split at hplace
  · rename_i hlayout
    simp only [isLayout, Bool.and_eq_true] at hlayout
    have hwithin := (place_eq_some (isPowerOfTwo_pos hlayout.1) hplace).2
    omega
  · cases hplace

theorem placeFor_eq_none (hnone : h.allocate? size align = none) :
    ∀ hole ∈ h.holes, placeFor size align hole = none := by
  intro hole hhole
  simp only [allocate?] at hnone
  simp only [placeFor]
  split at hnone
  · rw [if_pos ‹_›]
    exact firstFit_eq_none (Option.map_eq_none_iff.mp hnone) hole hhole
  · exact if_neg ‹_›

/-- **A block is taken at the lowest place of all holes.**  The holes in front of its own have
none, and those behind start above it. -/
theorem allocate?_isLeast (horder : InOrder h.holes)
    (htaken : h.allocate? size align = some (start, h')) :
    IsLeast {start | ∃ hole ∈ h.holes, placeFor size align hole = some start} start := by
  simp only [allocate?] at htaken
  split at htaken
  case isFalse => cases htaken
  case isTrue hlayout =>
    obtain ⟨fit, hfit, hpair⟩ := Option.map_eq_some_iff.mp htaken
    obtain ⟨rfl, rfl⟩ := Prod.mk.inj hpair
    obtain ⟨hholes, hfound⟩ := firstFit_eq_some hfit
    have hplace : ∀ hole, placeFor size align hole = place (blockSize size) align hole :=
      fun hole => if_pos hlayout
    refine ⟨⟨fit.found, by simp [hholes], by rw [hplace, hfound]⟩, ?_⟩
    rintro other ⟨hole, hhole, hother⟩
    rw [hholes] at hhole horder
    rcases List.mem_append.mp hhole with hhole | hhole
    · rw [hplace, firstFit_passed hfit hole hhole] at hother
      cases hother
    · rcases List.mem_cons.mp hhole with rfl | hhole
      · rw [hplace, hfound] at hother
        exact Nat.le_of_eq (Option.some.inj hother)
      · have hbehind : fit.found.stop < hole.start :=
          (List.pairwise_cons.mp (List.pairwise_append.mp horder.apart).2.1).1 hole hhole
        have hin := placeFor_within ((hplace fit.found).trans hfound)
        have hinOther := placeFor_within hother
        omega

end Heap

namespace Pool

/-- The address on the bus of the last byte of a buffer of `size` bytes at `start`. -/
def lastOnBus (q : Pool) (start size : Nat) : Nat :=
  q.bus.toNat + (start - q.base.toNat) + (size - 1)

/-- The heap would take a block at `start` in one of the holes, and the limit allows it. -/
structure Allows (q : Pool) (size align limit start : Nat) : Prop where
  placed : ∃ hole ∈ q.heap.holes, Heap.placeFor size align hole = some start
  within : q.lastOnBus start size ≤ limit

/-- What a search through all holes for a place that the limit allows would answer. -/
structure LowestWithin (q : Pool) (size align limit : Nat) (answer : Option DmaBuffer) :
    Prop where
  /-- A request gets nothing just if every hole has no place, or one above the limit. -/
  unmet : answer = none ↔ ∀ hole ∈ q.heap.holes, ∀ start,
    Heap.placeFor size align hole = some start → limit < q.lastOnBus start size
  /-- What it gets is at the lowest place that the limit allows. -/
  lowest : ∀ b, answer = some b → b = q.bufferAt b.vaddr.toNat size align ∧
    IsLeast {start | q.Allows size align limit start} b.vaddr.toNat

variable {p : Pool} {out : List DmaBuffer} {heap : Heap} {size align limit : Nat}

/-- **A pool answers as if it had searched all holes for a place within the limit.**  It tests
the limit on the one place that the heap took.  That place is the lowest, so if it is above the
limit then all are. -/
theorem Lends.lowestWithin (h : p.Lends out heap) (hn : p.New) (hsize : 0 < size)
    (hlayout : isLayout size align) (limit : Nat) :
    ∃ answer q notice, Pool.allocate { p with heap } size align limit = .ok (answer, q, notice) ∧
      LowestWithin { p with heap } size align limit answer := by
  cases htaken : heap.allocate? size align with
  | none =>
    refine ⟨none, _, none, allocate_noRoom limit htaken, ?_, by simp⟩
    simp only [true_iff]
    intro hole hhole start hplace
    rw [Heap.placeFor_eq_none htaken hole hhole] at hplace
    cases hplace
  | some taken =>
    obtain ⟨start, heap'⟩ := taken
    obtain ⟨-, hlow, hhigh, -⟩ := h.cut hn.toMade hlayout htaken
    obtain ⟨hplaced, hleast⟩ := Heap.allocate?_isLeast h.inOrder htaken
    have hfits := hn.fits
    have hbusFits := hn.busFits
    have hvalid : ¬ (size = 0 ∨ ¬ isLayout size align) := by simp [hlayout, Nat.ne_of_gt hsize]
    have hanswer := allocate_eq (p := { p with heap }) limit hvalid h.inOrder htaken hlow
      (by omega) (by simp only; omega)
    by_cases hlimit : p.bus.toNat + (start - p.base.toNat) + (size - 1) ≤ limit
    · rw [if_pos hlimit] at hanswer
      refine ⟨_, _, _, hanswer, ?_, ?_⟩
      · obtain ⟨hole, hhole, hplace⟩ := hplaced
        simp only [reduceCtorEq, false_iff]
        exact fun hall => absurd hlimit (Nat.not_le_of_lt (hall hole hhole start hplace))
      · rintro b hb
        cases hb
        have haddr : (bufferAt { p with heap } start size align).vaddr.toNat = start :=
          VirtAddr.toNat_ofNat (by omega)
        rw [haddr]
        exact ⟨rfl, ⟨hplaced, hlimit⟩, fun other hother => hleast hother.placed⟩
    · -- The first place is above the limit, and so are those in the holes behind.
      rw [if_neg hlimit] at hanswer
      refine ⟨_, _, _, hanswer, ?_, by simp⟩
      simp only [true_iff]
      intro hole hhole other hplace
      have hle : start ≤ other := hleast ⟨hole, hhole, hplace⟩
      simp only [lastOnBus] at hlimit ⊢
      omega

end Pool

namespace Bank

/-- **The limit loses no request that could be met**, after any calls on any pools.  A valid
request gets nothing just if there is no place for it below the limit, and else the lowest,
though the limit is tested on one place only. -/
theorem lowestWithin_run {ps : List Pool} (hps : Placed ps) (calls : List Call) :
    ∃ s, (start ps).run calls = .ok s ∧ ∀ q ∈ s.pools, ∀ size align limit : Nat, 0 < size →
      isLayout size align → ∃ answer q' notice,
        q.allocate size align limit = .ok (answer, q', notice) ∧
        q.LowestWithin size align limit answer := by
  obtain ⟨s, hrun, hsound⟩ := (Sound.start hps).run hps calls
  refine ⟨s, hrun, fun q hq size align limit hsize hlayout => ?_⟩
  obtain ⟨on, hon⟩ := List.getElem?_of_mem hq
  obtain ⟨p, heap, hp, rfl, hlends⟩ := hsound.lends on q hon
  exact hlends.lowestWithin (hps.new p (List.mem_of_getElem? hp)) hsize hlayout limit

/-- A pool over one page with a hole at either end. -/
def pageWithHoles : Pool :=
  { page with heap := ⟨[⟨0x1000, 0x1040⟩, ⟨0x1480, 0x2000⟩], 0x440⟩ }

/-- A request for which the first hole is too small, and that ends one byte above the limit in
the second. -/
theorem lowestWithin_run_page : Placed [page] ∧ ∃ s,
    (start [page]).run [.allocate 0 0x40 8 0xffff, .allocate 0 0x400 8 0xffff,
      .allocate 0 0x40 8 0xffff, .free 2 0] = .ok s ∧ pageWithHoles ∈ s.pools ∧
    0 < 128 ∧ isLayout 128 64 ∧ ∃ answer q' notice,
      pageWithHoles.allocate 128 64 0x84fe = .ok (answer, q', notice) ∧ answer = none ∧
      pageWithHoles.LowestWithin 128 64 0x84fe answer := by
  obtain ⟨s, hrun, hlowest⟩ := lowestWithin_run (.singleton page_new)
    [.allocate 0 0x40 8 0xffff, .allocate 0 0x400 8 0xffff, .allocate 0 0x40 8 0xffff, .free 2 0]
  have hmem : pageWithHoles ∈ s.pools := by
    cases hrun
    exact List.mem_singleton_self _
  obtain ⟨answer, q', notice, hanswer, hwithin⟩ :=
    hlowest _ hmem 128 64 0x84fe (by decide) (by decide)
  refine ⟨.singleton page_new, s, hrun, hmem, by decide, by decide, answer, q', notice, hanswer,
    ?_, hwithin⟩
  cases hanswer
  rfl

end Bank

end Igd.Dma
