/-
What a pool lends.

`Lends` describes the heap of a pool that was made over a range of memory and has lent
some buffers.  Its holes and the blocks of the buffers are its first hole in other pieces,
so no two of them overlap and all of them lie inside the range.  A buffer is a part of its
block, and is as far into the pool on the bus as it is for the processor, so what holds of
the blocks holds of the buffers, on either side.

Asking for a buffer cuts a block out of a hole or leaves the pool as it was, also where
the heap chose a block that the limit forbids.  Giving a buffer back joins its block to
the holes.  In which order buffers come back does not matter, since the pieces are the
same whichever of them is free.

Every request is answered, but for one whose block starts past the end of the bus
(`PastBus`); a pool that lies on the bus as a whole has no such block (`not_pastBus`).
-/
import Igd.Proofs.Dma
import Igd.Proofs.Extents.Recut

namespace Igd

/-- Where the processor sees a buffer. -/
def DmaBuffer.range (b : DmaBuffer) : Extent := ⟨b.vaddr.toNat, b.vaddr.toNat + b.size⟩

/-- Where the device sees a buffer. -/
def DmaBuffer.busRange (b : DmaBuffer) : Extent := ⟨b.bus.toNat, b.bus.toNat + b.size⟩

/-- What a heap uses for a buffer. -/
def DmaBuffer.block (b : DmaBuffer) : Extent :=
  ⟨b.vaddr.toNat, b.vaddr.toNat + Dma.blockSize b.size⟩

namespace Dma.Pool

open Extents

/-- Where the processor sees a pool. -/
def range (p : Pool) : Extent := ⟨p.base.toNat, p.base.toNat + p.size⟩

/-- The buffer at an address of a pool. -/
def bufferAt (p : Pool) (start size align : Nat) : DmaBuffer :=
  ⟨⟨.ofNat start⟩, ⟨.ofNat (p.bus.toNat + (start - p.base.toNat))⟩, size, align⟩

/-- A pool as it was made, over memory that words address on both sides. -/
structure New (p : Pool) : Prop where
  made : ofRange p.base p.bus p.size = .ok p
  fits : p.base.toNat + p.size < wordCount
  busFits : p.bus.toNat + p.size ≤ wordCount

/-- A pool as it was made, over memory that words address for the processor.  On the bus it
may start anywhere. -/
structure Made (p : Pool) : Prop where
  made : ofRange p.base p.bus p.size = .ok p
  fits : p.base.toNat + p.size < wordCount

/-- A buffer of a pool is what a request asked for. -/
structure Meets (p : Pool) (size align limit : Nat) (b : DmaBuffer) : Prop where
  size_eq : b.size = size
  align_eq : b.align = align
  /-- A buffer holds something. -/
  holds : 0 < size
  aligned : align ∣ b.vaddr.toNat
  within : p.base.toNat ≤ b.vaddr.toNat ∧ b.vaddr.toNat + size ≤ p.base.toNat + p.size
  /-- The buffer is as far into the pool on the bus as it is for the processor. -/
  bus : b.bus.toNat = p.bus.toNat + (b.vaddr.toNat - p.base.toNat)
  /-- The last byte on the bus is within the limit. -/
  limit : b.bus.toNat + (size - 1) ≤ limit

/-- The pool `p`, as it was made, has lent the buffers `out` and has now this heap. -/
structure Lends (p : Pool) (out : List DmaBuffer) (heap : Heap) : Prop where
  inOrder : InOrder heap.holes
  /-- The holes and the blocks are the first holes in other pieces. -/
  pieces : Recut p.heap.holes (heap.holes ++ out.map DmaBuffer.block)
  /-- What is counted as used is what the blocks hold. -/
  used : heap.used = p.heap.used + measured Extent.size (out.map DmaBuffer.block)
  layouts : ∀ b ∈ out, isLayout b.size b.align

variable {p : Pool} {out : List DmaBuffer} {heap heap' : Heap} {size align start : Nat}

/-! ### A new pool -/

theorem New.toMade (hn : p.New) : p.Made := ⟨hn.made, hn.fits⟩

theorem Made.inOrder (hn : p.Made) : InOrder p.heap.holes := by
  obtain ⟨start, stop, heq, -, hlt, -⟩ := ofRange_eq_ok hn.made
  rw [heq]
  exact inOrder_singleton hlt

theorem Made.within (hn : p.Made) :
    ∀ e ∈ p.heap.holes, p.base.toNat ≤ e.start ∧ e.stop ≤ p.base.toNat + p.size := by
  obtain ⟨start, stop, heq, hlow, -, hhigh⟩ := ofRange_eq_ok hn.made
  intro e he
  rw [heq] at he
  obtain rfl := List.mem_singleton.mp he
  exact ⟨hlow, hhigh⟩

theorem Made.lends (hn : p.Made) : p.Lends [] p.heap :=
  ⟨hn.inOrder, by simpa using Recut.refl _, by simp, by simp⟩

namespace Lends

theorem perm {out' : List DmaBuffer} (h : p.Lends out heap) (hperm : out.Perm out') :
    p.Lends out' heap where
  inOrder := h.inOrder
  pieces := h.pieces.perm ((List.Perm.refl _).append (hperm.map _))
  used := by rw [h.used, measured_perm _ (hperm.map _)]
  layouts := fun b hb => h.layouts b (hperm.mem_iff.mpr hb)

theorem apart (h : p.Lends out heap) (hn : p.Made) :
    (heap.holes ++ out.map DmaBuffer.block).Pairwise Extent.Apart :=
  h.pieces.apart hn.inOrder.pairwise_apart

end Lends

/-! ### Asking for a buffer -/

theorem allocate_noRoom (limit : Nat) (hroom : p.heap.allocate? size align = none) :
    p.allocate size align limit = .ok (none, p, none) := by
  unfold allocate
  split
  · rfl
  · simp only [hroom]
    rfl

theorem busOf_eq (hlow : p.base.toNat ≤ start) (hword : start < wordCount) :
    p.busOf ⟨.ofNat start⟩ = p.bus.add (start - p.base.toNat) := by
  have haddr := VirtAddr.toNat_ofNat hword
  simp only [busOf, haddr, Checked.sub_eq hlow, Checked.ok_bind]

/-- A request for which the heap takes a block is answered with it if the limit allows.  A
buffer that passes the end of the bus is above every limit. -/
theorem allocate_onBus (limit : Nat) (hvalid : ¬ (size = 0 ∨ ¬ isLayout size align))
    (horder : InOrder p.heap.holes) (htaken : p.heap.allocate? size align = some (start, heap'))
    (hlow : p.base.toNat ≤ start) (hword : start < wordCount)
    (hplace : p.bus.toNat + (start - p.base.toNat) < wordCount) :
    p.allocate size align limit = .ok (
      if p.bus.toNat + (start - p.base.toNat) + (size - 1) < wordCount ∧
          p.bus.toNat + (start - p.base.toNat) + (size - 1) ≤ limit then
        (some (p.bufferAt start size align), { p with heap := heap' }, none)
      else (none, p, some (.aboveLimit size (p.bufferAt start size align).bus limit))) := by
  have hbusOf : p.busOf ⟨.ofNat start⟩ = .ok (p.bufferAt start size align).bus := by
    rw [busOf_eq hlow hword]
    simp only [PhysAddr.add, Checked.add_eq hplace, Checked.ok_bind]
    rfl
  have hlimit : withinLimit (p.bufferAt start size align).bus size limit
      = decide (p.bus.toNat + (start - p.base.toNat) + (size - 1) < wordCount ∧
        p.bus.toNat + (start - p.base.toNat) + (size - 1) ≤ limit) := by
    simp only [withinLimit, bufferAt, PhysAddr.toNat_ofNat hplace, Bool.decide_and]
  unfold allocate
  rw [if_neg hvalid]
  simp only [htaken, Heap.deallocate_allocate? horder htaken, hbusOf, Checked.ok_bind, hlimit,
    decide_eq_true_eq]
  split <;> rfl

theorem allocate_eq (limit : Nat) (hvalid : ¬ (size = 0 ∨ ¬ isLayout size align))
    (horder : InOrder p.heap.holes) (htaken : p.heap.allocate? size align = some (start, heap'))
    (hlow : p.base.toNat ≤ start) (hword : start < wordCount)
    (hbus : p.bus.toNat + (start - p.base.toNat) + (size - 1) < wordCount) :
    p.allocate size align limit = .ok (
      if p.bus.toNat + (start - p.base.toNat) + (size - 1) ≤ limit then
        (some (p.bufferAt start size align), { p with heap := heap' }, none)
      else (none, p, some (.aboveLimit size (p.bufferAt start size align).bus limit))) := by
  have hanswer := allocate_onBus limit hvalid horder htaken hlow hword (by omega)
  simpa only [hbus, true_and] using hanswer

/-- The heap takes a block that starts past the end of the bus. -/
def PastBus (p : Pool) (size align : Nat) : Prop :=
  0 < size ∧ isLayout size align ∧ ∃ start heap, p.heap.allocate? size align = some (start, heap) ∧
    wordCount ≤ p.bus.toNat + (start - p.base.toNat)

theorem Made.meets_bufferAt {limit : Nat} (hn : p.Made) (hsize : 0 < size) (hdvd : align ∣ start)
    (hlow : p.base.toNat ≤ start) (hhigh : start + size ≤ p.base.toNat + p.size)
    (hplace : p.bus.toNat + (start - p.base.toNat) < wordCount)
    (hlimit : p.bus.toNat + (start - p.base.toNat) + (size - 1) ≤ limit) :
    p.Meets size align limit (p.bufferAt start size align) := by
  have hfits := hn.fits
  have haddr : (p.bufferAt start size align).vaddr.toNat = start :=
    VirtAddr.toNat_ofNat (by omega)
  have hbus : (p.bufferAt start size align).bus.toNat = p.bus.toNat + (start - p.base.toNat) :=
    PhysAddr.toNat_ofNat hplace
  exact ⟨rfl, rfl, hsize, by rwa [haddr], by rw [haddr]; exact ⟨hlow, hhigh⟩,
    by rw [hbus, haddr], by rwa [hbus]⟩

namespace Lends

theorem cut (h : p.Lends out heap) (hn : p.Made) (hlayout : isLayout size align)
    (htaken : heap.allocate? size align = some (start, heap')) :
    align ∣ start ∧ p.base.toNat ≤ start ∧ start + size ≤ p.base.toNat + p.size ∧
      p.Lends (p.bufferAt start size align :: out) heap' := by
  obtain ⟨before, found, after, hholes, hdvd, hstart, hstop, rfl⟩ :=
    Heap.allocate?_eq_some htaken
  have hpos := blockSize_pos size
  have hle := le_blockSize size
  have hmem : found ∈ heap.holes := by simp [hholes]
  have hfound := h.pieces.within hn.within (List.mem_append_left _ hmem) (by omega)
  have hfits := hn.fits
  have hblock : (p.bufferAt start size align).block = ⟨start, start + blockSize size⟩ := by
    simp only [DmaBuffer.block, bufferAt, VirtAddr.toNat_ofNat (by omega : start < wordCount)]
  have horder := h.inOrder
  have hpieces := h.pieces
  rw [hholes] at horder hpieces
  refine ⟨hdvd, by omega, by omega, ?_, ?_, ?_, ?_⟩
  · exact inOrder_take horder hstart (by omega) hstop
  · rw [List.map_cons, hblock]
    exact hpieces.take hstart (by omega) hstop
  · rw [List.map_cons, hblock, measured_cons, h.used]
    simp only [Extent.size]
    omega
  · exact List.forall_mem_cons.mpr ⟨hlayout, h.layouts⟩

/-- **A request gets nothing and changes nothing, or it gets what it asked for**, unless its
block starts past the end of the bus. -/
theorem allocate_of_onBus (h : p.Lends out heap) (hn : p.Made) (limit : Nat)
    (hbus : ¬ PastBus { p with heap } size align) :
    (∃ notice, Pool.allocate { p with heap } size align limit
        = .ok (none, { p with heap }, notice)) ∨
      ∃ b heap', Pool.allocate { p with heap } size align limit
          = .ok (some b, { p with heap := heap' }, none) ∧
        p.Meets size align limit b ∧ b.bus.toNat + (size - 1) < wordCount ∧
        p.Lends (b :: out) heap' := by
  by_cases hvalid : size = 0 ∨ ¬ isLayout size align
  · exact .inl ⟨none, if_pos hvalid⟩
  cases htaken : heap.allocate? size align with
  | none => exact .inl ⟨none, allocate_noRoom limit htaken⟩
  | some taken =>
    obtain ⟨start, heap'⟩ := taken
    obtain ⟨hzero, hlayout⟩ := not_or.mp hvalid
    have hsize : 0 < size := Nat.pos_of_ne_zero hzero
    obtain ⟨hdvd, hlow, hhigh, hlends⟩ := h.cut hn (not_not.mp hlayout) htaken
    have hfits := hn.fits
    have hplace : p.bus.toNat + (start - p.base.toNat) < wordCount :=
      Nat.lt_of_not_le fun hpast => hbus ⟨hsize, not_not.mp hlayout, start, heap', htaken, hpast⟩
    have hanswer := allocate_onBus (p := { p with heap }) limit hvalid h.inOrder htaken hlow
      (by omega) hplace
    split at hanswer
    · rename_i hlimit
      have hat : (p.bufferAt start size align).bus.toNat
          = p.bus.toNat + (start - p.base.toNat) := PhysAddr.toNat_ofNat hplace
      refine .inr ⟨_, heap', hanswer, ?_, ?_, hlends⟩
      · exact hn.meets_bufferAt hsize hdvd hlow hhigh hplace hlimit.2
      · show (p.bufferAt start size align).bus.toNat + (size - 1) < wordCount
        rw [hat]
        exact hlimit.1
    · -- The heap has the block back, and is what it was.
      exact .inl ⟨_, hanswer⟩

/-- A block that starts past the end of the bus has no address there, and that is found out
when the heap has taken it. -/
theorem allocate_of_pastBus (h : p.Lends out heap) (hn : p.Made) (limit : Nat)
    (hbus : PastBus { p with heap } size align) :
    Pool.allocate { p with heap } size align limit = .error .addOverflow := by
  obtain ⟨hsize, hlayout, start, heap', htaken, hpast⟩ := hbus
  obtain ⟨-, hlow, hhigh, -⟩ := h.cut hn hlayout htaken
  have hfits := hn.fits
  have hvalid : ¬ (size = 0 ∨ ¬ isLayout size align) := by simp [hlayout, Nat.ne_of_gt hsize]
  have hbusOf : Pool.busOf { p with heap } ⟨.ofNat start⟩ = .error .addOverflow := by
    rw [busOf_eq (p := { p with heap }) hlow (by omega)]
    rcases p.bus.add_cases (start - p.base.toNat) with ⟨a, -, hsame⟩ | ⟨hadd, -⟩
    · have hword : a.toNat < wordCount := a.val.toNat_lt
      simp only at hpast
      omega
    · exact hadd
  unfold Pool.allocate
  rw [if_neg hvalid]
  simp only [htaken, hbusOf, Checked.error_bind]

/-- No block of a new pool starts past the end of the bus, since the whole range of the pool is
on it. -/
theorem not_pastBus (h : p.Lends out heap) (hn : p.New) :
    ¬ PastBus { p with heap } size align := by
  rintro ⟨hsize, hlayout, start, heap', htaken, hpast⟩
  obtain ⟨-, hlow, hhigh, -⟩ := h.cut hn.toMade hlayout htaken
  have hbusFits := hn.busFits
  simp only at hpast
  omega

theorem allocate (h : p.Lends out heap) (hn : p.New) (size align limit : Nat) :
    (∃ notice, Pool.allocate { p with heap } size align limit
        = .ok (none, { p with heap }, notice)) ∨
      ∃ b heap', Pool.allocate { p with heap } size align limit
          = .ok (some b, { p with heap := heap' }, none) ∧
        p.Meets size align limit b ∧ p.Lends (b :: out) heap' := by
  rcases h.allocate_of_onBus hn.toMade limit (h.not_pastBus hn) with
    hnone | ⟨b, heap', hanswer, hmeets, -, hlends⟩
  · exact .inl hnone
  · exact .inr ⟨b, heap', hanswer, hmeets, hlends⟩

/-! ### Giving a buffer back -/

theorem free {b : DmaBuffer} (h : p.Lends (b :: out) heap) (hn : p.Made)
    (hknown : Pool.contains { p with heap } b = .ok true) :
    ∃ heap', Pool.free { p with heap } b = .ok (.ok (), { p with heap := heap' }, none) ∧
      p.Lends out heap' := by
  have hpos := blockSize_pos b.size
  have hlayout : isLayout b.size b.align := h.layouts b (by simp)
  have hblock : b.block.start < b.block.stop := by simp only [DmaBuffer.block]; omega
  have hapart : ∀ e ∈ heap.holes, Extent.Apart b.block e := by
    intro e he
    exact ((List.pairwise_append.mp (h.apart hn)).2.2 e he b.block (by simp)).symm
  have hholds : ∀ e ∈ heap.holes, e.start ≤ e.stop := fun e he =>
    Nat.le_of_lt (h.inOrder.holds e he)
  refine ⟨heap.deallocate b.vaddr.toNat b.size, ?_, ?_, ?_, ?_, ?_⟩
  · unfold Pool.free
    rw [hknown, Checked.ok_bind, if_pos rfl, if_pos hlayout]
    rfl
  · exact inOrder_insert hblock hapart h.inOrder
  · exact h.pieces.insert (Nat.le_of_lt hblock) hholds
  · have hused := h.used
    rw [List.map_cons, measured_cons] at hused
    simp only [Heap.deallocate, hused, Extent.size, DmaBuffer.block]
    omega
  · exact fun c hc => h.layouts c (List.mem_cons_of_mem _ hc)

end Lends

theorem free_refused {b : DmaBuffer} (hunknown : p.contains b = .ok false) :
    p.free b = .ok (.error .invalid, p, some (.foreignBuffer b.vaddr)) := by
  unfold Pool.free
  rw [hunknown, Checked.ok_bind]
  rfl

/-! ### Whose buffer it is -/

namespace Meets

variable {limit : Nat} {b : DmaBuffer}

theorem range_within (h : p.Meets size align limit b) {offset : Nat} (hoffset : offset ∈ b.range) :
    offset ∈ p.range := by
  have hsize := h.size_eq
  have hwithin := h.within
  simp only [DmaBuffer.range, range, Extent.mem_iff] at hoffset ⊢
  omega

/-- Only a pool from the null address on has a buffer there. -/
theorem notNull (h : p.Meets size align limit b) (hbase : p.base.isNull = false) :
    b.vaddr.isNull = false := by
  have hpos := isNull_eq_false.mp hbase
  have hlow := h.within.1
  exact isNull_eq_false.mpr (by omega)

/-- A pool knows its own buffer, unless the buffer is at the null address, which stands for no
address. -/
theorem contains_eq (h : p.Meets size align limit b) (hn : p.Made) (heap : Heap) :
    Pool.contains { p with heap } b = .ok (!b.vaddr.isNull) := by
  have hwithin := h.within
  have hanswer := Pool.contains_eq (p := { p with heap }) hn.fits b
  simp only [hanswer, h.size_eq, hwithin.1, hwithin.2, and_self, and_true]
  cases b.vaddr.isNull <;> rfl

theorem contains_eq_false {q : Pool} (h : p.Meets size align limit b) (hq : q.Made)
    (hapart : Extent.Apart p.range q.range) (heap : Heap) :
    Pool.contains { q with heap } b = .ok false := by
  have hanswer := Pool.contains_eq (p := { q with heap }) hq.fits b
  rw [hanswer]
  refine congrArg Except.ok (decide_eq_false ?_)
  rintro ⟨-, hlow, hhigh⟩
  have hholds := h.holds
  have hsize := h.size_eq
  -- The first byte of the buffer would be in both pools.
  have hfirst : b.vaddr.toNat ∈ b.range := by
    simp only [DmaBuffer.range, Extent.mem_iff]
    omega
  refine hapart b.vaddr.toNat ⟨h.range_within hfirst, ?_⟩
  simp only [range, Extent.mem_iff] at hlow hhigh ⊢
  omega

/-- Buffers of one pool whose blocks do not overlap do not overlap on either side. -/
theorem apart {size' align' limit' : Nat} {c : DmaBuffer} (hb : p.Meets size align limit b)
    (hc : p.Meets size' align' limit' c) (h : Extent.Apart b.block c.block) :
    Extent.Apart b.range c.range ∧ Extent.Apart b.busRange c.busRange := by
  have hbsize := le_blockSize b.size
  have hcsize := le_blockSize c.size
  have hbwithin := hb.within.1
  have hcwithin := hc.within.1
  have hbbus := hb.bus
  have hcbus := hc.bus
  refine ⟨fun offset ⟨hinb, hinc⟩ => h offset ⟨?_, ?_⟩, fun offset ⟨hinb, hinc⟩ =>
    h (offset - p.bus.toNat + p.base.toNat) ⟨?_, ?_⟩⟩
  all_goals
    simp only [DmaBuffer.range, DmaBuffer.busRange, DmaBuffer.block, Extent.mem_iff] at hinb hinc ⊢
    omega

end Meets

end Dma.Pool

end Igd
