/-
A pool that gets back what it lent, in reverse, is what it was.

The heap takes a block out of its first hole with room, and putting the block back
restores the list of holes.  So a pool that lends one buffer and takes it back is the
pool it was before, and with buffers lent and returned like a stack the whole history
can be undone step by step.  `Lent p₀ owed p` is that stack: `p` is what `p₀` has become
by lending the buffers that `owed` gives back.  A balanced run keeps it, so once nothing
is owed the pool is `p₀` again, hole by hole.

A pool is over memory that the processor can use: it does not start at the null address,
and its end fits a machine word.
-/
import Igd.Dma.Pool
import Igd.Proofs.Addressing
import Igd.Proofs.Extents
import Igd.Proofs.Ledger

namespace Igd

/-- A request for DMA memory, or its return. -/
def Request.isDma : Request → Bool
  | .dmaAlloc _ _ _ | .dmaFree _ => true
  | _ => false

theorem isDma_of_mem_owes {x : Exchange} {due : Request} (hx : x.request.isDma = false)
    (h : due ∈ x.owes) : due.isDma = false := by
  unfold Exchange.owes at h
  split at h
  case h_1 =>
    split at h
    · simp at h
    · rw [List.mem_singleton.mp h]
      rfl
  case h_2 => cases hx
  case h_8 => simp at h
  all_goals
    rw [List.mem_singleton.mp h]
    rfl

namespace Dma

open Extents

theorem isNull_eq_false {a : VirtAddr} : a.isNull = false ↔ 0 < a.toNat := by
  simp [VirtAddr.isNull, VirtAddr.toNat, ← UInt64.toNat_inj, Nat.pos_iff_ne_zero]

/-! ### The heap -/

theorem le_roundUp (n : Nat) {unit : Nat} (h : 0 < unit) : n ≤ roundUp n unit := by
  have hdiv := Nat.div_add_mod' (n + (unit - 1)) unit
  have hmod := Nat.mod_lt (n + (unit - 1)) h
  unfold roundUp
  omega

theorem dvd_roundUp (n unit : Nat) : unit ∣ roundUp n unit := Nat.dvd_mul_left _ _

theorem le_blockSize (size : Nat) : size ≤ blockSize size :=
  Nat.le_trans (Nat.le_max_left _ _) (le_roundUp _ (by decide))

theorem blockSize_pos (size : Nat) : 0 < blockSize size :=
  Nat.lt_of_lt_of_le (by decide)
    (Nat.le_trans (Nat.le_max_right size headerSize) (le_roundUp _ (by decide)))

namespace Heap

theorem place_eq_some {size align start : Nat} {hole : Extent} (halign : 0 < align)
    (h : place size align hole = some start) :
    align ∣ start ∧ hole.start ≤ start ∧ start + size ≤ hole.stop := by
  have hround := le_roundUp (hole.start + headerSize) halign
  have hstart : hole.start ≤
      if hole.start % align = 0 then hole.start else roundUp (hole.start + headerSize) align := by
    split <;> omega
  have hdvd : align ∣
      if hole.start % align = 0 then hole.start else roundUp (hole.start + headerSize) align := by
    split
    · exact Nat.dvd_of_mod_eq_zero ‹_›
    · exact dvd_roundUp _ _
  simp only [place] at h
  generalize (if hole.start % align = 0 then hole.start
    else roundUp (hole.start + headerSize) align) = chosen at h hstart hdvd
  split at h
  · rename_i hfits
    obtain rfl := Option.some.inj h
    exact ⟨hdvd, hstart, hfits.1⟩
  · cases h

/-- What taking a block does: it comes out of one hole, and the rest is as it was. -/
theorem allocate?_eq_some {h h' : Heap} {size align start : Nat}
    (halloc : h.allocate? size align = some (start, h')) :
    ∃ before found after, h.holes = before ++ found :: after ∧ align ∣ start ∧
      found.start ≤ start ∧ start + blockSize size ≤ found.stop ∧
      h' = ⟨before ++ kept [⟨found.start, start⟩, ⟨start + blockSize size, found.stop⟩] ++ after,
        h.used + blockSize size⟩ := by
  simp only [allocate?] at halloc
  split at halloc
  · rename_i hlayout
    have halign : 0 < align := by
      simp only [isLayout, Bool.and_eq_true] at hlayout
      exact isPowerOfTwo_pos hlayout.1
    obtain ⟨fit, hfit, hpair⟩ := Option.map_eq_some_iff.mp halloc
    obtain ⟨rfl, rfl⟩ := Prod.mk.inj hpair
    obtain ⟨hholes, hplace⟩ := firstFit_eq_some hfit
    obtain ⟨hdvd, hstart, hstop⟩ := place_eq_some halign hplace
    exact ⟨fit.before, fit.found, fit.after, hholes, hdvd, hstart, hstop, rfl⟩
  · cases halloc

/-- Putting back a block that was just taken restores the heap.  What was left of its hole
joins it again, and nothing else does, because holes do not touch. -/
theorem deallocate_allocate? {h h' : Heap} {size align start : Nat} (hholes : InOrder h.holes)
    (halloc : h.allocate? size align = some (start, h')) : h'.deallocate start size = h := by
  obtain ⟨before, found, after, hsplit, -, hstart, hstop, rfl⟩ := allocate?_eq_some halloc
  have hpos := blockSize_pos size
  rw [hsplit] at hholes
  have hinsert := insert_take hholes hstart (by omega : start < start + blockSize size) hstop
  unfold deallocate
  simp only [hinsert, ← hsplit, Nat.add_sub_cancel]

theorem ofRange_eq_ok {bottom size : Nat} {h : Heap} (hnew : ofRange bottom size = .ok h) :
    ∃ start stop, h = ⟨[⟨start, stop⟩], 0⟩ ∧ bottom ≤ start ∧ start < stop ∧
      stop ≤ bottom + size := by
  have hlow : bottom ≤ roundUp bottom granule := le_roundUp _ (by decide)
  simp only [ofRange] at hnew
  split at hnew
  · cases hnew
  split at hnew
  · cases hnew
  · rename_i hsize husable
    simp only [headerSize, granule] at husable hlow
    refine ⟨_, _, (Except.ok.inj hnew).symm, hlow, ?_, ?_⟩ <;> simp only [granule] <;> omega

end Heap

/-! ### The pool -/

namespace Pool

/-- A pool over usable memory, whose holes are in order and inside it. -/
structure Sound (p : Pool) : Prop where
  notNull : p.base.isNull = false
  fits : p.base.toNat + p.size < wordCount
  inOrder : InOrder p.heap.holes
  within : ∀ e ∈ p.heap.holes, p.base.toNat ≤ e.start ∧ e.stop ≤ p.base.toNat + p.size

theorem ofRange_eq_ok {base : VirtAddr} {bus : PhysAddr} {size : Nat} {p : Pool}
    (h : ofRange base bus size = .ok p) : ∃ start stop,
      p = ⟨⟨[⟨start, stop⟩], 0⟩, base, bus, size⟩ ∧ base.toNat ≤ start ∧ start < stop ∧
      stop ≤ base.toNat + size := by
  unfold ofRange at h
  cases hheap : Heap.ofRange base.toNat size with
  | error f =>
    rw [hheap, Checked.error_bind] at h
    cases h
  | ok heap =>
    rw [hheap, Checked.ok_bind] at h
    obtain ⟨start, stop, rfl, hlow, hlt, hhigh⟩ := Heap.ofRange_eq_ok hheap
    exact ⟨start, stop, (Except.ok.inj h).symm, hlow, hlt, hhigh⟩

theorem ofRange_sound {base : VirtAddr} {bus : PhysAddr} {size : Nat} {p : Pool}
    (h : ofRange base bus size = .ok p) (hnull : base.isNull = false)
    (hfits : base.toNat + size < wordCount) : p.Sound := by
  obtain ⟨start, stop, rfl, hlow, hlt, hhigh⟩ := ofRange_eq_ok h
  refine ⟨hnull, hfits, inOrder_singleton hlt, ?_⟩
  intro e he
  obtain rfl := List.mem_singleton.mp he
  exact ⟨hlow, hhigh⟩

theorem used_ofRange {base : VirtAddr} {bus : PhysAddr} {size : Nat} {p : Pool}
    (h : ofRange base bus size = .ok p) : p.used = 0 := by
  obtain ⟨start, stop, rfl, -⟩ := ofRange_eq_ok h
  rfl

variable {p p' : Pool} {size align limit : Nat} {notice : Option Notice}

/-- Asking a pool for a buffer either changes nothing, also if the heap chose a block and
put it back, or lends the block that the heap took. -/
theorem allocate_eq_ok {answer : Option DmaBuffer} (hs : p.Sound)
    (h : p.allocate size align limit = .ok (answer, p', notice)) :
    (answer = none ∧ p' = p) ∨
    (isLayout size align ∧ ∃ start heap bus,
      p.heap.allocate? size align = some (start, heap) ∧
      answer = some ⟨⟨.ofNat start⟩, bus, size, align⟩ ∧ p' = { p with heap }) := by
  unfold allocate at h
  split at h
  · cases h
    exact .inl ⟨rfl, rfl⟩
  rename_i hlayout
  cases hheap : p.heap.allocate? size align with
  | none =>
    simp only [hheap] at h
    cases h
    exact .inl ⟨rfl, rfl⟩
  | some taken =>
    obtain ⟨start, heap⟩ := taken
    simp only [hheap, Heap.deallocate_allocate? hs.inOrder hheap] at h
    cases hbus : p.busOf ⟨.ofNat start⟩ with
    | error f =>
      rw [hbus, Checked.error_bind] at h
      cases h
    | ok bus =>
      rw [hbus, Checked.ok_bind] at h
      split at h
      · cases h
        have hsome : isLayout size align := by
          simpa using (not_or.mp hlayout).2
        exact .inr ⟨hsome, start, heap, bus, rfl, rfl, rfl⟩
      · cases h
        exact .inl ⟨rfl, rfl⟩

theorem eq_of_allocate_none (hs : p.Sound)
    (h : p.allocate size align limit = .ok (none, p', notice)) : p' = p := by
  rcases allocate_eq_ok hs h with ⟨-, heq⟩ | ⟨-, start, heap, bus, -, hanswer, -⟩
  · exact heq
  · cases hanswer

/-- A block that the heap takes lies inside the pool, since the holes do and the block is no
shorter than what was asked for. -/
theorem Sound.block_within {start : Nat} {heap : Heap} (hs : p.Sound)
    (hheap : p.heap.allocate? size align = some (start, heap)) :
    p.base.toNat ≤ start ∧ start + size ≤ p.base.toNat + p.size := by
  obtain ⟨before, found, after, hholes, -, hstart, hstop, -⟩ := Heap.allocate?_eq_some hheap
  have hwithin := hs.within found (by simp [hholes])
  have hsize := le_blockSize size
  omega

theorem Sound.lend {start : Nat} {heap : Heap} (hs : p.Sound)
    (hheap : p.heap.allocate? size align = some (start, heap)) : Sound { p with heap } := by
  obtain ⟨before, found, after, hholes, -, hstart, hstop, rfl⟩ := Heap.allocate?_eq_some hheap
  have hpos := blockSize_pos size
  have hfound := hs.within found (by simp [hholes])
  have horder := hs.inOrder
  rw [hholes] at horder
  refine ⟨hs.notNull, hs.fits, inOrder_take horder hstart (by omega) hstop, ?_⟩
  intro e he
  simp only [List.append_assoc, List.mem_append] at he
  rcases he with he | he | he
  · exact hs.within e (by simp [hholes, he])
  · obtain ⟨hmem, -⟩ := mem_kept.mp he
    simp only [List.mem_cons, List.not_mem_nil, or_false] at hmem
    rcases hmem with rfl | rfl <;> simp only <;> omega
  · exact hs.within e (by simp [hholes, he])

/-- **Whether a pool knows a buffer is always answered**, and is whether the buffer lies
inside the pool at an address that can be used. -/
theorem contains_eq (hfits : p.base.toNat + p.size < wordCount) (b : DmaBuffer) :
    p.contains b = .ok (decide (b.vaddr.isNull = false ∧ p.base.toNat ≤ b.vaddr.toNat ∧
      b.vaddr.toNat + b.size ≤ p.base.toNat + p.size)) := by
  unfold Pool.contains
  simp only [Checked.add_eq hfits, Checked.ok_bind]
  split
  · rename_i hout
    refine congrArg Except.ok (decide_eq_false ?_).symm
    rintro ⟨hnull, hlow, hhigh⟩
    rw [hnull] at hout
    rcases hout with hout | hout | hout
    · omega
    · cases hout
    · omega
  · rename_i hin
    have hnull : b.vaddr.isNull = false := by simp_all
    have hlow : p.base.toNat ≤ b.vaddr.toNat := by omega
    simp only [hnull, hlow, true_and]
    rfl

theorem Sound.contains {b : DmaBuffer} (hs : p.Sound) (hlow : p.base.toNat ≤ b.vaddr.toNat)
    (hhigh : b.vaddr.toNat + b.size ≤ p.base.toNat + p.size) : p.contains b = .ok true := by
  have hbase := isNull_eq_false.mp hs.notNull
  have hnull : b.vaddr.isNull = false := isNull_eq_false.mpr (by omega)
  rw [contains_eq hs.fits, decide_eq_true ⟨hnull, hlow, hhigh⟩]

/-- A pool that lends a buffer gets it back by freeing it, and is then what it was. -/
theorem free_of_allocate_some {b : DmaBuffer} (hs : p.Sound)
    (h : p.allocate size align limit = .ok (some b, p', notice)) :
    p'.Sound ∧ p'.free b = .ok (.ok (), p, none) := by
  rcases allocate_eq_ok hs h with ⟨hanswer, -⟩ | ⟨hlayout, start, heap, bus, hheap, hanswer, rfl⟩
  · cases hanswer
  obtain rfl := Option.some.inj hanswer
  obtain ⟨hlow, hhigh⟩ := hs.block_within hheap
  have hfits := hs.fits
  have haddr := VirtAddr.toNat_ofNat (by omega : start < wordCount)
  have hcontains : Pool.contains { p with heap } ⟨⟨.ofNat start⟩, bus, size, align⟩ = .ok true :=
    (hs.lend hheap).contains (by simpa [haddr] using hlow) (by simpa [haddr] using hhigh)
  refine ⟨hs.lend hheap, ?_⟩
  unfold free
  rw [hcontains, Checked.ok_bind]
  simp only [if_true, hlayout, haddr, Heap.deallocate_allocate? hs.inOrder hheap]
  rfl

/-! ### Lending -/

/-- The requests for DMA memory among these exchanges were answered by the pool `p`, in
order, which has become `q` by that.  Nobody else uses it. -/
inductive Serves : Pool → List Exchange → Pool → Prop
  | nil (p : Pool) : Serves p [] p
  | allocate {p p' q : Pool} {size align limit : Nat} {answer : Option DmaBuffer}
      {notice : Option Notice} {rest : List Exchange}
      (h : p.allocate size align limit = .ok (answer, p', notice)) (hrest : Serves p' rest q) :
      Serves p (⟨.dmaAlloc size align limit, answer⟩ :: rest) q
  | free {p p' q : Pool} {b : DmaBuffer} {answer : Except ServiceError Unit}
      {notice : Option Notice} {rest : List Exchange}
      (h : p.free b = .ok (answer, p', notice)) (hrest : Serves p' rest q) :
      Serves p (⟨.dmaFree b, answer⟩ :: rest) q
  | other {p q : Pool} {x : Exchange} {rest : List Exchange} (h : x.request.isDma = false)
      (hrest : Serves p rest q) : Serves p (x :: rest) q

/-- `p` is what `p₀` has become by lending the buffers that `owed` gives back, the latest
first. -/
inductive Lent (p₀ : Pool) : List Request → Pool → Prop
  | nil : Lent p₀ [] p₀
  | other {p : Pool} {due : Request} {owed : List Request} (h : due.isDma = false)
      (hlent : Lent p₀ owed p) : Lent p₀ (due :: owed) p
  | buffer {p p' : Pool} {b : DmaBuffer} {owed : List Request} (hs : p'.Sound)
      (hback : p'.free b = .ok (.ok (), p, none)) (hlent : Lent p₀ owed p) :
      Lent p₀ (.dmaFree b :: owed) p'

namespace Lent

variable {p₀ q : Pool} {owed left : List Request}

theorem sound (hlent : Lent p₀ owed p) (h₀ : p₀.Sound) : p.Sound := by
  induction hlent with
  | nil => exact h₀
  | other _ _ ih => exact ih
  | buffer hs _ _ _ => exact hs

theorem append (hlent : Lent p₀ owed p) {dues : List Request}
    (h : ∀ due ∈ dues, due.isDma = false) : Lent p₀ (dues ++ owed) p := by
  induction dues with
  | nil => exact hlent
  | cons due rest ih => exact .other (h due (by simp)) (ih fun d hd => h d (by simp [hd]))

theorem settle {x : Exchange} {rest : List Exchange} (hlent : Lent p₀ owed p) (h₀ : p₀.Sound)
    (hleft : Igd.settle owed x = some left) (hserves : Serves p (x :: rest) q) :
    ∃ p', Lent p₀ left p' ∧ Serves p' rest q := by
  cases hserves with
  | allocate h hrest =>
    rw [settle_obtain (by simp [Request.isRelease]), Option.some.injEq] at hleft
    rename_i p' size align limit answer notice
    cases answer with
    | none =>
      obtain rfl := eq_of_allocate_none (hlent.sound h₀) h
      exact ⟨_, by simpa [← hleft, Exchange.owes] using hlent, hrest⟩
    | some b =>
      obtain ⟨hs, hback⟩ := free_of_allocate_some (hlent.sound h₀) h
      exact ⟨_, by simpa [← hleft, Exchange.owes] using .buffer hs hback hlent, hrest⟩
  | free h hrest =>
    have howed := settle_eq_some_of_isRelease (by rfl) hleft
    subst howed
    cases hlent with
    | other hother _ => cases hother
    | buffer _ hback hlent =>
      rw [hback] at h
      cases h
      exact ⟨_, hlent, hrest⟩
  | other hother hrest =>
    refine ⟨p, ?_, hrest⟩
    by_cases hx : x.request.isRelease
    · have howed := settle_eq_some_of_isRelease hx hleft
      generalize x.request = r at hother howed
      subst howed
      cases hlent with
      | other _ hlent => exact hlent
      | buffer _ _ _ => cases hother
    · rw [settle_obtain hx, Option.some.injEq] at hleft
      rw [← hleft]
      exact hlent.append fun due hdue => isDma_of_mem_owes hother hdue

/-- A balanced run that the pool serves keeps the pool lent just what is owed. -/
theorem balance {xs : List Exchange} (hlent : Lent p₀ owed p) (h₀ : p₀.Sound)
    (hleft : Igd.balance owed xs = some left) (hserves : Serves p xs q) : Lent p₀ left q := by
  induction xs generalizing owed p with
  | nil =>
    cases hserves
    obtain rfl : owed = left := by simpa using hleft
    exact hlent
  | cons x rest ih =>
    obtain ⟨mid, hmid, hrest⟩ := Option.bind_eq_some_iff.mp hleft
    obtain ⟨p', hlent', hserves'⟩ := hlent.settle h₀ hmid hserves
    exact ih hlent' hrest hserves'

end Lent

/-- **A pool that is owed nothing is what it was.**  The ledger is a pile, so the buffer that
comes back is the one that was lent last, and its return undoes that loan. -/
theorem eq_of_balance {p₀ q : Pool} {xs : List Exchange} (h₀ : p₀.Sound)
    (hleft : Igd.balance [] xs = some []) (hserves : Serves p₀ xs q) : q = p₀ := by
  cases Lent.nil.balance h₀ hleft hserves
  rfl

end Pool

end Dma

end Igd
