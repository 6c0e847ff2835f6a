/-
How buffers are aligned on the bus.

A pool looks for an address of the processor at a multiple of the alignment, and the address on
the bus is as far into the pool as that one.  So a buffer is aligned for the processor, and on
the bus it is off by as much as the two bases of its pool differ.  Nothing is looked at on the
bus but the limit.

That holds of every buffer, whatever was lent before, since a pool stays where it was made.  A
status page is such a buffer, and what the device is told of it is its address on the bus.
-/
import Igd.Proofs.Dma.Bank
import Igd.Proofs.Dma.Behind
import Igd.Proofs.StatusPage.Courses
import Mathlib.Data.Nat.ModEq

namespace Igd.Dma

/-! ### One buffer -/

/-- A multiple that is moved by the same distance as one base lands on a multiple just if the
other base has the same remainder. -/
theorem dvd_moved_iff {align base bus place : Nat} (hlow : base ≤ place) (hdvd : align ∣ place) :
    align ∣ bus + (place - base) ↔ base % align = bus % align := by
  obtain ⟨distance, rfl⟩ := Nat.exists_eq_add_of_le hlow
  rw [Nat.add_sub_cancel_left]
  have hplace : base + distance ≡ 0 [MOD align] := (Nat.modEq_zero_iff_dvd).mpr hdvd
  constructor
  · intro h
    have hmoved : bus + distance ≡ 0 [MOD align] := (Nat.modEq_zero_iff_dvd).mpr h
    exact Nat.ModEq.add_right_cancel' distance (hplace.trans hmoved.symm)
  · intro h
    have hsame : base + distance ≡ bus + distance [MOD align] := Nat.ModEq.add_right distance h
    exact (Nat.modEq_zero_iff_dvd).mp (hsame.symm.trans hplace)

namespace Pool

variable {p q : Pool} {size align limit : Nat} {b : DmaBuffer} {notice : Option Notice}

/-- How a buffer of a pool is aligned. -/
structure Aligns (p : Pool) (align : Nat) (b : DmaBuffer) : Prop where
  vaddr : align ∣ b.vaddr.toNat
  /-- On the bus it is aligned just if the two bases of the pool agree. -/
  bus : align ∣ b.bus.toNat ↔ p.base.toNat % align = p.bus.toNat % align

theorem allocate_keeps {answer : Option DmaBuffer}
    (h : p.allocate size align limit = .ok (answer, q, notice)) :
    ∃ heap, q = { p with heap } := by
  unfold allocate at h
  split at h
  · cases h
    exact ⟨_, rfl⟩
  · split at h
    · cases h
      exact ⟨_, rfl⟩
    · obtain ⟨bus, -, h⟩ := Checked.bind_eq_ok h
      split at h <;> cases h <;> exact ⟨_, rfl⟩

theorem free_keeps {answer : Except ServiceError Unit}
    (h : p.free b = .ok (answer, q, notice)) : ∃ heap, q = { p with heap } := by
  obtain ⟨known, -, h⟩ := Checked.bind_eq_ok h
  split at h
  · split at h <;> cases h <;> exact ⟨_, rfl⟩
  · cases h
    exact ⟨_, rfl⟩

theorem busOf_eq_ok {vaddr : VirtAddr} {bus : PhysAddr} (h : p.busOf vaddr = .ok bus) :
    p.base.toNat ≤ vaddr.toNat ∧
      bus.toNat = p.bus.toNat + (vaddr.toNat - p.base.toNat) := by
  obtain ⟨distance, hdistance, hadd⟩ := Checked.bind_eq_ok h
  unfold Checked.sub at hdistance
  split at hdistance
  · cases hdistance
    rcases p.bus.add_cases (vaddr.toNat - p.base.toNat) with ⟨a, hsum, hplace⟩ | ⟨hsum, -⟩
    · cases hsum.symm.trans hadd
      exact ⟨‹_›, hplace⟩
    · cases hsum.symm.trans hadd
  · cases hdistance

theorem allocate_eq_some (h : p.allocate size align limit = .ok (some b, q, notice)) :
    isLayout size align ∧ ∃ start heap, p.heap.allocate? size align = some (start, heap) ∧
      b.vaddr = ⟨.ofNat start⟩ ∧ p.base.toNat ≤ b.vaddr.toNat ∧
      b.bus.toNat = p.bus.toNat + (b.vaddr.toNat - p.base.toNat) := by
  unfold allocate at h
  split at h
  · cases h
  rename_i hvalid
  split at h
  · cases h
  rename_i start heap htaken
  obtain ⟨bus, hbus, h⟩ := Checked.bind_eq_ok h
  split at h
  · cases h
    exact ⟨not_not.mp (not_or.mp hvalid).2, start, heap, htaken, rfl, busOf_eq_ok hbus⟩
  · cases h

/-- **A buffer is aligned for the processor, and on the bus as its pool is.**  The heap aligns
the place, and the bus address is as far into the pool as the place is. -/
theorem aligns_of_allocate (h : p.allocate size align limit = .ok (some b, q, notice)) :
    p.Aligns align b := by
  obtain ⟨hlayout, start, heap, htaken, hvaddr, hlow, hbus⟩ := allocate_eq_some h
  obtain ⟨-, -, -, -, hstart, -⟩ := Heap.allocate?_eq_some htaken
  simp only [isLayout, Bool.and_eq_true, decide_eq_true_eq] at hlayout
  have hsigned : signedCount < wordCount := by decide
  have hwhole : align ∣ wordCount := isPowerOfTwo_dvd_wordCount hlayout.1 (by omega)
  have hdvd : align ∣ b.vaddr.toNat := by
    rw [hvaddr]
    show align ∣ (UInt64.ofNat start).toNat
    rw [UInt64.toNat_ofNat']
    exact (Nat.dvd_mod_iff hwhole).mpr hstart
  refine ⟨hdvd, ?_⟩
  rw [hbus]
  exact dvd_moved_iff hlow hdvd

end Pool

/-! ### Any calls -/

namespace Bank

variable {ps : List Pool} {s s' : Bank}

/-- The pools are those of `ps` with other heaps. -/
def Keeps (ps qs : List Pool) : Prop :=
  ∀ (on : Nat) (q : Pool), qs[on]? = some q → ∃ p heap, ps[on]? = some p ∧ q = { p with heap }

theorem Keeps.refl (ps : List Pool) : Keeps ps ps := fun _ q hq => ⟨q, q.heap, hq, rfl⟩

theorem Keeps.trans {ps qs rs : List Pool} (h : Keeps ps qs) (h' : Keeps qs rs) :
    Keeps ps rs := by
  intro on r hr
  obtain ⟨q, heap, hq, rfl⟩ := h' on r hr
  obtain ⟨p, heap', hp, rfl⟩ := h on q hq
  exact ⟨p, heap, hp, rfl⟩

theorem Keeps.set {on : Nat} {p : Pool} {heap : Heap} (hp : ps[on]? = some p) :
    Keeps ps (ps.set on { p with heap }) := by
  intro other q hq
  rcases getElem?_set_cases hq with ⟨rfl, rfl⟩ | ⟨-, hq⟩
  · exact ⟨p, heap, hp, rfl⟩
  · exact ⟨q, q.heap, hq, rfl⟩

theorem step_keeps {c : Call} (h : s.step c = .ok s') : Keeps s.pools s'.pools := by
  cases c with
  | allocate on size align limit =>
    cases hp : s.pools[on]? with
    | none =>
      simp only [step, hp] at h
      cases h
      exact .refl _
    | some p =>
      simp only [step, hp] at h
      obtain ⟨⟨answer, q, notice⟩, hanswer, h⟩ := Checked.bind_eq_ok h
      obtain ⟨heap, rfl⟩ := Pool.allocate_keeps hanswer
      cases answer <;> cases h <;> exact .set hp
  | free index on =>
    cases hx : s.loans[index]? with
    | none =>
      simp only [step, hx] at h
      cases h
      exact .refl _
    | some x =>
      cases hp : s.pools[on]? with
      | none =>
        simp only [step, hx, hp] at h
        cases h
        exact .refl _
      | some p =>
        simp only [step, hx, hp] at h
        obtain ⟨⟨answer, q, notice⟩, hanswer, h⟩ := Checked.bind_eq_ok h
        obtain ⟨heap, rfl⟩ := Pool.free_keeps hanswer
        cases answer <;> cases h <;> exact .set hp

theorem run_keeps {calls : List Call} (h : s.run calls = .ok s') : Keeps s.pools s'.pools := by
  induction calls generalizing s with
  | nil =>
    cases h
    exact .refl _
  | cons c rest ih =>
    obtain ⟨next, hstep, hrest⟩ := Checked.bind_eq_ok h
    exact (step_keeps hstep).trans (ih hrest)

end Bank

/-! ### The status page -/

/-- A buffer that a platform hands out is one of its pool. -/
theorem allocate_of_passesOn {q q' : Pool} {size align limit : Nat} {b : DmaBuffer}
    {xs ys : List Exchange} (h : PassesOn (⟨.dmaAlloc size align limit, some b⟩ :: xs) ys)
    (hserves : q.Serves ys q') :
    ∃ limit' next notice, q.allocate size align limit' = .ok (some b, next, notice) := by
  cases h with
  | relimited h =>
    cases hserves with
    | allocate hanswer _ => exact ⟨_, _, _, hanswer⟩
    | other hother _ => cases hother
  | same h =>
    cases hserves with
    | allocate hanswer _ => exact ⟨_, _, _, hanswer⟩
    | other hother _ => cases hother

/-- The device is told of a page by this word, which is at a multiple of the page size just if
the two bases of the pool agree. -/
def TellsAligned (p : Pool) (w : RegisterWindow) (t : List Entry) : Prop :=
  ∃ virt value, requests t = .dmaAlloc pageSize pageSize StatusPage.busLimit
      :: .clear virt pageSize :: w.stores RegisterWindow.statusPageAddress value ∧
    (pageSize ∣ value.toNat ↔ p.base.toNat % pageSize = p.bus.toNat % pageSize)

theorem tellsAligned_of_course {q q' : Pool} {w : RegisterWindow} {a a' : Stolen.Allocator}
    {base : PhysAddr} {old : Option DmaBuffer} {page : StatusPage} {t : List Entry}
    {ys : List Exchange}
    (h : StatusPage.Course w a base (.host old) t (.ok (.ok (), page, a')))
    (hpasses : PassesOn (exchanges t) ys) (hserves : q.Serves ys q') : TellsAligned q w t := by
  cases h with
  | @host old b value u hbus hwrite =>
    have hstore := (w.write_returns _ _).of_run hwrite
    obtain ⟨limit', next, notice, hanswer⟩ := allocate_of_passesOn hpasses hserves
    refine ⟨b.vaddr, value, by simp [hstore], ?_⟩
    rw [PhysAddr.toNat_of_register? hbus]
    exact (Pool.aligns_of_allocate hanswer).bus

/-- **A buffer is aligned on the bus just if its pool is**, whatever was lent and given back
before.  The same holds of the word that the device is told of a status page, where the platform
has DMA memory out of the pool. -/
theorem aligns_run {ps : List Pool} {calls : List Bank.Call} {s : Bank}
    (hrun : (Bank.start ps).run calls = .ok s) {on : Nat} {p q : Pool} (hp : ps[on]? = some p)
    (hq : s.pools[on]? = some q) :
    (∀ size align limit b q' notice,
      q.allocate size align limit = .ok (some b, q', notice) → p.Aligns align b) ∧
    ∀ w a base old t page a' ys q',
      (StatusPage.enable (.host old) w a base).Run t (.ok (.ok (), page, a')) →
      PassesOn (exchanges t) ys → q.Serves ys q' → TellsAligned p w t := by
  obtain ⟨p', heap, hp', rfl⟩ := Bank.run_keeps hrun on q hq
  obtain rfl : p' = p := by
    rw [show (Bank.start ps).pools = ps from rfl, hp] at hp'
    exact (Option.some.inj hp').symm
  constructor
  · intro size align limit b q' notice hanswer
    have haligns := Pool.aligns_of_allocate hanswer
    exact ⟨haligns.vaddr, haligns.bus⟩
  · intro w a base old t page a' ys q' henable hpasses hserves
    have hcourse := StatusPage.enable_host_course w a base old _ _ henable
    -- What is said of the pool with this heap does not mention the heap.
    have htells := tellsAligned_of_course hcourse hpasses hserves
    exact htells

/-- A pool over two pages that starts in the middle of a page on the bus. -/
def shifted : Pool := ⟨⟨[⟨0x1000, 0x3000⟩], 0⟩, ⟨0x1000⟩, ⟨0x8800⟩, 0x2000⟩

/-- The pool that has lent its first page. -/
def shiftedLent : Pool := { shifted with heap := ⟨[⟨0x2000, 0x3000⟩], 0x1000⟩ }

/-- The pool that has lent both. -/
def shiftedEmpty : Pool := { shifted with heap := ⟨[], 0x2000⟩ }

/-- The second page of the pool. -/
def shiftedPage : DmaBuffer := ⟨⟨0x2000⟩, ⟨0x9800⟩, 0x1000, 0x1000⟩

/-- A platform that hands out the second page. -/
def shiftedPlatform : Unit → (r : Request) → r.Answer × Unit
  | _, .dmaAlloc _ _ _ => (some shiftedPage, ())
  | _, r => Program.willing ⟨[]⟩ 0 0 () r

/-- The second page is at the start of a page for the processor and in the middle of one on the
bus, and the device is told of it all the same. -/
theorem aligns_run_shifted :
    Pool.ofRange ⟨0x1000⟩ ⟨0x8800⟩ 0x2000 = .ok shifted ∧
    ∃ s, (Bank.start [shifted]).run [.allocate 0 0x1000 0x1000 0xffffffff] = .ok s ∧
      s.pools[0]? = some shiftedLent ∧
      shiftedLent.allocate pageSize pageSize StatusPage.busLimit
        = .ok (some shiftedPage, shiftedEmpty, none) ∧
      shifted.Aligns pageSize shiftedPage ∧ ¬ pageSize ∣ shiftedPage.bus.toNat ∧
      ∃ w t page a', (StatusPage.enable (.host none) w (.ofLength 0) ⟨0⟩).Run t
          (.ok (.ok (), page, a')) ∧
        shiftedLent.Serves (exchanges t) shiftedEmpty ∧ TellsAligned shifted w t ∧
        requests t = [.dmaAlloc pageSize pageSize StatusPage.busLimit,
          .clear ⟨0x2000⟩ pageSize, .store32 ⟨0xfeb02080⟩ 0x9800] := by
  obtain ⟨s, hrun, hlent⟩ : ∃ s,
      (Bank.start [shifted]).run [.allocate 0 0x1000 0x1000 0xffffffff] = .ok s ∧
        s.pools[0]? = some shiftedLent := ⟨_, rfl, rfl⟩
  have hanswer : shiftedLent.allocate pageSize pageSize StatusPage.busLimit
      = .ok (some shiftedPage, shiftedEmpty, none) := by
    have htaken : shiftedLent.heap.allocate? pageSize pageSize
        = some (0x2000, ⟨[], 0x2000⟩) := rfl
    rw [Pool.allocate_onBus _ (by decide) (Extents.inOrder_singleton (by decide)) htaken
      (by decide) (by decide) (by decide), if_pos (by decide)]
    rfl
  have hfirst : [shifted][0]? = some shifted := rfl
  obtain ⟨haligns, htells⟩ := aligns_run hrun hfirst hlent
  have henable := Program.run_play shiftedPlatform ()
    (StatusPage.enable (.host none) ⟨⟨⟨0xfeb00000⟩, ⟨0xfeb00000⟩, 0x80000⟩⟩ (.ofLength 0) ⟨0⟩)
  have hserves := Pool.Serves.allocate hanswer (.other (x := ⟨.clear ⟨0x2000⟩ pageSize, ()⟩) rfl
    (.other (x := ⟨.store32 ⟨0xfeb02080⟩ 0x9800, ()⟩) rfl (.nil shiftedEmpty)))
  refine ⟨rfl, s, hrun, hlent, hanswer, haligns _ _ _ _ _ _ hanswer, by decide, _, _, _, _,
    henable, hserves, htells _ _ _ _ _ _ _ _ _ henable (.same (.same (.same .nil))) hserves, rfl⟩

end Igd.Dma
