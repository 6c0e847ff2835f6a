/-
A page that is not enabled leaves nothing behind.

Five courses end without a page, each after it took more or less: nothing at all, a buffer
that the register cannot reach, a block that it cannot reach, or a block that cannot be
mapped.  On all of them what was taken has been given back once, nothing was written, and the
allocator and the page are what they were (`Course.leavesNothing`).  That holds whatever the
page was before, and for every allocator that calls on a bank can lead to, however its free
memory is broken up and wherever blocks were given back.

A pool of DMA memory behind the platform is what it was as well, if it was given the buffer.
-/
import Igd.Proofs.Dma.Behind
import Igd.Proofs.Memory
import Igd.Proofs.StatusPage.Courses
import Igd.Proofs.Stolen.Bank

namespace Igd.StatusPage

open Program

/-- A block was carved that the register reaches, and there was no mapping of it, or one at
the null address. -/
def LacksMapping (a : Stolen.Allocator) (base : PhysAddr) (t : List Entry) : StatusPage → Prop
  | .host _ => False
  | .device _ _ => ∃ b a' phys answer, Carves a b a' ∧ b.base < registerCount ∧
      phys.toNat = base.toNat + b.base ∧
      (⟨.map phys pageSize, answer⟩ : Exchange) ∈ exchanges t ∧ usable answer = none

/-- Nothing is left of a run, and of what it took. -/
structure LeavesNothing (page page' : StatusPage) (a a' : Stolen.Allocator) (t : List Entry) :
    Prop where
  stolen : a' = a
  held : page' = page
  /-- No register is written, and no memory. -/
  unwritten : ∀ r ∈ requests t, ¬ r.isWrite
  /-- No mapping was obtained. -/
  unmapped : ∀ phys length answer, (⟨.map phys length, answer⟩ : Exchange) ∈ exchanges t →
    usable answer = none
  /-- A buffer that was obtained was given back once. -/
  freed : ∀ size align limit b, (⟨.dmaAlloc size align limit, some b⟩ : Exchange) ∈ exchanges t →
    asked (.dmaFree b) (exchanges t) = 1
  /-- Nothing that was obtained is still owed. -/
  settled : balance [] (exchanges t) = some []
  /-- A pool behind the platform is what it was, if the buffers came back to it. -/
  pool : ∀ (p q : Dma.Pool) (ys : List Exchange), p.Sound → PassesOn (exchanges t) ys →
    p.Serves ys q → AllFreed (exchanges t) → q = p

/-- What enabling a page comes to, as far as no page is enabled. -/
structure FailsCleanly (page : StatusPage) (a : Stolen.Allocator) (base : PhysAddr)
    (t : List Entry) (out : Checked (Except StatusPageError Unit × StatusPage × Stolen.Allocator)) :
    Prop where
  /-- It ends with a fault only where no word is the address of the block that was carved, or
  as many blocks were counted as a word can count. -/
  faults : ∀ f, out = .error f → f = .addOverflow ∧
    (wordCount ≤ a.blocksOut + 1 ∨ ∃ b a', Carves a b a' ∧ wordCount ≤ base.toNat + b.base)
  /-- The error says whether it was a mapping that was missing. -/
  mappingFailed : ∀ verdict page' a', out = .ok (verdict, page', a') →
    (verdict = .error .mappingFailed ↔ LacksMapping a base t page)
  /-- Whatever else is missing is memory. -/
  outOfMemory : ∀ e page' a', out = .ok (.error e, page', a') →
    (e = .outOfMemory ↔ ¬ LacksMapping a base t page)
  nothingLeft : ∀ e page' a', out = .ok (.error e, page', a') → LeavesNothing page page' a a' t

/-! ### The courses -/

variable {w : RegisterWindow} {a a' : Stolen.Allocator} {base : PhysAddr}
  {page page' : StatusPage} {t u : List Entry} {e : StatusPageError}
  {out : Checked (Except StatusPageError Unit × StatusPage × Stolen.Allocator)}

/-- The pool behind the platform follows the ledger. -/
theorem leavesNothing_of_settled (hwrites : ∀ r ∈ requests t, ¬ r.isWrite)
    (hmaps : ∀ phys length answer, (⟨.map phys length, answer⟩ : Exchange) ∈ exchanges t →
      usable answer = none)
    (hfreed : ∀ size align limit b,
      (⟨.dmaAlloc size align limit, some b⟩ : Exchange) ∈ exchanges t →
      asked (.dmaFree b) (exchanges t) = 1)
    (hsettled : balance [] (exchanges t) = some []) : LeavesNothing page page a a t where
  stolen := rfl
  held := rfl
  unwritten := hwrites
  unmapped := hmaps
  freed := hfreed
  settled := hsettled
  pool _ _ _ hp hpasses hserves hall := hpasses.pool_eq hall hp hsettled hserves

theorem leavesNothing_of_unasked (ht : exchanges t = []) : LeavesNothing page page a a t := by
  refine leavesNothing_of_settled ?_ ?_ ?_ ?_ <;> simp [requests, ht]

/-- **A course that ends without a page leaves nothing.** -/
theorem Course.leavesNothing (h : Course w a base page t (.ok (.error e, page', a'))) :
    LeavesNothing page page' a a' t := by
  cases h with
  | noBuffer old =>
    refine leavesNothing_of_settled ?_ ?_ ?_ rfl
    · simp [Request.isWrite]
    · intro phys length answer hmem
      cases List.mem_singleton.mp hmem
    · intro size align limit b hmem
      cases List.mem_singleton.mp hmem
  | @freed old b answer hbus =>
    have hexchanges : exchanges (.exchange ⟨.dmaAlloc pageSize pageSize busLimit, some b⟩
        :: .notice (.pageAboveReach b.bus) :: .exchange ⟨.dmaFree b, answer⟩
        :: (refusalNotices .rejectedPageNotFreed answer).map .notice)
        = [⟨.dmaAlloc pageSize pageSize busLimit, some b⟩, ⟨.dmaFree b, answer⟩] := by simp
    refine leavesNothing_of_settled ?_ ?_ ?_ ?_
    · simp [Request.isWrite]
    · intro phys length answer hmem
      rw [hexchanges] at hmem
      rcases List.mem_pair.mp hmem with heq | heq <;> cases heq
    · intro size align limit b' hmem
      rw [hexchanges] at hmem ⊢
      rcases List.mem_pair.mp hmem with heq | heq <;> cases heq
      simp [asked]
    · rw [hexchanges]
      simp [balance_cons, settle, Exchange.owes, Request.isRelease]
  | noBlock block mapping e hcarve => exact leavesNothing_of_unasked rfl
  | beyond block mapping hcarve hbase => exact leavesNothing_of_unasked rfl
  | @unmapped block mapping b a' phys answer hcarve hbase hphys hanswer =>
    refine leavesNothing_of_settled ?_ ?_ ?_ ?_
    · simp [Request.isWrite]
    · intro phys length answer hmem
      cases List.mem_singleton.mp hmem
      exact hanswer
    · intro size align limit b hmem
      cases List.mem_singleton.mp hmem
    · have howes := owes_map phys pageSize answer
      rw [hanswer] at howes
      show balance [] [⟨.map phys pageSize, answer⟩] = some []
      rw [balance_cons, settle_obtain (by simp [Request.isRelease]), howes]
      rfl

theorem map_notMem_write {register value : UInt32}
    (hwrite : (w.write register value).Run u (.ok ())) (phys : PhysAddr) (length : Nat)
    (answer : Option IoMapping) : (⟨.map phys length, answer⟩ : Exchange) ∉ exchanges u := by
  intro hmem
  have hcall : (⟨.map phys length, answer⟩ : Exchange) ∈ calls u :=
    List.mem_filter.mpr ⟨hmem, rfl⟩
  rw [(w.write_calls register value).of_run hwrite] at hcall
  cases hcall

/-- **A mapping is missing just on the course on which the error says so.** -/
theorem Course.lacksMapping_iff {verdict : Except StatusPageError Unit}
    (h : Course w a base page t (.ok (verdict, page', a'))) :
    verdict = .error .mappingFailed ↔ LacksMapping a base t page := by
  cases h with
  | noBuffer old => simp [LacksMapping]
  | freed old answer hbus => simp [LacksMapping]
  | host old hbus hwrite => simp [LacksMapping]
  | noBlock block mapping e hcarve => simp [LacksMapping]
  | beyond block mapping hcarve hbase => simp [LacksMapping]
  | @unmapped block mapping b a' phys answer hcarve hbase hphys hanswer =>
    exact iff_of_true rfl ⟨b, a', phys, answer, hcarve, hbase, hphys, List.mem_cons_self, hanswer⟩
  | @device block mapping b a' phys answer m u hcarve hbase hphys hanswer hwrite =>
    refine iff_of_false (by simp) ?_
    -- The only mapping that was asked for could be used.
    rintro ⟨b', a₁, phys', answer', -, -, -, hmem, hnone⟩
    rw [exchanges_exchange, exchanges_exchange, exchanges_append] at hmem
    rcases List.mem_cons.mp hmem with heq | hmem
    · cases heq
      rw [hanswer] at hnone
      cases hnone
    · rcases List.mem_cons.mp hmem with heq | hmem
      · cases heq
      · rcases List.mem_append.mp hmem with hmem | hmem
        · exact map_notMem_write hwrite _ _ _ hmem
        · cases hmem

theorem Course.failsCleanly (h : Course w a base page t out) : FailsCleanly page a base t out := by
  constructor
  case faults =>
    rintro f rfl
    cases h with
    | uncounted block mapping hfull => exact ⟨rfl, .inl hfull⟩
    | unaddressed block mapping hcarve hbase hword => exact ⟨rfl, .inr ⟨_, _, hcarve, hword⟩⟩
  case mappingFailed =>
    rintro verdict page' a' rfl
    exact h.lacksMapping_iff
  case outOfMemory =>
    rintro e page' a' rfl
    rw [← h.lacksMapping_iff]
    cases e <;> simp
  case nothingLeft =>
    rintro e page' a' rfl
    exact h.leavesNothing

/-- **Enabling a page that fails leaves nothing behind**, with an allocator that any calls led
to, whatever page was held, wherever the aperture is, and whatever the platform answers. -/
theorem failsCleanly_run {calls : List Stolen.Bank.Call} {s : Stolen.Bank}
    (hrun : Stolen.Bank.none.run calls = .ok s) (ha : a ∈ s.allocators) (page : StatusPage)
    (w : RegisterWindow) (base : PhysAddr) :
    (page.enable w a base).Ends (FailsCleanly page a base) := by
  have hsound := Stolen.Bank.Sound.none.of_run hrun
  intro t out hpath
  have hcourse := enable_course (hsound.tidy a ha) page w base t out hpath
  exact hcourse.failsCleanly

/-- The first page is free, and so are those from the third on. -/
def secondPageOut : List Stolen.Bank.Call :=
  [.add 0x8000, .allocate 0 0x1000 0x1000, .allocate 0 0x1000 0x1000, .free 1 0]

/-- A platform that maps nothing. -/
def unmapping : Unit → (r : Request) → r.Answer × Unit
  | _, .map _ _ => (none, ())
  | s, r => willing ⟨[]⟩ 0 0x10000 s r

/-- The first page is carved and cannot be mapped, while another page is held. -/
theorem failsCleanly_run_unmapped :
    ∃ (s : Stolen.Bank) (a : Stolen.Allocator) (page : StatusPage) (w : RegisterWindow)
      (t : List Entry), Stolen.Bank.none.run secondPageOut = .ok s ∧ a ∈ s.allocators ∧
      a = ⟨[⟨0, 0x1000⟩, ⟨0x2000, 0x8000⟩], 0x8000, 1⟩ ∧ page.isLive ∧
      (page.enable w a ⟨0xd0000000⟩).Run t (.ok (.error .mappingFailed, page, a)) ∧
      FailsCleanly page a ⟨0xd0000000⟩ t (.ok (.error .mappingFailed, page, a)) := by
  have hrun : Stolen.Bank.none.run secondPageOut = .ok ⟨[⟨[⟨0, 0x1000⟩, ⟨0x2000, 0x8000⟩], 0x8000,
      1⟩], [⟨⟨0x1000, 0x1000⟩, 0, true⟩]⟩ := rfl
  have hmem := List.mem_singleton_self
    (⟨[⟨0, 0x1000⟩, ⟨0x2000, 0x8000⟩], 0x8000, 1⟩ : Stolen.Allocator)
  have hpath := run_play unmapping () (enable
    (.device (some ⟨0x1000, 0x1000⟩) (some ⟨⟨0xd0001000⟩, ⟨0x5000⟩, 0x1000⟩))
    ⟨⟨⟨0xfeb00000⟩, ⟨0xfeb00000⟩, 0x80000⟩⟩ ⟨[⟨0, 0x1000⟩, ⟨0x2000, 0x8000⟩], 0x8000, 1⟩
    ⟨0xd0000000⟩)
  exact ⟨_, _, _, _, _, hrun, hmem, rfl, rfl, hpath, failsCleanly_run hrun hmem _ _ _ _ _ hpath⟩

end Igd.StatusPage
