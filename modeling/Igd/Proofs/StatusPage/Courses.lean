/-
How enabling the status page can go.

`Course` has every way through the program, whatever page was held before and whatever is
free: its whole transcript, and how it ends.  A page of DMA memory is not there, or is out of
reach of the register and goes back, or is enabled.  A page of stolen memory is not there, is
out of reach and goes back, cannot be mapped and goes back, or is enabled; and there are two
sums that may leave the word.  That is all that enabling can do (`enable_course`), and what is
known of it is read off the courses.

A block that is carved and given back leaves a tidy allocator as it was.  So a course that
ends without a page ends with the allocator that it began with.

An attachment enables its page beside stolen memory that nothing was carved from.  There the
block is the first page, and so neither sum leaves the word (`enable_ofLength`).
-/
import Igd.Proofs.StatusPage.LettingGo
import Igd.Proofs.Stolen.Carving

namespace Igd

theorem owes_map (phys : PhysAddr) (length : Nat) (answer : Option IoMapping) :
    Exchange.owes ⟨.map phys length, answer⟩
      = (StatusPage.usable answer).toList.map Request.unmap := by
  cases answer with
  | none => rfl
  | some mapping =>
    cases hnull : mapping.virt.isNull <;> simp [Exchange.owes, StatusPage.usable, hnull]

namespace StatusPage

open Program

/-- Where enabling takes a page of stolen memory, there is one at `b`, and it leaves `a'`. -/
abbrev Carves (a : Stolen.Allocator) (b : Stolen.Block) (a' : Stolen.Allocator) : Prop :=
  a.allocate pageSize pageSize = .ok (.ok b, a')

/-- The ways of enabling a page with an allocator `a` and an aperture at `base`: the page
before, what is logged and exchanged, and the end. -/
inductive Course (w : RegisterWindow) (a : Stolen.Allocator) (base : PhysAddr) : StatusPage →
    List Entry → Checked (Except StatusPageError Unit × StatusPage × Stolen.Allocator) → Prop
  /-- There is no DMA memory. -/
  | noBuffer (old : Option DmaBuffer) : Course w a base (.host old)
      [.exchange ⟨.dmaAlloc pageSize pageSize busLimit, none⟩, .notice .pageNotAllocated]
      (.ok (.error .outOfMemory, .host old, a))
  /-- The register cannot hold the address of the buffer, which is freed. -/
  | freed (old : Option DmaBuffer) {b : DmaBuffer} (answer : Except ServiceError Unit)
      (hbus : b.bus.register? = none) : Course w a base (.host old)
      (.exchange ⟨.dmaAlloc pageSize pageSize busLimit, some b⟩ :: .notice (.pageAboveReach b.bus)
        :: .exchange ⟨.dmaFree b, answer⟩
        :: (refusalNotices .rejectedPageNotFreed answer).map .notice)
      (.ok (.error .outOfMemory, .host old, a))
  /-- A page of DMA memory is enabled. -/
  | host (old : Option DmaBuffer) {b : DmaBuffer} {value : UInt32} {u : List Entry}
      (hbus : b.bus.register? = some value)
      (hwrite : (w.write RegisterWindow.statusPageAddress value).Run u (.ok ())) :
      Course w a base (.host old)
      (.exchange ⟨.dmaAlloc pageSize pageSize busLimit, some b⟩
        :: .exchange ⟨.clear b.vaddr pageSize, ()⟩ :: (u ++ [.notice (.hostPageEnabled value)]))
      (.ok (.ok (), .host (some b), a))
  /-- A block was found, and there are too many to count one more. -/
  | uncounted (block : Option Stolen.Block) (mapping : Option IoMapping)
      (hfull : wordCount ≤ a.blocksOut + 1) :
      Course w a base (.device block mapping) [] (.error .addOverflow)
  /-- There is no stolen memory. -/
  | noBlock (block : Option Stolen.Block) (mapping : Option IoMapping) (e : Stolen.AllocError)
      (hcarve : a.allocate pageSize pageSize = .ok (.error e, a)) :
      Course w a base (.device block mapping) [.notice (.pageNotCarved e)]
      (.ok (.error .outOfMemory, .device block mapping, a))
  /-- The register cannot hold the offset of the block, which is given back. -/
  | beyond (block : Option Stolen.Block) (mapping : Option IoMapping) {b : Stolen.Block}
      {a' : Stolen.Allocator} (hcarve : Carves a b a') (hbase : registerCount ≤ b.base) :
      Course w a base (.device block mapping) []
      (.ok (.error .outOfMemory, .device block mapping, a))
  /-- No word is the address of the block in the aperture. -/
  | unaddressed (block : Option Stolen.Block) (mapping : Option IoMapping) {b : Stolen.Block}
      {a' : Stolen.Allocator} (hcarve : Carves a b a') (hbase : b.base < registerCount)
      (hword : wordCount ≤ base.toNat + b.base) :
      Course w a base (.device block mapping) [] (.error .addOverflow)
  /-- The block cannot be mapped, and is given back. -/
  | unmapped (block : Option Stolen.Block) (mapping : Option IoMapping) {b : Stolen.Block}
      {a' : Stolen.Allocator} {phys : PhysAddr} {answer : Option IoMapping}
      (hcarve : Carves a b a') (hbase : b.base < registerCount)
      (hphys : phys.toNat = base.toNat + b.base) (hanswer : usable answer = none) :
      Course w a base (.device block mapping)
      [.exchange ⟨.map phys pageSize, answer⟩, .notice .pageNotMapped]
      (.ok (.error .mappingFailed, .device block mapping, a))
  /-- A page of stolen memory is enabled. -/
  | device (block : Option Stolen.Block) (mapping : Option IoMapping) {b : Stolen.Block}
      {a' : Stolen.Allocator} {phys : PhysAddr} {answer : Option IoMapping} {m : IoMapping}
      {u : List Entry} (hcarve : Carves a b a') (hbase : b.base < registerCount)
      (hphys : phys.toNat = base.toNat + b.base) (hanswer : usable answer = some m)
      (hwrite : (w.write RegisterWindow.statusPageAddress (.ofNat b.base)).Run u (.ok ())) :
      Course w a base (.device block mapping)
      (.exchange ⟨.map phys pageSize, answer⟩ :: .exchange ⟨.clear m.virt pageSize, ()⟩
        :: (u ++ [.notice (.devicePageEnabled b.base)]))
      (.ok (.ok (), .device (some b) (some m), a'))

variable {w : RegisterWindow} {a : Stolen.Allocator} {base : PhysAddr}

theorem write_run (w : RegisterWindow) (register value : UInt32) :
    (w.write register value).Returns fun t _ => (w.write register value).Run t (.ok ()) :=
  ((w.write_calls register value).withRun).mono fun _ _ h => h.1

theorem enable_host_course (w : RegisterWindow) (a : Stolen.Allocator) (base : PhysAddr)
    (old : Option DmaBuffer) :
    (enable (.host old) w a base).Ends (Course w a base (.host old)) := by
  simp only [enable, enableHost, request_eq_ask, ask_bind, done_bind]
  refine ends_ask fun answer => ?_
  cases answer with
  | none => exact ends_note (ends_done (.noBuffer old))
  | some b =>
    cases hbus : b.bus.register? with
    | none =>
      simp only [hbus]
      refine ends_note (ends_ask fun answer => ?_)
      cases answer with
      | ok => exact ends_done (.freed old (.ok ()) hbus)
      | error e => exact ends_note (ends_done (.freed old (.error e) hbus))
    | some value =>
      simp only [hbus, ask_bind, bind_assoc]
      refine ends_ask fun _ => ?_
      refine (write_run w _ value).ends_bind fun u _ hwrite => ?_
      exact ends_note (ends_done (.host old hbus hwrite))

theorem giveBack_carved (ha : a.Tidy) {b : Stolen.Block} {a' : Stolen.Allocator}
    (hcarve : Carves a b a') : giveBack a' b = .done a :=
  giveBack_of_free (ha.free_allocated hcarve)

theorem enable_device_course (ha : a.Tidy) (w : RegisterWindow) (base : PhysAddr)
    (block : Option Stolen.Block) (mapping : Option IoMapping) :
    (enable (.device block mapping) w a base).Ends (Course w a base (.device block mapping)) := by
  simp only [enable, enableDevice, liftM, monadLift, MonadLift.monadLift]
  rcases ha.allocate_cases pageSize pageSize with
    ⟨b, a', hcarve, -⟩ | ⟨e, hcarve⟩ | ⟨hfault, -, hfull⟩
  · have hback := giveBack_carved ha hcarve
    simp only [hcarve, ofChecked, done_bind]
    by_cases hbase : registerCount ≤ b.base
    · simp only [if_pos hbase, hback, done_bind]
      exact ends_done (.beyond block mapping hcarve hbase)
    · simp only [if_neg hbase]
      have hlow : b.base < registerCount := Nat.lt_of_not_le hbase
      rcases base.add_cases b.base with ⟨phys, hadd, hphys⟩ | ⟨hadd, hover⟩
      · simp only [hadd, done_bind, request_eq_ask, ask_bind]
        refine ends_ask fun answer => ?_
        cases hanswer : usable answer with
        | none =>
          simp only [hback, done_bind]
          exact ends_note (ends_done (.unmapped block mapping hcarve hlow hphys hanswer))
        | some m =>
          simp only [ask_bind, bind_assoc]
          refine ends_ask fun _ => ?_
          refine (write_run w _ _).ends_bind fun u _ hwrite => ?_
          exact ends_note (ends_done (.device block mapping hcarve hlow hphys hanswer hwrite))
      · simp only [hadd, fault_bind]
        exact ends_fault (.unaddressed block mapping hcarve hlow hover)
  · simp only [hcarve, ofChecked, done_bind]
    exact ends_note (ends_done (.noBlock block mapping e hcarve))
  · simp only [hfault, ofChecked, fault_bind]
    exact ends_fault (.uncounted block mapping hfull)

/-- **Enabling a page takes one of the courses**, whatever page was held before.  The program
is opened here and nowhere else; what follows about enabling is read off the courses. -/
theorem enable_course (ha : a.Tidy) (page : StatusPage) (w : RegisterWindow) (base : PhysAddr) :
    (page.enable w a base).Ends (Course w a base page) := by
  cases page with
  | host old => exact enable_host_course w a base old
  | device block mapping => exact enable_device_course ha w base block mapping

/-! ### Stolen memory that nothing was carved from -/

theorem carves_ofLength {n : Nat} {b : Stolen.Block} {a' : Stolen.Allocator}
    (h : Carves (.ofLength n) b a') :
    pageSize ≤ n ∧ b = Stolen.Allocator.firstPage ∧ a' = .withoutFirstPage n := by
  rw [Carves, Stolen.Allocator.allocate_firstPage] at h
  split at h
  case isFalse => cases h
  case isTrue hroom =>
    cases h
    exact ⟨hroom, rfl, rfl⟩

/-- Neither sum leaves the word, wherever the aperture is. -/
theorem enable_ofLength (page : StatusPage) (w : RegisterWindow) (n : Nat) (base : PhysAddr) :
    (page.enable w (.ofLength n) base).Returns fun t result =>
      Course w (.ofLength n) base page t (.ok result) := by
  refine (enable_course (.ofLength n) page w base).returns fun t f hcourse => ?_
  cases hcourse with
  | uncounted block mapping hfull =>
    have hcount : 0 + 1 < wordCount := by decide
    exact absurd hfull (Nat.not_le_of_lt hcount)
  | unaddressed block mapping hcarve hbase hword =>
    obtain ⟨-, rfl, -⟩ := carves_ofLength hcarve
    exact absurd hword (Nat.not_le_of_lt base.val.toNat_lt)

end StatusPage

end Igd
