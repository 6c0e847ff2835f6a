/-
From enabling a status page to letting it go.

A page that is enabled is all that its run obtained (`CameUp`).  Letting go of it gives back
just that, makes its bytes free again if they are in stolen memory, and tells the device to
use no page (`WentDown`).  In between, the allocator may serve others: their blocks are apart
from the page, so whatever they carve and give back, the page stays one of the pieces of the
range, and its block is taken back.  That is `Pieces.run_beside` with the page as what is kept.

If nobody carved anything in between, the allocator is what it was before, since a block that
is given back leaves no trace.  What the platform lent has come back too, and so a pool behind
it is what it was.
-/
import Igd.Proofs.Dma.Behind
import Igd.Proofs.StatusPage.Cleared
import Igd.Proofs.StatusPage.Courses
import Igd.Proofs.Stolen.LowestFit
import Igd.Proofs.Stolen.Undo

namespace Igd.StatusPage

open Program
open Testbed (Memory)
open Stolen (Session)

/-- The offset is one of the page in stolen memory. -/
def Covers (page : StatusPage) (offset : Nat) : Prop :=
  ∃ base, page.apertureOffset? = some base ∧ base ≤ offset ∧ offset < base + pageSize

/-- Where a page comes from: out of DMA memory, and the allocator of stolen memory is not
touched, or from the lowest free page of the allocator. -/
inductive Takes (a : Stolen.Allocator) : StatusPage → Stolen.Allocator → Prop
  | host (b : DmaBuffer) : Takes a (.host (some b)) a
  | device {b : Stolen.Block} {a' : Stolen.Allocator} (m : IoMapping) (hcarve : Carves a b a')
      (hlowest : a.LowestFit pageSize pageSize (.ok b) a') :
      Takes a (.device (some b) (some m)) a'

/-- What is held after a page was enabled. -/
structure CameUp (w : RegisterWindow) (page page' : StatusPage) (a a' : Stolen.Allocator)
    (t : List Entry) : Prop where
  /-- The page is of the same kind. -/
  idle : page'.idle = page.idle
  takes : Takes a page' a'
  /-- Giving back the page is all that is owed. -/
  owes : ∃ due, page'.release? = some due ∧ balance [] (exchanges t) = some [due]
  /-- It is clear, and the last thing asked is the store that tells the device of it. -/
  clear : ∃ virt before value, ToldOfClear w t page' virt before value

/-- What is left after a page was let go, and of the allocator `a` as it was then. -/
structure WentDown (w : RegisterWindow) (page : StatusPage) (a : Stolen.Allocator)
    (u : List Entry) (result : StatusPage × Option Stolen.Allocator) : Prop where
  /-- Nothing is held. -/
  idle : result.1 = page.idle
  /-- One service was called, once: what gives back the memory of the page. -/
  released : ∃ due, page.release? = some due ∧ (calls u).map (·.request) = [due]
  /-- The bytes of the page become free, and no others. -/
  freed : ∃ a', result.2 = some a' ∧
    ∀ offset, a'.IsFree offset ↔ a.IsFree offset ∨ page.Covers offset
  /-- They were not free before. -/
  taken : ∀ offset, page.Covers offset → ¬ a.IsFree offset
  /-- An allocator that the page is not from stays as it is. -/
  untouched : page.apertureOffset? = none → result.2 = some a
  /-- The device is told to use no page, whatever was in memory. -/
  withdrawn : ∀ (others : World) m, others.Spares (w.cell RegisterWindow.statusPageAddress) →
    w.value (others.after [] m (requests u)) RegisterWindow.statusPageAddress
      = RegisterWindow.noStatusPage

/-- Nothing is left of a page that was enabled in `t` and let go in `u`, with nothing in
between. -/
structure Undone (page : StatusPage) (a : Stolen.Allocator) (t u : List Entry)
    (result : StatusPage × Option Stolen.Allocator) : Prop where
  idle : result.1 = page.idle
  stolen : result.2 = some a
  /-- Everything that was obtained was given back. -/
  settled : balance [] (exchanges (t ++ u)) = some []
  /-- A pool behind the platform is what it was, if the buffers came back to it. -/
  pool : ∀ (p q : Dma.Pool) (ys : List Exchange), p.Sound → PassesOn (exchanges (t ++ u)) ys →
    p.Serves ys q → AllFreed (exchanges (t ++ u)) → q = p

variable {w : RegisterWindow} {a a' : Stolen.Allocator} {base : PhysAddr}
  {page page' : StatusPage} {t u : List Entry} {length : Nat} {s : Session}

/-! ### Enabling -/

theorem Course.takes (h : Course w a base page t (.ok (.ok (), page', a'))) (ha : a.Tidy)
    (hword : a.length < wordCount) : Takes a page' a' := by
  cases h with
  | host old hbus hwrite => exact .host _
  | device block mapping hcarve hbase hphys hanswer hwrite =>
    exact .device _ hcarve (ha.lowestFit_of_allocate hword (by decide) hcarve)

theorem Course.owes (h : Course w a base page t (.ok (.ok (), page', a'))) :
    ∃ due, page'.release? = some due ∧ balance [] (exchanges t) = some [due] := by
  rw [← balance_calls]
  cases h with
  | @host old b value u hbus hwrite =>
    have hcalls := (w.write_calls _ _).of_run hwrite
    refine ⟨.dmaFree b, rfl, ?_⟩
    simp [hcalls, Request.isCall, balance_cons, settle, Request.isRelease, Exchange.owes]
  | @device block mapping b a' phys answer m u hcarve hbase hphys hanswer hwrite =>
    have hcalls := (w.write_calls _ _).of_run hwrite
    have howes := owes_map phys pageSize answer
    rw [hanswer] at howes
    refine ⟨.unmap m, rfl, ?_⟩
    simp [hcalls, Request.isCall, balance_cons, settle, Request.isRelease, howes]

theorem Course.cameUp (h : Course w a base page t (.ok (.ok (), page', a'))) (ha : a.Tidy)
    (hword : a.length < wordCount) (hreaches : w.Reaches) : CameUp w page page' a a' t where
  idle := by cases h <;> rfl
  takes := h.takes ha hword
  owes := h.owes
  clear := h.enables.toldOfClear hreaches

/-! ### In between -/

theorem Takes.release (h : Takes a page a') : ∃ due, page.release? = some due := by
  cases h <;> exact ⟨_, rfl⟩

/-- The page as one of the blocks that are out. -/
def kept (page : StatusPage) : List Stolen.Held :=
  page.block?.toList.map fun b => ⟨b, 0x1000, 0x1000⟩

theorem mem_kept {b : Stolen.Block} (h : page.block? = some b) :
    ⟨b, 0x1000, 0x1000⟩ ∈ page.kept := by
  simp [kept, h]

theorem Takes.pieces (h : Takes s.allocator page a') (hs : s.Pieces length) :
    (⟨a', s.held ++ page.kept⟩ : Session).Pieces length := by
  cases h with
  | host b => simpa [kept, block?] using hs
  | @device b a' m hcarve hlowest =>
    obtain ⟨hcarved, hsize⟩ := hs.tidy.carved_of_allocate hcarve
    have hpage : s.allocator.Carved (0x1000 : UInt64).toNat (0x1000 : UInt64).toNat b a' := hcarved
    exact (hs.carve hpage hsize).perm (List.perm_append_singleton _ _).symm

/-! ### Letting go -/

theorem Takes.covers_iff (h : Takes a page a') (offset : Nat) :
    page.Covers offset ↔ ∃ b, page.block? = some b ∧ offset ∈ b.extent := by
  cases h with
  | host b => simp [Covers, apertureOffset?, block?]
  | device m hcarve hlowest =>
    have hlength := (hlowest.lowest _ rfl).1
    simp [Covers, apertureOffset?, block?, Stolen.Block.extent, Extent.mem_iff, hlength]

/-- The device is told to use no page, by the last of these requests. -/
theorem value_withdrawn {due : Request} (hdue : due.isRelease) (hreaches : w.Reaches)
    {others : World} (hspares : others.Spares (w.cell RegisterWindow.statusPageAddress))
    (m : Memory) : w.value (others.after [] m
      (due :: w.stores RegisterWindow.statusPageAddress RegisterWindow.noStatusPage))
      RegisterWindow.statusPageAddress = RegisterWindow.noStatusPage := by
  have hmisses : due.Misses (w.cell RegisterWindow.statusPageAddress) := by
    refine Request.misses_of_not_isWrite ?_ _
    cases due <;> simp_all [Request.isRelease, Request.isWrite]
  have hminds : ∀ r ∈ due :: w.stores RegisterWindow.statusPageAddress RegisterWindow.noStatusPage,
      r.Minds (w.cell RegisterWindow.statusPageAddress) := by
    intro r hr
    rcases List.mem_cons.mp hr with rfl | hr
    · exact .inr hmisses
    · exact .inl ⟨_, RegisterWindow.eq_of_mem_stores hr⟩
  rw [RegisterWindow.value, World.load32_after hspares hminds]
  exact RegisterWindow.lastStored_stores hreaches _ _ [due]

/-- A block that is out is taken back, and a page of DMA memory has none. -/
theorem releaseHeld_out (hs : (⟨s.allocator, s.held ++ page.kept⟩ : Session).Pieces length)
    (hword : length < wordCount) : releaseHeld (some s.allocator) page.block?
      = .done (some (page.block?.elim s.allocator s.allocator.afterFreeing)) := by
  cases hblock : page.block? with
  | none => rfl
  | some b =>
    have hout := List.mem_append_right s.held (mem_kept hblock)
    exact releaseHeld_of_free (hs.accepted hword hout)

/-- **A page that is out is let go**, whatever others hold. -/
theorem Takes.wentDown (h : Takes a page a')
    (hs : (⟨s.allocator, s.held ++ page.kept⟩ : Session).Pieces length)
    (hword : length < wordCount) (hreaches : w.Reaches) :
    (page.letGo (some w) (some s.allocator)).Returns (WentDown w page s.allocator) := by
  obtain ⟨due, hdue⟩ := h.release
  have hrelease := isRelease_of_release? hdue
  refine (letGo_returns hdue (releaseHeld_out hs hword) w).mono fun u result hu => ?_
  obtain ⟨rfl, hrequests⟩ := hu
  constructor
  case idle => rfl
  case released => exact ⟨due, hdue, calls_letGo hrelease hrequests⟩
  case freed =>
    refine ⟨_, rfl, fun offset => ?_⟩
    rw [h.covers_iff]
    cases hblock : page.block? with
    | none => simp
    | some b => simpa using hs.tidy.isFree_afterFreeing offset
  case taken =>
    rintro offset hcovers ⟨e, he, hfree⟩
    obtain ⟨b, hb, hmem⟩ := (h.covers_iff offset).mp hcovers
    have hout := List.mem_append_right s.held (mem_kept hb)
    exact (hs.out hout).2.2 e he offset ⟨hmem, hfree⟩
  case untouched =>
    intro hnone
    cases h with
    | host b => rfl
    | device m hcarve hlowest => cases hnone
  case withdrawn =>
    intro others m hspares
    rw [hrequests]
    exact value_withdrawn hrelease hreaches hspares m

theorem Takes.releaseHeld (h : Takes a page a') (ha : a.Tidy) :
    releaseHeld (some a') page.block? = .done (some a) := by
  cases h with
  | host b => rfl
  | device m hcarve hlowest => exact releaseHeld_of_free (ha.free_allocated hcarve)

/-- **A page that is let go at once leaves nothing.** -/
theorem Takes.undone (h : Takes a page' a') (ha : a.Tidy)
    (hidle : page'.idle = page.idle)
    (howes : ∃ due, page'.release? = some due ∧ balance [] (exchanges t) = some [due])
    (w : RegisterWindow) :
    (page'.letGo (some w) (some a')).Returns (Undone page a t) := by
  obtain ⟨due, hdue, hbalance⟩ := howes
  have hrelease := isRelease_of_release? hdue
  refine (letGo_returns hdue (h.releaseHeld ha) w).mono fun u result hu => ?_
  obtain ⟨rfl, hrequests⟩ := hu
  have hcalls := calls_letGo hrelease hrequests
  have hsettled : balance [] (exchanges (t ++ u)) = some [] := by
    rw [exchanges_append]
    exact balance_trans hbalance (balance_of_calls_release hcalls (by simpa using hrelease) [])
  exact ⟨hidle, rfl, hsettled, fun _ _ _ hp hpasses hserves hall =>
    hpasses.pool_eq hall hp hsettled hserves⟩

/-! ### From one to the other -/

/-- **The round trip of a page.**  Calls on a new allocator come first, of any length, and then
a page is enabled.  It is all that the run obtained, and it is clear when the device is told of
it.  Whatever others carve and give back after that, the page can be let go, which gives back
that page and no more.  If they do nothing, then nothing is left of it. -/
theorem roundTrip_run {length : UInt64} {before : List Stolen.Call} {s : Session}
    (hbefore : (Session.start length).run before = .ok s) (hreaches : w.Reaches)
    (hrun : (page.enable w s.allocator base).Run t (.ok (.ok (), page', a'))) :
    CameUp w page page' s.allocator a' t ∧
      (∀ between : List Stolen.Call, ∃ later, (⟨a', s.held⟩ : Session).run between = .ok later ∧
        (page'.letGo (some w) (some later.allocator)).Returns
          (WentDown w page' later.allocator)) ∧
      (page'.letGo (some w) (some a')).Returns (Undone page s.allocator t) := by
  have hlength : length.toNat < wordCount := length.toNat_lt
  obtain ⟨s', hbefore', hpieces⟩ := (Session.Pieces.start length).run hlength before
  obtain rfl : s = s' := Except.ok.inj (hbefore.symm.trans hbefore')
  have hword : s.allocator.length < wordCount := by rwa [hpieces.length_eq]
  have hcourse := enable_course hpieces.tidy page w base t _ hrun
  have hup := hcourse.cameUp hpieces.tidy hword hreaches
  refine ⟨hup, fun between => ?_, hup.takes.undone hpieces.tidy hup.idle hup.owes w⟩
  have hbeside := hup.takes.pieces hpieces
  obtain ⟨later, hlater, hout⟩ := hbeside.run_beside (s := ⟨a', s.held⟩) hlength between
  exact ⟨later, hlater, hup.takes.wentDown hout hlength hreaches⟩

/-- Blocks that break up the free memory: half a page is left over, and the third page is the
lowest that is free. -/
def thirdPageFree : List Stolen.Call := [.allocate 0x800 1, .allocate 0x1000 0x1000]

/-- The third page is enabled, and nobody else is in the way. -/
theorem roundTrip_run_thirdPage :
    ∃ (s : Session) (w : RegisterWindow) (page' : StatusPage) (a' : Stolen.Allocator)
      (t : List Entry), (Session.start 0x8000).run thirdPageFree = .ok s ∧ w.Reaches ∧
      (enable (.device none none) w s.allocator ⟨0xd0000000⟩).Run t (.ok (.ok (), page', a')) ∧
      page'.apertureOffset? = some 0x2000 ∧ (Undisturbed w t fun _ m => m) ∧
      CameUp w (.device none none) page' s.allocator a' t ∧
      (∀ between : List Stolen.Call, ∃ later, (⟨a', s.held⟩ : Session).run between = .ok later ∧
        (page'.letGo (some w) (some later.allocator)).Returns
          (WentDown w page' later.allocator)) ∧
      (page'.letGo (some w) (some a')).Returns (Undone (.device none none) s.allocator t) := by
  have hbefore : (Session.start 0x8000).run thirdPageFree
      = .ok ⟨⟨[⟨0x800, 0x1000⟩, ⟨0x2000, 0x8000⟩], 0x8000, 2⟩,
        [⟨⟨0x1000, 0x1000⟩, 0x1000, 0x1000⟩, ⟨⟨0, 0x800⟩, 0x800, 1⟩]⟩ := rfl
  have hreaches : RegisterWindow.Reaches ⟨⟨⟨0xfeb00000⟩, ⟨0xfeb00000⟩, 0x80000⟩⟩ := by decide
  have hrun := run_play (willing ⟨[]⟩ 0 0x10000) () (enable (.device none none)
    ⟨⟨⟨0xfeb00000⟩, ⟨0xfeb00000⟩, 0x80000⟩⟩ ⟨[⟨0x800, 0x1000⟩, ⟨0x2000, 0x8000⟩], 0x8000, 2⟩
    ⟨0xd0000000⟩)
  refine ⟨_, _, _, _, _, hbefore, hreaches, hrun, rfl, ⟨hreaches, ?_, fun _ _ _ _ => rfl⟩,
    roundTrip_run hbefore hreaches hrun⟩
  exact apart_of_below (by decide +kernel) (by decide)

end Igd.StatusPage
