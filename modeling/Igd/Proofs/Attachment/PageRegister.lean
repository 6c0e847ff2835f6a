/-
What the status page register holds.

The register is in memory, and memory also has other users.  So what is said is about the
time since the registers were mapped.  `Tracks` has what the driver did to the register in
that time: what it stored there last, and an account of its other writes, each of which
clears memory that was handed out or stops the ring.  It is kept by every kind of move.

`Undisturbed` is what else it takes: the window is long enough, memory that was handed out
lies elsewhere, and nobody else writes the register.  Then none of the other writes
reaches the register, and it holds what the page says (`Tracks.value_shown`).
-/
import Igd.Proofs.Attachment.PageMoves

namespace Igd

open Program
open Testbed (Memory)

/-- The register says where the page is, where `before` is what it held when the registers
were mapped and `enabled` is whether a page was enabled since. -/
structure Shown (page : StatusPage) (enabled : Prop) (before now : UInt32) : Prop where
  live : page.isLive → page.LiesAt now
  withdrawn : ¬ page.isLive → enabled → now = RegisterWindow.noStatusPage
  untouched : ¬ enabled → now = before

/-- The writes that the driver makes while the registers are mapped as `w`. -/
inductive Accounted (w : RegisterWindow) (since : List Entry) : Request → Prop
  | page {value : UInt32} {r : Request}
      (hr : r ∈ w.stores RegisterWindow.statusPageAddress value) : Accounted w since r
  | ring {value : UInt32} {r : Request}
      (hr : r ∈ w.stores RegisterWindow.ringControl value) : Accounted w since r
  | clear {x : Exchange} {start : VirtAddr} {length : Nat} (hx : x ∈ exchanges since)
      (hblock : x.handedOut = some (start, length)) : Accounted w since (.clear start length)

theorem Accounted.append {w : RegisterWindow} {t u : List Entry} {r : Request}
    (h : Accounted w t r ∨ Accounted w u r) : Accounted w (t ++ u) r := by
  rcases h with h | h <;> cases h with
  | page hr => exact .page hr
  | ring hr => exact .ring hr
  | clear hx hblock => exact .clear (by simp [hx]) hblock

/-- The window is long enough for the status page register. -/
def RegisterWindow.Reaches (w : RegisterWindow) : Prop :=
  statusPageAddress.toNat + 4 ≤ w.length

instance (w : RegisterWindow) : Decidable w.Reaches := inferInstanceAs (Decidable (_ ≤ _))

/-- What the driver did since the registers were mapped leaves the register as the page
says. -/
structure Tracks (w : RegisterWindow) (since : List Entry) (page : StatusPage) : Prop where
  writes : ∀ r ∈ requests since, r.isWrite → Accounted w since r
  shown : w.Reaches → ∀ v, Shown page (WasEnabled since) v
    (lastStored (w.cell RegisterWindow.statusPageAddress) v (requests since))
  enabled : page.isLive → WasEnabled since
  /-- The page is memory that was handed out since. -/
  handed : ∀ virt, page.vaddr? = some virt →
    ∃ x ∈ exchanges since, x.handedOut = some (virt, pageSize)

namespace RegisterWindow

variable {w : RegisterWindow}

theorem address?_statusPageAddress : w.address? statusPageAddress
    = if w.Reaches then some (w.cell statusPageAddress) else none := by
  by_cases h : w.Reaches
  · exact (if_pos ⟨by decide, h⟩).trans (if_pos h).symm
  · exact (if_neg fun hreach => h hreach.2).trans (if_neg h).symm

theorem stores_statusPageAddress (h : w.Reaches) (value : UInt32) :
    w.stores statusPageAddress value = [.store32 (w.cell statusPageAddress) value] := by
  rw [stores, address?_statusPageAddress, if_pos h]
  rfl

theorem lastStored_stores (h : w.Reaches) (v value : UInt32) (rs : List Request) :
    lastStored (w.cell statusPageAddress) v (rs ++ w.stores statusPageAddress value) = value := by
  rw [lastStored_append, stores_statusPageAddress h]
  simp [lastStored, Request.storeTo]

theorem eq_of_mem_stores {register value : UInt32} {r : Request}
    (hr : r ∈ w.stores register value) : r = .store32 (w.cell register) value := by
  obtain ⟨address, haddress, rfl⟩ := List.mem_map.mp hr
  have hcell : w.address? register = some address := Option.mem_toList.mp haddress
  unfold address? at hcell
  dsimp only at hcell
  split at hcell
  · rw [← Option.some.inj hcell]
    rfl
  · cases hcell

theorem not_isUnmap_of_mem_stores {register value : UInt32} {r : Request}
    (hr : r ∈ w.stores register value) : ¬ r.isUnmap := by
  rw [eq_of_mem_stores hr]
  exact Bool.false_ne_true

/-- The two registers lie more than a word apart, also where the window goes around the end of
the addresses. -/
theorem misses_ringControl (value : UInt32) :
    (Request.store32 (w.cell ringControl) value).Misses (w.cell statusPageAddress) := by
  intro d hd
  have hoffset : (w.cell statusPageAddress).val + d - (w.cell ringControl).val = 0x44 + d := by
    show w.mapping.virt.val + 0x2080 + d - (w.mapping.virt.val + 0x203c) = 0x44 + d
    grind
  rw [hoffset]
  grind

end RegisterWindow

theorem Request.isRelease_of_isUnmap {r : Request} (h : r.isUnmap) : r.isRelease := by
  cases r with
  | unmap mapping => rfl
  | _ => cases h

theorem Enables.not_isUnmap {w : RegisterWindow} {t : List Entry} {page : StatusPage}
    (h : Enables w t page) : ∀ r ∈ requests t, ¬ r.isUnmap := by
  obtain ⟨virt, value, -, -, x, -, hblock, hrequests⟩ := h.told
  rw [hrequests]
  intro r hr
  rcases List.mem_cons.mp hr with rfl | hr
  · exact (Exchange.request_of_handedOut hblock).2
  · rcases List.mem_cons.mp hr with rfl | hr
    · exact Bool.false_ne_true
    · exact RegisterWindow.not_isUnmap_of_mem_stores hr

/-! ### The invariant -/

namespace Tracks

variable {w : RegisterWindow} {since t : List Entry} {page page' : StatusPage}

theorem nil (hpage : page.isLive = false) : Tracks w [] page where
  writes := by simp
  shown _ v := ⟨fun hlive => by simp [hpage] at hlive, fun _ => by simp [WasEnabled], fun _ => rfl⟩
  enabled hlive := by simp [hpage] at hlive
  handed virt hvirt := by simp [StatusPage.isLive, hvirt] at hpage

theorem writes_append (htracks : Tracks w since page)
    (hwrites : ∀ r ∈ requests t, r.isWrite → Accounted w t r) :
    ∀ r ∈ requests (since ++ t), r.isWrite → Accounted w (since ++ t) r := by
  intro r hr hwrite
  rw [requests_append] at hr
  refine Accounted.append ((List.mem_append.mp hr).imp ?_ ?_)
  · exact fun hr => htracks.writes r hr hwrite
  · exact fun hr => hwrites r hr hwrite

theorem keep (htracks : Tracks w since page)
    (hwrites : ∀ r ∈ requests t, r.isWrite → Accounted w t r)
    (hmisses : ∀ r ∈ requests t, r.Misses (w.cell RegisterWindow.statusPageAddress))
    (hquiet : ¬ WasEnabled t) : Tracks w (since ++ t) page where
  writes := htracks.writes_append hwrites
  shown hreaches v := by
    have henabled : WasEnabled (since ++ t) ↔ WasEnabled since := by
      rw [wasEnabled_append, or_iff_left hquiet]
    rw [requests_append, lastStored_append, lastStored_of_misses hmisses, henabled]
    exact htracks.shown hreaches v
  enabled hlive := wasEnabled_append.mpr (.inl (htracks.enabled hlive))
  handed virt hvirt := by
    obtain ⟨x, hx, hblock⟩ := htracks.handed virt hvirt
    exact ⟨x, by simp [hx], hblock⟩

theorem plain (htracks : Tracks w since page) (hplain : ∀ e ∈ t, e.isPlain) :
    Tracks w (since ++ t) page := by
  have hrequests := requests_of_isPlain hplain
  refine htracks.keep ?_ ?_ ?_
  · exact fun r hr hwrite => absurd hwrite (hrequests r hr).1
  · exact fun r hr => Request.misses_of_not_isWrite (hrequests r hr).1 _
  · exact not_wasEnabled fun e he => Entry.isQuiet_of_isPlain (hplain e he)

theorem stopRing (htracks : Tracks w since page) {value : UInt32}
    (hrequests : requests t = w.stores RegisterWindow.ringControl value)
    (hquiet : ¬ WasEnabled t) : Tracks w (since ++ t) page := by
  refine htracks.keep ?_ ?_ hquiet <;> rw [hrequests]
  · exact fun r hr _ => .ring hr
  · intro r hr
    rw [RegisterWindow.eq_of_mem_stores hr]
    exact RegisterWindow.misses_ringControl value

/-- A page is enabled, whether there was one before or not. -/
theorem enable (htracks : Tracks w since page) (henables : Enables w t page') :
    Tracks w (since ++ t) page' := by
  obtain ⟨⟨virt, value, hvirt, hlies, x, hx, hblock, hrequests⟩, hreported⟩ := henables
  have hlive : page'.isLive := by simp [StatusPage.isLive, hvirt]
  have henabled : WasEnabled (since ++ t) := wasEnabled_append.mpr (.inr hreported)
  refine ⟨htracks.writes_append fun r hr hwrite => ?_, fun hreaches v => ?_, fun _ => henabled,
    fun virt' hvirt' => ?_⟩
  · rw [hrequests] at hr
    rcases List.mem_cons.mp hr with rfl | hr
    · exact absurd hwrite (Exchange.request_of_handedOut hblock).1
    · rcases List.mem_cons.mp hr with rfl | hr
      · exact .clear hx hblock
      · exact .page hr
  · have hsplit : requests (since ++ t) = requests since ++ [x.request, .clear virt pageSize]
        ++ w.stores RegisterWindow.statusPageAddress value := by simp [hrequests]
    rw [hsplit, RegisterWindow.lastStored_stores hreaches]
    exact ⟨fun _ => hlies, fun hnot => absurd hlive hnot, fun hnot => absurd henabled hnot⟩
  · obtain rfl : virt = virt' := Option.some.inj (hvirt.symm.trans hvirt')
    exact ⟨x, by simp [hx], hblock⟩

theorem withdraw (htracks : Tracks w since page) (hlive : page.isLive)
    (hpage : page'.isLive = false) {due : Request} (hdue : due.isWrite = false)
    (hrequests : requests t = due
      :: w.stores RegisterWindow.statusPageAddress RegisterWindow.noStatusPage) :
    Tracks w (since ++ t) page' := by
  have henabled : WasEnabled (since ++ t) := wasEnabled_append.mpr (.inl (htracks.enabled hlive))
  refine ⟨htracks.writes_append fun r hr hwrite => ?_, fun hreaches v => ?_, fun _ => henabled,
    fun virt hvirt => ?_⟩
  · rw [hrequests] at hr
    rcases List.mem_cons.mp hr with rfl | hr
    · simp [hdue] at hwrite
    · exact .page hr
  · have hsplit : requests (since ++ t) = requests since ++ [due]
        ++ w.stores RegisterWindow.statusPageAddress RegisterWindow.noStatusPage := by
      simp [hrequests]
    rw [hsplit, RegisterWindow.lastStored_stores hreaches]
    exact ⟨fun hnew => by simp [hpage] at hnew, fun _ _ => rfl, fun hnot => absurd henabled hnot⟩
  · simp [StatusPage.isLive, hvirt] at hpage

end Tracks

/-! ### Other memory -/

/-- No memory that was handed out shares an address with the window. -/
def Apart (w : RegisterWindow) (since : List Entry) : Prop :=
  ∀ x ∈ exchanges since, ∀ start length, x.handedOut = some (start, length) →
    ∀ address, start.Within length address → ¬ w.mapping.virt.Within w.length address

theorem apart_of_below {w : RegisterWindow} {since : List Entry}
    (hblocks : ∀ block ∈ (exchanges since).filterMap Exchange.handedOut,
      block.1.toNat + block.2 ≤ w.mapping.virt.toNat)
    (hword : w.mapping.virt.toNat + w.length ≤ wordCount) : Apart w since := by
  intro x hx start length hblock address hwithin hwindow
  have hbelow := hblocks _ (List.mem_filterMap.mpr ⟨x, hx, hblock⟩)
  simp only [VirtAddr.toNat] at hbelow hword
  have hwithin : (address.val - start.val).toNat < length := hwithin
  have hwindow : (address.val - w.mapping.virt.val).toNat < w.length := hwindow
  have haddress := address.val.toNat_lt
  rw [UInt64.toNat_sub] at hwithin hwindow
  simp only [wordCount] at hword
  omega

/-- The status page register is all the driver's: the window reaches so far, the memory
that was handed out since lies elsewhere, and nobody else writes the register. -/
structure Undisturbed (w : RegisterWindow) (since : List Entry) (others : World) : Prop where
  reaches : w.Reaches
  apart : Apart w since
  spares : others.Spares (w.cell RegisterWindow.statusPageAddress)

namespace RegisterWindow

variable {w : RegisterWindow}

theorem within_start (h : w.Reaches) : w.mapping.virt.Within w.length w.mapping.virt :=
  VirtAddr.within_self _ (Nat.lt_of_lt_of_le (by decide) h)

theorem within_cell (h : w.Reaches) {d : UInt64} (hd : d < 4) :
    w.mapping.virt.Within w.length ⟨(w.cell statusPageAddress).val + d⟩ := by
  have hoffset : (w.cell statusPageAddress).val + d - w.mapping.virt.val = 0x2080 + d := by
    show w.mapping.virt.val + 0x2080 + d - w.mapping.virt.val = 0x2080 + d
    grind
  have hlength : 0x2080 + 4 ≤ w.length := h
  have hbase : (0x2080 : UInt64).toNat = 0x2080 := rfl
  have hfour : (4 : UInt64).toNat = 4 := rfl
  rw [UInt64.lt_iff_toNat_lt] at hd
  show ((w.cell statusPageAddress).val + d - w.mapping.virt.val).toNat < w.length
  rw [hoffset, UInt64.toNat_add]
  omega

end RegisterWindow

/-- Clearing memory that was handed out does not reach the register, and the only other word
that is ever stored is the register of the ring. -/
theorem Undisturbed.minds {w : RegisterWindow} {since : List Entry} {others : World}
    (h : Undisturbed w since others) {r : Request} (hr : Accounted w since r) :
    r.Minds (w.cell RegisterWindow.statusPageAddress) := by
  cases hr with
  | page hr =>
    rw [RegisterWindow.eq_of_mem_stores hr]
    exact .inl ⟨_, rfl⟩
  | ring hr =>
    rw [RegisterWindow.eq_of_mem_stores hr]
    exact .inr (RegisterWindow.misses_ringControl _)
  | @clear x start length hx hblock =>
    refine .inr fun d hd hcovers => ?_
    have hwithin := RegisterWindow.within_cell h.reaches hd
    exact h.apart x hx start length hblock _ hcovers hwithin

/-- **The register holds what the page says**, whatever memory was when the registers were
mapped. -/
theorem Tracks.value_shown {w : RegisterWindow} {since : List Entry} {page : StatusPage}
    {others : World} (htracks : Tracks w since page) (hundisturbed : Undisturbed w since others)
    (m : Memory) : Shown page (WasEnabled since) (w.value m RegisterWindow.statusPageAddress)
      (w.value (others.after [] m (requests since)) RegisterWindow.statusPageAddress) := by
  have hminds : ∀ r ∈ requests since, r.Minds (w.cell RegisterWindow.statusPageAddress) := by
    intro r hr
    by_cases hwrite : r.isWrite
    · exact hundisturbed.minds (htracks.writes r hr hwrite)
    · exact .inr (Request.misses_of_not_isWrite hwrite _)
  have hvalue := World.load32_after hundisturbed.spares hminds [] m
  unfold RegisterWindow.value
  rw [hvalue]
  exact htracks.shown hundisturbed.reaches _

end Igd
