/-
The device is told of a page that is clear.

Enabling a page clears it, then stores its address, and asks nothing after that.  So the page
is clear when the device hears of it, and it still is when the page is enabled.  Memory has
other users, and it takes that none of them writes the page once it was cleared.  What the
platform leaves in memory that it hands out does not matter, and neither does what memory
was before.

The store does not spoil the page either, since no memory that is handed out lies in the
window of the registers.
-/
import Igd.Proofs.Attachment.PageRegister
import Igd.Proofs.StatusPage.Courses

namespace Igd

open Program
open Testbed (Memory)

/-- Every byte from `start` on is zero. -/
def Testbed.Memory.IsClear (m : Memory) (start : VirtAddr) (length : Nat) : Prop :=
  ∀ address, start.Within length address → m.byte address.val = 0

/-- Whoever looks at the bytes one by one finds zeros. -/
theorem Testbed.Memory.IsClear.isZero {m : Memory} {start : VirtAddr} {length : Nat}
    (h : m.IsClear start length) (hlength : length ≤ wordCount) :
    m.isZero start.val length = true := by
  induction length with
  | zero => rfl
  | succ n ih =>
    have hoffset : (start.val + .ofNat n - start.val).toNat = n := by
      have hsub : start.val + UInt64.ofNat n - start.val = UInt64.ofNat n := by grind
      rw [hsub]
      exact UInt64.toNat_ofNat_of_lt (Nat.lt_of_succ_le hlength)
    have hlast : m.byte (start.val + .ofNat n) = 0 := by
      refine h ⟨start.val + .ofNat n⟩ ?_
      show (start.val + .ofNat n - start.val).toNat < n + 1
      omega
    have hrest : m.isZero start.val n = true := by
      refine ih ?_ (Nat.le_of_succ_le hlength)
      intro address hwithin
      exact h address (Nat.lt_succ_of_lt hwithin)
    simp [Testbed.Memory.isZero, hlast, hrest]

/-- Nobody else writes a range once the driver has cleared it. -/
def World.SparesCleared (others : World) (start : VirtAddr) (length : Nat) : Prop :=
  ∀ rs m, .clear start length ∈ rs → ∀ address, start.Within length address →
    (others rs m).byte address.val = m.byte address.val

theorem World.after_append (others : World) (past rs ss : List Request) (m : Memory) :
    others.after past m (rs ++ ss) = others.after (past ++ rs) (others.after past m rs) ss := by
  induction rs generalizing past m with
  | nil => simp [World.after]
  | cons r rest ih =>
    show others.after (past ++ [r]) _ (rest ++ ss) = _
    rw [ih, List.append_assoc]
    rfl

variable {m : Memory} {start : VirtAddr} {length : Nat} {others : World} {rs : List Request}

theorem isClear_clear (m : Memory) (start : VirtAddr) (length : Nat) :
    ((Request.clear start length).writeTo m).IsClear start length := by
  intro address hwithin
  exact (m.byte_clear _ _ _).trans (if_pos hwithin)

theorem isClear_store32 (h : m.IsClear start length) {cell : VirtAddr} (value : UInt32)
    (hapart : ∀ d : UInt64, d < 4 → ¬ start.Within length ⟨cell.val + d⟩) :
    ((Request.store32 cell value).writeTo m).IsClear start length := by
  intro address hwithin
  have hout : ¬ address.val - cell.val < 4 := by
    intro hin
    refine hapart _ hin ?_
    have hsame : cell.val + (address.val - cell.val) = address.val := by grind
    rw [hsame]
    exact hwithin
  exact (m.byte_write _ _ _ _).trans ((if_neg hout).trans (h address hwithin))

theorem World.SparesCleared.isClear (hspares : others.SparesCleared start length)
    (hcleared : .clear start length ∈ rs) (h : m.IsClear start length) :
    (others rs m).IsClear start length := by
  intro address hwithin
  rw [hspares rs m hcleared address hwithin]
  exact h address hwithin

theorem Undisturbed.notWithin {w : RegisterWindow} {t : List Entry} (h : Undisturbed w t others)
    {x : Exchange} (hx : x ∈ exchanges t) (hblock : x.handedOut = some (start, length))
    {d : UInt64} (hd : d < 4) :
    ¬ start.Within length ⟨(w.cell RegisterWindow.statusPageAddress).val + d⟩ := by
  intro hwithin
  have hcell := RegisterWindow.within_cell h.reaches hd
  exact h.apart x hx start length hblock _ hwithin hcell

/-- The device is told of a page by a store that is the last request of a run, and if nobody
else interferes the page is clear then and afterwards, and the register says where it is. -/
structure ToldOfClear (w : RegisterWindow) (t : List Entry) (page : StatusPage) (virt : VirtAddr)
    (before : List Request) (value : UInt32) : Prop where
  vaddr : page.vaddr? = some virt
  told : requests t = before ++ [.store32 (w.cell RegisterWindow.statusPageAddress) value]
  clear : ∀ others m, Undisturbed w t others → others.SparesCleared virt pageSize →
    (others.after [] m before).isZero virt.val pageSize ∧
    (others.after [] m (requests t)).isZero virt.val pageSize
  shown : ∀ others m, Undisturbed w t others →
    page.LiesAt (w.value (others.after [] m (requests t)) RegisterWindow.statusPageAddress)

/-- **A page that is enabled is clear**, and was so when the device was told.  The store that
tells it is the last request, and it goes to the window of the registers, where no memory was
handed out. -/
theorem Enables.toldOfClear {w : RegisterWindow} {t : List Entry} {page : StatusPage}
    (h : Enables w t page) (hreaches : w.Reaches) :
    ∃ virt before value, ToldOfClear w t page virt before value := by
  obtain ⟨virt, value, hvirt, -, x, hx, hblock, hrequests⟩ := h.told
  rw [RegisterWindow.stores_statusPageAddress hreaches] at hrequests
  refine ⟨virt, [x.request, .clear virt pageSize], value, hvirt, hrequests, ?_, ?_⟩
  · intro others m hundisturbed hspares
    have hcleared : (others.after [] m [x.request, .clear virt pageSize]).IsClear virt pageSize :=
      hspares.isClear (by simp) (isClear_clear _ virt pageSize)
    refine ⟨hcleared.isZero (by decide), ?_⟩
    have hstored := isClear_store32 hcleared value fun d hd => hundisturbed.notWithin hx hblock hd
    have hsplit : requests t = [x.request, .clear virt pageSize]
        ++ [.store32 (w.cell RegisterWindow.statusPageAddress) value] := hrequests
    rw [hsplit, World.after_append]
    exact (hspares.isClear (by simp) hstored).isZero (by decide)
  · intro others m hundisturbed
    have hnone : Tracks w [] (.host none) := .nil rfl
    have htracks : Tracks w ([] ++ t) page := hnone.enable h
    have hlive : page.isLive := by simp [StatusPage.isLive, hvirt]
    exact (htracks.value_shown hundisturbed m).live hlive

end Igd
