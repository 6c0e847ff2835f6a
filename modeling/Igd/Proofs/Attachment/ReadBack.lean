/-
An operational device has its page enabled, if its registers reach that far.

A device that came up holds a status page, and the register tells where that is.  So
whoever reads the register through the window of the device finds the address of the page.

The window has to hold the whole register for that.  Nothing in a bring-up looks at the
length of the window, beyond that it is not empty: with a shorter one the store that tells
the device of its page is dropped, the bring-up succeeds all the same, and reading the
register gives all ones.
-/
import Igd.Proofs.Attachment.PageKept

namespace Igd

open Program
open Testbed (Memory)

namespace RegisterWindow

variable {w : RegisterWindow}

theorem read_eq_ask (h : w.Reaches) :
    w.read statusPageAddress = .ask (.load32 (w.cell statusPageAddress)) .done := by
  rw [read, address?_statusPageAddress, if_pos h]
  rfl

theorem read_run (h : w.Reaches) (value : UInt32) : (w.read statusPageAddress).Run
    [.exchange ⟨.load32 (w.cell statusPageAddress), value⟩] (.ok value) := by
  rw [read_eq_ask h]
  refine .ask (r := .load32 _) value ?_
  exact .done value

theorem read_reaching (h : w.Reaches) : (w.read statusPageAddress).Returns fun t value =>
    ∀ m, (∀ x ∈ exchanges t, x.LoadsFrom m) → value = w.value m statusPageAddress := by
  rw [read_eq_ask h]
  simp only [returns_ask, returns_done]
  intro value m hloads
  exact hloads _ List.mem_cons_self

theorem read_beyond (h : ¬ w.Reaches) : (w.read statusPageAddress).Returns fun t value =>
    t = [.notice (.readOutside statusPageAddress)] ∧ value = 0xffffffff := by
  rw [read, address?_statusPageAddress, if_neg h]
  exact returns_bind.2 (returns_log.2 (returns_done.2 ⟨rfl, rfl⟩))

theorem cell_ringControl_ne : w.cell ringControl ≠ w.cell statusPageAddress := by
  intro h
  have hval : w.mapping.virt.val + 0x203c = w.mapping.virt.val + 0x2080 :=
    congrArg VirtAddr.val h
  grind

end RegisterWindow

/-- Through a window that does not reach the register, nothing is stored there. -/
theorem Tracks.not_stored {w : RegisterWindow} {since : List Entry} {page : StatusPage}
    (htracks : Tracks w since page) (h : ¬ w.Reaches) (value : UInt32) :
    .store32 (w.cell RegisterWindow.statusPageAddress) value ∉ requests since := by
  intro hstored
  have haccounted := htracks.writes _ hstored rfl
  generalize hr : Request.store32 (w.cell RegisterWindow.statusPageAddress) value = r at haccounted
  cases haccounted with
  | page hpage =>
    rw [RegisterWindow.stores, RegisterWindow.address?_statusPageAddress, if_neg h] at hpage
    cases hpage
  | ring hring =>
    rw [RegisterWindow.eq_of_mem_stores hring] at hr
    exact RegisterWindow.cell_ringControl_ne (Request.store32.inj hr).1.symm
  | clear => cases hr

namespace Attachment

/-- **The page of a device that came up can be read back.**  A load of the register through
the window of the device gives the address of its page, if the window reaches the register,
no memory that was handed out lies in the window, and nobody else writes the register.  If
the window does not reach it, nothing was stored there and all ones are read. -/
theorem start_reads_back (chip : Chip) (settings : Settings) :
    (start chip settings).Returns fun t result => ∀ a, result = .ok a →
      a.stage = .interrupt ∧ ∃ w since, a.registers = some w ∧ MappedSince t w since ∧
        a.statusPage.isLive ∧
        (w.Reaches → (w.read RegisterWindow.statusPageAddress).Returns fun u value =>
          ∀ others m, Undisturbed w since others →
            (∀ x ∈ exchanges u, x.LoadsFrom (others.after [] m (requests since))) →
            a.statusPage.LiesAt value) ∧
        (¬ w.Reaches →
          (∀ value, .store32 (w.cell RegisterWindow.statusPageAddress) value ∉ requests since) ∧
          (w.read RegisterWindow.statusPageAddress).Returns fun _ value => value = 0xffffffff) := by
  have hpasses := start_passes chip settings
  have hsettled := @start_settled chip settings [] rfl
  refine (hsettled.withRun).mono fun t result ht a ha => ?_
  obtain ⟨hrun, ht⟩ := ht
  subst ha
  obtain ⟨hstage, h, hs⟩ := ht
  rw [List.nil_append] at hs
  obtain ⟨b, hb, heq⟩ := hpasses.of_run hrun
  obtain rfl := heq a rfl
  have hlive : b.statusPage.isLive := hs.stageTells.statusPage.mpr (by rw [hstage]; decide)
  have hregisters := hs.registers_of_isLive hlive
  obtain ⟨since, hmapped, htracks⟩ := hb.pageKept.now _ hregisters
  refine ⟨hstage, h.window, since, hregisters, hmapped, hlive, fun hreaches => ?_,
    fun hshort => ⟨htracks.not_stored hshort, ?_⟩⟩
  · refine (RegisterWindow.read_reaching hreaches).mono fun u value hvalue => ?_
    intro others m hundisturbed hloads
    rw [hvalue _ hloads]
    exact (htracks.value_shown hundisturbed m).live hlive
  · exact (RegisterWindow.read_beyond hshort).mono fun u value hvalue => hvalue.2

/-- A 945G comes up with its page at bus address 0x10000, and that is what is read back. -/
theorem start_reads_back_945G :
    ∃ t a w since value,
      (start (.entry 0x2772 "945G" .i9xx [.i9xx]) .standard).Run t (.ok (.ok a)) ∧
      MappedSince t w since ∧ Undisturbed w since (fun _ m => m) ∧
      value = w.value (World.after (fun _ m => m) [] .blank (requests since))
        RegisterWindow.statusPageAddress ∧
      (w.read RegisterWindow.statusPageAddress).Run
        [.exchange ⟨.load32 (w.cell RegisterWindow.statusPageAddress), value⟩] (.ok value) ∧
      value.toNat = 0x10000 := by
  have hrun := run_play (willing ⟨[⟨⟨0xfeb00000⟩, 0x80000⟩]⟩ 0x30 0x10000) ()
    (start (.entry 0x2772 "945G" .i9xx [.i9xx]) .standard)
  obtain ⟨-, w, since, hw, hmapped, -, hreads, -⟩ :=
    (start_reads_back (.entry 0x2772 "945G" .i9xx [.i9xx]) .standard).of_run hrun _ rfl
  obtain rfl := Option.some.inj hw
  obtain ⟨hsince, -⟩ := hmapped.unique
    ⟨⟨[_, _, _, _, _], _, rfl, rfl, rfl⟩, Option.isSome_iff_exists.mp (by decide +kernel)⟩
  have hblocks : (exchanges since).filterMap Exchange.handedOut = [(⟨0x10000⟩, pageSize)] := by
    rw [← hsince]
    rfl
  have hundisturbed := undisturbed_945G hblocks
  have hread := RegisterWindow.read_run hundisturbed.reaches
  have hshown := (hreads hundisturbed.reaches).of_run (hread _) _ .blank hundisturbed
    (fun x hx => by obtain rfl := List.mem_singleton.mp hx; rfl)
  exact ⟨_, _, _, since, _, hrun, hmapped, hundisturbed, rfl, hread _, hshown⟩

/-- A 945G whose registers are one page long comes up as well, with its page at bus address
0x10000, and all ones are read. -/
theorem not_read_back_945G :
    ∃ t a w since, (start (.entry 0x2772 "945G" .i9xx [.i9xx]) .standard).Run t (.ok (.ok a)) ∧
      ⟨.bars, (⟨[⟨⟨0xfeb00000⟩, 0x1000⟩]⟩ : BarTable)⟩ ∈ exchanges t ∧
      a.registers = some w ∧ w.length = 0x1000 ∧ MappedSince t w since ∧ Apart w since ∧
      (w.read RegisterWindow.statusPageAddress).Run
        [.notice (.readOutside RegisterWindow.statusPageAddress)] (.ok 0xffffffff) ∧
      a.statusPage = .host (some ⟨⟨0x10000⟩, ⟨0x10000⟩, pageSize, pageSize⟩) ∧
      ¬ a.statusPage.LiesAt 0xffffffff := by
  have hrun := run_play (willing ⟨[⟨⟨0xfeb00000⟩, 0x1000⟩]⟩ 0x30 0x10000) ()
    (start (.entry 0x2772 "945G" .i9xx [.i9xx]) .standard)
  obtain ⟨b, hpasses, hb⟩ := (start_passes _ _).of_run hrun
  obtain rfl := hb _ rfl
  obtain ⟨since, hmapped, -⟩ := hpasses.pageKept.now _ rfl
  obtain ⟨hsince, -⟩ := hmapped.unique
    ⟨⟨[_, _, _, _, _], _, rfl, rfl, rfl⟩, Option.isSome_iff_exists.mp (by decide +kernel)⟩
  refine ⟨_, _, _, since, hrun, .head _, rfl, rfl, hmapped, apart_of_below ?_ (by decide), .note (.done _),
    rfl, ?_⟩
  · rw [← hsince]
    decide
  · intro hlies
    have hlies : (0xffffffff : UInt32).toNat = (0x10000 : UInt64).toNat := hlies
    exact absurd hlies (by decide)

end Attachment

end Igd
