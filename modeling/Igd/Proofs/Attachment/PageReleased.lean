/-
A page is given back while the device is still told where it is.

When the stage of the status page is left, the call that gives the page back is the first
thing that is asked, and the store that withdraws the page comes after it.  Nothing before
that call touches the register, so during the call it still holds the address of the page:
the memory can be used for something else while the device writes to it.

That is so at every moment at which a page goes, in whatever run, since every run is made
of moves: when the device is stopped, when some stages are left, and when a failed bring-up
is taken back.
-/
import Igd.Proofs.Attachment.PageKept

namespace Igd

open Program

namespace Attachment

/-- A moment of a run at which a page goes: what happened until then, what the move asks,
and the attachments before and after it. -/
structure LetsGo (past t : List Entry) (a b : Attachment) : Prop where
  passes : Passes past a
  move : Move a t b
  live : a.statusPage.isLive
  gone : b.statusPage.isLive = false

/-- A page goes when its stage is left, and the requests are those of leaving it. -/
theorem LetsGo.requests_eq {past t : List Entry} {a b : Attachment} {h : Handles}
    (hgoes : LetsGo past t a b) (hs : Settled past a h) :
    requests t = h.page.due
      :: h.window.stores RegisterWindow.statusPageAddress RegisterWindow.noStatusPage := by
  obtain ⟨-, hmove, hlive, hgone⟩ := hgoes
  obtain ⟨h', hmoved⟩ := hs.move hmove
  have hafter : ¬ .statusPage ≤ b.stage := by
    rw [← (hs.moved hmoved).stageTells.statusPage, hgone]
    exact Bool.false_ne_true
  have hbefore : .statusPage ≤ a.stage := hs.stageTells.statusPage.mp hlive
  cases hs.changed hmove with
  | kept => exact absurd hbefore hafter
  | entered h' hbelow =>
    have hup := Stage.below_lt hbelow
    exact absurd (le_trans hbefore (le_of_lt hup)) hafter
  | left hbelow hrequests =>
    have hstage : a.stage = .statusPage := by
      by_contra hne
      exact hafter ((Stage.le_iff_le_below hbelow hne).mp hbefore)
    rw [hrequests, hstage]
    rfl

/-- **A page is given back before it is withdrawn.**  Whenever a page goes, its memory is
given back first, and the value for no page is stored after that.  When the call is made
the register still holds the address of the page. -/
theorem LetsGo.released_while_shown {past t : List Entry} {a b : Attachment}
    (hgoes : LetsGo past t a b) :
    ∃ w since release, a.registers = some w ∧ MappedSince past w since ∧
      a.statusPage.release? = some release ∧
      requests t = release
        :: w.stores RegisterWindow.statusPageAddress RegisterWindow.noStatusPage ∧
      ∀ others m, Undisturbed w since others →
        a.statusPage.LiesAt
          (w.value (others.after [] m (requests since)) RegisterWindow.statusPageAddress) := by
  obtain ⟨h, hs⟩ := hgoes.passes.settled
  have hregisters := hs.registers_of_isLive hgoes.live
  have hpage : a.statusPage = h.page.statusPage := by
    rw [hs.statusPage_eq, if_pos (hs.stageTells.statusPage.mp hgoes.live)]
  obtain ⟨since, hmapped, htracks⟩ := hgoes.passes.pageKept.now _ hregisters
  refine ⟨h.window, since, h.page.due, hregisters, hmapped, ?_, hgoes.requests_eq hs, ?_⟩
  · rw [hpage, h.page.release?_statusPage]
  · exact fun others m hundisturbed => (htracks.value_shown hundisturbed m).live hgoes.live

/-- A page that was enabled and is held no more was let go at some moment. -/
theorem Passes.exists_letsGo {past : List Entry} {a : Attachment} (hpasses : Passes past a)
    (henabled : WasEnabled past) (hgone : a.statusPage.isLive = false) :
    ∃ earlier t rest b c, past = earlier ++ t ++ rest ∧ LetsGo earlier t b c := by
  induction hpasses with
  | fresh => exact absurd henabled (not_wasEnabled (by simp))
  | @move past t a b hpasses hmove ih =>
    obtain ⟨h, hs⟩ := hpasses.settled
    by_cases hlive : a.statusPage.isLive
    · exact ⟨past, t, [], a, b, by simp, hpasses, hmove, hlive, hgone⟩
    · -- The move enables no page, since it ends without one.
      have hnot : ¬ WasEnabled t := fun ht => by
        simp [(hs.pageMove hmove).isLive_of_wasEnabled ht] at hgone
      have hearlier := (wasEnabled_append.mp henabled).resolve_right hnot
      obtain ⟨earlier, u, rest, c, d, rfl, hgoes⟩ := ih hearlier (by simpa using hlive)
      exact ⟨earlier, u, rest ++ t, c, d, by simp, hgoes⟩

/-- A 945G whose page is at bus address 0x10000 frees it, and the register holds that
address. -/
theorem released_while_shown_945G :
    ∃ past t a b w since, LetsGo past t a b ∧
      requests t = [.dmaFree ⟨⟨0x10000⟩, ⟨0x10000⟩, pageSize, pageSize⟩,
        .store32 (w.cell RegisterWindow.statusPageAddress) RegisterWindow.noStatusPage] ∧
      MappedSince past w since ∧ Undisturbed w since (fun _ m => m) ∧
      (w.value (World.after (fun _ m => m) [] .blank (requests since))
        RegisterWindow.statusPageAddress).toNat = 0x10000 := by
  have hfresh := Reaches.fresh (.entry 0x2772 "945G" .i9xx [.i9xx]) .standard
    ⟨0, ⟨0xfeb00000⟩, 0x80000, ⟨0xd0000000⟩, ⟨0xd0000000⟩⟩
  have hup := hfresh.play .bringUp (willing ⟨[.unassigned]⟩ 0x30 0x10000) () rfl
  have hpart := hup.play (.descendTo .statusPage) (willing ⟨[.unassigned]⟩ 0x30 0x10000) () rfl
  have hgoes : LetsGo _ _ _ _ :=
    ⟨hpart.arises.passes, .leave rfl (run_play (willing ⟨[.unassigned]⟩ 0x30 0x10000) () _),
      rfl, rfl⟩
  obtain ⟨w, since, release, hw, hmapped, -, hrequests, hshown⟩ := hgoes.released_while_shown
  obtain rfl := Option.some.inj hw
  obtain ⟨hsince, -⟩ := hmapped.unique
    ⟨⟨[], _, rfl, rfl, rfl⟩, Option.isSome_iff_exists.mp (by decide +kernel)⟩
  have hblocks : (exchanges since).filterMap Exchange.handedOut = [(⟨0x10000⟩, pageSize)] := by
    rw [← hsince]
    rfl
  have hundisturbed := undisturbed_945G hblocks
  exact ⟨_, _, _, _, _, since, hgoes, rfl, hmapped, hundisturbed, hshown _ .blank hundisturbed⟩

end Attachment

end Igd
