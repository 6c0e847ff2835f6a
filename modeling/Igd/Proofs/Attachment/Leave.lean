/-
Going down gives back exactly what the stages hold.

Leaving a stage asks for its farewell, in order, and what is left is the same
attachment one stage lower, whatever the services answer.  `descendTo_returns` is
the induction down the stages: the handles never change, so every stage gives back
what was acquired for it and the stages at or below the floor are not looked at.
-/
import Igd.Proofs.Attachment.Holding
import Igd.Proofs.StatusPage.LettingGo

namespace Igd

open Program

namespace StatusPage

theorem forChip_of_g33 {chip : Chip} (h : chip.generation = .g33) :
    forChip chip = .device none none := by
  simp [forChip, h]

theorem forChip_of_ne_g33 {chip : Chip} (h : chip.generation ≠ .g33) :
    forChip chip = .host none := by
  unfold forChip
  cases hgen : chip.generation with
  | g33 => exact absurd hgen h
  | legacy => rfl
  | i9xx => rfl

end StatusPage

namespace HeldPage

theorem release?_statusPage (page : HeldPage) : page.statusPage.release? = some page.due := by
  cases page <;> rfl

/-- Letting go of a page that suits the chip leaves no page, and stolen memory whole, since the
page was all that was carved of it. -/
theorem letGo_returns {chip : Chip} {usable : Nat} {page : HeldPage}
    (hsuits : page.Suits chip usable) (w : RegisterWindow) :
    (page.statusPage.letGo (some w) (some (page.stolen usable))).Returns fun t result =>
      result = (.forChip chip, some (.ofLength usable)) ∧
      requests t = page.due
        :: w.stores RegisterWindow.statusPageAddress RegisterWindow.noStatusPage := by
  cases page with
  | host buffer =>
    rw [StatusPage.forChip_of_ne_g33 hsuits]
    exact StatusPage.letGo_returns (release?_statusPage (.host buffer)) rfl w
  | device mapping =>
    rw [StatusPage.forChip_of_g33 hsuits.1]
    have hfree := Stolen.Allocator.free_firstPage hsuits.2
    exact StatusPage.letGo_returns (release?_statusPage (.device mapping))
      (StatusPage.releaseHeld_of_free hfree) w

end HeldPage

namespace Attachment

theorem releaseHook_returns (what : Release) (hook : Hook) :
    (releaseHook true what hook).Returns fun t _ => requests t = [.hook hook] := by
  simp [releaseHook, requests]

theorem releaseWorkqueue_returns (queue : Workqueue) :
    (releaseWorkqueue (some queue)).Returns fun t _ => requests t = [.destroyWorkqueue queue] := by
  simp [releaseWorkqueue, requests]

theorem unmapWindow_returns (window : RegisterWindow) :
    (unmapWindow (some window)).Returns fun t _ => requests t = [.unmap window.mapping] := by
  simp [unmapWindow, requests]

theorem closeStolen_returns (stolen : Stolen.Allocator) :
    (closeStolen (some stolen)).Returns fun t _ => requests t = [] := by
  simp [closeStolen, requests]

variable {a : Attachment} {h : Handles}

theorem releaseStage_returns {s p : Stage} (hp : s.below = some p) (hfits : a.Fits h s) :
    ((a.holding h s).releaseStage s).Returns fun t b =>
      { b with stage := p } = a.holding h p ∧ requests t = h.farewell s := by
  cases s with
  | down => cases hp
  | registers =>
    cases hp
    refine returns_bind.2 ((unmapWindow_returns h.window).mono fun t _ ht => ?_)
    exact returns_done.2 ⟨rfl, by simp [ht, Handles.farewell, Handles.dues]⟩
  | aperture =>
    cases hp
    refine returns_bind.2 ((closeStolen_returns _).mono fun t _ ht => ?_)
    refine returns_bind.2 ((releaseHook_returns .aperture .lastClose).mono fun u _ hu => ?_)
    exact returns_done.2 ⟨rfl, by simp [ht, hu, Handles.farewell, Handles.dues]⟩
  | ring =>
    cases hp
    refine returns_bind.2 ((releaseHook_returns .ring .ringCleanup).mono fun t _ ht => ?_)
    exact returns_done.2 ⟨rfl, by simp [ht, Handles.farewell, Handles.dues]⟩
  | statusPage =>
    cases hp
    have hletGo := HeldPage.letGo_returns (hfits (le_refl _)) h.window
    refine returns_bind.2 (hletGo.mono fun t result ht => ?_)
    obtain ⟨rfl, ht⟩ := ht
    exact returns_done.2 ⟨rfl, by simp [ht, Handles.farewell]⟩
  | display =>
    cases hp
    refine returns_bind.2 ((releaseHook_returns .modeset .modesetCleanup).mono fun t _ ht => ?_)
    refine returns_bind.2 ((releaseWorkqueue_returns h.queue).mono fun u _ hu => ?_)
    exact returns_done.2 ⟨rfl, by simp [ht, hu, Handles.farewell, Handles.dues]⟩
  | interrupt =>
    cases hp
    refine returns_bind.2 ((releaseHook_returns .interrupt .irqUninstall).mono fun t _ ht => ?_)
    exact returns_done.2 ⟨rfl, by simp [ht, Handles.farewell, Handles.dues]⟩

/-- **Going down to a floor** leaves the attachment at the floor, or where it was if
that is lower, with the same handles; on the way it asks for the farewells of the
stages above the floor, the highest first. -/
theorem descendTo_returns (floor s : Stage) (hfits : a.Fits h s) :
    ((a.holding h s).descendTo floor).Returns fun t b =>
      b = a.holding h (min s floor) ∧
      requests t = (Stage.descent s floor).flatMap h.farewell := by
  induction s using Stage.below_induction with
  | down =>
    have hfloor : Stage.down ≤ floor := Stage.down_le floor
    simp [descendTo, Stage.descent_of_le hfloor, descend, min_eq_left hfloor, requests]
  | next s p hp ih =>
    rcases le_or_gt s floor with hle | hlt
    · simp [descendTo, Stage.descent_of_le hle, descend, min_eq_left hle, requests]
    · have hpf : floor ≤ p := Stage.le_below hp hlt
      unfold descendTo at ih ⊢
      simp only [holding_stage, Stage.descent_below hp hlt, descend, returns_bind] at ih ⊢
      refine (releaseStage_returns hp hfits).mono fun t b hb => ?_
      rw [hp, Option.getD_some, hb.1]
      refine (ih (hfits.mono (le_of_lt (Stage.below_lt hp)))).mono fun u c hc => ?_
      refine ⟨?_, ?_⟩
      · rw [hc.1, min_eq_right hpf, min_eq_right (le_of_lt hlt)]
      · rw [requests_append, hb.2, hc.2, List.flatMap_cons]

theorem calls_of_farewell {t : List Entry} {l : List Stage}
    (ht : requests t = l.flatMap h.farewell) : (calls t).map (·.request) = l.flatMap h.dues := by
  rw [← filter_requests, ht, h.filter_flatMap_farewell]

theorem descendTo_calls (floor s : Stage) (hfits : a.Fits h s) :
    ((a.holding h s).descendTo floor).Returns fun t b =>
      b = a.holding h (min s floor) ∧
      (calls t).map (·.request) = (Stage.descent s floor).flatMap h.dues := by
  exact (descendTo_returns floor s hfits).mono fun t b hb => ⟨hb.1, calls_of_farewell hb.2⟩

/-- Stopping the ring is a write of its register, once the ring is built. -/
theorem stopRing_returns (s : Stage) :
    (a.holding h s).stopRing.Returns fun t _ =>
      if .ring ≤ s then (h.window.write RegisterWindow.ringControl 0).Run t (.ok ())
      else t = [] := by
  unfold stopRing
  by_cases hring : Stage.ring ≤ s
  · have hregisters : Stage.registers ≤ s := le_trans (by decide) hring
    simp only [holding, if_pos hring, if_pos hregisters]
    intro t out hrun
    obtain ⟨_, rfl, -⟩ := h.window.write_returns RegisterWindow.ringControl 0 t out hrun
    exact ⟨(), rfl, hrun⟩
  · simp [holding, hring]

/-- **Stopping** stops the ring first and then goes all the way down. -/
theorem stop_returns (s : Stage) (hfits : a.Fits h s) :
    ((a.holding h s).stop).Returns fun t b => b = a.holding h .down ∧
      ∃ u v, t = u ++ v ∧
        (if .ring ≤ s then (h.window.write RegisterWindow.ringControl 0).Run u (.ok ())
          else u = []) ∧
        requests v = (Stage.descent s .down).flatMap h.farewell := by
  unfold stop
  refine returns_bind.2 ((stopRing_returns s).mono fun u _ hu => ?_)
  refine returns_bind.2 ((descendTo_returns .down s hfits).mono fun v b hv => ?_)
  refine returns_bind.2 (returns_log.2 (returns_done.2 ⟨?_, u, _, rfl, hu, ?_⟩))
  · rw [hv.1, min_eq_right (Stage.down_le s)]
  · simp [hv.2]

theorem stop_calls (s : Stage) (hfits : a.Fits h s) :
    ((a.holding h s).stop).Returns fun t b => b = a.holding h .down ∧
      (calls t).map (·.request) = (Stage.descent s .down).flatMap h.dues := by
  refine (stop_returns s hfits).mono fun t b ht => ?_
  obtain ⟨rfl, u, v, rfl, hu, hv⟩ := ht
  have hring : (calls u).map (·.request) = [] := by
    by_cases hs : Stage.ring ≤ s
    · rw [if_pos hs] at hu
      rw [← filter_requests, (h.window.write_returns _ _).of_run hu, h.window.filter_stores]
    · rw [if_neg hs] at hu
      rw [hu]
      rfl
  refine ⟨rfl, ?_⟩
  rw [calls_append, List.map_append, hring, List.nil_append, calls_of_farewell hv]

end Attachment

end Igd
