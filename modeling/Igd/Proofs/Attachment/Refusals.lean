/-
A refused release changes nothing.

Every part of bring-up and teardown is indifferent to what releases answer: a refusal is
reported where it happens, and what comes next is the same.  The parts are gone through
from the registers and the status page up to whole actions, and the loops over the stages
by induction.  Nothing is assumed of the attachment, so this also holds of one that could
not come about, and of runs that end in a fault.

What two platforms are led to by an action is then the same as soon as they differ in
the answers to releases only.  It makes no difference to the registers either, since
the stores of the driver are among its requests.
-/
import Igd.Proofs.Attachment.Restore
import Igd.Proofs.Indifference

namespace Igd

open Program

theorem RegisterWindow.write_indifferent (w : RegisterWindow) (register value : UInt32) :
    (w.write register value).Indifferent := by
  unfold write
  split
  · exact .request Bool.false_ne_true
  · exact .log _

theorem Geometry.decodeLogged_indifferent (chip : Chip) (word : UInt16) (barLength : UInt64) :
    (decodeLogged chip word barLength).Indifferent := by
  exact .bind (.ofChecked _) fun _ => .bind (.report _) fun _ => .done _

theorem Geometry.find_indifferent (chip : Chip) : (Geometry.find chip).Indifferent := by
  refine .bind (.request Bool.false_ne_true) fun answer => ?_
  cases answer with
  | none => exact .bind (.log _) fun _ => .done _
  | some word =>
    refine .bind (.request Bool.false_ne_true) fun table => ?_
    refine .bind (decodeLogged_indifferent chip word _) fun result => ?_
    cases result with
    | error e => exact .done _
    | ok geometry => exact .bind (.log _) fun _ => .done _

/-! ### The status page -/

namespace StatusPage

theorem enableHost_indifferent (window : RegisterWindow) : (enableHost window).Indifferent := by
  refine .bind (.request Bool.false_ne_true) fun answer => ?_
  cases answer with
  | none => exact .bind (.log _) fun _ => .done _
  | some buffer =>
    dsimp only
    split
    · have hfree : (Program.request (.dmaFree buffer)
          >>= reportRefusal .rejectedPageNotFreed).Indifferent :=
        .reported _ fun answer => reportRefusal_muted _ answer
      refine .bind (.log _) fun _ => ?_
      rw [← bind_assoc]
      exact .bind hfree fun _ => .done _
    · refine .bind (.request Bool.false_ne_true) fun _ => ?_
      exact .bind (window.write_indifferent _ _) fun _ => .bind (.log _) fun _ => .done _

theorem giveBack_indifferent (stolen : Stolen.Allocator) (block : Stolen.Block) :
    (giveBack stolen block).Indifferent :=
  .bind (.ofChecked _) fun _ => .bind (.report _) fun _ => .done _

theorem enableDevice_indifferent (window : RegisterWindow) (stolen : Stolen.Allocator)
    (apertureBase : PhysAddr) : (enableDevice window stolen apertureBase).Indifferent := by
  refine .bind (.ofChecked _) fun result => ?_
  obtain ⟨carved, stolen⟩ := result
  cases carved with
  | error e => exact .bind (.log _) fun _ => .done _
  | ok block =>
    dsimp only
    split
    · exact .bind (giveBack_indifferent _ _) fun _ => .done _
    · refine .bind (.ofChecked _) fun phys => .bind (.request Bool.false_ne_true) fun answer => ?_
      split
      · exact .bind (.log _) fun _ => .bind (giveBack_indifferent _ _) fun _ => .done _
      · refine .bind (.request Bool.false_ne_true) fun _ => ?_
        exact .bind (window.write_indifferent _ _) fun _ => .bind (.log _) fun _ => .done _

theorem enable_indifferent (p : StatusPage) (window : RegisterWindow) (stolen : Stolen.Allocator)
    (apertureBase : PhysAddr) : (p.enable window stolen apertureBase).Indifferent := by
  cases p with
  | host buffer =>
    refine .bind (enableHost_indifferent window) fun result => ?_
    cases result <;> exact .done _
  | device block mapping =>
    refine .bind (enableDevice_indifferent window stolen apertureBase) fun result => ?_
    obtain ⟨verdict, stolen⟩ := result
    cases verdict <;> exact .done _

theorem withdraw_indifferent (window : Option RegisterWindow) : (withdraw window).Indifferent := by
  cases window with
  | none => exact .log _
  | some window => exact window.write_indifferent _ _

theorem unmapHeld_indifferent (mapping : Option IoMapping) : (unmapHeld mapping).Indifferent := by
  cases mapping with
  | none => exact .done _
  | some mapping => exact .reported _ fun answer => reportRefusal_muted _ answer

theorem freeHeld_indifferent (buffer : Option DmaBuffer) : (freeHeld buffer).Indifferent := by
  cases buffer with
  | none => exact .done _
  | some buffer => exact .reported _ fun answer => reportRefusal_muted _ answer

theorem releaseHeld_indifferent (stolen : Option Stolen.Allocator) (block : Option Stolen.Block) :
    (releaseHeld stolen block).Indifferent := by
  cases block with
  | none => exact .done _
  | some block =>
    cases stolen with
    | none => exact .bind (.log _) fun _ => .done _
    | some stolen => exact .bind (giveBack_indifferent stolen block) fun _ => .done _

theorem letGo_indifferent (p : StatusPage) (window : Option RegisterWindow)
    (stolen : Option Stolen.Allocator) : (p.letGo window stolen).Indifferent := by
  cases p with
  | host buffer =>
    exact .bind (freeHeld_indifferent buffer) fun _ =>
      .bind (withdraw_indifferent window) fun _ => .done _
  | device block mapping =>
    exact .bind (unmapHeld_indifferent mapping) fun _ =>
      .bind (releaseHeld_indifferent stolen block) fun _ =>
        .bind (withdraw_indifferent window) fun _ => .done _

end StatusPage

namespace Attachment

/-! ### Leaving stages -/

theorem releaseHook_indifferent (held : Bool) (what : Release) (hook : Hook) :
    (releaseHook held what hook).Indifferent := by
  cases held with
  | false => exact .done _
  | true => exact .reported _ fun answer => reportRefusal_muted _ answer

theorem releaseWorkqueue_indifferent (queue : Option Workqueue) :
    (releaseWorkqueue queue).Indifferent := by
  cases queue with
  | none => exact .done _
  | some queue => exact .reported _ fun answer => reportRefusal_muted _ answer

theorem closeStolen_indifferent (stolen : Option Stolen.Allocator) :
    (closeStolen stolen).Indifferent := by
  cases stolen with
  | none => exact .done _
  | some stolen => exact .report _

theorem unmapWindow_indifferent (window : Option RegisterWindow) :
    (unmapWindow window).Indifferent := by
  cases window with
  | none => exact .log _
  | some window => exact .reported _ fun answer => reportRefusal_muted _ answer

theorem releaseDisplay_indifferent (a : Attachment) : a.releaseDisplay.Indifferent :=
  .bind (releaseHook_indifferent _ _ _) fun _ =>
    .bind (releaseWorkqueue_indifferent _) fun _ => .done _

theorem releaseStage_indifferent (a : Attachment) (s : Stage) :
    (a.releaseStage s).Indifferent := by
  cases s with
  | down => exact .done _
  | registers => exact .bind (unmapWindow_indifferent _) fun _ => .done _
  | aperture =>
    exact .bind (closeStolen_indifferent _) fun _ =>
      .bind (releaseHook_indifferent _ _ _) fun _ => .done _
  | ring => exact .bind (releaseHook_indifferent _ _ _) fun _ => .done _
  | statusPage => exact .bind (StatusPage.letGo_indifferent _ _ _) fun _ => .done _
  | display => exact releaseDisplay_indifferent a
  | interrupt => exact .bind (releaseHook_indifferent _ _ _) fun _ => .done _

theorem descend_indifferent (stages : List Stage) (a : Attachment) :
    (descend stages a).Indifferent := by
  induction stages generalizing a with
  | nil => exact .done a
  | cons s rest ih => exact .bind (releaseStage_indifferent a s) fun b => ih _

theorem stopRing_indifferent (a : Attachment) : a.stopRing.Indifferent := by
  unfold stopRing
  split
  · split
    · exact .done _
    · exact RegisterWindow.write_indifferent _ _ _
  · exact .done _

theorem stop_indifferent (a : Attachment) : a.stop.Indifferent :=
  .bind (stopRing_indifferent a) fun _ =>
    .bind (descend_indifferent _ a) fun _ => .bind (.log _) fun _ => .done _

/-! ### Entering stages -/

theorem acquireRegisters_indifferent (a : Attachment) : a.acquireRegisters.Indifferent := by
  refine .bind (.request Bool.false_ne_true) fun answer => ?_
  split
  · exact .bind (.log _) fun _ => .done _
  · exact .done _

theorem acquireAperture_indifferent (a : Attachment) : a.acquireAperture.Indifferent := by
  refine .bind (Geometry.find_indifferent _) fun result => ?_
  cases result with
  | error e => exact .done _
  | ok geometry => exact .bind (.request Bool.false_ne_true) fun _ => .done _

theorem acquireStatusPage_indifferent (a : Attachment) : a.acquireStatusPage.Indifferent := by
  unfold acquireStatusPage
  split
  · exact .done _
  · exact .done _
  · exact .bind (StatusPage.enable_indifferent _ _ _ _) fun _ => .done _

theorem acquireModes_indifferent (a : Attachment) : a.acquireModes.Indifferent := by
  refine .bind (.request Bool.false_ne_true) fun tables => ?_
  cases tables with
  | error e => exact .bind (.log _) fun _ => .done _
  | ok found =>
    refine .bind (.request Bool.false_ne_true) fun modes => ?_
    cases modes with
    | error e => exact .done _
    | ok set => exact .bind (.request Bool.false_ne_true) fun _ => .done _

theorem acquireDisplay_indifferent (a : Attachment) : a.acquireDisplay.Indifferent := by
  refine .bind (.request Bool.false_ne_true) fun answer => ?_
  cases answer with
  | none => exact .bind (.log _) fun _ => .done _
  | some queue =>
    refine .bind (acquireModes_indifferent _) fun result => ?_
    obtain ⟨verdict, b⟩ := result
    cases verdict with
    | error e => exact .bind (releaseDisplay_indifferent b) fun _ => .done _
    | ok => exact .done _

theorem acquireStage_indifferent (a : Attachment) (s : Stage) :
    (a.acquireStage s).Indifferent := by
  cases s with
  | down => exact .done _
  | registers => exact acquireRegisters_indifferent a
  | aperture => exact acquireAperture_indifferent a
  | statusPage => exact acquireStatusPage_indifferent a
  | display => exact acquireDisplay_indifferent a
  | ring | interrupt =>
    refine .bind (.request Bool.false_ne_true) fun answer => ?_
    cases answer <;> exact .done _

theorem climb_indifferent (target : Stage) (stages : List Stage) (a : Attachment) :
    (climb target stages a).Indifferent := by
  induction stages generalizing a with
  | nil => exact .done _
  | cons s rest ih =>
    unfold climb
    split
    · exact ih a
    · split
      · exact .done _
      · refine .bind (acquireStage_indifferent a s) fun result => ?_
        obtain ⟨verdict, b⟩ := result
        cases verdict with
        | error e => exact .done _
        | ok => exact .bind (.ofChecked _) fun c => ih c

theorem bringUp_indifferent (a : Attachment) : a.bringUp.Indifferent := by
  refine .bind (climb_indifferent _ _ a) fun result => ?_
  obtain ⟨verdict, part⟩ := result
  cases verdict with
  | ok => exact .done _
  | error e =>
    exact .bind (.log _) fun _ => .bind (descend_indifferent _ part) fun _ => .done _

theorem readStolenBase_indifferent (a : Attachment) : a.readStolenBase.Indifferent := by
  unfold readStolenBase
  split
  · exact .bind (.request Bool.false_ne_true) fun _ => .bind (.log _) fun _ => .done _
  · exact .done _

theorem start_indifferent (chip : Chip) (settings : Settings) :
    (start chip settings).Indifferent := by
  refine .bind (.log _) fun _ => .bind ?_ fun found => ?_
  · exact .bind (.request Bool.false_ne_true) fun _ => .bind (.log _) fun _ => .done _
  · cases found with
    | error e => exact .done _
    | ok resources =>
      refine .bind (readStolenBase_indifferent _) fun a => ?_
      refine .bind (climb_indifferent _ _ a) fun result => ?_
      obtain ⟨verdict, mapped⟩ := result
      cases verdict with
      | error e => exact .done _
      | ok =>
        refine .bind (bringUp_indifferent mapped) fun result => ?_
        obtain ⟨verdict, up⟩ := result
        cases verdict with
        | error e => exact .bind (descend_indifferent _ up) fun _ => .done _
        | ok => exact .bind (.log _) fun _ => .done _

/-- **Refusals change nothing.**  On two platforms that differ in their answers to
releases only, bringing a device up from nothing ends in the same way, with the same error
or the same attachment, after the same requests and with the same in every register.  So
does any action on any attachment. -/
theorem refusals_change_nothing {σ τ : Type} {answer : σ → (r : Request) → r.Answer × σ}
    {answer' : τ → (r : Request) → r.Answer × τ} {InStep : σ → τ → Prop}
    (halike : Alike answer answer' InStep) {s : σ} {s' : τ} (hstep : InStep s s') :
    (∀ chip settings, SameEffect answer answer' InStep s s' (start chip settings)) ∧
    ∀ a : Attachment, SameEffect answer answer' InStep s s' a.bringUp ∧
      (∀ floor, SameEffect answer answer' InStep s s' (a.descendTo floor)) ∧
      SameEffect answer answer' InStep s s' a.stop := by
  refine ⟨fun chip settings => ?_, fun a => ⟨?_, fun floor => ?_, ?_⟩⟩
  · exact (start_indifferent chip settings).sameEffect halike hstep
  · exact (bringUp_indifferent a).sameEffect halike hstep
  · exact (descend_indifferent _ a).sameEffect halike hstep
  · exact (stop_indifferent a).sameEffect halike hstep

/-- A G33 that finds the interrupt taken gives back all it has, with a message more for
each refusal, and reports the same error. -/
theorem refusals_change_nothing_interruptTaken :
    let a := fresh (.entry 0x29c2 "G33" .g33 [.i9xx, .g33]) .standard
      ⟨0, ⟨0xfeb00000⟩, 0x80000, ⟨0xd0000000⟩, ⟨0xd0000000⟩⟩
    Alike interruptTaken (refusing interruptTaken) Eq ∧
    (play interruptTaken () a.bringUp).1.length + 6
      = (play (refusing interruptTaken) () a.bringUp).1.length ∧
    (play (refusing interruptTaken) () a.bringUp).2.1
      = .ok (.error (.interrupt .busy), a) ∧
    SameEffect interruptTaken (refusing interruptTaken) Eq () () a.bringUp :=
  ⟨refusing_alike interruptTaken, by decide +kernel, by decide +kernel,
    ((refusals_change_nothing (refusing_alike interruptTaken) rfl).2 _).1⟩

end Attachment

end Igd
