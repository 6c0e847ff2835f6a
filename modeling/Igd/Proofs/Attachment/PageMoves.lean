/-
What the moves do to the status page register.

The register is written when a page is enabled and when it is withdrawn, and nothing
else that the driver does comes near it.  That is a statement about every request of
every part of the driver, so it is made of entries.  A plain entry writes no memory, ends
no mapping and reports no page, and most parts consist of plain entries whatever they
are answered (`Only`).

The others are opened up.  A course that ends with a page obtains some memory, clears it
and stores one word in the register; one that ends without is plain.  So `PageMove` has a case
for each way a move can be: plain, or mapping the registers, stopping the ring, enabling
a page, withdrawing it, or unmapping the registers.
-/
import Igd.Proofs.Attachment.Moves
import Igd.Proofs.Memory

namespace Igd

open Program

/-- A request that ends a mapping. -/
def Request.isUnmap : Request → Bool
  | .unmap _ => true
  | _ => false

/-- An entry that does not report a page as enabled. -/
def Entry.isQuiet : Entry → Bool
  | .exchange _ => true
  | .notice n => !n.isPageEnabled

/-- An entry that neither writes memory, nor ends a mapping, nor reports a page. -/
def Entry.isPlain : Entry → Bool
  | .exchange x => !x.request.isWrite && !x.request.isUnmap
  | .notice n => !n.isPageEnabled

theorem Entry.isQuiet_of_isPlain {e : Entry} (h : e.isPlain) : e.isQuiet := by
  cases e with
  | exchange x => rfl
  | notice n => exact h

theorem Entry.isPlain_of_isIdle {e : Entry} (h : e.isIdle) : e.isPlain := by
  cases e with
  | notice n => exact h
  | exchange x =>
    obtain ⟨request, answer⟩ := x
    cases request with
    | bars | readBridge | readDevice => rfl
    | _ => cases h

theorem requests_of_isPlain {t : List Entry} (h : ∀ e ∈ t, e.isPlain) :
    ∀ r ∈ requests t, ¬ r.isWrite ∧ ¬ r.isUnmap := by
  intro r hr
  obtain ⟨x, hx, rfl⟩ := List.mem_map.mp hr
  have hplain := h _ (mem_exchanges.mp hx)
  simpa [Entry.isPlain] using hplain

/-- A page was reported as enabled. -/
def WasEnabled (t : List Entry) : Prop := ∃ n, .notice n ∈ t ∧ n.isPageEnabled

theorem wasEnabled_append {t u : List Entry} :
    WasEnabled (t ++ u) ↔ WasEnabled t ∨ WasEnabled u := by
  simp only [WasEnabled, List.mem_append, or_and_right, exists_or]

theorem not_wasEnabled {t : List Entry} (h : ∀ e ∈ t, e.isQuiet) : ¬ WasEnabled t := by
  rintro ⟨n, hn, hpage⟩
  have hquiet : (!n.isPageEnabled) = true := h _ hn
  rw [hpage] at hquiet
  cases hquiet

/-- The memory that an exchange obtained, by its start and its length. -/
def Exchange.handedOut : Exchange → Option (VirtAddr × Nat)
  | ⟨.map _ length, some mapping⟩ =>
    if mapping.virt.isNull then none else some (mapping.virt, length)
  | ⟨.dmaAlloc size _ _, some buffer⟩ => some (buffer.vaddr, size)
  | _ => none

theorem Exchange.request_of_handedOut {x : Exchange} {block : VirtAddr × Nat}
    (h : x.handedOut = some block) : ¬ x.request.isWrite ∧ ¬ x.request.isUnmap := by
  obtain ⟨request, answer⟩ := x
  cases request with
  | map | dmaAlloc => simp [Request.isWrite, Request.isUnmap]
  | _ => cases h

theorem handedOut_map (phys : PhysAddr) (length : Nat) (answer : Option IoMapping) :
    Exchange.handedOut ⟨.map phys length, answer⟩
      = (StatusPage.usable answer).map fun mapping => (mapping.virt, length) := by
  cases answer with
  | none => rfl
  | some mapping =>
    cases hnull : mapping.virt.isNull <;> simp [Exchange.handedOut, StatusPage.usable, hnull]

/-- The value is what tells the device where the page lies. -/
def StatusPage.LiesAt : StatusPage → UInt32 → Prop
  | .host (some buffer), value => value.toNat = buffer.bus.toNat
  | .device (some block) _, value => value.toNat = block.base
  | _, _ => False

/-- A page of memory is obtained and cleared, the device is told where it lies, and that
is reported. -/
structure Enables (w : RegisterWindow) (t : List Entry) (page : StatusPage) : Prop where
  told : ∃ virt value, page.vaddr? = some virt ∧ page.LiesAt value ∧
    ∃ x ∈ exchanges t, x.handedOut = some (virt, pageSize) ∧
      requests t = x.request :: .clear virt pageSize
        :: w.stores RegisterWindow.statusPageAddress value
  reported : WasEnabled t

/-! ### The status page -/

namespace StatusPage

variable {w : RegisterWindow} {a a' : Stolen.Allocator} {base : PhysAddr}
  {page page' : StatusPage} {t : List Entry}

/-- **A course that ends with a page enables it.** -/
theorem Course.enables (h : Course w a base page t (.ok (.ok (), page', a'))) :
    Enables w t page' := by
  cases h with
  | @host old b value u hbus hwrite =>
    have hstore := (w.write_returns _ _).of_run hwrite
    refine ⟨⟨b.vaddr, value, rfl, PhysAddr.toNat_of_register? hbus, ⟨.dmaAlloc _ _ _, some b⟩,
      List.mem_cons_self, rfl, ?_⟩, .hostPageEnabled value, by simp, rfl⟩
    simp [hstore]
  | @device block mapping b a' phys answer m u hcarve hbase hphys hanswer hwrite =>
    have hstore := (w.write_returns _ _).of_run hwrite
    refine ⟨⟨m.virt, .ofNat b.base, rfl, UInt32.toNat_ofNat_of_lt' hbase, ⟨.map _ _, answer⟩,
      List.mem_cons_self, ?_, ?_⟩, .devicePageEnabled b.base, by simp, rfl⟩
    · rw [handedOut_map, hanswer]
      rfl
    · simp [hstore]

theorem Course.plain {e : StatusPageError} (h : Course w a base page t (.ok (.error e, page', a'))) :
    ∀ e ∈ t, e.isPlain := by
  cases h with
  | noBuffer | noBlock | beyond | unmapped =>
    simp [Entry.isPlain, Request.isWrite, Request.isUnmap, Notice.isPageEnabled]
  | freed old answer hbus =>
    cases answer <;> simp [refusalNotices, Entry.isPlain, Request.isWrite, Request.isUnmap,
      Notice.isPageEnabled]

/-- **A page is reported exactly if it is enabled.**  Otherwise there is no trace of it. -/
theorem enable_marks (chip : Chip) (window : RegisterWindow) (n : Nat) (base : PhysAddr) :
    ((forChip chip).enable window (.ofLength n) base).Returns fun t result =>
      match result.1 with
      | .error _ => ∀ e ∈ t, e.isPlain
      | .ok () => Enables window t result.2.1 := by
  refine (enable_ofLength _ window n base).mono fun t result hcourse => ?_
  obtain ⟨verdict, page, stolen⟩ := result
  cases verdict with
  | error e => exact hcourse.plain
  | ok => exact hcourse.enables

end StatusPage

/-! ### Plain parts -/

theorem Geometry.find_plain (chip : Chip) : (Geometry.find chip).Only (·.isPlain) := by
  have hdecode (word : UInt16) (length : UInt64) :
      (decodeLogged chip word length).Only (·.isPlain) := by
    simp only [decodeLogged, decode_eq, liftM, monadLift, MonadLift.monadLift, ofChecked, done_bind]
    refine .bind (.report fun m hm => ?_) fun _ => .done _
    unfold decodeNotice at hm
    split at hm
    · cases hm
      rfl
    · split at hm <;> cases hm
      rfl
  refine .bind (.request fun _ => rfl) fun answer => ?_
  cases answer with
  | none => exact .bind (.log rfl) fun _ => .done _
  | some word =>
    refine .bind (.request fun _ => rfl) fun table => ?_
    refine .bind (hdecode word _) fun result => ?_
    cases result with
    | error e => exact .done _
    | ok geometry => exact .bind (.log rfl) fun _ => .done _

namespace Attachment

theorem releaseHook_plain (held : Bool) (what : Release) (hook : Hook) :
    (releaseHook held what hook).Only (·.isPlain) := by
  cases held with
  | false => exact .done _
  | true =>
    refine .bind (.request fun _ => rfl) fun answer => .reportRefusal ?_ answer
    exact fun _ => rfl

theorem releaseWorkqueue_plain (queue : Option Workqueue) :
    (releaseWorkqueue queue).Only (·.isPlain) := by
  cases queue with
  | none => exact .done _
  | some queue =>
    refine .bind (.request fun _ => rfl) fun answer => .reportRefusal ?_ answer
    exact fun _ => rfl

theorem releaseDisplay_plain (a : Attachment) : a.releaseDisplay.Only (·.isPlain) :=
  .bind (releaseHook_plain _ _ _) fun _ => .bind (releaseWorkqueue_plain _) fun _ => .done _

theorem acquireRegisters_plain (a : Attachment) : a.acquireRegisters.Only (·.isPlain) := by
  refine .bind (.request fun _ => rfl) fun answer => ?_
  split
  · exact .bind (.log rfl) fun _ => .done _
  · exact .done _

theorem acquireAperture_plain (a : Attachment) : a.acquireAperture.Only (·.isPlain) := by
  refine .bind (Geometry.find_plain _) fun result => ?_
  cases result with
  | error e => exact .done _
  | ok geometry => exact .bind (.request fun _ => rfl) fun _ => .done _

theorem acquireModes_plain (a : Attachment) : a.acquireModes.Only (·.isPlain) := by
  refine .bind (.request fun _ => rfl) fun tables => ?_
  cases tables with
  | error e => exact .bind (.log rfl) fun _ => .done _
  | ok found =>
    refine .bind (.request fun _ => rfl) fun modes => ?_
    cases modes with
    | error e => exact .done _
    | ok set => exact .bind (.request fun _ => rfl) fun _ => .done _

theorem acquireDisplay_plain (a : Attachment) : a.acquireDisplay.Only (·.isPlain) := by
  refine .bind (.request fun _ => rfl) fun answer => ?_
  cases answer with
  | none => exact .bind (.log rfl) fun _ => .done _
  | some queue =>
    refine .bind (acquireModes_plain _) fun result => ?_
    obtain ⟨verdict, b⟩ := result
    cases verdict with
    | error e => exact .bind (releaseDisplay_plain b) fun _ => .done _
    | ok => exact .done _

/-- Only the status page is not entered in plain entries. -/
theorem acquireStage_plain (a : Attachment) {s : Stage} (hs : s ≠ .statusPage) :
    (a.acquireStage s).Only (·.isPlain) := by
  cases s with
  | down => exact .done _
  | registers => exact acquireRegisters_plain a
  | aperture => exact acquireAperture_plain a
  | statusPage => exact absurd rfl hs
  | display => exact acquireDisplay_plain a
  | ring | interrupt =>
    refine .bind (.request fun _ => rfl) fun answer => ?_
    cases answer <;> exact .done _

/-- Only the registers and the status page are not left in plain entries. -/
theorem releaseStage_plain (a : Attachment) {s : Stage} (hregisters : s ≠ .registers)
    (hpage : s ≠ .statusPage) : (a.releaseStage s).Only (·.isPlain) := by
  cases s with
  | down => exact .done _
  | registers => exact absurd rfl hregisters
  | aperture =>
    refine .bind ?_ fun _ => .bind (releaseHook_plain _ _ _) fun _ => .done _
    cases a.stolen with
    | none => exact .done _
    | some stolen =>
      refine .report fun m hm => ?_
      unfold Stolen.Allocator.close at hm
      dsimp only at hm
      split at hm <;> cases hm
      rfl
  | ring => exact .bind (releaseHook_plain _ _ _) fun _ => .done _
  | statusPage => exact absurd rfl hpage
  | display => exact releaseDisplay_plain a
  | interrupt => exact .bind (releaseHook_plain _ _ _) fun _ => .done _

end Attachment

/-! ### Quiet parts -/

theorem RegisterWindow.write_quiet (w : RegisterWindow) (register value : UInt32) :
    (w.write register value).Only (·.isQuiet) := by
  unfold write
  split
  · exact .request fun _ => rfl
  · exact .log rfl

theorem StatusPage.letGo_quiet {chip : Chip} {usable : Nat} {page : HeldPage}
    (hsuits : page.Suits chip usable) (w : RegisterWindow) :
    (page.statusPage.letGo (some w) (some (page.stolen usable))).Only (·.isQuiet) := by
  cases page with
  | host buffer =>
    refine .bind (.bind (.request fun _ => rfl) fun answer => ?_) fun _ =>
      .bind (w.write_quiet _ _) fun _ => .done _
    refine .reportRefusal ?_ answer
    exact fun _ => rfl
  | device mapping =>
    have hheld := releaseHeld_of_free (Stolen.Allocator.free_firstPage hsuits.2)
    simp only [HeldPage.statusPage, HeldPage.stolen, letGo, hheld, done_bind]
    refine .bind (.bind (.request fun _ => rfl) fun answer => ?_) fun _ =>
      .bind (w.write_quiet _ _) fun _ => .done _
    refine .reportRefusal ?_ answer
    exact fun _ => rfl

namespace Attachment

theorem releaseRegisters_quiet (a : Attachment) : a.releaseRegisters.Only (·.isQuiet) := by
  refine .bind ?_ fun _ => .done _
  cases a.registers with
  | none => exact .log rfl
  | some window =>
    refine .bind (.request fun _ => rfl) fun answer => .reportRefusal ?_ answer
    exact fun _ => rfl

theorem releaseStatusPage_quiet {a : Attachment} {h : Handles} (hfits : a.Fits h .statusPage) :
    ((a.holding h .statusPage).releaseStage .statusPage).Only (·.isQuiet) :=
  .bind (StatusPage.letGo_quiet (hfits (le_refl _)) h.window) fun _ => .done _

/-- What a move does to the registers and to the status page. -/
inductive PageMove (a : Attachment) (t : List Entry) (b : Attachment) : Prop
  /-- Nothing. -/
  | plain (hplain : ∀ e ∈ t, e.isPlain) (hregisters : b.registers = a.registers)
      (hpage : b.statusPage = a.statusPage)
  /-- It maps the registers. -/
  | maps (w : RegisterWindow) (x : Exchange) (hstage : a.stage = .down) (ht : t = [.exchange x])
      (howes : x.owes = [.unmap w.mapping]) (hregisters : b.registers = some w)
      (hpage : b.statusPage.isLive = false)
  /-- It stores to the register of the ring. -/
  | stopsRing (w : RegisterWindow) (hregisters : a.registers = some w) (hb : b = a)
      (ht : requests t = w.stores RegisterWindow.ringControl 0) (hquiet : ∀ e ∈ t, e.isQuiet)
  /-- It enables a page. -/
  | enables (w : RegisterWindow) (hbefore : a.registers = some w) (hafter : b.registers = some w)
      (ht : Enables w t b.statusPage)
  /-- It gives the page back and withdraws it. -/
  | withdraws (w : RegisterWindow) (hbefore : a.registers = some w)
      (hafter : b.registers = some w) (due : Request) (hwrite : due.isWrite = false)
      (hdue : ∀ mapping, due = .unmap mapping → a.statusPage.vaddr? = some mapping.virt)
      (ht : requests t = due
        :: w.stores RegisterWindow.statusPageAddress RegisterWindow.noStatusPage)
      (hquiet : ∀ e ∈ t, e.isQuiet) (hlive : a.statusPage.isLive)
      (hpage : b.statusPage.isLive = false)
  /-- It unmaps the registers. -/
  | unmaps (w : RegisterWindow) (hbefore : a.registers = some w) (hafter : b.registers = none)
      (ht : requests t = [.unmap w.mapping]) (hquiet : ∀ e ∈ t, e.isQuiet)
      (hpage : a.statusPage.isLive = false)

theorem PageMove.isLive_of_wasEnabled {a b : Attachment} {t : List Entry} (h : PageMove a t b)
    (henabled : WasEnabled t) : b.statusPage.isLive := by
  cases h with
  | plain hplain =>
    have hquiet : ∀ e ∈ t, e.isQuiet := fun e he => Entry.isQuiet_of_isPlain (hplain e he)
    exact absurd henabled (not_wasEnabled hquiet)
  | maps w x hstage ht =>
    subst ht
    exact absurd henabled (not_wasEnabled (by simp [Entry.isQuiet]))
  | enables w hbefore hafter henables =>
    obtain ⟨virt, -, hvirt, -⟩ := henables.told
    simp [StatusPage.isLive, hvirt]
  | stopsRing _ _ _ _ hquiet => exact absurd henabled (not_wasEnabled hquiet)
  | withdraws _ _ _ _ _ _ _ hquiet => exact absurd henabled (not_wasEnabled hquiet)
  | unmaps _ _ _ _ hquiet => exact absurd henabled (not_wasEnabled hquiet)

namespace Settled

variable {past t : List Entry} {a b : Attachment} {h : Handles}

theorem registers_eq (hs : Settled past a h) :
    a.registers = if .registers ≤ a.stage then some h.window else none := by
  rw [← hs.holds]
  rfl

theorem statusPage_eq (hs : Settled past a h) :
    a.statusPage = if .statusPage ≤ a.stage then h.page.statusPage else .forChip a.chip := by
  conv_lhs => rw [← hs.holds]
  rfl

/-- Between two stages that both have the registers, these are the same. -/
theorem registers_holding (hs : Settled past a h) {h' : Handles} {s : Stage}
    (hagree : h'.Agree h a.stage) (hbefore : .registers ≤ a.stage) (hafter : .registers ≤ s) :
    (a.holding h' s).registers = a.registers := by
  rw [hs.registers_eq, if_pos hbefore, ← hagree.window hbefore]
  exact if_pos hafter

/-- Between two stages that both have the status page, or both lack it, it is the same. -/
theorem statusPage_holding (hs : Settled past a h) {h' : Handles} {s : Stage}
    (hagree : h'.Agree h a.stage) (hsame : .statusPage ≤ s ↔ .statusPage ≤ a.stage) :
    (a.holding h' s).statusPage = a.statusPage := by
  show (if .statusPage ≤ s then h'.page.statusPage else .forChip a.chip) = _
  rw [hs.statusPage_eq]
  by_cases hpage : Stage.statusPage ≤ a.stage
  · rw [if_pos hpage, if_pos (hsame.mpr hpage), hagree.page hpage]
  · rw [if_neg hpage, if_neg fun hle => hpage (hsame.mp hle)]

theorem stopRing_pageMove (hs : Settled past a h) (hrun : a.stopRing.Run t (.ok ())) :
    PageMove a t a := by
  have hstop := stopRing_returns (a := a) (h := h) a.stage
  rw [hs.holds] at hstop
  have ht := hstop.of_run hrun
  split at ht
  · rename_i hring
    have hmapped : Stage.registers ≤ a.stage := le_trans (by decide) hring
    refine .stopsRing h.window (hs.registers_eq.trans (if_pos hmapped)) rfl ?_ ?_
    · exact (h.window.write_returns _ _).of_run ht
    · exact (h.window.write_quiet _ _).of_run ht
  · rw [ht]
    exact .plain (by simp) rfl rfl

theorem acquireRegisters_maps (a : Attachment) :
    a.acquireRegisters.Returns fun t result => ∀ b, result = (.ok (), b) →
      ∃ x mapping, t = [.exchange x] ∧ x.owes = [.unmap mapping] ∧
        b = { a with registers := some ⟨mapping⟩ } := by
  simp only [acquireRegisters, request_eq_ask, ask_bind, done_bind, returns_ask]
  intro answer
  cases hanswer : StatusPage.usable answer with
  | none =>
    exact returns_bind.2 (returns_log.2 (returns_done.2 (by simp)))
  | some mapping =>
    refine returns_done.2 fun b hb => ⟨⟨.map _ _, answer⟩, mapping, rfl, ?_, ?_⟩
    · rw [owes_map, hanswer]
      rfl
    · simpa using hb.symm

theorem acquireStatusPage_marks (a : Attachment) (h : Handles) :
    ((a.holding h .ring).acquireStatusPage).Returns fun t result =>
      match result.1 with
      | .error _ => ∀ e ∈ t, e.isPlain
      | .ok () => Enables h.window t result.2.statusPage := by
  have hopen : (a.holding h .ring).acquireStatusPage = (do
      let enabled ← (StatusPage.forChip a.chip).enable h.window (.ofLength h.geometry.usable)
        a.resources.apertureBase
      return (enabled.1.mapError .statusPage, { a.holding h .ring with
        statusPage := enabled.2.1
        stolen := some enabled.2.2 })) := rfl
  rw [hopen]
  refine returns_bind.2 ((StatusPage.enable_marks a.chip h.window h.geometry.usable
    a.resources.apertureBase).mono fun t result ht => ?_)
  obtain ⟨verdict, page, stolen⟩ := result
  cases verdict <;> exact returns_done.2 (by simpa [Except.mapError] using ht)

theorem enter_pageMove (hs : Settled past a h) {s : Stage} (hbelow : s.below = some a.stage)
    (hrun : (a.acquireStage s).Run t (.ok (.ok (), b))) :
    PageMove a t { b with stage := s } := by
  cases (hs.acquireStage hbelow).of_run hrun with
  | entered h' hclimbed =>
    show PageMove a t (a.holding h' s)
    have hagree := hclimbed.agrees
    by_cases hregisters : s = .registers
    · subst hregisters
      have hstage : a.stage = .down := (Option.some.inj hbelow).symm
      obtain ⟨x, mapping, ht, howes, hb⟩ := (acquireRegisters_maps a).of_run hrun _ rfl
      refine .maps ⟨mapping⟩ x hstage ht howes ?_ (StatusPage.isLive_forChip a.chip)
      exact congrArg Attachment.registers hb
    have hafter : Stage.registers ≤ s := Stage.registers_le hbelow
    have hbefore : Stage.registers ≤ a.stage := (Stage.le_iff_le_below hbelow hregisters).mp hafter
    have hsame := hs.registers_holding hagree hbefore hafter
    by_cases hpage : s = .statusPage
    · subst hpage
      have hstage : Stage.ring = a.stage := Option.some.inj hbelow
      have hmarks := acquireStatusPage_marks a h
      rw [hstage, hs.holds] at hmarks
      have hmapped : a.registers = some h.window := hs.registers_eq.trans (if_pos hbefore)
      exact .enables h.window hmapped (hsame.trans hmapped) (hmarks.of_run hrun)
    · refine .plain ((acquireStage_plain a hpage).of_run hrun) hsame ?_
      exact hs.statusPage_holding hagree (Stage.le_iff_le_below hbelow hpage)

theorem refuse_pageMove (hs : Settled past a h) {s : Stage} {e : AttachError}
    (hbelow : s.below = some a.stage) (hrun : (a.acquireStage s).Run t (.ok (.error e, b))) :
    PageMove a t b := by
  cases (hs.acquireStage hbelow).of_run hrun with
  | refused e hclimbed =>
    rw [hs.holds]
    refine .plain ?_ rfl rfl
    by_cases hpage : s = .statusPage
    · subst hpage
      have hstage : Stage.ring = a.stage := Option.some.inj hbelow
      have hmarks := acquireStatusPage_marks a h
      rw [hstage, hs.holds] at hmarks
      exact hmarks.of_run hrun
    · exact (acquireStage_plain a hpage).of_run hrun

theorem leave_pageMove (hs : Settled past a h) {p : Stage} (hbelow : a.stage.below = some p)
    (hrun : (a.releaseStage a.stage).Run t (.ok b)) : PageMove a t { b with stage := p } := by
  obtain ⟨hb, hrequests⟩ := (hs.releaseStage hbelow).of_run hrun
  rw [hb]
  have hbefore : Stage.registers ≤ a.stage := Stage.registers_le hbelow
  have hmapped : a.registers = some h.window := hs.registers_eq.trans (if_pos hbefore)
  by_cases hregisters : a.stage = .registers
  · rw [hregisters] at hbelow hrequests hrun
    cases hbelow
    have hnone : a.statusPage = .forChip a.chip := by
      rw [hs.statusPage_eq, hregisters]
      rfl
    refine .unmaps h.window hmapped rfl hrequests ?_ ?_
    · exact (releaseRegisters_quiet a).of_run hrun
    · rw [hnone, StatusPage.isLive_forChip]
  have hafter : Stage.registers ≤ p := (Stage.le_iff_le_below hbelow hregisters).mp hbefore
  have hsame := hs.registers_holding (.refl h _) hbefore hafter
  by_cases hpage : a.stage = .statusPage
  · rw [hpage] at hbelow hrequests hrun
    cases hbelow
    have hheld : a.statusPage = h.page.statusPage := by
      rw [hs.statusPage_eq, hpage]
      rfl
    have hquiet := releaseStatusPage_quiet (hpage ▸ hs.fits)
    rw [← hpage, hs.holds, hpage] at hquiet
    refine .withdraws h.window hmapped (hsame.trans hmapped) h.page.due ?_ ?_ hrequests
      (hquiet.of_run hrun) ?_ (StatusPage.isLive_forChip a.chip)
    · cases h.page <;> rfl
    · intro mapping hdue
      rw [hheld]
      cases hkind : h.page with
      | host buffer => rw [hkind] at hdue; cases hdue
      | device m => rw [hkind] at hdue; cases hdue; rfl
    · rw [hheld, h.page.isLive_statusPage]
  · refine .plain ((releaseStage_plain a hregisters hpage).of_run hrun) hsame ?_
    exact hs.statusPage_holding (.refl h _) (Stage.le_iff_le_below hbelow hpage).symm

/-- **Every move does one of these things.** -/
theorem pageMove (hs : Settled past a h) (hmove : Move a t b) : PageMove a t b := by
  cases hmove with
  | idle ht => exact .plain (fun e he => Entry.isPlain_of_isIdle (ht e he)) rfl rfl
  | stopRing hrun => exact hs.stopRing_pageMove hrun
  | enter hbelow hrun => exact hs.enter_pageMove hbelow hrun
  | refuse hbelow hrun => exact hs.refuse_pageMove hbelow hrun
  | leave hbelow hrun => exact hs.leave_pageMove hbelow hrun

end Settled

end Attachment

end Igd
