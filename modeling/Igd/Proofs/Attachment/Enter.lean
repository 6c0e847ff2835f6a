/-
Entering a stage acquires what it is for, or nothing.

`Climbed` is what is known of a stretch of bring-up, from a stage `p` with handles `h`
to a stage `q` with handles `h'`: which calls were made, that they are those of the
plan, and that what they obtained is either held at the stages in between or was given
back, the latest first.  It is stated so that two stretches make one, whether the second
succeeds or not; the module after this one puts them together.

This module has the stretches of one stage.  A stage that is entered ends with its
handles filled in.  A stage that is refused ends with the attachment as it was; two of
them give something back on the way, the status page a DMA page at an address that
the register cannot hold, and the display its workqueue.
-/
import Igd.Proofs.Aperture
import Igd.Proofs.Attachment.Leave
import Igd.Proofs.Attachment.Plan
import Igd.Proofs.StatusPage.Courses

namespace Igd

open Program

/-- A stretch of bring-up from stage `p` to stage `q`, along the steps `ss`. -/
structure Climbed (a : Attachment) (h : Handles) (p : Stage) (ss : List Step) (t : List Entry)
    (verdict : Option AttachError) (h' : Handles) (q : Stage) : Prop where
  /-- What was held at the start is held unchanged. -/
  agrees : h'.Agree h p
  fits : a.Fits h' q
  le : p ≤ q
  /-- The calls are those of the plan, up to the first that failed, and after them
  come calls that give back whatever is not held in the end. -/
  calls_eq : ∃ acquired released, calls t = acquired ++ released ∧
    (∀ g : Handles, g.Agree h' q → (a.plan g).Follows ss acquired verdict) ∧
    undo acquired = released.map (·.request) ++ (Stage.descent q p).flatMap h'.dues ∧
    (verdict = none → released = [])
  /-- The aperture is handed on when its stage is entered, and only then. -/
  handed : ∀ x ∈ calls t, ∀ start stop, x.request = .handOver start stop → .aperture ≤ q
  /-- A geometry that is new was read on the way. -/
  found : p < .aperture → .aperture ≤ q → h'.geometry.FoundIn a.chip (exchanges t)

/-- How the attempt to enter stage `s` from the stage `p` below it ends. -/
inductive Acquired (a : Attachment) (h : Handles) (p s : Stage) (t : List Entry) :
    Except AttachError Unit × Attachment → Prop
  /-- The stage is entered, and only has to be recorded. -/
  | entered (h' : Handles) (hclimbed : Climbed a h p s.steps t none h' s) :
      Acquired a h p s t (.ok (), { a.holding h' s with stage := p })
  /-- The stage is refused. -/
  | refused (e : AttachError) (hclimbed : Climbed a h p s.steps t (some e) h p) :
      Acquired a h p s t (.error e, a.holding h p)

namespace Climbed

variable {a : Attachment} {h h' : Handles} {p s : Stage} {ss : List Step} {t : List Entry}

/-- A stage whose calls obtained what is due for it. -/
theorem entered (hp : s.below = some p) (agrees : h'.Agree h p) (fits : a.Fits h' s)
    (follows : ∀ g : Handles, g.Agree h' s → (a.plan g).Follows ss (calls t) none)
    (dues : undo (calls t) = h'.dues s)
    (handed : ∀ x ∈ calls t, ∀ start stop, x.request = .handOver start stop → .aperture ≤ s)
    (found : s = .aperture → h'.geometry.FoundIn a.chip (exchanges t)) :
    Climbed a h p ss t none h' s where
  agrees := agrees
  fits := fits
  le := le_of_lt (Stage.below_lt hp)
  calls_eq := by
    refine ⟨calls t, [], by simp, follows, ?_, fun _ => rfl⟩
    rw [dues, Stage.descent_below hp (Stage.below_lt hp), Stage.descent_self]
    simp
  handed := handed
  found := by
    intro hlow hhigh
    refine found (le_antisymm ?_ hhigh)
    exact not_lt.mp fun hlt => absurd (Stage.le_below hp hlt) (not_le.mpr hlow)

/-- A stage that gave back whatever its calls obtained. -/
theorem refused {e : AttachError} (acquired released : List Exchange) (fits : a.Fits h p)
    (hcalls : calls t = acquired ++ released)
    (follows : ∀ g : Handles, g.Agree h p → (a.plan g).Follows ss acquired (some e))
    (undone : undo acquired = released.map (·.request))
    (handed : ∀ x ∈ calls t, ∀ start stop, x.request = .handOver start stop → .aperture ≤ p) :
    Climbed a h p ss t (some e) h p where
  agrees := .refl h p
  fits := fits
  le := le_refl p
  calls_eq := by
    refine ⟨acquired, released, hcalls, follows, ?_, by simp⟩
    rw [undone, Stage.descent_self]
    simp
  handed := handed
  found := fun hlow hhigh => absurd hhigh (not_le.mpr hlow)

end Climbed

/-! ### The parts of a stage -/

theorem Geometry.FoundIn.append {g : Geometry} {chip : Chip} {xs : List Exchange}
    (h : g.FoundIn chip xs) (ys zs : List Exchange) : g.FoundIn chip (ys ++ xs ++ zs) := by
  obtain ⟨word, table, notice, hinfix, hdecode⟩ := h
  exact ⟨word, table, notice, hinfix.trans (List.infix_append ys xs zs), hdecode⟩

theorem Geometry.find_returns (chip : Chip) :
    (Geometry.find chip).Returns fun t result => ∃ answer,
      calls t = [⟨.readBridge ControlWord.offset, answer⟩] ∧
      match result with
      | .error e => Plan.badWord answer = some (.geometry e)
      | .ok g => Plan.badWord answer = none ∧ g.FoundIn chip (exchanges t) := by
  simp only [find, request_eq_ask, ask_bind, done_bind, returns_ask]
  intro answer
  cases answer with
  | none => simp [Plan.badWord, Request.isCall]
  | some word =>
    simp only [returns_ask]
    intro table
    simp only [decodeLogged, liftM, monadLift, MonadLift.monadLift, decode_eq, ofChecked]
    cases hword : ControlWord.stolenMebibytes word with
    | error e => simp [Plan.badWord, hword, Request.isCall, Except.map]
    | ok mebibytes =>
      simp only [Except.map, returns_bind, returns_done, returns_report, returns_log, pure_eq_done]
      refine ⟨some word, by simp [Request.isCall], by simp [Plan.badWord, hword], ?_⟩
      refine ⟨word, table, _, ?_, by rw [decode_eq, hword]; rfl⟩
      simp

namespace StatusPage

/-- How enabling a page ends. -/
inductive Enabled (plan : Plan) (t : List Entry) :
    Except StatusPageError Unit × StatusPage × Stolen.Allocator → Prop
  /-- A page is held, and giving it back is all that is owed. -/
  | held (page : HeldPage) (hsuits : page.Suits plan.chip plan.geometry.usable)
      (hfollows : plan.Follows [.takePage] (calls t) none) (hundo : undo (calls t) = [page.due]) :
      Enabled plan t (.ok (), page.statusPage, page.stolen plan.geometry.usable)
  /-- No page is held, and what was obtained has been given back. -/
  | refused (e : StatusPageError) (acquired released : List Exchange)
      (hcalls : calls t = acquired ++ released)
      (hfollows : plan.Follows [.takePage] acquired (some (.statusPage e)))
      (hundo : undo acquired = released.map (·.request)) :
      Enabled plan t (.error e, .forChip plan.chip, .ofLength plan.geometry.usable)

variable {plan : Plan} {window : RegisterWindow} {base : PhysAddr} {t : List Entry}
  {result : Except StatusPageError Unit × StatusPage × Stolen.Allocator}

theorem Course.enabled_of_ne_g33 (hchip : plan.chip.generation ≠ .g33)
    (h : Course window (.ofLength plan.geometry.usable) base (.host none) t (.ok result)) :
    Enabled plan t result := by
  have hask := Plan.ask_takePage_of_ne_g33 hchip
  have hnone : forChip plan.chip = .host none := forChip_of_ne_g33 hchip
  cases h with
  | noBuffer =>
    rw [← hnone]
    refine .refused .outOfMemory [⟨.dmaAlloc _ _ _, none⟩] [] ?_ (.refused hask _ rfl) rfl
    simp [Request.isCall]
  | @freed _ b answer hbus =>
    have hbad : Plan.badBuffer (some b) = some (.statusPage .outOfMemory) := by
      simp [Plan.badBuffer, hbus]
    rw [← hnone]
    refine .refused .outOfMemory [⟨.dmaAlloc _ _ _, some b⟩] [⟨.dmaFree b, answer⟩] ?_
      (.refused hask _ hbad) rfl
    simp [Request.isCall]
  | @host _ b value u hbus hwrite =>
    have hcalls : calls u = [] := (window.write_calls _ _).of_run hwrite
    have hgood : Plan.badBuffer (some b) = none := by
      simp [Plan.badBuffer, hbus]
    refine .held (.host b) hchip ?_ ?_
    · simpa [Request.isCall, hcalls] using .answered hask _ hgood .nil
    · simp [Request.isCall, hcalls, undo, Exchange.owes, HeldPage.due]

/-- Nothing was carved before, so the page is the first one, and mapping it is the only
call. -/
theorem Course.enabled_of_g33 (hchip : plan.chip.generation = .g33)
    (h : Course window (.ofLength plan.geometry.usable) plan.resources.apertureBase
      (.device none none) t (.ok result)) : Enabled plan t result := by
  have hnone : forChip plan.chip = .device none none := forChip_of_g33 hchip
  have hask := Plan.ask_takePage_of_room hchip
  -- The address of the first page is the base of the aperture.
  have hfirst {phys : PhysAddr}
      (hphys : phys.toNat = plan.resources.apertureBase.toNat + Stolen.Allocator.firstPage.base) :
      phys = plan.resources.apertureBase := PhysAddr.toNat_inj hphys
  cases h with
  | noBlock block mapping e hcarve =>
    have hroom : ¬ pageSize ≤ plan.geometry.usable := by
      intro hroom
      rw [Stolen.Allocator.allocate_firstPage, if_pos hroom] at hcarve
      cases hcarve
    rw [← hnone]
    exact .refused .outOfMemory [] [] rfl (.withheld (Plan.ask_takePage_of_full hchip hroom)) rfl
  | beyond block mapping hcarve hbase =>
    obtain ⟨-, rfl, -⟩ := carves_ofLength hcarve
    exact absurd hbase (by decide)
  | @unmapped block mapping b a' phys answer hcarve hbase hphys hanswer =>
    obtain ⟨hroom, rfl, -⟩ := carves_ofLength hcarve
    obtain rfl := hfirst hphys
    have hbad : Plan.unmapped (.statusPage .mappingFailed) answer
        = some (.statusPage .mappingFailed) := by
      simp [Plan.unmapped, hanswer]
    rw [← hnone]
    refine .refused .mappingFailed [⟨.map _ _, answer⟩] [] ?_ (.refused (hask hroom) _ hbad) ?_
    · simp [Request.isCall]
    · simp [undo, owes_map, hanswer]
  | @device block mapping b a' phys answer m u hcarve hbase hphys hanswer hwrite =>
    obtain ⟨hroom, rfl, rfl⟩ := carves_ofLength hcarve
    obtain rfl := hfirst hphys
    have hcalls : calls u = [] := (window.write_calls _ _).of_run hwrite
    have hgood : Plan.unmapped (.statusPage .mappingFailed) answer = none := by
      simp [Plan.unmapped, hanswer]
    refine .held (.device m) ⟨hchip, hroom⟩ ?_ ?_
    · simpa [Request.isCall, hcalls] using .answered (hask hroom) _ hgood .nil
    · simp [Request.isCall, hcalls, undo, owes_map, hanswer, HeldPage.due]

/-- Enabling the page of a chip, beside stolen memory that nothing was carved from,
takes the page or nothing. -/
theorem enable_returns (plan : Plan) (window : RegisterWindow) :
    ((forChip plan.chip).enable window (.ofLength plan.geometry.usable)
      plan.resources.apertureBase).Returns (Enabled plan) := by
  refine (enable_ofLength _ window _ _).mono fun t result hcourse => ?_
  by_cases hchip : plan.chip.generation = .g33
  · rw [forChip_of_g33 hchip] at hcourse
    exact hcourse.enabled_of_g33 hchip
  · rw [forChip_of_ne_g33 hchip] at hcourse
    exact hcourse.enabled_of_ne_g33 hchip

end StatusPage

/-! ### The stages -/

namespace Attachment

variable {a : Attachment} {h : Handles}

/-- Below the status page nothing is said of a page, so any handles fit. -/
theorem fits_of_lt {s : Stage} (hs : s < .statusPage) : a.Fits h s :=
  fun hle => absurd hle (not_le.mpr hs)

theorem plan_congr {g : Handles} {s : Stage} (hs : .aperture ≤ s) (hgh : g.Agree h s) :
    a.plan g = a.plan h := by
  rw [plan, plan, hgh.geometry hs]

theorem acquireRegisters_returns :
    ((a.holding h .down).acquireRegisters).Returns (Acquired a h .down .registers) := by
  simp only [acquireRegisters, holding_resources, request_eq_ask, ask_bind, done_bind, returns_ask]
  intro answer
  cases hanswer : StatusPage.usable answer with
  | none =>
    simp only [returns_bind, returns_log, pure_eq_done, returns_done]
    refine .refused _ (.refused [⟨.map _ _, answer⟩] [] (fits_of_lt (by decide)) ?_ ?_ ?_ ?_)
    · simp [Request.isCall]
    · intro g _
      refine .refused rfl answer ?_
      simp [Plan.unmapped, hanswer]
    · simp [undo, owes_map, hanswer]
    · simp [Request.isCall]
  | some mapping =>
    simp only [pure_eq_done, returns_done]
    refine .entered { h with window := ⟨mapping⟩ }
      (.entered rfl (h.agree_window _) (fits_of_lt (by decide)) ?_ ?_ ?_ ?_)
    · intro g _
      simp only [calls_exchange]
      refine .answered rfl answer ?_ .nil
      simp [Plan.unmapped, hanswer]
    · simp [Request.isCall, undo, owes_map, hanswer, Handles.dues]
    · simp [Request.isCall]
    · intro hs
      cases hs

theorem acquireAperture_returns :
    ((a.holding h .registers).acquireAperture).Returns (Acquired a h .registers .aperture) := by
  simp only [acquireAperture, holding_chip]
  refine returns_bind.2 ((Geometry.find_returns a.chip).mono fun t result ht => ?_)
  obtain ⟨answer, hcalls, hresult⟩ := ht
  cases result with
  | error e =>
    simp only [pure_eq_done, returns_done]
    refine .refused _ (.refused [⟨.readBridge _, answer⟩] [] (fits_of_lt (by decide)) ?_ ?_ ?_ ?_)
    · simp [hcalls]
    · intro g _
      exact .refused rfl answer hresult
    · rfl
    · simp [hcalls]
  | ok geometry =>
    obtain ⟨hgood, hfound⟩ := hresult
    simp only [pure_eq_done, request_eq_ask, ask_bind, done_bind, returns_ask, returns_done]
    intro handed
    have hall : calls (t ++ [.exchange
          ⟨.handOver geometry.usable geometry.apertureSize, handed⟩])
        = [⟨.readBridge ControlWord.offset, answer⟩,
            ⟨.handOver geometry.usable geometry.apertureSize, handed⟩] := by
      simp [hcalls, Request.isCall]
    refine .entered { h with geometry } (.entered rfl (h.agree_geometry _)
      (fits_of_lt (by decide)) ?_ ?_ (fun _ _ _ _ _ => le_refl _) ?_)
    · intro g hg
      have hgeometry : g.geometry = geometry := hg.geometry (le_refl _)
      rw [hall, ← hgeometry]
      exact .answered rfl _ hgood (.answered rfl _ rfl .nil)
    · rw [hall]
      rfl
    · intro _
      simpa using hfound.append [] _

theorem acquireStatusPage_returns :
    ((a.holding h .ring).acquireStatusPage).Returns (Acquired a h .ring .statusPage) := by
  have hopen : (a.holding h .ring).acquireStatusPage = (do
      let enabled ← (StatusPage.forChip a.chip).enable h.window (.ofLength h.geometry.usable)
        a.resources.apertureBase
      return (enabled.1.mapError .statusPage, { a.holding h .ring with
        statusPage := enabled.2.1
        stolen := some enabled.2.2 })) := rfl
  rw [hopen]
  refine returns_bind.2 ((StatusPage.enable_returns (a.plan h) h.window).mono fun t result ht => ?_)
  cases ht with
  | held page hsuits hfollows hundo =>
    refine returns_done.2 (.entered { h with page }
      (.entered rfl (h.agree_page _) ?_ ?_ ?_ (fun _ _ _ _ _ => by decide) ?_))
    · exact fun _ => hsuits
    · intro g hg
      rw [plan_congr (by decide) hg, List.append_nil]
      exact hfollows
    · rw [List.append_nil, hundo]
      rfl
    · intro hs
      cases hs
  | refused e acquired released hcalls hfollows hundo =>
    refine returns_done.2 (.refused _ (.refused acquired released (fits_of_lt (by decide)) ?_ ?_
      hundo fun _ _ _ _ _ => by decide))
    · rw [List.append_nil, hcalls]
    · intro g hg
      rw [plan_congr (by decide) hg]
      exact hfollows

/-- Setting up mode setting ends with the modes set, or with the attachment as it was
and nothing to give back. -/
theorem acquireModes_returns (b : Attachment) :
    b.acquireModes.Returns fun t result =>
      ∃ verdict, (∀ plan : Plan, plan.settings = b.settings →
        plan.Follows [.findVideoTables, .setModes, .chooseOutputs] (calls t) verdict) ∧
      match verdict with
      | none => result = (.ok (), { b with modesSet := true }) ∧
          undo (calls t) = [.hook .modesetCleanup]
      | some e => result = (.error e, b) ∧ undo (calls t) = [] := by
  simp only [acquireModes, request_eq_ask, ask_bind, done_bind, returns_ask]
  intro tables
  cases tables with
  | error cause =>
    simp only [returns_bind, returns_log, pure_eq_done, returns_done]
    refine ⟨some .noVideoTables, ?_, rfl, rfl⟩
    intro plan _
    show plan.Follows _ [⟨.hook .biosInit, .error cause⟩] _
    exact .refused rfl _ rfl
  | ok found =>
    simp only [returns_ask]
    intro modes
    cases modes with
    | error cause =>
      simp only [pure_eq_done, returns_done]
      refine ⟨some (.modeset cause), ?_, rfl, rfl⟩
      intro plan _
      show plan.Follows _
        [⟨.hook .biosInit, .ok found⟩, ⟨.hook .modesetInit, .error cause⟩] _
      exact .answered rfl _ rfl (.refused rfl _ rfl)
    | ok set =>
      simp only [pure_eq_done, returns_ask]
      intro chosen
      refine returns_done.2 ⟨none, ?_, rfl, rfl⟩
      intro plan hplan
      show plan.Follows _ [⟨.hook .biosInit, .ok found⟩, ⟨.hook .modesetInit, .ok set⟩,
        ⟨.initialOutputs b.settings.initialOutputsCanGrow, chosen⟩] _
      rw [← hplan]
      exact .answered rfl _ rfl (.answered rfl _ rfl (.answered rfl _ rfl .nil))

theorem releaseDisplay_returns (b : Attachment) (queue : Workqueue) :
    ({ b with modesSet := false, workqueue := some queue } : Attachment).releaseDisplay.Returns
      fun t c => c = { b with modesSet := false, workqueue := none } ∧
        (calls t).map (·.request) = [.destroyWorkqueue queue] := by
  have hidle : releaseHook false .modeset .modesetCleanup = .done () := rfl
  simp only [releaseDisplay, hidle, done_bind]
  refine returns_bind.2 ((releaseWorkqueue_returns queue).mono fun t _ ht => ?_)
  refine returns_done.2 ⟨rfl, ?_⟩
  rw [List.append_nil, ← filter_requests, ht]
  rfl

theorem acquireDisplay_returns (hfits : a.Fits h .statusPage) :
    ((a.holding h .statusPage).acquireDisplay).Returns (Acquired a h .statusPage .display) := by
  simp only [acquireDisplay, holding_settings, request_eq_ask, ask_bind, done_bind, returns_ask]
  intro answer
  cases answer with
  | none =>
    simp only [returns_bind, returns_log, pure_eq_done, returns_done]
    refine .refused _ (.refused [⟨.createWorkqueue _, none⟩] [] hfits rfl ?_ rfl
      fun _ _ _ _ _ => by decide)
    intro g _
    exact .refused rfl _ rfl
  | some queue =>
    refine returns_bind.2 ((acquireModes_returns _).mono fun t result ht => ?_)
    obtain ⟨verdict, hfollows, hresult⟩ := ht
    have hcreate : ∀ g, (a.plan g).Follows Stage.display.steps
        (⟨.createWorkqueue a.settings.workqueueName, some queue⟩ :: calls t) verdict :=
      fun g => .answered rfl _ rfl (hfollows (a.plan g) rfl)
    cases verdict with
    | none =>
      obtain ⟨rfl, hundo⟩ := hresult
      refine returns_done.2 (.entered { h with queue }
        (.entered rfl (h.agree_queue _) ?_ ?_ ?_ (fun _ _ _ _ _ => by decide) ?_))
      · exact fun _ => hfits (le_refl _)
      · intro g _
        simpa [Request.isCall] using hcreate g
      · simp [Request.isCall, undo, hundo, Exchange.owes, Handles.dues]
      · intro hs
        cases hs
    | some e =>
      obtain ⟨rfl, hundo⟩ := hresult
      have hrelease := releaseDisplay_returns (a.holding h .statusPage) queue
      refine returns_bind.2 (hrelease.mono fun u b hu => ?_)
      obtain ⟨rfl, hu⟩ := hu
      refine returns_done.2 (.refused e (.refused
        (⟨.createWorkqueue a.settings.workqueueName, some queue⟩ :: calls t) (calls u) hfits
        ?_ (fun g _ => hcreate g) ?_ fun _ _ _ _ _ => by decide))
      · simp [Request.isCall]
      · rw [undo, hundo, hu]
        rfl

/-- A stage with one hook, as the ring and the interrupt are, either calls it with success or
is not entered.  A hook that fails obtains nothing, so there is nothing to give back. -/
theorem hook_acquired {p s : Stage} (step : Step) (hook : Hook)
    (cause : ServiceError → AttachError) (hp : s.below = some p) (hhigh : .aperture ≤ p)
    (hfits : a.Fits h s) (hsteps : s.steps = [step])
    (hask : ∀ g, (a.plan g).ask step = .ok ⟨.hook hook, Plan.failure cause⟩)
    (hdue : Exchange.owes ⟨.hook hook, .ok ()⟩ = h.dues s)
    (hfree : ∀ e, Exchange.owes ⟨.hook hook, .error e⟩ = [])
    (answer : Except ServiceError Unit) :
    Acquired a h p s [.exchange ⟨.hook hook, answer⟩] (match answer with
      | .error e => (.error (cause e), a.holding h p)
      | .ok () => (.ok (), { a.holding h s with stage := p })) := by
  have hlt : p < s := Stage.below_lt hp
  cases answer with
  | error e =>
    refine .refused _ (.refused [⟨.hook hook, .error e⟩] [] (hfits.mono (le_of_lt hlt)) rfl ?_ ?_
      fun _ _ _ _ _ => hhigh)
    · intro g _
      rw [hsteps]
      exact .refused (hask g) _ rfl
    · simp [undo, hfree]
  | ok done =>
    refine .entered h (.entered hp (.refl h p) hfits ?_ ?_
      (fun _ _ _ _ _ => le_trans hhigh (le_of_lt hlt)) ?_)
    · intro g _
      rw [hsteps]
      exact .answered (hask g) _ rfl .nil
    · simpa [undo, Request.isCall] using hdue
    · intro hs
      rw [hs] at hlt
      exact absurd hlt (not_lt.mpr hhigh)

/-- **Entering a stage** makes the calls of the stage in order, up to the first that
fails.  The stage is held in the end, or the attachment is what it was and whatever
was obtained has been given back. -/
theorem acquireStage_returns {s p : Stage} (hp : s.below = some p) (hfits : a.Fits h p) :
    ((a.holding h p).acquireStage s).Returns (Acquired a h p s) := by
  cases s with
  | down => cases hp
  | registers => cases hp; exact acquireRegisters_returns
  | aperture => cases hp; exact acquireAperture_returns
  | ring =>
    cases hp
    simp only [acquireStage, request_eq_ask, ask_bind, done_bind, returns_ask]
    intro answer
    have hfits : a.Fits h .ring := fits_of_lt (by decide)
    have hacquired := hook_acquired .buildRing .ringInit .ring rfl (le_refl _) hfits rfl
      (fun _ => rfl) rfl (fun _ => rfl) answer
    cases answer <;> exact returns_done.2 hacquired
  | statusPage => cases hp; exact acquireStatusPage_returns
  | display => cases hp; exact acquireDisplay_returns hfits
  | interrupt =>
    cases hp
    simp only [acquireStage, request_eq_ask, ask_bind, done_bind, returns_ask]
    intro answer
    have hfits : a.Fits h .interrupt := fun _ => hfits (by decide)
    have hacquired := hook_acquired .installInterrupt .irqInstall .interrupt rfl (by decide) hfits
      rfl (fun _ => rfl) rfl (fun _ => rfl) answer
    cases answer <;> exact returns_done.2 hacquired

end Attachment

end Igd
