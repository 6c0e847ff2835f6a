/-
What is handed out, compared with the aperture.

When the aperture is found, the stolen memory that can be used is handed over as a range
that ends with the aperture, and the same bytes go to the allocator that a status page is
carved from.  Both numbers come from what was read just before: the amount of stolen
memory from the control word, and the size of the aperture from the same word on legacy
parts, but from a BAR on the 9-series.  Nothing compares the two.

So `handed_out` says what they are, for every hand-over of every run: the range runs
forwards exactly if the amount fits the aperture and its overhead together.  A legacy part
always has it so.  On the 9-series it depends on the BAR, and an empty one is handed on
like any other.  A page of stolen memory is mapped at the base of the aperture, whatever
the aperture's size is.
-/
import Igd.Proofs.Attachment.PageMoves

namespace Igd

open Program

namespace Plan

theorem Follows.ask_of_mem {plan : Plan} {ss : List Step} {xs : List Exchange}
    {verdict : Option AttachError} (h : plan.Follows ss xs verdict) {x : Exchange}
    (hx : x ∈ xs) : ∃ s ∈ ss, ∃ q, plan.ask s = .ok q ∧ q.request = x.request := by
  induction h with
  | nil => cases hx
  | withheld => cases hx
  | refused hask answer =>
    obtain rfl := List.mem_singleton.mp hx
    exact ⟨_, by simp, _, hask, rfl⟩
  | answered hask answer _ _ ih =>
    rcases List.mem_cons.mp hx with rfl | hx
    · exact ⟨_, by simp, _, hask, rfl⟩
    · obtain ⟨s, hs, hasked⟩ := ih hx
      exact ⟨s, by simp [hs], hasked⟩

theorem Follows.mem_of_ask {plan : Plan} {ss : List Step} {xs : List Exchange}
    (h : plan.Follows ss xs none) {s : Step} (hs : s ∈ ss) {q : Query}
    (hq : plan.ask s = .ok q) : ∃ x ∈ xs, x.request = q.request := by
  generalize hnone : (none : Option AttachError) = verdict at h
  induction h with
  | nil => cases hs
  | withheld => cases hnone
  | refused => cases hnone
  | answered hask answer _ _ ih =>
    rcases List.mem_cons.mp hs with rfl | hs
    · rw [hask] at hq
      cases hq
      exact ⟨_, List.mem_cons_self, rfl⟩
    · obtain ⟨x, hx, hrequest⟩ := ih hs hnone
      exact ⟨x, by simp [hx], hrequest⟩

/-- Only one step hands the aperture over, and it does so with the geometry of the plan.  So
what is handed over is known without following a run. -/
theorem ask_handOver {plan : Plan} {s : Step} {q : Query} {start stop : Nat}
    (hask : plan.ask s = .ok q) (hq : q.request = .handOver start stop) :
    s = .handOver ∧ start = plan.geometry.usable ∧ stop = plan.geometry.apertureSize := by
  cases s with
  | handOver =>
    cases hask
    cases hq
    exact ⟨rfl, rfl, rfl⟩
  | takePage => cases takesPage_of_ask hask <;> cases hq
  | _ => cases hask; cases hq

end Plan

theorem mem_calls_of_mem_requests {t : List Entry} {r : Request} (h : r ∈ requests t)
    (hcall : r.isCall) : ∃ x ∈ calls t, x.request = r := by
  have hfilter : r ∈ (requests t).filter Request.isCall := List.mem_filter.mpr ⟨h, hcall⟩
  rw [filter_requests] at hfilter
  exact List.mem_map.mp hfilter

/-- What a stretch of bring-up hands over is the geometry it ends with. -/
theorem Climbed.handOver_eq {a : Attachment} {h h' : Handles} {p q : Stage} {ss : List Step}
    {t : List Entry} {verdict : Option AttachError} (hclimbed : Climbed a h p ss t verdict h' q)
    {start stop : Nat} (hhanded : .handOver start stop ∈ requests t) :
    .handOver ∈ ss ∧ .aperture ≤ q ∧
      start = h'.geometry.usable ∧ stop = h'.geometry.apertureSize := by
  obtain ⟨x, hcall, hrequest⟩ := mem_calls_of_mem_requests hhanded rfl
  have hstage := hclimbed.handed x hcall start stop hrequest
  obtain ⟨acquired, released, hcalls, hfollows, hundo, -⟩ := hclimbed.calls_eq
  rw [hcalls] at hcall
  rcases List.mem_append.mp hcall with hacquired | hreleased
  · obtain ⟨s, hs, query, hask, hquery⟩ := (hfollows h' (.refl h' q)).ask_of_mem hacquired
    obtain ⟨rfl, hstart, hstop⟩ := Plan.ask_handOver hask (hquery.trans hrequest)
    exact ⟨hs, hstage, hstart, hstop⟩
  · -- What is given back was obtained before, and a hand-over gives nothing back.
    have hdue : Request.handOver start stop ∈ undo acquired := by
      rw [hundo, ← hrequest]
      exact List.mem_append_left _ (List.mem_map_of_mem hreleased)
    exact absurd (isRelease_of_mem_undo hdue) (by simp [Request.isRelease])

theorem eq_of_owes_map {phys : PhysAddr} {length : Nat} {answer : Option IoMapping}
    {mapping : IoMapping} (h : Exchange.owes ⟨.map phys length, answer⟩ = [.unmap mapping]) :
    answer = some mapping := by
  cases answer with
  | none => cases h
  | some found =>
    cases hnull : found.virt.isNull with
    | false => simpa [Exchange.owes, hnull] using h
    | true => simp [Exchange.owes, hnull] at h

theorem Stage.eq_aperture_of_handOver {s : Stage} (h : .handOver ∈ s.steps) : s = .aperture := by
  cases s <;> simp_all [Stage.steps]

theorem Geometry.FoundIn.eq {g : Geometry} {chip : Chip} {xs : List Exchange}
    (h : g.FoundIn chip xs) : ∃ word table mebibytes,
      [⟨.readBridge ControlWord.offset, some word⟩, ⟨.bars, table⟩] <:+: xs ∧
      ControlWord.stolenMebibytes word = .ok mebibytes ∧
      g.apertureSize = apertureSizeOf chip word (table.bar apertureBar).length ∧
      g.stolenSize = remainder mebibytes g.apertureSize := by
  obtain ⟨word, table, notice, hinfix, hdecode⟩ := h
  obtain ⟨mebibytes, hword, hsize, hleft⟩ := decode_eq_ok hdecode
  exact ⟨word, table, mebibytes, hinfix, hword, hsize, hleft⟩

namespace Attachment

/-- What has been handed out, and what is known of it. -/
structure HandsOut (past : List Entry) (a : Attachment) : Prop where
  /-- Every hand-over is of a geometry that was read. -/
  read : ∀ start stop, .handOver start stop ∈ requests past → ∃ g : Geometry,
    g.FoundIn a.chip (exchanges past) ∧ start = g.usable ∧ stop = g.apertureSize
  /-- The geometry that is held was handed over. -/
  handed : ∀ g, a.geometry = some g → .handOver g.usable g.apertureSize ∈ requests past
  /-- A page of stolen memory is mapped at the base of the aperture. -/
  mapped : ∀ block mapping, a.statusPage = .device block (some mapping) →
    ⟨.map a.resources.apertureBase pageSize, some mapping⟩ ∈ exchanges past

namespace Settled

variable {past t : List Entry} {a b : Attachment} {h : Handles}

theorem same_device (hs : Settled past a h) (hmove : Move a t b) :
    b.chip = a.chip ∧ b.resources = a.resources := by
  cases hs.changed hmove <;> exact ⟨rfl, rfl⟩

/-- Whatever a move hands over was read in that move. -/
theorem handOver_move (hs : Settled past a h) (hmove : Move a t b) {start stop : Nat}
    (hhanded : .handOver start stop ∈ requests t) : ∃ g : Geometry,
      g.FoundIn a.chip (exchanges t) ∧ start = g.usable ∧ stop = g.apertureSize := by
  cases hmove with
  | idle ht =>
    obtain ⟨x, hx, hrequest⟩ := List.mem_map.mp hhanded
    have hread : x.request.isRead := ht _ (mem_exchanges.mp hx)
    rw [hrequest] at hread
    cases hread
  | stopRing hrun =>
    obtain ⟨x, hx, -⟩ := mem_calls_of_mem_requests hhanded rfl
    rw [hs.stopRing_calls hrun] at hx
    cases hx
  | @enter _ s hbelow hrun =>
    cases (hs.acquireStage hbelow).of_run hrun with
    | entered h' hclimbed =>
      obtain ⟨hstep, hstage, hstart, hstop⟩ := hclimbed.handOver_eq hhanded
      obtain rfl := Stage.eq_aperture_of_handOver hstep
      exact ⟨h'.geometry, hclimbed.found (Stage.below_lt hbelow) hstage, hstart, hstop⟩
  | @refuse _ s _ hbelow hrun =>
    cases (hs.acquireStage hbelow).of_run hrun with
    | refused e hclimbed =>
      obtain ⟨hstep, hstage, -⟩ := hclimbed.handOver_eq hhanded
      obtain rfl := Stage.eq_aperture_of_handOver hstep
      exact absurd (Stage.below_lt hbelow) (not_lt.mpr hstage)
  | leave hbelow hrun =>
    obtain ⟨-, hrequests⟩ := (hs.releaseStage hbelow).of_run hrun
    rw [hrequests] at hhanded
    have hdue := List.mem_filter.mpr ⟨hhanded, (rfl : (Request.handOver start stop).isCall = true)⟩
    rw [h.filter_farewell] at hdue
    exact absurd (Handles.isRelease_of_mem_dues hdue) (by simp [Request.isRelease])

/-- A geometry that is held at a stage above which the aperture was held before is the one
that was held. -/
theorem geometry_holding (hs : Settled past a h) {h' : Handles} {s : Stage} {g : Geometry}
    (hagree : h'.Agree h a.stage) (hle : .aperture ≤ s → .aperture ≤ a.stage)
    (hg : (a.holding h' s).geometry = some g) : a.geometry = some g := by
  have hg : (if Stage.aperture ≤ s then some h'.geometry else none) = some g := hg
  split at hg
  · rename_i haperture
    rw [← hs.holds, ← hg, hagree.geometry (hle haperture)]
    exact if_pos (hle haperture)
  · cases hg

theorem page_holding (hs : Settled past a h) {h' : Handles} {s : Stage}
    (hagree : h'.Agree h a.stage) (hle : .statusPage ≤ s → .statusPage ≤ a.stage)
    (hlive : (a.holding h' s).statusPage.isLive) :
    (a.holding h' s).statusPage = a.statusPage := by
  by_cases hpage : Stage.statusPage ≤ s
  · exact hs.statusPage_holding hagree ⟨hle, fun _ => hpage⟩
  · have hnone : (a.holding h' s).statusPage = .forChip a.chip := if_neg hpage
    rw [hnone, StatusPage.isLive_forChip] at hlive
    cases hlive

/-- A geometry that is held after a move was held before it, or read and handed over in it. -/
theorem geometry_move (hs : Settled past a h) (hmove : Move a t b) {g : Geometry}
    (hg : b.geometry = some g) :
    a.geometry = some g ∨
      g.FoundIn a.chip (exchanges t) ∧ .handOver g.usable g.apertureSize ∈ requests t := by
  cases hs.changed hmove with
  | kept => exact .inl hg
  | @entered h' s hbelow hclimbed =>
    by_cases hstage : s = .aperture
    · subst hstage
      obtain rfl : h'.geometry = g := Option.some.inj hg
      obtain ⟨x, hx, hrequest⟩ := hclimbed.complete.1.mem_of_ask
        (List.mem_cons_of_mem _ List.mem_cons_self) rfl
      refine .inr ⟨hclimbed.found (Stage.below_lt hbelow) (le_refl _), ?_⟩
      exact List.mem_map.mpr ⟨x, List.mem_of_mem_filter hx, hrequest⟩
    · exact .inl (hs.geometry_holding hclimbed.agrees (Stage.le_iff_le_below hbelow hstage).mp hg)
  | left hbelow =>
    have hdown := le_of_lt (Stage.below_lt hbelow)
    exact .inl (hs.geometry_holding (.refl h _) (fun hle => le_trans hle hdown) hg)

theorem mapped_enter {h' : Handles} {mapping : IoMapping}
    (hclimbed : Climbed a h a.stage Stage.statusPage.steps t none h' .statusPage)
    (hbelow : Stage.statusPage.below = some a.stage) (hpage : h'.page = .device mapping) :
    ⟨.map a.resources.apertureBase pageSize, some mapping⟩ ∈ exchanges t := by
  have hsuits := hclimbed.fits (le_refl _)
  rw [hpage] at hsuits
  obtain ⟨hchip, hroom⟩ := hsuits
  obtain ⟨hfollows, hundo⟩ := hclimbed.complete
  have hask : (a.plan h').ask .takePage = _ := Plan.ask_takePage_of_room hchip hroom
  have hdues : (Stage.descent .statusPage a.stage).flatMap h'.dues = [.unmap mapping] := by
    rw [Stage.descent_below hbelow (Stage.below_lt hbelow), Stage.descent_self]
    simp [Handles.dues, hpage, HeldPage.due]
  rw [hdues] at hundo
  have hsub : ∀ x ∈ calls t, x ∈ exchanges t := fun x hx => List.mem_of_mem_filter hx
  generalize calls t = xs at hfollows hundo hsub
  cases hfollows with
  | answered hasked answer hgood hrest =>
    rw [hask] at hasked
    cases hasked
    cases hrest
    have hanswer : answer = some mapping := eq_of_owes_map (by simpa [undo] using hundo)
    rw [← hanswer]
    exact hsub _ List.mem_cons_self

/-- A page of stolen memory that is held after a move was held before it, or mapped in it at
the base of the aperture. -/
theorem mapped_move (hs : Settled past a h) (hmove : Move a t b) {block : Option Stolen.Block}
    {mapping : IoMapping} (hpage : b.statusPage = .device block (some mapping)) :
    a.statusPage = .device block (some mapping) ∨
      ⟨.map a.resources.apertureBase pageSize, some mapping⟩ ∈ exchanges t := by
  have hlive : b.statusPage.isLive := by rw [hpage]; rfl
  cases hs.changed hmove with
  | kept => exact .inl hpage
  | @entered h' s hbelow hclimbed =>
    by_cases hstage : s = .statusPage
    · subst hstage
      refine .inr (mapped_enter hclimbed hbelow ?_)
      have hpage : h'.page.statusPage = .device block (some mapping) := hpage
      cases hkind : h'.page with
      | host buffer => rw [hkind] at hpage; cases hpage
      | device m => rw [hkind] at hpage; cases hpage; rfl
    · refine .inl (Eq.trans ?_ hpage)
      exact (hs.page_holding hclimbed.agrees (Stage.le_iff_le_below hbelow hstage).mp hlive).symm
  | left hbelow =>
    have hdown := le_of_lt (Stage.below_lt hbelow)
    refine .inl (Eq.trans ?_ hpage)
    exact (hs.page_holding (.refl h _) (fun hle => le_trans hle hdown) hlive).symm

end Settled

theorem HandsOut.move {past t : List Entry} {a b : Attachment} {h : Handles}
    (hout : HandsOut past a) (hs : Settled past a h) (hmove : Move a t b) :
    HandsOut (past ++ t) b := by
  obtain ⟨hchip, hresources⟩ := hs.same_device hmove
  refine ⟨fun start stop hhanded => ?_, fun g hg => ?_, fun block mapping hpage => ?_⟩
  · rw [hchip, exchanges_append]
    rw [requests_append] at hhanded
    rcases List.mem_append.mp hhanded with hhanded | hhanded
    · obtain ⟨g, hfound, hsizes⟩ := hout.read start stop hhanded
      exact ⟨g, by simpa using hfound.append [] (exchanges t), hsizes⟩
    · obtain ⟨g, hfound, hsizes⟩ := hs.handOver_move hmove hhanded
      exact ⟨g, by simpa using hfound.append (exchanges past) [], hsizes⟩
  · rw [requests_append]
    rcases hs.geometry_move hmove hg with hg | ⟨-, hhanded⟩
    · exact List.mem_append_left _ (hout.handed g hg)
    · exact List.mem_append_right _ hhanded
  · rw [hresources, exchanges_append]
    rcases hs.mapped_move hmove hpage with hpage | hmapped
    · exact List.mem_append_left _ (hout.mapped block mapping hpage)
    · exact List.mem_append_right _ hmapped

theorem Passes.handsOut {past : List Entry} {a : Attachment} (hpasses : Passes past a) :
    HandsOut past a := by
  induction hpasses with
  | fresh chip settings resources base =>
    refine ⟨by simp, fun g hg => (nomatch hg), fun block mapping hpage => ?_⟩
    have hlive : (StatusPage.forChip chip).isLive := by
      have hpage : StatusPage.forChip chip = .device block (some mapping) := hpage
      rw [hpage]
      rfl
    rw [StatusPage.isLive_forChip] at hlive
    cases hlive
  | move hpasses hmove ih =>
    obtain ⟨h, hs⟩ := hpasses.settled
    exact ih.move hs hmove

/-- **Everything that is handed out is what was read, whether it fits the aperture or not.**
Each range that is handed over starts at the stolen memory left beside the overhead and ends
with the aperture.  It runs forwards exactly if the amount of stolen memory is not above the
aperture and the overhead together, and that is always so on legacy parts.  The geometry
that is held was handed over so, and a page of stolen memory is mapped at the base of the
aperture. -/
theorem Passes.handed_out {past : List Entry} {a : Attachment} (hpasses : Passes past a) :
    (∀ start stop, .handOver start stop ∈ requests past → ∃ word table mebibytes,
      [⟨.readBridge ControlWord.offset, some word⟩, ⟨.bars, table⟩] <:+: exchanges past ∧
      ControlWord.stolenMebibytes word = .ok mebibytes ∧
      stop = Geometry.apertureSizeOf a.chip word (table.bar Geometry.apertureBar).length ∧
      start = (Geometry.remainder mebibytes stop).toNat ∧
      (start ≤ stop ↔
        mebibytes * mebibyte ≤ stop + (stop / 1024 + Geometry.popupSize)) ∧
      (a.chip.generation = .legacy → start ≤ stop)) ∧
    (∀ g, a.geometry = some g → .handOver g.usable g.apertureSize ∈ requests past) ∧
    ∀ block mapping, a.statusPage = .device block (some mapping) →
      ⟨.map a.resources.apertureBase pageSize, some mapping⟩ ∈ exchanges past := by
  obtain ⟨hread, hhanded, hmapped⟩ := hpasses.handsOut
  refine ⟨fun start stop hover => ?_, hhanded, hmapped⟩
  obtain ⟨g, hfound, rfl, rfl⟩ := hread start stop hover
  obtain ⟨word, table, mebibytes, hinfix, hword, hsize, hleft⟩ := hfound.eq
  have husable : g.usable = (Geometry.remainder mebibytes g.apertureSize).toNat := by
    rw [Geometry.usable, hleft]
  have hiff := Geometry.remainder_le_iff mebibytes g.apertureSize
  rw [← husable] at hiff
  refine ⟨word, table, mebibytes, hinfix, hword, hsize, husable, hiff, fun hlegacy => ?_⟩
  have hfits : mebibytes * mebibyte ≤ g.apertureSize := by
    rw [hsize]
    exact Geometry.mebibytes_le_of_legacy hlegacy hword
  exact hiff.mpr (Nat.le_trans hfits (Nat.le_add_right _ _))

/-- A G33 whose aperture BAR is empty comes up with 64 mebibytes of stolen memory.  A range
that ends before it starts is handed over, and the page is mapped at the base of an aperture
that has no bytes. -/
theorem handed_out_g33 :
    ∃ past a mapping, Passes past a ∧ a.stage = .interrupt ∧
      a.geometry = some ⟨0, 67104768⟩ ∧ Request.handOver 67104768 0 ∈ requests past ∧
      a.statusPage = .device (some ⟨0, pageSize⟩) (some mapping) ∧
      ⟨.map a.resources.apertureBase pageSize, some mapping⟩ ∈ exchanges past := by
  have hfresh := Reaches.fresh (.entry 0x29c2 "G33" .g33 [.i9xx, .g33]) .standard
    ⟨0, ⟨0xfeb00000⟩, 0x80000, ⟨0xd0000000⟩, ⟨0xd0000000⟩⟩
  have hup := hfresh.play .bringUp
    (willing ⟨[⟨⟨0xfeb00000⟩, 0x80000⟩, .unassigned, ⟨⟨0xd0000000⟩, 0⟩]⟩ 0x70 0) () rfl
  have hpasses := hup.arises.passes
  obtain ⟨-, hhanded, hmapped⟩ := hpasses.handed_out
  have hgeometry := hhanded ⟨0, 67104768⟩ (by decide +kernel)
  exact ⟨_, _, _, hpasses, rfl, by decide +kernel, hgeometry, rfl, hmapped _ _ rfl⟩

end Attachment

end Igd
