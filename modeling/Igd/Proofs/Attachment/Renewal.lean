/-
Going down and coming up again.

A device that is operational may go down to any floor and be brought up from there.  Nothing
below the floor is touched, and above it the same calls are made as the first time, so what
comes back is up to the platform: `Exchange.grants` says that an answer is what was asked for,
and that the control word and the BARs read as given.

If everything is granted, no step of the plan fails.  The geometry is then the one that was
held before, as the control word and the BARs say it (`Climbed.geometry_of_grants`): below the
floor nothing reads it again, and above the floor it is read from the same numbers.  Which kind
of page there is depends on the chip alone, so stolen memory is carved as it was, from an
allocator that was kept or from one that is made anew.  Only the handles that the platform
gives out can be others.
-/
import Igd.Proofs.Attachment.HandOver
import Igd.Proofs.StatusPage.LettingGo

namespace Igd

open Program

/-! ### The geometry that a control word and BARs say -/

namespace Geometry

/-- The control word and the BARs say this geometry. -/
def SaidBy (g : Geometry) (chip : Chip) (word : UInt16) (table : BarTable) : Prop :=
  ∃ notice, decode chip word (table.bar apertureBar).length = .ok (.ok g, notice)

variable {g g' : Geometry} {chip : Chip} {word : UInt16} {table : BarTable}

theorem SaidBy.unique (h : g.SaidBy chip word table) (h' : g'.SaidBy chip word table) :
    g = g' := by
  obtain ⟨notice, h⟩ := h
  obtain ⟨notice', h'⟩ := h'
  rw [h] at h'
  cases h'
  rfl

theorem SaidBy.badWord (h : g.SaidBy chip word table) : Plan.badWord (some word) = none := by
  obtain ⟨notice, h⟩ := h
  obtain ⟨mebibytes, hword, -⟩ := decode_eq_ok h
  simp [Plan.badWord, hword]

end Geometry

/-! ### Answers that grant a request -/

/-- The answer is what was asked for: a mapping somewhere, a buffer within the limit, a
workqueue, a hook that did its work.  What gives something back may be refused.  The control
word and the BARs read as given. -/
def Exchange.grants (word : UInt16) (table : BarTable) : Exchange → Bool
  | ⟨.readBridge _, answer⟩ => answer == some word
  | ⟨.bars, answer⟩ => answer == table
  | ⟨.map _ _, answer⟩ => answer.any fun mapping => !mapping.virt.isNull
  | ⟨.dmaAlloc _ _ limit, answer⟩ => answer.any fun buffer => buffer.bus.toNat ≤ limit
  | ⟨.createWorkqueue _, answer⟩ => answer.isSome
  | ⟨.hook which, answer⟩ => (Request.hook which).isRelease || answer.isOk
  | _ => true

theorem Geometry.FoundIn.saidBy {g : Geometry} {chip : Chip} {xs : List Exchange} {word : UInt16}
    {table : BarTable} (h : g.FoundIn chip xs) (hgrants : ∀ x ∈ xs, x.grants word table) :
    g.SaidBy chip word table := by
  obtain ⟨word', table', notice, hread, hdecode⟩ := h
  have hword := hgrants _ (hread.subset List.mem_cons_self)
  have htable := hgrants _ (hread.subset (List.mem_cons_of_mem _ List.mem_cons_self))
  obtain rfl : word' = word := by simpa [Exchange.grants] using hword
  obtain rfl : table' = table := by simpa [Exchange.grants] using htable
  exact ⟨notice, hdecode⟩

namespace Plan

variable {plan : Plan} {word : UInt16} {table : BarTable}

theorem unmapped_of_any {cause : AttachError} {answer : Option IoMapping}
    (h : answer.any fun mapping => !mapping.virt.isNull) : unmapped cause answer = none := by
  cases answer with
  | none => cases h
  | some mapping =>
    have hnull : mapping.virt.isNull = false := by simpa using h
    simp [unmapped, StatusPage.usable, hnull]

theorem badBuffer_of_any {answer : Option DmaBuffer}
    (h : answer.any fun buffer => buffer.bus.toNat ≤ StatusPage.busLimit) :
    badBuffer answer = none := by
  cases answer with
  | none => cases h
  | some buffer =>
    have hlow : buffer.bus.toNat < registerCount := by
      have hle : buffer.bus.toNat ≤ StatusPage.busLimit := by simpa using h
      simp only [StatusPage.busLimit] at hle
      simp only [registerCount]
      omega
    simp [badBuffer, PhysAddr.register?, hlow]

theorem failure_of_isOk {cause : ServiceError → AttachError} {answer : Except ServiceError Unit}
    (h : answer.isOk) : failure cause answer = none := by
  cases answer with
  | error e => cases h
  | ok => rfl

theorem refusal_of_grants (hword : badWord (some word) = none) {s : Step} {r : Request}
    {refusal : r.Answer → Option AttachError} (hask : plan.ask s = .ok ⟨r, refusal⟩)
    {answer : r.Answer} (hgrants : Exchange.grants word table ⟨r, answer⟩) :
    refusal answer = none := by
  cases s with
  | readStolenBase | handOver | chooseOutputs => cases hask; rfl
  | mapRegisters => cases hask; exact unmapped_of_any hgrants
  | readControlWord =>
    cases hask
    obtain rfl : answer = some word := by simpa [Exchange.grants] using hgrants
    exact hword
  | takePage =>
    cases takesPage_of_ask hask with
    | host => exact badBuffer_of_any hgrants
    | device => exact unmapped_of_any hgrants
  | createWorkqueue => cases hask; exact if_pos hgrants
  | buildRing | findVideoTables | setModes | installInterrupt =>
    cases hask
    exact failure_of_isOk hgrants

/-- A step is withheld only where stolen memory has no room for the page. -/
theorem room_of_withheld {s : Step} {e : AttachError} (hask : plan.ask s = .error e) :
    plan.chip.generation = .g33 ∧ ¬ pageSize ≤ plan.geometry.usable := by
  cases s with
  | takePage =>
    cases takesPage_of_ask hask with
    | full hchip hfull => exact ⟨hchip, hfull⟩
  | _ => cases hask

/-- **Where everything is granted, no step fails**, if stolen memory has room for the page. -/
theorem Follows.verdict_of_grants {ss : List Step} {xs : List Exchange}
    {verdict : Option AttachError} (h : plan.Follows ss xs verdict)
    (hword : badWord (some word) = none)
    (hroom : plan.chip.generation = .g33 → pageSize ≤ plan.geometry.usable)
    (hgrants : ∀ x ∈ xs, x.grants word table) : verdict = none := by
  induction h with
  | nil => rfl
  | withheld hask =>
    obtain ⟨hchip, hfull⟩ := room_of_withheld hask
    exact absurd (hroom hchip) hfull
  | refused hask answer he =>
    rw [refusal_of_grants hword hask (hgrants _ List.mem_cons_self)] at he
    cases he
  | answered _ _ _ _ ih => exact ih fun x hx => hgrants x (List.mem_cons_of_mem _ hx)

end Plan

namespace Climbed

variable {a : Attachment} {h h' : Handles} {p q : Stage} {ss : List Step} {t : List Entry}
  {verdict : Option AttachError} {word : UInt16} {table : BarTable}

theorem geometry_of_grants (hclimbed : Climbed a h p ss t verdict h' q)
    (hsaid : h.geometry.SaidBy a.chip word table)
    (hgrants : ∀ x ∈ exchanges t, x.grants word table) (hq : .aperture ≤ q) :
    h'.geometry = h.geometry := by
  rcases le_or_gt .aperture p with hp | hp
  · exact hclimbed.agrees.geometry hp
  · exact ((hclimbed.found hp hq).saidBy hgrants).unique hsaid

theorem verdict_of_grants (hclimbed : Climbed a h p ss t verdict h' q)
    (hsaid : h.geometry.SaidBy a.chip word table)
    (hroom : a.chip.generation = .g33 → pageSize ≤ h.geometry.usable)
    (hgrants : ∀ x ∈ exchanges t, x.grants word table) : verdict = none := by
  obtain ⟨acquired, released, hcalls, hfollows, -⟩ := hclimbed.calls_eq
  -- A stretch that ends before the aperture shows no geometry, so the old one does.
  have hagree : ({ h' with geometry := h.geometry } : Handles).Agree h' q :=
    ⟨fun _ => rfl, fun hq => (hclimbed.geometry_of_grants hsaid hgrants hq).symm,
      fun _ => rfl, fun _ => rfl⟩
  have hacquired : ∀ x ∈ acquired, x.grants word table := by
    intro x hx
    have hcall : x ∈ calls t := by
      rw [hcalls]
      exact List.mem_append_left _ hx
    exact hgrants x (List.mem_of_mem_filter hcall)
  exact (hfollows _ hagree).verdict_of_grants hsaid.badWord hroom hacquired

end Climbed

/-! ### Pages of one chip -/

/-- Two pages that a chip may have are of one kind, on the same block of stolen memory, and
leave the same of it.  So the page that comes back may differ only in its mapping or its
buffer. -/
theorem HeldPage.Suits.alike {page page' : HeldPage} {chip : Chip} {m n : Nat}
    (h : page.Suits chip m) (h' : page'.Suits chip n) :
    page'.statusPage.idle = page.statusPage.idle ∧
      page'.statusPage.block? = page.statusPage.block? ∧
      ∀ usable, page'.stolen usable = page.stolen usable := by
  cases page with
  | host buffer =>
    cases page' with
    | host buffer' => exact ⟨rfl, rfl, fun _ => rfl⟩
    | device mapping' => exact absurd h'.1 h
  | device mapping =>
    cases page' with
    | host buffer' => exact absurd h.1 h'
    | device mapping' => exact ⟨rfl, rfl, fun _ => rfl⟩

theorem HeldPage.Suits.room {page : HeldPage} {chip : Chip} {n : Nat} (h : page.Suits chip n)
    (hchip : chip.generation = .g33) : pageSize ≤ n := by
  cases page with
  | host buffer => exact absurd hchip h
  | device mapping => exact h.2

namespace Attachment

/-- The geometry that is held was read from a control word and the BARs, next to each other. -/
theorem Passes.geometry_foundIn {past : List Entry} {a : Attachment} (hpasses : Passes past a)
    {g : Geometry} (hg : a.geometry = some g) : g.FoundIn a.chip (exchanges past) := by
  induction hpasses with
  | fresh => cases hg
  | @move past t a b hpasses hmove ih =>
    obtain ⟨h, hs⟩ := hpasses.settled
    rw [(hs.same_device hmove).1, exchanges_append]
    rcases hs.geometry_move hmove hg with hg | ⟨hfound, -⟩
    · simpa using (ih hg).append [] (exchanges t)
    · simpa using hfound.append (exchanges past) []

/-- What a bring-up came to, of `a` after it went down to the floor: all that `a` was, some of
it under other handles. -/
structure Renewed (a : Attachment) (floor : Stage) (v : List Entry)
    (result : Except AttachError Unit × Attachment) : Prop where
  succeeds : result.1 = .ok ()
  operational : result.2.isOperational
  /-- Beside three handles every field is as it was. -/
  same : result.2 = { a with
    registers := result.2.registers
    statusPage := result.2.statusPage
    workqueue := result.2.workqueue }
  registers : .registers ≤ floor → result.2.registers = a.registers
  statusPage : .statusPage ≤ floor → result.2.statusPage = a.statusPage
  workqueue : .display ≤ floor → result.2.workqueue = a.workqueue
  /-- The page is in the same kind of memory, and in stolen memory it is the same block. -/
  alike : result.2.statusPage.idle = a.statusPage.idle ∧
    result.2.statusPage.block? = a.statusPage.block?
  /-- The calls are those that the stages above the floor are entered with, in order. -/
  calls_eq : ∀ g, a.geometry = some g →
    (⟨a.chip, a.settings, a.resources, g⟩ : Plan).Follows
      ((Stage.above floor).flatMap Stage.steps) (calls v) none
  /-- What they obtained is what is held above the floor. -/
  obtained : ∃ h, result.2 = a.holding h .interrupt ∧
    undo (calls v) = (Stage.descent .interrupt floor).flatMap h.dues

/-- A climb to the top from a floor, with everything granted, renews what was above it. -/
theorem Settled.renewed {past t v : List Entry} {a : Attachment} {h h' : Handles} {floor : Stage}
    {word : UInt16} {table : BarTable} (hs : Settled past a h) (htop : a.stage = .interrupt)
    (hclimbed : Climbed a h floor ((Stage.above floor).flatMap Stage.steps) t none h' .interrupt)
    (hsaid : h.geometry.SaidBy a.chip word table)
    (hgrants : ∀ x ∈ exchanges t, x.grants word table) (hquiet : exchanges v = []) :
    a.Renewed floor (t ++ v) (.ok (), a.holding h' .interrupt) := by
  have hholds : a.holding h .interrupt = a := htop ▸ hs.holds
  have hfits : h.page.Suits a.chip h.geometry.usable := hs.fits (htop ▸ by decide)
  obtain ⟨hkind, hblock, hstolen⟩ := hfits.alike (hclimbed.fits (by decide))
  have hgeometry := hclimbed.geometry_of_grants hsaid hgrants (by decide)
  have hagrees := hclimbed.agrees
  obtain ⟨hfollows, hundo⟩ := hclimbed.complete
  have hcalls : calls (t ++ v) = calls t := by simp [calls, hquiet]
  -- What `a` holds is read off the handles that it holds.
  have hregisters : some h.window = a.registers := congrArg registers hholds
  have hpage : h.page.statusPage = a.statusPage := congrArg statusPage hholds
  have hqueue : some h.queue = a.workqueue := congrArg workqueue hholds
  have hheld : some h.geometry = a.geometry := congrArg geometry hholds
  exact {
    succeeds := rfl
    operational := rfl
    same := by
      show a.holding h' .interrupt = { a with
        registers := some h'.window
        statusPage := h'.page.statusPage
        workqueue := some h'.queue }
      calc a.holding h' .interrupt
        _ = { a.holding h .interrupt with
              registers := some h'.window
              statusPage := h'.page.statusPage
              workqueue := some h'.queue } := by
          simp [holding, hgeometry, hstolen, Stage.le_interrupt]
        _ = _ := by rw [hholds]
    registers := fun hle => by
      rw [← hregisters, ← hagrees.window hle]
      rfl
    statusPage := fun hle => by
      rw [← hpage, ← hagrees.page hle]
      rfl
    workqueue := fun hle => by
      rw [← hqueue, ← hagrees.queue hle]
      rfl
    alike := by
      rw [← hpage]
      exact ⟨hkind, hblock⟩
    calls_eq := fun g hg => by
      obtain rfl : h.geometry = g := Option.some.inj (hheld.trans hg)
      rw [hcalls, ← hgeometry]
      exact hfollows
    obtained := ⟨h', rfl, by rw [hcalls, hundo]⟩ }

/-- **What goes down comes back as it was.**  A device that is operational may go down to any
floor, whatever the releases answer, and be brought up again where every acquisition is
granted and the control word and the BARs say the geometry that it holds, as those do that it
was read from.  Then it is operational again, and everything is as it was but for the handles
that the stages above the floor acquire anew.  The calls are those of these stages, in
order. -/
theorem Arises.bringUp_renews {past : List Entry} {a : Attachment} (harises : Arises past a)
    (hoperational : a.isOperational) :
    (∃ word table g, [⟨.readBridge ControlWord.offset, some word⟩, ⟨.bars, table⟩]
        <:+: exchanges past ∧ a.geometry = some g ∧ g.SaidBy a.chip word table) ∧
    ∀ word table g, a.geometry = some g → g.SaidBy a.chip word table → ∀ floor,
      (a.descendTo floor).Returns fun _ b => b.bringUp.Returns fun v result =>
        (∀ x ∈ exchanges v, x.grants word table) → a.Renewed floor v result := by
  obtain ⟨h, hs⟩ := harises.passes.settled
  have htop : a.stage = .interrupt := by simpa [isOperational] using hoperational
  have hholds : a.holding h .interrupt = a := htop ▸ hs.holds
  have hfits : a.Fits h .interrupt := htop ▸ hs.fits
  have hheld : a.geometry = some h.geometry := (congrArg geometry hholds).symm
  refine ⟨?_, fun word table g hg hsaid floor => ?_⟩
  · obtain ⟨word, table, notice, hread, hdecode⟩ := harises.passes.geometry_foundIn hheld
    exact ⟨word, table, h.geometry, hread, hheld, notice, hdecode⟩
  obtain rfl : h.geometry = g := Option.some.inj (hheld.symm.trans hg)
  have hdown := descendTo_calls floor .interrupt hfits
  rw [hholds, min_eq_right (Stage.le_interrupt floor)] at hdown
  refine hdown.mono fun u b hb => ?_
  obtain ⟨rfl, -⟩ := hb
  have hlow : a.Fits h floor := hfits.mono (Stage.le_interrupt floor)
  refine (bringUp_returns floor h hlow).mono fun v result hv hgrants => ?_
  obtain ⟨verdict, h', q, t, w, rfl, hclimbed, hresult⟩ := hv
  have hgranted : ∀ x ∈ exchanges t, x.grants word table := fun x hx =>
    hgrants x (by simp [hx])
  have hroom := (hfits (by decide)).room
  obtain rfl := hclimbed.verdict_of_grants hsaid hroom hgranted
  obtain ⟨rfl, rfl, hquiet⟩ := hresult
  exact hs.renewed htop hclimbed hsaid hgranted hquiet

/-- A G33 that nothing was asked for yet. -/
def freshG33 : Attachment := fresh (.entry 0x29c2 "G33" .g33 [.i9xx, .g33]) .standard
  ⟨0, ⟨0xfeb00000⟩, 0x80000, ⟨0xd0000000⟩, ⟨0xd0000000⟩⟩

/-- What it holds if everything is mapped at the address on the bus, but its page so many bytes
further on. -/
def handlesG33 (offset : UInt64) : Handles where
  window := ⟨⟨⟨0xfeb00000⟩, ⟨0xfeb00000⟩, 0x80000⟩⟩
  geometry := ⟨0, 0x7ff000⟩
  page := .device ⟨⟨0xd0000000⟩, ⟨0xd0000000 + offset⟩, pageSize⟩
  queue := ⟨1⟩

/-- A platform like `willing` that maps everything one mebibyte further on. -/
def mappedElsewhere : Unit → (r : Request) → r.Answer × Unit
  | _, .map phys length => (some ⟨phys, ⟨phys.val + 0x100000⟩, length⟩, ())
  | s, r => willing ⟨[.unassigned]⟩ 0x30 0 s r

/-- A G33 goes down until only its registers are mapped, and the aperture is found anew on the
way up.  Its page comes back on the same block of stolen memory, under another mapping. -/
theorem bringUp_renews_registers :
    ∃ past a, Arises past a ∧ a.isOperational ∧ a.statusPage.isDevice ∧
      ∃ u b v result, (a.descendTo .registers).Run u (.ok b) ∧ b.bringUp.Run v (.ok result) ∧
        (∀ x ∈ exchanges v, x.grants 0x30 ⟨[.unassigned]⟩) ∧
        result.2.statusPage ≠ a.statusPage ∧ a.Renewed .registers v result := by
  let up := freshG33.holding (handlesG33 0) .interrupt
  let down := freshG33.holding (handlesG33 0) .registers
  let again := freshG33.holding (handlesG33 0x100000) .interrupt
  have hfresh : Reaches [] freshG33 := .fresh _ _ _
  have hreaches : Reaches _ up :=
    hfresh.play .bringUp (willing ⟨[.unassigned]⟩ 0x30 0) () (by decide +kernel)
  have hdown : (up.descendTo .registers).Run _ (.ok down) :=
    run_play (willing ⟨[.unassigned]⟩ 0x30 0) () (up.descendTo .registers)
  have hagain : (play mappedElsewhere () down.bringUp).2.1 = .ok (.ok (), again) := by
    decide +kernel
  have hup := run_play mappedElsewhere () down.bringUp
  rw [hagain] at hup
  have hgrants : ∀ x ∈ exchanges (play mappedElsewhere () down.bringUp).1,
      x.grants 0x30 ⟨[.unassigned]⟩ := by decide
  have hrenews := (hreaches.arises.bringUp_renews rfl).2 0x30 ⟨[.unassigned]⟩ ⟨0, 0x7ff000⟩ rfl
    ⟨none, by decide +kernel⟩ .registers
  exact ⟨_, up, hreaches.arises, rfl, rfl, _, down, _, _, hdown, hup, hgrants, by decide,
    (hrenews.of_run hdown).of_run hup hgrants⟩

end Attachment

end Igd
