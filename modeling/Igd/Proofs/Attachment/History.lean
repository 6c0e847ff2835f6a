/-
Whatever is done with an attachment, no operation ends in a fault.

A history is an attachment, fresh or brought up from nothing, with any actions after it.
Sums and differences on the way are checked, and so is the order in which stages are
recorded, so that a history could end in a fault at many places.  That it never does is not
read off these places one by one.  An attachment that arises is settled, and from a settled
one every action returns; what it returns arises again.

Most of the checked sums are of numbers that are small whatever the BARs say.  One is not:
the address of a status page in stolen memory is the base of the aperture, which may be as
high as the word allows, with the offset of the page added.  It fits because the page is
always the first, so that nothing is added.
-/
import Igd.Proofs.Attachment.Moves

namespace Igd.Attachment

open Program

/-- What a history begins with. -/
inductive Origin
  /-- An attachment that holds nothing, whatever its resources. -/
  | fresh (chip : Chip) (settings : Settings) (resources : Resources)
  /-- A device that is brought up from nothing. -/
  | start (chip : Chip) (settings : Settings)

/-- The attachment that a history begins with, if the device comes up. -/
def Origin.begin : Origin → Program (Except AttachError Attachment)
  | .fresh chip settings resources => return .ok (Attachment.fresh chip settings resources)
  | .start chip settings => Attachment.start chip settings

/-- Do some actions, one after the other. -/
def actAll (a : Attachment) : List Action → Program Attachment
  | [] => return a
  | action :: rest => do (← a.act action).actAll rest

/-- A beginning and the actions after it. -/
def history (o : Origin) (actions : List Action) : Program (Except AttachError Attachment) := do
  match ← o.begin with
  | .error e => return .error e
  | .ok a => return .ok (← a.actAll actions)

variable {past : List Entry} {a : Attachment}

/-- Every action returns, and what it returns arises. -/
theorem Arises.actAll (harises : Arises past a) (actions : List Action) :
    (a.actAll actions).Returns fun t b => Arises (past ++ t) b := by
  induction actions generalizing past a with
  | nil => exact returns_done.2 (by simpa using harises)
  | cons action rest ih =>
    refine returns_bind.2 ((harises.passes.act action).withRun.mono fun t b hb => ?_)
    refine (ih (harises.act action hb.1)).mono fun u c hc => ?_
    rwa [List.append_assoc] at hc

theorem Origin.begin_returns (o : Origin) :
    o.begin.Returns fun t result => ∀ a, result = .ok a → Arises t a := by
  cases o with
  | fresh chip settings resources =>
    refine returns_done.2 fun a ha => ?_
    cases ha
    exact .fresh chip settings resources
  | start chip settings =>
    refine (start_passes chip settings).withRun.mono fun t result ht a ha => ?_
    subst ha
    exact .start chip settings ht.1

/-- **Every history returns, and what it leads to arises.** -/
theorem history_returns (o : Origin) (actions : List Action) :
    (history o actions).Returns fun t result => ∀ a, result = .ok a → Arises t a := by
  refine returns_bind.2 (o.begin_returns.mono fun t result ht => ?_)
  cases result with
  | error e => exact returns_done.2 (by simp)
  | ok a =>
    refine returns_bind.2 (((ht a rfl).actAll actions).mono fun u b hb => returns_done.2 ?_)
    intro c hc
    cases hc
    simpa using hb

/-- A page of stolen memory is the first page, since nothing else is ever carved there. -/
theorem Settled.block_eq {h : Handles} (hs : Settled past a h) {block : Stolen.Block}
    {mapping : Option IoMapping} (hpage : a.statusPage = .device (some block) mapping) :
    block = Stolen.Allocator.firstPage := by
  rw [← hs.holds] at hpage
  by_cases hstage : Stage.statusPage ≤ a.stage
  · simp only [holding, if_pos hstage] at hpage
    cases hheld : h.page with
    | host buffer => simp [hheld, HeldPage.statusPage] at hpage
    | device held =>
      simp only [hheld, HeldPage.statusPage, StatusPage.device.injEq, Option.some.injEq] at hpage
      exact hpage.1.symm
  · simp only [holding, if_neg hstage] at hpage
    cases hgen : a.chip.generation <;> simp [StatusPage.forChip, hgen] at hpage

/-- **No history ends in a fault**, whatever the device, its resources and the answers of the
platform are.  At its end a page of stolen memory stands at the base of the aperture. -/
theorem history_never_faults (o : Origin) (actions : List Action) :
    (history o actions).Returns fun _ result => ∀ a, result = .ok a →
      ∀ block mapping, a.statusPage = .device (some block) mapping →
        a.resources.apertureBase.add block.base = .ok a.resources.apertureBase := by
  refine (history_returns o actions).mono fun t result ht a ha block mapping hpage => ?_
  obtain ⟨h, hs⟩ := (ht a ha).passes.settled
  rw [hs.block_eq hpage]
  exact a.resources.apertureBase.add_zero

end Igd.Attachment
