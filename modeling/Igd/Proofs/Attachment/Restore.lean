/-
Going back.

Two things bring an attachment back to one that was there before.  A bring-up that fails
leaves it as it was when the bring-up began, whatever the stage was.  Stopping leaves it
as it was made, but for the base of stolen memory, which is read once and kept.

From there on nothing is left to give back, so stopping again or going down again asks for
nothing.  Bringing up again asks for what a fresh attachment would: no part of bring-up
looks at the base of stolen memory, so each of them is the same program with and without
it, up to the base in the result.
-/
import Igd.Proofs.Attachment.Moves

namespace Igd.Attachment

open Program

/-- **Bringing up is all or nothing, from any stage.**  It always ends: with every stage
reached, or with an error and the attachment exactly as it was. -/
theorem Arises.bringUp_all_or_nothing {past : List Entry} {a : Attachment}
    (harises : Arises past a) : a.bringUp.Returns fun _ result =>
      match result with
      | (.ok (), b) => b.isOperational
      | (.error _, b) => b = a := by
  obtain ⟨h, hs⟩ := harises.passes.settled
  have hbringUp := bringUp_returns a.stage h hs.fits
  rw [hs.holds] at hbringUp
  refine hbringUp.mono fun t result ht => ?_
  obtain ⟨verdict, h', q, u, v, -, -, hresult⟩ := ht
  cases verdict with
  | none =>
    obtain ⟨rfl, -, -⟩ := hresult
    rfl
  | some e =>
    obtain ⟨rfl, -⟩ := hresult
    rfl

/-- A platform like `willing` on which no interrupt handler can be installed. -/
def interruptTaken : Unit → (r : Request) → r.Answer × Unit
  | _, .hook .irqInstall => (.error .busy, ())
  | s, r => willing ⟨[.unassigned]⟩ 0x30 0 s r

/-- A G33 that was operational and went down to the ring is brought up again.  It carves
its page once more and sets up its display, then finds the interrupt taken. -/
theorem bringUp_all_or_nothing_of_ring :
    ∃ past a, Arises past a ∧ a.stage = .ring ∧ a.statusPage.isDevice ∧
      (∃ t b, a.bringUp.Run t (.ok (.error (.interrupt .busy), b)) ∧ (calls t).length = 9) ∧
      a.bringUp.Returns fun _ result =>
        match result with
        | (.ok (), b) => b.isOperational
        | (.error _, b) => b = a := by
  have hfresh := Reaches.fresh (.entry 0x29c2 "G33" .g33 [.i9xx, .g33]) .standard
    ⟨0, ⟨0xfeb00000⟩, 0x80000, ⟨0xd0000000⟩, ⟨0xd0000000⟩⟩
  have hup := hfresh.play .bringUp (willing ⟨[.unassigned]⟩ 0x30 0) () rfl
  have hring := hup.play (.descendTo .ring) (willing ⟨[.unassigned]⟩ 0x30 0) () rfl
  refine ⟨_, _, hring.arises, rfl, rfl, ?_, hring.arises.bringUp_all_or_nothing⟩
  exact ⟨_, _, run_play interruptTaken () _, rfl⟩

/-! ### The base of stolen memory -/

/-- The attachment with this base of stolen memory. -/
def withBase (base : Option UInt32) (a : Attachment) : Attachment := { a with stolenBase := base }

/-- The end of an attempt, with this base of stolen memory. -/
def attemptWithBase (base : Option UInt32) (result : Except AttachError Unit × Attachment) :
    Except AttachError Unit × Attachment := (result.1, result.2.withBase base)

section WithBase

variable (base : Option UInt32) (a : Attachment)

theorem releaseDisplay_withBase :
    (a.withBase base).releaseDisplay = withBase base <$> a.releaseDisplay := by
  simp only [releaseDisplay, map_bind]
  rfl

theorem releaseStage_withBase (s : Stage) :
    (a.withBase base).releaseStage s = withBase base <$> a.releaseStage s := by
  cases s with
  | display => exact releaseDisplay_withBase base a
  | _ =>
    simp only [releaseStage, releaseRegisters, releaseAperture, map_bind]
    rfl

theorem descend_withBase (stages : List Stage) :
    descend stages (a.withBase base) = withBase base <$> descend stages a := by
  induction stages generalizing a with
  | nil => rfl
  | cons s rest ih =>
    rw [descend, descend, releaseStage_withBase, bind_map_left, map_bind]
    exact bind_congr fun b => ih { b with stage := s.below.getD .down }

theorem acquireRegisters_withBase :
    (a.withBase base).acquireRegisters = attemptWithBase base <$> a.acquireRegisters := by
  rw [acquireRegisters, acquireRegisters, map_bind]
  refine bind_congr fun answer => ?_
  split <;> rfl

theorem acquireAperture_withBase :
    (a.withBase base).acquireAperture = attemptWithBase base <$> a.acquireAperture := by
  rw [acquireAperture, acquireAperture, map_bind]
  refine bind_congr fun found => ?_
  split <;> rfl

theorem acquireStatusPage_withBase :
    (a.withBase base).acquireStatusPage = attemptWithBase base <$> a.acquireStatusPage := by
  have hregisters : (a.withBase base).registers = a.registers := rfl
  have hstolen : (a.withBase base).stolen = a.stolen := rfl
  rw [acquireStatusPage, acquireStatusPage, hregisters, hstolen]
  split
  · rfl
  · rfl
  · rw [map_bind]
    rfl

theorem acquireModes_withBase :
    (a.withBase base).acquireModes = attemptWithBase base <$> a.acquireModes := by
  rw [acquireModes, acquireModes, map_bind]
  refine bind_congr fun tables => ?_
  split
  · rfl
  · rw [map_bind]
    refine bind_congr fun modes => ?_
    split <;> rfl

theorem acquireDisplay_withBase :
    (a.withBase base).acquireDisplay = attemptWithBase base <$> a.acquireDisplay := by
  rw [acquireDisplay, acquireDisplay, map_bind]
  refine bind_congr fun answer => ?_
  split
  · rfl
  · rename_i queue
    have hmodes := acquireModes_withBase base { a with workqueue := some queue }
    rw [map_bind]
    refine Eq.trans (congrArg (· >>= _) hmodes) ?_
    rw [bind_map_left]
    refine bind_congr fun result => ?_
    obtain ⟨verdict, b⟩ := result
    cases verdict with
    | ok => rfl
    | error e =>
      show (do return (.error e, ← (b.withBase base).releaseDisplay))
        = attemptWithBase base <$> (do return (.error e, ← b.releaseDisplay))
      rw [releaseDisplay_withBase, bind_map_left, map_bind]
      rfl

theorem acquireStage_withBase (s : Stage) :
    (a.withBase base).acquireStage s = attemptWithBase base <$> a.acquireStage s := by
  cases s with
  | down => rfl
  | registers => exact acquireRegisters_withBase base a
  | aperture => exact acquireAperture_withBase base a
  | statusPage => exact acquireStatusPage_withBase base a
  | display => exact acquireDisplay_withBase base a
  | ring | interrupt =>
    simp only [acquireStage, map_bind]
    refine bind_congr fun answer => ?_
    split <;> rfl

theorem record_withBase (s : Stage) :
    (a.withBase base).record s = (a.record s).map (withBase base) := by
  unfold record
  split <;> split <;> first | rfl | contradiction

theorem climb_withBase (target : Stage) (stages : List Stage) :
    climb target stages (a.withBase base) = attemptWithBase base <$> climb target stages a := by
  induction stages generalizing a with
  | nil => rfl
  | cons s rest ih =>
    have hstage : (a.withBase base).stage = a.stage := rfl
    rw [climb, climb, hstage]
    split
    · exact ih a
    · split
      · rfl
      · rw [acquireStage_withBase, bind_map_left, map_bind]
        refine bind_congr fun result => ?_
        obtain ⟨verdict, b⟩ := result
        cases verdict with
        | error e => rfl
        | ok =>
          show (ofChecked ((b.withBase base).record s) >>= climb target rest)
            = attemptWithBase base <$> (ofChecked (b.record s) >>= climb target rest)
          rw [record_withBase, ofChecked_map, bind_map_left, map_bind]
          exact bind_congr ih

/-- **Bringing up does not look at the base of stolen memory.**  So it leaves the same
transcript whether the base was read before or not, and that is all that a stopped attachment
differs in from a fresh one. -/
theorem bringUp_withBase : (a.withBase base).bringUp = attemptWithBase base <$> a.bringUp := by
  rw [bringUp, bringUp, climbTo, climbTo, climb_withBase, bind_map_left, map_bind]
  refine bind_congr fun result => ?_
  obtain ⟨verdict, part⟩ := result
  cases verdict with
  | ok => rfl
  | error e =>
    have hdescend : (part.withBase base).descendTo (a.withBase base).stage
        = withBase base <$> part.descendTo a.stage :=
      descend_withBase base part (Stage.descent part.stage a.stage)
    simp only [attemptWithBase, hdescend, bind_map_left, map_bind]
    rfl

end WithBase

/-! ### Stopping -/

/-- The attachment as it was made, with the base of stolen memory that was read since. -/
def emptied (a : Attachment) : Attachment :=
  (fresh a.chip a.settings a.resources).withBase a.stolenBase

theorem Passes.physicalCursor_eq {past : List Entry} {a : Attachment} (hpasses : Passes past a) :
    a.physicalCursor = a.chip.needsPhysicalCursor := by
  induction hpasses with
  | fresh => rfl
  | move hpasses hmove ih =>
    obtain ⟨h, hs⟩ := hpasses.settled
    obtain ⟨h', hmoved⟩ := hs.move hmove
    rw [hmoved.eq_holding]
    exact ih

theorem Passes.holding_down {past : List Entry} {a : Attachment} (hpasses : Passes past a)
    (h : Handles) : a.holding h .down = a.emptied := by
  show { a.emptied with physicalCursor := a.physicalCursor } = a.emptied
  rw [hpasses.physicalCursor_eq]
  rfl

theorem emptied_descendTo (a : Attachment) (floor : Stage) :
    a.emptied.descendTo floor = .done a.emptied := by
  have hstage : a.emptied.stage = .down := rfl
  rw [descendTo, hstage, Stage.descent_of_le (Stage.down_le floor)]
  rfl

theorem emptied_stop (a : Attachment) :
    a.emptied.stop = .note (.released a.chip) (.done a.emptied) := by
  rw [stop, emptied_descendTo]
  rfl

/-- **Stopping gives back an attachment as it was made**, with every field as in a fresh
one but for the base of stolen memory, which stays.  After that, going down or stopping
again asks for nothing and changes nothing, and bringing up leaves the same transcript as
for a fresh attachment on the same platform. -/
theorem Arises.stop_empties {past : List Entry} {a : Attachment} (harises : Arises past a) :
    a.stop.Returns fun _ b =>
      b = { Attachment.fresh a.chip a.settings a.resources with stolenBase := a.stolenBase } ∧
      (∀ floor, (b.descendTo floor).Returns fun t c => t = [] ∧ c = b) ∧
      (b.stop.Returns fun t c => t = [.notice (.released a.chip)] ∧ c = b) ∧
      ∀ (σ : Type) (answer : σ → (r : Request) → r.Answer × σ) (s : σ),
        (play answer s b.bringUp).1
          = (play answer s (Attachment.fresh a.chip a.settings a.resources).bringUp).1 := by
  obtain ⟨h, hs⟩ := harises.passes.settled
  have hstop := stop_calls a.stage hs.fits
  rw [hs.holds, harises.passes.holding_down h] at hstop
  refine hstop.mono fun t b ht => ?_
  obtain ⟨rfl, -⟩ := ht
  refine ⟨rfl, fun floor => ?_, ?_, fun σ answer s => ?_⟩
  · simp [emptied_descendTo]
  · simp [emptied_stop]
  · rw [emptied, bringUp_withBase, play_map]

/-- A 945G that was brought up from nothing, and keeps the base of stolen memory that it
read on the way. -/
theorem stop_empties_started :
    ∃ past a, Arises past a ∧ a.stage = .interrupt ∧ a.stolenBase = some 0 ∧
      a.stop.Returns fun _ b =>
        b = { fresh a.chip a.settings a.resources with stolenBase := a.stolenBase } ∧
        (∀ floor, (b.descendTo floor).Returns fun t c => t = [] ∧ c = b) ∧
        (b.stop.Returns fun t c => t = [.notice (.released a.chip)] ∧ c = b) ∧
        ∀ (σ : Type) (answer : σ → (r : Request) → r.Answer × σ) (s : σ),
          (play answer s b.bringUp).1
            = (play answer s (fresh a.chip a.settings a.resources).bringUp).1 := by
  have harises := Arises.start (.entry 0x2772 "945G" .i9xx [.i9xx]) .standard
    (run_play (willing ⟨[⟨⟨0xfeb00000⟩, 0x80000⟩]⟩ 0x30 0x10000) () _)
  exact ⟨_, _, harises, rfl, rfl, harises.stop_empties⟩

end Igd.Attachment
