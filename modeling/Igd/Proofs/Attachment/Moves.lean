/-
Every history is made of moves.

Whatever is done with an attachment is done stage by stage: a stage is entered, or
refused, or left, and between these moves the driver only reads, reports, or stops the
ring.  `Passes past a` says that an attachment comes by `a` with `past` as everything
that happened until then, be it in the middle of a bring-up or of a teardown.

So what is to hold at every moment is proved of one move, and whole runs are cut into
moves once, here: climbing and descending by induction on the stages, and every action
from these two.  `Arises` is the same seen from outside, where only whole actions show;
`Arises.passes` is the bridge.
-/
import Igd.Proofs.Attachment.Reachable

namespace Igd

open Program

/-- A request that only reads. -/
def Request.isRead : Request → Bool
  | .bars | .readBridge _ | .readDevice _ => true
  | _ => false

/-- The message that enabling a status page ends with. -/
def Notice.isPageEnabled : Notice → Bool
  | .hostPageEnabled _ | .devicePageEnabled _ => true
  | _ => false

/-- An entry that a move is not made for: the driver reads, or reports something other
than a page. -/
def Entry.isIdle : Entry → Bool
  | .exchange x => x.request.isRead
  | .notice n => !n.isPageEnabled

theorem owes_of_isRead {x : Exchange} (h : x.request.isRead) : x.owes = [] := by
  obtain ⟨request, answer⟩ := x
  cases request <;> first | rfl | cases h

theorem not_isRelease_of_isRead {r : Request} (h : r.isRead) : ¬ r.isRelease := by
  cases r with
  | bars | readBridge | readDevice => simp [Request.isRelease]
  | _ => cases h

theorem balance_idle {t : List Entry} (h : ∀ e ∈ t, e.isIdle) (owed : List Request) :
    balance owed (exchanges t) = some owed := by
  induction t with
  | nil => rfl
  | cons e rest ih =>
    have hrest := ih fun e he => h e (by simp [he])
    cases e with
    | notice n => exact hrest
    | exchange x =>
      have hread : x.request.isRead := h (.exchange x) (by simp)
      rw [exchanges_exchange, balance_cons, settle_obtain (not_isRelease_of_isRead hread),
        owes_of_isRead hread]
      exact hrest

namespace Attachment

/-- One move: what it is made by, its transcript, and what it leads to. -/
inductive Move (a : Attachment) (t : List Entry) : Attachment → Prop
  | idle (ht : ∀ e ∈ t, e.isIdle) : Move a t a
  | stopRing (hrun : a.stopRing.Run t (.ok ())) : Move a t a
  | enter {b : Attachment} {s : Stage} (hbelow : s.below = some a.stage)
      (hrun : (a.acquireStage s).Run t (.ok (.ok (), b))) : Move a t { b with stage := s }
  | refuse {b : Attachment} {s : Stage} {e : AttachError} (hbelow : s.below = some a.stage)
      (hrun : (a.acquireStage s).Run t (.ok (.error e, b))) : Move a t b
  | leave {b : Attachment} {p : Stage} (hbelow : a.stage.below = some p)
      (hrun : (a.releaseStage a.stage).Run t (.ok b)) : Move a t { b with stage := p }

/-- What an attachment comes by, move by move, each with all that happened before. -/
inductive Passes : List Entry → Attachment → Prop
  | fresh (chip : Chip) (settings : Settings) (resources : Resources) (base : Option UInt32) :
      Passes [] { fresh chip settings resources with stolenBase := base }
  | move {past t : List Entry} {a b : Attachment} (h : Passes past a) (hmove : Move a t b) :
      Passes (past ++ t) b

/-! ### What every move keeps -/

/-- A move from `a` with handles `h` to `b` with handles `h'`.  Above any floor that neither
of them is below, what was due gives way to what is due now. -/
structure Moved (a : Attachment) (h : Handles) (t : List Entry) (b : Attachment) (h' : Handles) :
    Prop where
  eq_holding : b = a.holding h' b.stage
  fits : a.Fits h' b.stage
  owed : ∀ floor ≤ a.stage, floor ≤ b.stage →
    balance ((Stage.descent a.stage floor).flatMap h.dues) (exchanges t)
      = some ((Stage.descent b.stage floor).flatMap h'.dues)

theorem Moved.entered {a : Attachment} {t : List Entry} {h h' : Handles} {s : Stage}
    (hclimbed : Climbed a h a.stage s.steps t none h' s) : Moved a h t (a.holding h' s) h' where
  eq_holding := rfl
  fits := hclimbed.fits
  owed floor hfloor _ := by
    rw [hclimbed.balance_complete, ← hclimbed.agrees.flatMap_dues, ← List.flatMap_append]
    exact congrArg (fun l => some (l.flatMap h'.dues))
      (Stage.descent_append hclimbed.le hfloor).symm

namespace Settled

variable {past t : List Entry} {a b : Attachment} {h h' : Handles}

theorem moved (hs : Settled past a h) (hmoved : Moved a h t b h') : Settled (past ++ t) b h' := by
  rw [hmoved.eq_holding]
  exact hs.after hmoved.fits (hmoved.owed .down (Stage.down_le _) (Stage.down_le _))

theorem acquireStage (hs : Settled past a h) {s : Stage} (hbelow : s.below = some a.stage) :
    (a.acquireStage s).Returns (Acquired a h a.stage s) := by
  have hacquired := acquireStage_returns hbelow hs.fits
  rwa [hs.holds] at hacquired

theorem releaseStage (hs : Settled past a h) {p : Stage} (hbelow : a.stage.below = some p) :
    (a.releaseStage a.stage).Returns fun t b =>
      { b with stage := p } = a.holding h p ∧ requests t = h.farewell a.stage := by
  have hreleased := releaseStage_returns hbelow hs.fits
  rwa [hs.holds] at hreleased

theorem unmoved (hs : Settled past a h)
    (hquiet : ∀ owed, balance owed (exchanges t) = some owed) : Moved a h t a h where
  eq_holding := hs.holds.symm
  fits := hs.fits
  owed := fun _ _ _ => hquiet _

theorem stopRing_calls (hs : Settled past a h) (hrun : a.stopRing.Run t (.ok ())) :
    calls t = [] := by
  have hstop := stopRing_returns (a := a) (h := h) a.stage
  rw [hs.holds] at hstop
  have ht := hstop.of_run hrun
  split at ht
  · exact (h.window.write_calls _ _).of_run ht
  · rw [ht]
    rfl

/-- A stage that is refused gave back what it had obtained, so what is owed is what it was. -/
theorem refused {s : Stage} {e : AttachError}
    (hclimbed : Climbed a h a.stage s.steps t (some e) h a.stage)
    (owed : List Request) : balance owed (exchanges t) = some owed := by
  have hheld : (calls []).map (·.request)
      = (Stage.descent a.stage a.stage).flatMap h.dues := by
    rw [Stage.descent_self]
    rfl
  simpa using hclimbed.balance_rolledBack hheld owed

theorem left (hs : Settled past a h) {p : Stage} (hbelow : a.stage.below = some p)
    (hrequests : requests t = h.farewell a.stage) : Moved a h t (a.holding h p) h where
  eq_holding := rfl
  fits := hs.fits.mono (le_of_lt (Stage.below_lt hbelow))
  owed floor _ hfloor := by
    have hcalls : (calls t).map (·.request) = h.dues a.stage := by
      rw [← filter_requests, hrequests, h.filter_farewell]
    rw [Stage.descent_below hbelow (lt_of_le_of_lt hfloor (Stage.below_lt hbelow)),
      List.flatMap_cons]
    exact balance_of_calls_release hcalls (fun _ => Handles.isRelease_of_mem_dues) _

/-- What a move comes to. -/
inductive Changed (a : Attachment) (h : Handles) (t : List Entry) : Attachment → Prop
  /-- Nothing is held that was not held before, and nothing less. -/
  | kept (hquiet : ∀ owed, balance owed (exchanges t) = some owed) : Changed a h t a
  /-- The next stage is held too. -/
  | entered (h' : Handles) {s : Stage} (hbelow : s.below = some a.stage)
      (hclimbed : Climbed a h a.stage s.steps t none h' s) : Changed a h t (a.holding h' s)
  /-- The highest stage is not held any more. -/
  | left {p : Stage} (hbelow : a.stage.below = some p)
      (hrequests : requests t = h.farewell a.stage) : Changed a h t (a.holding h p)

theorem changed (hs : Settled past a h) (hmove : Move a t b) : Changed a h t b := by
  cases hmove with
  | idle ht => exact .kept (balance_idle ht)
  | stopRing hrun =>
    refine .kept fun owed => ?_
    rw [← balance_calls, hs.stopRing_calls hrun, balance_nil]
  | enter hbelow hrun =>
    cases (hs.acquireStage hbelow).of_run hrun with
    | entered h' hclimbed => exact .entered h' hbelow hclimbed
  | refuse hbelow hrun =>
    cases (hs.acquireStage hbelow).of_run hrun with
    | refused e hclimbed =>
      rw [hs.holds]
      exact .kept (refused hclimbed)
  | leave hbelow hrun =>
    obtain ⟨hb, hrequests⟩ := (hs.releaseStage hbelow).of_run hrun
    rw [hb]
    exact .left hbelow hrequests

/-- **Every move keeps an attachment settled.**  A stage that is entered puts what is due for
it on top of what is owed, and leaving it takes that off again.  So what is owed is always the
dues of the stages, the highest on top. -/
theorem move (hs : Settled past a h) (hmove : Move a t b) : ∃ h', Moved a h t b h' := by
  cases hs.changed hmove with
  | kept hquiet => exact ⟨h, hs.unmoved hquiet⟩
  | entered h' _ hclimbed => exact ⟨h', .entered hclimbed⟩
  | left hbelow hrequests => exact ⟨h, hs.left hbelow hrequests⟩

end Settled

/-- **An attachment is settled at every moment.** -/
theorem Passes.settled {past : List Entry} {a : Attachment} (hpasses : Passes past a) :
    ∃ h, Settled past a h := by
  induction hpasses with
  | fresh chip settings resources base =>
    exact ⟨noHandles, rfl, fits_of_lt (s := .down) (by decide), rfl⟩
  | move _ hmove ih =>
    obtain ⟨h, hs⟩ := ih
    obtain ⟨h', hmoved⟩ := hs.move hmove
    exact ⟨h', hs.moved hmoved⟩

/-! ### Runs are made of moves -/

namespace Passes

variable {past : List Entry} {a : Attachment}

theorem note (hpasses : Passes past a) {n : Notice} (hn : n.isPageEnabled = false) :
    Passes (past ++ [.notice n]) a := by
  refine hpasses.move (.idle fun e he => ?_)
  simp [List.mem_singleton.mp he, Entry.isIdle, hn]

/-- Going down is leaving one stage after the other, so what holds of moves holds of it without
a look at the stages. -/
theorem descendTo (hpasses : Passes past a) (floor : Stage) :
    (a.descendTo floor).Returns fun t b => Passes (past ++ t) b := by
  induction hstage : a.stage using Stage.below_induction generalizing past a with
  | down => simpa [Attachment.descendTo, hstage, Stage.descent_of_le, Stage.down_le, descend]
  | next s p hp ih =>
    unfold Attachment.descendTo
    rw [hstage]
    rcases le_or_gt s floor with hle | hlt
    · simpa [Stage.descent_of_le hle, descend]
    · rw [Stage.descent_below hp hlt, descend]
      obtain ⟨h, hs⟩ := hpasses.settled
      have hbelow : a.stage.below = some p := hstage ▸ hp
      have hrelease := (hs.releaseStage hbelow).withRun
      rw [hstage] at hrelease
      refine returns_bind.2 (hrelease.mono fun t b hb => ?_)
      have hleft := hpasses.move (.leave hbelow (hstage.symm ▸ hb.1))
      rw [hp, Option.getD_some]
      have hrest := ih hleft rfl
      exact hrest.mono fun u c hc => by rwa [List.append_assoc] at hc

/-- Going up is entering one stage after the other, and being refused at most once. -/
theorem climb (hpasses : Passes past a) (target : Stage) :
    (Attachment.climb target (Stage.above a.stage) a).Returns fun t result =>
      Passes (past ++ t) result.2 := by
  induction hstages : Stage.above a.stage generalizing past a with
  | nil => simpa [Attachment.climb]
  | cons s rest ih =>
    obtain ⟨hp, rfl⟩ := Stage.below_of_above hstages
    have hlt : a.stage < s := Stage.below_lt hp
    rw [Attachment.climb, if_neg (not_le.mpr hlt)]
    by_cases htarget : target < s
    · rw [if_pos htarget]
      simpa using hpasses
    · rw [if_neg htarget]
      obtain ⟨h, hs⟩ := hpasses.settled
      refine returns_bind.2 ((hs.acquireStage hp).withRun.mono fun t result ht => ?_)
      obtain ⟨hrun, hacquired⟩ := ht
      cases hacquired with
      | entered h' hclimbed =>
        have hrecord := a.record_entered h' hlt
        have hentered : Passes (past ++ t) (a.holding h' s) :=
          hpasses.move (.enter hp hrun)
        simp only [hrecord, liftM, monadLift, MonadLift.monadLift, ofChecked, done_bind]
        have hrest := ih hentered rfl
        exact hrest.mono fun u result hu => by rwa [List.append_assoc] at hu
      | refused e hclimbed =>
        refine returns_done.2 ?_
        rw [List.append_nil]
        exact hpasses.move (.refuse hp hrun)

theorem climbTo (hpasses : Passes past a) (target : Stage) :
    (a.climbTo target).Returns fun t result => Passes (past ++ t) result.2 := by
  rw [climbTo_eq]
  exact hpasses.climb target

theorem bringUp (hpasses : Passes past a) :
    a.bringUp.Returns fun t result => Passes (past ++ t) result.2 := by
  unfold Attachment.bringUp
  refine returns_bind.2 ((hpasses.climbTo .interrupt).mono fun t result ht => ?_)
  obtain ⟨verdict, part⟩ := result
  cases verdict with
  | ok =>
    refine returns_done.2 ?_
    rwa [List.append_nil]
  | error e =>
    have hnoted := ht.note (n := .bringUpFailed part.stage e) rfl
    refine returns_bind.2 (returns_log.2 (returns_bind.2 ?_))
    refine (hnoted.descendTo a.stage).mono fun u b hb => returns_done.2 ?_
    simpa using hb

theorem stop (hpasses : Passes past a) : a.stop.Returns fun t b => Passes (past ++ t) b := by
  unfold Attachment.stop
  obtain ⟨h, hs⟩ := hpasses.settled
  have hring := stopRing_returns (a := a) (h := h) a.stage
  rw [hs.holds] at hring
  refine returns_bind.2 (hring.withRun.mono fun t _ ht => ?_)
  have hstopped := hpasses.move (.stopRing ht.1)
  refine returns_bind.2 ((hstopped.descendTo .down).mono fun u b hb => ?_)
  have hnoted := hb.note (n := .released b.chip) rfl
  refine returns_bind.2 (returns_log.2 (returns_done.2 ?_))
  simpa using hnoted

theorem act (hpasses : Passes past a) (action : Action) :
    (a.act action).Returns fun t b => Passes (past ++ t) b := by
  cases action with
  | bringUp =>
    refine returns_bind.2 (hpasses.bringUp.mono fun t result ht => returns_done.2 ?_)
    rwa [List.append_nil]
  | descendTo floor => exact hpasses.descendTo floor
  | stop => exact hpasses.stop

end Passes

theorem readStolenBase_idle (a : Attachment) :
    a.readStolenBase.Returns fun t b =>
      (∀ e ∈ t, e.isIdle) ∧ ∃ base, b = { a with stolenBase := base } := by
  unfold readStolenBase
  split
  · simp only [request_eq_ask, ask_bind, done_bind, returns_ask, returns_bind, returns_log]
    intro base
    exact returns_done.2 ⟨by simp [Entry.isIdle, Request.isRead, Notice.isPageEnabled], _, rfl⟩
  · exact returns_done.2 ⟨by simp, a.stolenBase, rfl⟩

theorem Resources.find_idle (chip : Chip) :
    (Resources.find chip).Returns fun t _ => ∀ e ∈ t, e.isIdle := by
  simp only [Resources.find, request_eq_ask, ask_bind, done_bind, returns_ask, returns_bind,
    returns_log]
  intro table
  have hquiet : (Resources.ofBars chip table).2.isPageEnabled = false := by
    unfold Resources.ofBars
    dsimp only
    split
    · rfl
    · split <;> rfl
  exact returns_done.2 (by simp [Entry.isIdle, Request.isRead, hquiet])

/-- Bringing a device up from nothing is made of moves, also when it fails. -/
theorem start_passes (chip : Chip) (settings : Settings) :
    (start chip settings).Returns fun t result =>
      ∃ b, Passes t b ∧ ∀ a, result = .ok a → b = a := by
  rw [start_eq]
  refine returns_bind.2 (returns_log.2 (returns_bind.2 ?_))
  refine (Resources.find_idle chip).mono fun t found ht => ?_
  have hread (resources : Resources) (base : Option UInt32) {u : List Entry}
      (hu : ∀ e ∈ u, e.isIdle) : Passes (.notice (.attaching chip) :: (t ++ u))
        { fresh chip settings resources with stolenBase := base } := by
    refine (Passes.fresh chip settings resources base).move (.idle fun e he => ?_)
    simp only [List.mem_cons, List.mem_append] at he
    rcases he with rfl | he | he
    · rfl
    · exact ht e he
    · exact hu e he
  cases found with
  | error e =>
    -- Nothing is found, and any resources will do for an attachment that nothing happened to.
    have hidle := @hread ⟨0, ⟨0⟩, 0, ⟨0⟩, ⟨0⟩⟩ none [] (by simp)
    exact returns_done.2 ⟨_, by simpa using hidle, by simp⟩
  | ok resources =>
    unfold startFrom
    refine returns_bind.2 ((readStolenBase_idle _).mono fun u b hu => ?_)
    obtain ⟨hidle, base, rfl⟩ := hu
    refine returns_bind.2 (((hread resources base hidle).climbTo .registers).mono
      fun v result hv => ?_)
    obtain ⟨verdict, mapped⟩ := result
    cases verdict with
    | error e => exact returns_done.2 ⟨mapped, by simpa using hv, by simp⟩
    | ok =>
      refine returns_bind.2 (hv.bringUp.mono fun w result hw => ?_)
      obtain ⟨verdict, up⟩ := result
      cases verdict with
      | error e =>
        refine returns_bind.2 ((hw.descendTo .down).mono fun x b hb => ?_)
        exact returns_done.2 ⟨b, by simpa using hb, by simp⟩
      | ok =>
        have hnoted := hw.note (n := .operational chip) rfl
        refine returns_bind.2 (returns_log.2 (returns_done.2 ⟨up, by simpa using hnoted, ?_⟩))
        exact fun a ha => by simpa using ha

/-! ### Whole actions -/

/-- The attachments that can come about, fresh or brought up from nothing, each with all
that happened before. -/
inductive Arises : List Entry → Attachment → Prop
  | fresh (chip : Chip) (settings : Settings) (resources : Resources) :
      Arises [] (fresh chip settings resources)
  | start {t : List Entry} {a : Attachment} (chip : Chip) (settings : Settings)
      (hrun : (start chip settings).Run t (.ok (.ok a))) : Arises t a
  | act {past t : List Entry} {a b : Attachment} (action : Action) (h : Arises past a)
      (hrun : (a.act action).Run t (.ok b)) : Arises (past ++ t) b

/-- What comes about from a fresh attachment arises. -/
theorem Reaches.arises {past : List Entry} {a : Attachment} (hreaches : Reaches past a) :
    Arises past a := by
  induction hreaches with
  | fresh chip settings resources => exact .fresh chip settings resources
  | act action _ hrun ih => exact .act action ih hrun

/-- **Whatever arises is come by in moves.** -/
theorem Arises.passes {past : List Entry} {a : Attachment} (harises : Arises past a) :
    Passes past a := by
  induction harises with
  | fresh chip settings resources => exact .fresh chip settings resources none
  | start chip settings hrun =>
    obtain ⟨b, hb, ha⟩ := (start_passes chip settings).of_run hrun
    exact ha _ rfl ▸ hb
  | act action _ hrun ih => exact (ih.act action).of_run hrun

end Attachment

end Igd
