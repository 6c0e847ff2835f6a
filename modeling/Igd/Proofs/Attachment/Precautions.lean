/-
Precautions that no history needs.

Letting go of an attachment is written so that it copes with whatever it finds: with
registers that are not mapped any more, with an allocator that has blocks out or is gone, with
a block that the allocator refuses.  Enabling a status page copes with registers or an
allocator that are missing, and would forget a page that was still held.  None of this ever
comes to pass.

To say so without a list of places in programs, the driver is written a second time, as
`Strict`.  It checks before it enters or leaves a stage that nothing of the kind is ahead, and
ends with a fault if something is.  `strict_history` says that this driver is the driver: the
same program for every history, whatever the fault is.  A stage is only left from an attachment
that holds just what its stage tells, and only entered from the one below it, and there every
check comes out right.  The inductions are those along the stages by which a run is cut into
moves.
-/
import Igd.Proofs.Attachment.History

namespace Igd

open Program

/-- Go on if the condition holds, and end with the fault if it does not. -/
def Program.expecting {α : Type} (condition : Bool) (f : Fault) (p : Program α) : Program α :=
  if condition then p else .fault f

theorem Program.expecting_eq {α : Type} {condition : Bool} (h : condition) (f : Fault)
    (p : Program α) : expecting condition f p = p := if_pos h

namespace Stolen.Allocator

/-- The allocator takes a block back without a report. -/
def takesBack (a : Allocator) (b : Block) : Bool :=
  match a.free b with
  | .ok (_, none) => true
  | _ => false

/-- A page, if there is room for one, would be taken back when it is carved. -/
def takesBackPage (a : Allocator) : Bool :=
  match a.allocate pageSize pageSize with
  | .ok (.ok block, rest) => rest.takesBack block
  | .ok (.error _, _) => true
  | .error _ => false

theorem takesBack_firstPage {n : Nat} (hroom : pageSize ≤ n) :
    (withoutFirstPage n).takesBack firstPage := by
  simp [takesBack, free_firstPage hroom]

theorem takesBackPage_ofLength (n : Nat) : (ofLength n).takesBackPage := by
  simp only [takesBackPage, allocate_firstPage]
  by_cases hroom : pageSize ≤ n
  · simpa [hroom] using takesBack_firstPage hroom
  · simp [hroom]

end Stolen.Allocator

namespace Attachment

/-- What entering a stage takes for granted.  A status page is enabled through registers that
are mapped and from an allocator that is there, in the place of none that is held; should it
fail, the allocator takes back what was carved for it. -/
def mayEnter (a : Attachment) : Stage → Bool
  | .statusPage =>
    a.registers.isSome && a.stolen.any (·.takesBackPage) && !a.statusPage.isLive
  | _ => true

/-- What leaving a stage takes for granted.  The registers are still mapped when they are
unmapped, and when a status page is withdrawn; an allocator that is closed has no blocks out;
and the block of a status page is taken back, by an allocator that is still there. -/
def mayLeave (a : Attachment) : Stage → Bool
  | .registers => a.registers.isSome
  | .aperture => a.stolen.all (·.blocksOut == 0)
  | .statusPage =>
    a.registers.isSome &&
      match a.statusPage with
      | .device (some block) _ => a.stolen.any (·.takesBack block)
      | _ => true
  | _ => true

/-! ### A driver that takes no precautions

Each definition is the driver's of the same name.  The checks stand where a stage is entered,
in `climb`, and where it is left, in `descend`. -/

namespace Strict

variable (f : Fault)

def climb (target : Stage) : List Stage → Attachment → Attempt
  | [], a => return (.ok (), a)
  | stage :: rest, a =>
    if stage ≤ a.stage then climb target rest a
    else if target < stage then return (.ok (), a)
    else do
      match ← expecting (a.mayEnter stage) f (a.acquireStage stage) with
      | (.error e, a) => return (.error e, a)
      | (.ok (), a) => climb target rest (← a.record stage)

theorem climb_append_of_le {a : Attachment} {target : Stage} {low : List Stage}
    (high : List Stage) (hlow : ∀ s ∈ low, s ≤ a.stage) :
    climb f target (low ++ high) a = climb f target high a := by
  induction low with
  | nil => rfl
  | cons s rest ih =>
    rw [List.cons_append, climb, if_pos (hlow s (by simp))]
    exact ih fun t ht => hlow t (by simp [ht])

def climbTo (a : Attachment) (target : Stage) : Attempt := climb f target Stage.ascending a

def descend : List Stage → Attachment → Program Attachment
  | [], a => return a
  | stage :: rest, a => do
    let a ← expecting (a.mayLeave stage) f (a.releaseStage stage)
    descend rest { a with stage := stage.below.getD .down }

def descendTo (a : Attachment) (floor : Stage) : Program Attachment :=
  descend f (Stage.descent a.stage floor) a

def bringUp (a : Attachment) : Attempt := do
  match ← climbTo f a .interrupt with
  | (.ok (), up) => return (.ok (), up)
  | (.error e, part) =>
    Program.log (.bringUpFailed part.stage e)
    return (.error e, ← descendTo f part a.stage)

def stop (a : Attachment) : Program Attachment := do
  a.stopRing
  let a ← descendTo f a .down
  Program.log (.released a.chip)
  return a

def start (chip : Chip) (settings : Settings) : Program (Except AttachError Attachment) := do
  Program.log (.attaching chip)
  match ← Resources.find chip with
  | .error e => return .error e
  | .ok resources =>
    let a ← readStolenBase (fresh chip settings resources)
    match ← climbTo f a .registers with
    | (.error e, _) => return .error e
    | (.ok (), a) =>
      match ← bringUp f a with
      | (.error e, a) =>
        let _ ← descendTo f a .down
        return .error e
      | (.ok (), a) =>
        Program.log (.operational chip)
        return .ok a

def act (a : Attachment) : Action → Program Attachment
  | .bringUp => do
    let (_, b) ← bringUp f a
    return b
  | .descendTo floor => descendTo f a floor
  | .stop => stop f a

def actAll (a : Attachment) : List Action → Program Attachment
  | [] => return a
  | action :: rest => do actAll (← act f a action) rest

def beginning : Origin → Program (Except AttachError Attachment)
  | .fresh chip settings resources => return .ok (Attachment.fresh chip settings resources)
  | .start chip settings => start f chip settings

def history (o : Origin) (actions : List Action) : Program (Except AttachError Attachment) := do
  match ← beginning f o with
  | .error e => return .error e
  | .ok a => return .ok (← actAll f a actions)

end Strict

/-! ### What is taken for granted holds -/

namespace Settled

variable {past : List Entry} {a : Attachment} {h : Handles}

theorem mayEnter (hs : Settled past a h) {s : Stage} (hbelow : s.below = some a.stage) :
    a.mayEnter s := by
  cases s with
  | statusPage =>
    have hstage : a.stage = .ring := by simpa [Stage.below] using hbelow.symm
    rw [← hs.holds, hstage]
    have hback := Stolen.Allocator.takesBackPage_ofLength h.geometry.usable
    simp [Attachment.mayEnter, holding, hback, show Stage.registers ≤ .ring by decide,
      show Stage.aperture ≤ .ring by decide, show ¬ Stage.statusPage ≤ .ring by decide]
  | down | registers | aperture | ring | display | interrupt => rfl

theorem mayLeave (hs : Settled past a h) : a.mayLeave a.stage := by
  rw [← hs.holds, holding_stage]
  cases hstage : a.stage with
  | registers | aperture => rfl
  | statusPage =>
    have hsuits : h.page.Suits a.chip h.geometry.usable := hs.fits (by rw [hstage])
    cases hpage : h.page with
    | host buffer =>
      simp [Attachment.mayLeave, holding, hpage, HeldPage.statusPage,
        show Stage.registers ≤ .statusPage by decide]
    | device mapping =>
      rw [hpage] at hsuits
      have hback := Stolen.Allocator.takesBack_firstPage hsuits.2
      simp [Attachment.mayLeave, holding, hpage, HeldPage.statusPage, HeldPage.stolen, hback,
        show Stage.registers ≤ .statusPage by decide, show Stage.aperture ≤ .statusPage by decide]
  | down | ring | display | interrupt => rfl

end Settled

/-! ### The same programs -/

namespace Passes

variable {past : List Entry} {a : Attachment}

/-- Going down the checks come out right: every stage is left as the highest. -/
theorem strict_descendTo (hpasses : Passes past a) (f : Fault) (floor : Stage) :
    Strict.descendTo f a floor = a.descendTo floor := by
  induction hstage : a.stage using Stage.below_induction generalizing past a with
  | down =>
    simp only [Strict.descendTo, Attachment.descendTo, hstage,
      Stage.descent_of_le (Stage.down_le floor), Strict.descend, descend]
  | next s p hp ih =>
    unfold Strict.descendTo Attachment.descendTo
    rw [hstage]
    rcases le_or_gt s floor with hle | hlt
    · rw [Stage.descent_of_le hle, Strict.descend, descend]
    · obtain ⟨h, hs⟩ := hpasses.settled
      have hbelow : a.stage.below = some p := hstage ▸ hp
      have hrelease := (hs.releaseStage hbelow).withRun
      rw [Stage.descent_below hp hlt, Strict.descend, descend, ← hstage, expecting_eq hs.mayLeave]
      refine hrelease.bind_congr fun t b hb => ?_
      have hleft := hpasses.move (.leave hbelow hb.1)
      rw [hbelow, Option.getD_some]
      exact ih hleft rfl

/-- Going up they come out right as well: every stage is entered from the one below it. -/
theorem strict_climb (hpasses : Passes past a) (f : Fault) (target : Stage) :
    Strict.climb f target (Stage.above a.stage) a
      = Attachment.climb target (Stage.above a.stage) a := by
  induction hstages : Stage.above a.stage generalizing past a with
  | nil => rfl
  | cons s rest ih =>
    obtain ⟨hp, rfl⟩ := Stage.below_of_above hstages
    have hlt : a.stage < s := Stage.below_lt hp
    rw [Strict.climb, Attachment.climb, if_neg (not_le.mpr hlt), if_neg (not_le.mpr hlt)]
    by_cases htarget : target < s
    · rw [if_pos htarget, if_pos htarget]
    · obtain ⟨h, hs⟩ := hpasses.settled
      rw [if_neg htarget, if_neg htarget, expecting_eq (hs.mayEnter hp)]
      refine (hs.acquireStage hp).withRun.bind_congr fun t result ht => ?_
      obtain ⟨hrun, hacquired⟩ := ht
      cases hacquired with
      | entered h' hclimbed =>
        have hrecord := a.record_entered h' hlt
        have hentered : Passes (past ++ t) (a.holding h' s) := hpasses.move (.enter hp hrun)
        simp only [hrecord, liftM, monadLift, MonadLift.monadLift, ofChecked, done_bind]
        exact ih hentered rfl
      | refused e hclimbed => rfl

theorem strict_climbTo (hpasses : Passes past a) (f : Fault) (target : Stage) :
    Strict.climbTo f a target = a.climbTo target := by
  rw [climbTo_eq, Strict.climbTo, Stage.ascending_eq a.stage,
    Strict.climb_append_of_le f _ fun s hs => (Stage.mem_ascent.mp hs).2]
  exact hpasses.strict_climb f target

theorem strict_bringUp (hpasses : Passes past a) (f : Fault) :
    Strict.bringUp f a = a.bringUp := by
  unfold Strict.bringUp Attachment.bringUp
  rw [hpasses.strict_climbTo]
  refine (hpasses.climbTo .interrupt).bind_congr fun t result ht => ?_
  obtain ⟨verdict, part⟩ := result
  cases verdict with
  | ok => rfl
  | error e => simp only [ht.strict_descendTo]

theorem strict_stop (hpasses : Passes past a) (f : Fault) : Strict.stop f a = a.stop := by
  unfold Strict.stop Attachment.stop
  rw [hpasses.strict_descendTo]

theorem strict_act (hpasses : Passes past a) (f : Fault) (action : Action) :
    Strict.act f a action = a.act action := by
  cases action with
  | bringUp =>
    unfold Strict.act Attachment.act
    rw [hpasses.strict_bringUp]
  | descendTo floor => exact hpasses.strict_descendTo f floor
  | stop => exact hpasses.strict_stop f

theorem strict_actAll (hpasses : Passes past a) (f : Fault) (actions : List Action) :
    Strict.actAll f a actions = a.actAll actions := by
  induction actions generalizing past a with
  | nil => rfl
  | cons action rest ih =>
    unfold Strict.actAll Attachment.actAll
    rw [hpasses.strict_act]
    exact (hpasses.act action).bind_congr fun t b hb => ih hb

end Passes

theorem strict_start (f : Fault) (chip : Chip) (settings : Settings) :
    Strict.start f chip settings = start chip settings := by
  rw [start_eq]
  unfold Strict.start
  have hlog : (Program.log (.attaching chip)).Returns fun _ _ => True := returns_log.2 trivial
  refine hlog.bind_congr fun _ _ _ => ?_
  refine (Resources.find_idle chip).bind_congr fun t found ht => ?_
  cases found with
  | error e => rfl
  | ok resources =>
    refine (readStolenBase_idle _).bind_congr fun t a ht => ?_
    obtain ⟨-, base, rfl⟩ := ht
    have hfresh := Passes.fresh chip settings resources base
    rw [hfresh.strict_climbTo]
    refine (hfresh.climbTo .registers).bind_congr fun t result ht => ?_
    obtain ⟨verdict, mapped⟩ := result
    cases verdict with
    | error e => rfl
    | ok =>
      simp only [ht.strict_bringUp]
      refine ht.bringUp.bind_congr fun t result ht => ?_
      obtain ⟨verdict, up⟩ := result
      cases verdict with
      | error e => simp only [ht.strict_descendTo]
      | ok => rfl

/-- **No precaution is ever needed.**  Whatever an attachment begins with, whatever is done
with it and whatever the platform answers, a driver that ends with a fault where one would be
is the driver that takes them. -/
theorem strict_history (f : Fault) (o : Origin) (actions : List Action) :
    Strict.history f o actions = history o actions := by
  have hbegin : Strict.beginning f o = o.begin := by
    cases o with
    | fresh chip settings resources => rfl
    | start chip settings => exact strict_start f chip settings
  unfold Strict.history history
  rw [hbegin]
  refine o.begin_returns.bind_congr fun t result ht => ?_
  cases result with
  | error e => rfl
  | ok a => simp only [(ht a rfl).passes.strict_actAll]

end Attachment

end Igd
