/-
Bring-up rolls back exactly.

Two stretches of bring-up make one (`Climbed.andThen`), and so the climb over any number
of stages is a stretch, by induction on the stages above the one it starts from.  A
failed climb still holds the stages it entered.  `bringUp_returns` adds the descent to
where it started: what the stages hold is just what the climb had not given back yet,
so the two together give back everything that was obtained, the latest first, and the
attachment is the one that bring-up began with.

`start` has one more layer, for the registers, and the same argument once more.
-/
import Igd.Proofs.Attachment.Enter

namespace Igd

open Program

theorem Handles.Agree.flatMap_dues {g h : Handles} {s floor : Stage} (hgh : g.Agree h s) :
    (Stage.descent s floor).flatMap g.dues = (Stage.descent s floor).flatMap h.dues := by
  rw [List.flatMap_congr fun t ht => hgh.dues (Stage.mem_descent.mp ht).2]

namespace Climbed

variable {a : Attachment} {h h' h'' : Handles} {p q r : Stage} {ss ss' : List Step}
  {t u : List Entry} {verdict : Option AttachError}

theorem nil (fits : a.Fits h p) : Climbed a h p [] [] none h p where
  agrees := .refl h p
  fits := fits
  le := le_refl p
  calls_eq := ⟨[], [], rfl, fun _ _ => .nil, by simp [Stage.descent_self], fun _ => rfl⟩
  handed := by simp
  found := fun hlow hhigh => absurd hhigh (not_le.mpr hlow)

theorem append_of_failed {e : AttachError} (hclimbed : Climbed a h p ss t (some e) h' q) :
    Climbed a h p (ss ++ ss') t (some e) h' q where
  agrees := hclimbed.agrees
  fits := hclimbed.fits
  le := hclimbed.le
  calls_eq := by
    obtain ⟨acquired, released, hcalls, hfollows, hundo, -⟩ := hclimbed.calls_eq
    exact ⟨acquired, released, hcalls, fun g hg => (hfollows g hg).append_of_failed, hundo,
      by simp⟩
  handed := hclimbed.handed
  found := hclimbed.found

theorem andThen (hfirst : Climbed a h p ss t none h' q)
    (hsecond : Climbed a h' q ss' u verdict h'' r) :
    Climbed a h p (ss ++ ss') (t ++ u) verdict h'' r where
  agrees := (hsecond.agrees.mono hfirst.le).trans hfirst.agrees
  fits := hsecond.fits
  le := le_trans hfirst.le hsecond.le
  calls_eq := by
    obtain ⟨acquired, released, hcalls, hfollows, hundo, hnone⟩ := hfirst.calls_eq
    obtain rfl := hnone rfl
    obtain ⟨acquired', released', hcalls', hfollows', hundo', hnone'⟩ := hsecond.calls_eq
    refine ⟨acquired ++ acquired', released', ?_, ?_, ?_, hnone'⟩
    · rw [calls_append, hcalls, hcalls', List.append_nil, List.append_assoc]
    · intro g hg
      have hlow : g.Agree h' q := (hg.mono hsecond.le).trans hsecond.agrees
      exact (hfollows g hlow).append (hfollows' g hg)
    · rw [undo_append, hundo, hundo', Stage.descent_append hsecond.le hfirst.le,
        List.flatMap_append, hsecond.agrees.flatMap_dues]
      simp
  handed := by
    intro x hx start stop hrequest
    rw [calls_append] at hx
    rcases List.mem_append.mp hx with hx | hx
    · exact le_trans (hfirst.handed x hx start stop hrequest) hsecond.le
    · exact hsecond.handed x hx start stop hrequest
  found := by
    intro hlow hhigh
    rw [exchanges_append]
    rcases le_or_gt .aperture q with hq | hq
    · rw [hsecond.agrees.geometry hq]
      simpa using (hfirst.found hlow hq).append [] (exchanges u)
    · simpa using (hsecond.found hq hhigh).append (exchanges t) []

/-- All calls of a stretch that succeeded are those of the plan, and what they obtained is
held in the end. -/
theorem complete (hclimbed : Climbed a h p ss t none h' q) :
    (a.plan h').Follows ss (calls t) none ∧
      undo (calls t) = (Stage.descent q p).flatMap h'.dues := by
  obtain ⟨acquired, released, hcalls, hfollows, hundo, hnone⟩ := hclimbed.calls_eq
  obtain rfl := hnone rfl
  rw [hcalls, List.append_nil]
  exact ⟨hfollows h' (.refl h' q), hundo⟩

/-- A stretch that failed, with releases of what it still held after it, gave back all it had
obtained, the latest first.  The step that failed gave back its own, and the stages below it
are what was still held. -/
theorem rolledBack {e : AttachError} (hclimbed : Climbed a h p ss t (some e) h' q)
    (hheld : (calls u).map (·.request) = (Stage.descent q p).flatMap h'.dues) :
    ∃ acquired released, calls t ++ calls u = acquired ++ released ∧ acquired <+: calls t ∧
      (a.plan h').Follows ss acquired (some e) ∧ released.map (·.request) = undo acquired := by
  obtain ⟨acquired, released, hcalls, hfollows, hundo, -⟩ := hclimbed.calls_eq
  refine ⟨acquired, released ++ calls u, ?_, ⟨released, hcalls.symm⟩, hfollows h' (.refl h' q), ?_⟩
  · rw [hcalls, List.append_assoc]
  · rw [List.map_append, hheld, hundo]

theorem balance_complete (hclimbed : Climbed a h p ss t none h' q) (owed : List Request) :
    balance owed (exchanges t) = some ((Stage.descent q p).flatMap h'.dues ++ owed) := by
  obtain ⟨hfollows, hundo⟩ := hclimbed.complete
  rw [balance_of_calls_obtain hfollows.not_isRelease, hundo]

theorem balance_rolledBack {e : AttachError} (hclimbed : Climbed a h p ss t (some e) h' q)
    (hheld : (calls u).map (·.request) = (Stage.descent q p).flatMap h'.dues)
    (owed : List Request) : balance owed (exchanges (t ++ u)) = some owed := by
  obtain ⟨acquired, released, hcalls, -, hfollows, hreleased⟩ := hclimbed.rolledBack hheld
  rw [← calls_append] at hcalls
  exact balance_of_calls_undo hcalls hfollows.not_isRelease hreleased owed

theorem foundIn (hclimbed : Climbed a h p ss t verdict h' q) (hlow : p < .aperture)
    (hhanded : ∃ x ∈ calls t, ∃ start stop, x.request = .handOver start stop) :
    h'.geometry.FoundIn a.chip (exchanges t) := by
  obtain ⟨x, hx, start, stop, hrequest⟩ := hhanded
  exact hclimbed.found hlow (hclimbed.handed x hx start stop hrequest)

end Climbed

namespace Attachment

variable {a : Attachment} {h : Handles}

/-- The result of an attempt with this verdict. -/
def outcome : Option AttachError → Except AttachError Unit
  | none => .ok ()
  | some e => .error e

theorem climb_append_of_le {target : Stage} {low : List Stage} (high : List Stage)
    (hlow : ∀ s ∈ low, s ≤ a.stage) : climb target (low ++ high) a = climb target high a := by
  induction low with
  | nil => rfl
  | cons s rest ih =>
    rw [List.cons_append, climb, if_pos (hlow s (by simp))]
    exact ih fun t ht => hlow t (by simp [ht])

/-- The loop goes through all stages and passes over those that are reached already, so a climb
begins with the stages above. -/
theorem climbTo_eq (a : Attachment) (target : Stage) :
    a.climbTo target = climb target (Stage.above a.stage) a := by
  rw [climbTo, Stage.ascending_eq a.stage]
  exact climb_append_of_le _ fun s hs => (Stage.mem_ascent.mp hs).2

/-- A climb from stage `p` makes the calls of the stages up to the target and ends there,
unless a stage fails; then it ends on the last one that was entered.  The induction is on the
stages above `p`, which is the list that the loop walks. -/
theorem climb_returns (target p : Stage) (h : Handles) (hfits : a.Fits h p) :
    (climb target (Stage.above p) (a.holding h p)).Returns fun t result =>
      ∃ verdict h' q, result = (outcome verdict, a.holding h' q) ∧
        Climbed a h p ((Stage.ascent p target).flatMap Stage.steps) t verdict h' q ∧
        (verdict = none → q = max p target) ∧ (verdict ≠ none → q < target) := by
  induction hstages : Stage.above p generalizing p h with
  | nil =>
    have hle : target ≤ p := by
      rw [Stage.above_eq_nil hstages]
      exact Stage.le_interrupt target
    rw [Stage.ascent_of_le hle]
    exact returns_done.2 ⟨none, h, p, rfl, .nil hfits, fun _ => (max_eq_left hle).symm, by simp⟩
  | cons s rest ih =>
    obtain ⟨hp, rfl⟩ := Stage.below_of_above hstages
    have hlt : p < s := Stage.below_lt hp
    have hnot : ¬ s ≤ (a.holding h p).stage := not_le.mpr hlt
    rw [climb, if_neg hnot]
    by_cases htarget : target < s
    · have hle : target ≤ p := Stage.le_below hp htarget
      rw [if_pos htarget, Stage.ascent_of_le hle]
      exact returns_done.2 ⟨none, h, p, rfl, .nil hfits, fun _ => (max_eq_left hle).symm, by simp⟩
    · have hle : s ≤ target := not_lt.mp htarget
      rw [if_neg htarget, Stage.ascent_below hp hle, List.flatMap_cons]
      refine returns_bind.2 ((acquireStage_returns hp hfits).mono fun t result ht => ?_)
      cases ht with
      | entered h' hclimbed =>
        have hrecord := a.record_entered h' hlt
        simp only [hrecord, liftM, monadLift, MonadLift.monadLift, ofChecked, done_bind]
        refine (ih s h' hclimbed.fits rfl).mono fun u result hu => ?_
        obtain ⟨verdict, h'', q, rfl, hrest, hq, hfailed⟩ := hu
        refine ⟨verdict, h'', q, rfl, hclimbed.andThen hrest, fun hverdict => ?_, hfailed⟩
        rw [hq hverdict, max_eq_right hle, max_eq_right (le_trans (le_of_lt hlt) hle)]
      | refused e hclimbed =>
        refine returns_done.2 ⟨some e, h, p, rfl, ?_, by simp, fun _ => lt_of_lt_of_le hlt hle⟩
        rw [List.append_nil]
        exact hclimbed.append_of_failed

/-- The handles of an attachment that has acquired nothing; they show at no stage. -/
def noHandles : Handles := ⟨⟨⟨⟨0⟩, ⟨0⟩, 0⟩⟩, ⟨0, 0⟩, .host ⟨⟨0⟩, ⟨0⟩, 0, 0⟩, ⟨0⟩⟩

/-- **Bringing up is all or nothing.**  It climbs through the stages above.  Then every
stage is held, or it goes back down to where it began, and the attachment is the one it
began with. -/
theorem bringUp_returns (p : Stage) (h : Handles) (hfits : a.Fits h p) :
    (a.holding h p).bringUp.Returns fun t result => ∃ verdict h' q u v, t = u ++ v ∧
      Climbed a h p ((Stage.above p).flatMap Stage.steps) u verdict h' q ∧
      match verdict with
      | none => result = (.ok (), a.holding h' .interrupt) ∧ q = .interrupt ∧ exchanges v = []
      | some e => result = (.error e, a.holding h p) ∧
          (calls v).map (·.request) = (Stage.descent q p).flatMap h'.dues := by
  unfold bringUp
  rw [climbTo_eq]
  refine returns_bind.2 ((climb_returns .interrupt p h hfits).mono fun u result hu => ?_)
  obtain ⟨verdict, h', q, rfl, hclimbed, hq, -⟩ := hu
  cases verdict with
  | none =>
    obtain rfl : q = .interrupt := (hq rfl).trans (max_eq_right (Stage.le_interrupt p))
    exact returns_done.2 ⟨none, h', .interrupt, u, [], rfl, hclimbed, rfl, rfl, rfl⟩
  | some e =>
    refine returns_bind.2 (returns_log.2 (returns_bind.2 ?_))
    refine (descendTo_calls p q hclimbed.fits).mono fun v b hv => ?_
    obtain ⟨rfl, hv⟩ := hv
    refine returns_done.2 ⟨some e, h', q, u, _, rfl, hclimbed, ?_, ?_⟩
    · rw [min_eq_right hclimbed.le, a.holding_congr hclimbed.agrees]
    · simpa using hv

/-! ### From nothing -/

/-- Reading the base of stolen memory is a stretch of its own, with a step on the 9-series
only.  It changes nothing that the plan looks at. -/
theorem readStolenBase_returns (h : Handles) :
    (a.holding h .down).readStolenBase.Returns fun t b => ∃ a' : Attachment,
      b = a'.holding h .down ∧ (∀ g, a'.plan g = a.plan g) ∧
      Climbed a' h .down (if a.chip.is9Series then [.readStolenBase] else []) t none h .down := by
  unfold readStolenBase
  rw [holding_chip]
  cases hseries : a.chip.is9Series with
  | false => exact returns_done.2 ⟨a, rfl, fun _ => rfl, .nil (fits_of_lt (by decide))⟩
  | true =>
    simp only [if_true, request_eq_ask, ask_bind, done_bind, returns_ask, returns_bind, returns_log]
    intro base
    refine returns_done.2 ⟨{ a with stolenBase := some base }, rfl, fun _ => rfl, ?_⟩
    have hfollows : ∀ plan : Plan,
        plan.Follows [.readStolenBase] [⟨.readDevice stolenBaseOffset, base⟩] none :=
      fun plan => .answered rfl _ rfl .nil
    exact {
      agrees := .refl h .down
      fits := fits_of_lt (by decide)
      le := le_refl _
      calls_eq := ⟨_, [], rfl, fun g _ => hfollows _, rfl, fun _ => rfl⟩
      handed := by simp [Request.isCall]
      found := fun _ hhigh => absurd hhigh (by decide) }

/-- Bring a device up from nothing, with its registers found among the BARs. -/
def startFrom (chip : Chip) (settings : Settings) (resources : Resources) :
    Program (Except AttachError Attachment) := do
  let a ← readStolenBase (fresh chip settings resources)
  match ← a.climbTo .registers with
  | (.error e, _) => return .error e
  | (.ok (), a) =>
    match ← a.bringUp with
    | (.error e, a) =>
      let _ ← a.descendTo .down
      return .error e
    | (.ok (), a) =>
      Program.log (.operational chip)
      return .ok a

theorem start_eq (chip : Chip) (settings : Settings) :
    start chip settings = (do
      Program.log (.attaching chip)
      match ← Resources.find chip with
      | .error e => return .error e
      | .ok resources => startFrom chip settings resources) := rfl

/-- The whole of a bring-up from nothing: a climb from the bottom along all the steps of
the plan, and on a failure the releases of the stages that it still held. -/
structure Started (plan : Plan) (t : List Entry) (verdict : Option AttachError)
    (a : Attachment) (h : Handles) (q : Stage) (u v : List Entry) : Prop where
  eq_append : t = u ++ v
  plan_eq : a.plan h = plan
  climbed : Climbed a noHandles .down plan.steps u verdict h q
  quiet : verdict = none → calls v = []
  gaveBack : verdict ≠ none →
    (calls v).map (·.request) = (Stage.descent q .down).flatMap h.dues

theorem startFrom_returns (chip : Chip) (settings : Settings) (resources : Resources) :
    (startFrom chip settings resources).Returns fun t result => ∃ geometry verdict a h q u v,
      Started ⟨chip, settings, resources, geometry⟩ t verdict a h q u v ∧
      match verdict with
      | none => result = .ok (a.holding h .interrupt) ∧ q = .interrupt
      | some e => result = .error e := by
  unfold startFrom
  rw [fresh_eq_holding chip settings resources noHandles]
  refine returns_bind.2 ((readStolenBase_returns noHandles).mono fun t b ht => ?_)
  obtain ⟨a, rfl, hplan, hread⟩ := ht
  rw [climbTo_eq]
  have hmap := climb_returns .registers .down noHandles hread.fits
  refine returns_bind.2 (hmap.mono fun u result hu => ?_)
  obtain ⟨verdict, h, q, rfl, hmapped, hq, hfailed⟩ := hu
  cases verdict with
  | some e =>
    -- The registers are not mapped, and nothing is held.
    obtain rfl : q = .down := Stage.le_down (Stage.le_below rfl (hfailed (by simp)))
    refine returns_done.2 ⟨h.geometry, some e, a, h, .down, t ++ u, [],
      ⟨?_, hplan h, ?_, by simp, fun _ => ?_⟩, rfl⟩
    · simp
    · exact hread.andThen hmapped.append_of_failed
    · rw [Stage.descent_self]
      rfl
  | none =>
    obtain rfl : q = .registers := hq rfl
    refine returns_bind.2 ((bringUp_returns .registers h hmapped.fits).mono fun t' result ht' => ?_)
    obtain ⟨verdict, h', q, v, w, rfl, hclimbed, hresult⟩ := ht'
    have hall := hread.andThen (hmapped.andThen hclimbed)
    cases verdict with
    | none =>
      obtain ⟨rfl, rfl, hquiet⟩ := hresult
      refine returns_bind.2 (returns_log.2 (returns_done.2 ⟨h'.geometry, none, a, h', .interrupt,
        t ++ (u ++ v), w ++ [.notice (.operational chip)],
        ⟨?_, hplan h', hall, fun _ => ?_, by simp⟩, rfl, rfl⟩))
      · simp
      · simp [calls, hquiet]
    | some e =>
      obtain ⟨rfl, hw⟩ := hresult
      refine returns_bind.2 ((descendTo_calls .down .registers hmapped.fits).mono fun x b hx => ?_)
      obtain ⟨-, hx⟩ := hx
      refine returns_done.2 ⟨h'.geometry, some e, a, h', q, t ++ (u ++ v), w ++ x,
        ⟨?_, hplan h', hall, by simp, fun _ => ?_⟩, rfl⟩
      · simp
      · rw [calls_append, List.map_append, hw, hx, ← hclimbed.agrees.flatMap_dues,
          ← List.flatMap_append, ← Stage.descent_append hclimbed.le (Stage.down_le _)]

theorem start_returns (chip : Chip) (settings : Settings) :
    (start chip settings).Returns fun t result => ∃ table rest,
      exchanges t = ⟨.bars, table⟩ :: exchanges rest ∧ calls t = calls rest ∧
      match (Resources.ofBars chip table).1 with
      | .error e => result = .error e ∧ exchanges rest = []
      | .ok resources => ∃ geometry verdict a h q u v,
          Started ⟨chip, settings, resources, geometry⟩ rest verdict a h q u v ∧
          match verdict with
          | none => result = .ok (a.holding h .interrupt) ∧ q = .interrupt
          | some e => result = .error e := by
  rw [start_eq]
  refine returns_bind.2 (returns_log.2 ?_)
  simp only [Resources.find, request_eq_ask, ask_bind, done_bind, returns_bind, returns_ask,
    returns_log, pure_eq_done, returns_done]
  intro table
  cases hresources : (Resources.ofBars chip table).1 with
  | error e =>
    refine returns_done.2 ⟨table, [], rfl, rfl, ?_⟩
    rw [hresources]
    exact ⟨rfl, rfl⟩
  | ok resources =>
    refine (startFrom_returns chip settings resources).mono fun rest result hstarted => ?_
    refine ⟨table, rest, rfl, rfl, ?_⟩
    rw [hresources]
    exact hstarted

/-- **Bringing a device up from nothing is all or nothing.**  Without registers among
the BARs nothing is asked at all.  Otherwise the calls are those of the plan, in order,
up to the first that fails.  The device is operational if none does; if one does, its
error is reported, and the calls after it give back everything that was obtained, each
thing once and the latest first. -/
theorem start_all_or_nothing (chip : Chip) (settings : Settings) :
    (start chip settings).Returns fun t result => ∃ table rest,
      exchanges t = ⟨.bars, table⟩ :: rest ∧
      match (Resources.ofBars chip table).1 with
      | .error e => result = .error e ∧ rest = []
      | .ok resources => ∃ plan : Plan, plan.chip = chip ∧ plan.settings = settings ∧
          plan.resources = resources ∧
          ∃ verdict acquired released, calls t = acquired ++ released ∧
            plan.Follows plan.steps acquired verdict ∧
            ((∃ x ∈ acquired, ∃ start stop, x.request = .handOver start stop) →
              plan.geometry.FoundIn chip rest) ∧
            match verdict with
            | none => released = [] ∧ ∃ a, result = .ok a ∧ a.isOperational
            | some e => result = .error e ∧ released.map (·.request) = undo acquired := by
  refine (start_returns chip settings).mono fun t result ht => ?_
  obtain ⟨table, rest, hexchanges, hcalls, hresult⟩ := ht
  refine ⟨table, exchanges rest, hexchanges, ?_⟩
  cases hresources : (Resources.ofBars chip table).1 with
  | error e =>
    rw [hresources] at hresult
    exact hresult
  | ok resources =>
    rw [hresources] at hresult
    obtain ⟨geometry, verdict, a, h, q, u, v, hstarted, hend⟩ := hresult
    obtain ⟨rfl, hplan, hclimbed, hquiet, hgaveBack⟩ := hstarted
    have hfound : (∃ x ∈ calls u, ∃ start stop, x.request = .handOver start stop) →
        geometry.FoundIn chip (exchanges (u ++ v)) := by
      intro hhanded
      have hread := (hclimbed.foundIn (by decide) hhanded).append [] (exchanges v)
      have hchip : a.chip = chip := congrArg Plan.chip hplan
      have hgeometry : h.geometry = geometry := congrArg Plan.geometry hplan
      rwa [hchip, hgeometry, List.nil_append, ← exchanges_append] at hread
    refine ⟨⟨chip, settings, resources, geometry⟩, rfl, rfl, rfl, verdict, ?_⟩
    rw [hcalls, calls_append]
    cases verdict with
    | none =>
      obtain ⟨rfl, rfl⟩ := hend
      have hfollows := hclimbed.complete.1
      rw [hplan] at hfollows
      refine ⟨calls u, [], ?_, hfollows, hfound, rfl, _, rfl, rfl⟩
      rw [hquiet rfl]
    | some e =>
      have hheld := hgaveBack (Option.some_ne_none e)
      obtain ⟨acquired, released, hall, hprefix, hfollows, hundo⟩ := hclimbed.rolledBack hheld
      rw [hplan] at hfollows
      refine ⟨acquired, released, hall, hfollows, ?_, hend, hundo⟩
      intro hhanded
      obtain ⟨x, hx, hstart⟩ := hhanded
      exact hfound ⟨x, hprefix.subset hx, hstart⟩

end Attachment

end Igd
