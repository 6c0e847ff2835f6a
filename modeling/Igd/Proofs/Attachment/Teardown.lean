/-
Teardown gives back exactly what is held.

For an attachment that can come about, the stages above the floor are left one by one,
the highest first, and each gives back the handles that were obtained for it and not
given back since.  Stages at or below the floor are not touched, but for one thing: a
status page in stolen memory is put back into the allocator, which belongs to a stage
further down.

The handles are in the attachment and in its history, and both must be meant: `Owns`
says that they are the same.  It holds because the ledger of the history owes exactly
what the attachment holds.
-/
import Igd.Proofs.Attachment.Reachable

namespace Igd.Attachment

open Program

/-- The handles are those that the attachment keeps, and those that were obtained in the
past and not given back since. -/
structure Owns (past : List Entry) (a : Attachment) (h : Handles) : Prop where
  registers : .registers ≤ a.stage → a.registers = some h.window
  statusPage : .statusPage ≤ a.stage → a.statusPage = h.page.statusPage
  workqueue : .display ≤ a.stage → a.workqueue = some h.queue
  /-- Everything obtained in the past was given back, but for what is due at the stages
  reached. -/
  owed : balance [] (exchanges past) = some ((Stage.descent a.stage .down).flatMap h.dues)
  /-- What is due was obtained in the past. -/
  obtained : ∀ s, s ≤ a.stage → ∀ due ∈ h.dues s, ∃ x ∈ exchanges past, due ∈ x.owes

/-- Stolen memory has the block of the page back, if the page is one of stolen memory. -/
def GaveBack (page : StatusPage) (before after : Option Stolen.Allocator) : Prop :=
  match page with
  | .device (some block) _ => ∃ stolen stolen', before = some stolen ∧
      stolen.free block = .ok (stolen', none) ∧ after = some stolen'
  | _ => after = before

/-- What belongs to the stages up to `floor` is the same in `b` as in `a`. -/
structure KeptUpTo (a b : Attachment) (floor : Stage) : Prop where
  chip : b.chip = a.chip
  settings : b.settings = a.settings
  resources : b.resources = a.resources
  physicalCursor : b.physicalCursor = a.physicalCursor
  stolenBase : b.stolenBase = a.stolenBase
  registers : .registers ≤ floor → b.registers = a.registers
  geometry : .aperture ≤ floor → b.geometry = a.geometry
  objectsReady : .aperture ≤ floor → b.objectsReady = a.objectsReady
  ringBuilt : .ring ≤ floor → b.ringBuilt = a.ringBuilt
  statusPage : .statusPage ≤ floor → b.statusPage = a.statusPage
  workqueue : .display ≤ floor → b.workqueue = a.workqueue
  modesSet : .display ≤ floor → b.modesSet = a.modesSet
  interruptInstalled : .interrupt ≤ floor → b.interruptInstalled = a.interruptInstalled
  /-- The allocator is the same too, unless the status page is left. -/
  stolen : .aperture ≤ floor → .statusPage ≤ floor ∨ a.stage < .statusPage → b.stolen = a.stolen
  /-- If it is left, the allocator has the page back and is the same otherwise. -/
  gaveBack : .aperture ≤ floor → floor < .statusPage → .statusPage ≤ a.stage →
    GaveBack a.statusPage a.stolen b.stolen

/-- Going down from `a` to `floor` in a run `t` that ends with `b`. -/
structure TornDown (a : Attachment) (h : Handles) (floor : Stage) (t : List Entry)
    (b : Attachment) : Prop where
  stage_eq : b.stage = min a.stage floor
  /-- The calls give back what is due at the stages above the floor. -/
  calls_eq : (calls t).map (·.request) = (Stage.descent a.stage floor).flatMap h.dues
  /-- Beside the calls there is only the store that withdraws the status page. -/
  requests_eq : requests t = (Stage.descent a.stage floor).flatMap h.farewell
  kept : a.KeptUpTo b floor

theorem Settled.owns {past : List Entry} {a : Attachment} {h : Handles} (hs : Settled past a h) :
    Owns past a h where
  registers hstage := by
    rw [← hs.holds]
    simp [holding, hstage]
  statusPage hstage := by
    rw [← hs.holds]
    simp [holding, hstage]
  workqueue hstage := by
    rw [← hs.holds]
    simp [holding, hstage]
  owed := hs.owed
  obtained := by
    intro s hle due hdue
    have hmem : due ∈ (Stage.descent a.stage .down).flatMap h.dues := by
      refine List.mem_flatMap.mpr ⟨s, Stage.mem_descent.mpr ⟨?_, hle⟩, hdue⟩
      cases s with
      | down => cases hdue
      | _ => decide
    rcases mem_of_balance hs.owed hmem with hnil | hpast
    · cases hnil
    · exact hpast

theorem gaveBack_of_suits {chip : Chip} {n : Nat} {page : HeldPage} (hsuits : page.Suits chip n) :
    GaveBack page.statusPage (some (page.stolen n)) (some (.ofLength n)) := by
  cases page with
  | host buffer => rfl
  | device mapping =>
    exact ⟨_, _, rfl, Stolen.Allocator.free_firstPage hsuits.2, rfl⟩

theorem holding_keptUpTo {a : Attachment} {h : Handles} {s : Stage} (floor : Stage)
    (hfits : a.Fits h s) : (a.holding h s).KeptUpTo (a.holding h (min s floor)) floor where
  chip := rfl
  settings := rfl
  resources := rfl
  physicalCursor := rfl
  stolenBase := rfl
  registers hfloor := by simp [holding, hfloor]
  geometry hfloor := by simp [holding, hfloor]
  objectsReady hfloor := by simp [holding, hfloor]
  ringBuilt hfloor := by simp [holding, hfloor]
  statusPage hfloor := by simp [holding, hfloor]
  workqueue hfloor := by simp [holding, hfloor]
  modesSet hfloor := by simp [holding, hfloor]
  interruptInstalled hfloor := by simp [holding, hfloor]
  stolen hfloor hpage := by
    have hsame : Stage.statusPage ≤ min s floor ↔ .statusPage ≤ s := by
      rcases hpage with hpage | hpage
      · simp [hpage]
      · exact ⟨fun hle => le_trans hle (min_le_left _ _), fun hle => absurd hle (not_le.mpr hpage)⟩
    simp only [holding, hsame, le_min_iff, hfloor, and_true]
  gaveBack hfloor hlow hstage := by
    have hpage : Stage.statusPage ≤ s := hstage
    have haperture : Stage.aperture ≤ s := le_trans (by decide) hpage
    have hleft : ¬ Stage.statusPage ≤ floor := not_le.mpr hlow
    simpa [holding, haperture, hfloor, hpage, hleft] using gaveBack_of_suits (hfits hpage)

/-- **Teardown is exact.**  From any attachment that can come about, going down to a floor
calls the releases of the stages above it and nothing else, each once and the highest
stage first, and gives back the very handles that were obtained.  Stopping does the same
with every stage, after the write that stops the ring, which is made if and only if the
ring was built. -/
theorem Reaches.teardown_exact {past : List Entry} {a : Attachment} (hreaches : Reaches past a) :
    ∃ h : Handles, Owns past a h ∧
      (∀ floor, (a.descendTo floor).Returns (TornDown a h floor)) ∧
      a.stop.Returns fun t b => ∃ u v, t = u ++ v ∧
        (if .ring ≤ a.stage then (h.window.write RegisterWindow.ringControl 0).Run u (.ok ())
          else u = []) ∧
        TornDown a h .down v b := by
  obtain ⟨h, hs⟩ := hreaches.settled
  refine ⟨h, hs.owns, fun floor => ?_, ?_⟩
  · have hdescend := descendTo_returns floor a.stage hs.fits
    have hkept := holding_keptUpTo floor hs.fits
    rw [hs.holds] at hdescend hkept
    refine hdescend.mono fun t b ht => ?_
    obtain ⟨rfl, hrequests⟩ := ht
    exact ⟨rfl, calls_of_farewell hrequests, hrequests, hkept⟩
  · have hstop := stop_returns a.stage hs.fits
    have hkept := holding_keptUpTo .down hs.fits
    rw [hs.holds] at hstop hkept
    refine hstop.mono fun t b ht => ?_
    obtain ⟨rfl, u, v, rfl, hring, hrequests⟩ := ht
    rw [min_eq_right (Stage.down_le _)] at hkept
    exact ⟨u, v, rfl, hring, (min_eq_right (Stage.down_le _)).symm,
      calls_of_farewell hrequests, hrequests, hkept⟩

/-- A G33 that came up on a platform on which every service succeeds goes down to the
ring and gives its page back. -/
theorem teardown_exact_operational :
    ∃ past a, Reaches past a ∧ a.stage = .interrupt ∧ ∃ h : Handles, Owns past a h ∧
      (∀ floor, (a.descendTo floor).Returns (TornDown a h floor)) ∧
      a.stop.Returns fun t b => ∃ u v, t = u ++ v ∧
        (if .ring ≤ a.stage then (h.window.write RegisterWindow.ringControl 0).Run u (.ok ())
          else u = []) ∧
        TornDown a h .down v b := by
  have hfresh := Reaches.fresh (.entry 0x29c2 "G33" .g33 [.i9xx, .g33]) .standard
    ⟨0, ⟨0xfeb00000⟩, 0x80000, ⟨0xd0000000⟩, ⟨0xd0000000⟩⟩
  have hreaches := hfresh.play .bringUp (willing ⟨[.unassigned]⟩ 0x30 0) () rfl
  exact ⟨_, _, hreaches, rfl, hreaches.teardown_exact⟩

end Igd.Attachment
