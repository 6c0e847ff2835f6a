/-
What an attachment holds at each stage.

Everything that bring-up changes in an attachment is determined by the stage and
by the handles that were acquired on the way there.  `holding h s` is the attachment
at stage `s` with the handles `h`; the handles above `s` do not show in it.  Bring-up
and teardown move along this function: going up fills in handles, going down keeps
them and lowers the stage.  So the invariant of an attachment is that it is
`a.holding h a.stage` for some handles, and what holds field by field is read off.

The stolen memory under a status page of the device is always the first page, taken
from an allocator that was made when the aperture was found.
-/
import Igd.Attachment.Acquire
import Igd.Proofs.Ledger
import Igd.Proofs.Registers
import Igd.Proofs.Stage
import Igd.Proofs.Stolen

namespace Igd

/-- A status page that is held. -/
inductive HeldPage
  | host (buffer : DmaBuffer)
  | device (mapping : IoMapping)

namespace HeldPage

/-- The status page as an attachment keeps it. -/
def statusPage : HeldPage → StatusPage
  | .host buffer => .host (some buffer)
  | .device mapping => .device (some Stolen.Allocator.firstPage) (some mapping)

/-- The request that gives the page back. -/
def due : HeldPage → Request
  | .host buffer => .dmaFree buffer
  | .device mapping => .unmap mapping

/-- The allocator of `usable` bytes of stolen memory, beside the page. -/
def stolen (usable : Nat) : HeldPage → Stolen.Allocator
  | .host _ => .ofLength usable
  | .device _ => .withoutFirstPage usable

/-- The page is one that the chip has, and stolen memory has room for it. -/
def Suits (chip : Chip) (usable : Nat) : HeldPage → Prop
  | .host _ => chip.generation ≠ .g33
  | .device _ => chip.generation = .g33 ∧ pageSize ≤ usable

end HeldPage

/-- What is acquired on the way up. -/
structure Handles where
  window : RegisterWindow
  geometry : Geometry
  page : HeldPage
  queue : Workqueue

namespace Handles

/-- What is given back when a stage is left, in order. -/
def dues (h : Handles) : Stage → List Request
  | .down => []
  | .registers => [.unmap h.window.mapping]
  | .aperture => [.hook .lastClose]
  | .ring => [.hook .ringCleanup]
  | .statusPage => [h.page.due]
  | .display => [.hook .modesetCleanup, .destroyWorkqueue h.queue]
  | .interrupt => [.hook .irqUninstall]

/-- Every request that is made when a stage is left, in order. -/
def farewell (h : Handles) : Stage → List Request
  | .statusPage =>
    h.page.due
      :: h.window.stores RegisterWindow.statusPageAddress RegisterWindow.noStatusPage
  | s => h.dues s

/-- Two lists of handles are the same up to a stage. -/
structure Agree (g h : Handles) (s : Stage) : Prop where
  window : .registers ≤ s → g.window = h.window
  geometry : .aperture ≤ s → g.geometry = h.geometry
  page : .statusPage ≤ s → g.page = h.page
  queue : .display ≤ s → g.queue = h.queue

namespace Agree

variable {f g h : Handles} {s t : Stage}

theorem refl (h : Handles) (s : Stage) : h.Agree h s :=
  ⟨fun _ => rfl, fun _ => rfl, fun _ => rfl, fun _ => rfl⟩

theorem trans (hfg : f.Agree g s) (hgh : g.Agree h s) : f.Agree h s where
  window hs := (hfg.window hs).trans (hgh.window hs)
  geometry hs := (hfg.geometry hs).trans (hgh.geometry hs)
  page hs := (hfg.page hs).trans (hgh.page hs)
  queue hs := (hfg.queue hs).trans (hgh.queue hs)

theorem mono (hgh : g.Agree h t) (hst : s ≤ t) : g.Agree h s where
  window hs := hgh.window (le_trans hs hst)
  geometry hs := hgh.geometry (le_trans hs hst)
  page hs := hgh.page (le_trans hs hst)
  queue hs := hgh.queue (le_trans hs hst)

theorem dues (hgh : g.Agree h t) (hst : s ≤ t) : g.dues s = h.dues s := by
  cases s with
  | registers => simp only [Handles.dues, hgh.window hst]
  | statusPage => simp only [Handles.dues, hgh.page hst]
  | display => simp only [Handles.dues, hgh.queue hst]
  | down | aperture | ring | interrupt => rfl

end Agree

/-! A handle that is new shows at no stage below the one it was acquired for. -/

theorem agree_window (h : Handles) (window : RegisterWindow) :
    ({ h with window } : Handles).Agree h .down :=
  ⟨fun hs => absurd hs (by decide), fun _ => rfl, fun _ => rfl, fun _ => rfl⟩

theorem agree_geometry (h : Handles) (geometry : Geometry) :
    ({ h with geometry } : Handles).Agree h .registers :=
  ⟨fun _ => rfl, fun hs => absurd hs (by decide), fun _ => rfl, fun _ => rfl⟩

theorem agree_page (h : Handles) (page : HeldPage) :
    ({ h with page } : Handles).Agree h .ring :=
  ⟨fun _ => rfl, fun _ => rfl, fun hs => absurd hs (by decide), fun _ => rfl⟩

theorem agree_queue (h : Handles) (queue : Workqueue) :
    ({ h with queue } : Handles).Agree h .statusPage :=
  ⟨fun _ => rfl, fun _ => rfl, fun _ => rfl, fun hs => absurd hs (by decide)⟩

theorem isRelease_of_mem_dues {h : Handles} {s : Stage} {due : Request}
    (hdue : due ∈ h.dues s) : due.isRelease := by
  cases s <;> simp only [dues, List.mem_cons, List.not_mem_nil, or_false] at hdue
  case statusPage =>
    subst hdue
    cases h.page <;> rfl
  case display => rcases hdue with rfl | rfl <;> rfl
  all_goals subst hdue; rfl

/-- Beside the calls that give something back there are only stores. -/
theorem filter_farewell (h : Handles) (s : Stage) :
    (h.farewell s).filter Request.isCall = h.dues s := by
  have hdue : h.page.due.isCall := by cases h.page <;> rfl
  cases s
  case statusPage => rw [farewell, dues, List.filter_cons_of_pos hdue, h.window.filter_stores]
  all_goals rfl

theorem filter_flatMap_farewell (h : Handles) (l : List Stage) :
    (l.flatMap h.farewell).filter Request.isCall = l.flatMap h.dues := by
  rw [List.filter_flatMap]
  exact List.flatMap_congr fun s _ => h.filter_farewell s

end Handles

namespace Attachment

/-- The attachment at a stage, with these handles up to there. -/
def holding (a : Attachment) (h : Handles) (s : Stage) : Attachment := { a with
  stage := s
  registers := if .registers ≤ s then some h.window else none
  geometry := if .aperture ≤ s then some h.geometry else none
  stolen :=
    if .aperture ≤ s then
      some (if .statusPage ≤ s then h.page.stolen h.geometry.usable
        else .ofLength h.geometry.usable)
    else none
  objectsReady := decide (.aperture ≤ s)
  ringBuilt := decide (.ring ≤ s)
  statusPage := if .statusPage ≤ s then h.page.statusPage else .forChip a.chip
  workqueue := if .display ≤ s then some h.queue else none
  modesSet := decide (.display ≤ s)
  interruptInstalled := decide (.interrupt ≤ s) }

@[simp] theorem holding_stage (a : Attachment) (h : Handles) (s : Stage) :
    (a.holding h s).stage = s := rfl

@[simp] theorem holding_chip (a : Attachment) (h : Handles) (s : Stage) :
    (a.holding h s).chip = a.chip := rfl

@[simp] theorem holding_settings (a : Attachment) (h : Handles) (s : Stage) :
    (a.holding h s).settings = a.settings := rfl

@[simp] theorem holding_resources (a : Attachment) (h : Handles) (s : Stage) :
    (a.holding h s).resources = a.resources := rfl

theorem holding_congr (a : Attachment) {g h : Handles} {s : Stage} (hgh : g.Agree h s) :
    a.holding g s = a.holding h s := by
  obtain ⟨hwindow, hgeometry, hpage, hqueue⟩ := hgh
  cases s <;> simp_all [holding]

theorem record_entered (a : Attachment) (h : Handles) {p s : Stage} (hps : p < s) :
    ({ a.holding h s with stage := p } : Attachment).record s = .ok (a.holding h s) :=
  if_pos hps

/-- The page among the handles suits the attachment, once it is held. -/
def Fits (a : Attachment) (h : Handles) (s : Stage) : Prop :=
  .statusPage ≤ s → h.page.Suits a.chip h.geometry.usable

theorem Fits.mono {a : Attachment} {h : Handles} {s t : Stage} (hfits : a.Fits h t)
    (hst : s ≤ t) : a.Fits h s := fun hs => hfits (le_trans hs hst)

/-- A fresh attachment holds nothing, whatever the handles. -/
theorem fresh_eq_holding (chip : Chip) (settings : Settings) (resources : Resources)
    (h : Handles) :
    fresh chip settings resources = (fresh chip settings resources).holding h .down := rfl

end Attachment

end Igd
