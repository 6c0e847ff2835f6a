/-
What letting go of a page asks.

A page that is held is one obtained thing and at most one block: the buffer, or the mapping and
the block under it.  Letting go asks for the request that gives back the first, whatever the
service answers, and after that tells the device to use no page.  If the allocator takes the
block back, nothing else is asked and nothing is left (`letGo_returns`).
-/
import Igd.Proofs.Ledger
import Igd.Proofs.Registers
import Igd.StatusPage.Basic

namespace Igd.StatusPage

open Program

/-- A page of the same kind that is not held. -/
def idle : StatusPage → StatusPage
  | .host _ => .host none
  | .device _ _ => .device none none

/-- The block of a page in stolen memory. -/
def block? : StatusPage → Option Stolen.Block
  | .host _ => none
  | .device block _ => block

/-- The request that gives back the memory of a page, while it is held. -/
def release? : StatusPage → Option Request
  | .host buffer => buffer.map .dmaFree
  | .device _ mapping => mapping.map .unmap

variable {a a' : Stolen.Allocator} {page : StatusPage} {due : Request}

theorem isRelease_of_release? (h : page.release? = some due) : due.isRelease := by
  cases page with
  | host buffer =>
    obtain ⟨b, -, rfl⟩ := Option.map_eq_some_iff.mp h
    rfl
  | device block mapping =>
    obtain ⟨m, -, rfl⟩ := Option.map_eq_some_iff.mp h
    rfl

theorem freeHeld_returns (buffer : DmaBuffer) :
    (freeHeld (some buffer)).Returns fun t _ => requests t = [.dmaFree buffer] := by
  simp [freeHeld, requests]

theorem unmapHeld_returns (mapping : IoMapping) :
    (unmapHeld (some mapping)).Returns fun t _ => requests t = [.unmap mapping] := by
  simp [unmapHeld, requests]

theorem withdraw_returns (w : RegisterWindow) :
    (withdraw (some w)).Returns fun t _ => requests t
      = w.stores RegisterWindow.statusPageAddress RegisterWindow.noStatusPage :=
  w.write_returns _ _

theorem giveBack_of_free {b : Stolen.Block} (h : a.free b = .ok (a', none)) :
    giveBack a b = .done a' := by
  simp only [giveBack, liftM, monadLift, MonadLift.monadLift, h, ofChecked, done_bind]
  rfl

theorem releaseHeld_of_free {b : Stolen.Block} (h : a.free b = .ok (a', none)) :
    releaseHeld (some a) (some b) = .done (some a') := by
  simp only [releaseHeld, giveBack_of_free h, done_bind]
  rfl

/-- **Letting go of a page gives it back and then withdraws it**, if its block is taken back. -/
theorem letGo_returns (hdue : page.release? = some due)
    (hback : releaseHeld (some a) page.block? = .done (some a')) (w : RegisterWindow) :
    (page.letGo (some w) (some a)).Returns fun t result =>
      result = (page.idle, some a') ∧
      requests t = due
        :: w.stores RegisterWindow.statusPageAddress RegisterWindow.noStatusPage := by
  cases page with
  | host buffer =>
    obtain ⟨b, rfl, rfl⟩ := Option.map_eq_some_iff.mp hdue
    cases hback
    refine returns_bind.2 ((freeHeld_returns b).mono fun t _ ht => ?_)
    refine returns_bind.2 ((withdraw_returns w).mono fun u _ hu => ?_)
    exact returns_done.2 ⟨rfl, by simp [ht, hu]⟩
  | device block mapping =>
    obtain ⟨m, rfl, rfl⟩ := Option.map_eq_some_iff.mp hdue
    have hheld : releaseHeld (some a) block = .done (some a') := hback
    refine returns_bind.2 ((unmapHeld_returns m).mono fun t _ ht => ?_)
    rw [hheld, done_bind]
    refine returns_bind.2 ((withdraw_returns w).mono fun u _ hu => ?_)
    exact returns_done.2 ⟨rfl, by simp [ht, hu]⟩

theorem calls_letGo {w : RegisterWindow} {t : List Entry} (hdue : due.isRelease)
    (hrequests : requests t = due
      :: w.stores RegisterWindow.statusPageAddress RegisterWindow.noStatusPage) :
    (calls t).map (·.request) = [due] := by
  have hcall := isCall_of_isRelease hdue
  rw [← filter_requests, hrequests, List.filter_cons_of_pos hcall, w.filter_stores]

end Igd.StatusPage
