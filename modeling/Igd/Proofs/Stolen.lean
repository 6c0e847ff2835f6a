/-
The first page of stolen memory.

A status page is carved from an allocator that nothing was carved from before, so
it is always the first page, and there is room for it as soon as one page is
usable.  Giving it back leaves the allocator as it was made.  Neither operation
can leave a machine word here, whatever the length.
-/
import Igd.Proofs.Extents
import Igd.Stolen.Allocator

namespace Igd

namespace Extents

/-- Dropping the extents that hold nothing never fails on extents that do not end
before they start. -/
theorem nonempty_eq_kept {l : List Extent} (h : ∀ e ∈ l, e.start ≤ e.stop) :
    nonempty l = .ok (kept l) := by
  induction l with
  | nil => rfl
  | cons e rest ih =>
    have he : e.start ≤ e.stop := h e (by simp)
    simp only [nonempty, Extent.length, Checked.sub_eq he, Checked.ok_bind,
      ih fun x hx => h x (by simp [hx]), kept_cons, Nat.sub_pos_iff_lt]
    rfl

end Extents

namespace Stolen.Allocator

open Extents

/-- The first page. -/
def firstPage : Block := ⟨0, pageSize⟩

/-- The allocator of the offsets below `n` once the first page is carved. -/
def withoutFirstPage (n : Nat) : Allocator := ⟨kept [⟨pageSize, n⟩], n, 1⟩

theorem ofLength_extents (n : Nat) : (ofLength n).extents = kept [⟨0, n⟩] := by
  by_cases h : 0 < n <;> simp [ofLength, h]

theorem place_firstPage (n : Nat) :
    place pageSize (pageSize - 1) ⟨0, n⟩ = if pageSize ≤ n then some 0 else none := by
  have hround : roundUp? (pageSize - 1) 0 = some 0 := by decide
  have hword : pageSize < wordCount := by decide
  simp [place, hround, hword]

theorem allocate_firstPage (n : Nat) :
    (ofLength n).allocate pageSize pageSize = .ok
      (if pageSize ≤ n then (.ok firstPage, withoutFirstPage n)
        else (.error .outOfSpace, ofLength n)) := by
  have hvalid : ¬ (pageSize = 0 ∨ ¬ isPowerOfTwo pageSize = true) := by decide
  have hmask : Checked.sub pageSize 1 = .ok (pageSize - 1) := by decide
  have hword : 0 + 1 < wordCount := by decide
  unfold allocate
  rw [if_neg hvalid]
  simp only [hmask, Checked.ok_bind, ofLength_extents]
  by_cases hroom : pageSize ≤ n
  · have hpos : 0 < n := Nat.lt_of_lt_of_le (by decide) hroom
    have hfit : firstFit (place pageSize (pageSize - 1)) (kept [⟨0, n⟩])
        = some ⟨[], ⟨0, n⟩, [], 0⟩ := by
      simp [hpos, firstFit, place_firstPage, hroom]
    have hsides : nonempty (Fit.sides ⟨[], ⟨0, n⟩, [], 0⟩ pageSize)
        = .ok (kept [⟨pageSize, n⟩]) := by
      rw [nonempty_eq_kept]
      · simp [Fit.sides]
      · simpa [Fit.sides] using hroom
    simp only [hfit, hsides, Checked.ok_bind, ofLength, Checked.add_eq hword, if_pos hroom]
    simp [withoutFirstPage, firstPage, pure, Except.pure]
  · have hfit : firstFit (place pageSize (pageSize - 1)) (kept [⟨0, n⟩]) = none := by
      by_cases hpos : 0 < n <;> simp [hpos, firstFit, place_firstPage, hroom]
    simp only [hfit, if_neg hroom]
    rfl

theorem firstPage_stop : firstPage.stop = .ok pageSize := by decide

theorem free_firstPage {n : Nat} (hroom : pageSize ≤ n) :
    (withoutFirstPage n).free firstPage = .ok (ofLength n, none) := by
  have hpos : 0 < n := Nat.lt_of_lt_of_le (by decide) hroom
  -- Nothing starts below the first page, so it goes in front of all that is free.
  have hbelow : startingBelow 0 (kept [⟨pageSize, n⟩]) = [] := by
    by_cases hmore : pageSize < n <;> simp [hmore, startingBelow]
  have hfrom : startingFrom 0 (kept [⟨pageSize, n⟩]) = kept [⟨pageSize, n⟩] := by
    by_cases hmore : pageSize < n <;> simp [hmore, startingFrom]
  have howned : (overlapsNeighbour [] ⟨0, pageSize⟩ (kept [⟨pageSize, n⟩])
      || decide (n < pageSize)) = false := by
    by_cases hmore : pageSize < n <;> simp [hmore, overlapsNeighbour, hroom]
  have hjoin : joinFront ⟨0, pageSize⟩ (kept [⟨pageSize, n⟩]) = [⟨0, n⟩] := by
    by_cases hmore : pageSize < n
    · simp [hmore, joinFront]
    · obtain rfl : n = pageSize := by omega
      simp [joinFront]
  unfold free
  simp only [firstPage_stop, Checked.ok_bind]
  simp only [withoutFirstPage, firstPage, hbelow, hfrom, splice, hjoin, ofLength, if_pos hpos]
  exact if_neg (Bool.eq_false_iff.mp howned)

end Stolen.Allocator

end Igd
