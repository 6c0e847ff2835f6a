/-
A list in order is the only one that holds what it holds.

Extents in order do not touch, and so a range all of whose offsets are held lies in one of
them: where one extent ends, the next has not begun.  This is `InOrder.in_one`.  It is what
a search relies on that looks for room in one extent at a time, since no room is spread over
two.

It also makes a list in order canonical.  Of two that hold the same offsets, every extent
of the one lies in an extent of the other, and that one in an extent of the first again.
Both are then the same, and so the lists are.
-/
import Igd.Proofs.Extents.Insert
import Mathlib.Data.List.Pairwise
import Mathlib.Data.List.Sort

namespace Igd.Extents

open Extent

variable {e f x : Extent} {l l' : List Extent}

instance : Std.Symm Apart := ⟨fun _ _ h => h.symm⟩

theorem InOrder.eq_of_shared (h : InOrder l) (he : e ∈ l) (hf : f ∈ l) {offset : Nat}
    (hoffset : offset ∈ e) (hshared : offset ∈ f) : e = f := by
  by_contra hne
  exact h.pairwise_apart.forall he hf hne offset ⟨hoffset, hshared⟩

/-- **A range that is held lies in one extent.**  The induction passes the extents that end
before the range begins, which hold none of it. -/
theorem InOrder.in_one (h : InOrder l) (hx : x.start < x.stop)
    (hheld : ∀ offset ∈ x, ∃ e ∈ l, offset ∈ e) :
    ∃ e ∈ l, e.start ≤ x.start ∧ x.stop ≤ e.stop := by
  induction l with
  | nil => simpa using hheld x.start ⟨Nat.le_refl _, hx⟩
  | cons e rest ih =>
    by_cases hfirst : x.start ∈ e
    · refine ⟨e, by simp, hfirst.1, ?_⟩
      -- Were the range longer, `e.stop` would be held, but the next extent starts above it.
      by_contra hlonger
      obtain ⟨f, hf, hend⟩ := hheld e.stop ⟨Nat.le_of_lt hfirst.2, by omega⟩
      rw [mem_iff] at hend
      rcases List.mem_cons.mp hf with rfl | hf
      · omega
      · have := h.lt_of_mem hf
        omega
    · obtain ⟨f, hf, hstart⟩ := hheld x.start ⟨Nat.le_refl _, hx⟩
      have hrest : f ∈ rest := (List.mem_cons.mp hf).resolve_left fun heq => hfirst (heq ▸ hstart)
      have hpassed : e.stop < x.start := by
        have hlt := h.lt_of_mem hrest
        rw [mem_iff] at hfirst hstart
        have he := h.holds e (by simp)
        omega
      have hbehind : ∀ offset ∈ x, ∃ g ∈ rest, offset ∈ g := by
        intro offset hoffset
        obtain ⟨g, hg, hin⟩ := hheld offset hoffset
        refine ⟨g, (List.mem_cons.mp hg).resolve_left ?_, hin⟩
        rintro rfl
        rw [mem_iff] at hoffset hin
        omega
      obtain ⟨g, hg, hin⟩ := ih h.tail hbehind
      exact ⟨g, List.mem_cons_of_mem _ hg, hin⟩

theorem InOrder.mem_of_held_iff (h : InOrder l) (h' : InOrder l')
    (hsame : ∀ offset, (∃ e ∈ l, offset ∈ e) ↔ ∃ e ∈ l', offset ∈ e) (he : e ∈ l) : e ∈ l' := by
  have hpos := h.holds e he
  obtain ⟨f, hf, hef⟩ := h'.in_one hpos fun offset ho => (hsame offset).mp ⟨e, he, ho⟩
  obtain ⟨g, hg, hfg⟩ :=
    h.in_one (h'.holds f hf) fun offset ho => (hsame offset).mpr ⟨f, hf, ho⟩
  have hshared : e.start ∈ g := ⟨Nat.le_trans hfg.1 hef.1, by omega⟩
  have heq : e = g := h.eq_of_shared he hg ⟨Nat.le_refl _, hpos⟩ hshared
  obtain ⟨start, stop⟩ := e
  obtain ⟨start', stop'⟩ := f
  subst heq
  obtain rfl : start' = start := Nat.le_antisymm hef.1 hfg.1
  obtain rfl : stop' = stop := Nat.le_antisymm hfg.2 hef.2
  exact hf

theorem InOrder.ascending (h : InOrder l) : l.Pairwise fun x y => x.start < y.start :=
  h.apart.imp_of_mem fun hx _ hlt => Nat.lt_trans (h.holds _ hx) hlt

/-- **Lists in order that hold the same offsets are the same.**  So an allocator is back where
it was as soon as the same offsets are free, however they came to be. -/
theorem InOrder.ext (h : InOrder l) (h' : InOrder l')
    (hsame : ∀ offset, (∃ e ∈ l, offset ∈ e) ↔ ∃ e ∈ l', offset ∈ e) : l = l' := by
  have : Std.Irrefl fun x y : Extent => x.start < y.start := ⟨fun _ => Nat.lt_irrefl _⟩
  have : Std.Antisymm fun x y : Extent => x.start < y.start :=
    ⟨fun _ _ hlt hgt => absurd hlt (Nat.lt_asymm hgt)⟩
  refine h.ascending.eq_of_mem_iff h'.ascending fun e => ?_
  exact ⟨h.mem_of_held_iff h' hsame, h'.mem_of_held_iff h fun offset => (hsame offset).symm⟩

end Igd.Extents
