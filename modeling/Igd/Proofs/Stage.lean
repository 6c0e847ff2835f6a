/-
The order of stages.

Stages are a chain, and what is proved about going up or down it is proved from
one stage to the next: `below_induction` is that induction.  `descent` and `ascent`
list the stages between two points, and the lemmas open those lists one stage at
a time, in step with the induction.
-/
import Igd.Attachment.Stage
import Mathlib.Order.Lattice

namespace Igd.Stage

theorem rank_injective {s t : Stage} (h : s.rank = t.rank) : s = t := by
  cases s <;> cases t <;> first | rfl | exact absurd h (by decide)

instance : LinearOrder Stage where
  le_refl s := Nat.le_refl s.rank
  le_trans _ _ _ := Nat.le_trans
  le_antisymm _ _ hst hts := rank_injective (Nat.le_antisymm hst hts)
  le_total s t := Nat.le_total s.rank t.rank
  lt_iff_le_not_ge _ _ := Nat.lt_iff_le_and_not_ge
  toDecidableLE := inferInstance
  toDecidableEq := inferInstance
  toDecidableLT := inferInstance
  compare_eq_compareOfLessAndEq s t := by cases s <;> cases t <;> rfl

/-- What holds at the bottom and passes from each stage to the next holds at all.  Stages are
not built from each other, so this takes the place of their recursor. -/
theorem below_induction {P : Stage → Prop} (down : P .down)
    (next : ∀ s p, s.below = some p → P p → P s) (s : Stage) : P s := by
  have registers := next .registers _ rfl down
  have aperture := next .aperture _ rfl registers
  have ring := next .ring _ rfl aperture
  have statusPage := next .statusPage _ rfl ring
  have display := next .display _ rfl statusPage
  have interrupt := next .interrupt _ rfl display
  cases s <;> assumption

theorem below_lt {s p : Stage} (h : s.below = some p) : p < s := by
  cases s <;> cases h <;> decide

theorem le_below {s p t : Stage} (h : s.below = some p) (ht : t < s) : t ≤ p := by
  cases s <;> cases h <;> cases t <;> revert ht <;> decide

theorem le_iff_le_below {s p t : Stage} (h : s.below = some p) (hne : s ≠ t) :
    t ≤ s ↔ t ≤ p :=
  ⟨fun hle => le_below h (lt_of_le_of_ne hle hne.symm),
    fun hle => le_trans hle (le_of_lt (below_lt h))⟩

theorem registers_le {s p : Stage} (h : s.below = some p) : .registers ≤ s := by
  cases s <;> cases h <;> decide

theorem down_le (s : Stage) : .down ≤ s := Nat.zero_le s.rank

theorem le_down {s : Stage} (h : s ≤ .down) : s = .down := le_antisymm h (down_le s)

theorem le_interrupt (s : Stage) : s ≤ .interrupt := by
  cases s <;> decide

theorem mem_ascending {s : Stage} : s ∈ ascending ↔ .down < s := by
  cases s <;> decide

/-! ### Going down -/

theorem mem_descent {s t f : Stage} : s ∈ descent t f ↔ f < s ∧ s ≤ t := by
  have hdown : f < s → .down < s := lt_of_le_of_lt (down_le f)
  simp only [descent, List.mem_filter, List.mem_reverse, mem_ascending, Bool.and_eq_true,
    decide_eq_true_eq]
  exact ⟨fun h => h.2, fun h => ⟨hdown h.1, h⟩⟩

theorem descent_of_le {s f : Stage} (h : s ≤ f) : descent s f = [] := by
  refine List.eq_nil_iff_forall_not_mem.mpr fun t ht => ?_
  obtain ⟨hlow, hhigh⟩ := mem_descent.mp ht
  exact absurd (le_trans hhigh h) (not_le.mpr hlow)

theorem descent_self (s : Stage) : descent s s = [] := descent_of_le (le_refl s)

theorem descent_below {s p f : Stage} (h : s.below = some p) (hf : f < s) :
    descent s f = s :: descent p f := by
  cases s <;> cases h <;> cases f <;> first | rfl | exact absurd hf (by decide)

theorem descent_append {s m f : Stage} (hms : m ≤ s) (hfm : f ≤ m) :
    descent s f = descent s m ++ descent m f := by
  induction s using below_induction with
  | down =>
    obtain rfl := le_down hms
    rw [descent_self, List.nil_append]
  | next s p hp ih =>
    rcases eq_or_lt_of_le hms with rfl | hlt
    · rw [descent_self, List.nil_append]
    · rw [descent_below hp (lt_of_le_of_lt hfm hlt), descent_below hp hlt,
        ih (le_below hp hlt), List.cons_append]

/-- A floor above the top is no lower than the top itself. -/
theorem descent_min (s f : Stage) : descent s (min s f) = descent s f := by
  rcases le_total s f with h | h
  · rw [min_eq_left h, descent_self, descent_of_le h]
  · rw [min_eq_right h]

/-! ### Going up -/

/-- The stages above `floor` up to `top`, from the lowest up. -/
def ascent (floor top : Stage) : List Stage :=
  ascending.filter fun s => decide (floor < s) && decide (s ≤ top)

/-- Every stage above one, from the lowest up. -/
def above (s : Stage) : List Stage := ascent s .interrupt

theorem mem_ascent {s t f : Stage} : s ∈ ascent f t ↔ f < s ∧ s ≤ t := by
  rw [← mem_descent, descent, ascent, List.filter_reverse, List.mem_reverse]

theorem ascent_of_le {s t : Stage} (h : t ≤ s) : ascent s t = [] := by
  refine List.eq_nil_iff_forall_not_mem.mpr fun r hr => ?_
  obtain ⟨hlow, hhigh⟩ := mem_ascent.mp hr
  exact absurd (le_trans hhigh h) (not_le.mpr hlow)

theorem ascent_below {s p t : Stage} (h : s.below = some p) (ht : s ≤ t) :
    ascent p t = s :: ascent s t := by
  cases s <;> cases h <;> cases t <;> first | rfl | exact absurd ht (by decide)

theorem ascending_eq (s : Stage) : ascending = ascent .down s ++ above s := by
  cases s <;> rfl

theorem above_eq_nil {s : Stage} (h : above s = []) : s = .interrupt := by
  cases s <;> first | rfl | exact absurd h (by decide)

theorem below_of_above {s next : Stage} {rest : List Stage} (h : above s = next :: rest) :
    next.below = some s ∧ rest = above next := by
  cases s <;> cases h <;> exact ⟨rfl, rfl⟩

end Igd.Stage
