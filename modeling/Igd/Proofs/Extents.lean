/-
Putting a block back undoes taking it out.

Both allocators keep their free memory as a list of extents, take a block out by
splitting one extent in two and put it back by `insert`, which joins whatever the
block touches.  `insert_take` says that the second undoes the first, for every
list in order and every block inside one of its extents: not only the free bytes
but the list itself is what it was.

The order is `InOrder`: extents that hold something, each ending before the next
begins.  Before the next begins, and not where it begins; were two extents to
touch, putting a block back could join them as well.
-/
import Igd.Extents
import Mathlib.Data.List.Basic

namespace Igd.Extents

/-- Extents in ascending order that hold something and do not touch. -/
structure InOrder (l : List Extent) : Prop where
  /-- No extent is empty. -/
  holds : ∀ e ∈ l, e.start < e.stop
  /-- Each extent ends before those after it start. -/
  apart : l.Pairwise fun x y => x.stop < y.start

/-- The extents of a list that hold something. -/
def kept (l : List Extent) : List Extent := l.filter fun e => decide (e.start < e.stop)

@[simp] theorem kept_nil : kept [] = [] := rfl

@[simp] theorem kept_cons (e : Extent) (l : List Extent) :
    kept (e :: l) = if e.start < e.stop then e :: kept l else kept l := by
  simp [kept, List.filter_cons]

theorem mem_kept {x : Extent} {l : List Extent} :
    x ∈ kept l ↔ x ∈ l ∧ x.start < x.stop := by
  simp [kept]

theorem inOrder_singleton {e : Extent} (h : e.start < e.stop) : InOrder [e] :=
  ⟨by simpa using h, List.pairwise_singleton _ _⟩

theorem InOrder.tail {e : Extent} {l : List Extent} (h : InOrder (e :: l)) : InOrder l :=
  ⟨fun x hx => h.holds x (List.mem_cons_of_mem _ hx), (List.pairwise_cons.mp h.apart).2⟩

theorem InOrder.lt_of_mem {e x : Extent} {l : List Extent} (h : InOrder (e :: l))
    (hx : x ∈ l) : e.stop < x.start := (List.pairwise_cons.mp h.apart).1 x hx

/-! ### Putting back -/

theorem joinFront_of_lt {x : Extent} {l : List Extent} (h : ∀ e ∈ l, x.stop < e.start) :
    joinFront x l = x :: l := by
  cases l with
  | nil => rfl
  | cons e rest =>
    have hlt := h e (by simp)
    simp only [joinFront]
    rw [if_neg (by omega)]

theorem insert_of_lt {x : Extent} {l : List Extent} (hx : x.start < x.stop)
    (hl : ∀ e ∈ l, x.stop < e.start) (hholds : ∀ e ∈ l, e.start < e.stop) :
    insert x l = x :: l := by
  cases l with
  | nil => rfl
  | cons e rest =>
    have hlt := hl e (by simp)
    have hpos := hholds e (by simp)
    simp only [insert]
    rw [if_neg (by omega), if_neg (by omega)]
    exact joinFront_of_lt hl

/-- The block is put back beside what its extent was split into.  Either side may have been
empty, and then it was not kept. -/
theorem insert_sides {e : Extent} {after : List Extent} {start stop : Nat}
    (h : InOrder (e :: after)) (hstart : e.start ≤ start) (hlt : start < stop)
    (hstop : stop ≤ e.stop) :
    insert ⟨start, stop⟩ (kept [⟨e.start, start⟩, ⟨stop, e.stop⟩] ++ after) = e :: after := by
  have hafter : ∀ x ∈ after, e.stop < x.start := fun x hx => h.lt_of_mem hx
  have hholds : ∀ x ∈ after, x.start < x.stop := h.tail.holds
  rcases Nat.eq_or_lt_of_le hstart with hs | hs <;>
    rcases Nat.eq_or_lt_of_le hstop with ht | ht
  · -- The block is the whole extent.
    subst hs ht
    simpa using insert_of_lt (x := e) hlt hafter hholds
  · -- Something is left behind it.
    subst hs
    have hne : ¬ e.stop = e.start := by omega
    have hnlt : ¬ stop < e.start := by omega
    simp [ht, insert, hne, hnlt, joinFront]
  · -- Something is left in front of it.
    subst ht
    simpa [hs, insert] using joinFront_of_lt (x := e) hafter
  · -- Something is left on both sides.
    simp [hs, ht, insert, joinFront]

/-- **Putting a block back gives the list that it was taken from.**  The induction
is on the extents in front of the one that was split: all of them end before it
starts, so `insert` walks past. -/
theorem insert_take {before after : List Extent} {e : Extent} {start stop : Nat}
    (h : InOrder (before ++ e :: after)) (hstart : e.start ≤ start) (hlt : start < stop)
    (hstop : stop ≤ e.stop) :
    insert ⟨start, stop⟩ (before ++ kept [⟨e.start, start⟩, ⟨stop, e.stop⟩] ++ after)
      = before ++ e :: after := by
  induction before with
  | nil => exact insert_sides h hstart hlt hstop
  | cons x rest ih =>
    have hx : x.stop < e.start := h.lt_of_mem (by simp)
    have hpos : x.start < x.stop := h.holds x (by simp)
    simp only [List.cons_append, insert] at ih ⊢
    rw [if_neg (by omega), if_pos (by omega), ih h.tail]

/-! ### Taking out -/

theorem inOrder_take {before after : List Extent} {e : Extent} {start stop : Nat}
    (h : InOrder (before ++ e :: after)) (hstart : e.start ≤ start) (hlt : start < stop)
    (hstop : stop ≤ e.stop) :
    InOrder (before ++ kept [⟨e.start, start⟩, ⟨stop, e.stop⟩] ++ after) := by
  obtain ⟨hbefore, hrest, hcross⟩ := List.pairwise_append.mp h.apart
  obtain ⟨hafter, hapart⟩ := List.pairwise_cons.mp hrest
  have hside : ∀ x ∈ kept [⟨e.start, start⟩, ⟨stop, e.stop⟩],
      e.start ≤ x.start ∧ x.stop ≤ e.stop := by
    intro x hx
    obtain ⟨hmem, hpos⟩ := mem_kept.mp hx
    simp only [List.mem_cons, List.not_mem_nil, or_false] at hmem
    rcases hmem with rfl | rfl <;> simp only at hpos ⊢ <;> omega
  constructor
  · intro x hx
    simp only [List.append_assoc, List.mem_append] at hx
    rcases hx with hx | hx | hx
    · exact h.holds x (by simp [hx])
    · exact (mem_kept.mp hx).2
    · exact h.holds x (by simp [hx])
  · rw [List.append_assoc, List.pairwise_append]
    refine ⟨hbefore, ?_, ?_⟩
    · rw [List.pairwise_append]
      refine ⟨?_, hapart, ?_⟩
      · refine List.Pairwise.filter _ ?_
        simpa using hlt
      · intro x hx y hy
        have := (hside x hx).2
        have := hafter y hy
        omega
    · intro x hx y hy
      rcases List.mem_append.mp hy with hy | hy
      · have := (hside y hy).1
        have := hcross x hx e (by simp)
        omega
      · exact hcross x hx y (by simp [hy])

/-! ### Searching -/

/-- What a search comes to.  It passes the extents in which the rule for placing chooses no
offset, and ends at the first in which it chooses one.  This is the only induction over a
search; what follows is read off it. -/
theorem firstFit_spec (place : Extent → Option Nat) (l : List Extent) :
    match firstFit place l with
    | none => ∀ e ∈ l, place e = none
    | some fit => l = fit.before ++ fit.found :: fit.after ∧ place fit.found = some fit.start ∧
        ∀ e ∈ fit.before, place e = none := by
  induction l with
  | nil => simp [firstFit]
  | cons e rest ih =>
    cases hplace : place e with
    | some start => simp [firstFit, hplace]
    | none =>
      cases hrest : firstFit place rest with
      | none =>
        rw [hrest] at ih
        simpa [firstFit, hplace, hrest] using ih
      | some fit =>
        rw [hrest] at ih
        obtain ⟨hlist, hfound, hpassed⟩ := ih
        simp only [firstFit, hplace, hrest, Option.map_some]
        exact ⟨congrArg (e :: ·) hlist, hfound, List.forall_mem_cons.mpr ⟨hplace, hpassed⟩⟩

variable {place : Extent → Option Nat} {l : List Extent} {fit : Fit}

/-- What a search finds: an extent of the list with its surroundings, and an offset
that the rule for placing chose in it. -/
theorem firstFit_eq_some (h : firstFit place l = some fit) :
    l = fit.before ++ fit.found :: fit.after ∧ place fit.found = some fit.start := by
  have hspec := firstFit_spec place l
  rw [h] at hspec
  exact ⟨hspec.1, hspec.2.1⟩

theorem firstFit_passed (h : firstFit place l = some fit) : ∀ e ∈ fit.before, place e = none := by
  have hspec := firstFit_spec place l
  rw [h] at hspec
  exact hspec.2.2

theorem firstFit_eq_none (h : firstFit place l = none) : ∀ e ∈ l, place e = none := by
  have hspec := firstFit_spec place l
  rwa [h] at hspec

end Igd.Extents
