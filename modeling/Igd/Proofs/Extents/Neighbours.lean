/-
The two neighbours of a block speak for the whole list.

A block is put back between the extents that start below it and the others, and only
the two extents at that place are looked at: whether the block overlaps one of them, and
whether it touches one of them.  In a list in order nothing more is to be seen.  An
extent further in front ends before the neighbour starts, and one further behind starts
after the neighbour ends, so neither can share an offset with a block that the
neighbour does not share one with.

Both facts are inductions along the extents that start below the block.
-/
import Igd.Proofs.Extents.Insert
import Mathlib.Data.List.TakeWhile

namespace Igd.Extents

open Extent

variable {x e : Extent} {l : List Extent}

theorem startingBelow_cons_of_lt {offset : Nat} (h : e.start < offset) :
    startingBelow offset (e :: l) = e :: startingBelow offset l :=
  List.takeWhile_cons_of_pos (by simpa using h)

theorem startingBelow_cons_of_le {offset : Nat} (h : offset ≤ e.start) :
    startingBelow offset (e :: l) = [] :=
  List.takeWhile_cons_of_neg (by simpa using h)

theorem startingFrom_cons_of_lt {offset : Nat} (h : e.start < offset) :
    startingFrom offset (e :: l) = startingFrom offset l :=
  List.dropWhile_cons_of_pos (by simpa using h)

theorem startingFrom_cons_of_le {offset : Nat} (h : offset ≤ e.start) :
    startingFrom offset (e :: l) = e :: l :=
  List.dropWhile_cons_of_neg (by simpa using h)

theorem of_mem_startingBelow {offset : Nat} (h : e ∈ startingBelow offset l) :
    e ∈ l ∧ e.start < offset := by
  refine ⟨(List.takeWhile_prefix _).subset h, ?_⟩
  simpa using List.mem_takeWhile_imp h

/-- **A block that overlaps neither neighbour overlaps nothing.**  The extents are in order, so
whatever lies beyond a neighbour is still further from the block. -/
theorem overlapsNeighbour_eq_false_iff (hx : x.start < x.stop) (h : InOrder l) :
    overlapsNeighbour (startingBelow x.start l) x (startingFrom x.start l) = false ↔
      ∀ e ∈ l, Apart x e := by
  induction l with
  | nil => simp [overlapsNeighbour, startingBelow, startingFrom]
  | cons e rest ih =>
    have he : e.start < e.stop := h.holds e (by simp)
    have hrest := ih h.tail
    have hends := apart_iff hx he
    by_cases hlt : e.start < x.start
    · rw [startingBelow_cons_of_lt hlt, startingFrom_cons_of_lt hlt, List.forall_mem_cons]
      cases hbelow : startingBelow x.start rest with
      | nil =>
        -- `e` is the neighbour in front.
        have hfront : overlapsNeighbour [e] x (startingFrom x.start rest) = false ↔
            e.stop ≤ x.start ∧
              overlapsNeighbour [] x (startingFrom x.start rest) = false := by
          simp [overlapsNeighbour]
        rw [hbelow] at hrest
        rw [hfront, hrest, hends]
        exact and_congr_left' ⟨.inr, fun ho => ho.resolve_left (by omega)⟩
      | cons z more =>
        -- `e` ends before `z`, which starts below the block as well.
        have hmem : z ∈ startingBelow x.start rest := by simp [hbelow]
        have hz := of_mem_startingBelow hmem
        have hapart : Apart x e := by
          have := h.lt_of_mem hz.1
          rw [hends]
          omega
        have hlast : overlapsNeighbour (e :: z :: more) x (startingFrom x.start rest)
            = overlapsNeighbour (z :: more) x (startingFrom x.start rest) := by
          simp only [overlapsNeighbour, List.getLast?_cons_cons]
        rw [hbelow] at hrest
        rw [hlast, hrest]
        exact ⟨fun hall => ⟨hapart, hall⟩, And.right⟩
    · have hle : x.start ≤ e.start := Nat.le_of_not_lt hlt
      have hbehind : overlapsNeighbour [] x (e :: rest) = false ↔ x.stop ≤ e.start := by
        simp [overlapsNeighbour]
      rw [startingBelow_cons_of_le hle, startingFrom_cons_of_le hle, hbehind]
      constructor
      · intro hstop y hy
        rcases List.mem_cons.mp hy with rfl | hy
        · exact hends.mpr (.inl hstop)
        · have hfirst := h.lt_of_mem hy
          exact (apart_iff hx (h.tail.holds y hy)).mpr (.inl (by omega))
      · intro hall
        have := hends.mp (hall e (by simp))
        omega

/-- An extent that ends before the others start is joined to none of them. -/
theorem splice_cons_of_lt {before after : List Extent}
    (h : ∀ y ∈ before ++ after, e.stop < y.start) :
    splice (e :: before) after = e :: splice before after := by
  cases before with
  | nil => exact joinFront_of_lt (by simpa using h)
  | cons z more => rfl

/-- Joining on the one side and then on the other is joining on both. -/
theorem joinFront_joinFront (htouch : e.stop = x.start) :
    joinFront e (joinFront x l) = joinFront ⟨e.start, x.stop⟩ l := by
  cases l with
  | nil => simp [joinFront, htouch]
  | cons y rest =>
    simp only [joinFront]
    by_cases hy : x.stop = y.start
    · rw [if_pos hy, if_pos hy]
      exact if_pos htouch
    · rw [if_neg hy, if_neg hy]
      exact if_pos htouch

/-- **Joining a block to its neighbours is putting it back**, if it overlaps nothing.  The one
cuts the list at the start of the block and the other walks it; the induction is on the extents
in front, which both leave as they are. -/
theorem splice_eq_insert (hx : x.start < x.stop) (hapart : ∀ e ∈ l, Apart x e)
    (h : InOrder l) :
    splice (startingBelow x.start l) (joinFront x (startingFrom x.start l)) = insert x l := by
  induction l with
  | nil => rfl
  | cons e rest ih =>
    have he : e.start < e.stop := h.holds e (by simp)
    have hends := (apart_iff hx he).mp (hapart e (by simp))
    have hrest := ih (fun y hy => hapart y (by simp [hy])) h.tail
    by_cases hlt : e.start < x.start
    · rw [startingBelow_cons_of_lt hlt, startingFrom_cons_of_lt hlt]
      by_cases htouch : e.stop = x.start
      · -- The others start behind `e`, and so none of them below the block.
        have hbehind : startingBelow x.start rest = [] ∧ startingFrom x.start rest = rest := by
          cases rest with
          | nil => exact ⟨rfl, rfl⟩
          | cons y more =>
            have hle : x.start ≤ y.start := by
              have := h.lt_of_mem (x := y) (by simp)
              omega
            exact ⟨startingBelow_cons_of_le hle, startingFrom_cons_of_le hle⟩
        rw [hbehind.1, hbehind.2]
        simp only [insert]
        rw [if_pos htouch]
        exact joinFront_joinFront htouch
      · simp only [insert]
        rw [if_neg htouch, if_pos hlt, ← hrest]
        refine splice_cons_of_lt fun y hy => ?_
        rcases List.mem_append.mp hy with hy | hy
        · exact h.lt_of_mem (of_mem_startingBelow hy).1
        · rcases start_of_mem_joinFront hy with hstart | ⟨z, hz, hstart⟩
          · omega
          · have := h.lt_of_mem ((List.dropWhile_suffix _).subset hz)
            omega
    · have hle : x.start ≤ e.start := Nat.le_of_not_lt hlt
      rw [startingBelow_cons_of_le hle, startingFrom_cons_of_le hle]
      simp only [insert]
      rw [if_neg (by omega), if_neg hlt]
      rfl

end Igd.Extents
