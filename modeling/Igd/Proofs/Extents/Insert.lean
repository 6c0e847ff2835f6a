/-
Putting a block back among the free extents.

A list of extents is read through the offsets it holds.  What is measured of it is
`Additive`: a measure that an extent has the same of whether it is cut in two or
not, such as how many offsets it holds, or whether it holds a given one.  `insert`
adds to the list exactly what the block measures, whatever it is joined to, and so
taking a block out of an extent removes exactly that.

`inOrder_insert` is the other half: a block that shares no offset with a list in
order leaves a list in order, with no two extents that touch.
-/
import Igd.Proofs.Extents
import Mathlib.Algebra.Order.BigOperators.Group.List
import Mathlib.Algebra.Order.Ring.Nat

namespace Igd

namespace Extent

instance : Membership Nat Extent := ⟨fun e offset => e.start ≤ offset ∧ offset < e.stop⟩

theorem mem_iff {offset : Nat} {e : Extent} : offset ∈ e ↔ e.start ≤ offset ∧ offset < e.stop :=
  Iff.rfl

instance (offset : Nat) (e : Extent) : Decidable (offset ∈ e) :=
  inferInstanceAs (Decidable (_ ∧ _))

/-- The number of offsets in an extent that does not end before it starts. -/
def size (e : Extent) : Nat := e.stop - e.start

/-- Two extents share no offset. -/
def Apart (x e : Extent) : Prop := ∀ offset, ¬ (offset ∈ x ∧ offset ∈ e)

theorem Apart.symm {x e : Extent} (h : Apart x e) : Apart e x := fun o ho => h o ho.symm

/-- Extents that hold something are apart when one ends before the other starts. -/
theorem apart_iff {x e : Extent} (hx : x.start < x.stop) (he : e.start < e.stop) :
    Apart x e ↔ x.stop ≤ e.start ∨ e.stop ≤ x.start := by
  constructor
  · intro h
    have hshared := h (max x.start e.start)
    simp only [mem_iff] at hshared
    omega
  · rintro h offset ⟨hx, he⟩
    simp only [mem_iff] at hx he
    omega

/-! ### Measures -/

/-- A measure of extents that does not change when an extent is cut in two. -/
def Additive (measure : Extent → Nat) : Prop :=
  ∀ a b c, a ≤ b → b ≤ c → measure ⟨a, b⟩ + measure ⟨b, c⟩ = measure ⟨a, c⟩

theorem size_additive : Additive size := by
  intro a b c hab hbc
  simp only [size]
  omega

/-- One for an extent that holds the offset, and zero for any other. -/
def holds (offset : Nat) (e : Extent) : Nat := if offset ∈ e then 1 else 0

theorem holds_pos {offset : Nat} {e : Extent} : 0 < holds offset e ↔ offset ∈ e := by
  unfold holds
  split <;> simp_all

theorem holds_additive (offset : Nat) : Additive (holds offset) := by
  intro a b c hab hbc
  simp only [holds, mem_iff]
  split <;> split <;> split <;> omega

section Additive

variable {measure : Extent → Nat} (hadd : Additive measure)
include hadd

theorem Additive.of_empty {e : Extent} (h : e.stop = e.start) : measure e = 0 := by
  obtain ⟨start, stop⟩ := e
  cases h
  have := hadd start start start (Nat.le_refl _) (Nat.le_refl _)
  omega

/-- Two extents that touch measure together what the one over both does. -/
theorem Additive.touching {x e : Extent} (htouch : x.stop = e.start) (hx : x.start ≤ x.stop)
    (he : e.start ≤ e.stop) : measure x + measure e = measure ⟨x.start, e.stop⟩ := by
  obtain ⟨start, stop⟩ := x
  cases htouch
  exact hadd start e.start e.stop hx he

theorem Additive.in_three {e : Extent} {start stop : Nat} (hstart : e.start ≤ start)
    (hlt : start ≤ stop) (hstop : stop ≤ e.stop) :
    measure ⟨e.start, start⟩ + measure ⟨start, stop⟩ + measure ⟨stop, e.stop⟩ = measure e := by
  rw [hadd e.start start stop hstart hlt, hadd e.start stop e.stop (Nat.le_trans hstart hlt) hstop]

end Additive

end Extent

namespace Extents

open Extent

/-- The sum of a measure over a list of extents. -/
def measured (measure : Extent → Nat) (l : List Extent) : Nat := (l.map measure).sum

@[simp] theorem measured_nil (measure : Extent → Nat) : measured measure [] = 0 := rfl

@[simp] theorem measured_cons (measure : Extent → Nat) (e : Extent) (l : List Extent) :
    measured measure (e :: l) = measure e + measured measure l := List.sum_cons

@[simp] theorem measured_append (measure : Extent → Nat) (l l' : List Extent) :
    measured measure (l ++ l') = measured measure l + measured measure l' := by
  simp [measured]

theorem measured_perm (measure : Extent → Nat) {l l' : List Extent} (h : l.Perm l') :
    measured measure l = measured measure l' := (h.map measure).sum_eq

theorem le_measured {measure : Extent → Nat} {e : Extent} {l : List Extent} (h : e ∈ l) :
    measure e ≤ measured measure l :=
  List.le_sum_of_mem (List.mem_map_of_mem h)

theorem exists_mem_of_measured_pos {offset : Nat} {l : List Extent}
    (h : 0 < measured (holds offset) l) : ∃ e ∈ l, offset ∈ e := by
  by_contra hnone
  push Not at hnone
  have hzero : measured (holds offset) l = 0 := by
    refine List.sum_eq_zero fun n hn => ?_
    obtain ⟨e, he, rfl⟩ := List.mem_map.mp hn
    exact if_neg (hnone e he)
  omega

theorem measured_pos_of_mem {offset : Nat} {e : Extent} {l : List Extent} (he : e ∈ l)
    (h : offset ∈ e) : 0 < measured (holds offset) l := by
  have hle : holds offset e ≤ measured (holds offset) l := le_measured he
  rw [holds, if_pos h] at hle
  exact hle

/-- An offset is measured just when an extent of the list holds it. -/
theorem measured_pos_iff {offset : Nat} {l : List Extent} :
    0 < measured (holds offset) l ↔ ∃ e ∈ l, offset ∈ e :=
  ⟨exists_mem_of_measured_pos, fun ⟨_, he, hoffset⟩ => measured_pos_of_mem he hoffset⟩

theorem stop_le {l : List Extent} {n : Nat} (hl : ∀ e ∈ l, e.start < e.stop)
    (h : ∀ offset, 0 < measured (holds offset) l → offset < n) : ∀ e ∈ l, e.stop ≤ n := by
  intro e he
  have hpos := hl e he
  have hlast : e.stop - 1 ∈ e := Extent.mem_iff.mpr (by omega)
  have := h _ (measured_pos_of_mem he hlast)
  omega

theorem lt_of_measured_pos {l : List Extent} {n offset : Nat} (hl : ∀ e ∈ l, e.stop ≤ n)
    (h : 0 < measured (holds offset) l) : offset < n := by
  obtain ⟨e, he, hoffset⟩ := exists_mem_of_measured_pos h
  exact Nat.lt_of_lt_of_le hoffset.2 (hl e he)

/-- Extents are apart from each other if no offset is counted twice.  Counting is carried
through splits and joins more easily than a relation between pairs. -/
theorem pairwise_apart {l : List Extent} (h : ∀ offset, measured (holds offset) l ≤ 1) :
    l.Pairwise Apart := by
  induction l with
  | nil => exact List.Pairwise.nil
  | cons x rest ih =>
    refine List.pairwise_cons.mpr ⟨?_, ih fun offset => ?_⟩
    · rintro e he offset ⟨hx, hoffset⟩
      have hcount := h offset
      have hrest : holds offset e ≤ measured (holds offset) rest := le_measured he
      simp only [measured_cons, holds, if_pos hx, if_pos hoffset] at hcount hrest
      omega
    · exact Nat.le_trans (by simp) (h offset)

theorem measured_le_one {l : List Extent} (h : l.Pairwise Apart) (offset : Nat) :
    measured (holds offset) l ≤ 1 := by
  induction l with
  | nil => exact Nat.zero_le _
  | cons x rest ih =>
    obtain ⟨hfirst, hrest⟩ := List.pairwise_cons.mp h
    rw [measured_cons]
    by_cases hx : offset ∈ x
    · have hnone : ¬ 0 < measured (holds offset) rest := by
        intro hpos
        obtain ⟨e, he, hoffset⟩ := exists_mem_of_measured_pos hpos
        exact hfirst e he offset ⟨hx, hoffset⟩
      rw [holds, if_pos hx]
      omega
    · rw [holds, if_neg hx, Nat.zero_add]
      exact ih hrest

theorem measured_sublist (measure : Extent → Nat) {l l' : List Extent} (h : l.Sublist l') :
    measured measure l ≤ measured measure l' :=
  (h.map measure).sum_le_sum fun _ _ => Nat.zero_le _

theorem measured_kept {measure : Extent → Nat} (hadd : Additive measure) {l : List Extent}
    (hl : ∀ e ∈ l, e.start ≤ e.stop) : measured measure (kept l) = measured measure l := by
  induction l with
  | nil => rfl
  | cons e rest ih =>
    have hrest := ih fun x hx => hl x (by simp [hx])
    have hle : e.start ≤ e.stop := hl e (by simp)
    rw [kept_cons, measured_cons]
    split
    · rw [measured_cons, hrest]
    · rw [hrest, hadd.of_empty (by omega : e.stop = e.start), Nat.zero_add]

theorem measured_take {measure : Extent → Nat} (hadd : Additive measure)
    {before after : List Extent} {e : Extent} {start stop : Nat} (hstart : e.start ≤ start)
    (hlt : start ≤ stop) (hstop : stop ≤ e.stop) :
    measured measure (before ++ kept [⟨e.start, start⟩, ⟨stop, e.stop⟩] ++ after)
      + measure ⟨start, stop⟩ = measured measure (before ++ e :: after) := by
  have hsides : ∀ x ∈ [(⟨e.start, start⟩ : Extent), ⟨stop, e.stop⟩], x.start ≤ x.stop := by
    simp [hstart, hstop]
  have hparts := hadd.in_three hstart hlt hstop
  simp only [measured_append, measured_kept hadd hsides, measured_cons, measured_nil]
  omega

/-! ### Joining -/

theorem measured_joinFront {measure : Extent → Nat} (hadd : Additive measure) {x : Extent}
    {l : List Extent} (hx : x.start ≤ x.stop) (hl : ∀ e ∈ l, e.start ≤ e.stop) :
    measured measure (joinFront x l) = measure x + measured measure l := by
  cases l with
  | nil => rfl
  | cons e rest =>
    have he : e.start ≤ e.stop := hl e (by simp)
    simp only [joinFront]
    split
    · rename_i htouch
      rw [measured_cons, measured_cons, ← Nat.add_assoc, hadd.touching htouch hx he]
    · rfl

/-- **A block put back adds what it measures**, wherever it goes and whatever it is joined to,
since an additive measure does not see where extents meet. -/
theorem measured_insert {measure : Extent → Nat} (hadd : Additive measure) {x : Extent}
    {l : List Extent} (hx : x.start ≤ x.stop) (hl : ∀ e ∈ l, e.start ≤ e.stop) :
    measured measure (insert x l) = measure x + measured measure l := by
  induction l with
  | nil => rfl
  | cons e rest ih =>
    have he : e.start ≤ e.stop := hl e (by simp)
    have hrest : ∀ y ∈ rest, y.start ≤ y.stop := fun y hy => hl y (by simp [hy])
    simp only [insert]
    split
    · -- The block begins where `e` ends.
      rename_i htouch
      have hjoin := hadd.touching htouch he hx
      rw [measured_joinFront hadd (by simp only; omega) hrest, measured_cons]
      omega
    · split
      · rw [measured_cons, measured_cons, ih hrest]
        omega
      · exact measured_joinFront hadd hx hl

/-! ### Order -/

theorem InOrder.pairwise_apart {l : List Extent} (h : InOrder l) : l.Pairwise Apart :=
  h.apart.imp fun hlt offset ⟨hx, hy⟩ => by
    simp only [mem_iff] at hx hy
    omega

/-- Joining and putting back begin no extent where none began. -/
theorem start_of_mem_joinFront {x y : Extent} {l : List Extent} (h : y ∈ joinFront x l) :
    y.start = x.start ∨ ∃ e ∈ l, y.start = e.start := by
  cases l with
  | nil =>
    rw [List.mem_singleton.mp h]
    exact .inl rfl
  | cons e rest =>
    simp only [joinFront] at h
    split at h
    · rcases List.mem_cons.mp h with rfl | hy
      · exact .inl rfl
      · exact .inr ⟨y, by simp [hy], rfl⟩
    · rcases List.mem_cons.mp h with rfl | hy
      · exact .inl rfl
      · exact .inr ⟨y, hy, rfl⟩

theorem start_of_mem_insert {x y : Extent} {l : List Extent} (h : y ∈ insert x l) :
    y.start = x.start ∨ ∃ e ∈ l, y.start = e.start := by
  induction l with
  | nil =>
    rw [List.mem_singleton.mp h]
    exact .inl rfl
  | cons e rest ih =>
    simp only [insert] at h
    split at h
    · rcases start_of_mem_joinFront h with hy | ⟨z, hz, hy⟩
      · exact .inr ⟨e, by simp, hy⟩
      · exact .inr ⟨z, by simp [hz], hy⟩
    · split at h
      · rcases List.mem_cons.mp h with rfl | hy
        · exact .inr ⟨y, by simp, rfl⟩
        · rcases ih hy with hy | ⟨z, hz, hy⟩
          · exact .inl hy
          · exact .inr ⟨z, by simp [hz], hy⟩
      · exact start_of_mem_joinFront h

theorem inOrder_cons {x : Extent} {l : List Extent} (hx : x.start < x.stop)
    (hl : ∀ e ∈ l, x.stop < e.start) (h : InOrder l) : InOrder (x :: l) :=
  ⟨by simpa [hx] using h.holds, List.pairwise_cons.mpr ⟨hl, h.apart⟩⟩

theorem inOrder_joinFront {x : Extent} {l : List Extent} (hx : x.start < x.stop)
    (hl : ∀ e ∈ l, x.stop ≤ e.start) (h : InOrder l) : InOrder (joinFront x l) := by
  cases l with
  | nil => exact inOrder_singleton hx
  | cons e rest =>
    have he : e.start < e.stop := h.holds e (by simp)
    have hfirst : x.stop ≤ e.start := hl e (by simp)
    have hrest : ∀ y ∈ rest, e.stop < y.start := fun y hy => h.lt_of_mem hy
    simp only [joinFront]
    split
    · exact inOrder_cons (by simp only; omega) hrest h.tail
    · refine inOrder_cons hx ?_ h
      intro y hy
      rcases List.mem_cons.mp hy with rfl | hy
      · omega
      · have := hrest y hy
        omega

/-- **A block put back leaves the list in order**, if no extent of it held any of
the block.  The induction walks the extents in front of the block; each ends before
it, so whatever the rest of the list becomes still starts behind them. -/
theorem inOrder_insert {x : Extent} {l : List Extent} (hx : x.start < x.stop)
    (hapart : ∀ e ∈ l, Apart x e) (h : InOrder l) : InOrder (insert x l) := by
  induction l with
  | nil => exact inOrder_singleton hx
  | cons e rest ih =>
    have he : e.start < e.stop := h.holds e (by simp)
    have hends := (apart_iff hx he).mp (hapart e (by simp))
    have hrest : ∀ y ∈ rest, e.stop < y.start := fun y hy => h.lt_of_mem hy
    simp only [insert]
    split
    · -- The block joins `e`; what follows `e` starts behind the block too.
      refine inOrder_joinFront (by simp only; omega) ?_ h.tail
      intro y hy
      have hpos := h.tail.holds y hy
      have hbehind := hrest y hy
      have := (apart_iff hx hpos).mp (hapart y (by simp [hy]))
      simp only
      omega
    · split
      · refine inOrder_cons he ?_ (ih (fun y hy => hapart y (by simp [hy])) h.tail)
        intro y hy
        rcases start_of_mem_insert hy with hy | ⟨z, hz, hy⟩
        · omega
        · have := hrest z hz
          omega
      · refine inOrder_joinFront hx ?_ h
        intro y hy
        rcases List.mem_cons.mp hy with rfl | hy
        · omega
        · have := hrest y hy
          omega

/-! ### Counting -/

/-- Extents in order between two offsets hold no more offsets than lie there.  The lower
one is where the extents before have ended. -/
theorem measured_size_le_sub {l : List Extent} {low high : Nat} (h : InOrder l)
    (hlow : ∀ e ∈ l, low ≤ e.start) (hhigh : ∀ e ∈ l, e.stop ≤ high) :
    measured size l ≤ high - low := by
  induction l generalizing low with
  | nil => exact Nat.zero_le _
  | cons e rest ih =>
    have he : e.start < e.stop := h.holds e (by simp)
    have hstart : low ≤ e.start := hlow e (by simp)
    have hstop : e.stop ≤ high := hhigh e (by simp)
    have hrest : measured size rest ≤ high - e.stop :=
      ih h.tail (fun y hy => Nat.le_of_lt (h.lt_of_mem hy)) fun y hy => hhigh y (by simp [hy])
    rw [measured_cons, size]
    omega

theorem measured_size_le {l : List Extent} {n : Nat} (h : InOrder l)
    (hn : ∀ e ∈ l, e.stop ≤ n) : measured size l ≤ n :=
  measured_size_le_sub h (fun _ _ => Nat.zero_le _) hn

theorem total_eq {l : List Extent} (hl : ∀ e ∈ l, e.start ≤ e.stop)
    (hfits : measured size l < wordCount) : total l = .ok (measured size l) := by
  induction l with
  | nil => rfl
  | cons e rest ih =>
    have he : e.start ≤ e.stop := hl e (by simp)
    rw [measured_cons] at hfits
    have hrest := ih (fun y hy => hl y (by simp [hy])) (by omega)
    have hadd : Checked.add (e.stop - e.start) (measured size rest)
        = .ok (e.size + measured size rest) := Checked.add_eq hfits
    simp only [total, Extent.length, Checked.sub_eq he, Checked.ok_bind, hrest, measured_cons,
      hadd]

end Extents

end Igd
