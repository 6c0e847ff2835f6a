/-
The same offsets in other pieces.

An allocator moves offsets between what is free and what is out.  It splits extents and
joins them, but it holds no offset more or less than before.  `Recut l l'` says so of two
lists: every additive measure gives both the same.  So whatever is known of the offsets of
a list is known of every list it is recut into, above all that no offset is in two of its
extents, and between which bounds they lie.  Where the pieces that are out are given, what is
left can still be cut in many ways, but in one way only that is in order.
-/
import Igd.Proofs.Extents.Canonical

namespace Igd.Extents

open Extent

/-- `l'` is `l` in other pieces. -/
def Recut (l l' : List Extent) : Prop :=
  ∀ measure, Extent.Additive measure → measured measure l' = measured measure l

namespace Recut

variable {l l' out : List Extent}

theorem refl (l : List Extent) : Recut l l := fun _ _ => rfl

theorem perm {l'' : List Extent} (h : Recut l l') (hperm : l'.Perm l'') : Recut l l'' :=
  fun measure hadd => (measured_perm measure hperm).symm.trans (h measure hadd)

theorem exists_mem_iff (h : Recut l l') (offset : Nat) :
    (∃ e ∈ l', offset ∈ e) ↔ ∃ e ∈ l, offset ∈ e := by
  rw [← measured_pos_iff, ← measured_pos_iff, h _ (holds_additive offset)]

/-- **Pieces of extents that are apart are apart**, since an offset is in no more of the pieces
than it was in of the extents. -/
theorem apart (h : Recut l l') (hl : l.Pairwise Apart) : l'.Pairwise Apart := by
  refine Extents.pairwise_apart fun offset => ?_
  rw [h _ (holds_additive offset)]
  exact measured_le_one hl offset

theorem within {low high : Nat} (h : Recut l l') (hl : ∀ e ∈ l, low ≤ e.start ∧ e.stop ≤ high)
    {x : Extent} (hx : x ∈ l') (hholds : x.start < x.stop) : low ≤ x.start ∧ x.stop ≤ high := by
  have hfirst : x.start ∈ x := mem_iff.mpr ⟨Nat.le_refl _, hholds⟩
  have hlast : x.stop - 1 ∈ x := mem_iff.mpr (by omega)
  obtain ⟨e, he, hstart⟩ := (h.exists_mem_iff _).mp ⟨x, hx, hfirst⟩
  obtain ⟨f, hf, hstop⟩ := (h.exists_mem_iff _).mp ⟨x, hx, hlast⟩
  have hlow := (hl e he).1
  have hhigh := (hl f hf).2
  rw [mem_iff] at hstart hstop
  omega

theorem take {before after : List Extent} {found : Extent} {start stop : Nat}
    (h : Recut l (before ++ found :: after ++ out)) (hstart : found.start ≤ start)
    (hlt : start ≤ stop) (hstop : stop ≤ found.stop) :
    Recut l (before ++ kept [⟨found.start, start⟩, ⟨stop, found.stop⟩] ++ after
      ++ ⟨start, stop⟩ :: out) := by
  intro measure hadd
  rw [← h measure hadd, measured_append, measured_append _ _ out, measured_cons,
    ← measured_take hadd hstart hlt hstop]
  omega

theorem insert {x : Extent} (h : Recut l (l' ++ x :: out)) (hx : x.start ≤ x.stop)
    (hl' : ∀ e ∈ l', e.start ≤ e.stop) : Recut l (Extents.insert x l' ++ out) := by
  intro measure hadd
  rw [← h measure hadd, measured_append, measured_append, measured_insert hadd hx hl',
    measured_cons]
  omega

/-- What is left beside the same pieces is the same, in other pieces. -/
theorem cancel {rest out' : List Extent} (h : Recut l (l' ++ out)) (h' : Recut l (rest ++ out'))
    (hout : out.Perm out') : Recut l' rest := by
  intro measure hadd
  have hwhole := (h' measure hadd).trans (h measure hadd).symm
  rw [measured_append, measured_append, measured_perm measure hout] at hwhole
  exact Nat.add_right_cancel hwhole

/-- **There is one way to cut offsets that is in order.** -/
theorem eq (h : Recut l l') (hl : InOrder l) (hl' : InOrder l') : l = l' :=
  hl.ext hl' fun offset => (h.exists_mem_iff offset).symm

end Recut

end Igd.Extents
