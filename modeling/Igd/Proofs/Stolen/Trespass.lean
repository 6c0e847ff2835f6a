/-
One block given back in the wrong place is enough for two blocks to overlap.

An allocator looks at whether a block that is given back overlaps what is free.  It does
not look at what is out, of which it keeps no more than a count.  So a block of another
allocator, or of the time before the allocator was made anew, is taken back wherever all
of its bytes are out, and these are then free while someone still holds them.

`Trespasses` is that moment: a block is taken back that shares bytes with a block out of
the same allocator, carved since it was last made.  As long as there was none, no byte of
an allocator is both free and out, or out twice, and its blocks do not overlap
(`Separate`).  After one, carving what is free does it, since the bytes in question are
counted twice, once as free and once as out, and carving moves them from the one to the
other without losing any.
-/
import Igd.Proofs.Stolen.Bank

namespace Igd.Stolen

open Extents

/-- The block was carved by allocator `on` since that was last made anew or closed. -/
def Lease.isCurrentOf (on : Nat) (x : Lease) : Bool := x.owner == on && x.current

@[simp] theorem Lease.isCurrentOf_outdate_self (on : Nat) (x : Lease) :
    (x.outdate on).isCurrentOf on = false := by
  by_cases h : x.owner = on
  · simp [isCurrentOf, outdate, h]
  · simp [isCurrentOf, h]

theorem Lease.isCurrentOf_outdate_of_ne {on other : Nat} (h : other ≠ on) (x : Lease) :
    (x.outdate on).isCurrentOf other = x.isCurrentOf other := by
  unfold outdate
  split
  · rename_i howner
    simp [isCurrentOf, howner, h.symm]
  · rfl

namespace Bank

/-- The current blocks of an allocator that are out. -/
def current (s : Bank) (on : Nat) : List Extent :=
  (s.out.filter (·.isCurrentOf on)).map fun x => x.block.extent

/-- The call gives back a block, and it is taken back, while a current block of the same
allocator that shares bytes with it is still out. -/
def Trespasses (s : Bank) : Call → Prop
  | .free index on => ∃ x a, s.out[index]? = some x ∧ s.allocators[on]? = some a ∧
      a.HasPlaceFor x.block ∧
      ∃ y ∈ s.out.eraseIdx index, y.isCurrentOf on ∧ ¬ Extent.Apart x.block.extent y.block.extent
  | _ => False

/-- In each allocator no offset is both free and in a current block, or in two of them. -/
def Separate (s : Bank) : Prop :=
  ∀ on a, s.allocators[on]? = some a →
    ∀ offset, measured (Extent.holds offset) (a.extents ++ s.current on) ≤ 1

variable {s s' : Bank} {c : Call}

/-! ### The current blocks -/

theorem mem_current {on : Nat} {e : Extent} :
    e ∈ s.current on ↔ ∃ x ∈ s.out, x.isCurrentOf on ∧ x.block.extent = e := by
  simp [current, and_assoc]

theorem current_mk (as : List Allocator) (on : Nat) :
    (⟨as, s.out⟩ : Bank).current on = s.current on := rfl

theorem Sound.current_eq_nil (h : s.Sound) {on : Nat} (hon : s.allocators.length ≤ on) :
    s.current on = [] := by
  rw [current, List.map_eq_nil_iff, List.filter_eq_nil_iff]
  intro x hx
  have howner := h.owners x hx
  have hne : x.owner ≠ on := by omega
  simp [Lease.isCurrentOf, hne]

theorem current_renew_self (on : Nat) (a : Allocator) : (s.renew on a).current on = [] := by
  rw [current, List.map_eq_nil_iff, List.filter_eq_nil_iff]
  intro x hx
  obtain ⟨y, -, rfl⟩ := List.mem_map.mp hx
  simp

theorem current_renew_of_ne {on other : Nat} (h : other ≠ on) (a : Allocator) :
    (s.renew on a).current other = s.current other := by
  unfold current renew
  simp only [List.filter_map, List.map_map]
  have hfilter : (Lease.isCurrentOf other) ∘ (Lease.outdate on) = Lease.isCurrentOf other :=
    funext (Lease.isCurrentOf_outdate_of_ne h)
  have hblock : (fun x : Lease => x.block.extent) ∘ (Lease.outdate on)
      = fun x => x.block.extent := by
    funext x
    simp
  rw [hfilter, hblock]

theorem current_carved_self (as : List Allocator) (b : Block) (on : Nat) :
    (⟨as, ⟨b, on, true⟩ :: s.out⟩ : Bank).current on = b.extent :: s.current on := by
  simp [current, Lease.isCurrentOf]

theorem current_carved_of_ne (as : List Allocator) (b : Block) {on other : Nat}
    (h : other ≠ on) : (⟨as, ⟨b, on, true⟩ :: s.out⟩ : Bank).current other = s.current other := by
  simp [current, Lease.isCurrentOf, h.symm]

theorem current_eraseIdx (as : List Allocator) (index on : Nat) :
    ((⟨as, s.out.eraseIdx index⟩ : Bank).current on).Sublist (s.current on) :=
  ((List.eraseIdx_sublist s.out index).filter _).map _

/-! ### Without a trespass -/

theorem Separate.none : none.Separate := by
  intro on a ha
  simp [Bank.none] at ha

theorem measured_ofLength_le_one (length offset : Nat) :
    measured (Extent.holds offset) (Allocator.ofLength length).extents ≤ 1 :=
  measured_le_one (Allocator.Tidy.ofLength length).order.pairwise_apart offset

/-- An offset that becomes free with a block was not free, and is in no current block unless
one that is still out shares it with the block. -/
theorem Separate.takenBack {index on : Nat} {x : Lease} {a : Allocator} (hs : s.Separate)
    (h : s.Sound) (ha : s.allocators[on]? = some a) (hplace : a.HasPlaceFor x.block)
    (hshares : ¬ ∃ y ∈ s.out.eraseIdx index, y.isCurrentOf on ∧
      ¬ Extent.Apart x.block.extent y.block.extent) (offset : Nat) :
    measured (Extent.holds offset) ((a.afterFreeing x.block).extents ++ Bank.current
      ⟨s.allocators.set on (a.afterFreeing x.block), s.out.eraseIdx index⟩ on) ≤ 1 := by
  have htidy := h.tidy a (List.mem_of_getElem? ha)
  rw [measured_append, htidy.measured_afterFreeing (Extent.holds_additive offset)]
  by_cases hoffset : offset ∈ x.block.extent
  · have hfree : ¬ 0 < measured (Extent.holds offset) a.extents := by
      rw [measured_pos_iff]
      rintro ⟨e, he, hshared⟩
      exact hplace.1 e he offset ⟨hoffset, hshared⟩
    have hout : ¬ 0 < measured (Extent.holds offset) (Bank.current
        ⟨s.allocators.set on (a.afterFreeing x.block), s.out.eraseIdx index⟩ on) := by
      rw [measured_pos_iff]
      rintro ⟨e, he, hshared⟩
      obtain ⟨y, hy, hcurrent, rfl⟩ := mem_current.mp he
      exact hshares ⟨y, hy, hcurrent, fun hapart => hapart offset ⟨hoffset, hshared⟩⟩
    rw [Extent.holds, if_pos hoffset]
    omega
  · have hbefore := hs on a ha offset
    have hfewer := measured_sublist (Extent.holds offset)
      (current_eraseIdx (s := s) (s.allocators.set on (a.afterFreeing x.block)) index on)
    rw [measured_append] at hbefore
    rw [Extent.holds, if_neg hoffset]
    omega

/-- **A call that does not trespass keeps what is free and what is out separate.** -/
theorem Separate.kept (hs : s.Separate) (h : s.Sound) (hchanges : s.Changes c s')
    (hclean : ¬ s.Trespasses c) : s'.Separate := by
  intro other a' ha' offset
  have hadd := Extent.holds_additive offset
  cases hchanges with
  | nothing => exact hs other a' ha' offset
  | added length hword =>
    rcases Nat.lt_or_ge other s.allocators.length with hold | hnew
    · rw [List.getElem?_append_left hold] at ha'
      exact hs other a' ha' offset
    · rw [List.getElem?_append_right hnew] at ha'
      obtain rfl := List.mem_singleton.mp (List.mem_of_getElem? ha')
      rw [current_mk, h.current_eq_nil hnew, List.append_nil]
      exact measured_ofLength_le_one length offset
  | renewed on length hword =>
    rcases getElem?_set_cases ha' with ⟨rfl, rfl⟩ | ⟨hne, ha⟩
    · rw [current_renew_self, List.append_nil]
      exact measured_ofLength_le_one length offset
    · rw [current_renew_of_ne hne]
      exact hs other a' ha offset
  | carved ha hcarved hsize =>
    rcases getElem?_set_cases ha' with ⟨rfl, rfl⟩ | ⟨hne, ha'⟩
    · have hbefore := hs _ _ ha offset
      have htaken := hcarved.taken _ hadd
      rw [current_carved_self]
      rw [measured_append] at hbefore ⊢
      rw [measured_cons]
      omega
    · rw [current_carved_of_ne _ _ hne]
      exact hs other a' ha' offset
  | takenBack hx ha hplace =>
    rcases getElem?_set_cases ha' with ⟨rfl, rfl⟩ | ⟨-, ha'⟩
    · refine hs.takenBack h ha hplace (fun hshares => ?_) offset
      exact hclean ⟨_, _, hx, ha, hplace, hshares⟩
    · refine Nat.le_trans ?_ (hs other a' ha' offset)
      exact measured_sublist _ ((List.Sublist.refl _).append (current_eraseIdx _ _ other))
  | refused hx ha hplace =>
    refine Nat.le_trans ?_ (hs other a' ha' offset)
    exact measured_sublist _ ((List.Sublist.refl _).append (current_eraseIdx _ _ other))

/-- None of the calls is a trespass when it is made. -/
def CleanDuring (s : Bank) (calls : List Call) : Prop :=
  ∀ made c, made ++ [c] <+: calls → ∀ t, s.run made = .ok t → ¬ t.Trespasses c

theorem CleanDuring.head {rest : List Call} (h : s.CleanDuring (c :: rest)) : ¬ s.Trespasses c :=
  h [] c (List.cons_prefix_cons.mpr ⟨rfl, List.nil_prefix⟩) s rfl

theorem CleanDuring.tail {rest : List Call} (h : s.CleanDuring (c :: rest))
    (hstep : s.step c = .ok s') : s'.CleanDuring rest := by
  intro made d hmade t hrun
  refine h (c :: made) d (List.cons_prefix_cons.mpr ⟨rfl, hmade⟩) t ?_
  rw [run_cons hstep]
  exact hrun

theorem Separate.run {calls : List Call} (hs : s.Separate) (h : s.Sound)
    (hclean : s.CleanDuring calls) (hrun : s.run calls = .ok s') : s'.Sound ∧ s'.Separate := by
  induction calls generalizing s with
  | nil =>
    cases hrun
    exact ⟨h, hs⟩
  | cons c rest ih =>
    obtain ⟨next, hstep, hrest⟩ := run_cons_ok hrun
    have hchanges := h.changes hstep
    exact ih (hs.kept h hchanges hclean.head) (h.kept hchanges) (hclean.tail hstep) hrest

theorem Separate.apart (hs : s.Separate) (h : s.Sound) (on : Nat) :
    (s.current on).Pairwise Extent.Apart := by
  cases ha : s.allocators[on]? with
  | none =>
    rw [h.current_eq_nil (List.getElem?_eq_none_iff.mp ha)]
    exact List.Pairwise.nil
  | some a =>
    refine pairwise_apart fun offset => ?_
    have hboth := hs on a ha offset
    rw [measured_append] at hboth
    omega

/-! ### After a trespass -/

/-- The calls that carve these sizes, at these alignments, from one allocator. -/
def requests (on : Nat) (asked : List (UInt64 × UInt64)) : List Call :=
  asked.map fun r => .allocate on r.1 r.2

/-- Carving from the allocator can make two of its current blocks overlap. -/
def CanOverlap (s : Bank) (on : Nat) : Prop :=
  ∃ asked t, s.run (requests on asked) = .ok t ∧ ¬ (t.current on).Pairwise Extent.Apart

theorem cleanDuring_of_forall {calls : List Call} (h : ∀ c ∈ calls, ∀ t : Bank, ¬ t.Trespasses c) :
    s.CleanDuring calls :=
  fun _ c hmade t _ => h c (hmade.subset (by simp)) t

theorem clean_requests (s : Bank) (on : Nat) (asked : List (UInt64 × UInt64)) :
    s.CleanDuring (requests on asked) := by
  refine cleanDuring_of_forall fun c hc t => ?_
  obtain ⟨r, -, rfl⟩ := List.mem_map.mp hc
  exact id

end Bank

namespace Allocator

theorem Tidy.allocate_first {a : Allocator} {e : Extent} {rest : List Extent} (ha : a.Tidy)
    (hword : a.length < wordCount) (hfirst : a.extents = e :: rest)
    (hcount : a.blocksOut + 1 < wordCount) :
    a.allocate (e.stop - e.start) 1 = .ok (.ok ⟨e.start, e.stop - e.start⟩,
      { a with extents := rest, blocksOut := a.blocksOut + 1 }) := by
  have hmem : e ∈ a.extents := by simp [hfirst]
  have hholds : e.start < e.stop := ha.order.holds e hmem
  have hstop : e.stop ≤ a.length := ha.within e hmem
  have hround : roundUp? (1 - 1) e.start = some e.start := by
    have hstart : e.start < wordCount := by omega
    simp [roundUp?, hstart]
  have hplace : place (e.stop - e.start) (1 - 1) e = some e.start := by
    simp only [place, hround]
    rw [if_pos (by omega)]
  have hfit : firstFit (place (e.stop - e.start) (1 - 1)) a.extents
      = some ⟨[], e, rest, e.start⟩ := by
    rw [hfirst, firstFit, hplace]
  have hafter : e.start + (e.stop - e.start) = e.stop := by omega
  rw [allocate_valid (by omega) (by decide), hfit]
  simp only [if_pos hcount, afterCarving, Fit.sides, hafter, kept_cons, kept_nil, Nat.lt_irrefl,
    if_false, List.nil_append]

end Allocator

namespace Bank

variable {s s' : Bank} {c : Call}

/-- **All that is free can be carved**, and is out then with what was out before. -/
theorem Sound.drain (h : s.Sound) {on : Nat} {a : Allocator} (ha : s.allocators[on]? = some a)
    (hroom : a.blocksOut + a.extents.length < wordCount) :
    ∃ asked t, s.run (requests on asked) = .ok t ∧
      ∀ measure,
        measured measure (t.current on) = measured measure (a.extents ++ s.current on) := by
  induction hextents : a.extents generalizing s a with
  | nil => exact ⟨[], s, rfl, fun _ => rfl⟩
  | cons e rest ih =>
    have hin : a ∈ s.allocators := List.mem_of_getElem? ha
    have hmem : e ∈ a.extents := by simp [hextents]
    have hholds := (h.tidy a hin).order.holds e hmem
    have hstop := (h.tidy a hin).within e hmem
    have hword := h.lengths a hin
    have hsize : (UInt64.ofNat (e.stop - e.start)).toNat = e.stop - e.start :=
      UInt64.toNat_ofNat_of_lt' (by simp only [wordCount, UInt64.size] at *; omega)
    rw [hextents, List.length_cons] at hroom
    have hcarve := (h.tidy a hin).allocate_first hword hextents (by omega)
    obtain ⟨hon, -⟩ := List.getElem?_eq_some_iff.mp ha
    -- The bank once the first free extent is carved.
    let carved : Allocator := { a with extents := rest, blocksOut := a.blocksOut + 1 }
    let next : Bank :=
      ⟨s.allocators.set on carved, ⟨⟨e.start, e.stop - e.start⟩, on, true⟩ :: s.out⟩
    have hstep : s.step (.allocate on (.ofNat (e.stop - e.start)) 1) = .ok next := by
      have hone : (1 : UInt64).toNat = 1 := rfl
      simp only [step, ha, hsize, hone, hcarve, Checked.ok_bind]
      rfl
    have hcurrent : next.current on = e :: s.current on := by
      have hblock : Block.extent ⟨e.start, e.stop - e.start⟩ = e := by
        unfold Block.extent
        simp only [Nat.add_sub_cancel' (Nat.le_of_lt hholds)]
      exact (current_carved_self _ _ on).trans (by rw [hblock])
    obtain ⟨asked, t, hrun, ht⟩ := ih (h.kept (h.changes hstep)) (a := carved)
      (List.getElem?_set_self hon) (by simp only [carved]; omega) rfl
    refine ⟨(.ofNat (e.stop - e.start), 1) :: asked, t, (run_cons hstep).trans hrun, ?_⟩
    intro measure
    rw [ht measure, hcurrent, measured_append, measured_append, measured_cons, measured_cons]
    omega

theorem Sound.step_takenBack {index on : Nat} {x : Lease} {a : Allocator} (h : s.Sound)
    (hx : s.out[index]? = some x) (ha : s.allocators[on]? = some a) (hplace : a.HasPlaceFor x.block)
    (hstep : s.step (.free index on) = .ok s') :
    s' = ⟨s.allocators.set on (a.afterFreeing x.block), s.out.eraseIdx index⟩ := by
  have hin := List.mem_of_getElem? ha
  have hout := List.mem_of_getElem? hx
  have hfree := (h.tidy a hin).free (h.holds x hout) hplace.2 (h.stops x hout) hplace.1
  simp only [step, hx, ha, hfree, Checked.ok_bind] at hstep
  cases hstep
  rfl

/-- A trespass leaves a byte both free and out. -/
theorem Sound.trespass {index on : Nat} (h : s.Sound) (hcall : s.Trespasses (.free index on))
    (hstep : s.step (.free index on) = .ok s') :
    ∃ a offset, s'.allocators[on]? = some a ∧
      1 < measured (Extent.holds offset) (a.extents ++ s'.current on) := by
  obtain ⟨x, a, hx, ha, hplace, y, hy, hcurrent, hshares⟩ := hcall
  have htidy := h.tidy a (List.mem_of_getElem? ha)
  obtain ⟨hon, -⟩ := List.getElem?_eq_some_iff.mp ha
  unfold Extent.Apart at hshares
  push Not at hshares
  obtain ⟨offset, hinx, hiny⟩ := hshares
  obtain rfl := h.step_takenBack hx ha hplace hstep
  refine ⟨a.afterFreeing x.block, offset, List.getElem?_set_self hon, ?_⟩
  -- Once in the block that was taken back, and once in the one still out.
  have hfree : measured (Extent.holds offset) (a.afterFreeing x.block).extents
      = 1 + measured (Extent.holds offset) a.extents := by
    rw [htidy.measured_afterFreeing (Extent.holds_additive offset), Extent.holds, if_pos hinx]
  have hout : 0 < measured (Extent.holds offset) (Bank.current
      ⟨s.allocators.set on (a.afterFreeing x.block), s.out.eraseIdx index⟩ on) :=
    measured_pos_iff.mpr ⟨_, mem_current.mpr ⟨y, hy, hcurrent, rfl⟩, hiny⟩
  rw [measured_append]
  omega

/-- **The first trespass is what makes blocks overlap.**  It leaves a byte both free and out,
so carving all that is free lends that byte twice.  Without one, what is free and what is out
stay separate, and no carving overlaps. -/
theorem trespasses_iff_canOverlap {calls : List Call} (hrun : none.run calls = .ok s)
    (hclean : none.CleanDuring calls) (hstep : s.step c = .ok s')
    (hroom : ∀ a ∈ s'.allocators, a.blocksOut + a.extents.length < wordCount) :
    (∀ on, (s.current on).Pairwise Extent.Apart) ∧
      (s.Trespasses c ↔ ∃ on, s'.CanOverlap on) := by
  obtain ⟨hsound, hseparate⟩ := Separate.none.run Sound.none hclean hrun
  have hchanges := hsound.changes hstep
  have hsound' := hsound.kept hchanges
  refine ⟨hseparate.apart hsound, fun hcall => ?_, fun ⟨on, asked, t, hrun', hoverlap⟩ => ?_⟩
  · cases c with
    | free index on =>
      obtain ⟨a, offset, ha, htwice⟩ := hsound.trespass hcall hstep
      obtain ⟨asked, t, hrun', ht⟩ := hsound'.drain ha (hroom a (List.mem_of_getElem? ha))
      refine ⟨on, asked, t, hrun', fun hapart => ?_⟩
      have hout := ht (Extent.holds offset)
      have hle := measured_le_one hapart offset
      omega
    | _ => exact hcall.elim
  · by_contra hcall
    obtain ⟨hsound'', hseparate''⟩ :=
      (hseparate.kept hsound hchanges hcall).run hsound' (clean_requests s' on asked) hrun'
    exact hoverlap (hseparate''.apart hsound'' on)

/-- The second of the twins is from the allocator beside, and lies on the first. -/
theorem canOverlap_twins : none.CleanDuring twins ∧ ∃ s s',
    none.run twins = .ok s ∧ s.step (.free 0 0) = .ok s' ∧
    (∀ a ∈ s'.allocators, a.blocksOut + a.extents.length < wordCount) ∧
    s.Trespasses (.free 0 0) ∧ ∃ on, s'.CanOverlap on := by
  have hclean : none.CleanDuring twins := by
    refine cleanDuring_of_forall fun c hc t => ?_
    simp only [twins, List.mem_cons, List.not_mem_nil, or_false] at hc
    rcases hc with rfl | rfl | rfl | rfl <;> exact id
  let out : Allocator := ⟨[⟨10, 100⟩], 100, 1⟩
  let s : Bank := ⟨[out, out], [⟨⟨0, 10⟩, 1, true⟩, ⟨⟨0, 10⟩, 0, true⟩]⟩
  let s' : Bank := ⟨[⟨[⟨0, 100⟩], 100, 0⟩, out], [⟨⟨0, 10⟩, 0, true⟩]⟩
  have hrun : none.run twins = .ok s := rfl
  have hstep : s.step (.free 0 0) = .ok s' := rfl
  have hroom : ∀ a ∈ s'.allocators, a.blocksOut + a.extents.length < wordCount := by decide
  have hcall : s.Trespasses (.free 0 0) := by
    refine ⟨⟨⟨0, 10⟩, 1, true⟩, out, rfl, rfl, ?_, ⟨⟨0, 10⟩, 0, true⟩, by simp [s], rfl, ?_⟩
    · refine ⟨fun e he => ?_, by decide⟩
      obtain rfl := List.mem_singleton.mp he
      exact (Extent.apart_iff (by decide) (by decide)).mpr (.inl (Nat.le_refl 10))
    · intro hapart
      exact hapart 0 ⟨by decide, by decide⟩
  exact ⟨hclean, s, s', hrun, hstep, hroom, hcall,
    (trespasses_iff_canOverlap hrun hclean hstep hroom).2.mp hcall⟩

end Bank

end Igd.Stolen
