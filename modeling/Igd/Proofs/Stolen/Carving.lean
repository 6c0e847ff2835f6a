/-
What carving and giving back do, to any allocator.

An allocator is `Tidy` when its free extents are in order and end within what it
manages.  On such an allocator both operations are given here by one equation each, with
the conditions under which no sum leaves the machine word: carving is the search alone,
and giving back a block is `insert` alone, where it does not overlap what is free.
-/
import Igd.Proofs.Addressing
import Igd.Proofs.Extents.Neighbours
import Igd.Proofs.Extents.Recut
import Igd.Proofs.Stolen

namespace Igd.Stolen

open Extents

namespace Block

/-- The offsets of a block. -/
def extent (b : Block) : Extent := ⟨b.base, b.base + b.length⟩

theorem stop_eq {b : Block} (h : b.base + b.length < wordCount) :
    b.stop = .ok (b.base + b.length) := Checked.add_eq h

end Block

attribute [ext] Allocator

namespace Allocator

/-- The free extents are in order, and none reaches past the end. -/
structure Tidy (a : Allocator) : Prop where
  order : InOrder a.extents
  within : ∀ e ∈ a.extents, e.stop ≤ a.length

theorem Tidy.ofLength (length : Nat) : (ofLength length).Tidy := by
  by_cases h : 0 < length
  · have horder : InOrder [⟨0, length⟩] := inOrder_singleton h
    exact ⟨by simpa [Allocator.ofLength, h] using horder, by simp [Allocator.ofLength, h]⟩
  · have hempty : InOrder [] := ⟨by simp, List.Pairwise.nil⟩
    exact ⟨by simpa [Allocator.ofLength, h] using hempty, by simp [Allocator.ofLength, h]⟩

/-! ### Carving -/

theorem place_eq_some {size align start : Nat} {e : Extent} (halign : isPowerOfTwo align)
    (h : place size (align - 1) e = some start) :
    align ∣ start ∧ e.start ≤ start ∧ start + size ≤ e.stop ∧ start + size < wordCount := by
  simp only [place] at h
  split at h
  · cases h
  · rename_i rounded hround
    split at h
    · rename_i hroom
      obtain rfl := Option.some.inj h
      obtain ⟨hdvd, hle, -⟩ := roundUp?_eq_some halign hround
      exact ⟨hdvd, hle, hroom.2, hroom.1⟩
    · cases h

/-- The allocator after a block is carved where the search found room for it. -/
def afterCarving (a : Allocator) (fit : Fit) (size : Nat) : Allocator :=
  { a with
    extents := fit.before ++ kept (fit.sides size) ++ fit.after
    blocksOut := a.blocksOut + 1 }

theorem allocate_invalid {size align : Nat} (a : Allocator)
    (h : size = 0 ∨ ¬ isPowerOfTwo align) :
    a.allocate size align = .ok (.error .invalidRequest, a) := if_pos h

/-- **Carving is the search**: whatever a valid request finds is carved, if one more
block can be counted. -/
theorem allocate_valid {a : Allocator} {size align : Nat} (hsize : 0 < size)
    (halign : isPowerOfTwo align) :
    a.allocate size align =
      match firstFit (place size (align - 1)) a.extents with
      | none => .ok (.error .outOfSpace, a)
      | some fit =>
        if a.blocksOut + 1 < wordCount then .ok (.ok ⟨fit.start, size⟩, a.afterCarving fit size)
        else .error .addOverflow := by
  have hpos : 1 ≤ align := isPowerOfTwo_pos halign
  have hvalid : ¬ (size = 0 ∨ ¬ isPowerOfTwo align = true) := by
    rintro (h | h)
    · omega
    · exact h halign
  unfold allocate
  rw [if_neg hvalid]
  simp only [Checked.sub_eq hpos, Checked.ok_bind]
  cases hfit : firstFit (place size (align - 1)) a.extents with
  | none => rfl
  | some fit =>
    obtain ⟨-, hplace⟩ := firstFit_eq_some hfit
    obtain ⟨-, hstart, hstop, -⟩ := place_eq_some halign hplace
    have hsides : nonempty (fit.sides size) = .ok (kept (fit.sides size)) :=
      nonempty_eq_kept (by simp [Fit.sides, hstart, hstop])
    simp only [hsides, Checked.ok_bind]
    by_cases hcount : a.blocksOut + 1 < wordCount
    · simp only [Checked.add_eq hcount, Checked.ok_bind, if_pos hcount]
      rfl
    · have hfull : Checked.add a.blocksOut 1 = .error .addOverflow := if_neg hcount
      simp only [hfull, Checked.error_bind, if_neg hcount]

/-- What is known of a block that was carved, and of the allocator after it. -/
structure Carved (a : Allocator) (size align : Nat) (b : Block) (a' : Allocator) : Prop where
  length : b.length = size
  aligned : align ∣ b.base
  /-- The block ends within the extent that it came out of. -/
  within : b.base + size ≤ a.length
  tidy : a'.Tidy
  length_eq : a'.length = a.length
  blocksOut : a'.blocksOut = a.blocksOut + 1
  /-- The block is no longer free, and nothing else changed. -/
  taken : ∀ measure, Extent.Additive measure →
    measured measure a'.extents + measure b.extent = measured measure a.extents

theorem Tidy.carved {a : Allocator} {size align : Nat} {fit : Fit} (ha : a.Tidy)
    (hsize : 0 < size) (halign : isPowerOfTwo align)
    (hfit : firstFit (place size (align - 1)) a.extents = some fit) :
    a.Carved size align ⟨fit.start, size⟩ (a.afterCarving fit size) := by
  obtain ⟨hsplit, hplace⟩ := firstFit_eq_some hfit
  obtain ⟨hdvd, hstart, hstop, -⟩ := place_eq_some halign hplace
  have hlt : fit.start < fit.start + size := by omega
  have hwithin : ∀ e ∈ fit.before ++ fit.found :: fit.after, e.stop ≤ a.length := by
    rw [← hsplit]
    exact ha.within
  have hfound : fit.found.stop ≤ a.length := hwithin _ (by simp)
  have horder := ha.order
  rw [hsplit] at horder
  refine ⟨rfl, hdvd, Nat.le_trans hstop hfound, ⟨inOrder_take horder hstart hlt hstop, ?_⟩,
    rfl, rfl, fun measure hadd => ?_⟩
  · intro e he
    simp only [afterCarving, List.append_assoc, List.mem_append, mem_kept, Fit.sides,
      List.mem_cons, List.not_mem_nil, or_false] at he
    rcases he with he | ⟨rfl | rfl, -⟩ | he
    · exact hwithin e (by simp [he])
    · exact Nat.le_trans (by simp only; omega) hfound
    · exact hfound
    · exact hwithin e (by simp [he])
  · rw [hsplit]
    exact measured_take hadd hstart (Nat.le_of_lt hlt) hstop

/-- A request is answered with a block that was free, or with an error and no change.
It is not answered only when a block was found that could not be counted. -/
theorem Tidy.allocate_cases {a : Allocator} (ha : a.Tidy) (size align : Nat) :
    (∃ b a', a.allocate size align = .ok (.ok b, a') ∧ a.Carved size align b a' ∧ 0 < size) ∨
      (∃ e, a.allocate size align = .ok (.error e, a)) ∨
      (a.allocate size align = .error .addOverflow ∧ a.extents ≠ [] ∧
        wordCount ≤ a.blocksOut + 1) := by
  by_cases hvalid : 0 < size ∧ isPowerOfTwo align
  · obtain ⟨hsize, halign⟩ := hvalid
    rw [allocate_valid hsize halign]
    cases hfit : firstFit (place size (align - 1)) a.extents with
    | none => exact .inr (.inl ⟨_, rfl⟩)
    | some fit =>
      by_cases hcount : a.blocksOut + 1 < wordCount
      · exact .inl ⟨_, _, if_pos hcount, ha.carved hsize halign hfit, hsize⟩
      · have hsome : a.extents ≠ [] := by simp [(firstFit_eq_some hfit).1]
        exact .inr (.inr ⟨if_neg hcount, hsome, Nat.le_of_not_lt hcount⟩)
  · refine .inr (.inl ⟨_, allocate_invalid a ?_⟩)
    by_cases hzero : size = 0
    · exact .inl hzero
    · exact .inr fun halign => hvalid ⟨by omega, halign⟩

theorem Tidy.carved_of_allocate {a a' : Allocator} {size align : Nat} {b : Block} (ha : a.Tidy)
    (h : a.allocate size align = .ok (.ok b, a')) : a.Carved size align b a' ∧ 0 < size := by
  rcases ha.allocate_cases size align with
    ⟨b', a₁, hanswer, hcarved, hsize⟩ | ⟨e, hanswer⟩ | ⟨hfault, -⟩
  · cases h.symm.trans hanswer
    exact ⟨hcarved, hsize⟩
  · cases h.symm.trans hanswer
  · cases h.symm.trans hfault

/-- The end of a block that is carved fits the word, also where the allocator is longer. -/
theorem stop_lt_of_allocate {a a' : Allocator} {size align : Nat} {b : Block}
    (h : a.allocate size align = .ok (.ok b, a')) : b.base + b.length < wordCount := by
  by_cases hinvalid : size = 0 ∨ ¬ isPowerOfTwo align
  · rw [allocate_invalid a hinvalid] at h
    cases h
  · obtain ⟨hnonzero, hpower⟩ := not_or.mp hinvalid
    have halign : isPowerOfTwo align := by simpa using hpower
    rw [allocate_valid (Nat.pos_of_ne_zero hnonzero) halign] at h
    cases hfit : firstFit (place size (align - 1)) a.extents with
    | none =>
      rw [hfit] at h
      cases h
    | some fit =>
      simp only [hfit] at h
      split at h
      case isFalse => cases h
      case isTrue =>
        cases h
        exact (place_eq_some halign (firstFit_eq_some hfit).2).2.2.2

/-- **Any request is answered** as long as one more block can be counted when anything is
free. -/
theorem Tidy.allocate {a : Allocator} (ha : a.Tidy)
    (hcount : a.extents ≠ [] → a.blocksOut + 1 < wordCount) (size align : Nat) :
    (∃ b a', a.allocate size align = .ok (.ok b, a') ∧ a.Carved size align b a' ∧ 0 < size) ∨
      ∃ e, a.allocate size align = .ok (.error e, a) := by
  rcases ha.allocate_cases size align with h | h | ⟨-, hsome, hfull⟩
  · exact .inl h
  · exact .inr h
  · exact absurd (hcount hsome) (Nat.not_lt.mpr hfull)

/-! ### Giving back -/

/-- The allocator after a block is given back. -/
def afterFreeing (a : Allocator) (b : Block) : Allocator :=
  { a with extents := Extents.insert b.extent a.extents, blocksOut := a.blocksOut - 1 }

/-- A block would lie within what the allocator manages, on nothing that is free. -/
def HasPlaceFor (a : Allocator) (b : Block) : Prop :=
  (∀ e ∈ a.extents, Extent.Apart b.extent e) ∧ b.base + b.length ≤ a.length

theorem Block.extent_holds {b : Block} (h : 0 < b.length) : b.extent.start < b.extent.stop := by
  simp only [Block.extent]
  omega

/-- The two neighbours of a block and the end of the allocator tell whether there is a
place for it. -/
theorem Tidy.hasPlaceFor_iff {a : Allocator} {b : Block} (ha : a.Tidy) (hpos : 0 < b.length) :
    (overlapsNeighbour (startingBelow b.base a.extents) b.extent (startingFrom b.base a.extents)
      || decide (a.length < b.base + b.length)) = false ↔ a.HasPlaceFor b := by
  rw [Bool.or_eq_false_iff, decide_eq_false_iff_not, Nat.not_lt]
  exact and_congr_left' (overlapsNeighbour_eq_false_iff (Block.extent_holds hpos) ha.order)

/-- **A block that shares nothing with what is free is taken back.** -/
theorem Tidy.free {a : Allocator} {b : Block} (ha : a.Tidy) (hpos : 0 < b.length)
    (hwithin : b.base + b.length ≤ a.length) (hword : b.base + b.length < wordCount)
    (hapart : ∀ e ∈ a.extents, Extent.Apart b.extent e) :
    a.free b = .ok (a.afterFreeing b, none) := by
  have hplace := (ha.hasPlaceFor_iff hpos).mpr ⟨hapart, hwithin⟩
  have hjoin := splice_eq_insert (Block.extent_holds hpos) hapart ha.order
  unfold Allocator.free
  simp only [Block.stop_eq hword, Checked.ok_bind]
  refine (if_neg (Bool.eq_false_iff.mp hplace)).trans ?_
  unfold afterFreeing
  rw [← hjoin]
  rfl

/-- **Any other block is refused**, and nothing changes. -/
theorem Tidy.free_refused {a : Allocator} {b : Block} (ha : a.Tidy) (hpos : 0 < b.length)
    (hword : b.base + b.length < wordCount) (hplace : ¬ a.HasPlaceFor b) :
    a.free b = .ok (a, some (.foreignBlock b.base b.length)) := by
  have hrefused := Bool.eq_false_iff.not_left.mp (mt (ha.hasPlaceFor_iff hpos).mp hplace)
  have hlength : Extent.length ⟨b.base, b.base + b.length⟩ = .ok b.length := by
    simp [Extent.length, Checked.sub_eq]
  unfold Allocator.free
  simp only [Block.stop_eq hword, Checked.ok_bind]
  refine (if_pos hrefused).trans ?_
  rw [hlength]
  rfl

theorem Tidy.measured_afterFreeing {a : Allocator} {b : Block} {measure : Extent → Nat}
    (ha : a.Tidy) (hadd : Extent.Additive measure) :
    measured measure (a.afterFreeing b).extents
      = measure b.extent + measured measure a.extents :=
  measured_insert hadd (Nat.le_add_right _ _) fun e he => Nat.le_of_lt (ha.order.holds e he)

/-- A free extent holds the offset. -/
def IsFree (a : Allocator) (offset : Nat) : Prop := ∃ e ∈ a.extents, offset ∈ e

theorem isFree_iff {a : Allocator} {offset : Nat} :
    a.IsFree offset ↔ 0 < measured (Extent.holds offset) a.extents := measured_pos_iff.symm

theorem Tidy.isFree_of_carved {a a' : Allocator} {size align : Nat} {b : Block} (ha : a.Tidy)
    (hcarved : a.Carved size align b a') (offset : Nat) :
    a'.IsFree offset ↔ a.IsFree offset ∧ offset ∉ b.extent := by
  have htaken := hcarved.taken _ (Extent.holds_additive offset)
  have hone := measured_le_one ha.order.pairwise_apart offset
  rw [isFree_iff, isFree_iff, ← Extent.holds_pos]
  omega

theorem Tidy.isFree_afterFreeing {a : Allocator} {b : Block} (ha : a.Tidy) (offset : Nat) :
    (a.afterFreeing b).IsFree offset ↔ a.IsFree offset ∨ offset ∈ b.extent := by
  rw [isFree_iff, isFree_iff, ha.measured_afterFreeing (Extent.holds_additive offset),
    ← Extent.holds_pos]
  omega

theorem Tidy.afterFreeing_ne {a : Allocator} {b : Block} (ha : a.Tidy) (hpos : 0 < b.length)
    (hapart : ∀ e ∈ a.extents, Extent.Apart b.extent e) : a.afterFreeing b ≠ a := by
  intro heq
  have hbase : b.base ∈ b.extent := Extent.mem_iff.mpr ⟨Nat.le_refl _, Block.extent_holds hpos⟩
  have hfree : a.IsFree b.base := by
    rw [← heq]
    exact (ha.isFree_afterFreeing b.base).mpr (.inr hbase)
  obtain ⟨e, he, hshared⟩ := hfree
  exact hapart e he b.base ⟨hbase, hshared⟩

theorem Tidy.afterFreeing {a : Allocator} {b : Block} (ha : a.Tidy) (hpos : 0 < b.length)
    (hwithin : b.base + b.length ≤ a.length)
    (hapart : ∀ e ∈ a.extents, Extent.Apart b.extent e) : (a.afterFreeing b).Tidy := by
  have hblock : b.extent.start < b.extent.stop := by simp only [Block.extent]; omega
  have horder : InOrder (a.afterFreeing b).extents := inOrder_insert hblock hapart ha.order
  refine ⟨horder, stop_le horder.holds fun offset hmeasured => ?_⟩
  rw [ha.measured_afterFreeing (Extent.holds_additive offset), Extent.holds] at hmeasured
  split at hmeasured
  · rename_i hblock
    exact Nat.lt_of_lt_of_le hblock.2 hwithin
  · exact lt_of_measured_pos ha.within (by omega)

/-- What is free after a block is carved, and the block, are what was free, in pieces. -/
theorem Carved.recut {a a' : Allocator} {size align : Nat} {b : Block}
    (hcarved : a.Carved size align b a') : Recut a.extents (a'.extents ++ [b.extent]) := by
  intro measure hadd
  simpa using hcarved.taken measure hadd

/-- **A block that is given back as soon as it is carved leaves no trace.** -/
theorem Tidy.free_allocated {a a' : Allocator} {size align : Nat} {b : Block} (ha : a.Tidy)
    (h : a.allocate size align = .ok (.ok b, a')) : a'.free b = .ok (a, none) := by
  obtain ⟨hcarved, hsize⟩ := ha.carved_of_allocate h
  have hpos : 0 < b.length := Nat.lt_of_lt_of_eq hsize hcarved.length.symm
  have hwithin : b.base + b.length ≤ a'.length := by
    rw [hcarved.length, hcarved.length_eq]
    exact hcarved.within
  have hapart : ∀ e ∈ a'.extents, Extent.Apart b.extent e := by
    intro e he
    have hpieces := hcarved.recut.apart ha.order.pairwise_apart
    exact ((List.pairwise_append.mp hpieces).2.2 e he b.extent (by simp)).symm
  have hback := hcarved.recut.insert (Nat.le_add_right _ _) fun e he =>
    Nat.le_of_lt (hcarved.tidy.order.holds e he)
  rw [List.append_nil] at hback
  have horder := (hcarved.tidy.afterFreeing hpos hwithin hapart).order
  have hsame : a'.afterFreeing b = a := by
    refine Allocator.ext (hback.eq ha.order horder).symm hcarved.length_eq ?_
    simp only [Allocator.afterFreeing, hcarved.blocksOut, Nat.add_sub_cancel]
  rw [hcarved.tidy.free hpos hwithin (stop_lt_of_allocate h) hapart, hsame]

/-! ### Counting -/

/-- The free bytes can be counted, and are no more than the allocator manages. -/
theorem Tidy.available {a : Allocator} (ha : a.Tidy) (hword : a.length < wordCount) :
    ∃ free, a.available = .ok free ∧ free ≤ a.length := by
  have hle : measured Extent.size a.extents ≤ a.length := measured_size_le ha.order ha.within
  have hholds : ∀ e ∈ a.extents, e.start ≤ e.stop := fun e he => Nat.le_of_lt (ha.order.holds e he)
  exact ⟨_, total_eq hholds (Nat.lt_of_le_of_lt hle hword), hle⟩

end Allocator

end Igd.Stolen
