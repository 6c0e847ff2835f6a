/-
The free extents and the blocks out are the whole range in pieces.

A session is one allocator, made for a length, and the blocks it has carved that were not
given back.  Requests are any two words, and any block that is out may be given back next.

What a session keeps is `Pieces`: every additive measure of the free extents and the
blocks out together is that of the range below the length.  One such equation says all
there is to say of where the bytes are.  Measuring whether an offset is held makes it a
partition; measuring sizes makes the free bytes the length less what is out, so that no
sum of sizes leaves the word, and neither does the count of blocks, each of which holds at
least one byte.
-/
import Igd.Proofs.Extents.Recut
import Igd.Proofs.Places
import Igd.Proofs.Stolen.Carving

namespace Igd.Stolen

open Extents

/-- A block that is out, and what was asked for when it was carved. -/
structure Held where
  block : Block
  size : UInt64
  align : UInt64

/-- A call on an allocator by those who hold its blocks. -/
inductive Call
  | allocate (size align : UInt64)
  /-- Give back the block at this place among those that are out. -/
  | free (index : Nat)

/-- An allocator and the blocks that are out. -/
structure Session where
  allocator : Allocator
  held : List Held

namespace Session

/-- A new allocator of the offsets below `length`, with nothing carved. -/
def start (length : UInt64) : Session := ⟨.ofLength length.toNat, []⟩

/-- The session after one call.  Where no block is out there is nothing to give back. -/
def step (s : Session) : Call → Checked Session
  | .allocate size align => do
    let (answer, allocator) ← s.allocator.allocate size.toNat align.toNat
    match answer with
    | .ok block => return ⟨allocator, ⟨block, size, align⟩ :: s.held⟩
    | .error _ => return ⟨allocator, s.held⟩
  | .free index =>
    match s.held[index]? with
    | none => return s
    | some h => do
      let (allocator, _) ← s.allocator.free h.block
      return ⟨allocator, s.held.eraseIdx index⟩

/-- The session after some calls. -/
def run (s : Session) : List Call → Checked Session
  | [] => return s
  | c :: rest => do (← s.step c).run rest

/-- The extents of the blocks that are out. -/
def taken (s : Session) : List Extent := s.held.map fun h => h.block.extent

/-- The free extents and those of the blocks that are out. -/
def ranges (s : Session) : List Extent := s.allocator.extents ++ s.taken

/-- What is free and what is out are the offsets below `length`, cut into pieces. -/
structure Pieces (length : Nat) (s : Session) : Prop where
  tidy : s.allocator.Tidy
  length_eq : s.allocator.length = length
  blocksOut : s.allocator.blocksOut = s.held.length
  /-- Every block is as it was asked for. -/
  asked : ∀ h ∈ s.held, h.block.length = h.size.toNat ∧ h.align.toNat ∣ h.block.base
  /-- Every block holds something. -/
  holds : ∀ h ∈ s.held, 0 < h.block.length
  whole : ∀ measure, Extent.Additive measure →
    measured measure s.ranges = measure ⟨0, length⟩

theorem Pieces.start (length : UInt64) : (start length).Pieces length.toNat := by
  refine ⟨.ofLength _, rfl, rfl, by simp [Session.start], by simp [Session.start], ?_⟩
  intro measure hadd
  have hkept : measured measure (kept [⟨0, length.toNat⟩]) = measured measure [⟨0, length.toNat⟩] :=
    measured_kept hadd (by simp)
  simpa [ranges, taken, Session.start, Allocator.ofLength_extents] using hkept

namespace Pieces

variable {length : Nat} {s : Session}

theorem recut (h : s.Pieces length) : Recut [⟨0, length⟩] s.ranges := by
  intro measure hadd
  rw [h.whole measure hadd, measured_cons, measured_nil, Nat.add_zero]

theorem apart (h : s.Pieces length) : s.ranges.Pairwise Extent.Apart :=
  h.recut.apart (List.pairwise_singleton _ _)

theorem covers (h : s.Pieces length) (offset : Nat) :
    (∃ e ∈ s.ranges, offset ∈ e) ↔ offset < length := by
  rw [h.recut.exists_mem_iff]
  simp [Extent.mem_iff]

theorem sizes (h : s.Pieces length) :
    measured Extent.size s.allocator.extents + measured Extent.size s.taken = length := by
  have hwhole := h.whole _ Extent.size_additive
  rw [ranges, measured_append] at hwhole
  simpa [Extent.size] using hwhole

theorem held_le_sizes (h : s.Pieces length) : s.held.length ≤ measured Extent.size s.taken := by
  have hsizes : ∀ n ∈ s.taken.map Extent.size, 1 ≤ n := by
    intro n hn
    simp only [taken, List.map_map, List.mem_map] at hn
    obtain ⟨x, hx, rfl⟩ := hn
    have := h.holds x hx
    simp only [Function.comp_apply, Block.extent, Extent.size]
    omega
  simpa [taken, measured] using List.card_nsmul_le_sum (s.taken.map Extent.size) 1 hsizes

/-- When anything is free, one more block can be counted: every block out has a byte, so there
are fewer of them than bytes, and the bytes can be counted. -/
theorem countable (h : s.Pieces length) (hword : length < wordCount)
    (hfree : s.allocator.extents ≠ []) : s.allocator.blocksOut + 1 < wordCount := by
  obtain ⟨e, he⟩ := List.exists_mem_of_ne_nil _ hfree
  have hpos : 0 < e.size := Nat.sub_pos_of_lt (h.tidy.order.holds e he)
  have hle : e.size ≤ measured Extent.size s.allocator.extents := le_measured he
  have hsizes := h.sizes
  have hheld := h.held_le_sizes
  have hcount := h.blocksOut
  omega

theorem available (h : s.Pieces length) (hword : length < wordCount) :
    s.allocator.available = .ok (measured Extent.size s.allocator.extents) := by
  have hsizes := h.sizes
  exact total_eq (fun e he => Nat.le_of_lt (h.tidy.order.holds e he)) (by omega)

theorem out (h : s.Pieces length) {x : Held} (hx : x ∈ s.held) :
    0 < x.block.length ∧ x.block.base + x.block.length ≤ s.allocator.length ∧
      ∀ e ∈ s.allocator.extents, Extent.Apart x.block.extent e := by
  have hpos := h.holds x hx
  have hmem : x.block.extent ∈ s.taken := List.mem_map_of_mem hx
  have hlast : x.block.base + x.block.length - 1 ∈ x.block.extent := by
    simp only [Extent.mem_iff, Block.extent]
    omega
  have hlt := (h.covers _).mp ⟨_, List.mem_append_right _ hmem, hlast⟩
  have hlength := h.length_eq
  refine ⟨hpos, by omega, fun e he => ?_⟩
  exact ((List.pairwise_append.mp h.apart).2.2 e he _ hmem).symm

/-- A block that is out is never refused: it shares nothing with what is free, and so with
neither neighbour. -/
theorem accepted (h : s.Pieces length) (hword : length < wordCount) {x : Held}
    (hx : x ∈ s.held) :
    s.allocator.free x.block = .ok (s.allocator.afterFreeing x.block, none) := by
  obtain ⟨hpos, hwithin, hapart⟩ := h.out hx
  have hlength : s.allocator.length < wordCount := by rwa [h.length_eq]
  exact h.tidy.free hpos hwithin (Nat.lt_of_le_of_lt hwithin hlength) hapart

/-! ### One call -/

theorem carve (h : s.Pieces length) {size align : UInt64} {b : Block} {a : Allocator}
    (hcarved : s.allocator.Carved size.toNat align.toNat b a) (hsize : 0 < size.toNat) :
    (⟨a, ⟨b, size, align⟩ :: s.held⟩ : Session).Pieces length := by
  refine ⟨hcarved.tidy, by rw [← h.length_eq, hcarved.length_eq], ?_, ?_, ?_, ?_⟩
  · rw [hcarved.blocksOut, h.blocksOut, List.length_cons]
  · intro x hx
    rcases List.mem_cons.mp hx with rfl | hx
    · exact ⟨hcarved.length, hcarved.aligned⟩
    · exact h.asked x hx
  · intro x hx
    rcases List.mem_cons.mp hx with rfl | hx
    · exact Nat.lt_of_lt_of_eq hsize hcarved.length.symm
    · exact h.holds x hx
  · intro measure hadd
    have hwhole := h.whole measure hadd
    have htaken := hcarved.taken measure hadd
    simp only [ranges, taken, measured_append, List.map_cons, measured_cons] at hwhole ⊢
    omega

theorem giveBack (h : s.Pieces length) {index : Nat} {x : Held} (hx : s.held[index]? = some x) :
    (⟨s.allocator.afterFreeing x.block, s.held.eraseIdx index⟩ : Session).Pieces length := by
  have hmem : x ∈ s.held := List.mem_of_getElem? hx
  obtain ⟨hpos, hwithin, hapart⟩ := h.out hmem
  obtain ⟨hindex, -⟩ := List.getElem?_eq_some_iff.mp hx
  refine ⟨h.tidy.afterFreeing hpos hwithin hapart, h.length_eq, ?_, ?_, ?_, ?_⟩
  · have hcount := h.blocksOut
    simp only [Allocator.afterFreeing, List.length_eraseIdx, if_pos hindex]
    omega
  · exact fun y hy => h.asked y (List.mem_of_mem_eraseIdx hy)
  · exact fun y hy => h.holds y (List.mem_of_mem_eraseIdx hy)
  · intro measure hadd
    have hwhole := h.whole measure hadd
    have hout := measured_perm measure ((perm_eraseIdx hx).map fun y => y.block.extent)
    simp only [ranges, taken, measured_append, List.map_cons, measured_cons,
      h.tidy.measured_afterFreeing hadd] at hwhole hout ⊢
    omega

/-- **Every call is answered, and leaves the range in pieces**, also beside blocks that others
keep. -/
theorem step_beside {kept : List Held} (h : (⟨s.allocator, s.held ++ kept⟩ : Session).Pieces length)
    (hword : length < wordCount) (c : Call) :
    ∃ s', s.step c = .ok s' ∧ (⟨s'.allocator, s'.held ++ kept⟩ : Session).Pieces length := by
  cases c with
  | allocate size align =>
    rcases h.tidy.allocate (h.countable hword) size.toNat align.toNat with
      ⟨b, a, hanswer, hcarved, hsize⟩ | ⟨e, hanswer⟩
    · exact ⟨_, by simp only [Session.step, hanswer, Checked.ok_bind]; rfl, h.carve hcarved hsize⟩
    · exact ⟨s, by simp only [Session.step, hanswer, Checked.ok_bind]; rfl, h⟩
  | free index =>
    cases hx : s.held[index]? with
    | none => exact ⟨s, by simp only [Session.step, hx]; rfl, h⟩
    | some x =>
      obtain ⟨hindex, -⟩ := List.getElem?_eq_some_iff.mp hx
      have hsame : (s.held ++ kept)[index]? = some x := by
        rw [List.getElem?_append_left hindex, hx]
      have hfree := h.accepted hword (List.mem_of_getElem? hsame)
      have hback := h.giveBack hsame
      rw [List.eraseIdx_append_of_lt_length hindex] at hback
      exact ⟨_, by simp only [Session.step, hx, hfree, Checked.ok_bind]; rfl, hback⟩

theorem run_beside {kept : List Held} (h : (⟨s.allocator, s.held ++ kept⟩ : Session).Pieces length)
    (hword : length < wordCount) (calls : List Call) :
    ∃ s', s.run calls = .ok s' ∧ (⟨s'.allocator, s'.held ++ kept⟩ : Session).Pieces length := by
  induction calls generalizing s with
  | nil => exact ⟨s, rfl, h⟩
  | cons c rest ih =>
    obtain ⟨next, hstep, hnext⟩ := h.step_beside hword c
    obtain ⟨s', hrun, hs'⟩ := ih hnext
    exact ⟨s', by simp only [Session.run, hstep, Checked.ok_bind, hrun], hs'⟩

theorem run (h : s.Pieces length) (hword : length < wordCount) (calls : List Call) :
    ∃ s', s.run calls = .ok s' ∧ s'.Pieces length := by
  have hnone : (⟨s.allocator, s.held ++ []⟩ : Session).Pieces length := by simpa using h
  simpa using hnone.run_beside hword calls

end Pieces

/-! ### What the holders of blocks can rely on -/

/-- The allocator and its holders share out the offsets below `length`. -/
structure Partition (length : Nat) (s : Session) : Prop where
  /-- No offset is in two of the free extents and blocks out. -/
  apart : s.ranges.Pairwise Extent.Apart
  /-- Together they hold the offsets below the length, and no others. -/
  covers : ∀ offset, (∃ e ∈ s.ranges, offset ∈ e) ↔ offset < length
  /-- Every block is as long as was asked, at a multiple of the alignment asked. -/
  asked : ∀ h ∈ s.held, h.block.length = h.size.toNat ∧ h.align.toNat ∣ h.block.base
  /-- As many blocks are counted as are out. -/
  counted : s.allocator.blocksOut = s.held.length
  /-- The free bytes are the length less those of the blocks out. -/
  available : ∃ free, s.allocator.available = .ok free ∧
    free + (s.held.map fun h => h.block.length).sum = length
  /-- The end of a block out does not leave the word. -/
  stops : ∀ h ∈ s.held, h.block.stop = .ok (h.block.base + h.block.length)
  /-- No block out would be refused. -/
  accepted : ∀ h ∈ s.held, ∃ a, s.allocator.free h.block = .ok (a, none)

theorem Pieces.partition {length : Nat} {s : Session} (h : s.Pieces length)
    (hword : length < wordCount) : s.Partition length := by
  have htaken : measured Extent.size s.taken = (s.held.map fun h => h.block.length).sum := by
    simp [measured, taken, Function.comp_def, Extent.size, Block.extent]
  refine ⟨h.apart, h.covers, h.asked, h.blocksOut, ⟨_, h.available hword, ?_⟩, ?_, ?_⟩
  · rw [← htaken, h.sizes]
  · intro x hx
    obtain ⟨-, hwithin, -⟩ := h.out hx
    rw [h.length_eq] at hwithin
    exact Block.stop_eq (Nat.lt_of_le_of_lt hwithin hword)
  · exact fun x hx => ⟨_, h.accepted hword hx⟩

/-- **The allocator shares out its range.**  Whatever is asked of a new allocator, of any
length, and in whatever order the blocks out are given back: every call is answered, and
the free extents and the blocks out are a partition of the range. -/
theorem partition_run (length : UInt64) (calls : List Call) :
    ∃ s, (start length).run calls = .ok s ∧ s.Partition length.toNat := by
  have hword : length.toNat < wordCount := length.toNat_lt
  obtain ⟨s, hrun, hpieces⟩ := (Pieces.start length).run hword calls
  exact ⟨s, hrun, hpieces.partition hword⟩

end Session

end Igd.Stolen
