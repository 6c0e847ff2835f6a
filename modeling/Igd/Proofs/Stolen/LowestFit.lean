/-
A block is carved at the lowest place there is.

The search looks at one free extent after another, and in each at one place only, the
first multiple of the alignment.  Nothing is missed by either.  Since the free extents do
not touch, free bytes for a block all lie in one extent, and since rounding up passes no
multiple, the place that is looked at there is no higher than any other; whether the sum
behind the rounding fits the word does not matter, as it does wherever there is room.  An
extent without a place therefore has no room, and what the search finds first is the least.

`LowestFit` is what a request comes to, said of offsets alone.  It holds of every tidy
allocator, and so after any calls on a bank of them, also where blocks were given back to an
allocator that had not carved them.
-/
import Igd.Proofs.Extents.Canonical
import Igd.Proofs.Stolen.Bank
import Mathlib.Order.Bounds.Basic

namespace Igd.Stolen

open Extents

namespace Allocator

/-- The `size` bytes at `base`, which is a multiple of `align`, are free. -/
structure HasRoomAt (a : Allocator) (size align base : Nat) : Prop where
  aligned : align ∣ base
  free : ∀ offset, base ≤ offset → offset < base + size → a.IsFree offset

variable {a : Allocator} {size align : Nat}

/-! ### One extent -/

theorem hasRoomAt_of_place {e : Extent} {start : Nat} (he : e ∈ a.extents)
    (halign : isPowerOfTwo align) (hplace : place size (align - 1) e = some start) :
    a.HasRoomAt size align start := by
  obtain ⟨hdvd, hstart, hstop, -⟩ := place_eq_some halign hplace
  refine ⟨hdvd, fun offset hle hlt => ⟨e, he, ?_⟩⟩
  exact Extent.mem_iff.mpr ⟨Nat.le_trans hstart hle, Nat.lt_of_lt_of_le hlt hstop⟩

/-- Where a block has room in an extent, one is placed there or lower, since rounding up passes
no multiple. -/
theorem place_le {e : Extent} {base : Nat} (halign : isPowerOfTwo align)
    (hword : align < wordCount) (hsize : 0 < size) (hdvd : align ∣ base)
    (hstart : e.start ≤ base) (hstop : base + size ≤ e.stop) (hend : e.stop < wordCount) :
    ∃ start, place size (align - 1) e = some start ∧ start ≤ base := by
  obtain ⟨start, hround, hle⟩ := roundUp?_le halign hword hdvd hstart (by omega)
  have hfits : start + size < wordCount ∧ start + size ≤ e.stop := by omega
  refine ⟨start, ?_, hle⟩
  simp only [place, hround]
  exact if_pos hfits

/-! ### The search -/

section Search

variable (ha : a.Tidy) (hword : a.length < wordCount) (halign : isPowerOfTwo align)
  (hfits : align < wordCount) (hsize : 0 < size)
include ha hword halign hfits hsize

/-- **Room is never spread over two extents**: one extent has it all, and a place. -/
theorem Tidy.place_of_hasRoomAt {base : Nat} (hroom : a.HasRoomAt size align base) :
    ∃ e ∈ a.extents, e.start ≤ base ∧
      ∃ start, place size (align - 1) e = some start ∧ start ≤ base := by
  have hholds : base < base + size := by omega
  obtain ⟨e, he, hstart, hstop⟩ := ha.order.in_one (x := ⟨base, base + size⟩) hholds
    fun offset hoffset => hroom.free offset hoffset.1 hoffset.2
  have hend : e.stop < wordCount := Nat.lt_of_le_of_lt (ha.within e he) hword
  exact ⟨e, he, hstart, place_le halign hfits hsize hroom.aligned hstart hstop hend⟩

/-- **What the search finds is the least place with room.**  Extents in front of it have
no place, and those behind it start above it. -/
theorem Tidy.isLeast_fit {fit : Fit}
    (hfit : firstFit (place size (align - 1)) a.extents = some fit) :
    IsLeast {base | a.HasRoomAt size align base} fit.start := by
  obtain ⟨hsplit, hfound⟩ := firstFit_eq_some hfit
  have hmem : fit.found ∈ a.extents := by simp [hsplit]
  refine ⟨hasRoomAt_of_place hmem halign hfound, fun base hroom => ?_⟩
  obtain ⟨e, he, hstart, start, hplace, hle⟩ :=
    ha.place_of_hasRoomAt hword halign hfits hsize hroom
  rw [hsplit] at he
  rcases List.mem_append.mp he with he | he
  · rw [firstFit_passed hfit e he] at hplace
    cases hplace
  · rcases List.mem_cons.mp he with rfl | he
    · obtain rfl : fit.start = start := Option.some.inj (hfound.symm.trans hplace)
      exact hle
    · have horder := ha.order.apart
      rw [hsplit] at horder
      have hbehind : fit.found.stop < e.start :=
        (List.pairwise_cons.mp (List.pairwise_append.mp horder).2.1).1 e he
      obtain ⟨-, -, hstop, -⟩ := place_eq_some halign hfound
      omega

theorem Tidy.no_room (hnone : firstFit (place size (align - 1)) a.extents = none)
    (base : Nat) : ¬ a.HasRoomAt size align base := by
  intro hroom
  obtain ⟨e, he, -, start, hplace, -⟩ := ha.place_of_hasRoomAt hword halign hfits hsize hroom
  rw [firstFit_eq_none hnone e he] at hplace
  cases hplace

end Search

/-! ### A request -/

/-- What a request is answered, and what it makes of the allocator. -/
structure LowestFit (a : Allocator) (size align : Nat) (answer : Except AllocError Block)
    (a' : Allocator) : Prop where
  /-- Only an empty block and an alignment that is no power of two are not valid. -/
  invalid : answer = .error .invalidRequest ↔ size = 0 ∨ ¬ ∃ k, align = 2 ^ k
  /-- A valid request is met just if there is room for it anywhere. -/
  met : 0 < size → (∃ k, align = 2 ^ k) →
    ((∃ b, answer = .ok b) ↔ ∃ base, a.HasRoomAt size align base)
  /-- The block is as long as was asked, at the least place with room. -/
  lowest : ∀ b, answer = .ok b →
    b.length = size ∧ IsLeast {base | a.HasRoomAt size align base} b.base
  /-- The bytes of the block are no longer free, and no others. -/
  taken : ∀ b, answer = .ok b →
    ∀ offset, a'.IsFree offset ↔ a.IsFree offset ∧ offset ∉ b.extent
  /-- One more block is counted. -/
  counted : ∀ b, answer = .ok b → a'.blocksOut = a.blocksOut + 1 ∧ a'.length = a.length
  /-- A request that is not met changes nothing. -/
  unchanged : ∀ e, answer = .error e → a' = a

theorem LowestFit.of_invalid (h : size = 0 ∨ ¬ isPowerOfTwo align) :
    a.LowestFit size align (.error .invalidRequest) a := by
  rw [isPowerOfTwo_iff] at h
  refine ⟨by simpa using h, fun hsize halign => ?_, by simp, by simp, by simp, by simp⟩
  rcases h with hzero | hnot
  · omega
  · exact absurd halign hnot

/-- **A request that is answered gets a block from the lowest place.** -/
theorem Tidy.lowestFit_of_allocate {answer : Except AllocError Block} {a' : Allocator}
    (ha : a.Tidy) (hword : a.length < wordCount) (hfits : align < wordCount)
    (h : a.allocate size align = .ok (answer, a')) : a.LowestFit size align answer a' := by
  by_cases hinvalid : size = 0 ∨ ¬ isPowerOfTwo align
  · rw [allocate_invalid a hinvalid] at h
    cases h
    exact .of_invalid hinvalid
  · obtain ⟨hnonzero, hpower⟩ := not_or.mp hinvalid
    have hsize : 0 < size := Nat.pos_of_ne_zero hnonzero
    have halign : isPowerOfTwo align := by simpa using hpower
    rw [isPowerOfTwo_iff] at hinvalid
    rw [allocate_valid hsize halign] at h
    cases hfit : firstFit (place size (align - 1)) a.extents with
    | none =>
      have hroom : ¬ ∃ base, a.HasRoomAt size align base :=
        not_exists.mpr (ha.no_room hword halign hfits hsize hfit)
      rw [hfit] at h
      cases h
      exact ⟨by simpa using hinvalid, fun _ _ => by simpa using hroom, by simp, by simp, by simp,
        by simp⟩
    | some fit =>
      have hleast := ha.isLeast_fit hword halign hfits hsize hfit
      have hcarved := ha.carved hsize halign hfit
      simp only [hfit] at h
      split at h
      case isFalse => cases h
      case isTrue =>
        cases h
        refine ⟨by simpa using hinvalid, fun _ _ => ?_, ?_, ?_, ?_, by simp⟩
        · exact ⟨fun _ => ⟨_, hleast.1⟩, fun _ => ⟨_, rfl⟩⟩
        all_goals
          rintro b hb
          cases hb
        · exact ⟨rfl, hleast⟩
        · exact ha.isFree_of_carved hcarved
        · exact ⟨rfl, rfl⟩

/-- **Any request that can be counted is answered, and a block comes from the lowest
place.** -/
theorem Tidy.lowestFit (ha : a.Tidy) (hword : a.length < wordCount)
    (hcount : a.blocksOut + 1 < wordCount) (hfits : align < wordCount) :
    ∃ answer a', a.allocate size align = .ok (answer, a') ∧
      a.LowestFit size align answer a' := by
  rcases ha.allocate_cases size align with
    ⟨b, a', hanswer, -⟩ | ⟨e, hanswer⟩ | ⟨-, -, hfull⟩
  · exact ⟨_, _, hanswer, ha.lowestFit_of_allocate hword hfits hanswer⟩
  · exact ⟨_, _, hanswer, ha.lowestFit_of_allocate hword hfits hanswer⟩
  · exact absurd hcount (Nat.not_lt.mpr hfull)

end Allocator

namespace Bank

/-- **Every allocator carves at the lowest place with room**, after any calls, as long as it
can count one more block. -/
theorem lowestFit_run {calls : List Call} {s : Bank} (hrun : none.run calls = .ok s)
    {a : Allocator} (ha : a ∈ s.allocators) (hcount : a.blocksOut + 1 < wordCount)
    (size align : UInt64) :
    ∃ answer a', a.allocate size.toNat align.toNat = .ok (answer, a') ∧
      a.LowestFit size.toNat align.toNat answer a' := by
  have hsound := Sound.none.of_run hrun
  exact (hsound.tidy a ha).lowestFit (hsound.lengths a ha) hcount align.toNat_lt

/-- The bytes from 10 to 30 are free, and those from 40 on. -/
def gap : List Call :=
  [.add 100, .allocate 0 10 1, .allocate 0 20 1, .allocate 0 10 1, .free 1 0]

/-- A request that fits between the blocks that are out, but not at its alignment. -/
theorem lowestFit_run_gap :
    ∃ s, none.run gap = .ok s ∧ ⟨[⟨10, 30⟩, ⟨40, 100⟩], 100, 2⟩ ∈ s.allocators ∧
      2 + 1 < wordCount ∧ ∃ answer a',
        Allocator.allocate ⟨[⟨10, 30⟩, ⟨40, 100⟩], 100, 2⟩ 15 16 = .ok (answer, a') ∧
        Allocator.LowestFit ⟨[⟨10, 30⟩, ⟨40, 100⟩], 100, 2⟩ 15 16 answer a' := by
  have hrun : none.run gap
      = .ok ⟨[⟨[⟨10, 30⟩, ⟨40, 100⟩], 100, 2⟩], [⟨⟨30, 10⟩, 0, true⟩, ⟨⟨0, 10⟩, 0, true⟩]⟩ := rfl
  have hmem := List.mem_singleton_self (⟨[⟨10, 30⟩, ⟨40, 100⟩], 100, 2⟩ : Allocator)
  exact ⟨_, hrun, hmem, by decide, lowestFit_run hrun hmem (by decide) 15 16⟩

end Bank

end Igd.Stolen
