/-
Rounding up is the exact ceiling.

A word is rounded up in the sum of it and a mask, by clearing the bits of the mask.  What is
tested is that the sum fits the word, and what is asked for is that the result does.  The sum
may be the larger of the two, but the tests come to the same: the words end at a multiple of
every power of two among them, so a multiple that fits leaves room for all bits below the next.

`Ceiling` is what rounding up is to answer, said of the multiples alone.  That rounding again
changes nothing, and that a larger word is not rounded to less, follows from it and not from
how the bits are cleared.
-/
import Igd.Proofs.Addressing
import Mathlib.Order.Bounds.Basic

namespace Igd

/-- The multiples of `align` at or above `value`, whether they fit a word or not. -/
def multiplesFrom (align value : Nat) : Set Nat := {m | align ∣ m ∧ value ≤ m}

/-- What rounding `value` up to a multiple of `align` is to answer. -/
structure Ceiling (align value : Nat) (answer : Option Nat) : Prop where
  /-- The answer is the least multiple, as far as that fits a word. -/
  some_iff : ∀ r, answer = some r ↔ IsLeast (multiplesFrom align value) r ∧ r < wordCount
  /-- There is no answer just if no multiple fits a word. -/
  none_iff : answer = none ↔ ∀ m ∈ multiplesFrom align value, wordCount ≤ m

variable {align value : Nat}

/-! ### The bits that are cleared -/

/-- What is rounded up is the least multiple, since it is less than the power away from the
value. -/
theorem roundUp?_isLeast {r : Nat} (halign : isPowerOfTwo align)
    (h : roundUp? (align - 1) value = some r) : IsLeast (multiplesFrom align value) r := by
  obtain ⟨hdvd, hle, hlt⟩ := roundUp?_eq_some halign h
  refine ⟨⟨hdvd, hle⟩, ?_⟩
  intro m hm
  have hnext : r < m + align := Nat.lt_of_lt_of_le hlt (Nat.add_le_add_right hm.2 align)
  exact Nat.le_of_lt_add_of_dvd hnext hdvd hm.1

theorem roundUp?_lt {mask r : Nat} (h : roundUp? mask value = some r) : r < wordCount := by
  unfold roundUp? at h
  split at h
  · obtain rfl := Option.some.inj h
    exact Nat.lt_of_le_of_lt (Nat.sub_le _ _) ‹_›
  · cases h

/-- **The test of the sum is the test of the result.**  It is the sum that is tested, and the
sum may be larger than the result.  But the last multiple lies a whole `align` below the end of
the words, so wherever a multiple fits the sum fits too. -/
theorem roundUp?_ceiling (halign : isPowerOfTwo align) (hword : align < wordCount) :
    Ceiling align value (roundUp? (align - 1) value) := by
  have hsome : ∀ r, roundUp? (align - 1) value = some r →
      IsLeast (multiplesFrom align value) r ∧ r < wordCount :=
    fun r hr => ⟨roundUp?_isLeast halign hr, roundUp?_lt hr⟩
  -- A multiple that fits a word is answered by one no higher.
  have hfits : ∀ m ∈ multiplesFrom align value, m < wordCount →
      ∃ r, roundUp? (align - 1) value = some r ∧ r ≤ m :=
    fun m hm hlt => roundUp?_le halign hword hm.1 hm.2 hlt
  constructor
  · intro r
    refine ⟨hsome r, ?_⟩
    intro ⟨hleast, hlt⟩
    obtain ⟨q, hq, -⟩ := hfits r hleast.1 hlt
    rw [hq, (hsome q hq).1.unique hleast]
  · constructor
    · intro hnone m hm
      by_contra hlt
      obtain ⟨r, hr, -⟩ := hfits m hm (Nat.lt_of_not_le hlt)
      rw [hnone] at hr
      cases hr
    · intro hall
      by_contra hnot
      obtain ⟨r, hr⟩ := Option.ne_none_iff_exists'.mp hnot
      obtain ⟨hleast, hlt⟩ := hsome r hr
      exact absurd hlt (Nat.not_lt_of_le (hall r hleast.1))

/-! ### What follows from being the ceiling -/

namespace Ceiling

variable {other r : Nat} {answer : Option Nat}

theorem again (h : Ceiling align value (some r)) (hr : Ceiling align r answer) :
    answer = some r := by
  obtain ⟨hleast, hlt⟩ := (h.some_iff r).mp rfl
  refine (hr.some_iff r).mpr ⟨⟨⟨hleast.1.1, Nat.le_refl r⟩, ?_⟩, hlt⟩
  intro m hm
  exact hm.2

theorem mono (hle : value ≤ other) (h : Ceiling align value answer)
    (hother : Ceiling align other (some r)) : ∃ q, answer = some q ∧ q ≤ r := by
  obtain ⟨hleast, hlt⟩ := (hother.some_iff r).mp rfl
  have hmem : r ∈ multiplesFrom align value := ⟨hleast.1.1, Nat.le_trans hle hleast.1.2⟩
  cases answer with
  | none => exact absurd hlt (Nat.not_lt_of_le (h.none_iff.mp rfl r hmem))
  | some q => exact ⟨q, rfl, ((h.some_iff q).mp rfl).1.2 hmem⟩

end Ceiling

/-! ### Rounding a word -/

/-- A word has a ceiling for every power of two among the words, and no fault. -/
theorem roundUpTo_ceiling (value : Nat) {k : Nat} (hk : k ≤ 63) :
    ∃ answer, roundUpTo value (2 ^ k) = .ok answer ∧ Ceiling (2 ^ k) value answer := by
  have hword : 2 ^ k < wordCount :=
    Nat.lt_of_le_of_lt (Nat.pow_le_pow_right (by decide) hk) (by decide)
  refine ⟨roundUp? (2 ^ k - 1) value, ?_, roundUp?_ceiling (isPowerOfTwo_iff.mpr ⟨k, rfl⟩) hword⟩
  unfold roundUpTo
  rw [Checked.sub_eq (Nat.one_le_two_pow), Checked.ok_bind]
  rfl

/-- **Rounding up is the ceiling among the multiples of a power of two**, up to the last word:
it answers the least multiple whenever that fits a word, and nothing otherwise.  It answers a
multiple with itself, and never a larger word with less. -/
theorem roundUpTo_isCeiling (value : UInt64) {k : Nat} (hk : k ≤ 63) :
    (∃ answer, roundUpTo value.toNat (2 ^ k) = .ok answer ∧
      Ceiling (2 ^ k) value.toNat answer) ∧
    (∀ r, roundUpTo value.toNat (2 ^ k) = .ok (some r) → roundUpTo r (2 ^ k) = .ok (some r)) ∧
    (∀ (other : UInt64) (r : Nat), value ≤ other →
      roundUpTo other.toNat (2 ^ k) = .ok (some r) →
      ∃ q, roundUpTo value.toNat (2 ^ k) = .ok (some q) ∧ q ≤ r) := by
  obtain ⟨answer, hanswer, hceiling⟩ := roundUpTo_ceiling value.toNat hk
  refine ⟨⟨answer, hanswer, hceiling⟩, ?_, ?_⟩
  · intro r hr
    obtain rfl : answer = some r := Except.ok.inj (hanswer.symm.trans hr)
    obtain ⟨twice, htwice, hagain⟩ := roundUpTo_ceiling r hk
    rw [htwice, hceiling.again hagain]
  · intro other r hle hr
    obtain ⟨_, hother, hceilingOther⟩ := roundUpTo_ceiling other.toNat hk
    cases hother.symm.trans hr
    obtain ⟨q, rfl, hq⟩ := hceiling.mono (UInt64.le_iff_toNat_le.mp hle) hceilingOther
    exact ⟨q, hanswer, hq⟩

/-- The last page starts at the last multiple that fits a word.  An address in the page below is
rounded up to it, and so is it itself, where the sum behind the rounding is the last word. -/
theorem roundUpTo_isCeiling_lastPage : 12 ≤ 63 ∧
    (∃ answer, roundUpTo 0xffffffffffffe001 (2 ^ 12) = .ok answer ∧
      answer = some 0xfffffffffffff000 ∧ Ceiling (2 ^ 12) 0xffffffffffffe001 answer) ∧
    roundUpTo 0xfffffffffffff000 (2 ^ 12) = .ok (some 0xfffffffffffff000) ∧
    (0xffffffffffffe001 : UInt64) ≤ 0xfffffffffffff000 ∧
    (∃ q, roundUpTo 0xffffffffffffe001 (2 ^ 12) = .ok (some q) ∧ q ≤ 0xfffffffffffff000) := by
  have hk : 12 ≤ 63 := by decide
  have hle : (0xffffffffffffe001 : UInt64) ≤ 0xfffffffffffff000 := by decide
  have hfound : roundUpTo 0xffffffffffffe001 (2 ^ 12) = .ok (some 0xfffffffffffff000) := by decide
  obtain ⟨⟨answer, hanswer, hceiling⟩, hagain, hmono⟩ :=
    roundUpTo_isCeiling 0xffffffffffffe001 hk
  have hsame := hagain _ hfound
  refine ⟨hk, ⟨answer, hanswer, ?_, hceiling⟩, hsame, hle, hmono _ _ hle hsame⟩
  exact Except.ok.inj (hanswer.symm.trans hfound)

end Igd
