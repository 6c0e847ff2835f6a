/-
The control word by its bits.

The code for the amount of stolen memory stands in bits 7 to 4, and the table of amounts is
asked with the word under a mask.  The mask leaves sixteen times the code, so the rows of the
table are the codes from 0 to 7, and a code outside it is one with bit 7.  Of the other bits
only bit 0 is ever looked at.
-/
import Igd.Aperture.ControlWord
import Mathlib.Tactic.FinCases

namespace Igd

namespace ControlWord

/-- The bits that hold the code for the amount of stolen memory. -/
def codeBits : List Nat := [4, 5, 6, 7]

/-- The code that a word holds in these bits. -/
def code (word : UInt16) : Nat := word.toNat / 16 % 16

/-- The amounts in mebibytes, each behind its code. -/
def amounts : List (Nat × Nat) := [(1, 1), (2, 4), (3, 8), (4, 16), (5, 32), (6, 48), (7, 64)]

/-- Two words that agree on the listed bits. -/
def AgreeOn (bits : List Nat) (word other : UInt16) : Prop :=
  ∀ i ∈ bits, word.toNat.testBit i = other.toNat.testBit i

variable {word other : UInt16}

/-! ### The bits of a word -/

/-- Under the mask, a word is its code in the place where the code stands. -/
theorem toNat_and_stolenMask (word : UInt16) : (word &&& stolenMask).toNat = 16 * code word := by
  have hmask : stolenMask.toNat = 2 ^ 4 * (2 ^ 4 - 1) := rfl
  show _ = 2 ^ 4 * (word.toNat / 2 ^ 4 % 2 ^ 4)
  rw [UInt16.toNat_and, hmask]
  -- Both sides hold the bits of the word from 4 to 7, and no others.
  apply Nat.eq_of_testBit_eq
  intro i
  rw [Nat.testBit_and, Nat.testBit_two_pow_mul, Nat.testBit_two_pow_sub_one,
    Nat.testBit_two_pow_mul, Nat.testBit_mod_two_pow, Nat.testBit_div_two_pow]
  by_cases hi : 4 ≤ i
  · simp [hi, Bool.and_comm]
  · simp [hi]

theorem mem_codeBits {i : Nat} : i ∈ codeBits ↔ 4 ≤ i ∧ i < 8 := by
  simp only [codeBits, List.mem_cons, List.not_mem_nil, or_false]
  omega

theorem testBit_code (word : UInt16) (i : Nat) :
    (code word).testBit i = (decide (i < 4) && word.toNat.testBit (i + 4)) := by
  show (word.toNat / 2 ^ 4 % 2 ^ 4).testBit i = _
  rw [Nat.testBit_mod_two_pow, Nat.testBit_div_two_pow]

theorem code_eq_iff : code word = code other ↔ AgreeOn codeBits word other := by
  constructor
  · intro h i hi
    obtain ⟨hlow, hhigh⟩ := mem_codeBits.mp hi
    obtain ⟨j, rfl⟩ := Nat.exists_eq_add_of_le' hlow
    have hbit := congrArg (fun c => Nat.testBit c j) h
    have hj : j < 4 := by omega
    simpa [testBit_code, hj] using hbit
  · intro h
    apply Nat.eq_of_testBit_eq
    intro i
    rw [testBit_code, testBit_code]
    by_cases hi : i < 4
    · rw [h (i + 4) (mem_codeBits.mpr ⟨by omega, by omega⟩)]
    · simp [hi]

theorem code_eq_zero_iff : code word = 0 ↔ ∀ i ∈ codeBits, word.toNat.testBit i = false := by
  have hzero : code 0 = 0 := rfl
  have hbits : ∀ i, (0 : UInt16).toNat.testBit i = false := Nat.zero_testBit
  rw [← hzero, code_eq_iff]
  unfold AgreeOn
  simp only [hbits]

/-- A code is outside the table just if it has the highest bit. -/
theorem eight_le_code_iff : 8 ≤ code word ↔ word.toNat.testBit 7 = true := by
  unfold code
  rw [Nat.testBit_eq_decide_div_mod_eq, decide_eq_true_iff]
  omega

/-! ### The table -/

/-- Every code is zero, or has an amount, or has the highest bit: there are sixteen codes, and
the table has the seven in between. -/
theorem code_cases (word : UInt16) :
    code word = 0 ∨ (∃ m, (code word, m) ∈ amounts) ∨ 8 ≤ code word := by
  have hall : ∀ c < 8, c = 0 ∨ c ∈ amounts.map Prod.fst := by decide
  by_cases hlt : code word < 8
  · rcases hall (code word) hlt with hzero | hmem
    · exact .inl hzero
    · obtain ⟨⟨c, m⟩, hrow, hc⟩ := List.mem_map.mp hmem
      exact .inr (.inl ⟨m, hc ▸ hrow⟩)
  · exact .inr (.inr (Nat.le_of_not_lt hlt))

theorem exists_amount_iff :
    (∃ m, (code word, m) ∈ amounts) ↔
      (∃ i ∈ codeBits, word.toNat.testBit i = true) ∧ word.toNat.testBit 7 = false := by
  have hall : ∀ row ∈ amounts, row.1 ≠ 0 ∧ ¬ 8 ≤ row.1 := by decide
  have hnonzero : code word ≠ 0 ↔ ∃ i ∈ codeBits, word.toNat.testBit i = true := by
    rw [Ne, code_eq_zero_iff]
    simp
  rw [← hnonzero, ← Bool.not_eq_true, ← eight_le_code_iff]
  constructor
  · rintro ⟨m, hrow⟩
    exact hall (code word, m) hrow
  · rintro ⟨hzero, hhigh⟩
    rcases code_cases word with h | h | h
    · exact absurd h hzero
    · exact h
    · exact absurd h hhigh

theorem stolenMebibytes_of_zero (h : code word = 0) :
    stolenMebibytes word = .error .disabled := by
  have hmasked := toNat_and_stolenMask word
  rw [h] at hmasked
  unfold stolenMebibytes
  simp only [hmasked]

theorem stolenMebibytes_of_amount {m : Nat} (h : (code word, m) ∈ amounts) :
    stolenMebibytes word = .ok m := by
  have hmasked := toNat_and_stolenMask word
  generalize code word = c at h hmasked
  unfold stolenMebibytes
  fin_cases h <;> simp only [hmasked]

theorem stolenMebibytes_of_eight_le (h : 8 ≤ code word) :
    stolenMebibytes word = .error (.unrecognized (word &&& stolenMask)) := by
  have hmasked := toNat_and_stolenMask word
  unfold stolenMebibytes
  simp only
  -- The rows end at 0x70, and this is at least 0x80.
  split
  case h_9 => rfl
  all_goals omega

/-- Nothing is set aside just if the code is zero. -/
theorem stolenMebibytes_eq_disabled_iff :
    stolenMebibytes word = .error .disabled ↔ code word = 0 := by
  refine ⟨?_, stolenMebibytes_of_zero⟩
  intro h
  rcases code_cases word with hzero | ⟨m, hrow⟩ | hhigh
  · exact hzero
  · rw [stolenMebibytes_of_amount hrow] at h
    cases h
  · rw [stolenMebibytes_of_eight_le hhigh] at h
    cases h

theorem stolenMebibytes_eq_unrecognized_iff {told : UInt16} :
    stolenMebibytes word = .error (.unrecognized told) ↔
      8 ≤ code word ∧ told = word &&& stolenMask := by
  constructor
  · intro h
    rcases code_cases word with hzero | ⟨m, hrow⟩ | hhigh
    · rw [stolenMebibytes_of_zero hzero] at h
      cases h
    · rw [stolenMebibytes_of_amount hrow] at h
      cases h
    · rw [stolenMebibytes_of_eight_le hhigh] at h
      cases h
      exact ⟨hhigh, rfl⟩
  · rintro ⟨hhigh, rfl⟩
    exact stolenMebibytes_of_eight_le hhigh

theorem stolenMebibytes_eq_ok_iff {mebibytes : Nat} :
    stolenMebibytes word = .ok mebibytes ↔ (code word, mebibytes) ∈ amounts := by
  refine ⟨?_, stolenMebibytes_of_amount⟩
  intro h
  rcases code_cases word with hzero | ⟨m, hrow⟩ | hhigh
  · rw [stolenMebibytes_of_zero hzero] at h
    cases h
  · rw [stolenMebibytes_of_amount hrow] at h
    cases h
    exact hrow
  · rw [stolenMebibytes_of_eight_le hhigh] at h
    cases h

theorem stolenMebibytes_le {mebibytes : Nat} (h : stolenMebibytes word = .ok mebibytes) :
    mebibytes ≤ 64 := by
  have hall : ∀ row ∈ amounts, row.2 ≤ 64 := by decide
  exact hall (code word, mebibytes) (stolenMebibytes_eq_ok_iff.mp h)

/-- The word is looked up under the mask, and the refusal of an unknown code tells no more of
it. -/
theorem stolenMebibytes_congr (h : AgreeOn codeBits word other) :
    stolenMebibytes word = stolenMebibytes other := by
  have hmasked : word &&& stolenMask = other &&& stolenMask := by
    apply UInt16.toNat_inj.mp
    rw [toNat_and_stolenMask, toNat_and_stolenMask, code_eq_iff.mpr h]
  unfold stolenMebibytes
  rw [hmasked]

theorem apertureMebibytes_eq (word : UInt16) :
    apertureMebibytes word = if word.toNat.testBit 0 then 64 else 128 := by
  have hbit : word &&& apertureMask = apertureMask ↔ word.toNat.testBit 0 = true := by
    rw [← UInt16.toNat_inj, UInt16.toNat_and]
    show word.toNat &&& 1 = 1 ↔ _
    rw [Nat.and_one_is_mod, Nat.testBit_zero, decide_eq_true_iff]
  unfold apertureMebibytes
  simp only [hbit]

end ControlWord

end Igd
