/-
Addresses and rounding up.

An address is a word, and made of a number that fits the word it has that number.

Rounding to a power of two clears the bits below it in the sum of the value and the
mask of those bits.  What is left of the sum is its largest multiple of the power, and
so the least multiple at or above the value.
-/
import Igd.Addressing
import Mathlib.Algebra.Group.Nat.Defs

namespace Igd

theorem VirtAddr.toNat_ofNat {n : Nat} (h : n < wordCount) : (⟨.ofNat n⟩ : VirtAddr).toNat = n :=
  UInt64.toNat_ofNat_of_lt h

theorem PhysAddr.toNat_ofNat {n : Nat} (h : n < wordCount) : (⟨.ofNat n⟩ : PhysAddr).toNat = n :=
  UInt64.toNat_ofNat_of_lt h

theorem PhysAddr.toNat_inj {a b : PhysAddr} (h : a.toNat = b.toNat) : a = b :=
  congrArg PhysAddr.mk (UInt64.toNat_inj.mp h)

theorem PhysAddr.add_cases (base : PhysAddr) (offset : Nat) :
    (∃ a, base.add offset = .ok a ∧ a.toNat = base.toNat + offset) ∨
      (base.add offset = .error .addOverflow ∧ wordCount ≤ base.toNat + offset) := by
  by_cases hword : base.toNat + offset < wordCount
  · refine .inl ⟨⟨.ofNat (base.toNat + offset)⟩, ?_, PhysAddr.toNat_ofNat hword⟩
    simp only [PhysAddr.add, Checked.add_eq hword, Checked.ok_bind]
    rfl
  · have hover : Checked.add base.toNat offset = .error .addOverflow := if_neg hword
    refine .inr ⟨?_, Nat.le_of_not_lt hword⟩
    simp only [PhysAddr.add, hover, Checked.error_bind]

theorem PhysAddr.add_zero (base : PhysAddr) : base.add 0 = .ok base := by
  rcases base.add_cases 0 with ⟨a, hadd, hsame⟩ | ⟨-, hover⟩
  · rw [hadd, PhysAddr.toNat_inj hsame]
  · exact absurd hover (Nat.not_le_of_lt base.val.toNat_lt)

theorem PhysAddr.toNat_of_register? {a : PhysAddr} {value : UInt32}
    (h : a.register? = some value) : value.toNat = a.toNat := by
  unfold register? at h
  split at h
  · rename_i hlt
    obtain rfl := Option.some.inj h
    exact UInt32.toNat_ofNat_of_lt' hlt
  · cases h

/-- A power of two in the sense of its one bit. -/
theorem isPowerOfTwo_iff {n : Nat} : isPowerOfTwo n ↔ ∃ k, n = 2 ^ k := by
  simp only [isPowerOfTwo, beq_iff_eq, Nat.one_shiftLeft]
  constructor
  · exact fun h => ⟨_, h.symm⟩
  · rintro ⟨k, rfl⟩
    rw [Nat.log2_two_pow]

theorem isPowerOfTwo_pos {n : Nat} (h : isPowerOfTwo n) : 0 < n := by
  rcases Nat.eq_zero_or_pos n with rfl | hpos
  · cases h
  · exact hpos

/-- The words end at a multiple of every power of two among them, so a word that is rounded up
never jumps over their end. -/
theorem isPowerOfTwo_dvd_wordCount {n : Nat} (h : isPowerOfTwo n) (hword : n < wordCount) :
    n ∣ wordCount := by
  obtain ⟨k, rfl⟩ := isPowerOfTwo_iff.mp h
  have hcount : wordCount = 2 ^ 64 := by decide
  rw [hcount] at hword ⊢
  exact Nat.pow_dvd_pow 2 (Nat.le_of_lt ((Nat.pow_lt_pow_iff_right (by decide)).mp hword))

/-- Rounding up to a power of two, unless the sum behind it leaves the word.  The mask is one
less than the power, so clearing its bits drops the remainder. -/
theorem roundUp?_two_pow (k value : Nat) :
    roundUp? (2 ^ k - 1) value =
      if value + (2 ^ k - 1) < wordCount then some (2 ^ k * ((value + (2 ^ k - 1)) / 2 ^ k))
      else none := by
  have hdiv := Nat.div_add_mod (value + (2 ^ k - 1)) (2 ^ k)
  simp only [roundUp?, Nat.and_two_pow_sub_one_eq_mod]
  congr 2
  omega

theorem roundUp?_eq_some {align value start : Nat} (halign : isPowerOfTwo align)
    (h : roundUp? (align - 1) value = some start) :
    align ∣ start ∧ value ≤ start ∧ start < value + align := by
  obtain ⟨k, rfl⟩ := isPowerOfTwo_iff.mp halign
  have hpos : 0 < 2 ^ k := Nat.two_pow_pos k
  have hdiv := Nat.div_add_mod (value + (2 ^ k - 1)) (2 ^ k)
  have hmod := Nat.mod_lt (value + (2 ^ k - 1)) hpos
  rw [roundUp?_two_pow] at h
  split at h
  · obtain rfl := Option.some.inj h
    exact ⟨Nat.dvd_mul_right _ _, by omega, by omega⟩
  · cases h

/-- **Rounding up passes no multiple**: if there is one at or above the value that fits the
word, the sum behind the rounding fits as well, since the word ends at a multiple. -/
theorem roundUp?_le {align value base : Nat} (halign : isPowerOfTwo align)
    (hword : align < wordCount) (hdvd : align ∣ base) (hle : value ≤ base)
    (hbase : base < wordCount) :
    ∃ start, roundUp? (align - 1) value = some start ∧ start ≤ base := by
  have hwhole := isPowerOfTwo_dvd_wordCount halign hword
  have hnext : base + align ≤ wordCount :=
    Nat.le_of_lt_add_of_dvd (by omega) ((Nat.dvd_add_right hdvd).mpr (Nat.dvd_refl _)) hwhole
  have hpos : 0 < align := isPowerOfTwo_pos halign
  have hround : ∃ start, roundUp? (align - 1) value = some start :=
    ⟨_, if_pos (by omega : value + (align - 1) < wordCount)⟩
  obtain ⟨start, hstart⟩ := hround
  obtain ⟨hmultiple, -, hlt⟩ := roundUp?_eq_some halign hstart
  exact ⟨start, hstart, Nat.le_of_lt_add_of_dvd (by omega) hmultiple hdvd⟩

end Igd
