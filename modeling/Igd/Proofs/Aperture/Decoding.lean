/-
Decoding is exact, and heeds five bits of the control word.

`Reading` says by the bits of the word, and in whole numbers, which words are refused and what
every other word comes to: the code in bits 7 to 4 gives the amount, and bit 0 the size of the
aperture on legacy parts.

`Heeds` compares two words, or two lengths of the aperture BAR.  A word counts only through its
row in the table of amounts and through the size of the aperture, so what changes neither
changes nothing.
-/
import Igd.Proofs.Aperture

namespace Igd

namespace Chip

theorem is9Series_iff {chip : Chip} (h : chip ∈ table) :
    chip.is9Series = true ↔ chip.generation ≠ .legacy := by
  have hall : ∀ c ∈ table, (c.is9Series = true ↔ c.generation ≠ .legacy) := by decide
  exact hall chip h

/-- A part of the 9-series. -/
def g45 : Chip := entry 0x2e22 "G45" .i9xx [.i9xx, .i965g]

end Chip

namespace Geometry

open ControlWord

theorem apertureSizeOf_eq (chip : Chip) (word : UInt16) (barLength : UInt64) :
    apertureSizeOf chip word barLength =
      if chip.generation = .legacy then
        if word.toNat.testBit 0 then 64 * 2 ^ 20 else 128 * 2 ^ 20
      else barLength.toNat := by
  have hmebibyte : mebibyte = 2 ^ 20 := by decide
  unfold apertureSizeOf
  cases chip.generation with
  | legacy =>
    rw [apertureMebibytes_eq, hmebibyte, ite_mul, if_pos rfl]
  | i9xx => exact (if_neg (by decide)).symm
  | g33 => exact (if_neg (by decide)).symm

theorem remainder_eq (mebibytes apertureSize : Nat) :
    remainder mebibytes apertureSize =
      (mebibytes : Int) * 2 ^ 20 - ((apertureSize / 1024 + 4096 : Nat) : Int) := by
  unfold remainder mebibyte popupSize
  omega

/-! ### One word -/

/-- What a control word and the length of the aperture BAR say, by the bits of the word. -/
structure Reading (chip : Chip) (word : UInt16) (barLength : UInt64)
    (result : Except GeometryError Geometry) : Prop where
  /-- Nothing is set aside just if the bits of the code are all zero. -/
  disabled_iff : result = .error .disabled ↔ ∀ i ∈ [4, 5, 6, 7], word.toNat.testBit i = false
  /-- A code is refused just if it has bit 7, and it is told in the place where it stands. -/
  unrecognized_iff : ∀ told, result = .error (.unrecognized told) ↔
    word.toNat.testBit 7 = true ∧ told = word &&& 0xf0
  /-- Every other word comes to a geometry. -/
  isFound_iff : (∃ g, result = .ok g) ↔
    (∃ i ∈ [4, 5, 6, 7], word.toNat.testBit i = true) ∧ word.toNat.testBit 7 = false
  /-- It is the one in which the overhead is taken from the amount in whole numbers. -/
  found_iff : ∀ g, result = .ok g ↔ ∃ mebibytes, (code word, mebibytes) ∈ amounts ∧
    g.apertureSize =
      (if chip.generation = .legacy then
        if word.toNat.testBit 0 then 64 * 2 ^ 20 else 128 * 2 ^ 20
      else barLength.toNat) ∧
    g.stolenSize = (mebibytes : Int) * 2 ^ 20 - ((g.apertureSize / 1024 + 4096 : Nat) : Int)
  /-- What can be handed out is what is left, or nothing. -/
  usable_eq : ∀ g, result = .ok g → (g.usable : Int) = max g.stolenSize 0

/-- **Decoding reads a word as its bits say.** -/
theorem decode_reading (chip : Chip) (word : UInt16) (barLength : UInt64) :
    ∃ result notice, decode chip word barLength = .ok (result, notice) ∧
      Reading chip word barLength result := by
  refine ⟨_, _, decode_eq chip word barLength, ?_, ?_, ?_, ?_, ?_⟩
  · rw [map_eq_error_iff, stolenMebibytes_eq_disabled_iff]
    exact code_eq_zero_iff
  · intro told
    rw [map_eq_error_iff, stolenMebibytes_eq_unrecognized_iff, eight_le_code_iff]
    rfl
  · simp only [map_eq_ok_iff, stolenMebibytes_eq_ok_iff]
    rw [exists_comm]
    simp only [exists_and_left, exists_eq', and_true]
    exact exists_amount_iff
  · intro g
    rw [map_eq_ok_iff, ← apertureSizeOf_eq]
    constructor
    · rintro ⟨mebibytes, hword, rfl⟩
      exact ⟨mebibytes, stolenMebibytes_eq_ok_iff.mp hword, rfl, remainder_eq _ _⟩
    · rintro ⟨mebibytes, hrow, hsize, hleft⟩
      refine ⟨mebibytes, stolenMebibytes_eq_ok_iff.mpr hrow, ?_⟩
      rw [← hsize, remainder_eq, ← hleft]
  · intro g _
    exact Int.toNat_eq_max _

/-! ### Two words and two lengths -/

/-- A word and a length count only through the amount and the size of the aperture.  So bits
that are in neither are bits that do not count. -/
theorem decode_congr {chip : Chip} {word other : UInt16} {barLength length : UInt64}
    (hamount : stolenMebibytes other = stolenMebibytes word)
    (hsize : apertureSizeOf chip other length = apertureSizeOf chip word barLength) :
    decode chip other length = decode chip word barLength := by
  rw [decode_eq, decode_eq, hsize]
  unfold decodeNotice
  rw [hamount]

theorem apertureSizeOf_mono {chip : Chip} {word : UInt16} {barLength longer : UInt64}
    (h : barLength ≤ longer) :
    apertureSizeOf chip word barLength ≤ apertureSizeOf chip word longer := by
  rw [apertureSizeOf_eq, apertureSizeOf_eq]
  split
  · exact Nat.le_refl _
  · exact UInt64.le_iff_toNat_le.mp h

/-- A larger aperture leaves no more of an amount, since its overhead is no smaller. -/
theorem remainder_anti {mebibytes size larger : Nat} (h : size ≤ larger) :
    remainder mebibytes larger ≤ remainder mebibytes size := by
  unfold remainder
  omega

/-- What decoding does not heed, and which way the length of the BAR counts. -/
structure Heeds (chip : Chip) (word : UInt16) (barLength : UInt64) : Prop where
  /-- No bit counts but bit 0 and those of the code. -/
  others : ∀ other, AgreeOn [0, 4, 5, 6, 7] word other →
    decode chip other barLength = decode chip word barLength
  /-- On a legacy part the length of the BAR does not count. -/
  legacy : chip.generation = .legacy → ∀ length,
    decode chip word length = decode chip word barLength
  /-- On the 9-series bit 0 does not count. -/
  nineSeries : chip.is9Series = true → ∀ other, AgreeOn [4, 5, 6, 7] word other →
    decode chip other barLength = decode chip word barLength
  /-- Under a longer BAR no more is left. -/
  antitone : ∀ longer g g' notice notice', barLength ≤ longer →
    decode chip word barLength = .ok (.ok g, notice) →
    decode chip word longer = .ok (.ok g', notice') → g'.stolenSize ≤ g.stolenSize

/-- **Five bits and one length are all that counts.**  The amount is in the code, and the size
of the aperture in bit 0 or in the length, never in both.  So the first three are
`decode_congr`; in the last the word stays the same, and only the overhead grows. -/
theorem decode_heeds {chip : Chip} (hchip : chip ∈ Chip.table) (word : UInt16)
    (barLength : UInt64) : Heeds chip word barLength := by
  constructor
  · intro other hagree
    have hcode : AgreeOn codeBits word other := fun i hi => hagree i (List.mem_cons_of_mem 0 hi)
    apply decode_congr (stolenMebibytes_congr hcode).symm
    rw [apertureSizeOf_eq, apertureSizeOf_eq, hagree 0 List.mem_cons_self]
  · intro hlegacy length
    apply decode_congr rfl
    rw [apertureSizeOf_eq, apertureSizeOf_eq, if_pos hlegacy, if_pos hlegacy]
  · intro hseries other hagree
    have hgeneration := (Chip.is9Series_iff hchip).mp hseries
    apply decode_congr (stolenMebibytes_congr hagree).symm
    rw [apertureSizeOf_eq, apertureSizeOf_eq, if_neg hgeneration, if_neg hgeneration]
  · -- The word is the same, so the amount is, and only the overhead may grow.
    intro longer g g' notice notice' hlonger h h'
    obtain ⟨mebibytes, hword, hsize, hleft⟩ := decode_eq_ok h
    obtain ⟨mebibytes', hword', hsize', hleft'⟩ := decode_eq_ok h'
    obtain rfl : mebibytes = mebibytes' := Except.ok.inj (hword.symm.trans hword')
    have hmono : g.apertureSize ≤ g'.apertureSize := by
      rw [hsize, hsize']
      exact apertureSizeOf_mono hlonger
    rw [hleft, hleft']
    exact remainder_anti hmono

/-- **Decoding is exact for every part of the table, every control word and every length of the
aperture BAR.** -/
theorem decode_exact {chip : Chip} (hchip : chip ∈ Chip.table) (word : UInt16)
    (barLength : UInt64) :
    (∃ result notice, decode chip word barLength = .ok (result, notice) ∧
      Reading chip word barLength result) ∧ Heeds chip word barLength :=
  ⟨decode_reading chip word barLength, decode_heeds hchip word barLength⟩

/-- On a G45 with an aperture of two gibibytes a single mebibyte does not cover the overhead,
whatever stands in the other bits of the word, and still less is left under the longest BAR. -/
theorem decode_exact_g45 : Chip.g45 ∈ Chip.table ∧
    (∃ result notice, decode .g45 0xab13 0x80000000 = .ok (result, notice) ∧
      result = .ok ⟨0x80000000, -1052672⟩ ∧ Reading .g45 0xab13 0x80000000 result) ∧
    AgreeOn [4, 5, 6, 7] 0xab13 0x10 ∧
    decode .g45 0x10 0x80000000 = decode .g45 0xab13 0x80000000 ∧
    (0x80000000 : UInt64) ≤ 0xffffffffffffffff ∧
    ∃ g notice, decode .g45 0xab13 0xffffffffffffffff = .ok (.ok g, notice) ∧
      g.stolenSize ≤ -1052672 := by
  have hchip : Chip.g45 ∈ Chip.table := by decide
  have hagree : AgreeOn [4, 5, 6, 7] 0xab13 0x10 := by unfold AgreeOn; decide
  have hlonger : (0x80000000 : UInt64) ≤ 0xffffffffffffffff := by decide
  have hfound : decode .g45 0xab13 0x80000000 = .ok (.ok ⟨0x80000000, -1052672⟩,
      some (.overheadExceedsStolen 0x201000 1)) := by decide +kernel
  have hlongest : decode .g45 0xab13 0xffffffffffffffff = .ok
      (.ok ⟨0xffffffffffffffff, -18014398508437503⟩,
        some (.overheadExceedsStolen 0x40000000000fff 1)) := by decide +kernel
  obtain ⟨⟨result, notice, hdecode, hreading⟩, hheeds⟩ := decode_exact hchip 0xab13 0x80000000
  refine ⟨hchip, ⟨result, notice, hdecode, ?_, hreading⟩, hagree,
    hheeds.nineSeries (by decide) 0x10 hagree, hlonger, _, _, hlongest,
    hheeds.antitone _ _ _ _ _ hlonger hfound hlongest⟩
  exact congrArg Prod.fst (Except.ok.inj (hdecode.symm.trans hfound))

end Geometry

end Igd
