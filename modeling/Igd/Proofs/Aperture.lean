/-
The geometry is always found or refused, never a fault.

`decode` works on machine words: a division, a sum and a signed difference, each
of which could leave its word.  None does, for any control word and any length of
the aperture BAR.  A length is below 2^64, so the overhead is below 2^54 + 2^12, and
the amounts in the table are at most 64 mebibytes, so both read the same as signed
words and their difference stays far inside the range of one.

What is left is `decode_eq`: the word is refused for the code in it, or the
geometry is the one that arithmetic on integers gives.
-/
import Igd.Aperture.Geometry
import Igd.Proofs.Aperture.ControlWord
import Mathlib.Tactic.NormNum

namespace Igd

namespace Geometry

theorem apertureSizeOf_lt (chip : Chip) (word : UInt16) (barLength : UInt64) :
    apertureSizeOf chip word barLength < wordCount := by
  unfold apertureSizeOf
  cases chip.generation with
  | legacy =>
    simp only [ControlWord.apertureMebibytes]
    split <;> simp only [mebibyte, wordCount] <;> omega
  | i9xx => exact barLength.toNat_lt
  | g33 => exact barLength.toNat_lt

theorem overheadOf_eq {apertureSize : Nat} (h : apertureSize < wordCount) :
    overheadOf apertureSize = .ok (apertureSize / 1024 + popupSize) := by
  apply Checked.add_eq
  simp only [wordCount, popupSize] at *
  omega

theorem signed_eq {n : Nat} (h : n < signedCount) : signed n = n := by
  unfold signed
  rw [Int.bmod_eq_of_le]
  · simp only [wordCount]; omega
  · simp only [wordCount, signedCount] at *; omega

/-- What is left of an amount of stolen memory beside an aperture. -/
def remainder (mebibytes apertureSize : Nat) : Int :=
  (mebibytes * mebibyte : Nat) - (apertureSize / 1024 + popupSize : Nat)

/-- The message that goes with a geometry, or with the refusal of one. -/
def decodeNotice (word : UInt16) (apertureSize : Nat) : Option Notice :=
  match ControlWord.stolenMebibytes word with
  | .error e => some (.geometryRejected e)
  | .ok mebibytes =>
    if remainder mebibytes apertureSize < 0 then
      some (.overheadExceedsStolen (apertureSize / 1024 + popupSize) mebibytes)
    else none

/-- **Decoding never leaves a machine word.**  The overhead is computed before the code is
looked at, and no aperture is so large that the sum behind it would not fit.  So a word is
refused exactly for its code, and otherwise the sizes are those of integer arithmetic. -/
theorem decode_eq (chip : Chip) (word : UInt16) (barLength : UInt64) :
    decode chip word barLength = .ok
      ((ControlWord.stolenMebibytes word).map fun mebibytes =>
          ⟨apertureSizeOf chip word barLength,
            remainder mebibytes (apertureSizeOf chip word barLength)⟩,
        decodeNotice word (apertureSizeOf chip word barLength)) := by
  have hsize := apertureSizeOf_lt chip word barLength
  unfold decode decodeNotice
  simp only [overheadOf_eq hsize, Checked.ok_bind]
  cases hword : ControlWord.stolenMebibytes word with
  | error e => rfl
  | ok mebibytes =>
    have hle := ControlWord.stolenMebibytes_le hword
    have hamount : mebibytes * mebibyte < signedCount := by
      simp only [mebibyte, signedCount]; omega
    have hoverhead : apertureSizeOf chip word barLength / 1024 + popupSize < signedCount := by
      simp only [wordCount, popupSize, signedCount] at *; omega
    have hleft : Checked.subSigned (signed (mebibytes * mebibyte))
        (signed (apertureSizeOf chip word barLength / 1024 + popupSize))
        = .ok (remainder mebibytes (apertureSizeOf chip word barLength)) := by
      rw [signed_eq hamount, signed_eq hoverhead]
      apply if_pos
      simp only [signedCount] at *
      omega
    simp only [hleft, Checked.ok_bind, Except.map]
    rfl

theorem map_eq_error_iff {ε α β : Type} {x : Except ε α} {f : α → β} {e : ε} :
    x.map f = .error e ↔ x = .error e := by
  cases x <;> simp [Except.map]

theorem map_eq_ok_iff {ε α β : Type} {x : Except ε α} {f : α → β} {b : β} :
    x.map f = .ok b ↔ ∃ a, x = .ok a ∧ f a = b := by
  cases x <;> simp [Except.map]

theorem decode_eq_ok {chip : Chip} {word : UInt16} {barLength : UInt64} {g : Geometry}
    {notice : Option Notice} (h : decode chip word barLength = .ok (.ok g, notice)) :
    ∃ mebibytes, ControlWord.stolenMebibytes word = .ok mebibytes ∧
      g.apertureSize = apertureSizeOf chip word barLength ∧
      g.stolenSize = remainder mebibytes g.apertureSize := by
  rw [decode_eq] at h
  obtain ⟨hresult, -⟩ := Prod.mk.inj (Except.ok.inj h)
  obtain ⟨mebibytes, hword, rfl⟩ := map_eq_ok_iff.mp hresult
  exact ⟨mebibytes, hword, rfl, rfl⟩

/-- The remainder may be negative, and a negative one counts as nothing left, which fits any
aperture. -/
theorem remainder_le_iff (mebibytes apertureSize : Nat) :
    (remainder mebibytes apertureSize).toNat ≤ apertureSize ↔
      mebibytes * mebibyte ≤ apertureSize + (apertureSize / 1024 + popupSize) := by
  unfold remainder
  omega

/-- The aperture of a legacy part is at least as large as any amount in the table, since the
largest amount is as large as the smaller of the two apertures. -/
theorem mebibytes_le_of_legacy {chip : Chip} {word : UInt16} {barLength : UInt64}
    {mebibytes : Nat} (hchip : chip.generation = .legacy)
    (hword : ControlWord.stolenMebibytes word = .ok mebibytes) :
    mebibytes * mebibyte ≤ apertureSizeOf chip word barLength := by
  have hle := ControlWord.stolenMebibytes_le hword
  unfold apertureSizeOf ControlWord.apertureMebibytes
  rw [hchip]
  simp only [mebibyte]
  split <;> omega

end Geometry

end Igd
