/-
A window as a row of bytes.

What a window of registers does can be told without memory, on the row of its bytes.  A
register is four bytes of the row, the lowest first, if the row has all four; a write puts
four bytes there, a clear puts zeros, and the rest of the row stays (`Access.on`).

A clear goes by bytes, so it may cut registers, and a write goes by registers.  Still no
register depends on another one: registers lie at multiples of four, so two of them share no
byte.  `held` is what a register holds by the history of that register alone, which is the
value written last without the bytes cleared since, and `word_onAll` says that the row has it.
-/
import Igd.Platform.Registers
import Mathlib.Data.List.Basic
import Mathlib.Data.List.Induction

namespace Igd

/-- An access to a window: to one of its registers, or to a range of its bytes. -/
inductive Access
  | read (register : UInt32)
  | write (register value : UInt32)
  | clear (offset length : Nat)
  deriving DecidableEq, Repr

/-- The bytes of a window. -/
abbrev Row := List UInt8

/-- A row of this length has all of this register. -/
def HasRegister (length : Nat) (register : UInt32) : Prop :=
  register.toNat % 4 = 0 ∧ register.toNat + 4 ≤ length

instance (length : Nat) (register : UInt32) : Decidable (HasRegister length register) :=
  inferInstanceAs (Decidable (_ ∧ _))

/-! ### Words -/

/-- The bytes of a word, the lowest first. -/
def wordBytes (value : UInt32) : List UInt8 :=
  [.ofNat value.toNat, .ofNat (value.toNat / 0x100), .ofNat (value.toNat / 0x10000),
    .ofNat (value.toNat / 0x1000000)]

/-- The word that has these bytes, the lowest first. -/
def wordOf (bytes : List UInt8) : UInt32 :=
  .ofNat (bytes.foldr (fun byte rest => byte.toNat + 0x100 * rest) 0)

theorem length_wordBytes (value : UInt32) : (wordBytes value).length = 4 := rfl

theorem wordOf_wordBytes (value : UInt32) : wordOf (wordBytes value) = value := by
  have hword := value.toNat_lt
  apply UInt32.toNat_inj.mp
  simp only [wordOf, wordBytes, List.foldr, UInt8.toNat_ofNat', UInt32.toNat_ofNat']
  omega

theorem wordBytes_wordOf {bytes : List UInt8} (h : bytes.length = 4) :
    wordBytes (wordOf bytes) = bytes := by
  obtain ⟨a, b, c, d, rfl⟩ := List.length_eq_four.mp h
  have ha := a.toNat_lt
  have hb := b.toNat_lt
  have hc := c.toNat_lt
  have hd := d.toNat_lt
  simp only [wordOf, wordBytes, List.foldr, UInt32.toNat_ofNat', List.cons.injEq, and_true,
    ← UInt8.toNat_inj, UInt8.toNat_ofNat']
  omega

/-! ### Rows -/

namespace Row

variable {row : Row} {offset : Nat} {bytes : List UInt8}

/-- The bytes of a row from a place on. -/
def slice (row : Row) (offset length : Nat) : List UInt8 := (row.drop offset).take length

/-- The row with other bytes from a place on. -/
def overwrite (row : Row) (offset : Nat) (bytes : List UInt8) : Row :=
  row.take offset ++ bytes ++ row.drop (offset + bytes.length)

/-- The word at a place. -/
def word (row : Row) (offset : Nat) : UInt32 := wordOf (row.slice offset 4)

theorem getElem?_slice (row : Row) (offset length d : Nat) :
    (row.slice offset length)[d]? = if d < length then row[offset + d]? else none := by
  rw [slice, List.getElem?_take, List.getElem?_drop]

theorem length_slice {length : Nat} (h : offset + length ≤ row.length) :
    (row.slice offset length).length = length := by
  rw [slice, List.length_take, List.length_drop]
  omega

theorem length_overwrite (h : offset + bytes.length ≤ row.length) :
    (row.overwrite offset bytes).length = row.length := by
  simp only [overwrite, List.length_append, List.length_take, List.length_drop]
  omega

theorem getElem?_overwrite (h : offset + bytes.length ≤ row.length) (i : Nat) :
    (row.overwrite offset bytes)[i]? =
      if offset ≤ i ∧ i < offset + bytes.length then bytes[i - offset]? else row[i]? := by
  have hfront : (row.take offset).length = offset := by
    rw [List.length_take]
    omega
  have hboth : (row.take offset ++ bytes).length = offset + bytes.length := by
    rw [List.length_append, hfront]
  by_cases hlow : i < offset
  · rw [if_neg (by omega), overwrite, List.getElem?_append_left (by omega),
      List.getElem?_append_left (by omega), List.getElem?_take_of_lt hlow]
  · by_cases hin : i < offset + bytes.length
    · rw [if_pos ⟨by omega, hin⟩, overwrite, List.getElem?_append_left (by omega),
        List.getElem?_append_right (by omega), hfront]
    · rw [if_neg (by omega), overwrite, List.getElem?_append_right (by omega), hboth,
        List.getElem?_drop]
      congr 1
      omega

theorem slice_overwrite (h : offset + bytes.length ≤ row.length) :
    (row.overwrite offset bytes).slice offset bytes.length = bytes := by
  refine List.ext_getElem? fun d => ?_
  rw [getElem?_slice, getElem?_overwrite h]
  by_cases hd : d < bytes.length
  · rw [if_pos hd, if_pos (by omega), Nat.add_sub_cancel_left]
  · rw [if_neg hd, List.getElem?_eq_none (by omega)]

theorem slice_overwrite_apart (h : offset + bytes.length ≤ row.length) {place length : Nat}
    (hapart : place + length ≤ offset ∨ offset + bytes.length ≤ place) :
    (row.overwrite offset bytes).slice place length = row.slice place length := by
  refine List.ext_getElem? fun d => ?_
  rw [getElem?_slice, getElem?_slice]
  by_cases hd : d < length
  · rw [if_pos hd, if_pos hd, getElem?_overwrite h, if_neg (by omega)]
  · rw [if_neg hd, if_neg hd]

end Row

/-! ### Accesses -/

namespace Access

/-- What an access answers, and the row it leaves.  Outside the row a read gives all ones and
a write does nothing. -/
def on (row : Row) : Access → Option UInt32 × Row
  | .read register =>
    (some (if HasRegister row.length register then row.word register.toNat else 0xffffffff), row)
  | .write register value =>
    (none, if HasRegister row.length register
      then row.overwrite register.toNat (wordBytes value) else row)
  | .clear offset length => (none, row.overwrite offset (.replicate length 0))

/-- What accesses answer one after another, and the row they leave. -/
def onAll : List Access → Row → List (Option UInt32) × Row
  | [], row => ([], row)
  | a :: rest, row =>
    let (answer, after) := a.on row
    let (answers, last) := onAll rest after
    (answer :: answers, last)

/-- A range that is cleared lies inside. -/
def Inside (length : Nat) : Access → Prop
  | .clear offset count => offset + count ≤ length
  | _ => True

/-- The value that an access writes to a register, if it does. -/
def writes? (register : UInt32) : Access → Option UInt32
  | .write other value => if other = register then some value else none
  | _ => none

/-- An access clears a byte. -/
def clears (i : Nat) : Access → Bool
  | .clear offset length => offset ≤ i ∧ i < offset + length
  | _ => false

/-- A word at a place without the bytes that these accesses clear. -/
def uncleared (accesses : List Access) (place : Nat) (value : UInt32) : UInt32 :=
  wordOf ((wordBytes value).mapIdx fun d byte =>
    if accesses.any (clears (place + d)) then 0 else byte)

/-- What a register holds after these accesses, if it held `initial` before: the value written
to it last, without the bytes cleared since. -/
def held (register initial : UInt32) (accesses : List Access) : UInt32 :=
  let latest := accesses.reverse
  uncleared (latest.takeWhile fun a => (a.writes? register).isNone) register.toNat
    ((latest.findSome? (writes? register)).getD initial)

/-! ### One access -/

variable {row : Row} {accesses : List Access} {a : Access}

theorem length_on (h : a.Inside row.length) : (a.on row).2.length = row.length := by
  cases a with
  | read register => rfl
  | write register value =>
    by_cases hr : HasRegister row.length register
    · simp only [on, if_pos hr]
      exact Row.length_overwrite hr.2
    · simp only [on, if_neg hr]
  | clear offset length =>
    have hin : offset + (List.replicate length (0 : UInt8)).length ≤ row.length := by
      rw [List.length_replicate]
      exact h
    exact Row.length_overwrite hin

theorem getElem?_uncleared (accesses : List Access) (place : Nat) (value : UInt32) (d : Nat) :
    (wordBytes (uncleared accesses place value))[d]? = ((wordBytes value)[d]?).map fun byte =>
      if accesses.any (clears (place + d)) then 0 else byte := by
  rw [uncleared, wordBytes_wordOf (by rw [List.length_mapIdx, length_wordBytes]),
    List.getElem?_mapIdx]

theorem word_ext {v w : UInt32} (h : ∀ d : Nat, (wordBytes v)[d]? = (wordBytes w)[d]?) : v = w := by
  rw [← wordOf_wordBytes v, List.ext_getElem? h, wordOf_wordBytes]

theorem uncleared_of_none {place : Nat} (h : ∀ i, ¬ a.clears i) (value : UInt32) :
    uncleared [a] place value = value := by
  refine word_ext fun d => ?_
  rw [getElem?_uncleared]
  simp [h]

@[simp] theorem uncleared_nil (place : Nat) (value : UInt32) :
    uncleared [] place value = value := by
  refine word_ext fun d => ?_
  rw [getElem?_uncleared]
  simp

theorem uncleared_cons (place : Nat) (value : UInt32) :
    uncleared (a :: accesses) place value
      = uncleared [a] place (uncleared accesses place value) := by
  refine word_ext fun d => ?_
  rw [getElem?_uncleared, getElem?_uncleared, getElem?_uncleared, Option.map_map]
  congr 1
  funext byte
  by_cases ha : a.clears (place + d) <;> simp [ha]

theorem getElem?_word {place : Nat} (h : place + 4 ≤ row.length) (d : Nat) :
    (wordBytes (row.word place))[d]? = if d < 4 then row[place + d]? else none := by
  rw [Row.word, wordBytes_wordOf (Row.length_slice h), Row.getElem?_slice]

theorem word_clear {offset length place : Nat} (hin : offset + length ≤ row.length)
    (hplace : place + 4 ≤ row.length) :
    (row.overwrite offset (.replicate length 0)).word place
      = uncleared [.clear offset length] place (row.word place) := by
  have hzeros : (List.replicate length (0 : UInt8)).length = length := List.length_replicate
  have hfits : offset + (List.replicate length (0 : UInt8)).length ≤ row.length := by
    rw [hzeros]
    exact hin
  have hkept : place + 4 ≤ (row.overwrite offset (.replicate length 0)).length := by
    rw [Row.length_overwrite hfits]
    exact hplace
  refine word_ext fun d => ?_
  rw [getElem?_word hkept, getElem?_uncleared, getElem?_word hplace]
  by_cases hd : d < 4
  · rw [if_pos hd, if_pos hd, Row.getElem?_overwrite hfits, hzeros]
    obtain ⟨byte, hbyte⟩ : ∃ byte, row[place + d]? = some byte :=
      ⟨_, List.getElem?_eq_getElem (by omega)⟩
    by_cases hcut : offset ≤ place + d ∧ place + d < offset + length
    · rw [if_pos hcut, hbyte, List.getElem?_replicate, if_pos (by omega)]
      simp [clears, hcut]
    · rw [if_neg hcut, hbyte]
      simp [clears, hcut]
  · rw [if_neg hd, if_neg hd]
    rfl

/-- Registers do not overlap: their places are multiples of four, so two that share a byte are
one. -/
theorem registers_apart {r s : UInt32} (hne : r ≠ s) (hr : r.toNat % 4 = 0)
    (hs : s.toNat % 4 = 0) : r.toNat + 4 ≤ s.toNat ∨ s.toNat + 4 ≤ r.toNat := by
  have hplace : r.toNat ≠ s.toNat := fun h => hne (UInt32.toNat_inj.mp h)
  omega

/-- **What an access does to a register**: a write of it leaves the value, and any other
access leaves what it held, without the bytes cleared. -/
theorem word_on {register : UInt32} (hr : HasRegister row.length register)
    (ha : a.Inside row.length) : (a.on row).2.word register.toNat =
      ((a.writes? register).getD (uncleared [a] register.toNat (row.word register.toNat))) := by
  cases a with
  | read other =>
    exact (uncleared_of_none (a := .read other) (fun _ => Bool.false_ne_true) _).symm
  | clear offset length => exact word_clear ha hr.2
  | write other value =>
    have hnone : ∀ i, ¬ clears i (.write other value) := fun _ => Bool.false_ne_true
    by_cases hsame : other = register
    · subst hsame
      have hwrites : writes? other (.write other value) = some value := if_pos rfl
      simp only [on, if_pos hr]
      rw [hwrites, Option.getD_some, Row.word, ← length_wordBytes value,
        Row.slice_overwrite hr.2, wordOf_wordBytes]
    · have hwrites : writes? register (.write other value) = none := if_neg hsame
      rw [hwrites, Option.getD_none, uncleared_of_none hnone]
      by_cases hother : HasRegister row.length other
      · simp only [on, if_pos hother]
        rw [Row.word, Row.slice_overwrite_apart hother.2, Row.word]
        rw [length_wordBytes]
        exact registers_apart (Ne.symm hsame) hr.1 hother.1
      · simp only [on, if_neg hother]

theorem held_nil (register initial : UInt32) : held register initial [] = initial :=
  uncleared_nil _ _

theorem held_concat (register initial : UInt32) (accesses : List Access) (a : Access) :
    held register initial (accesses ++ [a]) =
      (a.writes? register).getD
        (uncleared [a] register.toNat (held register initial accesses)) := by
  simp only [held, List.reverse_append, List.reverse_singleton, List.singleton_append,
    List.findSome?_cons, List.takeWhile_cons]
  cases hwrites : a.writes? register with
  | some value =>
    simp only [Option.isNone_some, Bool.false_eq_true, if_false, Option.getD_some]
    exact uncleared_nil _ _
  | none =>
    simp only [Option.isNone_none, if_true, Option.getD_none]
    exact uncleared_cons _ _

/-! ### All accesses -/

theorem onAll_concat (accesses : List Access) (a : Access) (row : Row) :
    (onAll (accesses ++ [a]) row).2 = (a.on (onAll accesses row).2).2 := by
  induction accesses generalizing row with
  | nil => rfl
  | cons b rest ih => exact ih _

theorem length_onAll (h : ∀ a ∈ accesses, a.Inside row.length) :
    (onAll accesses row).2.length = row.length := by
  induction accesses generalizing row with
  | nil => rfl
  | cons a rest ih =>
    have hfirst : (a.on row).2.length = row.length := length_on (h a List.mem_cons_self)
    show (onAll rest (a.on row).2).2.length = row.length
    rw [ih, hfirst]
    intro b hb
    rw [hfirst]
    exact h b (List.mem_cons_of_mem a hb)

/-- **A register depends on its own history alone.** -/
theorem word_onAll {register : UInt32} (hr : HasRegister row.length register)
    (h : ∀ a ∈ accesses, a.Inside row.length) :
    (onAll accesses row).2.word register.toNat
      = held register (row.word register.toNat) accesses := by
  induction accesses using List.reverseRecOn with
  | nil => exact (held_nil _ _).symm
  | append_singleton before a ih =>
    have hbefore : ∀ b ∈ before, b.Inside row.length := fun b hb =>
      h b (List.mem_append_left [a] hb)
    have hlength := length_onAll hbefore
    have hlast : a.Inside (onAll before row).2.length := by
      rw [hlength]
      exact h a (by simp)
    rw [onAll_concat, word_on (by rw [hlength]; exact hr) hlast, held_concat, ih hbefore]

/-- Each access answers for the row that those before it left. -/
theorem getElem?_onAll (accesses : List Access) (row : Row) (n : Nat) :
    (onAll accesses row).1[n]? =
      (accesses[n]?).map fun a => (a.on (onAll (accesses.take n) row).2).1 := by
  induction accesses generalizing row n with
  | nil => rfl
  | cons a rest ih =>
    cases n with
    | zero => rfl
    | succ n => exact ih _ n

theorem read_onAll (h : ∀ a ∈ accesses, a.Inside row.length) {n : Nat} {register : UInt32}
    (hread : accesses[n]? = some (.read register)) :
    (onAll accesses row).1[n]? = some (some (if HasRegister row.length register
      then held register (row.word register.toNat) (accesses.take n) else 0xffffffff)) := by
  have hbefore : ∀ a ∈ accesses.take n, a.Inside row.length := fun a ha =>
    h a (List.mem_of_mem_take ha)
  rw [getElem?_onAll, hread]
  by_cases hr : HasRegister row.length register
  · simp only [Option.map_some, on, length_onAll hbefore, if_pos hr, word_onAll hr hbefore]
  · simp only [Option.map_some, on, length_onAll hbefore, if_neg hr]

end Access

end Igd
