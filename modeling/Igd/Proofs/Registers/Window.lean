/-
A window does to memory what its accesses do to a row of bytes.

`bytes` reads a window off memory, and that is all there is between the two: whatever is read
from a window, written to it and cleared in it, the answers and the bytes are those of the row
(`accessAll_refines`).  So one access is looked at in memory, and the rest is a walk along the
accesses.

Addresses go around the end of the word, and a window may do so too.  It is no longer than
the word counts, so its bytes lie at different addresses all the same: how far an address is
past the start tells which byte it is (`sub_lt_iff`).

Memory is remembered by the platform, which answers a load with the word that is there, and
nobody else writes it.  There is one such platform for every memory (`remembers_play`).
-/
import Igd.Proofs.Memory
import Igd.Proofs.Registers
import Igd.Proofs.Registers.Row
import Mathlib.Algebra.Group.Nat.Defs

namespace Igd

open Program
open Testbed (Memory)

/-- A request looks at this byte of memory or writes it. -/
def Request.Touches (address : VirtAddr) : Request → Prop
  | .load32 cell => cell.Within 4 address
  | .store32 cell _ => cell.Within 4 address
  | .clear start length => start.Within length address
  | _ => False

/-- Memory after requests, if nobody else writes it. -/
def written (m : Memory) (rs : List Request) : Memory := rs.foldl Request.writeTo m

/-- Every load is answered with the word in memory, which nobody else writes. -/
def Remembers : Memory → List Exchange → Prop
  | _, [] => True
  | m, x :: rest => x.LoadsFrom m ∧ Remembers (x.request.writeTo m) rest

theorem remembers_append {m : Memory} {xs ys : List Exchange} :
    Remembers m (xs ++ ys) ↔ Remembers m xs ∧ Remembers (written m (xs.map (·.request))) ys := by
  induction xs generalizing m with
  | nil => exact ⟨fun h => ⟨trivial, h⟩, fun h => h.2⟩
  | cons x rest ih =>
    show x.LoadsFrom m ∧ Remembers (x.request.writeTo m) (rest ++ ys) ↔ _
    rw [ih, ← and_assoc]
    rfl

theorem Request.byte_writeTo {r : Request} {address : VirtAddr} (h : ¬ r.Touches address)
    (m : Memory) : (r.writeTo m).byte address.val = m.byte address.val := by
  cases r with
  | store32 cell value =>
    have hpast : ¬ address.val - cell.val < 4 := by
      intro hin
      exact h (UInt64.lt_iff_toNat_lt.mp hin)
    exact (m.byte_write _ _ _ _).trans (if_neg hpast)
  | clear start length => exact (m.byte_clear _ _ _).trans (if_neg h)
  | _ => rfl

theorem byte_written {rs : List Request} {address : VirtAddr}
    (h : ∀ r ∈ rs, ¬ r.Touches address) (m : Memory) :
    (written m rs).byte address.val = m.byte address.val := by
  induction rs generalizing m with
  | nil => rfl
  | cons r rest ih =>
    show (written (r.writeTo m) rest).byte address.val = m.byte address.val
    rw [ih (fun s hs => h s (List.mem_cons_of_mem r hs))]
    exact Request.byte_writeTo (h r List.mem_cons_self) m

/-! ### A platform that remembers -/

/-- Answer loads out of memory, and keep what is written there. -/
def remembering (m : Memory) : (r : Request) → r.Answer × Memory
  | .load32 address => (m.load32 address.val, m)
  | r => ((willing ⟨[]⟩ 0 0 () r).1, r.writeTo m)

theorem remembers_play {α : Type} (m : Memory) (p : Program α) :
    Remembers m (exchanges (play remembering m p).1) := by
  induction p generalizing m with
  | done a => trivial
  | fault f => trivial
  | note n rest ih => exact ih m
  | ask r rest ih =>
    cases r with
    | load32 address => exact ⟨rfl, ih _ m⟩
    | _ => exact ⟨trivial, ih _ _⟩

namespace RegisterWindow

/-- Do an access. -/
def access (w : RegisterWindow) : Access → Program (Option UInt32)
  | .read register => do
    return some (← w.read register)
  | .write register value => do
    w.write register value
    return none
  | .clear offset length => do
    Program.request (.clear (w.mapping.virt.add offset) length)
    return none

/-- Do accesses one after another. -/
def accessAll (w : RegisterWindow) : List Access → Program (List (Option UInt32))
  | [] => return []
  | a :: rest => do
    let answer ← w.access a
    return answer :: (← w.accessAll rest)

/-- The bytes of a window in memory. -/
def bytes (w : RegisterWindow) (m : Memory) : Row :=
  (List.range w.length).map fun i => m.byte (w.mapping.virt.add i).val

@[simp] theorem length_bytes (w : RegisterWindow) (m : Memory) :
    List.length (w.bytes m) = w.length := by
  rw [bytes, List.length_map, List.length_range]

variable {w : RegisterWindow} {m : Memory}

theorem getElem?_bytes {i : Nat} (h : i < w.length) :
    (w.bytes m)[i]? = some (m.byte (w.mapping.virt.add i).val) := by
  rw [bytes, List.getElem?_map, List.getElem?_range h]
  rfl

theorem address?_eq (w : RegisterWindow) (register : UInt32) : w.address? register =
    if HasRegister w.length register then some (w.cell register) else none := rfl

/-! ### Addresses in a window -/

/-- How far the byte at `i` is past the byte at `offset` tells whether it is one of the next
`length` bytes. -/
theorem sub_lt_iff {base : VirtAddr} {i offset length : Nat} (hi : i < wordCount)
    (hrange : offset + length < wordCount) :
    ((base.add i).val - (base.add offset).val).toNat < length ↔
      offset ≤ i ∧ i < offset + length := by
  have hoffset : offset < wordCount := by omega
  have hto : (UInt64.ofNat i).toNat = i := UInt64.toNat_ofNat_of_lt hi
  have hfrom : (UInt64.ofNat offset).toNat = offset := UInt64.toNat_ofNat_of_lt hoffset
  have hdiff : (base.add i).val - (base.add offset).val = UInt64.ofNat i - UInt64.ofNat offset := by
    show base.val + UInt64.ofNat i - (base.val + UInt64.ofNat offset) = _
    grind
  rw [hdiff, UInt64.toNat_sub, hto, hfrom]
  simp only [wordCount] at hi hrange
  omega

theorem within_of_within {offset length : Nat} (hword : w.length < wordCount)
    (hin : offset + length ≤ w.length) {address : VirtAddr}
    (h : (w.mapping.virt.add offset).Within length address) :
    w.mapping.virt.Within w.length address := by
  have hoffset : offset < wordCount := by omega
  have hfrom : (UInt64.ofNat offset).toNat = offset := UInt64.toNat_ofNat_of_lt hoffset
  have hsplit : address.val - w.mapping.virt.val
      = (address.val - (w.mapping.virt.add offset).val) + UInt64.ofNat offset := by
    show _ = (address.val - (w.mapping.virt.val + UInt64.ofNat offset)) + UInt64.ofNat offset
    grind
  have hnear : (address.val - (w.mapping.virt.add offset).val).toNat < length := h
  have hsum : (address.val - (w.mapping.virt.add offset).val).toNat + offset < w.length := by
    omega
  show (address.val - w.mapping.virt.val).toNat < w.length
  rw [hsplit, UInt64.toNat_add, hfrom]
  exact Nat.lt_of_le_of_lt (Nat.mod_le _ _) hsum

/-! ### Words of memory -/

/-- Bits above a number add to it. -/
theorem or_shiftLeft {low k : Nat} (h : low < 2 ^ k) (high : Nat) :
    low ||| high <<< k = low + 2 ^ k * high := by
  rw [Nat.or_comm, ← Nat.shiftLeft_add_eq_or_of_lt h, Nat.shiftLeft_eq, Nat.mul_comm,
    Nat.add_comm]

theorem shiftLeft_byte (byte : UInt8) {k : Nat} (hk : k ≤ 24) :
    byte.toNat <<< k % 2 ^ 32 = byte.toNat <<< k := by
  have hbyte := byte.toNat_lt
  have hpow : 2 ^ k ≤ 2 ^ 24 := Nat.pow_le_pow_right (by decide) hk
  have hle : byte.toNat * 2 ^ k ≤ byte.toNat * 2 ^ 24 := Nat.mul_le_mul_left _ hpow
  rw [Nat.shiftLeft_eq]
  exact Nat.mod_eq_of_lt (by omega)

theorem wordOf_eq_or (a b c d : UInt8) : wordOf [a, b, c, d] =
    a.toUInt32 ||| (b.toUInt32 <<< 8) ||| (c.toUInt32 <<< 16) ||| (d.toUInt32 <<< 24) := by
  have ha := a.toNat_lt
  have hb := b.toNat_lt
  have hc := c.toNat_lt
  have hd := d.toNat_lt
  have hab : a.toNat ||| b.toNat <<< 8 = a.toNat + 2 ^ 8 * b.toNat := or_shiftLeft ha _
  have habc : a.toNat + 2 ^ 8 * b.toNat ||| c.toNat <<< 16
      = a.toNat + 2 ^ 8 * b.toNat + 2 ^ 16 * c.toNat := or_shiftLeft (by omega) _
  have habcd : a.toNat + 2 ^ 8 * b.toNat + 2 ^ 16 * c.toNat ||| d.toNat <<< 24
      = a.toNat + 2 ^ 8 * b.toNat + 2 ^ 16 * c.toNat + 2 ^ 24 * d.toNat :=
    or_shiftLeft (by omega) _
  apply UInt32.toNat_inj.mp
  simp only [wordOf, List.foldr, UInt32.toNat_ofNat', UInt32.toNat_or, UInt32.toNat_shiftLeft,
    UInt8.toNat_toUInt32]
  show _ = a.toNat ||| b.toNat <<< 8 % 2 ^ 32 ||| c.toNat <<< 16 % 2 ^ 32
    ||| d.toNat <<< 24 % 2 ^ 32
  rw [shiftLeft_byte b (by decide), shiftLeft_byte c (by decide), shiftLeft_byte d (by decide),
    hab, habc, habcd]
  omega

theorem wordBytes_eq_map (value : UInt32) : wordBytes value =
    (List.range 4).map fun d => Memory.byteOf value.toUInt64 (.ofNat d) := by
  show _ = [Memory.byteOf value.toUInt64 0, Memory.byteOf value.toUInt64 1,
    Memory.byteOf value.toUInt64 2, Memory.byteOf value.toUInt64 3]
  simp [wordBytes, Memory.byteOf, ← UInt8.toNat_inj, Nat.shiftRight_eq_div_pow]

theorem load32_eq_word {register : UInt32} (hr : HasRegister w.length register) (m : Memory) :
    m.load32 (w.cell register).val = (w.bytes m).word register.toNat := by
  have hin := hr.2
  have hslice : (w.bytes m).slice register.toNat 4 =
      (List.range 4).map fun d => m.byte (w.mapping.virt.add (register.toNat + d)).val := by
    refine List.ext_getElem? fun d => ?_
    rw [Row.getElem?_slice, List.getElem?_map]
    by_cases hd : d < 4
    · rw [if_pos hd, getElem?_bytes (by omega), List.getElem?_range hd]
      rfl
    · rw [if_neg hd, List.getElem?_eq_none (by rw [List.length_range]; omega)]
      rfl
  have hnext : ∀ d : Nat, (w.mapping.virt.add (register.toNat + d)).val
      = (w.cell register).val + .ofNat d := by
    intro d
    show w.mapping.virt.val + UInt64.ofNat (register.toNat + d)
      = w.mapping.virt.val + UInt64.ofNat register.toNat + UInt64.ofNat d
    rw [UInt64.ofNat_add, UInt64.add_assoc]
  have hstart : (w.cell register).val + .ofNat 0 = (w.cell register).val := UInt64.add_zero _
  have hfour : (w.bytes m).slice register.toNat 4 = [m.byte ((w.cell register).val + .ofNat 0),
      m.byte ((w.cell register).val + 1), m.byte ((w.cell register).val + 2),
      m.byte ((w.cell register).val + 3)] := by
    rw [hslice]
    simp only [hnext]
    rfl
  rw [Row.word, hfour, hstart, wordOf_eq_or]
  rfl

/-! ### What is written -/

theorem bytes_congr {m n : Memory} (h : ∀ address, m.byte address = n.byte address) :
    w.bytes m = w.bytes n := by
  simp only [bytes, h]

/-- A run of bytes written inside the window.  Each byte is told by how far its address is past
the start, so the window may go around the end of the addresses. -/
theorem bytes_write (hword : w.length < wordCount) {offset length : Nat}
    (hin : offset + length ≤ w.length) (byte : UInt64 → UInt8) :
    w.bytes (m.write (w.mapping.virt.add offset).val (.ofNat length) byte) =
      (w.bytes m).overwrite offset ((List.range length).map fun d => byte (.ofNat d)) := by
  have hcount : ((List.range length).map fun d => byte (.ofNat d)).length = length := by
    rw [List.length_map, List.length_range]
  have hfits : offset + ((List.range length).map fun d => byte (.ofNat d)).length
      ≤ List.length (w.bytes m) := by
    rw [hcount, length_bytes]
    exact hin
  have hshort : length < wordCount := by omega
  have hlength : (UInt64.ofNat length).toNat = length := UInt64.toNat_ofNat_of_lt hshort
  refine List.ext_getElem? fun i => ?_
  rw [Row.getElem?_overwrite hfits, hcount]
  by_cases hi : i < w.length
  · have hreach : (w.mapping.virt.add i).val - (w.mapping.virt.add offset).val < .ofNat length ↔
        offset ≤ i ∧ i < offset + length := by
      rw [UInt64.lt_iff_toNat_lt, hlength]
      exact sub_lt_iff (by omega) (by omega)
    rw [getElem?_bytes hi, getElem?_bytes hi, Memory.byte_write]
    by_cases hin : offset ≤ i ∧ i < offset + length
    · have hplace : (w.mapping.virt.add i).val - (w.mapping.virt.add offset).val
          = UInt64.ofNat (i - offset) := by
        show w.mapping.virt.val + UInt64.ofNat i - (w.mapping.virt.val + UInt64.ofNat offset) = _
        rw [UInt64.ofNat_sub hin.1]
        grind
      rw [if_pos (hreach.mpr hin), if_pos hin, hplace, List.getElem?_map,
        List.getElem?_range (by omega)]
      rfl
    · rw [if_neg (fun h => hin (hreach.mp h)), if_neg hin]
  · rw [if_neg (by omega), List.getElem?_eq_none (by rw [length_bytes]; omega),
      List.getElem?_eq_none (by rw [length_bytes]; omega)]

theorem bytes_store32 (hword : w.length < wordCount) {register : UInt32}
    (hr : HasRegister w.length register) (value : UInt32) :
    w.bytes ((Request.store32 (w.cell register) value).writeTo m)
      = (w.bytes m).overwrite register.toNat (wordBytes value) := by
  rw [wordBytes_eq_map]
  exact bytes_write hword hr.2 _

/-- A range that is cleared is zeros of the row: byte after byte the zeros make a fill, and a
fill is a write. -/
theorem bytes_clear (hword : w.length < wordCount) {offset length : Nat}
    (hin : offset + length ≤ w.length) :
    w.bytes ((Request.clear (w.mapping.virt.add offset) length).writeTo m)
      = (w.bytes m).overwrite offset (.replicate length 0) := by
  have hzeros : .replicate length 0 = (List.range length).map fun _ => (0 : UInt8) := by
    rw [List.map_const', List.length_range]
  have hfill : ∀ address, (m.clear (w.mapping.virt.add offset).val length).byte address
      = (m.write (w.mapping.virt.add offset).val (.ofNat length) fun _ => 0).byte address := by
    intro address
    rw [Memory.byte_clear_eq_byte_fill _ _ (by omega), Memory.byte_fill, Memory.byte_write]
  calc w.bytes (m.clear (w.mapping.virt.add offset).val length)
      = w.bytes (m.write (w.mapping.virt.add offset).val (.ofNat length) fun _ => 0) :=
        bytes_congr hfill
    _ = (w.bytes m).overwrite offset (.replicate length 0) := by
        rw [hzeros]
        exact bytes_write hword hin _

/-! ### One access -/

/-- A request touches no byte outside the window. -/
def Confines (w : RegisterWindow) (r : Request) : Prop :=
  ∀ address, r.Touches address → w.mapping.virt.Within w.length address

/-- A run makes no request outside the window, and on memory that remembers it does to the
window what `onRow` does to a row. -/
structure Acts (w : RegisterWindow) {α : Type} (onRow : Row → α × Row) (t : List Entry)
    (value : α) : Prop where
  confined : ∀ r ∈ requests t, w.Confines r
  answers : ∀ m, Remembers m (exchanges t) → value = (onRow (w.bytes m)).1
  leaves : ∀ m, Remembers m (exchanges t) →
    w.bytes (written m (requests t)) = (onRow (w.bytes m)).2

theorem read_acts (hword : w.length < wordCount) (register : UInt32) :
    (w.access (.read register)).Returns (w.Acts (Access.on · (.read register))) := by
  by_cases hr : HasRegister w.length register
  · have hread : w.read register = .ask (.load32 (w.cell register)) .done := by
      rw [read, address?_eq, if_pos hr]
      rfl
    simp only [access, hread, returns_bind, returns_ask, pure_eq_done, returns_done]
    intro answer
    refine ⟨?_, ?_, fun m _ => rfl⟩
    · intro r hmem address htouches
      obtain rfl := List.mem_singleton.mp hmem
      exact within_of_within hword hr.2 htouches
    · intro m hremembers
      have hanswer : answer = m.load32 (w.cell register).val := hremembers.1
      show some answer = some _
      rw [length_bytes, if_pos hr, hanswer, load32_eq_word hr]
  · have hread : w.read register = .note (.readOutside register) (.done 0xffffffff) := by
      rw [read, address?_eq, if_neg hr]
      rfl
    simp only [access, hread, returns_bind, returns_note, pure_eq_done, returns_done]
    refine ⟨fun r hmem => absurd hmem (by simp), fun m _ => ?_, fun m _ => rfl⟩
    show some _ = some _
    rw [length_bytes, if_neg hr]

theorem write_acts (hword : w.length < wordCount) (register value : UInt32) :
    (w.access (.write register value)).Returns (w.Acts (Access.on · (.write register value))) := by
  by_cases hr : HasRegister w.length register
  · have hwrite : w.write register value = .ask (.store32 (w.cell register) value) .done := by
      rw [write, address?_eq, if_pos hr]
      rfl
    simp only [access, hwrite, returns_bind, returns_ask, pure_eq_done, returns_done]
    intro _
    refine ⟨?_, fun m _ => rfl, fun m _ => ?_⟩
    · intro r hmem address htouches
      obtain rfl := List.mem_singleton.mp hmem
      exact within_of_within hword hr.2 htouches
    · show w.bytes ((Request.store32 (w.cell register) value).writeTo m) = _
      simp only [Access.on]
      rw [bytes_store32 hword hr, length_bytes, if_pos hr]
  · have hwrite : w.write register value = .note (.writeOutside register) (.done ()) := by
      rw [write, address?_eq, if_neg hr]
      rfl
    simp only [access, hwrite, returns_bind, returns_note, pure_eq_done, returns_done]
    refine ⟨fun r hmem => absurd hmem (by simp), fun m _ => rfl, fun m _ => ?_⟩
    show w.bytes m = _
    simp only [Access.on]
    rw [length_bytes, if_neg hr]

theorem clear_acts (hword : w.length < wordCount) {offset length : Nat}
    (hin : offset + length ≤ w.length) :
    (w.access (.clear offset length)).Returns (w.Acts (Access.on · (.clear offset length))) := by
  simp only [access, request_eq_ask, returns_bind, returns_ask, pure_eq_done, returns_done]
  intro _
  refine ⟨?_, fun m _ => rfl, fun m _ => bytes_clear hword hin⟩
  intro r hmem address htouches
  obtain rfl := List.mem_singleton.mp hmem
  exact within_of_within hword hin htouches

theorem access_acts (hword : w.length < wordCount) {a : Access} (ha : a.Inside w.length) :
    (w.access a).Returns (w.Acts (Access.on · a)) := by
  cases a with
  | read register => exact read_acts hword register
  | write register value => exact write_acts hword register value
  | clear offset length => exact clear_acts hword ha

/-! ### All accesses -/

theorem written_append (m : Memory) (rs ss : List Request) :
    written m (rs ++ ss) = written (written m rs) ss := List.foldl_append

theorem accessAll_acts (hword : w.length < wordCount) {accesses : List Access}
    (hinside : ∀ a ∈ accesses, a.Inside w.length) :
    (w.accessAll accesses).Returns (w.Acts (Access.onAll accesses)) := by
  induction accesses with
  | nil =>
    exact returns_done.mpr ⟨fun r hmem => absurd hmem (by simp), fun m _ => rfl, fun m _ => rfl⟩
  | cons a rest ih =>
    have hfirst := access_acts hword (hinside a List.mem_cons_self)
    have hrest := ih fun b hb => hinside b (List.mem_cons_of_mem a hb)
    simp only [accessAll, returns_bind, pure_eq_done, returns_done, List.append_nil]
    refine hfirst.mono fun t answer ht => hrest.mono fun u answers hu => ⟨?_, ?_, ?_⟩
    · intro r hmem
      rw [requests_append] at hmem
      rcases List.mem_append.mp hmem with hmem | hmem
      · exact ht.confined r hmem
      · exact hu.confined r hmem
    · intro m hremembers
      rw [exchanges_append, remembers_append] at hremembers
      have hmiddle := ht.leaves m hremembers.1
      show _ = (a.on (w.bytes m)).1 :: (Access.onAll rest (a.on (w.bytes m)).2).1
      rw [ht.answers m hremembers.1, hu.answers _ hremembers.2, ← hmiddle]
      rfl
    · intro m hremembers
      rw [exchanges_append, remembers_append] at hremembers
      have hmiddle := ht.leaves m hremembers.1
      show _ = (Access.onAll rest (a.on (w.bytes m)).2).2
      rw [requests_append, written_append, ← hmiddle]
      exact hu.leaves _ hremembers.2

/-- What accesses to a window come to, if memory was `m` before. -/
structure LikeRow (w : RegisterWindow) (accesses : List Access) (m : Memory) (t : List Entry)
    (answers : List (Option UInt32)) : Prop where
  /-- The answers and the bytes are those of the row. -/
  onRow : (answers, w.bytes (written m (requests t))) = Access.onAll accesses (w.bytes m)
  /-- A read gives what the register holds by its own history, or all ones if the window does
  not have it. -/
  reads : ∀ n register, accesses[n]? = some (.read register) →
    answers[n]? = some (some (if HasRegister w.length register
      then Access.held register ((w.bytes m).word register.toNat) (accesses.take n)
      else 0xffffffff))
  /-- Memory outside the window is as it was. -/
  outside : ∀ address, ¬ w.mapping.virt.Within w.length address →
    (written m (requests t)).byte address.val = m.byte address.val

/-- **A window of registers is a row of bytes.**  Whatever is read, written and cleared in it,
in any order, no byte outside is touched, and the answers and the bytes left are those that
the accesses give on the row of its bytes. -/
theorem accessAll_refines (hword : w.length < wordCount) {accesses : List Access}
    (hinside : ∀ a ∈ accesses, a.Inside w.length) :
    (w.accessAll accesses).Returns fun t answers => (∀ r ∈ requests t, w.Confines r) ∧
      ∀ m, Remembers m (exchanges t) → w.LikeRow accesses m t answers := by
  refine (accessAll_acts hword hinside).mono fun t answers hacts => ⟨hacts.confined, ?_⟩
  intro m hremembers
  have hanswers := hacts.answers m hremembers
  refine ⟨Prod.ext hanswers (hacts.leaves m hremembers), ?_, ?_⟩
  · intro n register hread
    have hrow : ∀ a ∈ accesses, a.Inside (List.length (w.bytes m)) := by
      intro a ha
      rw [length_bytes]
      exact hinside a ha
    have hn := Access.read_onAll hrow hread
    rw [length_bytes] at hn
    rw [hanswers]
    exact hn
  · intro address houtside
    exact byte_written (fun r hr htouches => houtside (hacts.confined r hr address htouches)) m

/-- A window of ten bytes, which has two registers and half of a third. -/
def tenBytes : RegisterWindow := ⟨⟨⟨0xfeb00000⟩, ⟨0x1000⟩, 10⟩⟩

/-- A write of the second register, a clear of the two bytes in its middle and of none else,
and a read; then the register of which there is only half, and the one that nobody wrote. -/
def cutInTheMiddle : List Access :=
  [.write 4 0x44332211, .clear 5 2, .read 4, .write 8 0xffffffff, .read 8, .read 2, .read 0]

/-- The outer bytes are left, and half a register is none. -/
theorem accessAll_refines_tenBytes : ∃ t answers,
    (tenBytes.accessAll cutInTheMiddle).Run t (.ok answers) ∧ Remembers .blank (exchanges t) ∧
      tenBytes.LikeRow cutInTheMiddle .blank t answers ∧
      answers = [none, none, some 0x44000011, none, some 0xffffffff, some 0xffffffff, some 0] ∧
      tenBytes.bytes (written .blank (requests t)) = [0, 0, 0, 0, 0x11, 0, 0, 0x44, 0, 0] := by
  have hrun := run_play remembering .blank (tenBytes.accessAll cutInTheMiddle)
  have hremembers := remembers_play .blank (tenBytes.accessAll cutInTheMiddle)
  have hinside : ∀ a ∈ cutInTheMiddle, a.Inside tenBytes.length := by
    simp [cutInTheMiddle, Access.Inside, tenBytes, length]
  have hreturns := accessAll_refines (w := tenBytes) (by decide) hinside
  obtain ⟨answers, hout, -, hlike⟩ := hreturns _ _ hrun
  rw [hout] at hrun
  have hrow : Access.onAll cutInTheMiddle (tenBytes.bytes .blank) =
      ([none, none, some 0x44000011, none, some 0xffffffff, some 0xffffffff, some 0],
        [0, 0, 0, 0, 0x11, 0, 0, 0x44, 0, 0]) := by
    decide
  have hall := (hlike .blank hremembers).onRow.trans hrow
  exact ⟨_, _, hrun, hremembers, hlike .blank hremembers, congrArg Prod.fst hall,
    congrArg Prod.snd hall⟩

end RegisterWindow

end Igd
