/-
What registers hold.

The driver writes memory in two ways, by storing a word and by clearing a range, which it
does byte after byte; every other request leaves memory to somebody else.  `World` stands for
everybody else: what they do to memory, whenever the driver has made a request.
`World.after` is the memory that comes of both, and a register of a window is a word of it.

For one word the two parts come apart.  If the others spare it, and every write of the
driver is either a store of that very word or misses it, then it holds what was stored
there last: `load32_after` is the induction over the requests, and `lastStored` has only
the requests left in it.
-/
import Igd.Platform.Registers
import Igd.Proofs.Run
import Igd.Testbed.Memory

namespace Igd

open Testbed (Memory)

/-- A request that writes memory. -/
def Request.isWrite : Request → Bool
  | .store32 _ _ | .clear _ _ => true
  | _ => false

/-- A load is answered with the word in memory. -/
def Exchange.LoadsFrom (m : Memory) : Exchange → Prop
  | ⟨.load32 address, value⟩ => value = m.load32 address.val
  | _ => True

/-- The address is one of `length` from `start` on. -/
def VirtAddr.Within (start : VirtAddr) (length : Nat) (address : VirtAddr) : Prop :=
  (address.val - start.val).toNat < length

theorem VirtAddr.within_self (start : VirtAddr) {length : Nat} (h : 0 < length) :
    start.Within length start := by
  show (start.val - start.val).toNat < length
  rw [UInt64.sub_self]
  exact h

/-- What everybody else does to memory, once the driver has made these requests. -/
abbrev World := List Request → Memory → Memory

/-- Memory after more requests, if it was `m` after the requests in `past`. -/
def World.after (others : World) (past : List Request) (m : Memory) : List Request → Memory
  | [] => m
  | r :: rest => others.after (past ++ [r]) (others (past ++ [r]) (r.writeTo m)) rest

namespace RegisterWindow

/-- Where a register is. -/
def cell (w : RegisterWindow) (register : UInt32) : VirtAddr :=
  w.mapping.virt.add register.toNat

/-- What a register holds. -/
def value (w : RegisterWindow) (m : Memory) (register : UInt32) : UInt32 :=
  m.load32 (w.cell register).val

end RegisterWindow

/-! ### Words and their bytes -/

namespace Testbed.Memory

theorem join_bytes (v : BitVec 32) :
    (v.setWidth 8).setWidth 32 ||| ((v >>> 8).setWidth 8).setWidth 32 <<< 8
      ||| ((v >>> 16).setWidth 8).setWidth 32 <<< 16
      ||| ((v >>> 24).setWidth 8).setWidth 32 <<< 24 = v := by
  refine BitVec.eq_of_getLsbD_eq fun i hi => ?_
  simp only [BitVec.getLsbD_or, BitVec.getLsbD_shiftLeft, BitVec.getLsbD_setWidth,
    BitVec.getLsbD_ushiftRight]
  grind

theorem byte_store32 (m : Memory) (cell : UInt64) (value : UInt32) {d : UInt64} (hd : d < 4) :
    (m.store32 cell value).byte (cell + d) = byteOf value.toUInt64 d := by
  have hsub : cell + d - cell = d := by grind
  rw [store32, byte_write, hsub, if_pos hd]

theorem load32_store32 (m : Memory) (cell : UInt64) (value : UInt32) :
    (m.store32 cell value).load32 cell = value := by
  have hfirst := m.byte_store32 cell value (d := 0) (by decide)
  rw [UInt64.add_zero] at hfirst
  rw [load32, hfirst, m.byte_store32 cell value (by decide), m.byte_store32 cell value (by decide),
    m.byte_store32 cell value (by decide)]
  exact UInt32.eq_of_toBitVec_eq (join_bytes value.toBitVec)

theorem load32_congr {m n : Memory} {cell : UInt64}
    (h : ∀ d < 4, m.byte (cell + d) = n.byte (cell + d)) : m.load32 cell = n.load32 cell := by
  have hfirst := h 0 (by decide)
  rw [UInt64.add_zero] at hfirst
  rw [load32, load32, hfirst, h 1 (by decide), h 2 (by decide), h 3 (by decide)]

/-! ### Byte after byte

A run is cleared by storing its bytes one after another, and what comes of it is what one
fill of the whole run leaves.  The list of writes does not look alike, since bytes that
follow on each other are joined as they are stored; what can be read does.
-/

/-- A distance with another one behind it is not the last, so counting on does not start
again at zero. -/
theorem toNat_add_one {distance : UInt64} (h : distance + 1 ≠ 0) :
    (distance + 1).toNat = distance.toNat + 1 := by
  have hone : (1 : UInt64).toNat = 1 := rfl
  have hzero : (0 : UInt64).toNat = 0 := rfl
  have hword := distance.toNat_lt
  rw [ne_eq, ← UInt64.toNat_inj, UInt64.toNat_add] at h
  rw [UInt64.toNat_add]
  omega

theorem longer?_eq_some {p q : Patch} {address : UInt64} {value : UInt8}
    (h : p.longer? address value = some q) :
    p.content = .same value ∧ address = p.start + p.length ∧ p.length + 1 ≠ 0 ∧
      q = { p with length := p.length + 1 } := by
  unfold Patch.longer? at h
  cases hcontent : p.content with
  | each byte => simp [hcontent] at h
  | same byte =>
    simp only [hcontent, Option.ite_none_right_eq_some, Option.some.injEq] at h
    obtain ⟨⟨rfl, hend, hroom⟩, rfl⟩ := h
    exact ⟨rfl, hend, hroom, rfl⟩

theorem byteIn_longer {p q : Patch} {address : UInt64} {value : UInt8}
    (h : p.longer? address value = some q) (rest : List Patch) (x : UInt64) :
    byteIn (q :: rest) x = if x = address then value else byteIn (p :: rest) x := by
  obtain ⟨hcontent, hend, hroom, rfl⟩ := longer?_eq_some h
  have hbyte : ∀ d, p.byte d = value := by
    intro d
    rw [Patch.byte, hcontent]
  have hplace : x = address ↔ x - p.start = p.length := by grind
  -- A distance is short of the new end if it is short of the old one or is the old end.
  have hlast : x - p.start < p.length + 1 ↔ x - p.start < p.length ∨ x = address := by
    rw [hplace, ← UInt64.toNat_inj, UInt64.lt_iff_toNat_lt, UInt64.lt_iff_toNat_lt,
      toNat_add_one hroom]
    exact Nat.lt_succ_iff_lt_or_eq
  show (if x - p.start < p.length + 1 then p.byte _ else byteIn rest x) =
    if x = address then value else if x - p.start < p.length then p.byte _ else byteIn rest x
  by_cases hx : x = address
  · rw [if_pos (hlast.mpr (.inr hx)), if_pos hx, hbyte]
  · have hsame : x - p.start < p.length + 1 ↔ x - p.start < p.length := by simp [hlast, hx]
    rw [if_neg hx]
    simp only [hsame, hbyte]

/-- A byte that was stored is found at its address, and every other byte is as it was, whether
it was joined to the latest run or not. -/
theorem byte_store8 (m : Memory) (address : UInt64) (value : UInt8) (x : UInt64) :
    (m.store8 address value).byte x = if x = address then value else m.byte x := by
  have hone : x - address < 1 ↔ x = address := by
    have hplace : x = address ↔ x - address = 0 := by grind
    rw [hplace, ← UInt64.toNat_inj, UInt64.lt_iff_toNat_lt]
    exact Nat.lt_one_iff
  have hfill : (m.fill address 1 value).byte x = if x = address then value else m.byte x := by
    simp only [byte_fill, hone]
  obtain ⟨patches⟩ := m
  cases patches with
  | nil => exact hfill
  | cons p rest =>
    cases hlonger : p.longer? address value with
    | none =>
      have hstore : (⟨p :: rest⟩ : Memory).store8 address value
          = (⟨p :: rest⟩ : Memory).fill address 1 value := by simp only [store8, hlonger]
      rw [hstore, hfill]
    | some q =>
      have hstore : (⟨p :: rest⟩ : Memory).store8 address value = ⟨q :: rest⟩ := by
        simp only [store8, hlonger]
      rw [hstore]
      exact byteIn_longer hlonger rest x

/-- **A run that was cleared is zero, and nothing else was written.**  The induction follows
the loop: the first byte is stored, and the rest of the run starts one address further on.  A
run as long as the address space goes around it, so the length needs no bound. -/
theorem byte_clear (m : Memory) (start : UInt64) (length : Nat) (x : UInt64) :
    (m.clear start length).byte x = if (x - start).toNat < length then 0 else m.byte x := by
  induction length generalizing m start with
  | zero => rw [clear, if_neg (Nat.not_lt_zero _)]
  | succ n ih =>
    rw [clear, ih, byte_store8]
    by_cases hfirst : x = start
    · have hself : (start - start).toNat < n + 1 := by simp
      rw [if_pos hfirst, hfirst, if_pos hself, ite_self]
    · -- One address further on, every distance but the one from the first is one less.
      have hnext : (x - start).toNat = (x - (start + 1)).toNat + 1 := by
        have hsub : x - start = x - (start + 1) + 1 := by grind
        have hpos : x - (start + 1) + 1 ≠ 0 := by grind
        rw [hsub, toNat_add_one hpos]
      simp only [if_neg hfirst, hnext, Nat.add_lt_add_iff_right]

/-- Clearing a run byte after byte leaves the bytes that one fill of it leaves, though not
always the same list of writes. -/
theorem byte_clear_eq_byte_fill (m : Memory) (start : UInt64) {length : Nat}
    (hlength : length < wordCount) (x : UInt64) :
    (m.clear start length).byte x = (m.fill start (.ofNat length) 0).byte x := by
  have hnat : (UInt64.ofNat length).toNat = length := UInt64.toNat_ofNat_of_lt hlength
  simp only [byte_clear, byte_fill, UInt64.lt_iff_toNat_lt, hnat]

end Testbed.Memory

/-! ### One word -/

/-- A request writes none of the bytes of a word. -/
def Request.Misses (cell : VirtAddr) : Request → Prop
  | .store32 address _ => ∀ d < 4, ¬ cell.val + d - address.val < 4
  | .clear address length => ∀ d < 4, ¬ address.Within length ⟨cell.val + d⟩
  | _ => True

/-- A request stores the word, or writes none of its bytes. -/
def Request.Minds (cell : VirtAddr) (r : Request) : Prop :=
  (∃ value, r = .store32 cell value) ∨ r.Misses cell

/-- What is in a cell after a request, if every request minds it. -/
def Request.storeTo (cell : VirtAddr) (v : UInt32) : Request → UInt32
  | .store32 address value => if address = cell then value else v
  | _ => v

/-- What is in a cell after requests that mind it. -/
def lastStored (cell : VirtAddr) (v : UInt32) (rs : List Request) : UInt32 :=
  rs.foldl (Request.storeTo cell) v

@[simp] theorem lastStored_nil (cell : VirtAddr) (v : UInt32) : lastStored cell v [] = v := rfl

@[simp] theorem lastStored_append (cell : VirtAddr) (v : UInt32) (rs ss : List Request) :
    lastStored cell v (rs ++ ss) = lastStored cell (lastStored cell v rs) ss :=
  List.foldl_append

theorem Request.misses_of_not_isWrite {r : Request} (h : ¬ r.isWrite) (cell : VirtAddr) :
    r.Misses cell := by
  cases r with
  | store32 | clear => exact absurd rfl h
  | _ => trivial

theorem Request.storeTo_of_misses {cell : VirtAddr} {r : Request} (h : r.Misses cell)
    (v : UInt32) : r.storeTo cell v = v := by
  cases r with
  | store32 address value =>
    have hne : address ≠ cell := by
      rintro rfl
      exact h 0 (by decide) (by simp)
    exact if_neg hne
  | _ => rfl

theorem lastStored_of_misses {cell : VirtAddr} {rs : List Request}
    (h : ∀ r ∈ rs, r.Misses cell) (v : UInt32) : lastStored cell v rs = v := by
  induction rs with
  | nil => rfl
  | cons r rest ih =>
    have hr := Request.storeTo_of_misses (h r (by simp)) v
    rw [lastStored, List.foldl_cons, hr]
    exact ih fun s hs => h s (by simp [hs])

/-- Everybody else leaves the bytes of a word as they are. -/
def World.Spares (others : World) (cell : VirtAddr) : Prop :=
  ∀ rs m, ∀ d < 4, (others rs m).byte (cell.val + d) = m.byte (cell.val + d)

/-- A request that minds a word stores all of it or none of its bytes, so the word never comes
in parts. -/
theorem Request.load32_writeTo {cell : VirtAddr} {r : Request} (h : r.Minds cell) (m : Memory) :
    (r.writeTo m).load32 cell.val = r.storeTo cell (m.load32 cell.val) := by
  rcases h with ⟨value, rfl⟩ | h
  · rw [storeTo, if_pos rfl]
    exact m.load32_store32 cell.val value
  · rw [storeTo_of_misses h]
    refine Memory.load32_congr fun d hd => ?_
    cases r with
    | store32 address value => exact (m.byte_write _ _ _ _).trans (if_neg (h d hd))
    | clear address length => exact (m.byte_clear _ _ _).trans (if_neg (h d hd))
    | _ => rfl

/-- **A word that others spare holds what was stored there last.** -/
theorem World.load32_after {others : World} {cell : VirtAddr} (hspares : others.Spares cell)
    {rs : List Request} (hminds : ∀ r ∈ rs, r.Minds cell) (past : List Request) (m : Memory) :
    (others.after past m rs).load32 cell.val = lastStored cell (m.load32 cell.val) rs := by
  induction rs generalizing past m with
  | nil => rfl
  | cons r rest ih =>
    have hfirst : (others (past ++ [r]) (r.writeTo m)).load32 cell.val
        = r.storeTo cell (m.load32 cell.val) := by
      rw [Memory.load32_congr (hspares _ _), Request.load32_writeTo (hminds r (by simp))]
    rw [after, ih (fun s hs => hminds s (by simp [hs])), hfirst]
    rfl

end Igd
