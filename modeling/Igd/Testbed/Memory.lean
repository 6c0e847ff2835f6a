/-
Memory that can be looked into.

Memory is the list of what was written, the latest first.  A write covers a run of
addresses from its start, and a byte is found by how far its address lies past the
start, so a run may go around the end of the address space like any other.

A write that covers the same run as an earlier one takes its place, and a byte that is
stored right behind a run of that very byte makes the run longer.  So a register that is
written over and over is one entry of the list, and so is a page that is cleared byte after
byte.
-/
import Igd.Platform.Request

namespace Igd.Testbed

/-- The bytes that one write left: the same one everywhere, or one for each distance
from the start. -/
inductive Content
  | same (byte : UInt8)
  | each (byte : UInt64 → UInt8)

/-- What one write left. -/
structure Patch where
  start : UInt64
  length : UInt64
  content : Content

namespace Patch

/-- The byte at a distance from the start. -/
def byte (p : Patch) (distance : UInt64) : UInt8 :=
  match p.content with
  | .same byte => byte
  | .each byte => byte distance

/-- A run with one more byte behind it, if the byte is the same.  A run never gets to cover
all addresses, because its length would be zero then. -/
def longer? (p : Patch) (address : UInt64) (value : UInt8) : Option Patch :=
  match p.content with
  | .same byte =>
    if byte = value ∧ address = p.start + p.length ∧ p.length + 1 ≠ 0 then
      some { p with length := p.length + 1 }
    else none
  | .each _ => none

end Patch

/-- What was written, the latest first. -/
structure Memory where
  patches : List Patch

namespace Memory

/-- Memory that nothing was written to. -/
def blank : Memory := ⟨[]⟩

/-- The byte that the latest write to an address left, or zero. -/
def byteIn : List Patch → UInt64 → UInt8
  | [], _ => 0
  | p :: rest, address =>
    if address - p.start < p.length then p.byte (address - p.start) else byteIn rest address

/-- The byte at an address. -/
def byte (m : Memory) (address : UInt64) : UInt8 := byteIn m.patches address

/-- A patch covers another run than this one. -/
def coversOther (start length : UInt64) (p : Patch) : Bool :=
  p.start != start || p.length != length

/-- What one write left comes on top. -/
def put (m : Memory) (p : Patch) : Memory :=
  ⟨p :: m.patches.filter (coversOther p.start p.length)⟩

/-- Write a run of bytes. -/
def write (m : Memory) (start length : UInt64) (byte : UInt64 → UInt8) : Memory :=
  m.put ⟨start, length, .each byte⟩

/-- Write the same byte to a run of addresses. -/
def fill (m : Memory) (start length : UInt64) (byte : UInt8) : Memory :=
  m.put ⟨start, length, .same byte⟩

theorem byteIn_filter_coversOther {start length address : UInt64} {patches : List Patch}
    (h : ¬ address - start < length) :
    byteIn (patches.filter (coversOther start length)) address = byteIn patches address := by
  induction patches with
  | nil => rfl
  | cons p rest ih =>
    cases hp : coversOther start length p with
    | true => simp only [List.filter_cons_of_pos hp, byteIn, ih]
    | false =>
      have same : p.start = start ∧ p.length = length := by simpa [coversOther] using hp
      have past : ¬ address - p.start < p.length := by rw [same.1, same.2]; exact h
      rw [List.filter_cons_of_neg (by simp [hp]), ih, byteIn, if_neg past]

theorem byte_put (m : Memory) (p : Patch) (address : UInt64) :
    (m.put p).byte address =
      if address - p.start < p.length then p.byte (address - p.start) else m.byte address := by
  by_cases h : address - p.start < p.length
  · simp only [byte, put, byteIn, if_pos h]
  · simp only [byte, put, byteIn, if_neg h, byteIn_filter_coversOther h]

/-- A write is seen at every address of its run, and nowhere else. -/
theorem byte_write (m : Memory) (start length : UInt64) (f : UInt64 → UInt8)
    (address : UInt64) :
    (m.write start length f).byte address =
      if address - start < length then f (address - start) else m.byte address :=
  m.byte_put ⟨start, length, .each f⟩ address

theorem byte_fill (m : Memory) (start length : UInt64) (value : UInt8) (address : UInt64) :
    (m.fill start length value).byte address =
      if address - start < length then value else m.byte address :=
  m.byte_put ⟨start, length, .same value⟩ address

/-- Store one byte. -/
def store8 (m : Memory) (address : UInt64) (value : UInt8) : Memory :=
  match m.patches with
  | [] => m.fill address 1 value
  | p :: rest =>
    match p.longer? address value with
    | some q => ⟨q :: rest⟩
    | none => m.fill address 1 value

/-- Zero a run of addresses, one byte after another from the first on. -/
def clear (m : Memory) (start : UInt64) : Nat → Memory
  | 0 => m
  | n + 1 => (m.store8 start 0).clear (start + 1) n

/-- The byte of a word at a distance from its start: the lowest comes first. -/
def byteOf (value : UInt64) (distance : UInt64) : UInt8 := (value >>> (8 * distance)).toUInt8

/-- Write a 32-bit word. -/
def store32 (m : Memory) (address : UInt64) (value : UInt32) : Memory :=
  m.write address 4 (byteOf value.toUInt64)

/-- Write a 64-bit word. -/
def store64 (m : Memory) (address value : UInt64) : Memory :=
  m.write address 8 (byteOf value)

/-- The 32-bit word at an address. -/
def load32 (m : Memory) (address : UInt64) : UInt32 :=
  (m.byte address).toUInt32 ||| ((m.byte (address + 1)).toUInt32 <<< 8)
    ||| ((m.byte (address + 2)).toUInt32 <<< 16) ||| ((m.byte (address + 3)).toUInt32 <<< 24)

/-- Every byte of a run is zero. -/
def isZero (m : Memory) (start : UInt64) : Nat → Bool
  | 0 => true
  | n + 1 => m.byte (start + .ofNat n) == 0 && m.isZero start n

/-- A run of 32-bit words that tell themselves apart: each byte of a word is its
place in the run, counted from one. -/
def countWords (m : Memory) (start length : UInt64) : Memory :=
  m.write start length fun distance =>
    byteOf (0x01010101 * (distance / 4 + 1) % 0x100000000) (distance % 4)

end Memory

end Igd.Testbed

namespace Igd

/-- Memory after a request, as far as the driver writes it. -/
def Request.writeTo (m : Testbed.Memory) : Request → Testbed.Memory
  | .store32 address value => m.store32 address.val value
  | .clear address length => m.clear address.val length
  | _ => m

end Igd
