/-
Lists of extents.

An extent is a range of offsets, and a list of them in ascending order says which
bytes are free.  Both the allocator of stolen memory and the DMA heap keep such a
list.  They differ in where a block may be placed inside an extent, so placement
is a parameter of the search; taking a block out and putting one back are the
same for both.

Putting back merges at once with whatever touches the block on either side, so
extents of the list never touch.
-/
import Igd.Fault

namespace Igd

/-- The offsets from `start` up to, and without, `stop`. -/
structure Extent where
  start : Nat
  stop : Nat
  deriving DecidableEq, Repr

namespace Extent

/-- The number of offsets in an extent. -/
def length (e : Extent) : Checked Nat := Checked.sub e.stop e.start

end Extent

namespace Extents

/-- Where a block goes: the first extent that has room for it, what lies on
either side of that extent in the list, and the offset of the block. -/
structure Fit where
  before : List Extent
  found : Extent
  after : List Extent
  start : Nat
  deriving DecidableEq, Repr

/-- The first extent in which `place` finds an offset for the block. -/
def firstFit (place : Extent → Option Nat) : List Extent → Option Fit
  | [] => none
  | e :: rest =>
    match place e with
    | some start => some ⟨[], e, rest, start⟩
    | none => (firstFit place rest).map fun fit => { fit with before := e :: fit.before }

/-- What is left of the extent on either side of a block of `size` bytes. -/
def Fit.sides (fit : Fit) (size : Nat) : List Extent :=
  [⟨fit.found.start, fit.start⟩, ⟨fit.start + size, fit.found.stop⟩]

/-- The extents of a list that hold an offset at all. -/
def nonempty : List Extent → Checked (List Extent)
  | [] => .ok []
  | e :: rest => do
    let length ← e.length
    let rest ← nonempty rest
    return if 0 < length then e :: rest else rest

/-- The list with `x` in front, joined to the first extent if the two touch. -/
def joinFront (x : Extent) : List Extent → List Extent
  | [] => [x]
  | e :: rest => if x.stop = e.start then ⟨x.start, e.stop⟩ :: rest else x :: e :: rest

/-- The two lists in one, the last extent of the first joined to the first of the
second if those touch. -/
def splice : List Extent → List Extent → List Extent
  | [], after => after
  | [e], after => joinFront e after
  | e :: before, after => e :: splice before after

/-- The extents at the head of a list that start below the offset.  In ascending
order these are all that do. -/
def startingBelow (offset : Nat) (l : List Extent) : List Extent :=
  l.takeWhile fun e => decide (e.start < offset)

/-- The extents of a list from the first on that does not start below the offset. -/
def startingFrom (offset : Nat) (l : List Extent) : List Extent :=
  l.dropWhile fun e => decide (e.start < offset)

/-- Between two lists of extents, `x` reaches into the last of the first or the first
of the second. -/
def overlapsNeighbour (before : List Extent) (x : Extent) (after : List Extent) : Bool :=
  before.getLast?.any (fun e => decide (x.start < e.stop))
    || after.head?.any (fun e => decide (e.start < x.stop))

/-- The list with `x` put back in order, joined to every extent it touches. -/
def insert (x : Extent) : List Extent → List Extent
  | [] => [x]
  | e :: rest =>
    if e.stop = x.start then joinFront ⟨e.start, x.stop⟩ rest
    else if e.start < x.start then e :: insert x rest
    else joinFront x (e :: rest)

/-- The number of offsets in a list of extents. -/
def total : List Extent → Checked Nat
  | [] => .ok 0
  | e :: rest => do
    let length ← e.length
    let others ← total rest
    Checked.add length others

end Extents

end Igd
