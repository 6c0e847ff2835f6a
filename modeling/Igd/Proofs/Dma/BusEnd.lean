/-
Where the bus ends.

A pool may be put anywhere on the bus, also where its range passes the last address.  Two sums
can leave the word there: the address of the first byte of a block and the address of its last
byte.  A pool tests the second one only.  So a block whose last byte is past the end is above
every limit and goes back, but one whose first byte is past it is a fault (`PastBus`).

Which block the heap takes depends on all that was lent and given back before, and so does
whether there is a fault.  `Sound` says nothing of the bus beyond the buffers that are held,
so it is kept by every call that is answered, and a history either runs through or stops at
the first such request (`Sound.run_onBus`).
-/
import Igd.Proofs.Dma.Bank

namespace Igd.Dma

open Extents

namespace Pool

/-- How a pool answers a request at the end of the bus. -/
structure AnswersOnBus (q : Pool) (size align limit : Nat) : Prop where
  /-- A block whose first byte is past the end of the bus is a fault. -/
  faults : q.PastBus size align → q.allocate size align limit = .error .addOverflow
  /-- Any other request is answered.  If it gets nothing the pool is what it was, and if it
  gets a buffer all of that is on the bus and within the limit. -/
  answers : ¬ q.PastBus size align → ∃ answer q' notice,
    q.allocate size align limit = .ok (answer, q', notice) ∧ (answer = none → q' = q) ∧
    ∀ b, answer = some b →
      b.bus.toNat + (size - 1) < wordCount ∧ b.bus.toNat + (size - 1) ≤ limit
  /-- A block whose last byte alone is past the end is above every limit. -/
  cutOff : ∀ start heap, 0 < size → isLayout size align →
    q.heap.allocate? size align = some (start, heap) →
    q.bus.toNat + (start - q.base.toNat) < wordCount →
    wordCount ≤ q.bus.toNat + (start - q.base.toNat) + (size - 1) →
    q.allocate size align limit
      = .ok (none, q, some (.aboveLimit size (q.bufferAt start size align).bus limit))

variable {p : Pool} {out : List DmaBuffer} {heap : Heap}

theorem Lends.answersOnBus (h : p.Lends out heap) (hn : p.Made) (size align limit : Nat) :
    AnswersOnBus { p with heap } size align limit := by
  constructor
  case faults => exact h.allocate_of_pastBus hn limit
  case answers =>
    intro hbus
    rcases h.allocate_of_onBus hn limit hbus with
      ⟨notice, hanswer⟩ | ⟨b, heap', hanswer, hmeets, hend, -⟩
    · exact ⟨_, _, _, hanswer, fun _ => rfl, by simp⟩
    · refine ⟨_, _, _, hanswer, by simp, ?_⟩
      rintro c ⟨⟩
      exact ⟨hend, hmeets.limit⟩
  case cutOff =>
    intro start heap' hsize hlayout htaken hplace hpast
    obtain ⟨-, hlow, hhigh, -⟩ := h.cut hn hlayout htaken
    have hfits := hn.fits
    have hvalid : ¬ (size = 0 ∨ ¬ isLayout size align) := by simp [hlayout, Nat.ne_of_gt hsize]
    have hanswer := allocate_onBus (p := { p with heap }) limit hvalid h.inOrder htaken hlow
      (by omega) hplace
    rw [if_neg fun hend => absurd hend.1 (Nat.not_lt_of_le hpast)] at hanswer
    exact hanswer

end Pool

namespace Bank

variable {ps : List Pool} {s : Bank}

theorem Sound.step_of_pastBus (h : Sound ps s) (hps : Laid ps) {c : Call} (hbus : s.PastBus c) :
    s.step c = .error .addOverflow := by
  cases c with
  | allocate on size align limit =>
    obtain ⟨q, hq, hpast⟩ := hbus
    obtain ⟨p, heap, hp, rfl, hlends⟩ := h.lends on q hq
    have hmade : p.Made := hps.made p (List.mem_of_getElem? hp)
    simp only [Bank.step, hq, hlends.allocate_of_pastBus hmade limit.toNat hpast,
      Checked.error_bind]
  | free index on => exact hbus.elim

/-- The calls came as far as one that asks for a block past the end of the bus. -/
def StopsAtBusEnd (s : Bank) (calls : List Call) : Prop :=
  ∃ before c after s', calls = before ++ c :: after ∧ s.run before = .ok s' ∧ s'.PastBus c

/-- **A history runs through, or stops at the end of the bus.**  The induction is on the calls:
one that asks for no block past the end leaves the bank sound, and one that does is the
last. -/
theorem Sound.run_onBus (h : Sound ps s) (hps : Laid ps) (calls : List Call) :
    (∃ s', s.run calls = .ok s' ∧ Sound ps s') ∨
      s.run calls = .error .addOverflow ∧ s.StopsAtBusEnd calls := by
  induction calls generalizing s with
  | nil => exact .inl ⟨s, rfl, h⟩
  | cons c rest ih =>
    by_cases hbus : s.PastBus c
    · refine .inr ⟨?_, [], c, rest, s, rfl, rfl, hbus⟩
      simp only [Bank.run, h.step_of_pastBus hps hbus, Checked.error_bind]
    · obtain ⟨next, hstep, hnext⟩ := h.step_of_onBus hps hbus
      rcases ih hnext with ⟨s', hrun, hs'⟩ | ⟨hrun, before, d, after, s', rfl, hbefore, hpast⟩
      · exact .inl ⟨s', by simp only [Bank.run, hstep, Checked.ok_bind, hrun], hs'⟩
      · refine .inr ⟨by simp only [Bank.run, hstep, Checked.ok_bind, hrun], c :: before, d, after,
          s', rfl, ?_, hpast⟩
        simp only [Bank.run, hstep, Checked.ok_bind, hbefore]

/-- **Where the bus ends, only the last byte is tested.**  Pools may be anywhere on the bus, and
may be asked for anything.  A history stops with a fault just where a request gets a block that
starts past the end.  As long as it runs, such a request is a fault, and every other one is
answered: a block that only ends past the end goes back, and the pool is what it was. -/
theorem answersOnBus_run (hps : Laid ps) (calls : List Call) :
    (∃ s, (start ps).run calls = .ok s ∧
      ∀ q ∈ s.pools, ∀ size align limit, q.AnswersOnBus size align limit) ∨
    (start ps).run calls = .error .addOverflow ∧ (start ps).StopsAtBusEnd calls := by
  rcases (Sound.ofLaid hps).run_onBus hps calls with ⟨s, hrun, hsound⟩ | hstops
  · refine .inl ⟨s, hrun, fun q hq size align limit => ?_⟩
    obtain ⟨on, hon⟩ := List.getElem?_of_mem hq
    obtain ⟨p, heap, hp, rfl, hlends⟩ := hsound.lends on q hon
    exact hlends.answersOnBus (hps.made p (List.mem_of_getElem? hp)) size align limit
  · exact .inr hstops

/-- A pool over two pages, of which the second is past the end of the bus. -/
def lastPage : Pool := ⟨⟨[⟨0x1000, 0x3000⟩], 0⟩, ⟨0x1000⟩, ⟨0xfffffffffffff000⟩, 0x2000⟩

/-- The pool that has lent its first page. -/
def lastPageLent : Pool := { lastPage with heap := ⟨[⟨0x2000, 0x3000⟩], 0x1000⟩ }

/-- Asking a new pool for both pages gets nothing, since the second is past the end.  With the
first page lent it is a fault to ask for one more. -/
theorem answersOnBus_run_lastPage : Laid [lastPage] ∧
    lastPage.allocate 0x2000 0x1000 0xffffffffffffffff
      = .ok (none, lastPage, some (.aboveLimit 0x2000 lastPage.bus 0xffffffffffffffff)) ∧
    ∃ s, (start [lastPage]).run [.allocate 0 0x1000 0x1000 0xffffffffffffffff] = .ok s ∧
      lastPageLent ∈ s.pools ∧ lastPageLent.PastBus 0x1000 0x1000 ∧
      lastPageLent.allocate 0x1000 0x1000 0xffffffffffffffff = .error .addOverflow := by
  have hlaid : Laid [lastPage] := .singleton ⟨rfl, by decide⟩
  refine ⟨hlaid, ?_, ?_⟩
  · rcases answersOnBus_run hlaid [] with ⟨s, hrun, hanswers⟩ | ⟨hrun, -⟩
    · cases hrun
      exact (hanswers lastPage List.mem_cons_self _ _ _).cutOff 0x1000 _ (by decide) (by decide)
        rfl (by decide) (by decide)
    · cases hrun
  · rcases answersOnBus_run hlaid [.allocate 0 0x1000 0x1000 0xffffffffffffffff] with
      ⟨s, hrun, hanswers⟩ | ⟨hrun, -⟩
    · have hmem : lastPageLent ∈ s.pools := by
        cases hrun
        exact List.mem_cons_self
      have hpast : lastPageLent.PastBus 0x1000 0x1000 :=
        ⟨by decide, by decide, 0x2000, _, rfl, by decide⟩
      exact ⟨s, hrun, hmem, hpast, (hanswers _ hmem _ _ _).faults hpast⟩
    · cases hrun

end Bank

end Igd.Dma
