/-
What a pool counts, and what is left of a request.

The buffers that are out determine the heap.  Their blocks and the holes are the first hole
in pieces, so the blocks say which bytes the holes have, and of holes in order there is one
list only that has them.  That is `Lends.unique`, and the rest is read off it.  A block that
the limit forbids and a buffer that is given back at once both leave the heap with the
buffers that were out before.  When all are back, in whatever order they came, none is out,
and the heap is the one that the pool was made with.

A pool that is given a buffer of its own never refuses it.  So with one pool, nothing that
was lent is ever lost, and the buffers that are held are those that are out.
-/
import Igd.Proofs.Dma.Bank

namespace Igd.Dma

open Extents

namespace Pool

variable {p : Pool} {out order rest : List DmaBuffer} {heap heap' : Heap}

namespace Lends

/-- **The buffers that are out determine the heap.**  Its holes are what the blocks leave of
the range, and there is one way to cut that in order. -/
theorem unique {out' : List DmaBuffer} (h : p.Lends out heap) (h' : p.Lends out' heap')
    (hout : out.Perm out') : heap = heap' := by
  have hblocks := hout.map DmaBuffer.block
  have hholes : heap.holes = heap'.holes :=
    (h.pieces.cancel h'.pieces hblocks).eq h.inOrder h'.inOrder
  have hused : heap.used = heap'.used := by
    rw [h.used, h'.used, measured_perm _ hblocks]
  obtain ⟨holes, used⟩ := heap
  obtain ⟨holes', used'⟩ := heap'
  subst hholes hused
  rfl

/-- What is counted as used is what the blocks of the buffers take, which may be more than was
asked for. -/
theorem used_eq (h : p.Lends out heap) (hn : p.New) :
    heap.used = (out.map fun b => blockSize b.size).sum := by
  have hnew : p.heap.used = 0 := used_ofRange hn.made
  rw [h.used, hnew, Nat.zero_add]
  simp [measured, Function.comp_def, Extent.size, DmaBuffer.block]

/-- **Buffers that are out are taken back one after the other**, whichever come first. -/
theorem freeAll (h : p.Lends (order ++ rest) heap) (hn : p.New)
    (hknown : ∀ b ∈ order, ∀ heap, Pool.contains { p with heap } b = .ok true) :
    ∃ heap', Serves { p with heap } (order.map fun b => (⟨.dmaFree b, .ok ()⟩ : Exchange))
      { p with heap := heap' } ∧ p.Lends rest heap' := by
  induction order generalizing heap with
  | nil => exact ⟨heap, .nil _, h⟩
  | cons b order ih =>
    obtain ⟨hfirst, hothers⟩ := List.forall_mem_cons.mp hknown
    obtain ⟨next, hfree, hnext⟩ := h.free hn.toMade (hfirst heap)
    obtain ⟨heap', hserves, hlends⟩ := ih hnext hothers
    exact ⟨heap', .free hfree hserves, hlends⟩

end Lends

theorem Meets.known {size align limit : Nat} {b : DmaBuffer} (h : p.Meets size align limit b)
    (hn : p.New) (hbase : p.base.isNull = false) (heap : Heap) :
    Pool.contains { p with heap } b = .ok true := by
  rw [h.contains_eq hn.toMade heap, h.notNull hbase]
  rfl

theorem free_answer (hfits : p.base.toNat + p.size < wordCount) (b : DmaBuffer) :
    ∃ answer q notice, p.free b = .ok (answer, q, notice) ∧ ∀ e, answer = .error e → q = p := by
  unfold Pool.free
  rw [contains_eq hfits, Checked.ok_bind]
  split
  · split
    · exact ⟨_, _, _, rfl, by simp⟩
    · exact ⟨_, _, _, rfl, fun _ _ => rfl⟩
  · exact ⟨_, _, _, rfl, fun _ _ => rfl⟩

/-- The pool `q` was made as `p`, and answers for the buffers that are out. -/
structure Accounts (p q : Pool) (out : List DmaBuffer) : Prop where
  /-- What is counted as used is the blocks of the buffers that are out. -/
  used : q.used = (out.map fun b => blockSize b.size).sum
  /-- Every request is answered, and one that gets nothing changes nothing. -/
  unmet : ∀ size align limit, ∃ answer q' notice,
    q.allocate size align limit = .ok (answer, q', notice) ∧ (answer = none → q' = q)
  /-- A buffer that is given back as soon as it is lent leaves no trace. -/
  undone : ∀ size align limit b q' notice,
    q.allocate size align limit = .ok (some b, q', notice) → q'.free b = .ok (.ok (), q, none)
  /-- Whatever buffer the pool is given, it answers, and to refuse one changes nothing. -/
  refused : ∀ b, ∃ answer q' notice, q.free b = .ok (answer, q', notice) ∧
    ∀ e, answer = .error e → q' = q
  /-- All that are out may come back in any order, and then the pool is as it was made. -/
  drained : ∀ order : List DmaBuffer, order.Perm out →
    q.Serves (order.map fun b => (⟨.dmaFree b, .ok ()⟩ : Exchange)) p ∧ p.used = 0

/-- A pool answers for its buffers as long as it knows them. -/
theorem Lends.accounts (h : p.Lends out heap) (hn : p.New) (hbase : p.base.isNull = false)
    (hknown : ∀ b ∈ out, ∀ heap, Pool.contains { p with heap } b = .ok true) :
    Accounts p { p with heap } out := by
  constructor
  case used => exact h.used_eq hn
  case unmet =>
    intro size align limit
    rcases h.allocate hn size align limit with ⟨notice, hanswer⟩ | ⟨b, heap', hanswer, -, -⟩
    · exact ⟨_, _, _, hanswer, fun _ => rfl⟩
    · exact ⟨_, _, _, hanswer, by simp⟩
  case undone =>
    intro size align limit b q' notice hlent
    rcases h.allocate hn size align limit with
      ⟨notice, hanswer⟩ | ⟨b', heap', hanswer, hmeets, hlends⟩
    · cases hlent.symm.trans hanswer
    · cases hlent.symm.trans hanswer
      obtain ⟨back, hfree, hback⟩ := hlends.free hn.toMade (hmeets.known hn hbase heap')
      rwa [hback.unique h (.refl _)] at hfree
  case refused => exact free_answer (p := { p with heap }) hn.fits
  case drained =>
    intro order hperm
    have hall : p.Lends (order ++ []) heap := by simpa using h.perm hperm.symm
    obtain ⟨heap', hserves, hnone⟩ := hall.freeAll hn fun b hb => hknown b (hperm.mem_iff.mp hb)
    rw [hnone.unique hn.toMade.lends (.refl _)] at hserves
    exact ⟨hserves, used_ofRange hn.made⟩

end Pool

namespace Bank

variable {p : Pool} {s s' : Bank}

theorem Sound.lost_step (h : Sound [p] s) (hn : p.New) (hbase : p.base.isNull = false) {c : Call}
    (hstep : s.step c = .ok s') : s'.lost = s.lost := by
  cases c with
  | allocate on size align limit =>
    cases hp : s.pools[on]? with
    | none =>
      simp only [Bank.step, hp] at hstep
      cases hstep
      rfl
    | some q =>
      simp only [Bank.step, hp] at hstep
      obtain ⟨⟨answer, q', notice⟩, -, hstep⟩ := Checked.bind_eq_ok hstep
      cases answer <;> cases hstep <;> rfl
  | free index on =>
    cases hx : s.loans[index]? with
    | none =>
      simp only [Bank.step, hx] at hstep
      cases hstep
      rfl
    | some x =>
      cases hp : s.pools[on]? with
      | none =>
        simp only [Bank.step, hx, hp] at hstep
        cases hstep
        rfl
      | some q =>
        obtain ⟨howner, hmeets⟩ := h.fromOnly (List.mem_of_getElem? hx)
        have hon : on = x.owner := by
          have hlt := (List.getElem?_eq_some_iff.mp hp).1
          rw [h.length_eq, List.length_singleton] at hlt
          omega
        subst hon
        obtain ⟨q', hfree, -⟩ := h.takenBack (.singleton hn.toMade) hx hp (hmeets.notNull hbase)
        simp only [Bank.step, hx, hp, hfree, Checked.ok_bind] at hstep
        cases hstep
        rfl

/-- **Nothing that the only pool lends is lost**, whatever is called: a buffer is lost by
giving it to a pool that does not know it, and there is no other pool. -/
theorem Sound.lost_run (h : Sound [p] s) (hn : p.New) (hbase : p.base.isNull = false)
    (calls : List Call) : ∃ s', s.run calls = .ok s' ∧ Sound [p] s' ∧ s'.lost = s.lost := by
  induction calls generalizing s with
  | nil => exact ⟨s, rfl, h, rfl⟩
  | cons c rest ih =>
    obtain ⟨next, hstep, hnext⟩ := h.step (.singleton hn) c
    obtain ⟨s', hrun, hs', hlost⟩ := ih hnext
    refine ⟨s', by simp only [Bank.run, hstep, Checked.ok_bind, hrun], hs', ?_⟩
    rw [hlost, h.lost_step hn hbase hstep]

theorem Sound.accounts (h : Sound [p] s) (hn : p.New) (hbase : p.base.isNull = false)
    (hlost : s.lost = []) :
    ∃ q, s.pools = [q] ∧ Pool.Accounts p q (s.loans.map fun x => x.buffer) := by
  obtain ⟨q, hq⟩ := List.length_eq_one_iff.mp h.length_eq
  obtain ⟨p', heap, hp', rfl, hlends⟩ := h.lends 0 q (by simp [hq])
  obtain rfl : p' = p := by simpa using hp'.symm
  have hout : buffersOf 0 (s.loans ++ s.lost) = s.loans.map fun x => x.buffer := by
    rw [hlost, List.append_nil, buffersOf, List.filter_eq_self.mpr]
    intro x hx
    simp [(h.fromOnly hx).1]
  rw [hout] at hlends
  refine ⟨_, hq, hlends.accounts hn hbase fun b hb heap => ?_⟩
  obtain ⟨x, hx, rfl⟩ := List.mem_map.mp hb
  exact (h.fromOnly hx).2.known hn hbase heap

/-- **A pool accounts for what it lends**, after any calls.  What is used is the blocks of
the buffers that are held; a request that gets nothing, a buffer that is refused, and one that
comes back as soon as it is lent leave no trace; and when all are back, in any order, the pool
is as it was made.  It does not start at the null address, since a pool is made over memory
that can be used. -/
theorem accounts_run (hn : p.New) (hbase : p.base.isNull = false) (calls : List Call) :
    ∃ s q, (start [p]).run calls = .ok s ∧ s.pools = [q] ∧ s.lost = [] ∧
      Pool.Accounts p q (s.loans.map fun x => x.buffer) := by
  obtain ⟨s, hrun, hsound, hlost⟩ := (Sound.start (.singleton hn)).lost_run hn hbase calls
  obtain ⟨q, hq, haccounts⟩ := hsound.accounts hn hbase hlost
  exact ⟨s, q, hrun, hq, hlost, haccounts⟩

/-- Three buffers of which the middle one came back, and a request above the limit. -/
theorem accounts_run_page : page.New ∧ page.base.isNull = false ∧ ∃ s q,
    (start [page]).run [.allocate 0 100 64 0xffff, .allocate 0 24 8 0xffff,
      .allocate 0 512 512 0xffff, .free 1 0, .allocate 0 64 256 0x8000] = .ok s ∧
    s.pools = [q] ∧ s.lost = [] ∧ s.loans.length = 2 ∧ q.used = 104 + 512 ∧
    Pool.Accounts page q (s.loans.map fun x => x.buffer) := by
  obtain ⟨s, q, hrun, hq, hlost, haccounts⟩ := accounts_run page_new (by decide)
    [.allocate 0 100 64 0xffff, .allocate 0 24 8 0xffff, .allocate 0 512 512 0xffff, .free 1 0,
      .allocate 0 64 256 0x8000]
  refine ⟨page_new, by decide, s, q, hrun, hq, hlost, ?_, ?_, haccounts⟩
  · cases hrun
    rfl
  · rw [haccounts.used]
    cases hrun
    rfl

end Bank

end Igd.Dma
