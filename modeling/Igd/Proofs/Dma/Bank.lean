/-
Several pools, and buffers given to any of them.

A pool tells its own buffers by their addresses alone.  A bank is any number of pools over
memory that they do not share, with the buffers that are out.  Whoever holds a buffer may
give it to any of the pools, and has it no longer then, also where the pool refuses it: a
buffer that was refused is lost, and its block stays taken.

`Sound` says that every pool of the bank has lent just the buffers that came from it, those
that are lost among them.  So a buffer lies inside the pool that it came from, and outside
of all others, and that is what a pool looks at.  The null address is the exception: no
buffer there is taken back, not even by its own pool.
-/
import Igd.Proofs.Dma.Lending
import Igd.Proofs.Places

namespace Igd.Dma

open Extents

/-- A buffer that is out, where it is from, and what was asked for. -/
structure Loan where
  buffer : DmaBuffer
  /-- The number of the pool that lent it. -/
  owner : Nat
  size : UInt64
  align : UInt64
  limit : UInt64

/-- The buffers that came from one of the pools. -/
def buffersOf (on : Nat) (l : List Loan) : List DmaBuffer :=
  (l.filter fun x => x.owner == on).map fun x => x.buffer

theorem buffersOf_perm {l l' : List Loan} (on : Nat) (h : l.Perm l') :
    (buffersOf on l).Perm (buffersOf on l') := (h.filter _).map _

theorem buffersOf_cons_self {x : Loan} {on : Nat} (h : x.owner = on) (l : List Loan) :
    buffersOf on (x :: l) = x.buffer :: buffersOf on l := by
  simp [buffersOf, h]

theorem buffersOf_cons_of_ne {x : Loan} {on : Nat} (h : on ≠ x.owner) (l : List Loan) :
    buffersOf on (x :: l) = buffersOf on l := by
  simp [buffersOf, h.symm]

/-- New pools over memory that they do not share. -/
structure Placed (ps : List Pool) : Prop where
  new : ∀ p ∈ ps, p.New
  apart : ps.Pairwise fun p q => Extent.Apart p.range q.range

theorem Placed.singleton {p : Pool} (h : p.New) : Placed [p] :=
  ⟨List.forall_mem_singleton.mpr h, List.pairwise_singleton _ _⟩

/-- Pools over memory that they do not share, wherever they are on the bus. -/
structure Laid (ps : List Pool) : Prop where
  made : ∀ p ∈ ps, p.Made
  apart : ps.Pairwise fun p q => Extent.Apart p.range q.range

theorem Placed.laid {ps : List Pool} (h : Placed ps) : Laid ps :=
  ⟨fun p hp => (h.new p hp).toMade, h.apart⟩

theorem Laid.singleton {p : Pool} (h : p.Made) : Laid [p] :=
  ⟨List.forall_mem_singleton.mpr h, List.pairwise_singleton _ _⟩

theorem Laid.apart_of_ne {ps : List Pool} {i j : Nat} {p q : Pool} (h : Laid ps)
    (hp : ps[i]? = some p) (hq : ps[j]? = some q) (hne : i ≠ j) :
    Extent.Apart p.range q.range := by
  obtain ⟨hi, rfl⟩ := List.getElem?_eq_some_iff.mp hp
  obtain ⟨hj, rfl⟩ := List.getElem?_eq_some_iff.mp hq
  have hapart := List.pairwise_iff_getElem.mp h.apart
  rcases Nat.lt_or_gt_of_ne hne with hlt | hlt
  · exact hapart i j hi hj hlt
  · exact (hapart j i hj hi hlt).symm

/-- Pools, numbered from zero, and their buffers. -/
structure Bank where
  pools : List Pool
  /-- The buffers that are held. -/
  loans : List Loan
  /-- The buffers that were refused. -/
  lost : List Loan

namespace Bank

/-- Pools that have lent nothing. -/
def start (ps : List Pool) : Bank := ⟨ps, [], []⟩

/-- A call on one of the pools, which is named by its number. -/
inductive Call
  | allocate (on : Nat) (size align limit : UInt64)
  /-- Give the pool the buffer at this place among those that are held. -/
  | free (index on : Nat)

/-- The bank after one call.  A call on a pool that there is not, or with a buffer that is
not held, is none. -/
def step (s : Bank) : Call → Checked Bank
  | .allocate on size align limit =>
    match s.pools[on]? with
    | none => return s
    | some p => do
      let (answer, p, _) ← p.allocate size.toNat align.toNat limit.toNat
      match answer with
      | none => return { s with pools := s.pools.set on p }
      | some b =>
        return ⟨s.pools.set on p, ⟨b, on, size, align, limit⟩ :: s.loans, s.lost⟩
  | .free index on =>
    match s.loans[index]?, s.pools[on]? with
    | some x, some p => do
      let (answer, p, _) ← p.free x.buffer
      match answer with
      | .ok () => return ⟨s.pools.set on p, s.loans.eraseIdx index, s.lost⟩
      | .error _ => return ⟨s.pools.set on p, s.loans.eraseIdx index, x :: s.lost⟩
    | _, _ => return s

/-- The bank after some calls. -/
def run (s : Bank) : List Call → Checked Bank
  | [] => return s
  | c :: rest => do (← s.step c).run rest

/-- The pools of the bank are those of `ps`, each with what it has lent. -/
structure Sound (ps : List Pool) (s : Bank) : Prop where
  length_eq : s.pools.length = ps.length
  lends : ∀ on p', s.pools[on]? = some p' → ∃ (p : Pool) (heap : Heap), ps[on]? = some p ∧
    p' = { p with heap } ∧ p.Lends (buffersOf on (s.loans ++ s.lost)) heap
  /-- What is held is a buffer of its pool, as it was asked for. -/
  meets : ∀ x ∈ s.loans, ∃ p : Pool, ps[x.owner]? = some p ∧
    p.Meets x.size.toNat x.align.toNat x.limit.toNat x.buffer

variable {ps : List Pool} {s : Bank} {x : Loan} {index on : Nat} {p : Pool}

theorem Sound.ofLaid (hps : Laid ps) : Sound ps (start ps) := by
  refine ⟨rfl, fun on p hp => ?_, by simp [Bank.start]⟩
  exact ⟨p, p.heap, hp, rfl, (hps.made p (List.mem_of_getElem? hp)).lends⟩

theorem Sound.start (hps : Placed ps) : Sound ps (start ps) := .ofLaid hps.laid

/-- A call leaves a bank sound if one pool has lent what its buffers are then, and the
buffers of the others stay. -/
theorem Sound.set {heap : Heap} {loans lost : List Loan} (h : Sound ps s)
    (hp : ps[on]? = some p) (hlends : p.Lends (buffersOf on (loans ++ lost)) heap)
    (hothers : ∀ other, other ≠ on →
      (buffersOf other (s.loans ++ s.lost)).Perm (buffersOf other (loans ++ lost)))
    (hmeets : ∀ x ∈ loans, ∃ p : Pool, ps[x.owner]? = some p ∧
      p.Meets x.size.toNat x.align.toNat x.limit.toNat x.buffer) :
    Sound ps ⟨s.pools.set on { p with heap }, loans, lost⟩ := by
  refine ⟨by simpa using h.length_eq, fun other q hq => ?_, hmeets⟩
  rcases getElem?_set_cases hq with ⟨rfl, rfl⟩ | ⟨hother, hq⟩
  · exact ⟨p, heap, hp, rfl, hlends⟩
  · obtain ⟨p', heap', hp', rfl, hlends'⟩ := h.lends other q hq
    exact ⟨p', heap', hp', rfl, hlends'.perm (hothers other hother)⟩

/-! ### Giving a buffer to a pool -/

/-- **A pool knows a buffer just if it lent it**, and the address is not null.  The test is
only whether the buffer lies in the range of the pool, but pools lie apart. -/
theorem Sound.contains (h : Sound ps s) (hps : Laid ps) (hx : x ∈ s.loans)
    (hp : s.pools[on]? = some p) :
    p.contains x.buffer = .ok (decide (on = x.owner) && !x.buffer.vaddr.isNull) := by
  obtain ⟨q, heap, hq, rfl, -⟩ := h.lends on p hp
  obtain ⟨o, ho, hmeets⟩ := h.meets x hx
  have hmade : q.Made := hps.made q (List.mem_of_getElem? hq)
  by_cases hown : on = x.owner
  · subst hown
    obtain rfl : q = o := by simpa [hq] using ho
    simp [hmeets.contains_eq hmade heap]
  · have hapart := hps.apart_of_ne ho hq (Ne.symm hown)
    simp [hmeets.contains_eq_false hmade hapart heap, hown]

theorem Sound.takenBack (h : Sound ps s) (hps : Laid ps) (hx : s.loans[index]? = some x)
    (hp : s.pools[x.owner]? = some p) (hnull : x.buffer.vaddr.isNull = false) :
    ∃ p', p.free x.buffer = .ok (.ok (), p', none) ∧
      Sound ps ⟨s.pools.set x.owner p', s.loans.eraseIdx index, s.lost⟩ := by
  have hknown : p.contains x.buffer = .ok true := by
    simp [h.contains hps (List.mem_of_getElem? hx) hp, hnull]
  obtain ⟨q, heap, hq, rfl, hlends⟩ := h.lends x.owner p hp
  have hperm : (s.loans ++ s.lost).Perm (x :: (s.loans.eraseIdx index ++ s.lost)) :=
    (perm_eraseIdx hx).append_right s.lost
  -- For its own pool the buffer is one of those that are out; for the others it is none.
  have hmine := buffersOf_perm x.owner hperm
  rw [buffersOf_cons_self rfl] at hmine
  obtain ⟨heap', hfree, hlends'⟩ :=
    (hlends.perm hmine).free (hps.made q (List.mem_of_getElem? hq)) hknown
  refine ⟨_, hfree, h.set hq hlends' (fun other hother => ?_) fun y hy => ?_⟩
  · have hothers := buffersOf_perm other hperm
    rwa [buffersOf_cons_of_ne hother] at hothers
  · exact h.meets y (List.mem_of_mem_eraseIdx hy)

/-- A buffer that a pool does not know is lost: the call has taken it from its holder, and no
pool changes. -/
theorem Sound.refused (h : Sound ps s) (hps : Laid ps) (hx : s.loans[index]? = some x)
    (hp : s.pools[on]? = some p) (hother : on ≠ x.owner ∨ x.buffer.vaddr.isNull) :
    p.free x.buffer = .ok (.error .invalid, p, some (.foreignBuffer x.buffer.vaddr)) ∧
      Sound ps ⟨s.pools.set on p, s.loans.eraseIdx index, x :: s.lost⟩ := by
  have hunknown : p.contains x.buffer = .ok false := by
    rw [h.contains hps (List.mem_of_getElem? hx) hp]
    rcases hother with hne | hnull
    · simp [hne]
    · simp [hnull]
  refine ⟨Pool.free_refused hunknown, ?_⟩
  obtain ⟨q, heap, hq, rfl, hlends⟩ := h.lends on p hp
  -- Held or lost, the buffer is out of its pool all the same.
  have hperm : (s.loans ++ s.lost).Perm (s.loans.eraseIdx index ++ x :: s.lost) :=
    ((perm_eraseIdx hx).append_right s.lost).trans List.perm_middle.symm
  refine h.set hq (hlends.perm (buffersOf_perm on hperm)) (fun other _ => ?_) fun y hy => ?_
  · exact buffersOf_perm other hperm
  · exact h.meets y (List.mem_of_mem_eraseIdx hy)

/-! ### Any calls -/

/-- A call asks for a buffer whose block starts past the end of the bus. -/
def PastBus (s : Bank) : Call → Prop
  | .allocate on size align _ =>
    ∃ p : Pool, s.pools[on]? = some p ∧ p.PastBus size.toNat align.toNat
  | .free _ _ => False

/-- **A call that asks for no block past the end of the bus is answered**, and leaves the bank
sound. -/
theorem Sound.step_of_onBus (h : Sound ps s) (hps : Laid ps) {c : Call} (hbus : ¬ s.PastBus c) :
    ∃ s', s.step c = .ok s' ∧ Sound ps s' := by
  cases c with
  | allocate on size align limit =>
    cases hp : s.pools[on]? with
    | none => exact ⟨s, by simp only [Bank.step, hp]; rfl, h⟩
    | some p =>
      obtain ⟨q, heap, hq, rfl, hlends⟩ := h.lends on p hp
      have hmade : q.Made := hps.made q (List.mem_of_getElem? hq)
      rcases hlends.allocate_of_onBus hmade limit.toNat fun hpast => hbus ⟨_, hp, hpast⟩ with
        ⟨notice, hanswer⟩ | ⟨b, heap', hanswer, hmeets, -, hlends'⟩
      · refine ⟨_, by simp only [Bank.step, hp, hanswer, Checked.ok_bind]; rfl, ?_⟩
        exact h.set hq hlends (fun _ _ => .refl _) h.meets
      · refine ⟨_, by simp only [Bank.step, hp, hanswer, Checked.ok_bind]; rfl, ?_⟩
        have howner : (⟨b, on, size, align, limit⟩ : Loan).owner = on := rfl
        refine h.set hq ?_ (fun other hother => ?_) ?_
        · rwa [List.cons_append, buffersOf_cons_self howner]
        · rw [List.cons_append, buffersOf_cons_of_ne hother]
        · exact List.forall_mem_cons.mpr ⟨⟨q, hq, hmeets⟩, h.meets⟩
  | free index on =>
    cases hx : s.loans[index]? with
    | none => exact ⟨s, by simp only [Bank.step, hx]; rfl, h⟩
    | some x =>
      cases hp : s.pools[on]? with
      | none => exact ⟨s, by simp only [Bank.step, hx, hp]; rfl, h⟩
      | some p =>
        by_cases hown : on = x.owner ∧ x.buffer.vaddr.isNull = false
        · obtain ⟨rfl, hnull⟩ := hown
          obtain ⟨p', hfree, hsound⟩ := h.takenBack hps hx hp hnull
          exact ⟨_, by simp only [Bank.step, hx, hp, hfree, Checked.ok_bind]; rfl, hsound⟩
        · have hother : on ≠ x.owner ∨ x.buffer.vaddr.isNull := by
            rw [← Bool.not_eq_false]
            exact not_and_or.mp hown
          obtain ⟨hfree, hsound⟩ := h.refused hps hx hp hother
          exact ⟨_, by simp only [Bank.step, hx, hp, hfree, Checked.ok_bind]; rfl, hsound⟩

/-- **Every call on new pools is answered, and leaves the bank sound.** -/
theorem Sound.step (h : Sound ps s) (hps : Placed ps) (c : Call) :
    ∃ s', s.step c = .ok s' ∧ Sound ps s' := by
  refine h.step_of_onBus hps.laid fun hpast => ?_
  cases c with
  | allocate on size align limit =>
    obtain ⟨p, hp, hpast⟩ := hpast
    obtain ⟨q, heap, hq, rfl, hlends⟩ := h.lends on p hp
    exact hlends.not_pastBus (hps.new q (List.mem_of_getElem? hq)) hpast
  | free index on => exact hpast

theorem Sound.run (h : Sound ps s) (hps : Placed ps) (calls : List Call) :
    ∃ s', s.run calls = .ok s' ∧ Sound ps s' := by
  induction calls generalizing s with
  | nil => exact ⟨s, rfl, h⟩
  | cons c rest ih =>
    obtain ⟨next, hstep, hnext⟩ := h.step hps c
    obtain ⟨s', hrun, hs'⟩ := ih hnext
    exact ⟨s', by simp only [Bank.run, hstep, Checked.ok_bind, hrun], hs'⟩

/-! ### What the holders of buffers can rely on -/

/-- The buffers of a pool that are held. -/
structure Safe (p : Pool) (s : Bank) : Prop where
  /-- Each is inside the pool and what was asked for, at its place on the bus. -/
  meets : ∀ x ∈ s.loans, p.Meets x.size.toNat x.align.toNat x.limit.toNat x.buffer
  /-- No two share memory, as the processor sees it or as the device does. -/
  apart : s.loans.Pairwise fun x y =>
    Extent.Apart x.buffer.range y.buffer.range ∧ Extent.Apart x.buffer.busRange y.buffer.busRange

theorem Sound.blocks_apart (h : Sound ps s) (hps : Laid ps) (hp : s.pools[on]? = some p) :
    s.loans.Pairwise fun x y => x.owner = on → y.owner = on →
      Extent.Apart x.buffer.block y.buffer.block := by
  obtain ⟨q, heap, hq, rfl, hlends⟩ := h.lends on p hp
  have hmade : q.Made := hps.made q (List.mem_of_getElem? hq)
  have hblocks := (List.pairwise_append.mp (hlends.apart hmade)).2.1
  rw [buffersOf, List.map_map, List.pairwise_map, List.pairwise_filter] at hblocks
  simpa using (List.pairwise_append.mp hblocks).1

theorem Sound.fromOnly (h : Sound [p] s) (hx : x ∈ s.loans) : x.owner = 0 ∧
    p.Meets x.size.toNat x.align.toNat x.limit.toNat x.buffer := by
  obtain ⟨q, hq, hmeets⟩ := h.meets x hx
  obtain ⟨hlt, rfl⟩ := List.getElem?_eq_some_iff.mp hq
  have hzero : x.owner = 0 := by simpa using hlt
  simp only [hzero] at hmeets
  exact ⟨hzero, hmeets⟩

theorem Sound.safe (h : Sound [p] s) (hn : p.New) : s.Safe p := by
  refine ⟨fun x hx => (h.fromOnly hx).2, ?_⟩
  have hlength : 0 < s.pools.length := by simp [h.length_eq]
  have hblocks := h.blocks_apart (.singleton hn.toMade) (List.getElem?_eq_getElem hlength)
  refine hblocks.imp_of_mem fun {x y} hx hy hapart => ?_
  obtain ⟨hxowner, hxmeets⟩ := h.fromOnly hx
  obtain ⟨hyowner, hymeets⟩ := h.fromOnly hy
  exact hxmeets.apart hymeets (hapart hxowner hyowner)

/-- **A pool lends every byte once.**  Whatever is asked of a new pool, and in whatever
order its buffers are given back, every call is answered, and the buffers that are held are
as they were asked for and do not overlap. -/
theorem safe_run (hn : p.New) (calls : List Call) :
    ∃ s, (Bank.start [p]).run calls = .ok s ∧ s.Safe p := by
  obtain ⟨s, hrun, hsound⟩ := (Sound.start (.singleton hn)).run (.singleton hn) calls
  exact ⟨s, hrun, hsound.safe hn⟩

/-- A pool over one page. -/
def page : Pool := ⟨⟨[⟨0x1000, 0x2000⟩], 0⟩, ⟨0x1000⟩, ⟨0x8000⟩, 0x1000⟩

theorem page_new : page.New := ⟨rfl, by decide, by decide⟩

/-- Two buffers that are held, with one between them that came back. -/
theorem safe_run_page : page.New ∧ ∃ s,
    (Bank.start [page]).run [.allocate 0 100 64 0xffff, .allocate 0 24 8 0xffff,
      .allocate 0 512 512 0xffff, .free 1 0] = .ok s ∧
    s.Safe page ∧ s.loans.length = 2 := by
  obtain ⟨s, hrun, hsafe⟩ := safe_run page_new [.allocate 0 100 64 0xffff,
    .allocate 0 24 8 0xffff, .allocate 0 512 512 0xffff, .free 1 0]
  refine ⟨page_new, s, hrun, hsafe, ?_⟩
  cases hrun
  rfl

/-- Each pool takes back its own buffers, and no others. -/
structure OwnersOnly (s : Bank) : Prop where
  /-- Whether a pool knows a buffer is always answered, whatever the buffer is. -/
  answers : ∀ p ∈ s.pools, ∀ b, ∃ known, p.contains b = .ok known
  /-- A pool knows a buffer that is held just if it lent it. -/
  knows : ∀ x ∈ s.loans, ∀ (on : Nat) (p : Pool), s.pools[on]? = some p →
    p.contains x.buffer = .ok (decide (on = x.owner))
  /-- The pool that lent a buffer takes it back, and no other pool changes. -/
  accepted : ∀ index x, s.loans[index]? = some x → ∃ p p' : Pool,
    s.pools[x.owner]? = some p ∧ p.free x.buffer = .ok (.ok (), p', none) ∧
    s.step (.free index x.owner)
      = .ok ⟨s.pools.set x.owner p', s.loans.eraseIdx index, s.lost⟩
  /-- Every other pool refuses the buffer, and no pool changes. -/
  refused : ∀ (index : Nat) (x : Loan) (on : Nat) (p : Pool),
    s.loans[index]? = some x → s.pools[on]? = some p → on ≠ x.owner →
    p.free x.buffer = .ok (.error .invalid, p, some (.foreignBuffer x.buffer.vaddr)) ∧
    s.step (.free index on) = .ok ⟨s.pools, s.loans.eraseIdx index, x :: s.lost⟩

theorem Sound.ownersOnly (h : Sound ps s) (hps : Placed ps)
    (hbase : ∀ p ∈ ps, p.base.isNull = false) : s.OwnersOnly := by
  have hnotNull : ∀ x ∈ s.loans, x.buffer.vaddr.isNull = false := by
    intro x hx
    obtain ⟨p, hp, hmeets⟩ := h.meets x hx
    exact hmeets.notNull (hbase p (List.mem_of_getElem? hp))
  constructor
  case answers =>
    intro p hp b
    obtain ⟨on, hon⟩ := List.getElem?_of_mem hp
    obtain ⟨q, heap, hq, rfl, -⟩ := h.lends on p hon
    exact ⟨_, Pool.contains_eq (hps.new q (List.mem_of_getElem? hq)).fits b⟩
  case knows =>
    intro x hx on p hp
    rw [h.contains hps.laid hx hp, hnotNull x hx, Bool.not_false, Bool.and_true]
  case accepted =>
    intro index x hx
    have hmem := List.mem_of_getElem? hx
    obtain ⟨q, hq, -⟩ := h.meets x hmem
    obtain ⟨hlt, -⟩ := List.getElem?_eq_some_iff.mp hq
    rw [← h.length_eq] at hlt
    have hp := List.getElem?_eq_getElem hlt
    obtain ⟨p', hfree, -⟩ := h.takenBack hps.laid hx hp (hnotNull x hmem)
    refine ⟨_, p', hp, hfree, ?_⟩
    simp only [Bank.step, hx, hp, hfree, Checked.ok_bind]
    rfl
  case refused =>
    intro index x on p hx hp hother
    obtain ⟨hfree, -⟩ := h.refused hps.laid hx hp (.inl hother)
    refine ⟨hfree, ?_⟩
    simp only [Bank.step, hx, hp, hfree, Checked.ok_bind, set_self hp]
    rfl

/-- **A buffer goes back where it came from, and nowhere else.**  Any pool may be asked for
buffers and may be given any buffer that is held.  No pool starts at the null address, since
a pool is made over memory that can be used. -/
theorem ownersOnly_run (hps : Placed ps) (hbase : ∀ p ∈ ps, p.base.isNull = false)
    (calls : List Call) : ∃ s, (Bank.start ps).run calls = .ok s ∧ s.OwnersOnly := by
  obtain ⟨s, hrun, hsound⟩ := (Sound.start hps).run hps calls
  exact ⟨s, hrun, hsound.ownersOnly hps hbase⟩

/-- The pool over the page behind. -/
def pageBehind : Pool := ⟨⟨[⟨0x2000, 0x3000⟩], 0⟩, ⟨0x2000⟩, ⟨0x4000⟩, 0x1000⟩

/-- The buffer that fills a pool is not known to the pool that starts where it ends. -/
theorem ownersOnly_run_pages :
    Placed [page, pageBehind] ∧ (∀ p ∈ [page, pageBehind], p.base.isNull = false) ∧ ∃ s,
      (Bank.start [page, pageBehind]).run
        [.allocate 0 0x1000 0x1000 0xffff, .allocate 1 16 8 0xffff] = .ok s ∧
      s.OwnersOnly ∧ s.loans.length = 2 := by
  have hps : Placed [page, pageBehind] := by
    refine ⟨?_, List.pairwise_pair.mpr ?_⟩
    · simp only [List.forall_mem_cons]
      exact ⟨page_new, ⟨rfl, by decide, by decide⟩, by simp⟩
    · exact (Extent.apart_iff (by decide) (by decide)).mpr (.inl (by decide))
  have hbase : ∀ p ∈ [page, pageBehind], p.base.isNull = false := by decide
  obtain ⟨s, hrun, howners⟩ := ownersOnly_run hps hbase
    [.allocate 0 0x1000 0x1000 0xffff, .allocate 1 16 8 0xffff]
  refine ⟨hps, hbase, s, hrun, howners, ?_⟩
  cases hrun
  rfl

end Bank

end Igd.Dma
