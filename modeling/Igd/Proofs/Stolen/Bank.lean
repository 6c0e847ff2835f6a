/-
Several allocators, and blocks given back to any of them.

A block is two numbers, and does not say where it is from.  A bank is any number of
allocators with the blocks of theirs that are out.  Whoever holds a block may give it back
to any allocator of the bank: to the one that carved it, to another, or to one that was
made anew or closed in the meantime.

`Changes` lists what one call can do to a bank, and the rest is read off it.  Every
allocator stays tidy: a block that was taken back had a place, whoever carved it, and one
that had none changed nothing.  What a tidy allocator does with a block therefore holds
after any calls, as long as no allocator's count of blocks is full.
-/
import Igd.Proofs.Places
import Igd.Proofs.Stolen.Carving

namespace Igd.Stolen

open Extents

/-- A block that is out, and where it is from. -/
structure Lease where
  block : Block
  /-- The number of the allocator that carved it. -/
  owner : Nat
  /-- That allocator was neither made anew nor closed since. -/
  current : Bool

/-- What becomes of a lease when allocator `on` is made anew or closed. -/
def Lease.outdate (on : Nat) (x : Lease) : Lease :=
  if x.owner = on then { x with current := false } else x

@[simp] theorem Lease.outdate_block (on : Nat) (x : Lease) : (x.outdate on).block = x.block := by
  unfold outdate
  split <;> rfl

@[simp] theorem Lease.outdate_owner (on : Nat) (x : Lease) : (x.outdate on).owner = x.owner := by
  unfold outdate
  split <;> rfl

/-- Allocators, numbered from zero, and the blocks of theirs that are out. -/
structure Bank where
  allocators : List Allocator
  out : List Lease

namespace Bank

/-- No allocators, and no blocks. -/
def none : Bank := ⟨[], []⟩

/-- A call on one of the allocators, which is named by its number, or for a new one. -/
inductive Call
  /-- One more allocator, of the offsets below the length. -/
  | add (length : UInt64)
  /-- One more allocator, with nothing under management. -/
  | addEmpty
  /-- Make an allocator anew. -/
  | init (on : Nat) (length : UInt64)
  | close (on : Nat)
  | allocate (on : Nat) (size align : UInt64)
  /-- Give back the block at this place among those that are out. -/
  | free (index on : Nat)

/-- Put an allocator in the place of one of the bank's, whose blocks are no longer
current. -/
def renew (s : Bank) (on : Nat) (a : Allocator) : Bank :=
  ⟨s.allocators.set on a, s.out.map (·.outdate on)⟩

/-- The bank after one call.  A call on an allocator that there is not, or with a block
that is not out, is none. -/
def step (s : Bank) : Call → Checked Bank
  | .add length => return { s with allocators := s.allocators ++ [.ofLength length.toNat] }
  | .addEmpty => return { s with allocators := s.allocators ++ [.empty] }
  | .init on length => return s.renew on (.ofLength length.toNat)
  | .close on =>
    match s.allocators[on]? with
    | .none => return s
    | some a => return s.renew on a.close.1
  | .allocate on size align =>
    match s.allocators[on]? with
    | .none => return s
    | some a => do
      let (answer, a) ← a.allocate size.toNat align.toNat
      match answer with
      | .ok block => return ⟨s.allocators.set on a, ⟨block, on, true⟩ :: s.out⟩
      | .error _ => return { s with allocators := s.allocators.set on a }
  | .free index on =>
    match s.out[index]?, s.allocators[on]? with
    | some x, some a => do
      let (a, _) ← a.free x.block
      return ⟨s.allocators.set on a, s.out.eraseIdx index⟩
    | _, _ => return s

/-- The bank after some calls. -/
def run (s : Bank) : List Call → Checked Bank
  | [] => return s
  | c :: rest => do (← s.step c).run rest

/-- One more block of each allocator can be counted. -/
def CountsFit (s : Bank) : Prop := ∀ a ∈ s.allocators, a.blocksOut + 1 < wordCount

/-- The allocators are tidy, and what is out is a block of one of them. -/
structure Sound (s : Bank) : Prop where
  tidy : ∀ a ∈ s.allocators, a.Tidy
  lengths : ∀ a ∈ s.allocators, a.length < wordCount
  holds : ∀ x ∈ s.out, 0 < x.block.length
  /-- The end of a block does not leave the word. -/
  stops : ∀ x ∈ s.out, x.block.base + x.block.length < wordCount
  owners : ∀ x ∈ s.out, x.owner < s.allocators.length

/-! ### What one call can do -/

/-- What a call makes of a bank. -/
inductive Changes (s : Bank) : Call → Bank → Prop
  /-- There was no such allocator or block, or nothing was carved. -/
  | nothing (c : Call) : Changes s c s
  | added {c : Call} (length : Nat) (hword : length < wordCount) :
      Changes s c { s with allocators := s.allocators ++ [.ofLength length] }
  | renewed {c : Call} (on length : Nat) (hword : length < wordCount) :
      Changes s c (s.renew on (.ofLength length))
  | carved {on : Nat} {size align : UInt64} {a a' : Allocator} {b : Block}
      (ha : s.allocators[on]? = some a) (hcarved : a.Carved size.toNat align.toNat b a')
      (hsize : 0 < size.toNat) :
      Changes s (.allocate on size align) ⟨s.allocators.set on a', ⟨b, on, true⟩ :: s.out⟩
  | takenBack {index on : Nat} {x : Lease} {a : Allocator} (hx : s.out[index]? = some x)
      (ha : s.allocators[on]? = some a) (hplace : a.HasPlaceFor x.block) :
      Changes s (.free index on)
        ⟨s.allocators.set on (a.afterFreeing x.block), s.out.eraseIdx index⟩
  | refused {index on : Nat} {x : Lease} {a : Allocator} (hx : s.out[index]? = some x)
      (ha : s.allocators[on]? = some a) (hplace : ¬ a.HasPlaceFor x.block) :
      Changes s (.free index on) { s with out := s.out.eraseIdx index }

variable {s s' : Bank} {c : Call}

/-- **A call makes one of the changes**, or carves a block that could not be counted. -/
theorem Sound.step_cases (h : s.Sound) (c : Call) :
    (∃ s', s.step c = .ok s' ∧ s.Changes c s') ∨
      (s.step c = .error .addOverflow ∧ ¬ s.CountsFit) := by
  cases c with
  | add length => exact .inl ⟨_, rfl, .added _ length.toNat_lt⟩
  | addEmpty => exact .inl ⟨_, rfl, .added 0 (by decide)⟩
  | init on length => exact .inl ⟨_, rfl, .renewed on _ length.toNat_lt⟩
  | close on =>
    cases ha : s.allocators[on]? with
    | none => exact .inl ⟨s, by simp only [step, ha]; rfl, .nothing _⟩
    | some a => exact .inl ⟨_, by simp only [step, ha]; rfl, .renewed on 0 (by decide)⟩
  | allocate on size align =>
    cases ha : s.allocators[on]? with
    | none => exact .inl ⟨s, by simp only [step, ha]; rfl, .nothing _⟩
    | some a =>
      have hin : a ∈ s.allocators := List.mem_of_getElem? ha
      rcases (h.tidy a hin).allocate_cases size.toNat align.toNat with
        ⟨b, a', hanswer, hcarved, hsize⟩ | ⟨e, hanswer⟩ | ⟨hfault, -, hfull⟩
      · exact .inl ⟨_, by simp only [step, ha, hanswer, Checked.ok_bind]; rfl,
          .carved ha hcarved hsize⟩
      · refine .inl ⟨s, ?_, .nothing _⟩
        simp only [step, ha, hanswer, Checked.ok_bind, set_self ha]
        rfl
      · refine .inr ⟨?_, fun hcount => absurd (hcount a hin) (Nat.not_lt.mpr hfull)⟩
        simp only [step, ha, hfault, Checked.error_bind]
  | free index on =>
    cases hx : s.out[index]? with
    | none => exact .inl ⟨s, by simp only [step, hx]; rfl, .nothing _⟩
    | some x =>
      cases ha : s.allocators[on]? with
      | none => exact .inl ⟨s, by simp only [step, hx, ha]; rfl, .nothing _⟩
      | some a =>
        have hout : x ∈ s.out := List.mem_of_getElem? hx
        have hin : a ∈ s.allocators := List.mem_of_getElem? ha
        by_cases hplace : a.HasPlaceFor x.block
        · have hfree := (h.tidy a hin).free (h.holds x hout) hplace.2 (h.stops x hout) hplace.1
          refine .inl ⟨_, ?_, .takenBack hx ha hplace⟩
          simp only [step, hx, ha, hfree, Checked.ok_bind]
          rfl
        · have hfree := (h.tidy a hin).free_refused (h.holds x hout) (h.stops x hout) hplace
          refine .inl ⟨_, ?_, .refused hx ha hplace⟩
          simp only [step, hx, ha, hfree, Checked.ok_bind, set_self ha]
          rfl

theorem Sound.changes (h : s.Sound) (hstep : s.step c = .ok s') : s.Changes c s' := by
  rcases h.step_cases c with ⟨t, ht, hchanges⟩ | ⟨hfault, -⟩
  · rw [ht] at hstep
    cases hstep
    exact hchanges
  · rw [hfault] at hstep
    cases hstep

/-- **Every call is answered** while the counts fit. -/
theorem Sound.answered (h : s.Sound) (hcount : s.CountsFit) (c : Call) :
    ∃ s', s.step c = .ok s' := by
  rcases h.step_cases c with ⟨s', hstep, -⟩ | ⟨-, hfull⟩
  · exact ⟨s', hstep⟩
  · exact absurd hcount hfull

/-! ### What every change keeps -/

theorem Sound.none : none.Sound := by
  constructor <;> simp [Bank.none]

/-- **No change makes an allocator untidy**, wherever the block that is taken back is
from. -/
theorem Sound.kept (h : s.Sound) (hchanges : s.Changes c s') : s'.Sound := by
  cases hchanges with
  | nothing => exact h
  | added length hword =>
    refine ⟨?_, ?_, h.holds, h.stops, ?_⟩
    · exact List.forall_mem_append.mpr ⟨h.tidy, List.forall_mem_singleton.mpr (.ofLength length)⟩
    · exact List.forall_mem_append.mpr ⟨h.lengths, List.forall_mem_singleton.mpr hword⟩
    · intro x hx
      have := h.owners x hx
      simp only [List.length_append]
      omega
  | renewed on length hword =>
    refine ⟨forall_mem_set h.tidy (.ofLength length), forall_mem_set h.lengths hword, ?_, ?_, ?_⟩
    all_goals
      intro x hx
      obtain ⟨y, hy, rfl⟩ := List.mem_map.mp hx
    · simpa using h.holds y hy
    · simpa using h.stops y hy
    · simpa [renew] using h.owners y hy
  | carved ha hcarved hsize =>
    have hin := List.mem_of_getElem? ha
    have hword := h.lengths _ hin
    refine ⟨forall_mem_set h.tidy hcarved.tidy, forall_mem_set h.lengths ?_, ?_, ?_, ?_⟩
    · rw [hcarved.length_eq]
      exact hword
    · refine List.forall_mem_cons.mpr ⟨?_, h.holds⟩
      exact Nat.lt_of_lt_of_eq hsize hcarved.length.symm
    · refine List.forall_mem_cons.mpr ⟨?_, h.stops⟩
      have hwithin := hcarved.within
      rw [hcarved.length]
      exact Nat.lt_of_le_of_lt hwithin hword
    · obtain ⟨hon, -⟩ := List.getElem?_eq_some_iff.mp ha
      simpa using ⟨hon, h.owners⟩
  | takenBack hx ha hplace =>
    have hout := List.mem_of_getElem? hx
    have hin := List.mem_of_getElem? ha
    have htidy := (h.tidy _ hin).afterFreeing (h.holds _ hout) hplace.2 hplace.1
    have hword := h.lengths _ hin
    refine ⟨forall_mem_set h.tidy htidy, forall_mem_set h.lengths hword, ?_, ?_, ?_⟩
    · exact fun y hy => h.holds y (List.mem_of_mem_eraseIdx hy)
    · exact fun y hy => h.stops y (List.mem_of_mem_eraseIdx hy)
    · intro y hy
      simpa using h.owners y (List.mem_of_mem_eraseIdx hy)
  | refused hx ha hplace =>
    refine ⟨h.tidy, h.lengths, ?_, ?_, ?_⟩
    · exact fun y hy => h.holds y (List.mem_of_mem_eraseIdx hy)
    · exact fun y hy => h.stops y (List.mem_of_mem_eraseIdx hy)
    · exact fun y hy => h.owners y (List.mem_of_mem_eraseIdx hy)

/-! ### Any calls -/

/-- The counts fit before each of the calls and after the last. -/
def CountsFitDuring (s : Bank) (calls : List Call) : Prop :=
  ∀ made, made <+: calls → ∀ t, s.run made = .ok t → t.CountsFit

theorem run_cons {rest : List Call} (hstep : s.step c = .ok s') :
    s.run (c :: rest) = s'.run rest := by
  simp only [run, hstep, Checked.ok_bind]

theorem run_cons_ok {rest : List Call} (hrun : s.run (c :: rest) = .ok s') :
    ∃ next, s.step c = .ok next ∧ next.run rest = .ok s' := Checked.bind_eq_ok hrun

theorem CountsFitDuring.head {calls : List Call} (h : s.CountsFitDuring calls) : s.CountsFit :=
  h [] List.nil_prefix s rfl

theorem CountsFitDuring.tail {rest : List Call} (h : s.CountsFitDuring (c :: rest))
    (hstep : s.step c = .ok s') : s'.CountsFitDuring rest := by
  intro made hmade t hrun
  refine h (c :: made) (List.cons_prefix_cons.mpr ⟨rfl, hmade⟩) t ?_
  rw [run_cons hstep]
  exact hrun

/-- **Any calls are answered, and leave the bank sound.** -/
theorem Sound.run (h : s.Sound) {calls : List Call} (hcount : s.CountsFitDuring calls) :
    ∃ s', s.run calls = .ok s' ∧ s'.Sound := by
  induction calls generalizing s with
  | nil => exact ⟨s, rfl, h⟩
  | cons c rest ih =>
    obtain ⟨next, hstep⟩ := h.answered hcount.head c
    obtain ⟨s', hrun, hs'⟩ := ih (h.kept (h.changes hstep)) (hcount.tail hstep)
    exact ⟨s', (run_cons hstep).trans hrun, hs'⟩

theorem Sound.of_run (h : s.Sound) {calls : List Call} (hrun : s.run calls = .ok s') :
    s'.Sound := by
  induction calls generalizing s with
  | nil =>
    cases hrun
    exact h
  | cons c rest ih =>
    obtain ⟨next, hstep, hrest⟩ := run_cons_ok hrun
    exact ih (h.kept (h.changes hstep)) hrest

/-! ### The counts -/

theorem Changes.blocksOut_le {n : Nat} (hchanges : s.Changes c s')
    (h : ∀ a ∈ s.allocators, a.blocksOut ≤ n) : ∀ a ∈ s'.allocators, a.blocksOut ≤ n + 1 := by
  have hmore : ∀ a ∈ s.allocators, a.blocksOut ≤ n + 1 := fun a ha => Nat.le_succ_of_le (h a ha)
  cases hchanges with
  | nothing => exact hmore
  | added length =>
    exact List.forall_mem_append.mpr ⟨hmore, List.forall_mem_singleton.mpr (Nat.zero_le _)⟩
  | renewed on length => exact forall_mem_set hmore (Nat.zero_le _)
  | carved ha hcarved =>
    refine forall_mem_set hmore ?_
    rw [hcarved.blocksOut]
    exact Nat.succ_le_succ (h _ (List.mem_of_getElem? ha))
  | takenBack hx ha =>
    refine forall_mem_set hmore ?_
    exact Nat.le_trans (Nat.sub_le _ _) (hmore _ (List.mem_of_getElem? ha))
  | refused => exact hmore

/-- After some calls no count is above their number. -/
theorem Sound.blocksOut_le (h : s.Sound) {calls : List Call} {n : Nat}
    (hn : ∀ a ∈ s.allocators, a.blocksOut ≤ n) (hrun : s.run calls = .ok s') :
    ∀ a ∈ s'.allocators, a.blocksOut ≤ n + calls.length := by
  induction calls generalizing s n with
  | nil =>
    cases hrun
    exact hn
  | cons c rest ih =>
    obtain ⟨next, hstep, hrest⟩ := run_cons_ok hrun
    have hchanges := h.changes hstep
    have := ih (h.kept hchanges) (hchanges.blocksOut_le hn) hrest
    simpa [Nat.add_comm, Nat.add_left_comm] using this

/-- Counts can only be full after very many calls, since a call adds at most one to them. -/
theorem countsFitDuring_of_length {calls : List Call} (h : calls.length + 1 < wordCount) :
    none.CountsFitDuring calls := by
  intro made hmade t hrun a ha
  have hle := Sound.none.blocksOut_le (n := 0) (by simp [none]) hrun a ha
  have := hmade.length_le
  omega

/-! ### What the holders of blocks can rely on -/

/-- What an allocator is, and what it does with a block that is given back. -/
structure WellFormed (s : Bank) : Prop where
  /-- The free extents hold something, each ends before the next starts, and none reaches
  past the end. -/
  tidy : ∀ a ∈ s.allocators, a.Tidy
  /-- The free bytes can be counted. -/
  available : ∀ a ∈ s.allocators, ∃ free, a.available = .ok free ∧ free ≤ a.length
  /-- Giving back a block changes the allocator just if there is a place for the block.
  Then its offsets become free and no others, and it is counted off. -/
  givenBack : ∀ a ∈ s.allocators, ∀ x ∈ s.out, ∃ a' notice,
    a.free x.block = .ok (a', notice) ∧ (a' ≠ a ↔ a.HasPlaceFor x.block) ∧
    (a.HasPlaceFor x.block → a'.length = a.length ∧ a'.blocksOut = a.blocksOut - 1 ∧
      ∀ offset, a'.IsFree offset ↔ a.IsFree offset ∨ offset ∈ x.block.extent)

theorem Sound.wellFormed (h : s.Sound) : s.WellFormed := by
  refine ⟨h.tidy, fun a ha => (h.tidy a ha).available (h.lengths a ha), ?_⟩
  intro a ha x hx
  have htidy := h.tidy a ha
  have hpos := h.holds x hx
  by_cases hplace : a.HasPlaceFor x.block
  · refine ⟨_, _, htidy.free hpos hplace.2 (h.stops x hx) hplace.1, ?_, fun _ => ?_⟩
    · exact ⟨fun _ => hplace, fun _ => htidy.afterFreeing_ne hpos hplace.1⟩
    · exact ⟨rfl, rfl, htidy.isFree_afterFreeing⟩
  · refine ⟨a, _, htidy.free_refused hpos (h.stops x hx) hplace, ?_, fun h => absurd h hplace⟩
    exact ⟨fun hne => absurd rfl hne, fun h => absurd h hplace⟩

/-- **Free extents stay in order, wherever blocks are given back.** -/
theorem wellFormed_run (calls : List Call) (hcount : none.CountsFitDuring calls) :
    ∃ s, none.run calls = .ok s ∧ s.WellFormed := by
  obtain ⟨s, hrun, hsound⟩ := Sound.none.run hcount
  exact ⟨s, hrun, hsound.wellFormed⟩

/-- Two allocators, each with its first ten bytes out. -/
def twins : List Call := [.add 100, .add 100, .allocate 0 10 1, .allocate 1 10 1]

/-- A block of the second allocator given back to the first, and the first made anew while a
block of it is out. -/
theorem wellFormed_run_twins :
    none.CountsFitDuring (twins ++ [.free 0 0, .init 0 50, .free 0 1]) ∧
      ∃ s, none.run (twins ++ [.free 0 0, .init 0 50, .free 0 1]) = .ok s ∧ s.WellFormed := by
  have hcount : none.CountsFitDuring (twins ++ [.free 0 0, .init 0 50, .free 0 1]) :=
    countsFitDuring_of_length (by decide)
  exact ⟨hcount, wellFormed_run _ hcount⟩

end Bank

end Igd.Stolen
