/-
A device that is attached and detached does not leak.

A `Session` is any sequence of attaching and detaching one slot, with nothing assumed
about the platform.  Its transcript is everything that happened from the start, and the
invariant, `Balanced`, is about the ledger of it: an empty slot owes nothing, and a slot
that is taken owes just what its operational attachment holds.  Attaching and detaching
keep it, because bring-up is all or nothing and teardown is exact.

The rest is read off the ledger.  Counting gives that nothing is given back twice or out
of nowhere, at every moment of the session, and that nothing is missing whenever the
slot is empty.  A pool of DMA memory that serves the session is lent out like the ledger
says, so it is whole again whenever the slot is empty.
-/
import Igd.Proofs.Attachment.Reachable
import Igd.Proofs.Dma
import Igd.Slot

namespace Igd

open Program

/-- One thing done with a slot, and how it went. -/
inductive Turn
  | attach (vendor device : UInt16) (result : Except AttachError Unit)
  | detach

/-- The slot was taken already. -/
def Turn.isRefused : Turn → Bool
  | .attach _ _ (.error .alreadyAttached) => true
  | _ => false

/-- The attach that counts is one that succeeded, and only refusals came after it. -/
def LastAttached (turns : List Turn) : Prop :=
  ∃ before vendor device after, turns = before ++ .attach vendor device (.ok ()) :: after ∧
    ∀ turn ∈ after, turn.isRefused

theorem lastAttached_append {turns : List Turn} {turn : Turn} :
    LastAttached (turns ++ [turn]) ↔
      (∃ vendor device, turn = .attach vendor device (.ok ())) ∨
        (turn.isRefused ∧ LastAttached turns) := by
  constructor
  · intro h
    obtain ⟨before, vendor, device, after, hturns, hafter⟩ := h
    rcases after.eq_nil_or_concat with rfl | ⟨after', last, rfl⟩
    · obtain ⟨-, hlast⟩ := List.append_inj' hturns rfl
      exact .inl ⟨vendor, device, List.singleton_inj.mp hlast⟩
    · rw [List.concat_eq_append, ← List.cons_append, ← List.append_assoc] at hturns
      obtain ⟨rfl, hlast⟩ := List.append_inj' hturns rfl
      obtain rfl := List.singleton_inj.mp hlast
      exact .inr ⟨hafter turn (by simp),
        before, vendor, device, after', rfl, fun x hx => hafter x (by simp [hx])⟩
  · intro h
    rcases h with ⟨vendor, device, rfl⟩ | ⟨hrefused, before, vendor, device, after, rfl, hafter⟩
    · exact ⟨turns, vendor, device, [], rfl, by simp⟩
    · refine ⟨before, vendor, device, after ++ [turn], by simp, ?_⟩
      intro x hx
      rcases List.mem_append.mp hx with hx | hx
      · exact hafter x hx
      · rw [List.mem_singleton.mp hx]
        exact hrefused

namespace Slot

/-- The slots that attaching and detaching lead to, with the turns taken and with all
that happened in them. -/
inductive Session (settings : Settings) : List Turn → List Entry → Slot → Prop
  | new : Session settings [] [] (vacant settings)
  | attach {turns : List Turn} {past t : List Entry} {s s' : Slot} {vendor device : UInt16}
      {result : Except AttachError Unit} (h : Session settings turns past s)
      (hrun : (s.attach vendor device).Run t (.ok (result, s'))) :
      Session settings (turns ++ [.attach vendor device result]) (past ++ t) s'
  | detach {turns : List Turn} {past t : List Entry} {s s' : Slot}
      (h : Session settings turns past s) (hrun : s.detach.Run t (.ok s')) :
      Session settings (turns ++ [.detach]) (past ++ t) s'

/-- Nothing is owed but what an operational attachment holds. -/
def Balanced (past : List Entry) (s : Slot) : Prop :=
  match s.attachment with
  | none => balance [] (exchanges past) = some []
  | some a => a.stage = .interrupt ∧ ∃ h, a.Settled past h

theorem Balanced.of_some {past : List Entry} {s : Slot} (hs : Balanced past s) {a : Attachment}
    (hslot : s.attachment = some a) : a.stage = .interrupt ∧ ∃ h, a.Settled past h := by
  simpa [Balanced, hslot] using hs

theorem Balanced.of_none {past : List Entry} {s : Slot} (hs : Balanced past s)
    (hslot : s.attachment = none) : balance [] (exchanges past) = some [] := by
  simpa [Balanced, hslot] using hs

theorem Balanced.exists_left {past : List Entry} {s : Slot} (hs : Balanced past s) :
    ∃ left, balance [] (exchanges past) = some left := by
  cases hslot : s.attachment with
  | none => exact ⟨_, hs.of_none hslot⟩
  | some a =>
    obtain ⟨-, h, hsettled⟩ := hs.of_some hslot
    exact ⟨_, hsettled.owed⟩

/-- How an attach can go: it is refused, it fails and leaves the slot empty, or it fills
the slot. -/
inductive Attached (s : Slot) : Except AttachError Unit × Slot → Prop
  | refused (h : s.isAttached) : Attached s (.error .alreadyAttached, s)
  | failed (h : ¬ s.isAttached) (e : AttachError) : Attached s (.error e, s)
  | succeeded (h : ¬ s.isAttached) (a : Attachment) :
      Attached s (.ok (), { s with attachment := some a })

variable {settings : Settings} {turns : List Turn} {past : List Entry} {s : Slot}

/-- Attaching keeps a slot balanced: a bring-up that fails owes nothing, and one that succeeds
owes what the attachment holds. -/
theorem attach_returns (hs : Balanced past s) (vendor device : UInt16) :
    (s.attach vendor device).Returns fun t result =>
      Attached s result ∧ Balanced (past ++ t) result.2 := by
  unfold attach
  cases hslot : s.attachment with
  | some a =>
    refine returns_done.2 ⟨.refused (by simp [isAttached, hslot]), ?_⟩
    simpa using hs
  | none =>
    have hempty : ¬ s.isAttached := by simp [isAttached, hslot]
    have howed := hs.of_none hslot
    cases hchip : Chip.find? vendor device with
    | none =>
      refine returns_bind.2 (returns_log.2 (returns_done.2 ⟨.failed hempty _, ?_⟩))
      simpa [Balanced, hslot] using howed
    | some chip =>
      refine returns_bind.2 ((Attachment.start_settled chip s.settings howed).mono ?_)
      intro t result hresult
      cases result with
      | error e =>
        refine returns_done.2 ⟨.failed hempty e, ?_⟩
        simpa [Balanced, hslot] using hresult
      | ok a =>
        refine returns_done.2 ⟨.succeeded hempty a, ?_⟩
        simpa [Balanced] using hresult

theorem detach_returns (hs : Balanced past s) :
    s.detach.Returns fun t s' => s' = { s with attachment := none } ∧ Balanced (past ++ t) s' := by
  unfold detach
  cases hslot : s.attachment with
  | none =>
    refine returns_done.2 ⟨?_, by simpa using hs⟩
    cases s
    simp_all
  | some a =>
    obtain ⟨-, h, hsettled⟩ := hs.of_some hslot
    have hstop := Attachment.stop_calls a.stage hsettled.fits
    rw [hsettled.holds] at hstop
    refine returns_bind.2 (hstop.mono fun t b ht => ?_)
    obtain ⟨rfl, hcalls⟩ := ht
    have hrelease :=
      balance_of_calls_release hcalls Attachment.isRelease_of_mem_flatMap_dues []
    rw [List.append_nil] at hrelease
    refine returns_done.2 ⟨rfl, ?_⟩
    simpa [Balanced] using balance_trans hsettled.owed hrelease

/-- **Every session is balanced.**  The induction is on the turns, and each starts where the
ledger is empty or has just what an operational attachment holds. -/
theorem Session.balanced (h : Session settings turns past s) : Balanced past s := by
  induction h with
  | new => rfl
  | attach _ hrun ih => exact ((attach_returns ih _ _).of_run hrun).2
  | detach _ hrun ih => exact ((detach_returns ih).of_run hrun).2

/-- The slot is taken just when the last attach that counts says so. -/
theorem Session.isAttached_iff (h : Session settings turns past s) :
    s.isAttached ↔ LastAttached turns := by
  induction h with
  | new => simp [isAttached, vacant, LastAttached]
  | @attach turns past t s s' vendor device result hsession hrun ih =>
    rw [lastAttached_append, ← ih]
    cases ((attach_returns hsession.balanced vendor device).of_run hrun).1 with
    | refused hs => simp [hs, Turn.isRefused]
    | failed hs e => simp [hs]
    | succeeded hs a => simp [isAttached]
  | detach hsession hrun ih =>
    obtain ⟨rfl, -⟩ := (detach_returns hsession.balanced).of_run hrun
    rw [lastAttached_append]
    simp [isAttached, Turn.isRefused]

/-- A slot that owes only what it must. -/
structure Tidy (turns : List Turn) (past : List Entry) (s : Slot) : Prop where
  /-- Whatever the platform answers, an attach ends, in one of three ways. -/
  attach_ends : ∀ vendor device, (s.attach vendor device).Returns fun _ result =>
    Attached s result
  /-- A detach ends with the slot empty. -/
  detach_ends : s.detach.Returns fun _ s' => s' = { s with attachment := none }
  /-- The slot is taken if and only if the last attach that was not refused succeeded and
  no detach came after it. -/
  attached_iff : s.isAttached ↔ LastAttached turns
  stage_eq : s.stage = if s.isAttached then .interrupt else .down
  /-- A slot that is taken refuses an attach, and nothing happens. -/
  attach_taken : s.isAttached → ∀ vendor device, (s.attach vendor device).Returns fun t result =>
    t = [] ∧ result = (.error .alreadyAttached, s)
  /-- A detach of an empty slot does nothing. -/
  detach_empty : ¬ s.isAttached → s.detach.Returns fun t s' => t = [] ∧ s' = s
  /-- At every moment, nothing was given back more often than it was obtained. -/
  released_le : ∀ xs, xs <+: exchanges past → ∀ due, due.isRelease →
    asked due xs ≤ obtained due xs
  /-- While the slot is empty, everything was given back as often as it was obtained. -/
  released_eq : ¬ s.isAttached → ∀ due, due.isRelease →
    asked due (exchanges past) = obtained due (exchanges past)
  /-- While the slot is empty, a pool that served the session, and nobody else, is as it
  was when it was made, with nothing handed out. -/
  pool_eq : ∀ base bus size p₀ p, Dma.Pool.ofRange base bus size = .ok p₀ →
    base.isNull = false → base.toNat + size < wordCount →
    Dma.Pool.Serves p₀ (exchanges past) p → ¬ s.isAttached → p = p₀ ∧ p.used = 0

/-- **A device does not leak**, however often it is attached and detached and whatever
fails on the way. -/
theorem Session.tidy (h : Session settings turns past s) : Tidy turns past s := by
  have hs := h.balanced
  have hvacant : ¬ s.isAttached → s.attachment = none := by simp [isAttached]
  refine ⟨?_, ?_, h.isAttached_iff, ?_, ?_, ?_, ?_, ?_, ?_⟩
  · intro vendor device
    exact (attach_returns hs vendor device).mono fun t result ht => ht.1
  · exact (detach_returns hs).mono fun t s' ht => ht.1
  · cases hslot : s.attachment with
    | none => simp [stage, isAttached, hslot]
    | some a => simp [stage, isAttached, hslot, (hs.of_some hslot).1]
  · intro htaken vendor device
    obtain ⟨a, ha⟩ := Option.isSome_iff_exists.mp htaken
    simp [Slot.attach, ha]
  · intro hnot
    simp [Slot.detach, hvacant hnot]
  · intro xs hprefix due hdue
    obtain ⟨ys, hxs⟩ := hprefix
    obtain ⟨left, hleft⟩ := hs.exists_left
    rw [← hxs] at hleft
    obtain ⟨mid, hmid⟩ := balance_of_append hleft
    have hcount := count_balance hmid hdue
    simp only [List.count_nil] at hcount
    omega
  · intro hnot due hdue
    have hcount := count_balance (hs.of_none (hvacant hnot)) hdue
    simpa using hcount.symm
  · intro base bus size p₀ p hnew hnull hfits hserves hnot
    have hsound := Dma.Pool.ofRange_sound hnew hnull hfits
    obtain rfl := Dma.Pool.eq_of_balance hsound (hs.of_none (hvacant hnot)) hserves
    exact ⟨rfl, Dma.Pool.used_ofRange hnew⟩

/-! ### A session -/

theorem Session.play_attach (h : Session settings turns past s) (vendor device : UInt16) {σ : Type}
    (answer : σ → (r : Request) → r.Answer × σ) (m : σ) {result : Except AttachError Unit}
    {s' : Slot} (hend : (play answer m (s.attach vendor device)).2.1 = .ok (result, s')) :
    Session settings (turns ++ [.attach vendor device result])
      (past ++ (play answer m (s.attach vendor device)).1) s' :=
  .attach h (hend ▸ run_play answer m (s.attach vendor device))

theorem Session.play_detach (h : Session settings turns past s) {σ : Type}
    (answer : σ → (r : Request) → r.Answer × σ) (m : σ) {s' : Slot}
    (hend : (play answer m s.detach).2.1 = .ok s') :
    Session settings (turns ++ [.detach]) (past ++ (play answer m s.detach).1) s' :=
  .detach h (hend ▸ run_play answer m s.detach)

/-- A pool of eight pages. -/
def eightPages : Dma.Pool := ⟨⟨[⟨0x10000, 0x18000⟩], 0⟩, ⟨0x10000⟩, ⟨0x10000⟩, 0x8000⟩

/-- A page of it, as the status page takes one. -/
def firstPage : DmaBuffer := ⟨⟨0x10000⟩, ⟨0x10000⟩, pageSize, pageSize⟩

set_option maxRecDepth 20000 in
/-- A 945G is attached and detached, with its status page from a pool. -/
theorem tidy_of_attach_detach : ∃ turns past s, Session .standard turns past s ∧
    turns = [.attach 0x8086 0x2772 (.ok ()), .detach] ∧ ¬ s.isAttached ∧
    ⟨.dmaAlloc pageSize pageSize StatusPage.busLimit, some firstPage⟩ ∈ exchanges past ∧
    ⟨.dmaFree firstPage, .ok ()⟩ ∈ exchanges past ∧
    Dma.Pool.ofRange ⟨0x10000⟩ ⟨0x10000⟩ 0x8000 = .ok eightPages ∧
    Dma.Pool.Serves eightPages (exchanges past) eightPages ∧ Tidy turns past s := by
  have hnew : Session .standard [] [] (vacant .standard) := .new
  have hattached := hnew.play_attach 0x8086 0x2772
    (willing ⟨[⟨⟨0xfeb00000⟩, 0x80000⟩]⟩ 0x30 0x10000) () rfl
  have hdetached := hattached.play_detach
    (willing ⟨[⟨⟨0xfeb00000⟩, 0x80000⟩]⟩ 0x30 0x10000) () rfl
  refine ⟨_, _, _, hdetached, rfl, by decide, List.mem_of_getElem? (i := 7) rfl,
    List.mem_of_getElem? (i := 19) rfl, rfl, ?_, hdetached.tidy⟩
  repeat first
    | exact .nil _
    | refine .other rfl ?_
    | refine .allocate rfl ?_
    | refine .free rfl ?_

end Slot

end Igd
