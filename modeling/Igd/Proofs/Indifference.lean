/-
Programs that do not look at the answers to releases.

A release may be refused, and a driver that is on its way down must not care.  A program
is indifferent if, wherever it gives something back, what it does next is the same for
every answer, up to messages.  `muted` is the program without its messages, so this is an
equation between programs, and it is proved of a program in parts: `Indifferent.bind` puts
two parts together, and a release with its report is indifferent by itself.

Two platforms are alike if they stay in step, whatever is asked, and answer all requests
but releases in the same way.  `Indifferent.play` is the result about them: they lead an
indifferent program to the same end by the same requests.
-/
import Igd.Proofs.Ledger
import Igd.Proofs.Memory

namespace Igd

open Testbed (Memory)

namespace Program

variable {α β σ τ : Type}

/-- The program without its messages. -/
def muted : Program α → Program α
  | .done a => .done a
  | .fault f => .fault f
  | .note _ rest => rest.muted
  | .ask r rest => .ask r fun answer => (rest answer).muted

theorem muted_bind (p : Program α) (next : α → Program β) :
    (p >>= next).muted = p.muted >>= fun a => (next a).muted := by
  induction p with
  | done a => rfl
  | fault f => rfl
  | note n rest ih => exact ih
  | ask r rest ih => exact congrArg (Program.ask r) (funext ih)

/-- The program goes on in the same way after every answer to a release. -/
inductive Indifferent : Program α → Prop
  | done (a : α) : Indifferent (.done a)
  | fault (f : Fault) : Indifferent (.fault f)
  | note {n : Notice} {rest : Program α} (hrest : Indifferent rest) : Indifferent (.note n rest)
  | ask {r : Request} {rest : r.Answer → Program α} (hrest : ∀ answer, Indifferent (rest answer))
      (hsame : r.isRelease → ∀ answer answer', (rest answer).muted = (rest answer').muted) :
      Indifferent (.ask r rest)

namespace Indifferent

theorem log (n : Notice) : (Program.log n).Indifferent := .note (.done ())

theorem report (n : Option Notice) : (Program.report n).Indifferent := by
  cases n with
  | none => exact .done ()
  | some n => exact .log n

theorem ofChecked (c : Checked α) : (Program.ofChecked c).Indifferent := by
  cases c with
  | error f => exact .fault f
  | ok a => exact .done a

theorem request {r : Request} (hr : ¬ r.isRelease) : (Program.request r).Indifferent :=
  .ask .done fun h => absurd h hr

theorem reported {r : Request} (rest : r.Answer → Program Unit)
    (hrest : ∀ answer, (rest answer).muted = .done () ∧ (rest answer).Indifferent) :
    (Program.request r >>= rest).Indifferent :=
  .ask (fun answer => (hrest answer).2) fun _ answer answer' =>
    (hrest answer).1.trans (hrest answer').1.symm

theorem bind {p : Program α} {next : α → Program β} (hp : p.Indifferent)
    (hnext : ∀ a, (next a).Indifferent) : (p >>= next).Indifferent := by
  induction hp with
  | done a => exact hnext a
  | fault f => exact .fault f
  | note _ ih => exact .note ih
  | ask _ hsame ih =>
    refine .ask ih fun hr answer answer' => ?_
    exact (muted_bind _ next).trans
      ((congrArg (· >>= fun a => (next a).muted) (hsame hr answer answer')).trans
        (muted_bind _ next).symm)

end Indifferent

theorem reportRefusal_muted (notice : ServiceError → Notice) (answer : Except ServiceError Unit) :
    (reportRefusal notice answer).muted = .done () ∧ (reportRefusal notice answer).Indifferent := by
  cases answer with
  | ok => exact ⟨rfl, .done ()⟩
  | error e => exact ⟨rfl, .log _⟩

/-! ### Two platforms -/

/-- Platforms that stay in step and answer alike whatever gives nothing back. -/
structure Alike (answer : σ → (r : Request) → r.Answer × σ)
    (answer' : τ → (r : Request) → r.Answer × τ) (InStep : σ → τ → Prop) : Prop where
  same : ∀ {s s'}, InStep s s' → ∀ r : Request, ¬ r.isRelease → (answer s r).1 = (answer' s' r).1
  next : ∀ {s s'}, InStep s s' → ∀ r, InStep (answer s r).2 (answer' s' r).2

/-- Two runs are the same, but for messages and for answers. -/
structure SameCourse (InStep : σ → τ → Prop) (played : List Entry × Checked α × σ)
    (played' : List Entry × Checked α × τ) : Prop where
  requests_eq : requests played.1 = requests played'.1
  outcome_eq : played.2.1 = played'.2.1
  inStep : InStep played.2.2 played'.2.2

/-- Messages are not asked for, so a program takes the same course without them. -/
theorem play_muted (answer : σ → (r : Request) → r.Answer × σ) (s : σ) (p : Program α) :
    SameCourse Eq (play answer s p) (play answer s p.muted) := by
  induction p generalizing s with
  | done a => exact ⟨rfl, rfl, rfl⟩
  | fault f => exact ⟨rfl, rfl, rfl⟩
  | note n rest ih => exact ⟨(ih s).1, (ih s).2, (ih s).3⟩
  | ask r rest ih =>
    obtain ⟨hrequests, houtcome, hstate⟩ := ih (answer s r).1 (answer s r).2
    exact ⟨congrArg (r :: ·) hrequests, houtcome, hstate⟩

/-- **Platforms that are alike lead an indifferent program along the same course**, to
the same end by the same requests. -/
theorem Indifferent.play {answer : σ → (r : Request) → r.Answer × σ}
    {answer' : τ → (r : Request) → r.Answer × τ} {InStep : σ → τ → Prop}
    (halike : Alike answer answer' InStep) {p : Program α} (hp : p.Indifferent) {s : σ} {s' : τ}
    (hstep : InStep s s') : SameCourse InStep (play answer s p) (play answer' s' p) := by
  induction hp generalizing s s' with
  | done a => exact ⟨rfl, rfl, hstep⟩
  | fault f => exact ⟨rfl, rfl, hstep⟩
  | note _ ih =>
    obtain ⟨hrequests, houtcome, hlast⟩ := ih hstep
    exact ⟨hrequests, houtcome, hlast⟩
  | @ask r rest _ hsame ih =>
    have hnext := halike.next hstep r
    obtain ⟨hrequests, houtcome, hlast⟩ := ih (answer s r).1 hnext
    -- The other platform goes on after an answer of its own, with the same program but
    -- for messages.
    have hmuted : (rest (answer s r).1).muted = (rest (answer' s' r).1).muted := by
      by_cases hr : r.isRelease
      · exact hsame hr _ _
      · rw [halike.same hstep r hr]
    have hmine := play_muted answer' (answer' s' r).2 (rest (answer s r).1)
    have hits := play_muted answer' (answer' s' r).2 (rest (answer' s' r).1)
    rw [hmuted] at hmine
    refine ⟨congrArg (r :: ·) ?_, ?_, ?_⟩
    · exact hrequests.trans (hmine.requests_eq.trans hits.requests_eq.symm)
    · exact houtcome.trans (hmine.outcome_eq.trans hits.outcome_eq.symm)
    · have hstate := hmine.inStep.trans hits.inStep.symm
      rwa [hstate] at hlast

/-- The program takes the same course on both platforms, and leaves the same in every
register, whatever else was written to memory meanwhile. -/
structure SameEffect (answer : σ → (r : Request) → r.Answer × σ)
    (answer' : τ → (r : Request) → r.Answer × τ) (InStep : σ → τ → Prop) (s : σ) (s' : τ)
    (p : Program α) : Prop where
  course : SameCourse InStep (play answer s p) (play answer' s' p)
  value_eq : ∀ (others : World) (m : Memory) (w : RegisterWindow) (register : UInt32),
    w.value (others.after [] m (requests (play answer s p).1)) register
      = w.value (others.after [] m (requests (play answer' s' p).1)) register

/-- The stores of the driver are among its requests. -/
theorem Indifferent.sameEffect {answer : σ → (r : Request) → r.Answer × σ}
    {answer' : τ → (r : Request) → r.Answer × τ} {InStep : σ → τ → Prop}
    (halike : Alike answer answer' InStep) {s : σ} {s' : τ} (hstep : InStep s s')
    {p : Program α} (hp : p.Indifferent) : SameEffect answer answer' InStep s s' p where
  course := hp.play halike hstep
  value_eq others m w register := by rw [(hp.play halike hstep).requests_eq]

/-- A platform like another one, but for a refusal of everything that is given back. -/
def refusing (answer : σ → (r : Request) → r.Answer × σ) : σ → (r : Request) → r.Answer × σ
  | s, .unmap mapping => (.error .io, (answer s (.unmap mapping)).2)
  | s, .dmaFree buffer => (.error .invalid, (answer s (.dmaFree buffer)).2)
  | s, .destroyWorkqueue queue => (.error .noDevice, (answer s (.destroyWorkqueue queue)).2)
  | s, .hook .ringCleanup => (.error .io, (answer s (.hook .ringCleanup)).2)
  | s, .hook .lastClose => (.error .io, (answer s (.hook .lastClose)).2)
  | s, .hook .modesetCleanup => (.error .noMemory, (answer s (.hook .modesetCleanup)).2)
  | s, .hook .irqUninstall => (.error .busy, (answer s (.hook .irqUninstall)).2)
  | s, r => answer s r

theorem refusing_alike (answer : σ → (r : Request) → r.Answer × σ) :
    Alike answer (refusing answer) Eq where
  same := by
    rintro s _ rfl r hr
    cases r with
    | unmap | dmaFree | destroyWorkqueue => exact absurd rfl hr
    | hook which => cases which <;> first | rfl | exact absurd rfl hr
    | _ => rfl
  next := by
    rintro s _ rfl r
    cases r with
    | hook which => cases which <;> rfl
    | _ => rfl

end Program

end Igd
