/-
Programs over a platform.

A program ends with a value or a fault, writes to the log, or asks its platform
and goes on with the answer.  It does not say what the platform answers, so a
statement about a program holds for every platform; a platform is a handler, and
running a program against one gives the value, the log and the platform's new
state.
-/
import Igd.Notice
import Igd.Platform.Request

namespace Igd

/-- A computation that asks a platform. -/
inductive Program (α : Type) : Type
  /-- The end, with a value. -/
  | done (a : α)
  /-- The end, without a value. -/
  | fault (f : Fault)
  /-- A message, and the rest. -/
  | note (n : Notice) (rest : Program α)
  /-- A request, and the rest for each answer. -/
  | ask (r : Request) (rest : r.Answer → Program α)

namespace Program

/-- Go on with the value of a program. -/
def bind {α β : Type} : Program α → (α → Program β) → Program β
  | .done a, next => next a
  | .fault f, _ => .fault f
  | .note n rest, next => .note n (rest.bind next)
  | .ask r rest, next => .ask r fun answer => (rest answer).bind next

instance : Monad Program where
  pure := .done
  bind := bind

/-- Ask the platform. -/
def request (r : Request) : Program r.Answer := .ask r .done

/-- Write to the log. -/
def log (n : Notice) : Program Unit := .note n (.done ())

/-- Write to the log, if there is a message. -/
def report : Option Notice → Program Unit
  | none => .done ()
  | some n => log n

/-- Write to the log that a service refused, if it did. -/
def reportRefusal (notice : ServiceError → Notice) : Except ServiceError Unit → Program Unit
  | .ok () => .done ()
  | .error e => log (notice e)

/-- The value of a checked computation. -/
def ofChecked {α : Type} : Checked α → Program α
  | .ok a => .done a
  | .error f => .fault f

instance : MonadLift (Except Fault) Program where
  monadLift := ofChecked

@[simp] theorem pure_eq_done {α : Type} (a : α) : (pure a : Program α) = .done a := rfl

@[simp] theorem done_bind {α β : Type} (a : α) (next : α → Program β) :
    (Program.done a >>= next) = next a := rfl

@[simp] theorem fault_bind {α β : Type} (f : Fault) (next : α → Program β) :
    (Program.fault f >>= next) = .fault f := rfl

@[simp] theorem note_bind {α β : Type} (n : Notice) (rest : Program α) (next : α → Program β) :
    (Program.note n rest >>= next) = .note n (rest >>= next) := rfl

@[simp] theorem ask_bind {α β : Type} (r : Request) (rest : r.Answer → Program α)
    (next : α → Program β) :
    (Program.ask r rest >>= next) = .ask r fun answer => rest answer >>= next := rfl

theorem bind_done {α : Type} (p : Program α) : p.bind .done = p := by
  induction p with
  | done a => rfl
  | fault f => rfl
  | note n rest ih => simp [bind, ih]
  | ask r rest ih => simp [bind, ih]

theorem bind_bind {α β γ : Type} (p : Program α) (f : α → Program β) (g : β → Program γ) :
    (p.bind f).bind g = p.bind fun a => (f a).bind g := by
  induction p with
  | done a => rfl
  | fault f => rfl
  | note n rest ih => simp [bind, ih]
  | ask r rest ih => simp [bind, ih]

instance : LawfulMonad Program :=
  LawfulMonad.mk' Program bind_done (fun _ _ => rfl) bind_bind

end Program

/-! ### Running a program -/

/-- A value or a fault, with the messages logged before it. -/
structure Logged (α : Type) where
  notices : List Notice
  outcome : Checked α

namespace Logged

/-- Go on with the value, keeping the messages. -/
def bind {α β : Type} (m : Logged α) (next : α → Logged β) : Logged β :=
  match m.outcome with
  | .error f => ⟨m.notices, .error f⟩
  | .ok a => ⟨m.notices ++ (next a).notices, (next a).outcome⟩

instance : Monad Logged where
  pure a := ⟨[], .ok a⟩
  bind := bind

/-- The end of a computation. -/
def fault {α : Type} (f : Fault) : Logged α := ⟨[], .error f⟩

/-- A message. -/
def log (n : Notice) : Logged Unit := ⟨[n], .ok ()⟩

/-- A message, if there is one. -/
def report (n : Option Notice) : Logged Unit := ⟨n.toList, .ok ()⟩

instance : MonadLift (Except Fault) Logged where
  monadLift c := ⟨[], c⟩

theorem bind_ok {α : Type} (m : Logged α) : m.bind (fun a => ⟨[], .ok a⟩) = m := by
  obtain ⟨notices, outcome⟩ := m
  cases outcome <;> simp [bind]

theorem bind_bind {α β γ : Type} (m : Logged α) (f : α → Logged β) (g : β → Logged γ) :
    (m.bind f).bind g = m.bind fun a => (f a).bind g := by
  obtain ⟨notices, outcome⟩ := m
  cases outcome with
  | error e => rfl
  | ok a =>
    simp only [bind]
    cases (f a).outcome <;> simp

instance : LawfulMonad Logged :=
  LawfulMonad.mk' Logged bind_ok (fun _ _ => rfl) bind_bind

end Logged

/-- How a platform with state `σ` answers requests. -/
abbrev Handler (σ : Type) := (r : Request) → StateT σ Logged r.Answer

/-- Run a program against a platform. -/
def Program.run {σ α : Type} (serve : Handler σ) : Program α → StateT σ Logged α
  | .done a => pure a
  | .fault f => fun _ => Logged.fault f
  | .note n rest => do
    Logged.log n
    rest.run serve
  | .ask r rest => do
    let answer ← serve r
    (rest answer).run serve

/-- Running goes through a program in order, so the platform that the second part
meets is the one that the first part left. -/
theorem Program.run_bind {σ α β : Type} (serve : Handler σ) (p : Program α)
    (next : α → Program β) :
    (p >>= next).run serve = p.run serve >>= fun a => (next a).run serve := by
  induction p with
  | done a => simp [Program.run]
  | fault f => rfl
  | note n rest ih => simp [Program.run, ih]
  | ask r rest ih => simp [Program.run, ih]

end Igd
