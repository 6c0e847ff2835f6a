/-
What happens when a program runs.

A run is one path through a program: at each request the platform's answer picks
the branch.  `Run` relates a program to the transcript of such a path and to how
the path ends.  It says nothing about where the answers come from, so a statement
about every run is a statement about every platform, also about one that answers
the same request differently each time.

`Returns p Q` says that every run of `p` ends with a value, never with a fault,
and that `Q` holds of the transcript and the value.  The lemmas below take a
program apart in the order in which it runs: `returns_bind` is the whole of the
argument, and everything else about programs is proved from them without looking
at `Run` again.

Where a program may end with a fault, `Ends p Q` says that `Q` holds of every run of `p`
and of how it ends.

`play` is a platform at work, and `run_play` says that what it leads to is a run.
So there are runs, and every platform has one.
-/
import Igd.Platform.Program

namespace Igd

/-- An entry of a transcript. -/
inductive Entry
  /-- A request and the answer it got. -/
  | exchange (x : Exchange)
  /-- A message to the log. -/
  | notice (n : Notice)

/-- The exchange of an entry, if it is one. -/
def Entry.exchange? : Entry → Option Exchange
  | .exchange x => some x
  | .notice _ => none

/-- The exchanges of a transcript, in order. -/
def exchanges (t : List Entry) : List Exchange := t.filterMap Entry.exchange?

/-- The calls of services among the exchanges, in order. -/
def calls (t : List Entry) : List Exchange := (exchanges t).filter (·.request.isCall)

/-- The requests of a transcript, in order. -/
def requests (t : List Entry) : List Request := (exchanges t).map (·.request)

@[simp] theorem exchanges_nil : exchanges [] = [] := rfl

@[simp] theorem exchanges_exchange (x : Exchange) (t : List Entry) :
    exchanges (.exchange x :: t) = x :: exchanges t := rfl

@[simp] theorem exchanges_notice (n : Notice) (t : List Entry) :
    exchanges (.notice n :: t) = exchanges t := rfl

@[simp] theorem exchanges_append (t u : List Entry) :
    exchanges (t ++ u) = exchanges t ++ exchanges u := List.filterMap_append

theorem mem_exchanges {t : List Entry} {x : Exchange} : x ∈ exchanges t ↔ .exchange x ∈ t := by
  simp only [exchanges, List.mem_filterMap]
  constructor
  · rintro ⟨e, he, hx⟩
    cases e with
    | notice n => cases hx
    | exchange y =>
      cases hx
      exact he
  · exact fun h => ⟨.exchange x, h, rfl⟩

@[simp] theorem calls_nil : calls [] = [] := rfl

@[simp] theorem calls_exchange (x : Exchange) (t : List Entry) :
    calls (.exchange x :: t) = if x.request.isCall then x :: calls t else calls t := by
  simp [calls, List.filter_cons]

@[simp] theorem calls_notice (n : Notice) (t : List Entry) :
    calls (.notice n :: t) = calls t := rfl

@[simp] theorem calls_append (t u : List Entry) : calls (t ++ u) = calls t ++ calls u := by
  simp [calls]

@[simp] theorem requests_nil : requests [] = [] := rfl

@[simp] theorem requests_exchange (x : Exchange) (t : List Entry) :
    requests (.exchange x :: t) = x.request :: requests t := rfl

@[simp] theorem requests_notice (n : Notice) (t : List Entry) :
    requests (.notice n :: t) = requests t := rfl

@[simp] theorem requests_append (t u : List Entry) :
    requests (t ++ u) = requests t ++ requests u := by
  simp [requests]

theorem filter_requests (t : List Entry) :
    (requests t).filter Request.isCall = (calls t).map (·.request) := by
  simp only [requests, calls, List.filter_map]
  rfl

@[simp] theorem exchanges_map_notice (ns : List Notice) : exchanges (ns.map .notice) = [] := by
  induction ns with
  | nil => rfl
  | cons n rest ih => exact ih

@[simp] theorem requests_map_notice (ns : List Notice) : requests (ns.map .notice) = [] := by
  simp [requests]

@[simp] theorem calls_map_notice (ns : List Notice) : calls (ns.map .notice) = [] := by
  simp [calls]

namespace Program

variable {α β : Type}

/-- A path through a program: its transcript, and how it ends. -/
inductive Run : Program α → List Entry → Checked α → Prop
  | done (a : α) : Run (.done a) [] (.ok a)
  | fault (f : Fault) : Run (.fault f) [] (.error f)
  | note {n : Notice} {rest : Program α} {t : List Entry} {out : Checked α}
      (h : Run rest t out) : Run (.note n rest) (.notice n :: t) out
  | ask {r : Request} {rest : r.Answer → Program α} {t : List Entry} {out : Checked α}
      (answer : r.Answer) (h : Run (rest answer) t out) :
      Run (.ask r rest) (.exchange ⟨r, answer⟩ :: t) out

/-- Every run ends with a value, and `Q` holds of its transcript and its value. -/
def Returns (p : Program α) (Q : List Entry → α → Prop) : Prop :=
  ∀ t out, Run p t out → ∃ a, out = .ok a ∧ Q t a

theorem Returns.mono {p : Program α} {P Q : List Entry → α → Prop} (h : p.Returns P)
    (hPQ : ∀ t a, P t a → Q t a) : p.Returns Q := by
  intro t out hrun
  obtain ⟨a, hout, hP⟩ := h t out hrun
  exact ⟨a, hout, hPQ t a hP⟩

/-- What always holds of a run that ended with a value. -/
theorem Returns.of_run {p : Program α} {Q : List Entry → α → Prop} (h : p.Returns Q)
    {t : List Entry} {a : α} (hrun : Run p t (.ok a)) : Q t a := by
  obtain ⟨b, hb, hQ⟩ := h t _ hrun
  obtain rfl : a = b := by simpa using hb
  exact hQ

/-- What is known of every run may be used with the run itself at hand. -/
theorem Returns.withRun {p : Program α} {Q : List Entry → α → Prop} (h : p.Returns Q) :
    p.Returns fun t a => Run p t (.ok a) ∧ Q t a := by
  intro t out hrun
  obtain ⟨a, rfl, hQ⟩ := h t out hrun
  exact ⟨a, rfl, hrun, hQ⟩

@[simp] theorem returns_done {a : α} {Q : List Entry → α → Prop} :
    Returns (.done a) Q ↔ Q [] a := by
  constructor
  · intro h
    exact h.of_run (.done a)
  · intro h t out hrun
    cases hrun
    exact ⟨a, rfl, h⟩

@[simp] theorem returns_note {n : Notice} {rest : Program α} {Q : List Entry → α → Prop} :
    Returns (.note n rest) Q ↔ rest.Returns fun t a => Q (.notice n :: t) a := by
  constructor
  · intro h t out hrun
    exact h _ out (.note hrun)
  · intro h t out hrun
    cases hrun with
    | note hrest => exact h _ out hrest

@[simp] theorem returns_ask {r : Request} {rest : r.Answer → Program α}
    {Q : List Entry → α → Prop} :
    Returns (.ask r rest) Q ↔
      ∀ answer, (rest answer).Returns fun t a => Q (.exchange ⟨r, answer⟩ :: t) a := by
  constructor
  · intro h answer t out hrun
    exact h _ out (.ask answer hrun)
  · intro h t out hrun
    cases hrun with
    | ask answer hrest => exact h answer _ out hrest

@[simp] theorem returns_fault {f : Fault} {Q : List Entry → α → Prop} :
    ¬ Returns (.fault f) Q := by
  intro h
  obtain ⟨a, ha, -⟩ := h [] _ (.fault f)
  cases ha

/-- A program in two parts returns if the first part does and the second does
after it; their transcripts follow one another. -/
@[simp] theorem returns_bind {p : Program α} {f : α → Program β} {Q : List Entry → β → Prop} :
    (p >>= f).Returns Q ↔
      p.Returns fun t a => (f a).Returns fun u b => Q (t ++ u) b := by
  induction p generalizing Q with
  | done a => simp
  | fault e => simp
  | note n rest ih => simp [ih]
  | ask r rest ih => simp [ih]

/-- What follows a program matters only at the values that it can end with. -/
theorem Returns.bind_congr {p : Program α} {Q : List Entry → α → Prop} (h : p.Returns Q)
    {f g : α → Program β} (hfg : ∀ t a, Q t a → f a = g a) : (p >>= f) = p >>= g := by
  induction p generalizing Q with
  | done a => exact hfg [] a (returns_done.1 h)
  | fault e => rfl
  | note n rest ih =>
    exact congrArg (Program.note n) (ih (returns_note.1 h) fun t a hQ => hfg _ a hQ)
  | ask r rest ih =>
    refine congrArg (Program.ask r) (funext fun answer => ?_)
    exact ih answer (returns_ask.1 h answer) fun t a hQ => hfg _ a hQ

/-- A request is opened before it runs: a lemma about `Returns (request r)` would
mention the type of the answer, which is a known type once `r` is known. -/
@[simp] theorem request_eq_ask (r : Request) : request r = .ask r .done := rfl

@[simp] theorem returns_log {n : Notice} {Q : List Entry → Unit → Prop} :
    (log n).Returns Q ↔ Q [.notice n] () := by
  simp [log]

@[simp] theorem returns_report {n : Option Notice} {Q : List Entry → Unit → Prop} :
    (report n).Returns Q ↔ Q (n.toList.map .notice) () := by
  cases n <;> simp [report]

theorem ofChecked_map (f : α → β) (c : Checked α) :
    ofChecked (c.map f) = f <$> ofChecked c := by
  cases c <;> rfl

@[simp] theorem returns_ofChecked {c : Checked α} {Q : List Entry → α → Prop} :
    (ofChecked c).Returns Q ↔ ∃ a, c = .ok a ∧ Q [] a := by
  cases c <;> simp [ofChecked]

/-- The messages that a refusal leaves. -/
def refusalNotices (notice : ServiceError → Notice) : Except ServiceError Unit → List Notice
  | .ok () => []
  | .error e => [notice e]

@[simp] theorem returns_reportRefusal {notice : ServiceError → Notice}
    {answer : Except ServiceError Unit} {Q : List Entry → Unit → Prop} :
    (reportRefusal notice answer).Returns Q ↔
      Q ((refusalNotices notice answer).map .notice) () := by
  cases answer <;> simp [reportRefusal, refusalNotices]

/-! ### Runs that may end with a fault -/

/-- `Q` holds of the transcript of every run and of how it ends, be that a fault. -/
def Ends (p : Program α) (Q : List Entry → Checked α → Prop) : Prop :=
  ∀ t out, Run p t out → Q t out

theorem ends_done {a : α} {Q : List Entry → Checked α → Prop} (h : Q [] (.ok a)) :
    Ends (.done a) Q := by
  intro t out hrun
  cases hrun
  exact h

theorem ends_fault {f : Fault} {Q : List Entry → Checked α → Prop} (h : Q [] (.error f)) :
    Ends (.fault f) Q := by
  intro t out hrun
  cases hrun
  exact h

theorem ends_note {n : Notice} {rest : Program α} {Q : List Entry → Checked α → Prop}
    (h : rest.Ends fun t out => Q (.notice n :: t) out) : Ends (.note n rest) Q := by
  intro t out hrun
  cases hrun with
  | note hrest => exact h _ out hrest

theorem ends_ask {r : Request} {rest : r.Answer → Program α}
    {Q : List Entry → Checked α → Prop}
    (h : ∀ answer, (rest answer).Ends fun t out => Q (.exchange ⟨r, answer⟩ :: t) out) :
    Ends (.ask r rest) Q := by
  intro t out hrun
  cases hrun with
  | ask answer hrest => exact h answer _ out hrest

/-- What follows a program that returns is all that can fault. -/
theorem Returns.ends_bind {p : Program α} {P : List Entry → α → Prop} (hp : p.Returns P)
    {f : α → Program β} {Q : List Entry → Checked β → Prop}
    (h : ∀ t a, P t a → (f a).Ends fun u out => Q (t ++ u) out) : (p >>= f).Ends Q := by
  induction p generalizing P Q with
  | done a => exact h [] a (returns_done.1 hp)
  | fault e => exact absurd hp returns_fault
  | note n rest ih =>
    exact ends_note (ih (returns_note.1 hp) fun t a hP => h _ a hP)
  | ask r rest ih =>
    exact ends_ask fun answer => ih answer (returns_ask.1 hp answer) fun t a hP => h _ a hP

/-- A program returns if no run of it ends with a fault. -/
theorem Ends.returns {p : Program α} {Q : List Entry → Checked α → Prop} (h : p.Ends Q)
    (hnever : ∀ t f, ¬ Q t (.error f)) : p.Returns fun t a => Q t (.ok a) := by
  intro t out hrun
  cases out with
  | ok a => exact ⟨a, rfl, h t _ hrun⟩
  | error f => exact absurd (h t _ hrun) (hnever t f)

/-! ### What runs are made of -/

/-- Whatever is answered, only such entries come to pass. -/
inductive Only (P : Entry → Prop) : Program α → Prop
  | done (a : α) : Only P (.done a)
  | fault (f : Fault) : Only P (.fault f)
  | note {n : Notice} {rest : Program α} (hn : P (.notice n)) (hrest : Only P rest) :
      Only P (.note n rest)
  | ask {r : Request} {rest : r.Answer → Program α} (hr : ∀ answer, P (.exchange ⟨r, answer⟩))
      (hrest : ∀ answer, Only P (rest answer)) : Only P (.ask r rest)

namespace Only

variable {P : Entry → Prop}

theorem of_run {p : Program α} (hp : p.Only P) {t : List Entry} {out : Checked α}
    (hrun : Run p t out) : ∀ e ∈ t, P e := by
  induction hrun with
  | done a => simp
  | fault f => simp
  | note _ ih =>
    cases hp with
    | note hn hrest => exact List.forall_mem_cons.mpr ⟨hn, ih hrest⟩
  | ask answer _ ih =>
    cases hp with
    | ask hr hrest => exact List.forall_mem_cons.mpr ⟨hr answer, ih (hrest answer)⟩

theorem bind {p : Program α} {next : α → Program β} (hp : p.Only P)
    (hnext : ∀ a, (next a).Only P) : (p >>= next).Only P := by
  induction hp with
  | done a => exact hnext a
  | fault f => exact .fault f
  | note hn _ ih => exact .note hn ih
  | ask hr _ ih => exact .ask hr ih

theorem request {r : Request} (hr : ∀ answer, P (.exchange ⟨r, answer⟩)) :
    (Program.request r).Only P := .ask hr .done

theorem log {n : Notice} (hn : P (.notice n)) : (Program.log n).Only P := .note hn (.done ())

theorem report {n : Option Notice} (hn : ∀ m, n = some m → P (.notice m)) :
    (Program.report n).Only P := by
  cases n with
  | none => exact .done ()
  | some n => exact .log (hn n rfl)

theorem reportRefusal {notice : ServiceError → Notice} (hn : ∀ e, P (.notice (notice e)))
    (answer : Except ServiceError Unit) : (Program.reportRefusal notice answer).Only P := by
  cases answer with
  | ok => exact .done ()
  | error e => exact .log (hn e)

end Only

/-! ### Platforms -/

/-- The path that a platform leads a program along, and the state it is left in. -/
def play {σ : Type} (answer : σ → (r : Request) → r.Answer × σ) :
    σ → Program α → List Entry × Checked α × σ
  | s, .done a => ([], .ok a, s)
  | s, .fault f => ([], .error f, s)
  | s, .note n rest =>
    let (t, out, s) := play answer s rest
    (.notice n :: t, out, s)
  | s, .ask r rest =>
    let given := answer s r
    let (t, out, s) := play answer given.2 (rest given.1)
    (.exchange ⟨r, given.1⟩ :: t, out, s)

/-- What a platform leads to is a run. -/
theorem run_play {σ : Type} (answer : σ → (r : Request) → r.Answer × σ) (s : σ)
    (p : Program α) : Run p (play answer s p).1 (play answer s p).2.1 := by
  induction p generalizing s with
  | done a => exact .done a
  | fault f => exact .fault f
  | note n rest ih => exact .note (ih s)
  | ask r rest ih => exact .ask _ (ih _ _)

theorem play_map {σ : Type} (answer : σ → (r : Request) → r.Answer × σ) (s : σ) (f : α → β)
    (p : Program α) : play answer s (f <$> p)
      = ((play answer s p).1, (play answer s p).2.1.map f, (play answer s p).2.2) := by
  induction p generalizing s with
  | done a => rfl
  | fault e => rfl
  | note n rest ih =>
    show play answer s (.note n (f <$> rest)) = _
    simp only [play, ih]
  | ask r rest ih =>
    show play answer s (.ask r fun x => f <$> rest x) = _
    simp only [play, ih]

/-- A platform on which every service succeeds, with these BARs, this control word and
its DMA memory at this address. -/
def willing (table : BarTable) (word : UInt16) (memory : UInt64) :
    Unit → (r : Request) → r.Answer × Unit
  | _, .bars => (table, ())
  | _, .readBridge _ => (some word, ())
  | _, .readDevice _ => (0, ())
  | _, .map phys length => (some ⟨phys, ⟨phys.val⟩, length⟩, ())
  | _, .unmap _ => (.ok (), ())
  | _, .dmaAlloc size align _ => (some ⟨⟨memory⟩, ⟨memory⟩, size, align⟩, ())
  | _, .dmaFree _ => (.ok (), ())
  | _, .handOver _ _ => ((), ())
  | _, .createWorkqueue _ => (some ⟨1⟩, ())
  | _, .destroyWorkqueue _ => (.ok (), ())
  | _, .initialOutputs _ => ((), ())
  | _, .hook _ => (.ok (), ())
  | _, .load32 _ => (0, ())
  | _, .store32 _ _ => ((), ())
  | _, .clear _ _ => ((), ())

end Program

end Igd
