/-
The calls of a bring-up.

Bring-up makes its calls in one fixed order, and the first that fails ends it.  A
`Step` names a call, `Plan.ask` says what it asks of the platform and which of the
answers are failures, and `Follows` reads the exchanges of a run along a list of
steps.  No program and no attachment occurs in them: they say what bring-up should
do, and the modules after this one show that it does it.

The geometry is part of a plan although it is found on the way.  Only the steps after
the control word look at it, and `Geometry.FoundIn` says where it came from.
-/
import Igd.Proofs.Attachment.Holding

namespace Igd

/-- A call of bring-up. -/
inductive Step
  | readStolenBase
  | mapRegisters
  | readControlWord
  | handOver
  | buildRing
  | takePage
  | createWorkqueue
  | findVideoTables
  | setModes
  | chooseOutputs
  | installInterrupt

/-- A request, and which of its answers are failures. -/
structure Query where
  request : Request
  refusal : request.Answer → Option AttachError

/-- What a bring-up goes by. -/
structure Plan where
  chip : Chip
  settings : Settings
  resources : Resources
  geometry : Geometry

namespace Plan

/-- A service that reported an error. -/
def failure (cause : ServiceError → AttachError) : Except ServiceError Unit → Option AttachError
  | .ok () => none
  | .error e => some (cause e)

/-- A mapping that cannot be used, or was not made at all. -/
def unmapped (cause : AttachError) (answer : Option IoMapping) : Option AttachError :=
  if (StatusPage.usable answer).isSome then none else some cause

/-- A bridge that is absent, or a control word that is rejected. -/
def badWord : Option UInt16 → Option AttachError
  | none => some (.geometry .bridgeUnavailable)
  | some word =>
    match ControlWord.stolenMebibytes word with
    | .error e => some (.geometry e)
    | .ok _ => none

/-- No DMA memory, or memory at a bus address that does not fit the register. -/
def badBuffer : Option DmaBuffer → Option AttachError
  | none => some (.statusPage .outOfMemory)
  | some buffer =>
    if buffer.bus.register?.isSome then none else some (.statusPage .outOfMemory)

/-- What a step asks.  Where stolen memory has no room for a page, the step that
takes one from it fails before it asks anything. -/
def ask (plan : Plan) : Step → Except AttachError Query
  | .readStolenBase => .ok ⟨.readDevice stolenBaseOffset, fun _ => none⟩
  | .mapRegisters =>
    .ok ⟨.map plan.resources.registerBase plan.resources.registerLength.toNat,
      unmapped .registersNotMapped⟩
  | .readControlWord => .ok ⟨.readBridge ControlWord.offset, badWord⟩
  | .handOver =>
    .ok ⟨.handOver plan.geometry.usable plan.geometry.apertureSize, fun _ => none⟩
  | .buildRing => .ok ⟨.hook .ringInit, failure .ring⟩
  | .takePage =>
    match plan.chip.generation with
    | .g33 =>
      if pageSize ≤ plan.geometry.usable then
        .ok ⟨.map plan.resources.apertureBase pageSize, unmapped (.statusPage .mappingFailed)⟩
      else .error (.statusPage .outOfMemory)
    | .legacy | .i9xx => .ok ⟨.dmaAlloc pageSize pageSize StatusPage.busLimit, badBuffer⟩
  | .createWorkqueue =>
    .ok ⟨.createWorkqueue plan.settings.workqueueName,
      fun queue => if queue.isSome then none else some .workqueueUnavailable⟩
  | .findVideoTables => .ok ⟨.hook .biosInit, failure fun _ => .noVideoTables⟩
  | .setModes => .ok ⟨.hook .modesetInit, failure .modeset⟩
  | .chooseOutputs =>
    .ok ⟨.initialOutputs plan.settings.initialOutputsCanGrow, fun _ => none⟩
  | .installInterrupt => .ok ⟨.hook .irqInstall, failure .interrupt⟩

/-- The calls of a whole bring-up, in order. -/
def steps (plan : Plan) : List Step :=
  (if plan.chip.is9Series then [.readStolenBase] else []) ++
    [.mapRegisters, .readControlWord, .handOver, .buildRing, .takePage, .createWorkqueue,
      .findVideoTables, .setModes, .chooseOutputs, .installInterrupt]

theorem ask_takePage_of_ne_g33 {plan : Plan} (hchip : plan.chip.generation ≠ .g33) :
    plan.ask .takePage
      = .ok ⟨.dmaAlloc pageSize pageSize StatusPage.busLimit, badBuffer⟩ := by
  cases hgen : plan.chip.generation with
  | g33 => exact absurd hgen hchip
  | legacy | i9xx => simp only [ask, hgen]

theorem ask_takePage_of_room {plan : Plan} (hchip : plan.chip.generation = .g33)
    (hroom : pageSize ≤ plan.geometry.usable) : plan.ask .takePage
      = .ok ⟨.map plan.resources.apertureBase pageSize,
        unmapped (.statusPage .mappingFailed)⟩ := by
  simp only [ask, hchip, if_pos hroom]

theorem ask_takePage_of_full {plan : Plan} (hchip : plan.chip.generation = .g33)
    (hfull : ¬ pageSize ≤ plan.geometry.usable) :
    plan.ask .takePage = .error (.statusPage .outOfMemory) := by
  simp only [ask, hchip, if_neg hfull]

/-- What taking a page can ask, by the chip and by the room that stolen memory has. -/
inductive TakesPage (plan : Plan) : Except AttachError Query → Prop
  | host (hchip : plan.chip.generation ≠ .g33) :
      TakesPage plan (.ok ⟨.dmaAlloc pageSize pageSize StatusPage.busLimit, badBuffer⟩)
  | device (hchip : plan.chip.generation = .g33) (hroom : pageSize ≤ plan.geometry.usable) :
      TakesPage plan (.ok ⟨.map plan.resources.apertureBase pageSize,
        unmapped (.statusPage .mappingFailed)⟩)
  | full (hchip : plan.chip.generation = .g33) (hfull : ¬ pageSize ≤ plan.geometry.usable) :
      TakesPage plan (.error (.statusPage .outOfMemory))

theorem takesPage_of_ask {plan : Plan} {asked : Except AttachError Query}
    (h : plan.ask .takePage = asked) : plan.TakesPage asked := by
  subst h
  by_cases hchip : plan.chip.generation = .g33
  · by_cases hroom : pageSize ≤ plan.geometry.usable
    · rw [ask_takePage_of_room hchip hroom]
      exact .device hchip hroom
    · rw [ask_takePage_of_full hchip hroom]
      exact .full hchip hroom
  · rw [ask_takePage_of_ne_g33 hchip]
    exact .host hchip

theorem not_isRelease_of_ask {plan : Plan} {s : Step} {q : Query} (h : plan.ask s = .ok q) :
    q.request.isRelease = false := by
  cases s with
  | takePage => cases takesPage_of_ask h <;> rfl
  | _ => cases h; rfl

/-- The exchanges are those of the steps in order, up to the first that fails: that
is the verdict, and it is nothing if none fails. -/
inductive Follows (plan : Plan) : List Step → List Exchange → Option AttachError → Prop
  /-- Every step is made. -/
  | nil : Follows plan [] [] none
  /-- A step fails before it asks. -/
  | withheld {s : Step} {rest : List Step} {e : AttachError} (h : plan.ask s = .error e) :
      Follows plan (s :: rest) [] (some e)
  /-- The answer to a step is a failure. -/
  | refused {s : Step} {rest : List Step} {e : AttachError} {r : Request}
      {refusal : r.Answer → Option AttachError} (h : plan.ask s = .ok ⟨r, refusal⟩)
      (answer : r.Answer) (he : refusal answer = some e) :
      Follows plan (s :: rest) [⟨r, answer⟩] (some e)
  /-- The answer to a step is good, and the next steps follow. -/
  | answered {s : Step} {rest : List Step} {xs : List Exchange}
      {verdict : Option AttachError} {r : Request} {refusal : r.Answer → Option AttachError}
      (h : plan.ask s = .ok ⟨r, refusal⟩) (answer : r.Answer) (hgood : refusal answer = none)
      (hrest : Follows plan rest xs verdict) :
      Follows plan (s :: rest) (⟨r, answer⟩ :: xs) verdict

namespace Follows

variable {plan : Plan} {ss ss' : List Step} {xs xs' : List Exchange}

theorem append {verdict : Option AttachError} (h : plan.Follows ss xs none)
    (h' : plan.Follows ss' xs' verdict) : plan.Follows (ss ++ ss') (xs ++ xs') verdict := by
  generalize hnone : (none : Option AttachError) = made at h
  induction h with
  | nil => exact h'
  | withheld => cases hnone
  | refused => cases hnone
  | answered hask answer hgood _ ih => exact answered hask answer hgood (ih hnone)

theorem append_of_failed {e : AttachError} (h : plan.Follows ss xs (some e)) :
    plan.Follows (ss ++ ss') xs (some e) := by
  generalize hsome : some e = failed at h
  induction h with
  | nil => cases hsome
  | withheld hask => exact withheld hask
  | refused hask answer he => exact refused hask answer he
  | answered hask answer hgood _ ih => exact answered hask answer hgood (ih hsome)

theorem not_isRelease {verdict : Option AttachError} (h : plan.Follows ss xs verdict) :
    ∀ x ∈ xs, ¬ x.request.isRelease := by
  induction h with
  | nil => simp
  | withheld => simp
  | refused hask answer _ =>
    have hnot := not_isRelease_of_ask hask
    simpa using hnot
  | answered hask answer _ _ ih =>
    have hnot := not_isRelease_of_ask hask
    intro x hx
    rcases List.mem_cons.mp hx with rfl | hx
    · simpa using hnot
    · exact ih x hx

end Follows

end Plan

/-- The geometry was decoded from the control word and the BARs read after it. -/
def Geometry.FoundIn (g : Geometry) (chip : Chip) (xs : List Exchange) : Prop :=
  ∃ word table notice,
    [⟨.readBridge ControlWord.offset, some word⟩, ⟨.bars, table⟩] <:+: xs ∧
    Geometry.decode chip word (table.bar Geometry.apertureBar).length = .ok (.ok g, notice)

/-- The calls that entering a stage makes, in order. -/
def Stage.steps : Stage → List Step
  | .down => []
  | .registers => [.mapRegisters]
  | .aperture => [.readControlWord, .handOver]
  | .ring => [.buildRing]
  | .statusPage => [.takePage]
  | .display => [.createWorkqueue, .findVideoTables, .setModes, .chooseOutputs]
  | .interrupt => [.installInterrupt]

/-- The plan that an attachment goes by, with the geometry among the handles. -/
def Attachment.plan (a : Attachment) (h : Handles) : Plan :=
  ⟨a.chip, a.settings, a.resources, h.geometry⟩

end Igd
