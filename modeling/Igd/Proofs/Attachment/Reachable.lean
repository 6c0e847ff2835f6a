/-
What holds of every attachment that can come about.

An attachment starts fresh and is brought up, taken down to some stage or stopped, any
number of times and in any order, and nothing is assumed about the answers.
`Reaches past a` says that `a` can come about with `past` as everything that happened on
the way.

The invariant is `Settled`: the attachment is what its stage and some handles make it,
and the ledger of everything that happened owes just what these handles are due at the
stages reached.  So the handles are the ones that were obtained and not given back since.
Each action keeps it, by what is known of going up and of going down, and everything
about reachable attachments is read off it.
-/
import Igd.Proofs.Attachment.Climb

namespace Igd

open Program

/-- The page is one of stolen memory. -/
def StatusPage.isDevice : StatusPage → Bool
  | .host _ => false
  | .device _ _ => true

@[simp] theorem HeldPage.isLive_statusPage (page : HeldPage) : page.statusPage.isLive := by
  cases page <;> rfl

@[simp] theorem StatusPage.isLive_forChip (chip : Chip) : (forChip chip).isLive = false := by
  cases hgen : chip.generation <;> simp [forChip, hgen, isLive, vaddr?]

theorem HeldPage.together (page : HeldPage) {block : Option Stolen.Block}
    {mapping : Option IoMapping} (h : page.statusPage = .device block mapping) :
    block.isSome ↔ mapping.isSome := by
  cases page with
  | host buffer => cases h
  | device m => cases h; simp

theorem StatusPage.forChip_together {chip : Chip} {block : Option Stolen.Block}
    {mapping : Option IoMapping} (h : forChip chip = .device block mapping) :
    block.isSome ↔ mapping.isSome := by
  unfold forChip at h
  split at h <;> cases h
  simp

theorem HeldPage.stolen_length (page : HeldPage) (n : Nat) : (page.stolen n).length = n := by
  cases page <;> rfl

theorem HeldPage.stolen_blocksOut (page : HeldPage) (n : Nat) :
    (page.stolen n).blocksOut = if page.statusPage.isDevice then 1 else 0 := by
  cases page <;> rfl

namespace Attachment

/-- Something that is done with an attachment. -/
inductive Action
  | bringUp
  | descendTo (floor : Stage)
  | stop

/-- Do it. -/
def act (a : Attachment) : Action → Program Attachment
  | .bringUp => do
    let (_, b) ← a.bringUp
    return b
  | .descendTo floor => a.descendTo floor
  | .stop => a.stop

/-- The attachments that can come about, each with all that happened before. -/
inductive Reaches : List Entry → Attachment → Prop
  | fresh (chip : Chip) (settings : Settings) (resources : Resources) :
      Reaches [] (fresh chip settings resources)
  | act {past t : List Entry} {a b : Attachment} (action : Action) (h : Reaches past a)
      (hrun : (a.act action).Run t (.ok b)) : Reaches (past ++ t) b

theorem Reaches.play {past : List Entry} {a b : Attachment} (h : Reaches past a)
    (action : Action) {σ : Type} (answer : σ → (r : Request) → r.Answer × σ) (s : σ)
    (hb : (Program.play answer s (a.act action)).2.1 = .ok b) :
    Reaches (past ++ (Program.play answer s (a.act action)).1) b :=
  .act action h (hb ▸ run_play answer s (a.act action))

/-- The attachment holds these handles, up to its stage, and nothing else is owed. -/
structure Settled (past : List Entry) (a : Attachment) (h : Handles) : Prop where
  holds : a.holding h a.stage = a
  fits : a.Fits h a.stage
  owed : balance [] (exchanges past) = some ((Stage.descent a.stage .down).flatMap h.dues)

theorem isRelease_of_mem_flatMap_dues {h : Handles} {l : List Stage} :
    ∀ due ∈ l.flatMap h.dues, due.isRelease := by
  intro due hdue
  obtain ⟨s, -, hs⟩ := List.mem_flatMap.mp hdue
  exact Handles.isRelease_of_mem_dues hs

namespace Settled

variable {past t : List Entry} {a b : Attachment} {h : Handles}

theorem fresh (chip : Chip) (settings : Settings) (resources : Resources) :
    Settled [] (fresh chip settings resources) noHandles where
  holds := rfl
  fits := fits_of_lt (s := .down) (by decide)
  owed := rfl

/-- What a run leaves is settled if it takes what was owed to what is owed then. -/
theorem after {s : Stage} {h' : Handles} (hs : Settled past a h) (hfits : a.Fits h' s)
    (howed : balance ((Stage.descent a.stage .down).flatMap h.dues) (exchanges t)
      = some ((Stage.descent s .down).flatMap h'.dues)) :
    Settled (past ++ t) (a.holding h' s) h' where
  holds := rfl
  fits := hfits
  owed := by
    rw [exchanges_append]
    exact balance_trans hs.owed howed

theorem bringUp (hs : Settled past a h) :
    a.bringUp.Returns fun t result => ∃ h', Settled (past ++ t) result.2 h' := by
  rw [← hs.holds]
  refine (bringUp_returns a.stage h hs.fits).mono fun t result ht => ?_
  obtain ⟨verdict, h', q, u, v, rfl, hclimbed, hresult⟩ := ht
  cases verdict with
  | none =>
    obtain ⟨rfl, rfl, hquiet⟩ := hresult
    refine ⟨h', hs.after hclimbed.fits ?_⟩
    rw [exchanges_append, hquiet, List.append_nil, hclimbed.balance_complete,
      ← hclimbed.agrees.flatMap_dues, ← List.flatMap_append,
      ← Stage.descent_append hclimbed.le (Stage.down_le _)]
  | some e =>
    obtain ⟨rfl, hheld⟩ := hresult
    exact ⟨h, hs.after hs.fits (hclimbed.balance_rolledBack hheld _)⟩

theorem descendTo (hs : Settled past a h) (floor : Stage) :
    (a.descendTo floor).Returns fun t b => Settled (past ++ t) b h := by
  rw [← hs.holds]
  refine (descendTo_calls floor a.stage hs.fits).mono fun t b ht => ?_
  obtain ⟨rfl, hcalls⟩ := ht
  refine hs.after (hs.fits.mono (min_le_left _ _)) ?_
  rw [Stage.descent_append (min_le_left a.stage floor) (Stage.down_le _), List.flatMap_append,
    Stage.descent_min]
  exact balance_of_calls_release hcalls isRelease_of_mem_flatMap_dues _

theorem stop (hs : Settled past a h) :
    a.stop.Returns fun t b => Settled (past ++ t) b h := by
  rw [← hs.holds]
  refine (stop_calls a.stage hs.fits).mono fun t b ht => ?_
  obtain ⟨rfl, hcalls⟩ := ht
  refine hs.after (fits_of_lt (by decide)) ?_
  have hrelease := balance_of_calls_release hcalls isRelease_of_mem_flatMap_dues []
  rwa [List.append_nil] at hrelease

/-- Every action keeps an attachment settled, whatever the platform answers. -/
theorem act (hs : Settled past a h) (action : Action) :
    (a.act action).Returns fun t b => ∃ h', Settled (past ++ t) b h' := by
  cases action with
  | bringUp =>
    refine returns_bind.2 (hs.bringUp.mono fun t result hresult => ?_)
    exact returns_done.2 (by simpa using hresult)
  | descendTo floor => exact (hs.descendTo floor).mono fun t b hb => ⟨h, hb⟩
  | stop => exact hs.stop.mono fun t b hb => ⟨h, hb⟩

end Settled

/-- **Whatever comes about is settled.** -/
theorem Reaches.settled {past : List Entry} {a : Attachment} (hreaches : Reaches past a) :
    ∃ h, Settled past a h := by
  induction hreaches with
  | fresh chip settings resources => exact ⟨noHandles, .fresh chip settings resources⟩
  | act action _ hrun ih =>
    obtain ⟨h, hs⟩ := ih
    exact (hs.act action).of_run hrun

/-- A bring-up from nothing ends with an attachment that is settled, or owes nothing.  In the
second case there is no attachment left that could give anything back. -/
theorem start_settled (chip : Chip) (settings : Settings) {past : List Entry}
    (howed : balance [] (exchanges past) = some []) :
    (start chip settings).Returns fun t result =>
      match result with
      | .error _ => balance [] (exchanges (past ++ t)) = some []
      | .ok a => a.stage = .interrupt ∧ ∃ h, a.Settled (past ++ t) h := by
  refine (start_returns chip settings).mono fun t result ht => ?_
  obtain ⟨table, rest, -, hcalls, hresult⟩ := ht
  have hrest : balance [] (exchanges (past ++ t)) = balance [] (exchanges rest) := by
    rw [exchanges_append, balance_append, howed, Option.bind_some, ← balance_calls, hcalls,
      balance_calls]
  cases hresources : (Resources.ofBars chip table).1 with
  | error e =>
    rw [hresources] at hresult
    obtain ⟨rfl, hnone⟩ := hresult
    show balance [] (exchanges (past ++ t)) = some []
    rw [hrest, hnone, balance_nil]
  | ok resources =>
    rw [hresources] at hresult
    obtain ⟨geometry, verdict, a, h, q, u, v, hstarted, hend⟩ := hresult
    obtain ⟨rfl, -, hclimbed, hquiet, hgaveBack⟩ := hstarted
    cases verdict with
    | none =>
      obtain ⟨rfl, rfl⟩ := hend
      refine ⟨rfl, h, rfl, hclimbed.fits, ?_⟩
      rw [hrest, ← balance_calls, calls_append, hquiet rfl, List.append_nil, balance_calls,
        hclimbed.balance_complete, List.append_nil]
      rfl
    | some e =>
      obtain rfl := hend
      show balance [] (exchanges (past ++ t)) = some []
      rw [hrest]
      exact hclimbed.balance_rolledBack (hgaveBack (Option.some_ne_none e)) []

/-! ### What the stage tells -/

/-- The stage of an attachment tells all that is held. -/
structure StageTells (a : Attachment) : Prop where
  registers : a.registers.isSome ↔ .registers ≤ a.stage
  stolen : a.stolen.isSome ↔ .aperture ≤ a.stage
  geometry : a.geometry.isSome ↔ .aperture ≤ a.stage
  objectsReady : a.objectsReady ↔ .aperture ≤ a.stage
  ringBuilt : a.ringBuilt ↔ .ring ≤ a.stage
  statusPage : a.statusPage.isLive ↔ .statusPage ≤ a.stage
  /-- A page of stolen memory and its mapping are held together. -/
  together : ∀ block mapping, a.statusPage = .device block mapping →
    (block.isSome ↔ mapping.isSome)
  workqueue : a.workqueue.isSome ↔ .display ≤ a.stage
  modesSet : a.modesSet ↔ .display ≤ a.stage
  interruptInstalled : a.interruptInstalled ↔ a.stage = .interrupt
  /-- The allocator of stolen memory manages what the geometry says is usable, and a
  status page in stolen memory is the one block that is ever out. -/
  stolen_eq : ∀ stolen, a.stolen = some stolen → ∃ geometry, a.geometry = some geometry ∧
    stolen.length = geometry.usable ∧
    stolen.blocksOut = if a.statusPage.isDevice ∧ a.statusPage.isLive then 1 else 0

theorem holding_stageTells {a : Attachment} {h : Handles} {s : Stage} :
    (a.holding h s).StageTells where
  registers := by simp [holding]
  stolen := by simp [holding]
  geometry := by simp [holding]
  objectsReady := by simp [holding]
  ringBuilt := by simp [holding]
  statusPage := by by_cases hs : Stage.statusPage ≤ s <;> simp [holding, hs]
  together := by
    intro block mapping hpage
    by_cases hs : Stage.statusPage ≤ s
    · have hheld : h.page.statusPage = .device block mapping := by
        simpa [holding, hs] using hpage
      exact h.page.together hheld
    · have hnone : StatusPage.forChip a.chip = .device block mapping := by
        simpa [holding, hs] using hpage
      exact StatusPage.forChip_together hnone
  workqueue := by simp [holding]
  modesSet := by simp [holding]
  interruptInstalled := by
    have htop : Stage.interrupt ≤ s ↔ s = .interrupt :=
      ⟨fun hs => le_antisymm (Stage.le_interrupt s) hs, fun hs => hs ▸ le_refl _⟩
    simpa [holding] using htop
  stolen_eq := by
    intro stolen hstolen
    by_cases haperture : Stage.aperture ≤ s
    · refine ⟨h.geometry, by simp [holding, haperture], ?_⟩
      by_cases hs : Stage.statusPage ≤ s
      · obtain rfl : h.page.stolen h.geometry.usable = stolen := by
          simpa [holding, haperture, hs] using hstolen
        simp [holding, hs, h.page.stolen_length, h.page.stolen_blocksOut]
      · obtain rfl : Stolen.Allocator.ofLength h.geometry.usable = stolen := by
          simpa [holding, haperture, hs] using hstolen
        simp [holding, hs, Stolen.Allocator.ofLength]
    · simp [holding, haperture] at hstolen

theorem Settled.stageTells {past : List Entry} {a : Attachment} {h : Handles}
    (hs : Settled past a h) : a.StageTells := by
  rw [← hs.holds]
  exact holding_stageTells

/-- **The stage tells what is held**, for every attachment that can come about. -/
theorem Reaches.stage_tells {past : List Entry} {a : Attachment} (hreaches : Reaches past a) :
    a.StageTells := by
  obtain ⟨h, hs⟩ := hreaches.settled
  rw [← hs.holds]
  exact holding_stageTells

/-- A G33 on a platform on which every service succeeds holds everything. -/
theorem stage_tells_operational :
    ∃ past a, Reaches past a ∧ a.stage = .interrupt ∧ a.statusPage.isDevice ∧ a.StageTells := by
  have hfresh := Reaches.fresh (.entry 0x29c2 "G33" .g33 [.i9xx, .g33]) .standard
    ⟨0, ⟨0xfeb00000⟩, 0x80000, ⟨0xd0000000⟩, ⟨0xd0000000⟩⟩
  have hreaches := hfresh.play .bringUp (willing ⟨[.unassigned]⟩ 0x30 0) () rfl
  exact ⟨_, _, hreaches, rfl, rfl, hreaches.stage_tells⟩

end Attachment

end Igd
