/-
The status page register says where the page is.

With a page it holds the address of that page.  Without one it holds the value for no
page, or still what it was if no page was ever enabled through this mapping.  This is so
whenever the registers are mapped, and the last they hold before they are unmapped is the
value for no page.

`PageKept` is the invariant of a history, and every move keeps it.  The moves that end a
mapping take some care, since the mapping could be that of the registers or of the page.
The one of the page shares no address with the registers, so it is not theirs; and when
theirs ends there is no page any more.
-/
import Igd.Proofs.Attachment.Mapped
import Igd.Proofs.Attachment.PageRegister

namespace Igd

open Program

namespace Attachment

/-- The register is kept, as long as the registers are mapped and up to the moment at which
they are unmapped.  There is no page at that moment. -/
structure PageKept (past : List Entry) (a : Attachment) : Prop where
  now : ∀ w, a.registers = some w →
    ∃ since, MappedSince past w since ∧ Tracks w since a.statusPage
  ended : ∀ w since, UnmappedAfter past w since → w.Reaches → Apart w since →
    ∃ page : StatusPage, page.isLive = false ∧ Tracks w since page

theorem Settled.registers_le {past : List Entry} {a : Attachment} {h : Handles}
    {w : RegisterWindow} (hs : Settled past a h) (hw : a.registers = some w) :
    .registers ≤ a.stage := by
  rw [hs.registers_eq] at hw
  by_contra hlow
  rw [if_neg hlow] at hw
  cases hw

namespace PageKept

variable {past t since : List Entry} {a b : Attachment} {h h' : Handles} {w : RegisterWindow}

theorem now_move (hkept : PageKept past a) (hs : Settled past a h) (hmoved : Moved a h t b h')
    (hbefore : a.registers = some w) (hafter : b.registers = some w)
    (htracks : ∀ since, Tracks w since a.statusPage → Tracks w (since ++ t) b.statusPage) :
    ∀ w', b.registers = some w' →
      ∃ since, MappedSince (past ++ t) w' since ∧ Tracks w' since b.statusPage := by
  intro w' hw'
  obtain rfl : w = w' := Option.some.inj (hafter.symm.trans hw')
  obtain ⟨since, hmapped, htracked⟩ := hkept.now w hbefore
  have hlast := (hs.moved hmoved).registers_le hafter
  exact ⟨since ++ t, hmapped.move hs hmoved (hs.registers_le hbefore) hlast,
    htracks since htracked⟩

theorem ended_move (hkept : PageKept past a) (ht : ∀ r ∈ requests t, ¬ r.isUnmap) :
    ∀ w since, UnmappedAfter (past ++ t) w since → w.Reaches → Apart w since →
      ∃ page : StatusPage, page.isLive = false ∧ Tracks w since page := by
  intro w since hended hreaches hapart
  rcases hended.of_append with hended | ⟨first, answer, rest, rfl, -⟩
  · exact hkept.ended w since hended hreaches hapart
  · exact absurd rfl (ht (.unmap w.mapping) (by simp))

/-- Until the first mapping of a move ends, the registers are mapped since the same moment,
and the page is as it was. -/
theorem tracks_first (hkept : PageKept past a) (hw : a.registers = some w)
    {first : List Entry} (hfirst : exchanges first = []) (hquiet : ∀ e ∈ first, e.isQuiet)
    {w' : RegisterWindow} (hmapped : MappedSince (past ++ first) w' since) :
    w' = w ∧ Tracks w since a.statusPage := by
  obtain ⟨since₀, hmapped₀, htracks⟩ := hkept.now w hw
  have hrequests : requests first = [] := by simp [requests, hfirst]
  have hmapped₁ : MappedSince (past ++ first) w (since₀ ++ first) := by
    obtain ⟨⟨before, x, rfl, howes, hclear⟩, owed, howed⟩ := hmapped₀
    refine ⟨⟨before, x, by simp, howes, hclear⟩, owed, ?_⟩
    rw [exchanges_append, hfirst, List.append_nil, howed]
  obtain ⟨rfl, rfl⟩ := hmapped₁.unique hmapped
  refine ⟨rfl, htracks.keep ?_ ?_ (not_wasEnabled hquiet)⟩ <;> simp [hrequests]

/-- A move whose first request alone may end a mapping: what is to be shown is that, if that
is the mapping of the registers, there is no page. -/
theorem ended_first (hkept : PageKept past a) (hw : a.registers = some w) {due : Request}
    {others : List Request} (ht : requests t = due :: others)
    (hothers : ∀ r ∈ others, ¬ r.isUnmap) (hquiet : ∀ e ∈ t, e.isQuiet)
    (hpage : ∀ since, due = .unmap w.mapping → Tracks w since a.statusPage → w.Reaches →
      Apart w since → a.statusPage.isLive = false) :
    ∀ w' since, UnmappedAfter (past ++ t) w' since → w'.Reaches → Apart w' since →
      ∃ page : StatusPage, page.isLive = false ∧ Tracks w' since page := by
  intro w' since hended hreaches hapart
  rcases hended.of_append with hended | ⟨first, answer, rest, rfl, hmapped⟩
  · exact hkept.ended w' since hended hreaches hapart
  · obtain ⟨hfirst, hmapping⟩ := first_unmap ht hothers
    have hquiet : ∀ e ∈ first, e.isQuiet := fun e he => hquiet e (by simp [he])
    obtain ⟨rfl, htracks⟩ := hkept.tracks_first hw hfirst hquiet hmapped
    exact ⟨a.statusPage, hpage since hmapping htracks hreaches hapart, htracks⟩

/-- **Every move keeps the register.**  Only the registers and the page of stolen memory are
ever unmapped, each by the first request of a move, and a page is withdrawn before the
registers go. -/
theorem move (hkept : PageKept past a) (hs : Settled past a h) (hmove : Move a t b) :
    PageKept (past ++ t) b := by
  obtain ⟨h', hmoved⟩ := hs.move hmove
  cases hs.pageMove hmove with
  | plain hplain hregisters hpage =>
    refine ⟨fun w hw => ?_, hkept.ended_move fun r hr => (requests_of_isPlain hplain r hr).2⟩
    refine hkept.now_move hs hmoved (hregisters ▸ hw) hw (fun since htracks => ?_) w hw
    rw [hpage]
    exact htracks.plain hplain
  | maps w x hstage ht howes hregisters hpage =>
    subst ht
    refine ⟨fun w' hw' => ⟨[], ?_, .nil hpage⟩, hkept.ended_move ?_⟩
    · obtain rfl : w = w' := Option.some.inj (hregisters.symm.trans hw')
      have hclear := hs.owed
      rw [hstage] at hclear
      exact ⟨⟨past, x, rfl, howes, hclear⟩, [], rfl⟩
    · intro r hr hunmap
      obtain rfl : r = x.request := by simpa using hr
      rw [owes_of_isRelease (Request.isRelease_of_isUnmap hunmap)] at howes
      cases howes
  | stopsRing w hregisters hb ht hquiet =>
    subst hb
    refine ⟨hkept.now_move hs hmoved hregisters hregisters fun since htracks => ?_,
      hkept.ended_move fun r hr => ?_⟩
    · exact htracks.stopRing ht (not_wasEnabled hquiet)
    · exact RegisterWindow.not_isUnmap_of_mem_stores (ht ▸ hr)
  | enables w hbefore hafter henables =>
    exact ⟨hkept.now_move hs hmoved hbefore hafter fun since htracks => htracks.enable henables,
      hkept.ended_move henables.not_isUnmap⟩
  | withdraws w hbefore hafter due hwrite hdue ht hquiet hlive hpage =>
    refine ⟨hkept.now_move hs hmoved hbefore hafter fun since htracks =>
      htracks.withdraw hlive hpage hwrite ht, hkept.ended_first hbefore ht ?_ hquiet ?_⟩
    · exact fun r hr => RegisterWindow.not_isUnmap_of_mem_stores hr
    · -- The mapping that ends is that of the page, which shares no address with the window.
      intro since hmapping htracks hreaches hapart
      obtain ⟨x, hx, hblock⟩ := htracks.handed _ (hdue _ hmapping)
      have hboth := hapart x hx _ _ hblock w.mapping.virt (VirtAddr.within_self _ (by decide))
      exact absurd (RegisterWindow.within_start hreaches) hboth
  | unmaps w hbefore hafter ht hquiet hpage =>
    refine ⟨fun w' hw' => ?_, hkept.ended_first hbefore ht (by simp) hquiet fun _ _ _ _ _ => hpage⟩
    rw [hafter] at hw'
    cases hw'

end PageKept

/-- **The register is kept at every moment.** -/
theorem Passes.pageKept {past : List Entry} {a : Attachment} (hpasses : Passes past a) :
    PageKept past a := by
  induction hpasses with
  | fresh chip settings resources base =>
    refine ⟨fun w hw => (nomatch hw), fun w since hended => ?_⟩
    obtain ⟨before, answer, rest, hpast, -⟩ := hended
    simp at hpast
  | move hpasses hmove ih =>
    obtain ⟨h, hs⟩ := hpasses.settled
    exact ih.move hs hmove

theorem Settled.registers_of_isLive {past : List Entry} {a : Attachment} {h : Handles}
    (hs : Settled past a h) (hlive : a.statusPage.isLive) : a.registers = some h.window := by
  have hpage : .statusPage ≤ a.stage := hs.stageTells.statusPage.mp hlive
  exact hs.registers_eq.trans (if_pos (le_trans (by decide) hpage))

/-- There was a page at some moment of `past`, after which at most `since` happened. -/
def HadPage (past since : List Entry) : Prop :=
  ∃ earlier lived rest b, past = earlier ++ rest ∧ since = lived ++ rest ∧
    Passes earlier b ∧ b.statusPage.isLive

theorem Passes.hadPage {past before since : List Entry} {a : Attachment}
    (hpasses : Passes past a) (hpast : past = before ++ since) (henabled : WasEnabled since) :
    HadPage past since := by
  induction hpasses generalizing since with
  | fresh =>
    obtain ⟨-, rfl⟩ := List.append_eq_nil_iff.mp hpast.symm
    exact absurd henabled (not_wasEnabled (by simp))
  | @move past t a b hpasses hmove ih =>
    have hlast (ht : WasEnabled t) : HadPage (past ++ t) since := by
      obtain ⟨h, hs⟩ := hpasses.settled
      have hlive := (hs.pageMove hmove).isLive_of_wasEnabled ht
      exact ⟨past ++ t, since, [], b, by simp, by simp, hpasses.move hmove, hlive⟩
    rcases List.append_eq_append_iff.mp hpast with ⟨mid, -, rfl⟩ | ⟨mid, rfl, rfl⟩
    · exact hlast (wasEnabled_append.mpr (.inr henabled))
    · rcases wasEnabled_append.mp henabled with henabled | ht
      · obtain ⟨earlier, lived, rest, c, hearlier, rfl, hpasses, hlive⟩ := ih rfl henabled
        exact ⟨earlier, lived, rest ++ t, c, by simp [hearlier], by simp, hpasses, hlive⟩
      · exact hlast ht

/-- A page was reported since the registers were mapped exactly if there was one since
then. -/
theorem Passes.wasEnabled_iff {past since : List Entry} {a : Attachment} {w : RegisterWindow}
    (hpasses : Passes past a) (hmapped : MappedSince past w since) :
    WasEnabled since ↔ HadPage past since := by
  constructor
  · intro henabled
    obtain ⟨before, x, hpast, -⟩ := hmapped.mapped
    have hpast : past = (before ++ [.exchange x]) ++ since := by simp [hpast]
    exact hpasses.hadPage hpast henabled
  · rintro ⟨earlier, lived, rest, b, rfl, rfl, hearlier, hlive⟩
    obtain ⟨h, hs⟩ := hearlier.settled
    obtain ⟨since, hsince, htracks⟩ := hearlier.pageKept.now _ (hs.registers_of_isLive hlive)
    obtain ⟨rfl, -⟩ := hmapped.of_append.unique hsince
    exact wasEnabled_append.mpr (.inl (htracks.enabled hlive))

/-- **The status page register tracks the page.**  Whenever the registers are mapped
between two actions, the register holds the address of the page that is held.  Without a
page it holds the value for no page if there was one since they were mapped, and is as it
was then otherwise.  And whenever the mapping of the registers ends, and a page was enabled
through it, the register holds the value for no page. -/
theorem Arises.page_register {past : List Entry} {a : Attachment} (harises : Arises past a) :
    (∀ w, a.registers = some w → ∃ since, MappedSince past w since ∧
      ∀ others m, Undisturbed w since others →
        Shown a.statusPage (HadPage past since) (w.value m RegisterWindow.statusPageAddress)
          (w.value (others.after [] m (requests since)) RegisterWindow.statusPageAddress)) ∧
    ∀ before w since answer rest,
      past = before ++ .exchange ⟨.unmap w.mapping, answer⟩ :: rest →
      MappedSince before w since → WasEnabled since → ∀ others m, Undisturbed w since others →
        w.value (others.after [] m (requests since)) RegisterWindow.statusPageAddress
          = RegisterWindow.noStatusPage := by
  have hkept := harises.passes.pageKept
  refine ⟨fun w hw => ?_, ?_⟩
  · obtain ⟨since, hmapped, htracks⟩ := hkept.now w hw
    refine ⟨since, hmapped, fun others m hundisturbed => ?_⟩
    rw [← propext (harises.passes.wasEnabled_iff hmapped)]
    exact htracks.value_shown hundisturbed m
  · intro before w since answer rest hpast hmapped henabled others m hundisturbed
    obtain ⟨page, hpage, htracks⟩ := hkept.ended w since ⟨before, answer, rest, hpast, hmapped⟩
      hundisturbed.reaches hundisturbed.apart
    exact (htracks.value_shown hundisturbed m).withdrawn (by simp [hpage]) henabled

theorem undisturbed_945G {since : List Entry}
    (hblocks : (exchanges since).filterMap Exchange.handedOut = [(⟨0x10000⟩, pageSize)]) :
    Undisturbed ⟨⟨⟨0xfeb00000⟩, ⟨0xfeb00000⟩, 0x80000⟩⟩ since fun _ m => m where
  reaches := by decide
  apart := by
    refine apart_of_below ?_ (by decide)
    rw [hblocks]
    decide
  spares := fun _ _ _ _ => rfl

/-- A 945G comes up with a page at bus address 0x10000, and stops.  The register holds that
address while it is up, and the value for no page when its mapping ends. -/
theorem page_register_up_and_down :
    ∃ w : RegisterWindow,
      (∃ past a since, Arises past a ∧ a.statusPage.isLive ∧ a.registers = some w ∧
        MappedSince past w since ∧ Undisturbed w since (fun _ m => m) ∧
        (w.value (World.after (fun _ m => m) [] .blank (requests since))
          RegisterWindow.statusPageAddress).toNat = 0x10000) ∧
      ∃ before answer rest a since,
        Arises (before ++ .exchange ⟨.unmap w.mapping, answer⟩ :: rest) a ∧ a.stage = .down ∧
        MappedSince before w since ∧ WasEnabled since ∧ Undisturbed w since (fun _ m => m) ∧
        w.value (World.after (fun _ m => m) [] .blank (requests since))
          RegisterWindow.statusPageAddress = RegisterWindow.noStatusPage := by
  have hfresh := Reaches.fresh (.entry 0x2772 "945G" .i9xx [.i9xx]) .standard
    ⟨0, ⟨0xfeb00000⟩, 0x80000, ⟨0xd0000000⟩, ⟨0xd0000000⟩⟩
  have hup := hfresh.play .bringUp (willing ⟨[.unassigned]⟩ 0x30 0x10000) () rfl
  have hdown := hup.play .stop (willing ⟨[.unassigned]⟩ 0x30 0x10000) () rfl
  refine ⟨⟨⟨⟨0xfeb00000⟩, ⟨0xfeb00000⟩, 0x80000⟩⟩, ?_, ?_⟩
  · obtain ⟨since, hmapped, hshown⟩ := hup.arises.page_register.1 _ rfl
    obtain ⟨hsince, -⟩ := hmapped.unique
      ⟨⟨[], _, rfl, rfl, rfl⟩, Option.isSome_iff_exists.mp (by decide +kernel)⟩
    have hblocks : (exchanges since).filterMap Exchange.handedOut = [(⟨0x10000⟩, pageSize)] := by
      rw [← hsince]
      rfl
    have hundisturbed := undisturbed_945G hblocks
    refine ⟨_, _, since, hup.arises, rfl, rfl, hmapped, hundisturbed, ?_⟩
    exact (hshown _ .blank hundisturbed).live rfl
  · have hends := fun since => hdown.arises.page_register.2 (List.take 23 _)
      ⟨⟨⟨0xfeb00000⟩, ⟨0xfeb00000⟩, 0x80000⟩⟩ since (.ok ()) [_]
      (List.take_append_drop 23 _).symm
    obtain ⟨since, hmapped, hshown⟩ := (MappedSince.of_balance (by decide +kernel)).imp
      fun since hmapped => And.intro hmapped (hends since hmapped)
    obtain ⟨hsince, -⟩ := hmapped.unique
      ⟨⟨[], _, rfl, rfl, rfl⟩, Option.isSome_iff_exists.mp (by decide +kernel)⟩
    have hblocks : (exchanges since).filterMap Exchange.handedOut = [(⟨0x10000⟩, pageSize)] := by
      rw [← hsince]
      rfl
    have henabled : WasEnabled since := by
      have hreported : since[8]? = some (.notice (.hostPageEnabled 0x10000)) := by
        rw [← hsince]
        rfl
      exact ⟨_, List.mem_of_getElem? hreported, rfl⟩
    have hundisturbed := undisturbed_945G hblocks
    exact ⟨_, _, _, _, since, hdown.arises, rfl, hmapped, henabled, hundisturbed,
      hshown henabled _ .blank hundisturbed⟩

end Attachment

end Igd
