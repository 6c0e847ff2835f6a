/-
The time during which the registers are mapped.

A history tells by itself since when the registers are mapped.  They are mapped when
nothing is held, and everything that is obtained later is given back before they are
unmapped, so the ledger of what happened since then stands alone (`MappedSince`).  There is
at most one such time (`unique`), and there is one as soon as ending a mapping is all that
is owed (`of_balance`).

A move that stays above the bottom stage makes it longer.  It ends when the registers are
unmapped, and `UnmappedAfter` finds that moment in a history.
-/
import Igd.Proofs.Attachment.PageMoves

namespace Igd

open Program

/-- The registers are mapped as `w`, and `since` is all that happened since then.  They are
mapped before anything else is held, and ended after everything that was obtained since. -/
structure MappedSince (past : List Entry) (w : RegisterWindow) (since : List Entry) : Prop where
  mapped : ∃ before x, past = before ++ .exchange x :: since ∧ x.owes = [.unmap w.mapping] ∧
    balance [] (exchanges before) = some []
  held : ∃ owed, balance [] (exchanges since) = some owed

namespace MappedSince

variable {past since : List Entry} {w : RegisterWindow}

/-- The registers are what is given back last, since nothing was owed when they were mapped. -/
theorem balance_past (h : MappedSince past w since) {owed : List Request}
    (howed : balance [] (exchanges since) = some owed) :
    balance [] (exchanges past) = some (owed ++ [.unmap w.mapping]) := by
  obtain ⟨before, x, rfl, howes, hbefore⟩ := h.mapped
  have hobtain : ¬ x.request.isRelease := fun hr => by simp [owes_of_isRelease hr] at howes
  rw [exchanges_append]
  refine balance_trans hbefore ?_
  rw [exchanges_exchange, balance_cons, settle_obtain hobtain, howes]
  exact balance_frame howed [.unmap w.mapping]

/-- If ending a mapping is all that is owed, then it is that of the registers. -/
theorem of_balance (h : balance [] (exchanges past) = some [.unmap w.mapping]) :
    ∃ since, MappedSince past w since := by
  obtain ⟨xs, x, ys, hpast, howes, hbefore, hheld⟩ := @obtained_of_balance _ [] [] _ h
  obtain ⟨before, tail, rfl, rfl, htail⟩ := List.filterMap_eq_append_iff.mp hpast
  obtain ⟨quiet, e, since, rfl, hquiet, he, rfl⟩ := List.filterMap_eq_cons_iff.mp htail
  obtain rfl : e = .exchange x := by
    cases e with
    | notice n => cases he
    | exchange y => cases he; rfl
  refine ⟨since, ⟨before ++ quiet, x, by simp, howes, ?_⟩, [], hheld⟩
  have hnone : exchanges quiet = [] := List.filterMap_eq_nil_iff.mpr hquiet
  rw [exchanges_append, hnone, List.append_nil]
  exact hbefore

/-- As long as the registers are mapped, they are not mapped once more: they are mapped only
when nothing is owed, and from then on the end of that mapping is. -/
theorem between_eq_nil {before mid since' : List Entry} {x x' : Exchange}
    (howes : x.owes = [.unmap w.mapping]) (hbefore : balance [] (exchanges before) = some [])
    {owed : List Request} (hheld : balance [] (exchanges since) = some owed)
    (hlater : balance [] (exchanges (before ++ mid)) = some [])
    (htail : .exchange x :: since = mid ++ .exchange x' :: since') : mid = [] := by
  cases mid with
  | nil => rfl
  | cons e mid =>
    obtain ⟨rfl, rfl⟩ := List.cons.inj htail
    have hsplit := exchanges_append mid (.exchange x' :: since')
    obtain ⟨left, hleft⟩ := balance_of_append (hsplit ▸ hheld)
    have hmapped : MappedSince (before ++ .exchange x :: mid) w mid :=
      ⟨⟨before, x, rfl, howes, hbefore⟩, left, hleft⟩
    rw [hmapped.balance_past hleft] at hlater
    simp at hlater

/-- There is one time since which the registers are mapped. -/
theorem unique {w' : RegisterWindow} {since' : List Entry} (h : MappedSince past w since)
    (h' : MappedSince past w' since') : since' = since ∧ w' = w := by
  obtain ⟨⟨before, x, hpast, howes, hbefore⟩, owed, hheld⟩ := h
  obtain ⟨⟨before', x', hpast', howes', hbefore'⟩, owed', hheld'⟩ := h'
  have htail : Entry.exchange x :: since = .exchange x' :: since' := by
    rcases List.append_eq_append_iff.mp (hpast.symm.trans hpast') with
      ⟨mid, rfl, htail⟩ | ⟨mid, rfl, htail⟩
    · obtain rfl := between_eq_nil howes hbefore hheld hbefore' htail
      exact htail
    · obtain rfl := between_eq_nil howes' hbefore' hheld' hbefore htail
      exact htail.symm
  obtain ⟨hx, rfl⟩ := List.cons.inj htail
  cases hx
  obtain ⟨mapping⟩ := w
  obtain ⟨mapping'⟩ := w'
  rw [howes] at howes'
  cases howes'
  exact ⟨rfl, rfl⟩

theorem of_append {earlier lived rest : List Entry}
    (h : MappedSince (earlier ++ rest) w (lived ++ rest)) : MappedSince earlier w lived where
  mapped := by
    obtain ⟨before, x, hpast, howes, hbefore⟩ := h.mapped
    have hpast : earlier ++ rest = (before ++ .exchange x :: lived) ++ rest := by simp [hpast]
    exact ⟨before, x, List.append_cancel_right hpast, howes, hbefore⟩
  held := by
    obtain ⟨owed, howed⟩ := h.held
    rw [exchanges_append] at howed
    exact balance_of_append howed

variable {t : List Entry} {a b : Attachment} {h h' : Handles}

/-- What was obtained since the registers were mapped is due at the stages above. -/
theorem balance_since (hmapped : MappedSince past w since) (hs : Attachment.Settled past a h)
    (hstage : .registers ≤ a.stage) :
    balance [] (exchanges since) = some ((Stage.descent a.stage .registers).flatMap h.dues) := by
  obtain ⟨owed, howed⟩ := hmapped.held
  have hpast := hs.owed
  rw [hmapped.balance_past howed, Stage.descent_append hstage (by decide),
    List.flatMap_append, Option.some.injEq] at hpast
  rw [howed, (List.append_inj' hpast rfl).1]

/-- The registers stay mapped as long as their stage is not left. -/
theorem move (hmapped : MappedSince past w since) (hs : Attachment.Settled past a h)
    (hmoved : Attachment.Moved a h t b h') (hbefore : .registers ≤ a.stage)
    (hafter : .registers ≤ b.stage) : MappedSince (past ++ t) w (since ++ t) where
  mapped := by
    obtain ⟨before, x, rfl, howes, hclear⟩ := hmapped.mapped
    exact ⟨before, x, by simp, howes, hclear⟩
  held := by
    rw [exchanges_append]
    exact ⟨_, balance_trans (hmapped.balance_since hs hbefore)
      (hmoved.owed .registers hbefore hafter)⟩

end MappedSince

/-! ### Until the registers are unmapped -/

/-- The registers were mapped as `w` until they were unmapped at some moment of `past`, and
`since` is all that happened in between. -/
def UnmappedAfter (past : List Entry) (w : RegisterWindow) (since : List Entry) : Prop :=
  ∃ before answer rest, past = before ++ .exchange ⟨.unmap w.mapping, answer⟩ :: rest ∧
    MappedSince before w since

theorem UnmappedAfter.of_append {past t since : List Entry} {w : RegisterWindow}
    (h : UnmappedAfter (past ++ t) w since) : UnmappedAfter past w since ∨
      ∃ first answer rest, t = first ++ .exchange ⟨.unmap w.mapping, answer⟩ :: rest ∧
        MappedSince (past ++ first) w since := by
  obtain ⟨before, answer, rest, hpast, hmapped⟩ := h
  rcases List.append_eq_append_iff.mp hpast with ⟨first, rfl, ht⟩ | ⟨mid, rfl, htail⟩
  · exact .inr ⟨first, answer, rest, ht, hmapped⟩
  · cases mid with
    | nil =>
      exact .inr ⟨[], answer, rest, htail.symm, by simpa using hmapped⟩
    | cons e mid =>
      obtain ⟨rfl, -⟩ := List.cons.inj htail
      exact .inl ⟨before, answer, mid, rfl, hmapped⟩

/-- If only the first request of a run may end a mapping, nothing is asked before one
ends. -/
theorem first_unmap {first rest : List Entry} {due : Request} {others : List Request}
    {mapping : IoMapping} {answer : Except ServiceError Unit}
    (ht : requests (first ++ .exchange ⟨.unmap mapping, answer⟩ :: rest) = due :: others)
    (hothers : ∀ r ∈ others, ¬ r.isUnmap) : exchanges first = [] ∧ due = .unmap mapping := by
  rw [requests_append, requests_exchange] at ht
  cases hfirst : exchanges first with
  | nil =>
    rw [requests, hfirst] at ht
    exact ⟨rfl, (List.cons.inj ht).1.symm⟩
  | cons x xs =>
    rw [requests, hfirst] at ht
    have hmem : Request.unmap mapping ∈ others := by
      rw [← (List.cons.inj ht).2]
      simp
    exact absurd rfl (hothers _ hmem)

end Igd
