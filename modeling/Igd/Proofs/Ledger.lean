/-
What a run owes.

Some answers leave something to be given back: a mapping, a buffer, a workqueue,
or the state a hook set up.  `owes` says which request gives it back.  A ledger
is a pile of such requests.  An exchange that obtains something puts what it owes
on top, and an exchange that gives something back must be the one on top and takes
it away; `balance` follows a list of exchanges and comes to nothing if one of them
gives back anything else.

So `balance [] xs = some owed` says that in `xs` everything given back had been
obtained and not given back yet, in the reverse of the order it was obtained in,
and that `owed` is what is left.  `count_balance` draws from it that nothing is
given back more often than it was obtained.

A null mapping owes nothing: it is a failure, and nobody ends it.
-/
import Igd.Proofs.Run
import Mathlib.Data.List.Count
import Mathlib.Data.List.Induction

namespace Igd

/-- A request that gives something back. -/
def Request.isRelease : Request → Bool
  | .unmap _ | .dmaFree _ | .destroyWorkqueue _ => true
  | .hook .ringCleanup | .hook .lastClose | .hook .modesetCleanup | .hook .irqUninstall => true
  | _ => false

/-- What gives back the things that an exchange obtained. -/
def Exchange.owes : Exchange → List Request
  | ⟨.map _ _, some mapping⟩ => if mapping.virt.isNull then [] else [.unmap mapping]
  | ⟨.dmaAlloc _ _ _, some buffer⟩ => [.dmaFree buffer]
  | ⟨.createWorkqueue _, some queue⟩ => [.destroyWorkqueue queue]
  | ⟨.handOver _ _, _⟩ => [.hook .lastClose]
  | ⟨.hook .ringInit, .ok ()⟩ => [.hook .ringCleanup]
  | ⟨.hook .modesetInit, .ok ()⟩ => [.hook .modesetCleanup]
  | ⟨.hook .irqInstall, .ok ()⟩ => [.hook .irqUninstall]
  | _ => []

/-- What gives back everything that exchanges obtained, the latest first. -/
def undo : List Exchange → List Request
  | [] => []
  | x :: rest => undo rest ++ x.owes

@[simp] theorem undo_nil : undo [] = [] := rfl

@[simp] theorem undo_append (xs ys : List Exchange) : undo (xs ++ ys) = undo ys ++ undo xs := by
  induction xs with
  | nil => simp
  | cons x rest ih => simp [undo, ih]

/-- What is owed after one more exchange.  It must give back what is on top, or
nothing at all. -/
def settle (owed : List Request) (x : Exchange) : Option (List Request) :=
  if x.request.isRelease then
    if owed.head? = some x.request then some owed.tail else none
  else some (x.owes ++ owed)

/-- What is owed after exchanges, if each of them that gives something back gives
back what is on top. -/
def balance (owed : List Request) (xs : List Exchange) : Option (List Request) :=
  xs.foldlM settle owed

@[simp] theorem balance_nil (owed : List Request) : balance owed [] = some owed := rfl

theorem balance_cons (owed : List Request) (x : Exchange) (xs : List Exchange) :
    balance owed (x :: xs) = (settle owed x).bind fun left => balance left xs := rfl

theorem balance_append (owed : List Request) (xs ys : List Exchange) :
    balance owed (xs ++ ys) = (balance owed xs).bind fun left => balance left ys :=
  List.foldlM_append

theorem owes_of_isRelease {x : Exchange} (h : x.request.isRelease) : x.owes = [] := by
  obtain ⟨request, answer⟩ := x
  cases request with
  | hook which => cases which <;> simp_all [Request.isRelease, Exchange.owes]
  | unmap | dmaFree | destroyWorkqueue => rfl
  | _ => simp [Request.isRelease] at h

theorem owes_of_not_isCall {x : Exchange} (h : ¬ x.request.isCall) : x.owes = [] := by
  obtain ⟨request, answer⟩ := x
  cases request <;> first | rfl | exact absurd rfl h

theorem isCall_of_isRelease {r : Request} (h : r.isRelease) : r.isCall := by
  cases r with
  | hook which => rfl
  | unmap | dmaFree | destroyWorkqueue => rfl
  | _ => simp [Request.isRelease] at h

theorem isRelease_of_mem_owes {x : Exchange} {due : Request} (h : due ∈ x.owes) :
    due.isRelease := by
  unfold Exchange.owes at h
  split at h
  case h_1 =>
    split at h
    · simp at h
    · rw [List.mem_singleton.mp h]
      rfl
  case h_8 => simp at h
  all_goals
    rw [List.mem_singleton.mp h]
    rfl

theorem isRelease_of_mem_undo {xs : List Exchange} {due : Request} (h : due ∈ undo xs) :
    due.isRelease := by
  induction xs with
  | nil => simp at h
  | cons x rest ih =>
    rcases List.mem_append.mp h with h | h
    · exact ih h
    · exact isRelease_of_mem_owes h

theorem settle_obtain {x : Exchange} (h : ¬ x.request.isRelease) (owed : List Request) :
    settle owed x = some (x.owes ++ owed) := if_neg h

theorem settle_release {x : Exchange} (h : x.request.isRelease) (owed : List Request) :
    settle (x.request :: owed) x = some owed := by
  simp [settle, h]

theorem settle_eq_some_of_isRelease {x : Exchange} (h : x.request.isRelease)
    {owed left : List Request} (hleft : settle owed x = some left) :
    owed = x.request :: left := by
  rw [settle, if_pos h] at hleft
  cases owed with
  | nil => simp at hleft
  | cons due others =>
    simp only [List.head?_cons, Option.some.injEq, List.tail_cons] at hleft
    split at hleft
    · rename_i hdue
      rw [hdue, Option.some.inj hleft]
    · simp at hleft

theorem settle_of_not_isCall {x : Exchange} (h : ¬ x.request.isCall) (owed : List Request) :
    settle owed x = some owed := by
  rw [settle_obtain fun hr => h (isCall_of_isRelease hr), owes_of_not_isCall h, List.nil_append]

/-! ### Following exchanges -/

theorem balance_trans {owed left last : List Request} {xs ys : List Exchange}
    (hxs : balance owed xs = some left) (hys : balance left ys = some last) :
    balance owed (xs ++ ys) = some last := by
  rw [balance_append, hxs]
  exact hys

/-- What is balanced up to a point is balanced up to every point before it, so what is owed is
known in the middle of a run as well. -/
theorem balance_of_append {owed left : List Request} {xs ys : List Exchange}
    (h : balance owed (xs ++ ys) = some left) : ∃ mid, balance owed xs = some mid := by
  rw [balance_append] at h
  obtain ⟨mid, hmid, -⟩ := Option.bind_eq_some_iff.mp h
  exact ⟨mid, hmid⟩

/-- What lies under a pile stays there: a release settles what is on top, so a run that is
balanced by itself never gets to what was owed before. -/
theorem balance_frame {owed left : List Request} {xs : List Exchange}
    (h : balance owed xs = some left) (base : List Request) :
    balance (owed ++ base) xs = some (left ++ base) := by
  induction xs generalizing owed with
  | nil =>
    obtain rfl : owed = left := by simpa using h
    rfl
  | cons x rest ih =>
    obtain ⟨mid, hmid, hrest⟩ := Option.bind_eq_some_iff.mp h
    have hframed : settle (owed ++ base) x = some (mid ++ base) := by
      by_cases hx : x.request.isRelease
      · rw [settle_eq_some_of_isRelease hx hmid]
        exact settle_release hx (mid ++ base)
      · rw [settle_obtain hx, Option.some.injEq] at hmid
        rw [settle_obtain hx, ← hmid, List.append_assoc]
    rw [balance_cons, hframed]
    exact ih hrest

theorem mem_of_balance {owed left : List Request} {xs : List Exchange} {due : Request}
    (h : balance owed xs = some left) (hdue : due ∈ left) :
    due ∈ owed ∨ ∃ x ∈ xs, due ∈ x.owes := by
  induction xs generalizing owed with
  | nil =>
    obtain rfl : owed = left := by simpa using h
    exact .inl hdue
  | cons x rest ih =>
    obtain ⟨mid, hmid, hrest⟩ := Option.bind_eq_some_iff.mp h
    rcases ih hrest with hin | ⟨y, hy, howes⟩
    · by_cases hx : x.request.isRelease
      · rw [settle_eq_some_of_isRelease hx hmid]
        exact .inl (List.mem_cons_of_mem _ hin)
      · rw [settle_obtain hx, Option.some.injEq] at hmid
        rw [← hmid] at hin
        rcases List.mem_append.mp hin with hin | hin
        · exact .inr ⟨x, by simp, hin⟩
        · exact .inl hin
    · exact .inr ⟨y, by simp [hy], howes⟩

/-- Only calls of services count.  Loads, stores and looks at the BARs settle nothing. -/
theorem balance_calls (owed : List Request) (t : List Entry) :
    balance owed (calls t) = balance owed (exchanges t) := by
  unfold calls
  induction exchanges t generalizing owed with
  | nil => rfl
  | cons x rest ih =>
    rw [List.filter_cons, balance_cons]
    split
    · rw [balance_cons]
      exact congrArg _ (funext ih)
    · rename_i hcall
      rw [settle_of_not_isCall hcall]
      exact ih owed

/-- Exchanges that give nothing back leave on top what they obtained. -/
theorem balance_obtain {xs : List Exchange} (h : ∀ x ∈ xs, ¬ x.request.isRelease)
    (owed : List Request) : balance owed xs = some (undo xs ++ owed) := by
  induction xs generalizing owed with
  | nil => rfl
  | cons x rest ih =>
    rw [balance_cons, settle_obtain (h x (by simp))]
    simpa [undo] using ih (fun y hy => h y (by simp [hy])) (x.owes ++ owed)

/-- Giving back a pile from the top leaves what was under it. -/
theorem balance_release {xs : List Exchange} {dues : List Request}
    (hxs : xs.map (·.request) = dues) (h : ∀ due ∈ dues, due.isRelease)
    (owed : List Request) : balance (dues ++ owed) xs = some owed := by
  subst hxs
  induction xs with
  | nil => rfl
  | cons x rest ih =>
    rw [List.map_cons, List.cons_append, balance_cons, settle_release (h _ (by simp))]
    exact ih fun due hdue => h due (by simp [hdue])

theorem balance_of_calls_obtain {t : List Entry} (h : ∀ x ∈ calls t, ¬ x.request.isRelease)
    (owed : List Request) : balance owed (exchanges t) = some (undo (calls t) ++ owed) := by
  rw [← balance_calls]
  exact balance_obtain h owed

theorem balance_of_calls_release {t : List Entry} {dues : List Request}
    (hcalls : (calls t).map (·.request) = dues) (h : ∀ due ∈ dues, due.isRelease)
    (owed : List Request) : balance (dues ++ owed) (exchanges t) = some owed := by
  rw [← balance_calls]
  exact balance_release hcalls h owed

/-- A run whose calls obtain and then give all of that back leaves what was owed. -/
theorem balance_of_calls_undo {t : List Entry} {acquired released : List Exchange}
    (hcalls : calls t = acquired ++ released) (h : ∀ x ∈ acquired, ¬ x.request.isRelease)
    (hreleased : released.map (·.request) = undo acquired) (owed : List Request) :
    balance owed (exchanges t) = some owed := by
  rw [← balance_calls, hcalls]
  exact balance_trans (balance_obtain h owed)
    (balance_release hreleased (fun _ hdue => isRelease_of_mem_undo hdue) owed)

theorem owes_eq (x : Exchange) : x.owes = [] ∨ ∃ due, x.owes = [due] := by
  unfold Exchange.owes
  split
  · split
    · exact .inl rfl
    · exact .inr ⟨_, rfl⟩
  all_goals first | exact .inl rfl | exact .inr ⟨_, rfl⟩

/-- What is owed was obtained at some point; what is under it was owed before, and what is
on top of it was obtained since. -/
theorem obtained_of_balance {xs : List Exchange} {top base : List Request} {due : Request}
    (h : balance [] xs = some (top ++ due :: base)) : ∃ before x since,
      xs = before ++ x :: since ∧ x.owes = [due] ∧ balance [] before = some base ∧
        balance [] since = some top := by
  induction xs using List.reverseRecOn generalizing top with
  | nil => simp at h
  | append_singleton xs z ih =>
    rw [balance_append] at h
    obtain ⟨mid, hmid, hlast⟩ := Option.bind_eq_some_iff.mp h
    have hsettle : settle mid z = some (top ++ due :: base) := by
      rw [balance_cons] at hlast
      obtain ⟨left, hleft, hnil⟩ := Option.bind_eq_some_iff.mp hlast
      rw [hleft, ← hnil, balance_nil]
    -- If `z` is not what obtained `due`, it comes after it, and changes what is on top.
    have hlater (top' : List Request) (hmid' : mid = top' ++ due :: base)
        (hz : settle top' z = some top) : ∃ before x since,
          xs ++ [z] = before ++ x :: since ∧ x.owes = [due] ∧ balance [] before = some base ∧
            balance [] since = some top := by
      obtain ⟨before, x, since, rfl, howes, hbefore, hsince⟩ := ih (hmid' ▸ hmid)
      refine ⟨before, x, since ++ [z], by simp, howes, hbefore, ?_⟩
      rw [balance_append, hsince, Option.bind_some, balance_cons, hz]
      rfl
    by_cases hz : z.request.isRelease
    · have hpopped := settle_eq_some_of_isRelease hz hsettle
      exact hlater (z.request :: top) hpopped (settle_release hz top)
    · rw [settle_obtain hz, Option.some.injEq] at hsettle
      rcases owes_eq z with howes | ⟨o, howes⟩ <;> rw [howes] at hsettle
      · exact hlater top hsettle (by rw [settle_obtain hz, howes]; rfl)
      · cases top with
        | nil =>
          obtain ⟨rfl, rfl⟩ := List.cons.inj hsettle
          exact ⟨xs, z, [], rfl, howes, hmid, rfl⟩
        | cons t top =>
          obtain ⟨rfl, hrest⟩ := List.cons.inj hsettle
          exact hlater top hrest (by rw [settle_obtain hz, howes]; rfl)

/-! ### Counting -/

/-- How often something was obtained that a request gives back. -/
def obtained (due : Request) (xs : List Exchange) : Nat := (xs.flatMap Exchange.owes).count due

/-- How often a request was made. -/
def asked (r : Request) (xs : List Exchange) : Nat := (xs.map (·.request)).count r

/-- **In a balanced run nothing is lost and nothing is given back twice.**  What was
owed and what was obtained was given back or is still owed. -/
theorem count_balance {owed left : List Request} {xs : List Exchange}
    (h : balance owed xs = some left) {due : Request} (hdue : due.isRelease) :
    owed.count due + obtained due xs = asked due xs + left.count due := by
  induction xs generalizing owed with
  | nil =>
    obtain rfl : owed = left := by simpa using h
    simp [obtained, asked]
  | cons x rest ih =>
    obtain ⟨mid, hmid, hrest⟩ := Option.bind_eq_some_iff.mp h
    have hcount := ih hrest
    simp only [obtained, asked, List.flatMap_cons, List.map_cons, List.count_append] at hcount ⊢
    by_cases hx : x.request.isRelease
    · rw [settle_eq_some_of_isRelease hx hmid, owes_of_isRelease hx]
      simp only [List.count_cons, List.count_nil]
      omega
    · have hne : x.request ≠ due := by
        intro heq
        rw [heq] at hx
        exact hx hdue
      rw [settle_obtain hx, Option.some.injEq] at hmid
      rw [← hmid, List.count_append] at hcount
      rw [List.count_cons_of_ne hne]
      omega

end Igd
