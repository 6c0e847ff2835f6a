/-
A pool behind a platform.

A platform that has a pool need not pass all requests on to it.  It may say that there is no
DMA memory without asking the pool, ask it with a limit of its own, and refuse a buffer
without giving it to the pool.  `PassesOn xs ys` says that of the exchanges `xs` with the
driver these are the exchanges `ys` with the pool.

A buffer that is kept from the pool is lost to it.  If none is, then what the driver owes its
platform is what the platform owes the pool, and a pool that is owed nothing is what it was.
-/
import Igd.Proofs.Dma

namespace Igd

/-- What a platform passes on to its pool. -/
inductive PassesOn : List Exchange → List Exchange → Prop
  | nil : PassesOn [] []
  /-- The pool is not asked for memory. -/
  | withheld {size align limit : Nat} {xs ys : List Exchange} (h : PassesOn xs ys) :
      PassesOn (⟨.dmaAlloc size align limit, none⟩ :: xs) ys
  /-- The pool is asked with another limit. -/
  | relimited {size align limit limit' : Nat} {answer : Option DmaBuffer}
      {xs ys : List Exchange} (h : PassesOn xs ys) :
      PassesOn (⟨.dmaAlloc size align limit, answer⟩ :: xs)
        (⟨.dmaAlloc size align limit', answer⟩ :: ys)
  /-- The pool is not given the buffer. -/
  | keptBack {b : DmaBuffer} {e : ServiceError} {xs ys : List Exchange} (h : PassesOn xs ys) :
      PassesOn (⟨.dmaFree b, .error e⟩ :: xs) ys
  | same {x : Exchange} {xs ys : List Exchange} (h : PassesOn xs ys) : PassesOn (x :: xs) (x :: ys)

/-- Every buffer that was given back was taken. -/
def AllFreed (xs : List Exchange) : Prop :=
  ∀ (b : DmaBuffer) (answer : Except ServiceError Unit),
    (⟨.dmaFree b, answer⟩ : Exchange) ∈ xs → answer = .ok ()

theorem AllFreed.tail {x : Exchange} {xs : List Exchange} (h : AllFreed (x :: xs)) :
    AllFreed xs := fun b answer hmem => h b answer (List.mem_cons_of_mem _ hmem)

variable {xs ys : List Exchange}

/-- **What is owed to the platform is what is owed to the pool**, if no buffer is kept from
it. -/
theorem PassesOn.balance_eq (h : PassesOn xs ys) (hfreed : AllFreed xs) (owed : List Request) :
    balance owed ys = balance owed xs := by
  induction h generalizing owed with
  | nil => rfl
  | withheld _ ih => exact ih hfreed.tail owed
  | @relimited size align limit limit' answer xs ys _ ih =>
    have howes : (⟨.dmaAlloc size align limit', answer⟩ : Exchange).owes
        = (⟨.dmaAlloc size align limit, answer⟩ : Exchange).owes := by
      cases answer <;> rfl
    rw [balance_cons, balance_cons, settle_obtain (by simp [Request.isRelease]),
      settle_obtain (by simp [Request.isRelease]), howes]
    exact ih hfreed.tail _
  | keptBack _ _ => exact absurd (hfreed _ _ List.mem_cons_self) (by simp)
  | same _ ih => simp only [balance_cons, ih hfreed.tail]

/-- **A pool behind a platform that is owed nothing is what it was.** -/
theorem PassesOn.pool_eq {p q : Dma.Pool} (h : PassesOn xs ys) (hfreed : AllFreed xs)
    (hp : p.Sound) (hbalance : balance [] xs = some []) (hserves : p.Serves ys q) : q = p :=
  Dma.Pool.eq_of_balance hp ((h.balance_eq hfreed []).trans hbalance) hserves

end Igd
