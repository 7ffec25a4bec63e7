import Mathlib.Algebra.BigOperators.Group.List.Basic
import Mathlib.Tactic.Abel

/-! # Threads interleaving over a shared state

A concurrent program is modelled by its atomic steps: what a thread does while it holds
a lock, or between two `await`s.  `step s t` is the next atomic step of thread `t` from
the shared state `s`, giving the new shared state and thread, or `none` when the step
panics.  A schedule lists the threads that step, in turn; every interleaving of the
threads is some schedule.

An invariant that every step keeps holds after every schedule (`Pool.run_inv`).  Counting
invariants sum a quantity over the threads, and one step changes the sum by what it changes
in its own thread (`sum_map_set`).
-/

namespace EphemeralValidator.Lib

/-- The shared state and the threads. -/
structure Pool (σ τ : Type) where
  shared : σ
  threads : List τ

variable {σ τ : Type} (step : σ → τ → Option (σ × τ))

/-- Thread `i` takes one step; a schedule that names no thread leaves the pool as it is. -/
def Pool.stepAt (p : Pool σ τ) (i : Nat) : Option (Pool σ τ) :=
  match p.threads[i]? with
  | none => some p
  | some t => (step p.shared t).map fun next => ⟨next.1, p.threads.set i next.2⟩

/-- Run a schedule; `none` as soon as a step panics. -/
def Pool.run : Pool σ τ → List Nat → Option (Pool σ τ)
  | p, [] => some p
  | p, i :: is => (p.stepAt step i).bind fun p => p.run is

variable {step}

@[simp] theorem Pool.run_nil (p : Pool σ τ) : p.run step [] = some p := rfl

theorem Pool.run_cons (p : Pool σ τ) (i : Nat) (is : List Nat) :
    p.run step (i :: is) = (p.stepAt step i).bind fun p => p.run step is := rfl

/-- A step of thread `i` that exists is `step` on that thread. -/
theorem Pool.stepAt_eq_some {p p' : Pool σ τ} {i : Nat} (h : p.stepAt step i = some p') :
    p' = p ∨ ∃ t s' t', p.threads[i]? = some t ∧ step p.shared t = some (s', t') ∧
      p' = ⟨s', p.threads.set i t'⟩ := by
  unfold Pool.stepAt at h
  split at h
  · exact .inl (Option.some.inj h).symm
  · next t found =>
    obtain ⟨⟨s', t'⟩, stepped, rfl⟩ := Option.map_eq_some_iff.mp h
    exact .inr ⟨t, s', t', found, stepped, rfl⟩

/-- A step of thread `i` panics only where that thread's step does. -/
theorem Pool.stepAt_eq_none {p : Pool σ τ} {i : Nat} (h : p.stepAt step i = none) :
    ∃ t, p.threads[i]? = some t ∧ step p.shared t = none := by
  unfold Pool.stepAt at h
  split at h
  · cases h
  · next t found => exact ⟨t, found, Option.map_eq_none_iff.mp h⟩

section Invariant

variable (I : Pool σ τ → Prop)

/-- An invariant that every step keeps holds after every schedule that does not panic. -/
theorem Pool.run_inv (preserve : ∀ p i p', I p → p.stepAt step i = some p' → I p')
    {p p' : Pool σ τ} {is : List Nat} (start : I p) (h : p.run step is = some p') : I p' := by
  induction is generalizing p with
  | nil =>
    cases h
    exact start
  | cons i is ih =>
    rw [Pool.run_cons] at h
    obtain ⟨p₁, stepped, rest⟩ := Option.bind_eq_some_iff.mp h
    exact ih (preserve p i p₁ start stepped) rest

end Invariant

/-- Replacing one element moves the sum of a quantity over a list by the difference. -/
theorem sum_map_set {M : Type} [AddCommMonoid M] (f : τ → M) {l : List τ} {i : Nat}
    (bound : i < l.length) (a : τ) :
    ((l.set i a).map f).sum + f l[i] = (l.map f).sum + f a := by
  induction l generalizing i with
  | nil => cases bound
  | cons x xs ih =>
    cases i with
    | zero =>
      simp only [List.set_cons_zero, List.map_cons, List.sum_cons, List.getElem_cons_zero]
      abel
    | succ j =>
      have rest := ih (Nat.lt_of_succ_lt_succ bound)
      simp only [List.set_cons_succ, List.map_cons, List.sum_cons, List.getElem_cons_succ]
      rw [add_assoc, rest, add_assoc]

end EphemeralValidator.Lib
