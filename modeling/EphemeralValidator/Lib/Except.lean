import Mathlib.Logic.Basic

/-! # Inverting `Except` computations

The modelled instructions are `Except` programs written with `do` and `?`.  A
successful run is taken apart one bind at a time with `bind_eq_ok`, and the guards
of the form `if bad then throw e` with `ite_throw_eq_ok`, instead of unfolding a
whole program and splitting every branch; a failed run is taken apart the same way with
`bind_eq_error`.  All of them are simp lemmas, so `simp only`
with the program's own equations turns `prog = .ok r` into the conjunction of what
each step returned.
-/

namespace EphemeralValidator.Lib

variable {ε α β : Type}

@[simp] theorem bind_eq_ok {x : Except ε α} {f : α → Except ε β} {b : β} :
    x >>= f = .ok b ↔ ∃ a, x = .ok a ∧ f a = .ok b := by
  cases x with
  | error e => simp [bind, Except.bind]
  | ok a => simp [bind, Except.bind]

@[simp] theorem throw_ne_ok {e : ε} {a : α} : (throw e : Except ε α) ≠ .ok a := nofun

/-- `do throw e; rest`: what `if bad then throw e` becomes with the rest of a `do` block
pushed into its branch. -/
@[simp] theorem throw_bind {e : ε} {f : α → Except ε β} : (throw e >>= f : Except ε β) = throw e := rfl

@[simp] theorem ok_bind {a : α} {f : α → Except ε β} : (Except.ok a >>= f : Except ε β) = f a := rfl

@[simp] theorem pure_eq_ok {a a' : α} : (pure a : Except ε α) = .ok a' ↔ a = a' := by
  simp [pure, Except.pure]

@[simp] theorem throw_eq_error {e e' : ε} : (throw e : Except ε α) = .error e' ↔ e = e' :=
  ⟨fun same => by cases same; rfl, fun same => same ▸ rfl⟩

@[simp] theorem pure_ne_error {a : α} {e : ε} : (pure a : Except ε α) ≠ .error e := nofun

/-- A failed run failed at some bind: in the first step, or in the rest after it succeeded. -/
@[simp] theorem bind_eq_error {x : Except ε α} {f : α → Except ε β} {e : ε} :
    x >>= f = .error e ↔ x = .error e ∨ ∃ a, x = .ok a ∧ f a = .error e := by
  cases x with
  | error e' => simp [bind, Except.bind]
  | ok a => simp [bind, Except.bind]

/-- A loop fails when one element of its list makes every pass fail: the passes before it
fail, or reach it. -/
theorem foldlM_eq_error_of_mem {γ : Type} {f : β → γ → Except ε β} {l : List γ} {x : γ} (member : x ∈ l)
    (fails : ∀ acc, ∃ e, f acc x = .error e) (init : β) : ∃ e, l.foldlM f init = .error e := by
  induction l generalizing init with
  | nil => cases member
  | cons y ys ih =>
    rw [List.foldlM_cons]
    cases pass : f init y with
    | error e => exact ⟨e, rfl⟩
    | ok acc =>
      rcases List.mem_cons.mp member with rfl | later
      · obtain ⟨e, failed⟩ := fails init
        rw [pass] at failed
        cases failed
      · exact ih later acc

/-- A loop that succeeds made a successful pass over each element of its list. -/
theorem foldlM_eq_ok_pass {γ : Type} {f : β → γ → Except ε β} {l : List γ} {init result : β}
    (run : l.foldlM f init = .ok result) : ∀ x ∈ l, ∃ acc acc', f acc x = .ok acc' := by
  induction l generalizing init with
  | nil => exact fun _ member => absurd member List.not_mem_nil
  | cons y ys ih =>
    rw [List.foldlM_cons, bind_eq_ok] at run
    obtain ⟨next, pass, rest⟩ := run
    intro x member
    rcases List.mem_cons.mp member with rfl | later
    · exact ⟨init, next, pass⟩
    · exact ih rest x later

/-- A `mapM` that succeeds mapped each element of its list to an element of the result. -/
theorem exists_mem_of_mapM_eq_ok {f : α → Except ε β} {l : List α} {ys : List β} (mapped : l.mapM f = .ok ys)
    {x : α} (member : x ∈ l) : ∃ y ∈ ys, f x = .ok y := by
  induction l generalizing ys with
  | nil => exact absurd member List.not_mem_nil
  | cons z zs ih =>
    rw [List.mapM_cons, bind_eq_ok] at mapped
    obtain ⟨y, first, mapped⟩ := mapped
    rw [bind_eq_ok] at mapped
    obtain ⟨ys', rest, same⟩ := mapped
    rw [pure_eq_ok] at same
    subst same
    rcases List.mem_cons.mp member with rfl | later
    · exact ⟨y, List.mem_cons_self, first⟩
    · obtain ⟨y', member', mapped'⟩ := ih rest later
      exact ⟨y', List.mem_cons_of_mem y member', mapped'⟩

/-- A loop of checks passes exactly when each check passes. -/
theorem forM_eq_ok {f : α → Except ε PUnit} {l : List α} : l.forM f = .ok () ↔ ∀ x ∈ l, f x = .ok () := by
  induction l with
  | nil => exact ⟨fun _ _ member => absurd member List.not_mem_nil, fun _ => rfl⟩
  | cons x xs ih =>
    change (f x >>= fun _ => xs.forM f) = .ok () ↔ _
    rw [bind_eq_ok, List.forall_mem_cons, ← ih]
    constructor
    · rintro ⟨⟨⟩, first, rest⟩
      exact ⟨first, rest⟩
    · rintro ⟨first, rest⟩
      exact ⟨(), first, rest⟩

/-- An error mapped over a run changes nothing of a success. -/
@[simp] theorem mapError_eq_ok {ε' : Type} {x : Except ε α} {f : ε → ε'} {a : α} :
    x.mapError f = .ok a ↔ x = .ok a := by
  -- by the definition of `mapError`, without its equation lemmas
  cases x with
  | error e => exact ⟨nofun, nofun⟩
  | ok b => exact ⟨fun same => congrArg Except.ok (Except.ok.inj same), fun same => congrArg Except.ok (Except.ok.inj same)⟩

@[simp] theorem map_eq_ok {f : α → β} {x : Except ε α} {b : β} : f <$> x = .ok b ↔ ∃ a, x = .ok a ∧ f a = b := by
  cases x with
  | error e => exact ⟨nofun, fun ⟨_, failed, _⟩ => nomatch failed⟩
  | ok a => exact ⟨fun same => ⟨a, rfl, Except.ok.inj same⟩, fun ⟨_, same, mapped⟩ => by cases same; rw [← mapped]; rfl⟩

@[simp] theorem map_throw {f : α → β} {e : ε} : (f <$> (throw e : Except ε α)) = throw e := rfl

@[simp] theorem mapError_throw {ε' : Type} {f : ε → ε'} {e : ε} : (throw e : Except ε α).mapError f = throw (f e) :=
  rfl

@[simp] theorem ite_throw_eq_ok {p : Prop} [Decidable p] {x : Except ε α} {e : ε} {a : α} :
    (if p then throw e else x) = .ok a ↔ ¬ p ∧ x = .ok a := by
  by_cases hp : p <;> simp [hp]

end EphemeralValidator.Lib
