import EphemeralValidator.Lib.Except

/-! # Loops that read events and send what they produce

A loop that waits for its next event, updates its state and sends messages is a step
`step s e = .ok (s', sent)`, or `.error` when it stops (a panic).  `run` feeds it a list of
events in order and collects everything it sent; every order in which the events can arrive
is some list.

Over whole runs: an invariant that every step keeps holds after every run (`run_inv`), and
so does a property of everything sent (`run_sent`); steps that never stop from an invariant
state make runs that never stop (`run_isOk`); and a quantity that each step moves from its
state to what it sends, adding what the event brings and losing nothing, is conserved by a
whole run (`run_conserves`): what the run sent, then what the last state still holds, is what
the first state held, then what the events brought.
-/

namespace EphemeralValidator.Lib.Transducer

variable {σ ε ω E : Type} (step : σ → ε → Except E (σ × List ω))

/-- Feed the events in order; stop at the first step that stops. -/
def run : σ → List ε → Except E (σ × List ω)
  | s, [] => pure (s, [])
  | s, e :: es => do
    let first ← step s e
    let rest ← run first.1 es
    pure (rest.1, first.2 ++ rest.2)

variable {step}

@[simp] theorem run_nil (s : σ) : run step s [] = pure (s, []) := rfl

theorem run_cons_eq_ok {s s'' : σ} {e : ε} {es : List ε} {out : List ω} :
    run step s (e :: es) = .ok (s'', out) ↔
      ∃ s' sent rest, step s e = .ok (s', sent) ∧ run step s' es = .ok (s'', rest) ∧ out = sent ++ rest := by
  simp only [run, bind_eq_ok, pure_eq_ok, Prod.ext_iff]
  constructor
  · rintro ⟨⟨s', sent⟩, stepped, ⟨last, rest⟩, ran, same, outEq⟩
    exact ⟨s', sent, rest, stepped, same ▸ ran, outEq.symm⟩
  · rintro ⟨s', sent, rest, stepped, ran, rfl⟩
    exact ⟨(s', sent), stepped, (s'', rest), ran, rfl, rfl⟩

section Invariant

/-! Each rule takes what a step does for the events of the run only (`e ∈ es`), so that a
run restricted to some events (those one sender can send, say) needs its steps on those. -/

variable (Inv : σ → Prop)

/-- An invariant every step keeps holds after every run. -/
theorem run_inv {es : List ε} (keeps : ∀ s e s' sent, e ∈ es → Inv s → step s e = .ok (s', sent) → Inv s') :
    ∀ {s s' : σ} {out : List ω}, Inv s → run step s es = .ok (s', out) → Inv s' := by
  induction es with
  | nil =>
    intro s s' out holds ran
    cases ran
    exact holds
  | cons e es ih =>
    intro s s' out holds ran
    obtain ⟨middle, sent, rest, stepped, ranRest, -⟩ := run_cons_eq_ok.mp ran
    have later := fun s e s' sent member => keeps s e s' sent (List.mem_cons_of_mem _ member)
    exact ih later (keeps s e middle sent List.mem_cons_self holds stepped) ranRest

/-- What every step sends from an invariant state, every run sends. -/
theorem run_sent (Good : ω → Prop) {es : List ε}
    (keeps : ∀ s e s' sent, e ∈ es → Inv s → step s e = .ok (s', sent) → Inv s')
    (sends : ∀ s e s' sent, e ∈ es → Inv s → step s e = .ok (s', sent) → ∀ o ∈ sent, Good o) :
    ∀ {s s' : σ} {out : List ω}, Inv s → run step s es = .ok (s', out) → ∀ o ∈ out, Good o := by
  induction es with
  | nil =>
    intro s s' out holds ran
    cases ran
    nofun
  | cons e es ih =>
    intro s s' out holds ran
    obtain ⟨middle, sent, rest, stepped, ranRest, rfl⟩ := run_cons_eq_ok.mp ran
    have laterKeeps := fun s e s' sent member => keeps s e s' sent (List.mem_cons_of_mem _ member)
    have laterSends := fun s e s' sent member => sends s e s' sent (List.mem_cons_of_mem _ member)
    intro o member
    rcases List.mem_append.mp member with first | later
    · exact sends s e middle sent List.mem_cons_self holds stepped o first
    · exact ih laterKeeps laterSends (keeps s e middle sent List.mem_cons_self holds stepped) ranRest o later

/-- Steps that never stop from an invariant state make runs that never stop. -/
theorem run_isOk {es : List ε} (keeps : ∀ s e s' sent, e ∈ es → Inv s → step s e = .ok (s', sent) → Inv s')
    (total : ∀ s e, e ∈ es → Inv s → ∃ next, step s e = .ok next) :
    ∀ {s : σ}, Inv s → ∃ result, run step s es = .ok result := by
  induction es with
  | nil => exact fun {s} _ => ⟨(s, []), rfl⟩
  | cons e es ih =>
    intro s holds
    obtain ⟨⟨middle, sent⟩, stepped⟩ := total s e List.mem_cons_self holds
    have laterKeeps := fun s e s' sent member => keeps s e s' sent (List.mem_cons_of_mem _ member)
    have laterTotal := fun s e member => total s e (List.mem_cons_of_mem _ member)
    obtain ⟨⟨last, rest⟩, ran⟩ := ih laterKeeps laterTotal (keeps s e middle sent List.mem_cons_self holds stepped)
    exact ⟨(last, sent ++ rest), run_cons_eq_ok.mpr ⟨middle, sent, rest, stepped, ran, rfl⟩⟩

/-- Nothing lost, nothing made up: a quantity each step moves from its state to what it
sends, with what the event brings, is conserved by a whole run. -/
theorem run_conserves {α : Type} (held : σ → List α) (brought : ε → List α) (shown : ω → List α) {es : List ε}
    (keeps : ∀ s e s' sent, e ∈ es → Inv s → step s e = .ok (s', sent) → Inv s')
    (conserves : ∀ s e s' sent, e ∈ es → Inv s → step s e = .ok (s', sent) →
      held s ++ brought e = sent.flatMap shown ++ held s') :
    ∀ {s s' : σ} {out : List ω}, Inv s → run step s es = .ok (s', out) →
      held s ++ es.flatMap brought = out.flatMap shown ++ held s' := by
  induction es with
  | nil =>
    intro s s' out holds ran
    cases ran
    simp
  | cons e es ih =>
    intro s s' out holds ran
    obtain ⟨middle, sent, rest, stepped, ranRest, rfl⟩ := run_cons_eq_ok.mp ran
    have laterKeeps := fun s e s' sent member => keeps s e s' sent (List.mem_cons_of_mem _ member)
    have laterConserves := fun s e s' sent member => conserves s e s' sent (List.mem_cons_of_mem _ member)
    calc held s ++ (e :: es).flatMap brought
        = (held s ++ brought e) ++ es.flatMap brought := by simp
      _ = sent.flatMap shown ++ (held middle ++ es.flatMap brought) := by
        rw [conserves s e middle sent List.mem_cons_self holds stepped, List.append_assoc]
      _ = (sent ++ rest).flatMap shown ++ held s' := by
        rw [ih laterKeeps laterConserves (keeps s e middle sent List.mem_cons_self holds stepped) ranRest,
          List.flatMap_append, List.append_assoc]

end Invariant

end EphemeralValidator.Lib.Transducer
