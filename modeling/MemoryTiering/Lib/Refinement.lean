import Mathlib.Init

/-!
# Refinement between machines that can fail

An abstraction takes the states of one machine to those of another, and a cause the errors of the
one to those of the other. Two outcomes agree when they are both results or both errors, and these
correspond. Chains of agreeing computations agree (`Agrees.bind`), and so do the runs of machines
whose steps agree (`Agrees.run`): each run of the one is a run of the other, to the step at which it
fails, and why.
-/

set_option autoImplicit false

namespace Refinement

variable {σ τ σ' τ' ε δ ι κ : Type} {cause : ε → Option δ}

/-- Outcomes that agree. -/
inductive Agrees (abs : σ → τ) (cause : ε → Option δ) : Except ε σ → Except δ τ → Prop where
  | ok (s : σ) : Agrees abs cause (.ok s) (.ok (abs s))
  | error {e : ε} {d : δ} (h : cause e = some d) : Agrees abs cause (.error e) (.error d)

variable {abs : σ → τ} {abs' : σ' → τ'}

/-- A result agrees with its abstraction. -/
theorem Agrees.of_eq {s : σ} {u : τ} (h : abs s = u) : Agrees abs cause (.ok s) (.ok u) :=
  h ▸ .ok s

/-- Chains agree link by link. -/
theorem Agrees.bind {x : Except ε σ} {y : Except δ τ} {f : σ → Except ε σ'} {g : τ → Except δ τ'}
    (h : Agrees abs cause x y)
    (next : ∀ s, x = .ok s → Agrees abs' cause (f s) (g (abs s))) :
    Agrees abs' cause (x >>= f) (y >>= g) := by
  cases h with
  | ok s => exact next s rfl
  | error h => exact .error h

/-- What a chain makes of its result may be nothing to the abstraction. -/
theorem Agrees.returns {x : Except ε σ} {y : Except δ τ} {abs' : σ' → τ} {f : σ → σ'}
    (h : Agrees abs cause x y) (same : ∀ s, abs' (f s) = abs s) :
    Agrees abs' cause (x >>= fun s => .ok (f s)) y := by
  cases h with
  | ok s =>
    rw [← same s]
    exact .ok (f s)
  | error h => exact .error h

/-- **Runs agree when steps do.** The steps may count on an invariant of the first machine. -/
theorem Agrees.run {Inv : σ → Prop} {f : σ → ι → Except ε σ} {g : τ → κ → Except δ τ}
    {label : ι → κ} (step : ∀ s i, Inv s → Agrees abs cause (f s i) (g (abs s) (label i)))
    (keeps : ∀ s i s', Inv s → f s i = .ok s' → Inv s') (inputs : List ι) {s : σ} (start : Inv s) :
    Agrees abs cause (inputs.foldlM f s) ((inputs.map label).foldlM g (abs s)) := by
  induction inputs generalizing s with
  | nil => exact .ok s
  | cons i inputs ih =>
    rw [List.foldlM_cons, List.map_cons, List.foldlM_cons]
    exact (step s i start).bind fun s' call => ih (keeps s i s' start call)

/-- **A run is followed when its steps are**: what the first machine survives, the second one does,
and they stay related. -/
theorem follows {R : σ → τ → Prop} {f : σ → ι → Except ε σ} {g : τ → ι → Except δ τ}
    (step : ∀ s u i s', R s u → f s i = .ok s' → ∃ u', g u i = .ok u' ∧ R s' u')
    {inputs : List ι} {s s' : σ} {u : τ} (start : R s u) (run : inputs.foldlM f s = .ok s') :
    ∃ u', inputs.foldlM g u = .ok u' ∧ R s' u' := by
  induction inputs generalizing s u with
  | nil =>
    cases run
    exact ⟨u, rfl, start⟩
  | cons i inputs ih =>
    rw [List.foldlM_cons] at run
    cases hi : f s i with
    | error e =>
      rw [hi] at run
      cases run
    | ok s₁ =>
      rw [hi] at run
      obtain ⟨u₁, hu₁, related⟩ := step s u i s₁ start hi
      obtain ⟨u', hu', related'⟩ := ih related run
      exact ⟨u', by rw [List.foldlM_cons, hu₁]; exact hu', related'⟩

end Refinement
