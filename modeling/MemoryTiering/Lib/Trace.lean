import Mathlib.Algebra.Ring.Nat
import Mathlib.Data.List.Basic

/-!
# Traces of a labelled transition relation

A trace lists the labels of the steps between two states. The rules here are the ones every
run-level law uses: a trace splits and joins where its labels do, and what each step keeps the
whole trace keeps.
-/

set_option autoImplicit false

namespace Transition

variable {σ ε : Type*} {step : σ → ε → σ → Prop}

/-- The steps labelled `es`, taken in order, lead from the first state to the second. -/
inductive Trace (step : σ → ε → σ → Prop) : σ → List ε → σ → Prop where
  | nil (s : σ) : Trace step s [] s
  | cons {s t u : σ} {e : ε} {es : List ε} :
      step s e t → Trace step t es u → Trace step s (e :: es) u

namespace Trace

theorem append {s t u : σ} {es fs : List ε} (h : Trace step s es t) (k : Trace step t fs u) :
    Trace step s (es ++ fs) u := by
  induction h with
  | nil _ => exact k
  | cons hs _ ih => exact .cons hs (ih k)

theorem snoc {s t u : σ} {es : List ε} {e : ε} (h : Trace step s es t) (hs : step t e u) :
    Trace step s (es ++ [e]) u :=
  h.append (.cons hs (.nil u))

/-- A trace stops at every prefix of its labels. -/
theorem split (es : List ε) {s u : σ} {fs : List ε} (h : Trace step s (es ++ fs) u) :
    ∃ t, Trace step s es t ∧ Trace step t fs u := by
  induction es generalizing s with
  | nil => exact ⟨s, .nil s, h⟩
  | cons e es ih =>
    cases h with
    | cons hs hrest =>
      obtain ⟨t, ht, hu⟩ := ih hrest
      exact ⟨t, .cons hs ht, hu⟩

/-- A trace of one label is a step. -/
theorem single {s t : σ} {e : ε} : Trace step s [e] t ↔ step s e t := by
  constructor
  · intro h
    cases h with
    | cons hs hnil => cases hnil; exact hs
  · intro hs
    exact .cons hs (.nil t)

/-- **Invariants**: what each step keeps, a trace keeps. -/
theorem invariant {P : σ → Prop} (keeps : ∀ s e t, P s → step s e t → P t) {s t : σ}
    {es : List ε} (h : Trace step s es t) (hs : P s) : P t := by
  induction h with
  | nil _ => exact hs
  | cons hstep _ ih => exact ih (keeps _ _ _ hs hstep)

/-- Invariants about a state and the labels that led to it: each step extends the labels. -/
theorem invariant_with {P : List ε → σ → Prop}
    (keeps : ∀ es s e t, P es s → step s e t → P (es ++ [e]) t) {s t : σ} {es fs : List ε}
    (h : Trace step s fs t) (hs : P es s) : P (es ++ fs) t := by
  induction h generalizing es with
  | nil _ => simpa only [List.append_nil] using hs
  | cons hstep _ ih =>
    have := ih (keeps _ _ _ _ hs hstep)
    simpa only [List.append_assoc, List.singleton_append] using this

/-- **Potentials**: if each step is paid for by what the potential loses, so is a trace. The steps
may count on an invariant, and on their labels. -/
theorem potential {P : σ → Prop} {cost : ε → Nat} {f : σ → Nat} {s t : σ} {es : List ε}
    (pays : ∀ s, ∀ e ∈ es, ∀ t, P s → step s e t → P t ∧ cost e + f t ≤ f s)
    (h : Trace step s es t) (hs : P s) : (es.map cost).sum + f t ≤ f s := by
  induction h with
  | nil s => exact Nat.le_of_eq (Nat.zero_add _)
  | cons hstep _ ih =>
    obtain ⟨ht, hpaid⟩ := pays _ _ List.mem_cons_self _ hs hstep
    have hrest := ih (fun s e he => pays s e (List.mem_cons_of_mem _ he)) ht
    rw [List.map_cons, List.sum_cons]
    omega

/-- **Potentials with an income**: what the steps of a trace cost is paid for by what the potential
loses and what the steps bring in. -/
theorem financed {P : σ → Prop} {cost income : ε → Nat} {f : σ → Nat} {s t : σ} {es : List ε}
    (pays : ∀ s e t, P s → step s e t → P t ∧ cost e + f t ≤ f s + income e)
    (h : Trace step s es t) (hs : P s) :
    (es.map cost).sum + f t ≤ f s + (es.map income).sum := by
  induction h with
  | nil s => exact Nat.le_of_eq (Nat.zero_add _)
  | cons hstep _ ih =>
    obtain ⟨ht, hpaid⟩ := pays _ _ _ hs hstep
    have hrest := ih ht
    rw [List.map_cons, List.sum_cons, List.map_cons, List.sum_cons]
    omega

/-- **Settling**: where a block of `n` steps finds the system settled or lowers a potential, and
without potential the system is settled, so many blocks settle it as it had potential. -/
theorem settles {P Q : σ → Prop} {R : ε → Prop} {f : σ → Nat} {n : Nat}
    (block : ∀ s es t, P s → Trace step s es t → (∀ e ∈ es, R e) → es.length = n →
      P t ∧ (Q s ∨ f t < f s))
    (spent : ∀ s, P s → f s = 0 → Q s)
    (stays : ∀ s es t, P s → Q s → Trace step s es t → (∀ e ∈ es, R e) → Q t)
    {k : Nat} {s t : σ} {es : List ε} (h : Trace step s es t) (good : ∀ e ∈ es, R e) (hs : P s)
    (bound : f s ≤ k) (long : k * n ≤ es.length) : Q t := by
  induction k generalizing s es with
  | zero => exact stays s es t hs (spent s hs (Nat.le_zero.mp bound)) h good
  | succ k ih =>
    have hlong : k * n + n ≤ es.length := by rwa [Nat.succ_mul] at long
    obtain ⟨t₁, hblock, hrest⟩ := split (es.take n) (by rwa [List.take_append_drop])
    obtain ⟨ht₁, hsettled | hless⟩ := block s (es.take n) t₁ hs hblock
      (fun e he => good e (List.mem_of_mem_take he)) (List.length_take_of_le (by omega))
    · exact stays s es t hs hsettled h good
    · refine ih hrest (fun e he => good e (List.mem_of_mem_drop he)) ht₁ (by omega) ?_
      rw [List.length_drop]
      omega

/-- **Simulation**: if each step of one system is matched by steps of another from related
states, a trace of the first is matched by a trace of the second. -/
theorem simulate {σ' ε' : Type*} {step' : σ' → ε' → σ' → Prop} {R : σ → σ' → Prop}
    (label : ε → List ε')
    (sim : ∀ s e t s', R s s' → step s e t → ∃ t', Trace step' s' (label e) t' ∧ R t t')
    {s t : σ} {es : List ε} (h : Trace step s es t) {s' : σ'} (hs : R s s') :
    ∃ t', Trace step' s' (es.flatMap label) t' ∧ R t t' := by
  induction h generalizing s' with
  | nil _ => exact ⟨s', .nil s', hs⟩
  | cons hstep _ ih =>
    obtain ⟨t', ht', hR⟩ := sim _ _ _ _ hs hstep
    obtain ⟨u', hu', hR'⟩ := ih hR
    exact ⟨u', by simpa only [List.flatMap_cons] using ht'.append hu', hR'⟩

/-- **Simulation up to what shows**: if each step of one system is matched by a trace of another
that shows as much, so is a trace. -/
theorem simulate_shown {σ' ε' ω : Type*} {step' : σ' → ε' → σ' → Prop} {R : σ → σ' → Prop}
    {shown : ε → Option ω} {shown' : ε' → Option ω}
    (sim : ∀ s e t s', R s s' → step s e t →
      ∃ es' t', Trace step' s' es' t' ∧ es'.filterMap shown' = (shown e).toList ∧ R t t')
    {s t : σ} {es : List ε} (h : Trace step s es t) {s' : σ'} (hs : R s s') :
    ∃ es' t', Trace step' s' es' t' ∧ es'.filterMap shown' = es.filterMap shown ∧ R t t' := by
  induction h generalizing s' with
  | nil _ => exact ⟨[], s', .nil s', rfl, hs⟩
  | @cons _ _ _ e es hstep _ ih =>
    obtain ⟨es', t', hes', hshown, hR⟩ := sim _ _ _ _ hs hstep
    obtain ⟨fs', u', hfs', hshown', hR'⟩ := ih hR
    refine ⟨es' ++ fs', u', hes'.append hfs', ?_, hR'⟩
    rw [List.filterMap_append, hshown, hshown']
    cases he : shown e with
    | none => rw [List.filterMap_cons_none he, Option.toList_none, List.nil_append]
    | some o => rw [List.filterMap_cons_some he, Option.toList_some, List.singleton_append]

end Trace

end Transition
