import Mathlib.Data.List.Forall2

/-!
# Computations that can fail

How a chain in `Except` goes on, how one that returned is taken apart, and that reading a list is
reading each of its elements.
-/

set_option autoImplicit false

namespace Fallible

variable {ε α β : Type}

/-- A chain goes on from a result. -/
theorem ok_bind (a : α) (f : α → Except ε β) : (Except.ok a >>= f) = f a := rfl

/-- A chain of calls that returns, taken apart at its first call. -/
theorem bind_eq_ok {x : Except ε α} {f : α → Except ε β} {b : β} :
    (x >>= f) = .ok b ↔ ∃ a, x = .ok a ∧ f a = .ok b := by
  cases x with
  | error e => exact ⟨nofun, fun ⟨_, h, _⟩ => by cases h⟩
  | ok a => exact ⟨fun h => ⟨a, rfl, h⟩, fun ⟨_, h, hb⟩ => by cases h; exact hb⟩

/-- A chain that returns still does when its rest returns the same. -/
theorem bind_ok_imp {x : Except ε α} {f g : α → Except ε β} {b : β}
    (h : (x >>= f) = .ok b) (hfg : ∀ a, f a = .ok b → g a = .ok b) : (x >>= g) = .ok b := by
  obtain ⟨a, hx, hf⟩ := bind_eq_ok.mp h
  exact bind_eq_ok.mpr ⟨a, hx, hfg a hf⟩

/-- A list has a related one when each of its elements has a related element. -/
theorem exists_forall₂_iff {related : α → β → Prop} {items : List α} :
    (∃ values, List.Forall₂ related items values) ↔
      ∀ item ∈ items, ∃ value, related item value := by
  induction items with
  | nil => exact ⟨fun _ => nofun, fun _ => ⟨[], .nil⟩⟩
  | cons item items ih =>
    rw [List.forall_mem_cons, ← ih]
    simp only [List.forall₂_cons_left_iff]
    constructor
    · rintro ⟨-, value, values, first, rest, -⟩
      exact ⟨⟨value, first⟩, values, rest⟩
    · rintro ⟨⟨value, first⟩, values, rest⟩
      exact ⟨value :: values, value, values, first, rest, rfl⟩

/-- Reading a list is reading its elements, in order. -/
theorem mapM_eq_ok {read : α → Except ε β} {items : List α} {values : List β} :
    items.mapM read = .ok values ↔ List.Forall₂ (fun a b => read a = .ok b) items values := by
  induction items generalizing values with
  | nil =>
    rw [List.mapM_nil, List.forall₂_nil_left_iff]
    exact ⟨fun h => (Except.ok.inj h).symm, fun h => congrArg Except.ok h.symm⟩
  | cons item items ih =>
    rw [List.mapM_cons, bind_eq_ok, List.forall₂_cons_left_iff]
    simp only [bind_eq_ok, ih]
    constructor
    · rintro ⟨value, first, values, rest, h⟩
      exact ⟨value, values, first, rest, (Except.ok.inj h).symm⟩
    · rintro ⟨value, values, first, rest, h⟩
      exact ⟨value, first, values, rest, congrArg Except.ok h.symm⟩

end Fallible
