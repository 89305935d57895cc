import Mathlib.Algebra.BigOperators.Group.List.Basic
import Mathlib.Algebra.Ring.Nat
import Mathlib.Data.List.DropRight

/-!
# Histories

A history lists events, the last one last, and some of them are marks. `afterLast` and `beforeLast`
cut it at its last mark, `since` adds up an amount over what came after that, and `total` adds up a
value of the past over all marks. The `snoc` lemmas say what one more event does to each, and every
law about them is an induction from the end.
-/

set_option autoImplicit false

namespace History

variable {α M : Type*}

/-! ## The last mark -/

section Cuts

variable (mark : α → Bool) (es : List α) (e : α)

/-- The events after the last mark, which is all of them if there is none. -/
def afterLast : List α := es.rtakeWhile fun e => !mark e

/-- The events before the last mark. -/
def beforeLast : List α := (es.rdropWhile fun e => !mark e).dropLast

theorem afterLast_snoc :
    afterLast mark (es ++ [e]) = if mark e then [] else afterLast mark es ++ [e] := by
  unfold afterLast
  rw [List.rtakeWhile_concat]
  cases mark e <;> rfl

theorem beforeLast_snoc :
    beforeLast mark (es ++ [e]) = if mark e then es else beforeLast mark es := by
  unfold beforeLast
  rw [List.rdropWhile_concat]
  cases mark e with
  | true => exact List.dropLast_concat
  | false => rfl

variable {mark es e} in
theorem mem_of_mem_afterLast (h : e ∈ afterLast mark es) : e ∈ es :=
  (List.rtakeWhile_suffix _ es).subset h

theorem beforeLast_isPrefix : beforeLast mark es <+: es := by
  have hdrop := List.dropLast_prefix (es.rdropWhile fun e => !mark e)
  exact hdrop.trans <| List.rdropWhile_prefix _ es

end Cuts

/-! ## Amounts -/

section Amounts

variable [AddMonoid M] (mark : α → Bool) (amount : α → M) (es : List α) (e : α)

/-- What has come together since the last mark. -/
def since : M := ((afterLast mark es).map amount).sum

theorem since_snoc :
    since mark amount (es ++ [e]) = if mark e then 0 else since mark amount es + amount e := by
  unfold since
  rw [afterLast_snoc]
  split
  · rfl
  · rw [List.map_append, List.sum_append, List.map_singleton, List.sum_singleton]

variable {mark amount es} {other : α → Bool}

/-- Where the marks add nothing, all there is came before the last mark or since. -/
theorem sum_eq_add (zero : ∀ e, mark e = true → amount e = 0) :
    (es.map amount).sum = ((beforeLast mark es).map amount).sum + since mark amount es := by
  induction es using List.reverseRecOn with
  | nil => exact (add_zero _).symm
  | append_singleton es e ih =>
    rw [since_snoc, beforeLast_snoc, List.map_append, List.sum_append, List.map_singleton,
      List.sum_singleton]
    cases h : mark e with
    | true => simp [zero e h]
    | false => simp [ih, add_assoc]

/-- With no mark of one kind since the last one of the other, the amount since the former is what
there was at the latter and what came after it. -/
theorem since_eq_add (apart : ∀ e, mark e = true → other e = false)
    (zero : ∀ e, mark e = true → amount e = 0)
    (clean : ∀ e ∈ afterLast mark es, other e = false) :
    since other amount es = since other amount (beforeLast mark es) + since mark amount es := by
  induction es using List.reverseRecOn with
  | nil => exact (add_zero _).symm
  | append_singleton es e ih =>
    rw [since_snoc mark, since_snoc other, beforeLast_snoc]
    rw [afterLast_snoc] at clean
    cases h : mark e with
    | true => simp [apart e h, zero e h]
    | false =>
      rw [h] at clean
      have hother : other e = false := clean e (by simp)
      have hrest := ih fun e' he' => clean e' (by simp [he'])
      simp only [hother, Bool.false_eq_true, if_false]
      rw [hrest, add_assoc]

/-- With no mark of one kind since the last one of the other, the latter is the later of the two. -/
theorem since_either_of_clean (clean : ∀ e ∈ afterLast mark es, other e = false) :
    since (fun e => other e || mark e) amount es = since mark amount es := by
  induction es using List.reverseRecOn with
  | nil => rfl
  | append_singleton es e ih =>
    rw [since_snoc, since_snoc]
    rw [afterLast_snoc] at clean
    cases h : mark e with
    | true => simp
    | false =>
      rw [h] at clean
      have hother : other e = false := clean e (by simp)
      have hrest := ih fun e' he' => clean e' (by simp [he'])
      simp [hother, hrest]

/-- With such a mark, that one is the later of the two. -/
theorem since_either_of_mark (later : ∃ e ∈ afterLast mark es, other e = true) :
    since (fun e => other e || mark e) amount es = since other amount es := by
  induction es using List.reverseRecOn with
  | nil =>
    obtain ⟨e, he, _⟩ := later
    cases he
  | append_singleton es e ih =>
    rw [since_snoc, since_snoc]
    rw [afterLast_snoc] at later
    cases h : mark e with
    | true =>
      obtain ⟨e', he', _⟩ := later
      rw [h] at he'
      cases he'
    | false =>
      cases hother : other e with
      | true => rfl
      | false =>
        have hbefore : ∃ e' ∈ afterLast mark es, other e' = true := by
          obtain ⟨e', he', hmark'⟩ := later
          rw [h] at he'
          rcases List.mem_append.mp he' with he' | he'
          · exact ⟨e', he', hmark'⟩
          · rw [List.mem_singleton.mp he', hother] at hmark'
            cases hmark'
        simp [ih hbefore]

end Amounts

/-! ## Marks and their pasts -/

/-- Every event with the events before it. -/
def moments (past : List α) : List α → List (List α × α)
  | [] => []
  | e :: es => (past, e) :: moments (past ++ [e]) es

theorem moments_snoc (past es : List α) (e : α) :
    moments past (es ++ [e]) = moments past es ++ [(past ++ es, e)] := by
  induction es generalizing past with
  | nil => simp [moments]
  | cons e' es ih => simp [moments, ih]

section Totals

variable [AddMonoid M] (mark : α → Bool) (value : List α → M) (es : List α) (e : α)

/-- What the pasts of all marks come to. -/
def total : M := (((moments [] es).filter fun m => mark m.2).map fun m => value m.1).sum

theorem total_snoc :
    total mark value (es ++ [e]) = total mark value es + if mark e then value es else 0 := by
  unfold total
  rw [moments_snoc, List.filter_append, List.map_append, List.sum_append, List.nil_append]
  congr 1
  cases h : mark e with
  | true => simp [h]
  | false => simp [h]

end Totals

/-- Marks that are among the others, with no more to each than has come together since the last of
these: all of them and what has come since come to no more than there is. -/
theorem total_add_since_le {mark other : α → Bool} {value : List α → Nat} {amount : α → Nat}
    {es : List α} (among : ∀ e, mark e = true → other e = true)
    (bound : ∀ past, past <+: es → value past ≤ since other amount past) :
    total mark value es + since other amount es ≤ (es.map amount).sum := by
  induction es using List.reverseRecOn with
  | nil => exact Nat.le_refl 0
  | append_singleton es e ih =>
    have hbefore := ih fun past hpast => bound past (hpast.trans <| List.prefix_append es [e])
    have hvalue := bound es <| List.prefix_append es [e]
    rw [total_snoc, since_snoc, List.map_append, List.sum_append, List.map_singleton,
      List.sum_singleton]
    cases hother : other e with
    | true =>
      rw [if_pos rfl]
      split <;> omega
    | false =>
      have hmark : mark e = false := by
        rw [← Bool.not_eq_true]
        exact fun h => absurd (among e h) (by simp [hother])
      rw [hmark, if_neg (by decide), if_neg (by decide)]
      omega

end History
