import Mathlib.Data.List.Basic

/-!
# Fields

A list is cut at every separator, and a last separator ends a field without starting another, as it
does for the lines of a file.
-/

set_option autoImplicit false

namespace Fields

variable {α : Type*} [DecidableEq α] {sep : α} {item rest : List α}

/-- The fields of a list, each ended by a separator; the last need not be, unless it is empty. -/
def fields (sep : α) (s : List α) : List (List α) :=
  if (s.splitOn sep).getLast? = some [] then (s.splitOn sep).dropLast else s.splitOn sep

@[simp] theorem fields_nil : fields sep [] = [] := rfl

/-- Without a separator there is one field. -/
theorem fields_of_not_mem (item_ne : item ≠ []) (sep_not : sep ∉ item) :
    fields sep item = [item] := by
  simp [fields, List.splitOn_eq_singleton sep_not, item_ne]

/-- A separator ends a field. -/
theorem fields_append_cons (sep_not : sep ∉ item) :
    fields sep (item ++ sep :: rest) = item :: fields sep rest := by
  unfold fields
  rw [List.splitOn_append_cons_self_of_not_mem sep_not]
  have more := List.splitOn_ne_nil sep rest
  rw [List.getLast?_cons_of_ne_nil more, List.dropLast_cons_of_ne_nil more]
  split <;> rfl

/-- Fields that have no separator in them, and the last of which is not empty, come back from
between single separators. -/
theorem fields_intercalate {items : List (List α)} (sep_not : ∀ item ∈ items, sep ∉ item)
    (last_ne : items.getLast? ≠ some []) : fields sep ([sep].intercalate items) = items := by
  cases items with
  | nil => rfl
  | cons item items =>
    unfold fields
    rw [List.splitOn_intercalate sep sep_not (List.cons_ne_nil item items), if_neg last_ne]

end Fields
