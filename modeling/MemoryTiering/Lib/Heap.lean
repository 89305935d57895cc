import Mathlib.Data.List.Basic
import Mathlib.Data.List.Nodup
import Mathlib.Data.List.Range
import Mathlib.Data.List.Count
import Mathlib.Data.List.Perm.Basic

/-!
# A heap of numbered allocations

Cells are kept in allocation order, and an address is the number of the `new` that made the
object. An address is therefore an object's identity and not the place it happens to occupy: a
freed cell stays `none` for ever, so a pointer kept past its object's `delete` names a cell that
reads as nothing, whatever the allocator does with the bytes.
-/

set_option autoImplicit false

namespace Pointer

/-- The identity of an allocated object. -/
abbrev Addr := Nat

/-- Allocations in order; a freed one leaves `none` behind. -/
structure Heap (α : Type*) where
  cells : List (Option α)
  deriving DecidableEq

namespace Heap

variable {α : Type*}

/-- The heap nothing was allocated in. -/
def empty : Heap α := ⟨[]⟩

/-- How many objects were ever allocated; also the address the next `new` answers. -/
def allocated (h : Heap α) : Nat := h.cells.length

/-- How many of them were freed. -/
def freed (h : Heap α) : Nat := h.cells.countP (·.isNone)

/-- The live object at an address. -/
def read? (h : Heap α) (a : Addr) : Option α := (h.cells[a]?).join

/-- `new`: the object goes to the next address. -/
def alloc (h : Heap α) (v : α) : Heap α := ⟨h.cells ++ [some v]⟩

/-- A store through a pointer to a live object. -/
def modify (h : Heap α) (a : Addr) (f : α → α) : Heap α := ⟨h.cells.modify a (Option.map f)⟩

/-- `delete`. -/
def free (h : Heap α) (a : Addr) : Heap α := ⟨h.cells.set a none⟩

@[simp] theorem read?_empty (a : Addr) : (empty : Heap α).read? a = none := rfl

/-- Only allocated addresses read as anything. -/
theorem lt_of_read? {h : Heap α} {a : Addr} {v : α} (hv : h.read? a = some v) :
    a < h.allocated := by
  by_contra hge
  have hnone : h.cells[a]? = none := List.getElem?_eq_none (Nat.le_of_not_lt hge)
  simp only [read?, hnone, Option.join_none, reduceCtorEq] at hv

/-- The next address is not live yet. -/
@[simp] theorem read?_allocated (h : Heap α) : h.read? h.allocated = none := by
  simp only [read?, allocated, getElem?_neg, Nat.lt_irrefl, not_false_eq_true, Option.join_none]

theorem read?_alloc (h : Heap α) (v : α) (b : Addr) :
    (h.alloc v).read? b = if b = h.allocated then some v else h.read? b := by
  by_cases hb : b = h.allocated
  · subst hb
    simp only [read?, alloc, allocated, List.getElem?_concat_length, Option.join_some, if_true]
  · rw [if_neg hb]
    rcases Nat.lt_or_ge b h.allocated with hlt | hge
    · simp only [read?, alloc, List.getElem?_append_left hlt]
    · have hgt : h.cells.length + 1 ≤ b := Nat.lt_of_le_of_ne hge (Ne.symm hb)
      have hnew : (h.cells ++ [some v])[b]? = none :=
        List.getElem?_eq_none (by simpa only [List.length_append, List.length_singleton] using hgt)
      have hold : h.cells[b]? = none := List.getElem?_eq_none hge
      simp only [read?, alloc, hnew, hold]

theorem read?_modify (h : Heap α) (a : Addr) (f : α → α) (b : Addr) :
    (h.modify a f).read? b = if b = a then (h.read? b).map f else h.read? b := by
  simp only [read?, modify, List.getElem?_modify]
  by_cases hb : b = a
  · subst hb
    simp only [if_true]
    cases h.cells[b]? <;> rfl
  · rw [if_neg hb]
    cases h.cells[b]? with
    | none => rfl
    | some c => simp only [Option.map_eq_map, Option.map_some, if_neg (Ne.symm hb)]

/-- A store makes nothing live or dead. -/
@[simp] theorem isSome_read?_modify (h : Heap α) (a : Addr) (f : α → α) (b : Addr) :
    ((h.modify a f).read? b).isSome = (h.read? b).isSome := by
  rw [read?_modify]
  split
  · exact Option.isSome_map
  · rfl

theorem read?_free (h : Heap α) (a b : Addr) :
    (h.free a).read? b = if b = a then none else h.read? b := by
  by_cases hb : b = a
  · subst hb
    rw [if_pos rfl]
    rcases Nat.lt_or_ge b h.cells.length with hlt | hge
    · simp only [read?, free, List.getElem?_set_self hlt, Option.join_some]
    · have hnone : (h.cells.set b none)[b]? = none :=
        List.getElem?_eq_none (by simpa only [List.length_set] using hge)
      simp only [read?, free, hnone, Option.join_none]
  · rw [if_neg hb]
    simp only [read?, free, List.getElem?_set_ne (Ne.symm hb)]

/-! ## Counting allocations -/

@[simp] theorem allocated_alloc (h : Heap α) (v : α) :
    (h.alloc v).allocated = h.allocated + 1 := by
  simp only [allocated, alloc, List.length_append, List.length_singleton]

@[simp] theorem allocated_modify (h : Heap α) (a : Addr) (f : α → α) :
    (h.modify a f).allocated = h.allocated := by
  simp only [allocated, modify, List.length_modify]

@[simp] theorem allocated_free (h : Heap α) (a : Addr) :
    (h.free a).allocated = h.allocated := by
  simp only [allocated, free, List.length_set]

/-- **Every allocation is live or freed**: a duplicate-free list of exactly the live addresses
is as long as the allocations that were not freed. -/
theorem length_add_freed {h : Heap α} {l : List Addr} (nodup : l.Nodup)
    (live : ∀ a, a ∈ l ↔ (h.read? a).isSome) : l.length + h.freed = h.allocated := by
  have hperm : l.Perm ((List.range h.allocated).filter fun a => (h.read? a).isSome) := by
    apply (List.perm_ext_iff_of_nodup nodup (List.nodup_range.filter _)).mpr
    intro a
    rw [List.mem_filter, List.mem_range, live a]
    constructor
    · intro hs
      obtain ⟨v, hv⟩ := Option.isSome_iff_exists.mp hs
      exact ⟨lt_of_read? hv, hs⟩
    · exact And.right
  have hcount : ((List.range h.allocated).filter fun a => (h.read? a).isSome).length =
      h.cells.countP (·.isSome) := by
    rw [← List.countP_eq_length_filter]
    have hmap : h.cells = (List.range h.allocated).map fun a => h.read? a := by
      apply List.ext_getElem
      · simp only [List.length_map, List.length_range, allocated]
      · intro i hi _
        simp only [List.getElem_map, List.getElem_range, read?, List.getElem?_eq_getElem hi,
          Option.join_some]
    conv_rhs => rw [hmap]
    rw [List.countP_map]
    rfl
  have hsplit := List.length_eq_countP_add_countP (·.isSome) (l := h.cells)
  have hnone : h.cells.countP (fun c => decide ¬ (c.isSome = true)) = h.freed :=
    List.countP_congr fun c _ => by cases c <;> simp
  rw [hperm.length_eq, hcount, ← hnone]
  exact hsplit.symm

end Heap

end Pointer
