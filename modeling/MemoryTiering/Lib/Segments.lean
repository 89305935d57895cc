import Mathlib.Data.List.Count
import Mathlib.Data.Set.Function
import Mathlib.Order.Interval.Set.Basic

/-!
# Segments and ranks

Lists laid end to end: segment `c` starts where the ones before it end, so a position in the whole
is a segment and a position in it (`bijOn_place`). Within one list the positions of a value are
numbered by how many of them come before (`bijOn_rank`). These are the two ways a linear layout is
addressed.
-/

set_option autoImplicit false

namespace Segments

variable {α : Type*}

/-! ## Segments -/

/-- Where segment `c` starts. -/
def start (ls : List (List α)) (c : Nat) : Nat := (ls.take c).flatten.length

@[simp] theorem start_zero (ls : List (List α)) : start ls 0 = 0 := rfl

@[simp] theorem start_succ_cons (l : List α) (ls : List (List α)) (c : Nat) :
    start (l :: ls) (c + 1) = l.length + start ls c := by
  rw [start, List.take_succ_cons, List.flatten_cons, List.length_append]
  rfl

/-- A segment ends inside the whole. -/
theorem start_add_le {ls : List (List α)} {c : Nat} {l : List α} (h : ls[c]? = some l) :
    start ls c + l.length ≤ ls.flatten.length := by
  induction ls generalizing c with
  | nil => cases h
  | cons l₀ ls ih =>
    rw [List.flatten_cons, List.length_append]
    cases c with
    | zero =>
      obtain rfl : l₀ = l := Option.some.inj h
      rw [start_zero, Nat.zero_add]
      exact Nat.le_add_right _ _
    | succ c =>
      rw [start_succ_cons, Nat.add_assoc]
      exact Nat.add_le_add_left (ih h) _

/-- A segment ends before the next ones start. -/
theorem start_add_le_start {ls : List (List α)} {c d : Nat} {l : List α} (h : ls[c]? = some l)
    (hcd : c < d) : start ls c + l.length ≤ start ls d := by
  have htake : (ls.take d)[c]? = some l := by rw [List.getElem?_take_of_lt hcd, h]
  have hsame : start (ls.take d) c = start ls c := by
    rw [start, List.take_take, Nat.min_eq_left hcd.le, start]
  rw [← hsame]
  exact start_add_le htake

/-- A segment, and a position in it. -/
def positions (ls : List (List α)) : Set (Nat × Nat) :=
  {ck | ∃ l, ls[ck.1]? = some l ∧ ck.2 < l.length}

/-- Its position in the whole. -/
def place (ls : List (List α)) (ck : Nat × Nat) : Nat := start ls ck.1 + ck.2

/-- **Every position is one position of one segment.** -/
theorem bijOn_place (ls : List (List α)) :
    Set.BijOn (place ls) (positions ls) (Set.Iio ls.flatten.length) := by
  refine ⟨?mapsTo, ?injOn, ?surjOn⟩
  case mapsTo =>
    rintro ⟨c, k⟩ ⟨l, hl, hk⟩
    exact Nat.lt_of_lt_of_le (Nat.add_lt_add_left hk _) (start_add_le hl)
  case injOn =>
    rintro ⟨c, k⟩ ⟨l, hl, hk⟩ ⟨d, j⟩ ⟨l', hl', hj⟩ heq
    dsimp only [place] at hl hk hl' hj heq
    rcases Nat.lt_trichotomy c d with hlt | rfl | hgt
    · have hend := start_add_le_start hl hlt
      omega
    · rw [Nat.add_left_cancel heq]
    · have hend := start_add_le_start hl' hgt
      omega
  case surjOn =>
    induction ls with
    | nil =>
      intro i hi
      exact (Nat.not_lt_zero i hi).elim
    | cons l ls ih =>
      intro i hi
      rw [Set.mem_Iio, List.flatten_cons, List.length_append] at hi
      by_cases hfirst : i < l.length
      · exact ⟨(0, i), ⟨l, rfl, hfirst⟩, Nat.zero_add i⟩
      · obtain ⟨⟨c, k⟩, ⟨l', hl', hk⟩, heq⟩ :=
          ih (Set.mem_Iio.mpr (by omega : i - l.length < ls.flatten.length))
        refine ⟨(c + 1, k), ⟨l', hl', hk⟩, ?_⟩
        dsimp only [place] at heq ⊢
        rw [start_succ_cons]
        omega

/-! ## Ranks -/

section Ranks

variable [DecidableEq α]

/-- How many `a` come before position `i`. -/
def rank (l : List α) (a : α) (i : Nat) : Nat := (l.take i).count a

/-- A position of `a` is one of its positions. -/
theorem rank_succ {l : List α} {a : α} {i : Nat} (h : l[i]? = some a) :
    rank l a (i + 1) = rank l a i + 1 := by
  rw [rank, List.take_add_one, h, List.count_append, rank]
  simp

theorem rank_le {l : List α} {a : α} {i j : Nat} (h : i ≤ j) : rank l a i ≤ rank l a j :=
  ((List.take_prefix_take_left h).sublist).count_le a

/-- **The positions of a value are numbered in order.** -/
theorem bijOn_rank (l : List α) (a : α) :
    Set.BijOn (rank l a) {i | l[i]? = some a} (Set.Iio (l.count a)) := by
  refine ⟨?mapsTo, ?injOn, ?surjOn⟩
  case mapsTo =>
    intro i hi
    have hle : rank l a (i + 1) ≤ l.count a := ((List.take_sublist _ _)).count_le a
    rw [rank_succ hi] at hle
    exact hle
  case injOn =>
    intro i hi j hj heq
    rcases Nat.lt_trichotomy i j with hlt | rfl | hgt
    · have hle := rank_le (l := l) (a := a) (Nat.succ_le_of_lt hlt)
      rw [Nat.succ_eq_add_one, rank_succ hi] at hle
      omega
    · rfl
    · have hle := rank_le (l := l) (a := a) (Nat.succ_le_of_lt hgt)
      rw [Nat.succ_eq_add_one, rank_succ hj] at hle
      omega
  case surjOn =>
    induction l with
    | nil =>
      intro k hk
      exact (Nat.not_lt_zero k hk).elim
    | cons b l ih =>
      intro k hk
      rw [Set.mem_Iio, List.count_cons] at hk
      by_cases hb : b = a
      · rw [if_pos (beq_iff_eq.mpr hb)] at hk
        cases k with
        | zero => exact ⟨0, congrArg some hb, rfl⟩
        | succ k =>
          obtain ⟨i, hi, hrank⟩ := ih (Set.mem_Iio.mpr (Nat.lt_of_succ_lt_succ hk))
          refine ⟨i + 1, hi, ?_⟩
          rw [← hrank, rank, List.take_succ_cons, hb, List.count_cons_self]
          rfl
      · rw [if_neg (by simpa using hb), Nat.add_zero] at hk
        obtain ⟨i, hi, hrank⟩ := ih (Set.mem_Iio.mpr hk)
        refine ⟨i + 1, hi, ?_⟩
        rw [← hrank, rank, List.take_succ_cons, List.count_cons_of_ne hb]
        rfl

end Ranks

end Segments
