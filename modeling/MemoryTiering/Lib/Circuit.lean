import Mathlib.Algebra.Ring.Nat
import Mathlib.Data.List.Basic

/-!
# Cursors that go round

A cursor over the indices below `n` goes up by one, and from the last of them back to zero. `tour`
lists the indices it stands at over its next steps. It runs straight up to the last index and then
starts again (`tour_wrap`), so over `n` steps from anywhere it is at each index once (`tour_perm`),
and between two visits to the last index it is at all of them in order (`tour_between`).
-/

set_option autoImplicit false

namespace Circuit

/-- The index after `k`. -/
def next (n k : Nat) : Nat := if n ≤ k + 1 then 0 else k + 1

/-- The indices over the next `steps` steps, the one at `k` first. -/
def tour (n k : Nat) : Nat → List Nat
  | 0 => []
  | steps + 1 => k :: tour n (next n k) steps

variable {n k steps : Nat}

theorem next_lt (h : k < n) : next n k < n := by
  unfold next
  split <;> omega

@[simp] theorem length_tour : (tour n k steps).length = steps := by
  induction steps generalizing k with
  | zero => rfl
  | succ steps ih => simp only [tour, List.length_cons, ih]

/-- Up to the last index the tour is straight. -/
theorem tour_straight (h : k + steps ≤ n) : tour n k steps = List.range' k steps := by
  induction steps generalizing k with
  | zero => rfl
  | succ steps ih =>
    rw [tour, List.range'_succ]
    rcases Nat.eq_zero_or_pos steps with rfl | hpos
    · rfl
    · have hnext : next n k = k + 1 := if_neg (by omega)
      rw [hnext, ih (by omega)]

/-- **After the last index it starts again.** -/
theorem tour_wrap {left : Nat} (h : k + left + 1 = n) :
    tour n k (left + 1 + steps) = List.range' k (left + 1) ++ tour n 0 steps := by
  induction left generalizing k with
  | zero =>
    have hnext : next n k = 0 := if_pos (by omega)
    rw [Nat.add_comm, tour, hnext]
    rfl
  | succ left ih =>
    have hnext : next n k = k + 1 := if_neg (by omega)
    rw [Nat.add_right_comm, tour, hnext, ih (by omega)]
    rfl

/-- **Once around**: from anywhere, the next `n` steps are at each index once. -/
theorem tour_perm (h : k < n) : (tour n k n).Perm (List.range n) := by
  obtain ⟨left, hleft⟩ : ∃ left, k + left + 1 = n := ⟨n - k - 1, by omega⟩
  have htour : tour n k n = List.range' k (left + 1) ++ List.range' 0 k := by
    rw [← tour_straight (show 0 + k ≤ n by omega), ← tour_wrap hleft]
    congr 1
    omega
  have hrange : List.range n = List.range' 0 k ++ List.range' k (left + 1) := by
    have happend : List.range' 0 k ++ List.range' (0 + k) (left + 1) = _ := List.range'_append_1
    rw [Nat.zero_add] at happend
    rw [happend, List.range_eq_range']
    congr 1
    omega
  rw [htour, hrange]
  exact List.perm_append_comm

/-- In particular it is at the last index once. -/
theorem filter_tour (h : k < n) : ((tour n k n).filter fun i => i = n - 1) = [n - 1] := by
  have hcount : (tour n k n).count (n - 1) = 1 := by
    rw [(tour_perm h).count_eq, List.count_range, if_pos (by omega)]
  rw [List.filter_eq, hcount, List.replicate_one]

/-- **From one visit to the last index to the next** the cursor is at every index, in order. -/
theorem tour_between {between : List Nat} (pos : 0 < n)
    (h : tour n k steps = (n - 1) :: (between ++ [n - 1])) (fresh : n - 1 ∉ between) :
    between ++ [n - 1] = List.range n := by
  cases steps with
  | zero => cases h
  | succ steps =>
    obtain ⟨rfl, h⟩ := List.cons.inj h
    have hnext : next n (n - 1) = 0 := if_pos (by omega)
    rw [hnext] at h
    have hlength : steps = between.length + 1 := by
      have := congrArg List.length h
      simpa using this
    rcases Nat.lt_or_ge n steps with hlong | hshort
    · -- a longer tour is at the last index before its end
      obtain ⟨left, hleft⟩ : ∃ left, 0 + left + 1 = n := ⟨n - 1, by omega⟩
      obtain ⟨rest, rfl⟩ : ∃ rest, steps = left + 1 + rest := ⟨steps - n, by omega⟩
      rw [tour_wrap hleft] at h
      have hlast : (between ++ [n - 1])[left]? = some left := by
        rw [← h, List.getElem?_append_left (by simp)]
        simp
      rw [List.getElem?_append_left (by omega)] at hlast
      exfalso
      apply fresh
      have hmem := List.mem_of_getElem? hlast
      rwa [show n - 1 = left by omega]
    · rw [tour_straight (by omega), ← List.range_eq_range'] at h
      rw [← h, hlength]
      congr 1
      rw [hlength, List.range_succ] at h
      have hend := List.append_inj_right' h rfl
      have hn : between.length = n - 1 := (List.cons.inj hend).1
      omega

end Circuit
