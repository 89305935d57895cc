import Mathlib.Algebra.Ring.Nat
import Mathlib.Data.Nat.Log

/-!
# Rounding naturals to a binary format

A natural number rounded to `p` significant bits, to the nearest with ties to even: what a binary
floating-point format of that precision makes of an integer, or of a product of its mantissas,
within the range of its exponents. The result is off by at most one part in `2 ^ p`
(`round_le`, `le_round`).
-/

set_option autoImplicit false

namespace Rounding

/-- The nearest multiple of `2 ^ k`, the even one of two. -/
def nearest (k n : Nat) : Nat :=
  if 2 * (n % 2 ^ k) < 2 ^ k ∨ 2 * (n % 2 ^ k) = 2 ^ k ∧ n / 2 ^ k % 2 = 0 then
    n / 2 ^ k * 2 ^ k
  else (n / 2 ^ k + 1) * 2 ^ k

/-- `n` to `p` significant bits. -/
def round (p n : Nat) : Nat := nearest (Nat.log 2 n + 1 - p) n

section Nearest

variable (k n : Nat)

/-- The nearest multiple is at most half a step away. -/
theorem nearest_le : 2 * nearest k n ≤ 2 * n + 2 ^ k := by
  have hdiv := Nat.div_add_mod' n (2 ^ k)
  unfold nearest
  split
  next => omega
  next h =>
    have hover : 2 ^ k ≤ 2 * (n % 2 ^ k) := by
      by_contra hlt
      exact h (.inl (Nat.lt_of_not_le hlt))
    rw [Nat.add_mul, Nat.one_mul]
    omega

theorem le_nearest : 2 * n ≤ 2 * nearest k n + 2 ^ k := by
  have hdiv := Nat.div_add_mod' n (2 ^ k)
  have hmod := Nat.mod_lt n (Nat.two_pow_pos k)
  unfold nearest
  split
  next h =>
    have hunder : 2 * (n % 2 ^ k) ≤ 2 ^ k := h.elim Nat.le_of_lt fun h => h.1.le
    omega
  next =>
    rw [Nat.add_mul, Nat.one_mul]
    omega

/-- Every number is a multiple of one. -/
theorem nearest_zero : nearest 0 n = n := by
  simp [nearest, Nat.mod_one]

variable {k n} {m : Nat}

/-- **A number below the middle of a step** is not rounded above its foot. -/
theorem nearest_le_of_lt (h : 2 * n < 2 * (m * 2 ^ k) + 2 ^ k) : nearest k n ≤ m * 2 ^ k := by
  have hdiv := Nat.div_add_mod' n (2 ^ k)
  have hpos := Nat.two_pow_pos k
  unfold nearest
  split
  next =>
    have hless : n / 2 ^ k * 2 ^ k < (m + 1) * 2 ^ k := by
      rw [Nat.add_mul, Nat.one_mul]
      omega
    exact Nat.mul_le_mul_right _ (Nat.lt_succ_iff.mp (Nat.lt_of_mul_lt_mul_right hless))
  next hup =>
    -- Rounded up, the number is half a step or more past its quotient, so the quotient is smaller.
    have hover : 2 ^ k ≤ 2 * (n % 2 ^ k) := by
      by_contra hlt
      exact hup (.inl (Nat.lt_of_not_le hlt))
    have hless : n / 2 ^ k * 2 ^ k < m * 2 ^ k := by omega
    exact Nat.mul_le_mul_right _ (Nat.lt_of_mul_lt_mul_right hless)

/-- **A number above the middle** is not rounded down to it. -/
theorem lt_nearest_of_lt (h : 2 * (m * 2 ^ k) + 2 ^ k < 2 * n) : m * 2 ^ k < nearest k n := by
  have hnear := le_nearest k n
  omega

end Nearest

section Round

variable {p : Nat} (n : Nat)

/-- Half a step is one part in `2 ^ p`. -/
theorem step_le (hp : 0 < p) (hn : Nat.log 2 n + 1 - p ≠ 0) :
    2 ^ (Nat.log 2 n + 1 - p) * 2 ^ p ≤ 2 * n := by
  have hpos : n ≠ 0 := by
    rintro rfl
    rw [Nat.log_zero_right] at hn
    omega
  rw [← Nat.pow_add, show Nat.log 2 n + 1 - p + p = Nat.log 2 n + 1 by omega, Nat.pow_succ,
    Nat.mul_comm]
  exact Nat.mul_le_mul_left 2 (Nat.pow_log_le_self 2 hpos)

/-- **The relative error**, above and below. -/
theorem round_le (hp : 0 < p) : round p n * 2 ^ p ≤ n * (2 ^ p + 1) := by
  unfold round
  by_cases hexact : Nat.log 2 n + 1 - p = 0
  · rw [hexact, nearest_zero]
    exact Nat.mul_le_mul_left n (Nat.le_succ _)
  · have hstep := step_le n hp hexact
    have hnear := Nat.mul_le_mul_right (2 ^ p) (nearest_le (Nat.log 2 n + 1 - p) n)
    rw [Nat.add_mul] at hnear
    rw [Nat.mul_add, Nat.mul_one]
    have hleft : 2 * nearest (Nat.log 2 n + 1 - p) n * 2 ^ p =
        2 * (nearest (Nat.log 2 n + 1 - p) n * 2 ^ p) := Nat.mul_assoc ..
    have hright : 2 * n * 2 ^ p = 2 * (n * 2 ^ p) := Nat.mul_assoc ..
    omega

theorem le_round (hp : 0 < p) : n * 2 ^ p ≤ round p n * 2 ^ p + n := by
  unfold round
  by_cases hexact : Nat.log 2 n + 1 - p = 0
  · rw [hexact, nearest_zero]
    exact Nat.le_add_right _ _
  · have hstep := step_le n hp hexact
    have hnear := Nat.mul_le_mul_right (2 ^ p) (le_nearest (Nat.log 2 n + 1 - p) n)
    rw [Nat.add_mul] at hnear
    have hleft : 2 * n * 2 ^ p = 2 * (n * 2 ^ p) := Nat.mul_assoc ..
    have hright : 2 * nearest (Nat.log 2 n + 1 - p) n * 2 ^ p =
        2 * (nearest (Nat.log 2 n + 1 - p) n * 2 ^ p) := Nat.mul_assoc ..
    omega

/-- Nothing rounds to zero but zero. -/
theorem round_pos (hp : 0 < p) {n : Nat} (hn : 0 < n) : 0 < round p n := by
  have hle := le_round n hp
  have htwo : 2 ≤ 2 ^ p := by
    calc 2 = 2 ^ 1 := rfl
      _ ≤ 2 ^ p := Nat.pow_le_pow_right (by decide) hp
  have hgrow : n * 2 ≤ n * 2 ^ p := Nat.mul_le_mul_left n htwo
  rcases Nat.eq_zero_or_pos (round p n) with hzero | hpos
  · rw [hzero, Nat.zero_mul, Nat.zero_add] at hle
    omega
  · exact hpos

/-- **A number of `p` bits is kept**, and so is the first one that has more. -/
theorem round_eq_self (hp : 0 < p) {n : Nat} (hn : n ≤ 2 ^ p) : round p n = n := by
  rcases Nat.lt_or_eq_of_le hn with hlt | rfl
  · have hlog := Nat.log_lt_of_lt_pow' hp.ne' hlt
    rw [round, Nat.sub_eq_zero_of_le hlog, nearest_zero]
  · have hstep : Nat.log 2 (2 ^ p) + 1 - p = 1 := by
      rw [Nat.log_pow Nat.one_lt_two]
      omega
    have heven : 2 ^ p % 2 = 0 := Nat.mod_eq_zero_of_dvd (Nat.pow_dvd_pow 2 hp)
    rw [round, hstep, nearest, pow_one, heven, if_pos (.inl (by decide)),
      Nat.div_mul_cancel (Nat.dvd_of_mod_eq_zero heven)]

end Round

end Rounding
