import Mathlib.Data.Nat.Basic
import Mathlib.Data.UInt

/-!
# Alignment

Masking the low bits of an address rounds it down to a multiple of a power of two, and masking them
off what is just below the next multiple rounds it up. What is left is division: a range of whole
units, aligned to units, meets the blocks between that of its first byte and that of its last, and
has the first byte of a unit in each of them.
-/

set_option autoImplicit false

namespace Alignment

/-! ## Masks -/

section Masks

variable {k : Nat} {a : UInt64}

/-- The low bits. -/
theorem toNat_low (hk : k < 64) : (UInt64.ofNat (2 ^ k) - 1).toNat = 2 ^ k - 1 := by
  have hpow : 2 ^ k < 2 ^ 64 := Nat.pow_lt_pow_right (by decide) hk
  rw [UInt64.toNat_sub_of_le, UInt64.toNat_ofNat_of_lt' hpow, UInt64.toNat_one]
  rw [UInt64.le_iff_toNat_le, UInt64.toNat_ofNat_of_lt' hpow]
  exact Nat.one_le_two_pow

/-- Clearing the low bits rounds down. -/
theorem toNat_maskDown (hk : k < 64) (a : UInt64) :
    (a &&& ~~~(UInt64.ofNat (2 ^ k) - 1)).toNat = a.toNat / 2 ^ k * 2 ^ k := by
  have hpow : 2 ^ k < 2 ^ 64 := Nat.pow_lt_pow_right (by decide) hk
  have hone : 1 ≤ 2 ^ k := Nat.one_le_two_pow
  have hmask : (~~~(UInt64.ofNat (2 ^ k) - 1)).toNat = 2 ^ 64 - (2 ^ k - 1 + 1) := by
    rw [UInt64.toNat_not, toNat_low hk]
    show 2 ^ 64 - 1 - (2 ^ k - 1) = 2 ^ 64 - (2 ^ k - 1 + 1)
    omega
  rw [UInt64.toNat_and, hmask, ← Nat.shiftRight_eq_div_pow, ← Nat.shiftLeft_eq]
  apply Nat.eq_of_testBit_eq
  intro i
  rw [Nat.testBit_and, Nat.testBit_two_pow_sub_succ (by omega), Nat.testBit_two_pow_sub_one,
    Nat.testBit_shiftLeft, Nat.testBit_shiftRight]
  by_cases hik : k ≤ i
  · by_cases hi : i < 64
    · simp [hik, hi, Nat.not_lt.mpr hik]
    · have hout : a.toNat.testBit i = false :=
        Nat.testBit_lt_two_pow (a.toNat_lt.trans_le (Nat.pow_le_pow_right (by decide) (by omega)))
      simp [hik, hi, hout]
  · simp [hik, Nat.lt_of_not_le hik]

/-- Clearing the low bits of what is just below the next multiple rounds up. -/
theorem toNat_maskUp (hk : k < 64) (fits : a.toNat + 2 ^ k ≤ 2 ^ 64) :
    (a + UInt64.ofNat (2 ^ k) - 1 &&& ~~~(UInt64.ofNat (2 ^ k) - 1)).toNat =
      (a.toNat + (2 ^ k - 1)) / 2 ^ k * 2 ^ k := by
  have hone : 1 ≤ 2 ^ k := Nat.one_le_two_pow
  have hlast : (a + UInt64.ofNat (2 ^ k) - 1).toNat = a.toNat + (2 ^ k - 1) := by
    rw [add_sub_assoc, UInt64.toNat_add, toNat_low hk, Nat.mod_eq_of_lt (by omega)]
  rw [toNat_maskDown hk, hlast]

end Masks

/-! ## Blocks -/

section Blocks

variable {unit block base n b : Nat}

/-- **The blocks of an aligned range**: each block from that of the range's first byte to that of
its last has the first byte of one of the range's units in it, and no other block has. -/
theorem exists_unit_iff (hunit : 0 < unit) (hblock : unit ∣ block) (aligned : unit ∣ base)
    (hn : 0 < n) : (∃ k < n, (base + k * unit) / block = b) ↔
      base / block ≤ b ∧ b ≤ (base + (n * unit - 1)) / block := by
  constructor
  · rintro ⟨k, hk, rfl⟩
    have hlast : k * unit ≤ n * unit - 1 := by
      have hle : (k + 1) * unit ≤ n * unit := Nat.mul_le_mul_right unit hk
      rw [Nat.succ_mul] at hle
      omega
    exact ⟨Nat.div_le_div_right (Nat.le_add_right ..),
      Nat.div_le_div_right (Nat.add_le_add_left hlast base)⟩
  · rintro ⟨first, last⟩
    rcases Nat.eq_or_lt_of_le first with rfl | later
    · exact ⟨0, hn, by rw [Nat.zero_mul, Nat.add_zero]⟩
    · -- the block starts inside the range, at the first byte of a unit
      have hpos : 0 < block := by
        rcases Nat.eq_zero_or_pos block with rfl | hpos
        · rw [Nat.div_zero] at last
          omega
        · exact hpos
      have hstart : base < b * block := (Nat.div_lt_iff_lt_mul hpos).mp later
      have hend : b * block ≤ base + (n * unit - 1) := (Nat.le_div_iff_mul_le hpos).mp last
      obtain ⟨k, hk⟩ := Nat.dvd_sub (hblock.mul_left b) aligned
      have hk' : base + k * unit = b * block := by
        rw [Nat.mul_comm k, ← hk]
        omega
      refine ⟨k, ?_, by rw [hk', Nat.mul_div_cancel _ hpos]⟩
      apply Nat.lt_of_mul_lt_mul_right (a := unit)
      have hnpos : 0 < n * unit := Nat.mul_pos hn hunit
      omega

end Blocks

end Alignment
