import MemoryTiering.Laws.PageTable.Run

/-!
# What the parser's capacity check lets through

`_validateMemoryConfiguration` compares one residue per tier with one limit
(`validateMemoryConfiguration_iff`). It departs from the exact comparison of each tier's pages with
its capacity in two places: a total that reaches `2 ^ 64` is compared modulo `2 ^ 64`
(`validated_fits_iff`), and in a two-tier system the pages of PMEM meet the limit of the remote
tier, which is zero (`fitting_accepted_iff`).
-/

set_option autoImplicit false

namespace MemoryTiering

/-- The pages all clients ask for in a tier. -/
def requested (clients : List ClientConfig) (i : Nat) : Nat :=
  (clients.map fun client => (client.tier i).toNat).sum

/-- What the total of a tier is compared with. -/
def comparedLimit (numTiers : Nat) (memSizes : List SizeT) (i : Nat) : Nat :=
  if numTiers = 2 ∧ i = 1 then 0 else (memSizes.getD i 0).toNat

section Limits

variable {numTiers : Nat} {memSizes : List SizeT} {server : ServerMemoryConfig}
  {clients : List ClientConfig}

theorem toNat_tierTotal_mod (clients : List ClientConfig) (i : Nat) :
    (tierTotal clients i).toNat = requested clients i % 2 ^ 64 := by
  rw [tierTotal, toNat_foldl_add, UInt64.toNat_zero, Nat.zero_add, requested]

theorem comparedLimit_le (numTiers : Nat) (memSizes : List SizeT) (i : Nat) :
    comparedLimit numTiers memSizes i ≤ (memSizes.getD i 0).toNat := by
  unfold comparedLimit
  split
  · exact Nat.zero_le _
  · exact Nat.le_refl _

/-- The array of limits, tier by tier. -/
theorem toNat_tierLimits (tiers : numTiers = 2 ∨ numTiers = 3)
    (parsed : parseServerConfig numTiers memSizes = some server) {i : Nat} (hi : i < numTiers) :
    ((tierLimits server).getD i 0).toNat = comparedLimit numTiers memSizes i := by
  unfold parseServerConfig at parsed
  split at parsed
  · cases parsed
  next hlength =>
    obtain rfl := Option.some.inj parsed
    rw [not_not] at hlength
    rcases tiers with rfl | rfl
    · obtain rfl | rfl : i = 0 ∨ i = 1 := by omega
      · rfl
      · rfl
    · obtain ⟨a, b, c, rfl⟩ := List.length_eq_three.mp hlength
      obtain rfl | rfl | rfl : i = 0 ∨ i = 1 ∨ i = 2 := by omega
      · rfl
      · rfl
      · rfl

/-- **The check**: no tier's total, modulo `2 ^ 64`, is above the limit it meets. -/
theorem validateMemoryConfiguration_iff (tiers : numTiers = 2 ∨ numTiers = 3)
    (parsed : parseServerConfig numTiers memSizes = some server) (clients : List ClientConfig) :
    validateMemoryConfiguration server clients = true ↔
      ∀ i < numTiers, requested clients i % 2 ^ 64 ≤ comparedLimit numTiers memSizes i := by
  have hnum : server.numTiers = numTiers := by
    unfold parseServerConfig at parsed
    split at parsed
    · cases parsed
    · rw [← Option.some.inj parsed]
  unfold validateMemoryConfiguration
  rw [List.all_eq_true, hnum]
  simp only [List.mem_range, decide_eq_true_iff, UInt64.le_iff_toNat_le, toNat_tierTotal_mod]
  constructor
  · intro h i hi
    rw [← toNat_tierLimits tiers parsed hi]
    exact h i hi
  · intro h i hi
    rw [toNat_tierLimits tiers parsed hi]
    exact h i hi

/-- **What the check lets through fits**, for exactly the configurations that ask for fewer than
`2 ^ 64` pages in each tier, or are refused even modulo `2 ^ 64`. -/
theorem validated_fits_iff (tiers : numTiers = 2 ∨ numTiers = 3)
    (parsed : parseServerConfig numTiers memSizes = some server) (clients : List ClientConfig) :
    (validateMemoryConfiguration server clients = true →
        ∀ i < numTiers, requested clients i ≤ (memSizes.getD i 0).toNat) ↔
      (∀ i < numTiers, requested clients i < 2 ^ 64) ∨
        ∃ i < numTiers, comparedLimit numTiers memSizes i < requested clients i % 2 ^ 64 := by
  rw [validateMemoryConfiguration_iff tiers parsed]
  constructor
  · intro hfits
    by_cases hpass : ∀ i < numTiers,
        requested clients i % 2 ^ 64 ≤ comparedLimit numTiers memSizes i
    · left
      intro i hi
      exact Nat.lt_of_le_of_lt (hfits hpass i hi) (memSizes.getD i 0).toNat_lt
    · right
      push Not at hpass
      exact hpass
  · rintro (hsmall | ⟨i, hi, hover⟩) hpass
    · intro i hi
      have hle := hpass i hi
      rw [Nat.mod_eq_of_lt (hsmall i hi)] at hle
      exact hle.trans (comparedLimit_le numTiers memSizes i)
    · exact absurd (hpass i hi) (Nat.not_le.mpr hover)

/-- Two clients that ask for `2 ^ 63` pages each. -/
def wrappingClients : List ClientConfig :=
  [⟨.uniform, [9223372036854775808, 0, 0]⟩, ⟨.uniform, [9223372036854775808, 0, 0]⟩]

/-- They pass on a server with a hundred pages a tier. -/
theorem wrapped_total_passes :
    ∃ server, parseServerConfig 3 [100, 100, 100] = some server ∧
      validateMemoryConfiguration server wrappingClients = true ∧
      ¬ ∀ i < 3, requested wrappingClients i ≤ (([100, 100, 100] : List SizeT).getD i 0).toNat :=
  ⟨_, rfl, rfl, fun h => absurd (h 0 (by decide)) (by decide)⟩

/-- **Configurations that fit pass** in a three-tier system, and in a two-tier system exactly when
no client asks for a page of the second tier. -/
theorem fitting_accepted_iff (tiers : numTiers = 2 ∨ numTiers = 3)
    (sizes : memSizes.length = numTiers)
    (fits : ∀ i < numTiers, requested clients i ≤ (memSizes.getD i 0).toNat) :
    (∃ server, parseServerConfig numTiers memSizes = some server ∧
        validateMemoryConfiguration server clients = true) ↔
      numTiers = 3 ∨ requested clients 1 = 0 := by
  obtain ⟨server, parsed⟩ : ∃ server, parseServerConfig numTiers memSizes = some server := by
    unfold parseServerConfig
    rw [if_neg (not_not.mpr sizes)]
    exact ⟨_, rfl⟩
  have hexact : ∀ i < numTiers, requested clients i % 2 ^ 64 = requested clients i := by
    intro i hi
    exact Nat.mod_eq_of_lt (Nat.lt_of_le_of_lt (fits i hi) (memSizes.getD i 0).toNat_lt)
  constructor
  · rintro ⟨server', parsed', hvalid⟩
    rw [validateMemoryConfiguration_iff tiers parsed'] at hvalid
    rcases tiers with rfl | rfl
    · -- the second total met the remote limit
      right
      have hle := hvalid 1 (by omega)
      rw [hexact 1 (by omega), comparedLimit, if_pos ⟨rfl, rfl⟩] at hle
      exact Nat.le_zero.mp hle
    · exact .inl rfl
  · intro h
    refine ⟨server, parsed, (validateMemoryConfiguration_iff tiers parsed clients).mpr ?_⟩
    intro i hi
    rw [hexact i hi, comparedLimit]
    split
    next hsecond =>
      obtain ⟨rfl, rfl⟩ := hsecond
      exact Nat.le_of_eq (h.resolve_left (by decide))
    next => exact fits i hi

/-- The two-tier example of the README asks for fifty of two hundred PMEM pages, and is refused. -/
theorem two_tier_example_refused :
    let clients : List ClientConfig := [⟨.uniform, [100, 50]⟩]
    (∀ i < 2, requested clients i ≤ (([500, 200] : List SizeT).getD i 0).toNat) ∧
      ∃ server, parseServerConfig 2 [500, 200] = some server ∧
        validateMemoryConfiguration server clients = false :=
  ⟨by decide, _, rfl, rfl⟩

/-- The three-tier example of the README. -/
theorem three_tier_example_accepted :
    ∃ server, parseServerConfig 3 [1000, 500, 200] = some server ∧
      validateMemoryConfiguration server
        [⟨.uniform, [100, 50, 25]⟩, ⟨.hot, [200, 100, 50]⟩] = true :=
  (fitting_accepted_iff (.inr rfl) rfl (by decide)).mpr (.inl rfl)

/-- Its totals are far below `2 ^ 64`, so what passes fits. -/
theorem three_tier_example_fits :
    ∃ server, parseServerConfig 3 [1000, 500, 200] = some server ∧
      (validateMemoryConfiguration server
          [⟨.uniform, [100, 50, 25]⟩, ⟨.hot, [200, 100, 50]⟩] = true →
        ∀ i < 3, requested [⟨.uniform, [100, 50, 25]⟩, ⟨.hot, [200, 100, 50]⟩] i ≤
          (([1000, 500, 200] : List SizeT).getD i 0).toNat) :=
  ⟨_, rfl, (validated_fits_iff (.inr rfl) rfl _).mpr (.inl (by decide))⟩

end Limits

end MemoryTiering
