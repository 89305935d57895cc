import MemoryTiering.Zipf
import MemoryTiering.Lib.Fallible
import Mathlib.Analysis.SpecialFunctions.Pow.Real

/-!
# The skew of the workload

The product of the weights is a power of a factorial, and its exponent is the skew. So weights of
two skews are the same up to order only where the skews are equal, or where there is one weight
(`zipfWeights_perm_iff`). The skew on the command line reaches the client's configuration and no
further: the generator is made with the default, and the workload has the skew that was asked for
exactly if that is the default too, or nobody can tell (`skew_reaches_workload_iff`).
-/

set_option autoImplicit false

namespace MemoryTiering

open Fallible

/-! ## Weights -/

theorem prod_zipfWeights (n : ℕ) (s : ℝ) :
    (zipfWeights n s : List ℝ).prod = 1 / (n.factorial : ℝ) ^ s := by
  unfold zipfWeights
  induction n with
  | zero => simp
  | succ n ih =>
    have hpower : ((n + 1).factorial : ℝ) ^ s = (n.factorial : ℝ) ^ s * ((1 + n : ℕ) : ℝ) ^ s := by
      rw [Nat.factorial_succ, Nat.mul_comm, Nat.add_comm n 1, Nat.cast_mul,
        Real.mul_rpow (Nat.cast_nonneg _) (Nat.cast_nonneg _)]
    rw [List.range'_1_concat, List.map_append, List.prod_append, ih, List.map_singleton,
      List.prod_singleton, hpower, one_div_mul_one_div]

/-- **Weights tell their skew**, if there are two of them. -/
theorem zipfWeights_perm_iff {n : ℕ} (pages : 1 ≤ n) {r s : ℝ} :
    (zipfWeights n r : List ℝ).Perm (zipfWeights n s) ↔ r = s ∨ n = 1 := by
  constructor
  · intro hperm
    rcases Nat.eq_or_lt_of_le pages with hone | hmore
    · exact .inr hone.symm
    · have hprod := hperm.prod_eq
      rw [prod_zipfWeights, prod_zipfWeights] at hprod
      have hbase : (1 : ℝ) < n.factorial := by
        exact_mod_cast Nat.one_lt_factorial.mpr hmore
      rw [one_div, one_div, inv_inj] at hprod
      have hpos : (0 : ℝ) < n.factorial := zero_lt_one.trans hbase
      exact .inl ((Real.rpow_right_inj hpos hbase.ne').mp hprod)
  · rintro (rfl | rfl)
    · exact .refl _
    · have hone : ∀ s : ℝ, (zipfWeights 1 s : List ℝ) = [1] := by
        intro s
        simp [zipfWeights]
      rw [hone, hone]

/-! ## The skew on its way -/

section Workload

variable {numTiers : Nat} {memSizes : List SizeT} {patterns tierSizes : List Text} {zipfs : ℝ}
  {server : ServerMemoryConfig} {clients : List (SkewedClientConfig ℝ)}

/-- The parser stores the skew in every client. -/
theorem zipfS_of_parsed
    (accepted : parseSkewed zipfs numTiers memSizes patterns tierSizes =
      .ok (some (server, clients))) {config : SkewedClientConfig ℝ} (mem : config ∈ clients) :
    config.zipfS = zipfs := by
  obtain ⟨parsed, -, h⟩ := bind_eq_ok.mp accepted
  obtain ⟨⟨server', clients'⟩, -, heq⟩ := Option.map_eq_some_iff.mp (Except.ok.inj h)
  cases heq
  obtain ⟨client, -, rfl⟩ := List.mem_map.mp mem
  rfl

/-- A Zipf generator has the weights of the default skew, in some order. -/
theorem zipfProb_of_made {runningTime : SizeT} {rwRatio : ℝ} {pages : Nat → Shuffle SizeT}
    {weights : Nat → Shuffle ℝ} {i : Nat} {config : SkewedClientConfig ℝ} {client : Client ℝ}
    (configured : clients[i]? = some config)
    (made : (mainClients runningTime rwRatio pages weights clients)[i]? = some client)
    (zipfian : config.pattern = .zipfian) :
    client.generator.zipfProb.Perm
      (zipfWeights (clientPageSize config.toClientConfig).toNat (1 : ℝ)) := by
  unfold mainClients at made
  rw [List.getElem?_mapIdx, configured, Option.map_some] at made
  cases made
  unfold Client.new ZipfGenerator.new
  rw [zipfian]
  exact (weights i).perm _

/-- **The skew reaches the workload** of an accepted configuration's client exactly if it is the
default, or the client has one page. -/
theorem skew_reaches_workload_iff
    (accepted : parseSkewed zipfs numTiers memSizes patterns tierSizes =
      .ok (some (server, clients)))
    (runningTime : SizeT) (rwRatio : ℝ) (pages : Nat → Shuffle SizeT) (weights : Nat → Shuffle ℝ)
    {i : Nat} {config : SkewedClientConfig ℝ} {client : Client ℝ}
    (configured : clients[i]? = some config)
    (made : (mainClients runningTime rwRatio pages weights clients)[i]? = some client)
    (zipfian : config.pattern = .zipfian)
    (nonempty : 1 ≤ (clientPageSize config.toClientConfig).toNat) :
    config.zipfS = zipfs ∧
      (client.generator.zipfProb.Perm
          (zipfWeights (clientPageSize config.toClientConfig).toNat zipfs) ↔
        zipfs = 1 ∨ (clientPageSize config.toClientConfig).toNat = 1) := by
  refine ⟨zipfS_of_parsed accepted (List.mem_of_getElem? configured), ?_⟩
  have hmade := zipfProb_of_made configured made zipfian
  rw [hmade.congr_left, zipfWeights_perm_iff nonempty]
  exact or_congr_left eq_comm

/-- Two pages and a skew of two: the second weight is a half, and not a quarter. -/
theorem skew_of_two_lost : ∃ server clients config client,
    parseSkewed (2 : ℝ) 3 [1, 1, 1] ["zipfian".toList] ["1 1 0".toList] =
      .ok (some (server, clients)) ∧
    clients[0]? = some config ∧ config.pattern = .zipfian ∧ config.zipfS = 2 ∧
    (clientPageSize config.toClientConfig).toNat = 2 ∧
    (mainClients 1 (1 : ℝ) (fun _ => .still _) (fun _ => .still _) clients)[0]? = some client ∧
    ¬ client.generator.zipfProb.Perm (zipfWeights 2 (2 : ℝ)) := by
  refine ⟨_, _, _, _, rfl, rfl, rfl, rfl, rfl, rfl, ?_⟩
  intro hperm
  have hskews : (zipfWeights 2 (1 : ℝ) : List ℝ).Perm (zipfWeights 2 (2 : ℝ)) := hperm
  rcases (zipfWeights_perm_iff (by decide)).mp hskews with hskew | hpages
  · norm_num at hskew
  · cases hpages

theorem default_skew_reaches_workload : ∃ server clients config client,
    parseSkewed (1 : ℝ) 3 [1, 1, 1] ["zipfian".toList] ["1 1 0".toList] =
      .ok (some (server, clients)) ∧
    clients[0]? = some config ∧ (clientPageSize config.toClientConfig).toNat = 2 ∧
    (mainClients 1 (1 : ℝ) (fun _ => .still _) (fun _ => .still _) clients)[0]? = some client ∧
    client.generator.zipfProb.Perm
      (zipfWeights (clientPageSize config.toClientConfig).toNat (1 : ℝ)) := by
  have hclient : ∃ server clients config client,
      parseSkewed (1 : ℝ) 3 [1, 1, 1] ["zipfian".toList] ["1 1 0".toList] =
        .ok (some (server, clients)) ∧
      clients[0]? = some config ∧ config.pattern = .zipfian ∧
      (clientPageSize config.toClientConfig).toNat = 2 ∧
      (mainClients 1 (1 : ℝ) (fun _ => .still _) (fun _ => .still _) clients)[0]? =
        some client := ⟨_, _, _, _, rfl, rfl, rfl, rfl, rfl⟩
  obtain ⟨server, clients, config, client, accepted, configured, zipfian, pages, made⟩ := hclient
  refine ⟨server, clients, config, client, accepted, configured, pages, made, ?_⟩
  have hreaches := skew_reaches_workload_iff accepted 1 1 _ _ configured made zipfian (by omega)
  exact hreaches.2.mpr (.inl rfl)

end Workload

end MemoryTiering
