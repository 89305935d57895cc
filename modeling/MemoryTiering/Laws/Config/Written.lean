import MemoryTiering.CommandLine
import MemoryTiering.Laws.Config.Grammar

/-!
# Configurations written out

The parser lets only accepted configurations through (`parse_accepted`), and it lets all of them
through: written with plain numerals, single spaces and the names of patterns and policies, every
accepted configuration comes back from the parser as it was, under every policy
(`options_reach_accepted`). So what holds of accepted configurations holds of what option values can
set up, and of nothing else. How a command line becomes option values is up to cxxopts, and left
out. It puts an entry at least into every list, so the accepted configurations without a client are
none that a command line gives.
-/

set_option autoImplicit false

namespace MemoryTiering

open Fallible

/-- The decimal digits of a size. -/
def numeral (size : SizeT) : Text := Nat.toDigits 10 size.toNat

theorem numeral_spec (size : SizeT) : Numeral (numeral size) size where
  digits_ne := Nat.toDigits_ne_nil
  digit _ mem := Nat.isDigit_of_mem_toDigits (by decide) (by decide) mem
  value := Nat.ofDigitChars_ten_toDigits

/-- A client's entry of `--client-tier-sizes`. -/
def ClientConfig.sizesText (client : ClientConfig) : Text :=
  [' '].intercalate (client.tierSizes.map numeral)

/-- The grammar has a client say what is written for it. -/
theorem ClientConfig.describes {numTiers : Nat} {client : ClientConfig}
    (count : client.tierSizes.length = numTiers) :
    Describes numTiers (client.pattern.word, client.sizesText) client where
  pattern := rfl
  count := count
  sizes := by
    refine ⟨client.tierSizes.map numeral, rfl, ?_⟩
    rw [List.forall₂_map_left_iff, List.forall₂_same]
    exact fun size _ => numeral_spec size

namespace PolicyVariant

/-- The name of the policy. -/
def word : PolicyVariant → Text
  | .lru _ => "lru".toList
  | .frequency _ => "frequency".toList
  | .hybrid _ => "hybrid".toList

end PolicyVariant

/-- The options that set up a configuration, under a policy. What the policy does not read is as the
parser has it by default. -/
def AcceptedConfig.options (config : AcceptedConfig) (policy : PolicyVariant) : Options where
  numTiers := config.numTiers
  policyType := policy.word
  hotThreshold :=
    match policy with
    | .lru lru => lru.hotThresholdMs
    | .frequency _ => 100
    | .hybrid hybrid => hybrid.hotThresholdMs
  coldThreshold :=
    match policy with
    | .lru lru => lru.coldThresholdMs
    | .frequency _ => 1000
    | .hybrid hybrid => hybrid.coldThresholdMs
  hotCount :=
    match policy with
    | .lru _ => 10
    | .frequency freq => freq.hotAccessCount
    | .hybrid hybrid => hybrid.hotAccessCount
  coldCount :=
    match policy with
    | .lru _ => 2
    | .frequency freq => freq.coldAccessCount
    | .hybrid hybrid => hybrid.coldAccessCount
  recencyWeight :=
    match policy with
    | .hybrid hybrid => hybrid.weightRecency
    | _ => 1 / 2
  frequencyWeight :=
    match policy with
    | .hybrid hybrid => hybrid.weightFrequency
    | _ => 1 / 2
  memSizes := config.memSizes
  patterns := config.clients.map fun client => client.pattern.word
  clientTierSizes := config.clients.map ClientConfig.sizesText

section Written

variable {config : AcceptedConfig} {policy : PolicyVariant} {numTiers : Nat}

theorem parsePolicy_options : parsePolicy (config.options policy) = some policy := by
  cases policy <;> rfl

/-- Clients come back as they were written. -/
theorem parseClientConfigs_written {clients : List ClientConfig}
    (sizes : ∀ client ∈ clients, client.tierSizes.length = numTiers) :
    parseClientConfigs numTiers (clients.map fun client => client.pattern.word)
      (clients.map ClientConfig.sizesText) = .ok (some clients) := by
  have lengths : (clients.map fun client => client.pattern.word).length =
      (clients.map ClientConfig.sizesText).length := by simp
  unfold parseClientConfigs
  rw [if_neg (not_not.mpr lengths)]
  apply parseEachClient_of_described
  rw [List.zip_map', List.forall₂_map_left_iff, List.forall₂_same]
  exact fun client mem => ClientConfig.describes (sizes client mem)

/-- **A configuration comes back as it was written.** -/
theorem parseOptions_written (config : AcceptedConfig) (policy : PolicyVariant) :
    parseOptions (config.options policy) = .ok (some (policy, config.server, config.clients)) := by
  have within : ¬ (config.numTiers < 2 ∨ 3 < config.numTiers) := by
    have tiers := config.tiers
    omega
  have basic : parseBasicConfig (config.options policy) = some policy :=
    (if_neg within).trans parsePolicy_options
  have parsed : parse config.numTiers config.memSizes
      (config.clients.map fun client => client.pattern.word)
      (config.clients.map ClientConfig.sizesText) = .ok (some (config.server, config.clients)) := by
    unfold parse
    rw [if_neg within, config.parsed]
    dsimp only
    rw [parseClientConfigs_written config.sizes, ok_bind]
    dsimp only
    rw [if_pos config.valid]
  unfold parseOptions
  rw [basic]
  exact bind_eq_ok.mpr ⟨_, parsed, rfl⟩

/-- **Option values reach the accepted configurations**, all of them, under every policy, and no
others, however the sizes were spelled. -/
theorem options_reach_accepted :
    (∀ (config : AcceptedConfig) policy, parseOptions (config.options policy) =
      .ok (some (policy, config.server, config.clients))) ∧
    ∀ options policy server clients,
      parseOptions options = .ok (some (policy, server, clients)) →
        ∃ config : AcceptedConfig, config.server = server ∧ config.clients = clients ∧
          parseOptions (config.options policy) = parseOptions options := by
  refine ⟨parseOptions_written, fun options policy server clients parsed => ?_⟩
  have whole := parsed
  unfold parseOptions at parsed
  split at parsed
  · cases parsed
  · obtain ⟨result, hresult, others⟩ := bind_eq_ok.mp parsed
    obtain ⟨⟨server', clients'⟩, rfl, heq⟩ := Option.map_eq_some_iff.mp (Except.ok.inj others)
    cases heq
    obtain ⟨config, _, _, rfl, rfl⟩ := parse_accepted hresult
    exact ⟨config, rfl, rfl, (parseOptions_written config policy).trans whole.symm⟩

end Written

end MemoryTiering
