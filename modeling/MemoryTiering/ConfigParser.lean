import MemoryTiering.Common

/-!
# Accepted configurations

The checks of `src/common/ConfigParser.cpp` on numbers that are parsed already: the tier count of
`_parseBasicConfig`, the capacities of `_parseServerConfig`, the list lengths of
`_parseClientConfigs`, and `_validateMemoryConfiguration`. An `AcceptedConfig` is what `parse` lets
through to the server.
-/

set_option autoImplicit false

namespace MemoryTiering

/-- `_parseServerConfig`; `none` is `false`. -/
def parseServerConfig (numTiers : Nat) (memSizes : List SizeT) : Option ServerMemoryConfig :=
  if memSizes.length ≠ numTiers then none
  else some
    { numTiers
      localNuma := { capacity := memSizes.getD 0 0 }
      remoteNuma := { capacity := if numTiers = 3 then memSizes.getD 1 0 else 0 }
      pmem := { capacity := memSizes.getLastD 0 } }

/-- `tier_totals[i]` after the loops that add it up. -/
def tierTotal (clients : List ClientConfig) (i : Nat) : SizeT :=
  clients.foldl (fun total client => total + client.tier i) 0

/-- `tier_limits`, in the order of the array. -/
def tierLimits (server : ServerMemoryConfig) : List SizeT :=
  [server.localNuma.capacity, server.remoteNuma.capacity, server.pmem.capacity]

/-- `_validateMemoryConfiguration`. In a two-tier system the second total meets the remote limit. -/
def validateMemoryConfiguration (server : ServerMemoryConfig) (clients : List ClientConfig) :
    Bool :=
  (List.range server.numTiers).all fun i => tierTotal clients i ≤ (tierLimits server).getD i 0

/-- What `parse` returns true with. -/
structure AcceptedConfig where
  numTiers : Nat
  memSizes : List SizeT
  clients : List ClientConfig
  server : ServerMemoryConfig
  tiers : numTiers = 2 ∨ numTiers = 3
  parsed : parseServerConfig numTiers memSizes = some server
  sizes : ∀ client ∈ clients, client.tierSizes.length = numTiers
  valid : validateMemoryConfiguration server clients = true

/-- The parser sets capacities and leaves every count at zero. -/
theorem AcceptedConfig.server_eq (config : AcceptedConfig) :
    config.server.numTiers = config.numTiers ∧
      (∀ layer, (config.server.layer layer).count = 0) := by
  have hparsed := config.parsed
  unfold parseServerConfig at hparsed
  split at hparsed
  · cases hparsed
  · rw [← Option.some.inj hparsed]
    exact ⟨rfl, fun layer => by cases layer <;> rfl⟩

/-- The server has two tiers or three. -/
theorem AcceptedConfig.server_tiers (config : AcceptedConfig) :
    config.server.numTiers = 2 ∨ config.server.numTiers = 3 := by
  rw [config.server_eq.1]
  exact config.tiers

end MemoryTiering
