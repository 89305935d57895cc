import MemoryTiering.ClientConfigParser
import MemoryTiering.Policy

/-!
# The command line

`ConfigParser::parse` of `src/common/ConfigParser.cpp`, from the values of its options on:
`_parseBasicConfig`, with the number of tiers and the three policies, and the checks that follow.
Options that are only stored are left out.
-/

set_option autoImplicit false

namespace MemoryTiering

/-- What the options hold, the numbers among them read already. -/
structure Options where
  numTiers : Nat
  policyType : Text
  hotThreshold : SizeT
  coldThreshold : SizeT
  hotCount : SizeT
  coldCount : SizeT
  recencyWeight : ℚ
  frequencyWeight : ℚ
  memSizes : List SizeT
  patterns : List Text
  clientTierSizes : List Text

/-- The chain of tests on `policy_type`. -/
def parsePolicy (options : Options) : Option PolicyVariant :=
  if options.policyType = "lru".toList then
    some (.lru ⟨options.hotThreshold, options.coldThreshold⟩)
  else if options.policyType = "frequency".toList then
    some (.frequency ⟨options.hotCount, options.coldCount⟩)
  else if options.policyType = "hybrid".toList then
    some (.hybrid ⟨options.hotThreshold, options.coldThreshold, options.hotCount,
      options.coldCount, options.recencyWeight, options.frequencyWeight⟩)
  else none

/-- `_parseBasicConfig`; `none` is `false`. -/
def parseBasicConfig (options : Options) : Option PolicyVariant :=
  if options.numTiers < 2 ∨ 3 < options.numTiers then none else parsePolicy options

/-- `parse`. Its later part checks the number of tiers once more. -/
def parseOptions (options : Options) :
    Except StoulError (Option (PolicyVariant × ServerMemoryConfig × List ClientConfig)) :=
  match parseBasicConfig options with
  | none => .ok none
  | some policy => do
    let parsed ← parse options.numTiers options.memSizes options.patterns options.clientTierSizes
    .ok (parsed.map fun (server, clients) => (policy, server, clients))

end MemoryTiering
