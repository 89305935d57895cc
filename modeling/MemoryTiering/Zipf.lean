import MemoryTiering.ClientConfigParser
import MemoryTiering.Generator
import Mathlib.Algebra.Field.Defs

/-!
# The Zipf skew

`--zipfs` on its way: `_parseClientConfigs` of `src/common/ConfigParser.cpp`, the loop over the
clients in `main.cpp`, `Client::Client` and the weights of `MemoryAccessGenerator`. Doubles are
exact here: weights are in a field `K`, and a skew is whatever its elements can be raised to.
-/

set_option autoImplicit false

namespace MemoryTiering

/-- What `std::shuffle` may do to a vector. -/
structure Shuffle (α : Type) where
  shuffle : List α → List α
  perm : ∀ l, (shuffle l).Perm l

/-- The shuffle that moves nothing. -/
def Shuffle.still (α : Type) : Shuffle α := ⟨id, fun l => .refl l⟩

/-- `ClientConfig`, with its `zipf_s`. -/
structure SkewedClientConfig (S : Type) extends ClientConfig where
  zipfS : S

/-- `parse`, with the option `--zipfs`: the loop of `_parseClientConfigs` stores it in each client,
and no check reads it. -/
def parseSkewed {S : Type} (zipfs : S) (numTiers : Nat) (memSizes : List SizeT)
    (patterns tierSizes : List Text) :
    Except StoulError (Option (ServerMemoryConfig × List (SkewedClientConfig S))) := do
  let parsed ← parse numTiers memSizes patterns tierSizes
  .ok (parsed.map fun (server, clients) =>
    (server, clients.map fun client => { client with zipfS := zipfs }))

section Weights

variable {K S : Type} [DivisionRing K] [Pow K S]

/-- The loop that fills `zipf_prob_`. -/
def zipfWeights (n : Nat) (zipfS : S) : List K :=
  (List.range' 1 n).map fun i : Nat => 1 / (i : K) ^ zipfS

/-- `MemoryAccessGenerator`, with its `zipf_prob_`. -/
structure ZipfGenerator (K : Type) extends MemoryAccessGenerator where
  zipfProb : List K

variable [One S]

/-- The constructor, and the default of its last argument. -/
def ZipfGenerator.new (pattern : AccessPattern) (memorySpaceSize : SizeT)
    (pages : Shuffle SizeT) (weights : Shuffle K) (zipfS : S := 1) : ZipfGenerator K where
  toMemoryAccessGenerator :=
    .new pattern memorySpaceSize (pages.shuffle (MemoryAccessGenerator.allPages memorySpaceSize))
  zipfProb :=
    match pattern with
    | .uniform => []
    | .hot => []
    | .zipfian => weights.shuffle (zipfWeights memorySpaceSize.toNat zipfS)

/-- What a client is made of, beside the buffer it shares. -/
structure Client (K : Type) where
  clientId : Nat
  runningTime : SizeT
  generator : ZipfGenerator K
  rwRatio : K

variable (S) in
/-- The constructor. It hands `generator_` two arguments. -/
def Client.new (clientId : Nat) (runningTime memorySpaceSize : SizeT) (pattern : AccessPattern)
    (rwRatio : K) (pages : Shuffle SizeT) (weights : Shuffle K) : Client K where
  clientId
  runningTime
  generator := ZipfGenerator.new (S := S) pattern memorySpaceSize pages weights
  rwRatio

/-- The clients that `main` makes. Each generator shuffles in its own way. -/
def mainClients (runningTime : SizeT) (rwRatio : K) (pages : Nat → Shuffle SizeT)
    (weights : Nat → Shuffle K) (clientConfigs : List (SkewedClientConfig S)) : List (Client K) :=
  clientConfigs.mapIdx fun i config =>
    .new S i runningTime (clientPageSize config.toClientConfig) config.pattern rwRatio (pages i)
      (weights i)

end Weights

end MemoryTiering
