import MemoryTiering.Scanner
import Mathlib.Data.Rat.Defs

/-!
# Policies

`classifyPage`, `classifyHotPage` and `classifyColdPage` of `src/server/Scanner.cpp`, under the
three policies of `include/common/Common.hpp`. Each of them reads the clock for itself, so a round
of the scanner takes up to three readings before it migrates (`Scanner.classification`).
-/

set_option autoImplicit false

namespace MemoryTiering

structure LRUPolicyConfig where
  hotThresholdMs : SizeT
  coldThresholdMs : SizeT
  deriving DecidableEq

structure FrequencyPolicyConfig where
  hotAccessCount : SizeT
  coldAccessCount : SizeT
  deriving DecidableEq

/-- The weights are doubles in the source, and exact here. -/
structure HybridPolicyConfig where
  hotThresholdMs : SizeT
  coldThresholdMs : SizeT
  hotAccessCount : SizeT
  coldAccessCount : SizeT
  weightRecency : ℚ
  weightFrequency : ℚ
  deriving DecidableEq

/-- The variant `config`. The parser sets `policy_type` to the name of the alternative it holds. -/
inductive PolicyVariant where
  | lru (config : LRUPolicyConfig)
  | frequency (config : FrequencyPolicyConfig)
  | hybrid (config : HybridPolicyConfig)
  deriving DecidableEq

namespace Scanner

/-- `time_since_last_access`, a difference of `uint64_t`. -/
def timeSinceLastAccess (now : Nat) (lastAccessTime : UInt64) : UInt64 :=
  milliseconds now - lastAccessTime

/-- `recency_score + frequency_score >= (weight_recency + weight_frequency) / 2` -/
def hybridScore (config : HybridPolicyConfig) (recent frequent : Bool) : Bool :=
  let recencyScore := if recent then config.weightRecency else 0
  let frequencyScore := if frequent then config.weightFrequency else 0
  (config.weightRecency + config.weightFrequency) / 2 ≤ recencyScore + frequencyScore

def classifyHotPage (policy : PolicyVariant) (now : Nat) (lastAccessTime : UInt64)
    (accessCount : UInt32) : Bool :=
  let age := timeSinceLastAccess now lastAccessTime
  match policy with
  | .lru lru => age ≤ lru.hotThresholdMs
  | .frequency freq => freq.hotAccessCount ≤ accessCount.toUInt64
  | .hybrid hybrid =>
    hybridScore hybrid (age ≤ hybrid.hotThresholdMs)
      (hybrid.hotAccessCount ≤ accessCount.toUInt64)

def classifyColdPage (policy : PolicyVariant) (now : Nat) (lastAccessTime : UInt64)
    (accessCount : UInt32) : Bool :=
  let age := timeSinceLastAccess now lastAccessTime
  match policy with
  | .lru lru => lru.coldThresholdMs ≤ age
  | .frequency freq => accessCount.toUInt64 ≤ freq.coldAccessCount
  | .hybrid hybrid =>
    hybridScore hybrid (hybrid.coldThresholdMs ≤ age)
      (accessCount.toUInt64 ≤ hybrid.coldAccessCount)

/-- What `steady_clock::now()` shows in one round: in the two tests of `classifyPage`, and in the
second `classifyHotPage`, which only a remote page meets. -/
structure Readings where
  hot : Nat
  cold : Nat
  again : Nat
  deriving DecidableEq

def classifyPage (policy : PolicyVariant) (readings : Readings) (lastAccessTime : UInt64)
    (accessCount : UInt32) : PageStatus :=
  if classifyHotPage policy readings.hot lastAccessTime accessCount then .hot
  else if !classifyColdPage policy readings.cold lastAccessTime accessCount then .warm
  else .cold

/-- What a round of the scanner is told under a policy. -/
def classification (policy : PolicyVariant) (readings : Readings) : Classification where
  classifyPage := classifyPage policy readings
  classifyHotPage := classifyHotPage policy readings.again

end Scanner

end MemoryTiering
