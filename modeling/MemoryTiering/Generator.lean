import MemoryTiering.Lib.Rounding
import MemoryTiering.Lib.Table
import MemoryTiering.Server

/-!
# The access generator

`src/client/Generator.cpp`: how a client chooses its pages. A distribution is the range of what it
may return, so a call takes the value that was drawn; what `std::shuffle` leaves is an argument of
the constructor.
-/

set_option autoImplicit false

namespace MemoryTiering

/-- `std::uniform_int_distribution<size_t>`, with the range it has by default. -/
structure UniformIntDistribution where
  min : SizeT := 0
  max : SizeT := 0xFFFFFFFFFFFFFFFF
  deriving DecidableEq

/-- The range is closed. -/
def UniformIntDistribution.Draws (d : UniformIntDistribution) (draw : SizeT) : Prop :=
  d.min ≤ draw ∧ draw ≤ d.max

/-- `std::discrete_distribution<size_t>`, by the number of its weights. -/
structure DiscreteDistribution where
  weights : Nat := 0
  deriving DecidableEq

/-- One of the weights is chosen, and zero when there are none. -/
def DiscreteDistribution.Draws (d : DiscreteDistribution) (draw : SizeT) : Prop :=
  draw.toNat < d.weights ∨ (d.weights = 0 ∧ draw = 0)

structure MemoryAccessGenerator where
  pattern : AccessPattern
  memorySpaceSize : SizeT
  uniformDist : UniformIntDistribution := {}
  hotPages : Table SizeT SizeT := ∅
  hotDist : UniformIntDistribution := {}
  zipfDist : DiscreteDistribution := {}

namespace MemoryAccessGenerator

/-- The mantissa of the double nearest to `0.2`, in units of `2 ^ -55`. -/
def fifth : Nat := 7205759403792794

/-- `std::ceil(memory_space_size_ * 0.2)`. The size becomes a double, and the product one again. -/
def hotCount (memorySpaceSize : SizeT) : SizeT :=
  let product := Rounding.round 53 (Rounding.round 53 memorySpaceSize.toNat * fifth)
  UInt64.ofNat ((product + (2 ^ 55 - 1)) / 2 ^ 55)

/-- `all_pages` before the shuffle. -/
def allPages (memorySpaceSize : SizeT) : List SizeT :=
  (List.range memorySpaceSize.toNat).map UInt64.ofNat

/-- `hot_pages_[i] = all_pages[i]`, for every `i` below `hot_count`. No index is out of range
(`hotCount_le`). -/
def hotPagesOf (shuffled : List SizeT) : Nat → Table SizeT SizeT
  | 0 => ∅
  | i + 1 => (hotPagesOf shuffled i).insert (UInt64.ofNat i) (shuffled.getD i 0)

/-- The constructor. `shuffled` is `all_pages` after the shuffle. Of the weights of the Zipf
distribution only their number bounds what it returns. -/
def new (pattern : AccessPattern) (memorySpaceSize : SizeT) (shuffled : List SizeT) :
    MemoryAccessGenerator :=
  match pattern with
  | .uniform =>
    { pattern, memorySpaceSize, uniformDist := { min := 0, max := memorySpaceSize - 1 } }
  | .hot =>
    { pattern, memorySpaceSize
      hotPages := hotPagesOf shuffled (hotCount memorySpaceSize).toNat
      hotDist := { min := 0, max := hotCount memorySpaceSize - 1 } }
  | .zipfian => { pattern, memorySpaceSize, zipfDist := { weights := memorySpaceSize.toNat } }

/-- What the distribution `generatePid` asks may return. -/
def Draws (g : MemoryAccessGenerator) (draw : SizeT) : Prop :=
  match g.pattern with
  | .uniform => g.uniformDist.Draws draw
  | .hot => g.hotDist.Draws draw
  | .zipfian => g.zipfDist.Draws draw

/-- `generatePid`. A draw that is no key of `hot_pages_` gets an entry of zero. -/
def generatePid (g : MemoryAccessGenerator) (draw : SizeT) : SizeT × MemoryAccessGenerator :=
  match g.pattern with
  | .uniform => (draw, g)
  | .hot =>
    match g.hotPages.lookup draw with
    | some pid => (pid, g)
    | none => (0, { g with hotPages := g.hotPages.insert draw 0 })
  | .zipfian => (draw, g)

/-- The pages one call after the other chooses. -/
inductive Generates : MemoryAccessGenerator → List SizeT → Prop where
  | nil (g : MemoryAccessGenerator) : Generates g []
  | cons {g : MemoryAccessGenerator} {draw : SizeT} {pids : List SizeT} (drawn : g.Draws draw) :
      Generates (g.generatePid draw).2 pids → Generates g ((g.generatePid draw).1 :: pids)

end MemoryAccessGenerator

/-- The pages that a client's requests may name, one after the other: those its generator chooses
after some shuffle. Which of them it reads is another draw, by `rw_ratio`. -/
def Client.Requests (client : ClientConfig) (pids : List SizeT) : Prop :=
  ∃ shuffled : List SizeT,
    shuffled.Perm (MemoryAccessGenerator.allPages (clientPageSize client)) ∧
    (MemoryAccessGenerator.new client.pattern (clientPageSize client) shuffled).Generates pids

end MemoryTiering
