import Mathlib.Data.UInt
import MemoryTiering.Lib.Heap

/-!
# Shared types

The types of `include/common/Common.hpp`, and the ways a run of the program can stop short.
-/

set_option autoImplicit false

namespace MemoryTiering

open Pointer

/-- `size_t`, 64 bits wide as `uint64_t` is. -/
abbrev SizeT := UInt64

/-- A page's id in the page table. -/
abbrev PageId := SizeT

/-- The asserts of the server. The Makefile never sets `NDEBUG`, so a failing one aborts. -/
inductive Assertion where
  /-- `assert(node_ptr && "Cannot remove nullptr")` -/
  | removeNullptr
  /-- `assert(hand_ && "Clock ring is empty")` -/
  | ringEmpty
  /-- `assert(local_cache_ring_->insert(current_index, node) && "Insert into cache ring fail")` -/
  | fillInsert
  /-- `assert(local_cache_ring_->insert(page_index, node))` -/
  | migrateInsert
  deriving DecidableEq, Repr

/-- Why a call does not return. -/
inductive Fault where
  | assertion (which : Assertion)
  /-- A null pointer was dereferenced. -/
  | nullDeref
  /-- An object was read, written or deleted after its `delete`. -/
  | useAfterFree (node : Addr)
  /-- The allocator refused: `std::bad_alloc`. -/
  | badAlloc
  /-- The loop was still running when the model's fuel ran out. -/
  | outOfFuel
  deriving DecidableEq, Repr

inductive OperationType where
  | read
  | write
  | endOp
  deriving DecidableEq, Repr

inductive AccessPattern where
  | uniform
  | hot
  | zipfian
  deriving DecidableEq, Repr

inductive PageLayer where
  | numaLocal
  | numaRemote
  | pmem
  deriving DecidableEq, Repr

/-- One tier's occupancy. -/
structure LayerInfo where
  count : SizeT := 0
  capacity : SizeT := 0
  deriving DecidableEq, Repr

def LayerInfo.isFull (info : LayerInfo) : Bool := info.capacity ≤ info.count

/-- A client's access pattern and the pages it asks for in each tier. -/
structure ClientConfig where
  pattern : AccessPattern
  tierSizes : List SizeT
  deriving DecidableEq, Repr

/-- `client.tier_sizes[i]`. The parser lets only lists of `num_tiers` sizes through, so no index
the server uses is out of range. -/
def ClientConfig.tier (client : ClientConfig) (i : Nat) : SizeT := client.tierSizes.getD i 0

/-- A message: which client, which of its pages, where in the page, and what to do there. -/
structure ClientMessage where
  clientId : Nat
  pid : SizeT
  pOffset : SizeT
  opType : OperationType
  deriving DecidableEq, Repr

/-- The server's memory tiers. -/
structure ServerMemoryConfig where
  numTiers : Nat
  localNuma : LayerInfo := {}
  remoteNuma : LayerInfo := {}
  pmem : LayerInfo := {}
  deriving DecidableEq, Repr

/-- The tier a layer names. -/
def ServerMemoryConfig.layer (config : ServerMemoryConfig) : PageLayer → LayerInfo
  | .numaLocal => config.localNuma
  | .numaRemote => config.remoteNuma
  | .pmem => config.pmem

/-- A write through a pointer to the tier a layer names. -/
def ServerMemoryConfig.modify (config : ServerMemoryConfig) (f : LayerInfo → LayerInfo) :
    PageLayer → ServerMemoryConfig
  | .numaLocal => { config with localNuma := f config.localNuma }
  | .numaRemote => { config with remoteNuma := f config.remoteNuma }
  | .pmem => { config with pmem := f config.pmem }

/-! ## Tiers -/

theorem ServerMemoryConfig.layer_modify (config : ServerMemoryConfig) (f : LayerInfo → LayerInfo)
    (l m : PageLayer) :
    (config.modify f l).layer m = if m = l then f (config.layer m) else config.layer m := by
  cases l <;> cases m <;> rfl

@[simp] theorem ServerMemoryConfig.numTiers_modify (config : ServerMemoryConfig)
    (f : LayerInfo → LayerInfo) (l : PageLayer) :
    (config.modify f l).numTiers = config.numTiers := by
  cases l <;> rfl

theorem LayerInfo.isFull_iff {info : LayerInfo} :
    info.isFull = true ↔ info.capacity.toNat ≤ info.count.toNat := by
  rw [isFull, decide_eq_true_iff, UInt64.le_iff_toNat_le]

theorem LayerInfo.isFull_eq_false_iff {info : LayerInfo} :
    info.isFull = false ↔ info.count.toNat < info.capacity.toNat := by
  rw [← Bool.not_eq_true, isFull_iff, Nat.not_le]

/-! ## Counting in 64 bits -/

theorem SizeT.toNat_ofNat {n : Nat} (h : n < 2 ^ 64) : (UInt64.ofNat n).toNat = n :=
  UInt64.toNat_ofNat_of_lt' h

/-- A count below some other 64-bit value does not wrap when it goes up. -/
theorem SizeT.toNat_succ {a : SizeT} (h : a.toNat + 1 < 2 ^ 64) : (a + 1).toNat = a.toNat + 1 := by
  rw [UInt64.toNat_add, UInt64.toNat_one, Nat.mod_eq_of_lt h]

/-- A count above zero does not wrap when it goes down. -/
theorem SizeT.toNat_pred {a : SizeT} (h : 0 < a.toNat) : (a - 1).toNat = a.toNat - 1 := by
  have hlt := a.toNat_lt
  rw [UInt64.toNat_sub, UInt64.toNat_one]
  omega

/-- A sum that fits is the sum. -/
theorem SizeT.toNat_add {a b : SizeT} (h : a.toNat + b.toNat < 2 ^ 64) :
    (a + b).toNat = a.toNat + b.toNat := by
  rw [UInt64.toNat_add, Nat.mod_eq_of_lt h]

end MemoryTiering
