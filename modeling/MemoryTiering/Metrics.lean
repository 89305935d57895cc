import MemoryTiering.Common

/-!
# Metrics

The counters of `include/server/Metrics.hpp` that the page table moves. They are 64 bits wide and
wrap. The latency histogram and the periodical report are not read by the page table.
-/

set_option autoImplicit false

namespace MemoryTiering

structure Metrics where
  localAccessCount : UInt64 := 0
  remoteAccessCount : UInt64 := 0
  pmemAccessCount : UInt64 := 0
  localToRemoteCount : UInt64 := 0
  remoteToLocalCount : UInt64 := 0
  pmemToRemoteCount : UInt64 := 0
  remoteToPmemCount : UInt64 := 0
  localToPmemCount : UInt64 := 0
  pmemToLocalCount : UInt64 := 0
  totalLatency : UInt64 := 0
  deriving DecidableEq, Repr

namespace Metrics

def incrementLocalAccess (m : Metrics) : Metrics :=
  { m with localAccessCount := m.localAccessCount + 1 }

def incrementRemoteAccess (m : Metrics) : Metrics :=
  { m with remoteAccessCount := m.remoteAccessCount + 1 }

def incrementPmemAccess (m : Metrics) : Metrics :=
  { m with pmemAccessCount := m.pmemAccessCount + 1 }

def incrementLocalToRemote (m : Metrics) : Metrics :=
  { m with localToRemoteCount := m.localToRemoteCount + 1 }

def incrementRemoteToLocal (m : Metrics) : Metrics :=
  { m with remoteToLocalCount := m.remoteToLocalCount + 1 }

def incrementPmemToRemote (m : Metrics) : Metrics :=
  { m with pmemToRemoteCount := m.pmemToRemoteCount + 1 }

def incrementRemoteToPmem (m : Metrics) : Metrics :=
  { m with remoteToPmemCount := m.remoteToPmemCount + 1 }

def incrementLocalToPmem (m : Metrics) : Metrics :=
  { m with localToPmemCount := m.localToPmemCount + 1 }

def incrementPmemToLocal (m : Metrics) : Metrics :=
  { m with pmemToLocalCount := m.pmemToLocalCount + 1 }

def recordAccessLatency (m : Metrics) (latency : UInt64) : Metrics :=
  { m with totalLatency := m.totalLatency + latency }

/-- The switch at the end of `accessPage`. -/
def incrementAccess (m : Metrics) : PageLayer → Metrics
  | .numaLocal => m.incrementLocalAccess
  | .numaRemote => m.incrementRemoteAccess
  | .pmem => m.incrementPmemAccess

/-- The chain of tests at the end of `migratePage`; a move within a layer counts nowhere. -/
def incrementMigration (m : Metrics) : PageLayer → PageLayer → Metrics
  | .numaLocal, .numaRemote => m.incrementLocalToRemote
  | .numaLocal, .pmem => m.incrementLocalToPmem
  | .numaRemote, .numaLocal => m.incrementRemoteToLocal
  | .numaRemote, .pmem => m.incrementRemoteToPmem
  | .pmem, .numaLocal => m.incrementPmemToLocal
  | .pmem, .numaRemote => m.incrementPmemToRemote
  | .numaLocal, .numaLocal => m
  | .numaRemote, .numaRemote => m
  | .pmem, .pmem => m

/-- All accesses counted so far. -/
def accesses (m : Metrics) : UInt64 := m.localAccessCount + m.remoteAccessCount + m.pmemAccessCount

/-! ## Accesses -/

/-- Each access counts once, whatever its layer. -/
theorem accesses_incrementAccess (m : Metrics) (layer : PageLayer) :
    (m.incrementAccess layer).accesses = m.accesses + 1 := by
  cases layer <;>
    simp only [incrementAccess, accesses, incrementLocalAccess, incrementRemoteAccess,
      incrementPmemAccess, add_assoc, add_comm, add_left_comm]

/-- Migrations count no access. -/
theorem accesses_incrementMigration (m : Metrics) (current target : PageLayer) :
    (m.incrementMigration current target).accesses = m.accesses := by
  cases current <;> cases target <;> rfl

end Metrics

end MemoryTiering
