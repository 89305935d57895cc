import MemoryTiering.Metrics
import Mathlib.Data.Rat.Defs

/-!
# The periodical report

`Metrics::reset` and `Metrics::periodicalMetrics` of `src/server/Metrics.cpp`, with the
`last_period_*` members they work on. A report moves the baselines before it tries to open the
file, so it moves them whether or not a row is written. The file is the list of its lines; other
parts of the server touch the counters between the calls.
-/

set_option autoImplicit false

namespace MemoryTiering

/-- `Metrics`, with its values at the last report. -/
structure PeriodicalMetrics extends Metrics where
  lastPeriodLocalAccessCount : UInt64 := 0
  lastPeriodRemoteAccessCount : UInt64 := 0
  lastPeriodPmemAccessCount : UInt64 := 0
  lastPeriodLatency : UInt64 := 0
  lastPeriodLocalToRemoteCount : UInt64 := 0
  lastPeriodRemoteToLocalCount : UInt64 := 0
  lastPeriodPmemToRemoteCount : UInt64 := 0
  lastPeriodRemoteToPmemCount : UInt64 := 0
  lastPeriodLocalToPmemCount : UInt64 := 0
  lastPeriodPmemToLocalCount : UInt64 := 0
  deriving DecidableEq, Repr

/-- The deltas since the last period. -/
structure Period where
  currentLatency : UInt64
  currentLocalAccessCount : UInt64
  currentRemoteAccessCount : UInt64
  currentPmemAccessCount : UInt64
  currentLocalToRemoteCount : UInt64
  currentRemoteToLocalCount : UInt64
  currentPmemToRemoteCount : UInt64
  currentRemoteToPmemCount : UInt64
  currentLocalToPmemCount : UInt64
  currentPmemToLocalCount : UInt64
  deriving DecidableEq, Repr

namespace Period

def currentAccess (p : Period) : UInt64 :=
  p.currentLocalAccessCount + p.currentRemoteAccessCount + p.currentPmemAccessCount

/-- Accesses a second; doubles are exact here. -/
def throughput (p : Period) : ℚ :=
  if 0 < p.currentLatency then (p.currentAccess.toNat : ℚ) * 1000000000 / p.currentLatency.toNat
  else 0

/-- Nanoseconds an access. `none` is the infinity of a division by zero accesses. -/
def avgLatency (p : Period) : Option ℚ :=
  if 0 < p.currentLatency then
    if p.currentAccess = 0 then none
    else some ((p.currentLatency.toNat : ℚ) / p.currentAccess.toNat)
  else some 0

end Period

/-- A row of the file: its cells, the counts of the period among them. -/
structure ReportRow where
  avgLatency : Option ℚ
  throughput : ℚ
  period : Period
  totalAccess : UInt64
  localCount : SizeT
  remoteCount : SizeT
  pmemCount : SizeT
  interval : Int
  deriving DecidableEq, Repr

inductive ReportLine where
  | header
  | row (row : ReportRow)
  deriving DecidableEq, Repr

namespace PeriodicalMetrics

/-- `reset` sets the ten counters to zero, and nothing else. -/
def reset (m : PeriodicalMetrics) : PeriodicalMetrics :=
  { m with
    localAccessCount := 0
    remoteAccessCount := 0
    pmemAccessCount := 0
    localToRemoteCount := 0
    remoteToLocalCount := 0
    pmemToRemoteCount := 0
    remoteToPmemCount := 0
    localToPmemCount := 0
    pmemToLocalCount := 0
    totalLatency := 0 }

/-- The `current_*` variables. -/
def currentPeriod (m : PeriodicalMetrics) : Period where
  currentLatency := m.totalLatency - m.lastPeriodLatency
  currentLocalAccessCount := m.localAccessCount - m.lastPeriodLocalAccessCount
  currentRemoteAccessCount := m.remoteAccessCount - m.lastPeriodRemoteAccessCount
  currentPmemAccessCount := m.pmemAccessCount - m.lastPeriodPmemAccessCount
  currentLocalToRemoteCount := m.localToRemoteCount - m.lastPeriodLocalToRemoteCount
  currentRemoteToLocalCount := m.remoteToLocalCount - m.lastPeriodRemoteToLocalCount
  currentPmemToRemoteCount := m.pmemToRemoteCount - m.lastPeriodPmemToRemoteCount
  currentRemoteToPmemCount := m.remoteToPmemCount - m.lastPeriodRemoteToPmemCount
  currentLocalToPmemCount := m.localToPmemCount - m.lastPeriodLocalToPmemCount
  currentPmemToLocalCount := m.pmemToLocalCount - m.lastPeriodPmemToLocalCount

/-- The stores to `last_period_*`. -/
def startPeriod (m : PeriodicalMetrics) : PeriodicalMetrics :=
  { m with
    lastPeriodLatency := m.totalLatency
    lastPeriodLocalAccessCount := m.localAccessCount
    lastPeriodRemoteAccessCount := m.remoteAccessCount
    lastPeriodPmemAccessCount := m.pmemAccessCount
    lastPeriodLocalToRemoteCount := m.localToRemoteCount
    lastPeriodRemoteToLocalCount := m.remoteToLocalCount
    lastPeriodPmemToRemoteCount := m.pmemToRemoteCount
    lastPeriodRemoteToPmemCount := m.remoteToPmemCount
    lastPeriodLocalToPmemCount := m.localToPmemCount
    lastPeriodPmemToLocalCount := m.pmemToLocalCount }

/-- The cells of a row. -/
def reportRow (m : PeriodicalMetrics) (serverConfig : ServerMemoryConfig) (interval : Int) :
    ReportRow where
  avgLatency := m.currentPeriod.avgLatency
  throughput := m.currentPeriod.throughput
  period := m.currentPeriod
  totalAccess := m.currentPeriod.currentAccess
  localCount := serverConfig.localNuma.count
  remoteCount := serverConfig.remoteNuma.count
  pmemCount := serverConfig.pmem.count
  interval

/-- What one report does to the baselines and the file; `opens` is `out_file.is_open()`. -/
def periodicalMetrics (opens : Bool) (serverConfig : ServerMemoryConfig) (interval : Int)
    (m : PeriodicalMetrics) (file : List ReportLine) : PeriodicalMetrics × List ReportLine :=
  let row := m.reportRow serverConfig interval
  let m := m.startPeriod
  if opens then
    -- an empty file gets its header first
    (m, (if file = [] then [.header] else file) ++ [.row row])
  else (m, file)

end PeriodicalMetrics

end MemoryTiering
