import MemoryTiering.Lib.Heap
import MemoryTiering.Lib.Cycle
import MemoryTiering.Lib.Trace
import MemoryTiering.Lib.SecondChance
import MemoryTiering.Lib.Table
import MemoryTiering.Lib.Delivery
import MemoryTiering.Lib.Segments
import MemoryTiering.Lib.Rounding
import MemoryTiering.Lib.History
import MemoryTiering.Lib.Fields
import MemoryTiering.Lib.Fallible
import MemoryTiering.Lib.Circuit
import MemoryTiering.Lib.Refinement
import MemoryTiering.Lib.Alignment
import MemoryTiering.Common
import MemoryTiering.ClockRing
import MemoryTiering.Metrics
import MemoryTiering.PeriodicalMetrics
import MemoryTiering.PageTable
import MemoryTiering.Memory
import MemoryTiering.Machine
import MemoryTiering.ConfigParser
import MemoryTiering.ClientConfigParser
import MemoryTiering.Scanner
import MemoryTiering.Policy
import MemoryTiering.CommandLine
import MemoryTiering.Server
import MemoryTiering.Generator
import MemoryTiering.Zipf
import MemoryTiering.Tiering
import MemoryTiering.Laws.ClockRing.Shape
import MemoryTiering.Laws.ClockRing.Eviction
import MemoryTiering.Laws.ClockRing.Victim
import MemoryTiering.Laws.ClockRing.Session
import MemoryTiering.Laws.ClockRing.Destruction
import MemoryTiering.Laws.PageTable.Migration
import MemoryTiering.Laws.PageTable.Ownership
import MemoryTiering.Laws.PageTable.Filling
import MemoryTiering.Laws.PageTable.Run
import MemoryTiering.Laws.PageTable.Startup
import MemoryTiering.Laws.Config.Limits
import MemoryTiering.Laws.Config.Grammar
import MemoryTiering.Laws.Config.Written
import MemoryTiering.Laws.Metrics.Periods
import MemoryTiering.Laws.Metrics.Sampling
import MemoryTiering.Laws.Metrics.Reporting
import MemoryTiering.Laws.PageTable.Layout
import MemoryTiering.Laws.PageTable.Accounting
import MemoryTiering.Laws.PageTable.Outcome
import MemoryTiering.Laws.PageTable.Coupling
import MemoryTiering.Laws.PageTable.Replacement
import MemoryTiering.Laws.PageTable.Promotion
import MemoryTiering.Laws.PageTable.Effect
import MemoryTiering.Laws.PageTable.Conservation
import MemoryTiering.Laws.PageTable.Stamps
import MemoryTiering.Laws.PageTable.TwoTiers
import MemoryTiering.Laws.Scanner.Rounds
import MemoryTiering.Laws.Scanner.Frequency
import MemoryTiering.Laws.Scanner.Recency
import MemoryTiering.Laws.Scanner.Grades
import MemoryTiering.Laws.Scanner.Instants
import MemoryTiering.Laws.Scanner.Warming
import MemoryTiering.Laws.Scanner.Hybrid
import MemoryTiering.Laws.Scanner.Coverage
import MemoryTiering.Laws.Scanner.Settling
import MemoryTiering.Laws.Server.Numbering
import MemoryTiering.Laws.Server.Manager
import MemoryTiering.Laws.Server.Delivery
import MemoryTiering.Laws.Client.Isolation
import MemoryTiering.Laws.Client.Skew
import MemoryTiering.Laws.Client.WorkingSet
import MemoryTiering.Laws.Machine.Placement
import MemoryTiering.Laws.Machine.Moves
import MemoryTiering.Laws.Machine.Teardown
import MemoryTiering.Laws.ClockRing.Aging
import MemoryTiering.Laws.Scanner.Traffic
import MemoryTiering.Laws.Scanner.Retention
import MemoryTiering.Laws.Threads.Uninterrupted
import MemoryTiering.Laws.Threads.Atomicity
import MemoryTiering.Laws.Threads.Counters
import MemoryTiering.Laws.Threads.Hand
import MemoryTiering.Laws.Threads.Window
import MemoryTiering.Laws.Server.Shutdown
import MemoryTiering.Laws.PageTable.Refinement
import MemoryTiering.Laws.PageTable.Regions
import MemoryTiering.Laws.PageTable.Transparency
import MemoryTiering.Laws.PageTable.HugePages
import MemoryTiering.Laws.Scanner.Draining
import MemoryTiering.Laws.Client.Sharing
import MemoryTiering.Laws.Threads.Prices
import MemoryTiering.Laws.Threads.Faults
