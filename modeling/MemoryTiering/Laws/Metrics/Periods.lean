import MemoryTiering.PeriodicalMetrics
import MemoryTiering.Lib.History
import Mathlib.Tactic.Abel
import Mathlib.Algebra.Order.BigOperators.Group.List
import Mathlib.Algebra.Order.Group.Nat

/-!
# What the periodical report tells

Over a run of increments, recordings, resets and reports each counter holds what came together since
the last reset, and its baseline what it held at the last report (`live_after`,
`lastPeriod_after`). So a reported delta is what came together in its period, unless a reset came in
between and found the baseline above zero (`deltas_exact_iff`), and the rows of the file add up to
the counter, unless something happened in a period whose row was never written (`rows_add_up_iff`).
-/

set_option autoImplicit false

namespace MemoryTiering

open History

/-- The counters that go up by one. -/
inductive Counter where
  | localAccess
  | remoteAccess
  | pmemAccess
  | localToRemote
  | remoteToLocal
  | pmemToRemote
  | remoteToPmem
  | localToPmem
  | pmemToLocal
  deriving DecidableEq

def Counter.increment : Counter → Metrics → Metrics
  | .localAccess => .incrementLocalAccess
  | .remoteAccess => .incrementRemoteAccess
  | .pmemAccess => .incrementPmemAccess
  | .localToRemote => .incrementLocalToRemote
  | .remoteToLocal => .incrementRemoteToLocal
  | .pmemToRemote => .incrementPmemToRemote
  | .remoteToPmem => .incrementRemoteToPmem
  | .localToPmem => .incrementLocalToPmem
  | .pmemToLocal => .incrementPmemToLocal

/-- What a report takes the delta of. -/
inductive Column where
  | latency
  | count (counter : Counter)
  deriving DecidableEq

namespace Column

/-- The live counter. -/
def live : Column → Metrics → UInt64
  | .latency => (·.totalLatency)
  | .count .localAccess => (·.localAccessCount)
  | .count .remoteAccess => (·.remoteAccessCount)
  | .count .pmemAccess => (·.pmemAccessCount)
  | .count .localToRemote => (·.localToRemoteCount)
  | .count .remoteToLocal => (·.remoteToLocalCount)
  | .count .pmemToRemote => (·.pmemToRemoteCount)
  | .count .remoteToPmem => (·.remoteToPmemCount)
  | .count .localToPmem => (·.localToPmemCount)
  | .count .pmemToLocal => (·.pmemToLocalCount)

/-- Its baseline. -/
def lastPeriod : Column → PeriodicalMetrics → UInt64
  | .latency => (·.lastPeriodLatency)
  | .count .localAccess => (·.lastPeriodLocalAccessCount)
  | .count .remoteAccess => (·.lastPeriodRemoteAccessCount)
  | .count .pmemAccess => (·.lastPeriodPmemAccessCount)
  | .count .localToRemote => (·.lastPeriodLocalToRemoteCount)
  | .count .remoteToLocal => (·.lastPeriodRemoteToLocalCount)
  | .count .pmemToRemote => (·.lastPeriodPmemToRemoteCount)
  | .count .remoteToPmem => (·.lastPeriodRemoteToPmemCount)
  | .count .localToPmem => (·.lastPeriodLocalToPmemCount)
  | .count .pmemToLocal => (·.lastPeriodPmemToLocalCount)

/-- Its delta in a report. -/
def delta : Column → Period → UInt64
  | .latency => (·.currentLatency)
  | .count .localAccess => (·.currentLocalAccessCount)
  | .count .remoteAccess => (·.currentRemoteAccessCount)
  | .count .pmemAccess => (·.currentPmemAccessCount)
  | .count .localToRemote => (·.currentLocalToRemoteCount)
  | .count .remoteToLocal => (·.currentRemoteToLocalCount)
  | .count .pmemToRemote => (·.currentPmemToRemoteCount)
  | .count .remoteToPmem => (·.currentRemoteToPmemCount)
  | .count .localToPmem => (·.currentLocalToPmemCount)
  | .count .pmemToLocal => (·.currentPmemToLocalCount)

end Column

/-- The metrics and the file of the metrics thread. -/
structure Reporter where
  metrics : PeriodicalMetrics
  file : List ReportLine

namespace Reporter

inductive Event where
  | increment (counter : Counter)
  | recordAccessLatency (latency : UInt64)
  | reset
  | periodicalMetrics (opens : Bool) (serverConfig : ServerMemoryConfig) (interval : Int)
  deriving DecidableEq

namespace Event

def apply (s : Reporter) : Event → Reporter
  | .increment counter =>
    { s with metrics := { s.metrics with toMetrics := counter.increment s.metrics.toMetrics } }
  | .recordAccessLatency latency =>
    { s with
      metrics := { s.metrics with toMetrics := s.metrics.toMetrics.recordAccessLatency latency } }
  | .reset => { s with metrics := s.metrics.reset }
  | .periodicalMetrics opens serverConfig interval =>
    let (metrics, file) := s.metrics.periodicalMetrics opens serverConfig interval s.file
    { metrics, file }

def isReset : Event → Bool
  | .reset => true
  | _ => false

def isReport : Event → Bool
  | .periodicalMetrics .. => true
  | _ => false

/-- A report that finds the file open. -/
def writes : Event → Bool
  | .periodicalMetrics opens _ _ => opens
  | _ => false

/-- A report that does not. -/
def fails : Event → Bool
  | .periodicalMetrics opens _ _ => !opens
  | _ => false

/-- What an event adds to a column. -/
def amount (c : Column) : Event → Nat
  | .increment counter => if c = .count counter then 1 else 0
  | .recordAccessLatency latency => if c = .latency then latency.toNat else 0
  | _ => 0

end Event

/-- From fresh metrics, and a file that may hold lines already. -/
def after (file : List ReportLine) (es : List Event) : Reporter :=
  es.foldl Event.apply { metrics := {}, file }

/-- The rows of a file. -/
def rows (file : List ReportLine) : List ReportRow :=
  file.filterMap fun
    | .header => none
    | .row row => some row

/-! ## One event -/

section Apply

variable (s : Reporter) (c : Column) (e : Event) (file : List ReportLine) (es : List Event)

theorem after_snoc : after file (es ++ [e]) = e.apply (after file es) := by
  rw [after, List.foldl_append]
  rfl

theorem live_fresh : c.live {} = 0 := by
  rcases c with _ | counter
  · rfl
  · cases counter <;> rfl

theorem lastPeriod_fresh : c.lastPeriod {} = 0 := by
  rcases c with _ | counter
  · rfl
  · cases counter <;> rfl

theorem live_reset (m : PeriodicalMetrics) : c.live m.reset.toMetrics = 0 := by
  rcases c with _ | counter
  · rfl
  · cases counter <;> rfl

theorem lastPeriod_startPeriod (m : PeriodicalMetrics) :
    c.lastPeriod m.startPeriod = c.live m.toMetrics := by
  rcases c with _ | counter
  · rfl
  · cases counter <;> rfl

/-- A baseline does not depend on the counters. -/
theorem lastPeriod_toMetrics (m : PeriodicalMetrics) (metrics : Metrics) :
    c.lastPeriod { m with toMetrics := metrics } = c.lastPeriod m := by
  rcases c with _ | counter
  · rfl
  · cases counter <;> rfl

theorem delta_currentPeriod (m : PeriodicalMetrics) :
    c.delta m.currentPeriod = c.live m.toMetrics - c.lastPeriod m := by
  rcases c with _ | counter
  · rfl
  · cases counter <;> rfl

theorem live_increment (m : Metrics) (counter : Counter) :
    c.live (counter.increment m) = if c = .count counter then c.live m + 1 else c.live m := by
  rcases c with _ | counter'
  · cases counter <;> rfl
  · cases counter <;> cases counter' <;> rfl

/-- **What an event does to a counter.** -/
theorem live_apply : c.live (e.apply s).metrics.toMetrics =
    if e.isReset then 0 else c.live s.metrics.toMetrics + UInt64.ofNat (e.amount c) := by
  cases e with
  | increment counter =>
    refine (live_increment c s.metrics.toMetrics counter).trans ?_
    by_cases h : c = .count counter
    · simp [Event.isReset, Event.amount, h]
    · simp [Event.isReset, Event.amount, h]
  | recordAccessLatency latency =>
    rcases c with _ | counter
    · simp [Event.apply, Event.isReset, Event.amount, Column.live, Metrics.recordAccessLatency]
    · cases counter <;>
        simp [Event.apply, Event.isReset, Event.amount, Column.live, Metrics.recordAccessLatency]
  | reset => exact live_reset c s.metrics
  | periodicalMetrics opens serverConfig interval =>
    have hsame :
        (Event.apply s (.periodicalMetrics opens serverConfig interval)).metrics.toMetrics =
          s.metrics.toMetrics := by
      cases opens <;> rfl
    simp [hsame, Event.isReset, Event.amount]

/-- **What an event does to a baseline.** -/
theorem lastPeriod_apply : c.lastPeriod (e.apply s).metrics =
    if e.isReport then c.live s.metrics.toMetrics else c.lastPeriod s.metrics := by
  cases e with
  | increment | recordAccessLatency | reset => exact lastPeriod_toMetrics c s.metrics _
  | periodicalMetrics opens serverConfig interval =>
    have hstart : (Event.apply s (.periodicalMetrics opens serverConfig interval)).metrics =
        s.metrics.startPeriod := by
      cases opens <;> rfl
    rw [hstart]
    exact lastPeriod_startPeriod c s.metrics

/-- A report that finds the file open appends one row; nothing else does. -/
theorem rows_apply : rows (e.apply s).file = rows s.file ++
    match e with
    | .periodicalMetrics true serverConfig interval =>
      [s.metrics.reportRow serverConfig interval]
    | _ => [] := by
  have hrow : ∀ (lines : List ReportLine) (row : ReportRow),
      rows (lines ++ [.row row]) = rows lines ++ [row] := by
    intro lines row
    unfold rows
    rw [List.filterMap_append]
    rfl
  cases e with
  | periodicalMetrics opens serverConfig interval =>
    cases opens with
    | true =>
      refine (hrow _ _).trans ?_
      by_cases hempty : s.file = []
      · rw [if_pos hempty, hempty]
        rfl
      · rw [if_neg hempty]
    | false => exact (List.append_nil _).symm
  | increment | recordAccessLatency | reset => exact (List.append_nil _).symm

end Apply

/-! ## Runs -/

section Runs

variable (file : List ReportLine) (c : Column) (es : List Event)

/-- **A counter** holds what came together since the last reset. -/
theorem live_after : c.live (after file es).metrics.toMetrics =
    UInt64.ofNat (since Event.isReset (Event.amount c) es) := by
  induction es using List.reverseRecOn with
  | nil => exact live_fresh c
  | append_singleton es e ih =>
    rw [after_snoc, live_apply, since_snoc, ih]
    split
    · rfl
    · rw [UInt64.ofNat_add]

/-- **A baseline** holds what its counter held at the last report. -/
theorem lastPeriod_after : c.lastPeriod (after file es).metrics =
    c.live (after file (beforeLast Event.isReport es)).metrics.toMetrics := by
  induction es using List.reverseRecOn with
  | nil => exact (lastPeriod_fresh c).trans (live_fresh c).symm
  | append_singleton es e ih =>
    rw [after_snoc, lastPeriod_apply, beforeLast_snoc]
    split
    · rfl
    · exact ih

/-- The delta a report would give, from what happened. -/
theorem delta_after : c.delta (after file es).metrics.currentPeriod =
    UInt64.ofNat (since Event.isReset (Event.amount c) es) -
      UInt64.ofNat (since Event.isReset (Event.amount c) (beforeLast Event.isReport es)) := by
  rw [delta_currentPeriod, lastPeriod_after, live_after, live_after]

theorem isReset_of_isReport {e : Event} (h : e.isReport = true) : e.isReset = false := by
  cases e with
  | periodicalMetrics => rfl
  | increment | recordAccessLatency | reset => cases h

theorem amount_of_isReport {e : Event} (h : e.isReport = true) : e.amount c = 0 := by
  cases e with
  | periodicalMetrics => rfl
  | increment | recordAccessLatency | reset => cases h

variable {es}

/-- Without a reset since the last report, a counter has grown from its baseline. -/
theorem since_of_clean (clean : ∀ e ∈ afterLast Event.isReport es, e.isReset = false) :
    since Event.isReset (Event.amount c) es =
      since Event.isReset (Event.amount c) (beforeLast Event.isReport es) +
        since Event.isReport (Event.amount c) es :=
  since_eq_add (fun _ => isReset_of_isReport) (fun _ => amount_of_isReport c) clean

/-- Then the delta is what came together since that report. -/
theorem delta_of_clean (clean : ∀ e ∈ afterLast Event.isReport es, e.isReset = false) :
    c.delta (after file es).metrics.currentPeriod =
      UInt64.ofNat (since Event.isReport (Event.amount c) es) := by
  rw [delta_after, since_of_clean c clean, UInt64.ofNat_add]
  exact add_sub_cancel_left _ _

theorem delta_le_of_clean (clean : ∀ e ∈ afterLast Event.isReport es, e.isReset = false) :
    (c.delta (after file es).metrics.currentPeriod).toNat ≤
      since Event.isReport (Event.amount c) es := by
  rw [delta_of_clean file c clean, UInt64.toNat_ofNat']
  exact Nat.mod_le _ _

end Runs

/-! ## Resets -/

section Resets

variable {file : List ReportLine} {es : List Event}

/-- What came together since the later of the last report and the last reset. -/
def accumulated (c : Column) (es : List Event) : Nat :=
  since (fun e => e.isReset || e.isReport) (Event.amount c) es

/-- Every row that a run writes has the right deltas. -/
def DeltasExact (file : List ReportLine) (es : List Event) : Prop :=
  ∀ past later serverConfig interval row,
    es = past ++ .periodicalMetrics true serverConfig interval :: later →
    rows (after file (past ++ [.periodicalMetrics true serverConfig interval])).file =
      rows (after file past).file ++ [row] →
    ∀ c : Column, (c.delta row.period).toNat = accumulated c past

/-- Whenever a row is written with a reset since the last report, that report (if there was one)
found every counter at zero. -/
def ResetsFromZero (es : List Event) : Prop :=
  ∀ past later serverConfig interval,
    es = past ++ .periodicalMetrics true serverConfig interval :: later →
    (∃ e ∈ afterLast Event.isReport past, e.isReset = true) →
    ∀ c : Column,
      since Event.isReset (Event.amount c) (beforeLast Event.isReport past) = 0

/-- One delta is right exactly unless a reset left its baseline behind. -/
theorem delta_exact_iff {past : List Event} (file : List ReportLine) (c : Column)
    (hlive : since Event.isReset (Event.amount c) past < 2 ^ 64)
    (hbase : since Event.isReset (Event.amount c) (beforeLast Event.isReport past) < 2 ^ 64) :
    (c.delta (after file past).metrics.currentPeriod).toNat = accumulated c past ↔
      ((∃ e ∈ afterLast Event.isReport past, e.isReset = true) →
        since Event.isReset (Event.amount c) (beforeLast Event.isReport past) = 0) := by
  unfold accumulated
  by_cases hreset : ∃ e ∈ afterLast Event.isReport past, e.isReset = true
  · rw [since_either_of_mark hreset, delta_after, UInt64.toNat_sub, SizeT.toNat_ofNat hlive,
      SizeT.toNat_ofNat hbase]
    simp only [hreset, true_imp_iff]
    omega
  · have hclean : ∀ e ∈ afterLast Event.isReport past, e.isReset = false := by
      intro e he
      rw [← Bool.not_eq_true]
      exact fun hmark => hreset ⟨e, he, hmark⟩
    have hsum := since_of_clean c hclean
    rw [since_either_of_clean hclean, delta_of_clean file c hclean, SizeT.toNat_ofNat (by omega)]
    exact iff_of_true rfl fun h => absurd h hreset

/-- **Periodic deltas across resets.** With counts below `2 ^ 64`, every delta of every row is what
came together in its period, exactly if each reset between two reports comes after a report that
found the counters at zero. -/
theorem deltas_exact_iff (file : List ReportLine)
    (small : ∀ past, past <+: es → ∀ c, since Event.isReset (Event.amount c) past < 2 ^ 64) :
    DeltasExact file es ↔ ResetsFromZero es := by
  have happend : ∀ past serverConfig interval,
      rows (after file (past ++ [.periodicalMetrics true serverConfig interval])).file =
        rows (after file past).file ++
          [(after file past).metrics.reportRow serverConfig interval] := by
    intro past serverConfig interval
    rw [after_snoc, rows_apply]
  have hexact : ∀ past later serverConfig interval,
      es = past ++ .periodicalMetrics true serverConfig interval :: later → ∀ c : Column,
      (c.delta (after file past).metrics.currentPeriod).toNat = accumulated c past ↔
        ((∃ e ∈ afterLast Event.isReport past, e.isReset = true) →
          since Event.isReset (Event.amount c) (beforeLast Event.isReport past) = 0) := by
    intro past later serverConfig interval hsplit c
    have hpast : past <+: es := hsplit ▸ List.prefix_append ..
    exact delta_exact_iff file c (small past hpast c)
      (small _ ((beforeLast_isPrefix _ past).trans hpast) c)
  constructor
  · intro h past later serverConfig interval hsplit hreset c
    have hrow := h past later serverConfig interval _ hsplit (happend past serverConfig interval) c
    exact (hexact past later serverConfig interval hsplit c).mp hrow hreset
  · intro h past later serverConfig interval row hsplit hrow c
    rw [happend, List.append_cancel_left_eq, List.singleton_inj] at hrow
    rw [← hrow]
    exact (hexact past later serverConfig interval hsplit c).mpr fun hreset =>
      h past later serverConfig interval hsplit hreset c

/-- Nobody resets. -/
theorem resetsFromZero_of_no_reset (h : ∀ e ∈ es, e.isReset = false) : ResetsFromZero es := by
  rintro past later serverConfig interval rfl ⟨e, he, hreset⟩
  rw [h e (List.mem_append_left _ (mem_of_mem_afterLast he))] at hreset
  cases hreset

/-- Counts are small when all of them are, added up. -/
theorem since_lt_of_sum {past : List Event} {c : Column} (hpast : past <+: es)
    (h : (es.map (Event.amount c)).sum < 2 ^ 64) :
    since Event.isReset (Event.amount c) past < 2 ^ 64 := by
  have hsub : (afterLast Event.isReset past).Sublist es :=
    (List.rtakeWhile_suffix _ past).sublist.trans hpast.sublist
  exact Nat.lt_of_le_of_lt ((hsub.map (Event.amount c)).sum_le_sum fun _ _ => Nat.zero_le _) h

/-- A report on a server with nothing in it. -/
def report (opens : Bool) : Event := .periodicalMetrics opens { numTiers := 3 } 10

/-- An access, a report, a reset, another access, another report. -/
def resetRun : List Event :=
  [.increment .localAccess, report true, .reset, .increment .localAccess, report true]

theorem resetRun_small (past : List Event) (hpast : past <+: resetRun) (c : Column) :
    since Event.isReset (Event.amount c) past < 2 ^ 64 := by
  refine since_lt_of_sum hpast ?_
  rcases c with _ | counter
  · decide
  · cases counter <;> decide

/-- The second access is in no row: the second delta is zero. -/
theorem reset_swallows_access :
    (∀ past, past <+: resetRun → ∀ c,
        since Event.isReset (Event.amount c) past < 2 ^ 64) ∧
      ¬ DeltasExact [] resetRun := by
  refine ⟨resetRun_small, fun h => ?_⟩
  have hrow := h [.increment .localAccess, report true, .reset, .increment .localAccess] [] _ _ _
    rfl rfl (.count .localAccess)
  exact absurd hrow (by decide)

/-- Two accesses, each in a row of its own. -/
theorem two_periods_exact :
    DeltasExact [] [.increment .localAccess, report true, .increment .pmemAccess, report true] := by
  refine (deltas_exact_iff [] fun past hpast c => since_lt_of_sum hpast ?_).mpr
    (resetsFromZero_of_no_reset (by decide))
  rcases c with _ | counter
  · decide
  · cases counter <;> decide

end Resets

/-! ## Failed opens -/

section Failures

variable (file : List ReportLine) (c : Column) (es : List Event) (e : Event)

/-- The rows a run adds to the file. -/
def rowsWritten : List ReportRow := (rows (after file es).file).drop (rows file).length

/-- What came together in the periods whose report found the file closed. -/
def lost : Nat := total Event.fails (since Event.isReport (Event.amount c)) es

theorem rows_isPrefix : rows file <+: rows (after file es).file := by
  induction es using List.reverseRecOn with
  | nil => exact List.prefix_refl _
  | append_singleton es e ih =>
    rw [after_snoc, rows_apply]
    exact ih.trans (List.prefix_append _ _)

theorem rowsWritten_snoc : rowsWritten file (es ++ [e]) = rowsWritten file es ++
    match e with
    | .periodicalMetrics true serverConfig interval =>
      [(after file es).metrics.reportRow serverConfig interval]
    | _ => [] := by
  unfold rowsWritten
  rw [after_snoc, rows_apply, List.drop_append_of_le_length (rows_isPrefix file es).length_le]

/-- A sum over the rows, from the states they were taken in. -/
theorem sum_rowsWritten {M : Type} [AddMonoid M] (value : Period → M) :
    ((rowsWritten file es).map fun row => value row.period).sum =
      total Event.writes (fun past => value (after file past).metrics.currentPeriod) es := by
  induction es using List.reverseRecOn with
  | nil =>
    unfold rowsWritten
    rw [show after file [] = ⟨{}, file⟩ from rfl, List.drop_length]
    rfl
  | append_singleton es e ih =>
    rw [rowsWritten_snoc, total_snoc, List.map_append, List.sum_append, ih]
    congr 1
    cases e with
    | periodicalMetrics opens serverConfig interval =>
      cases opens with
      | true => exact add_zero _
      | false => rfl
    | increment | recordAccessLatency | reset => rfl

/-- **The deltas telescope**: those of the reports that wrote a row and those of the others add up
to the baseline. -/
theorem total_deltas :
    total Event.writes (fun past => c.delta (after file past).metrics.currentPeriod) es +
        total Event.fails (fun past => c.delta (after file past).metrics.currentPeriod) es =
      c.lastPeriod (after file es).metrics := by
  induction es using List.reverseRecOn with
  | nil => exact (lastPeriod_fresh c).symm
  | append_singleton es e ih =>
    rw [total_snoc, total_snoc, after_snoc, lastPeriod_apply, delta_currentPeriod, ← ih]
    cases e with
    | periodicalMetrics opens serverConfig interval =>
      cases opens with
      | true =>
        simp only [Event.writes, Event.fails, Event.isReport, if_true, Bool.not_true,
          Bool.false_eq_true, if_false]
        abel
      | false =>
        simp only [Event.writes, Event.fails, Event.isReport, if_true, Bool.not_false,
          Bool.false_eq_true, if_false]
        abel
    | increment | recordAccessLatency | reset => simp [Event.writes, Event.fails, Event.isReport]

variable {es}

/-- Without resets, what the deltas of the failed reports come to. -/
theorem total_failed (noReset : ∀ e ∈ es, e.isReset = false) :
    total Event.fails (fun past => c.delta (after file past).metrics.currentPeriod) es =
      UInt64.ofNat (lost c es) := by
  induction es using List.reverseRecOn with
  | nil => rfl
  | append_singleton es e ih =>
    have hbefore : ∀ e ∈ es, e.isReset = false :=
      fun e' he' => noReset e' (List.mem_append_left _ he')
    rw [lost, total_snoc, total_snoc, ih hbefore,
      delta_of_clean file c fun e' he' => hbefore e' (mem_of_mem_afterLast he'), UInt64.ofNat_add,
      lost]
    split <;> rfl

/-- Events that write nothing leave the rows alone. -/
theorem rowsWritten_of_silent {later : List Event} (silent : ∀ e ∈ later, e.writes = false) :
    rowsWritten file (es ++ later) = rowsWritten file es := by
  induction later using List.reverseRecOn with
  | nil => rw [List.append_nil]
  | append_singleton later e ih =>
    rw [← List.append_assoc, rowsWritten_snoc,
      ih fun e' he' => silent e' (List.mem_append_left _ he')]
    have he : e.writes = false := silent e (by simp)
    cases e with
    | periodicalMetrics opens serverConfig interval =>
      obtain rfl : opens = false := he
      exact List.append_nil _
    | increment | recordAccessLatency | reset => exact List.append_nil _

/-- Without resets, the deltas of the rows come to no more than there was. -/
theorem written_le (noReset : ∀ e ∈ es, e.isReset = false) :
    total Event.writes (fun past => (c.delta (after file past).metrics.currentPeriod).toNat) es +
        since Event.isReport (Event.amount c) es ≤
      (es.map (Event.amount c)).sum := by
  refine total_add_since_le (fun e => ?_) fun past hpast => ?_
  · cases e with
    | periodicalMetrics => exact fun _ => rfl
    | increment | recordAccessLatency | reset => exact nofun
  · exact delta_le_of_clean file c fun e he =>
      noReset e (hpast.subset (mem_of_mem_afterLast he))

/-- Nor does what the failed reports lose. -/
theorem lost_le : lost c es + since Event.isReport (Event.amount c) es ≤
    (es.map (Event.amount c)).sum := by
  refine total_add_since_le (fun e => ?_) fun past _ => Nat.le_refl _
  cases e with
  | periodicalMetrics => exact fun _ => rfl
  | increment | recordAccessLatency | reset => exact nofun

/-- A sum of 64-bit numbers that fits. -/
theorem toNat_sum {sizes : List UInt64} (fits : (sizes.map UInt64.toNat).sum < 2 ^ 64) :
    sizes.sum.toNat = (sizes.map UInt64.toNat).sum := by
  induction sizes with
  | nil => rfl
  | cons size sizes ih =>
    rw [List.map_cons, List.sum_cons] at fits
    have hrest := ih (by omega)
    rw [List.sum_cons, List.map_cons, List.sum_cons, SizeT.toNat_add (by omega), hrest]

theorem ofNat_eq_zero_iff (n : Nat) : UInt64.ofNat n = 0 ↔ 2 ^ 64 ∣ n := by
  rw [← UInt64.toNat_inj, UInt64.toNat_ofNat', UInt64.toNat_zero, Nat.dvd_iff_mod_eq_zero]

section LastRow

variable {past : List Event} (serverConfig : ServerMemoryConfig) (interval : Int)

/-- The rows up to the last one add up to its counter if nothing was lost, in 64 bits. -/
theorem rows_sum_iff (noReset : ∀ e ∈ past, e.isReset = false) :
    ((rowsWritten file (past ++ [.periodicalMetrics true serverConfig interval])).map
        fun row => c.delta row.period).sum =
        c.live (after file past).metrics.toMetrics ↔
      2 ^ 64 ∣ lost c past := by
  have hsum := total_deltas file c past
  rw [total_failed file c noReset] at hsum
  rw [sum_rowsWritten file _ c.delta, total_snoc, ← ofNat_eq_zero_iff, delta_currentPeriod, ← hsum]
  simp only [Event.writes, if_true]
  generalize total Event.writes
    (fun past => c.delta (after file past).metrics.currentPeriod) past = written
  generalize c.live _ = live
  have hclosed : written + (live - (written + UInt64.ofNat (lost c past))) =
      live - UInt64.ofNat (lost c past) := by abel
  rw [hclosed, sub_eq_self]

/-- And as numbers, while the counts fit. -/
theorem exact_rows_sum_iff (noReset : ∀ e ∈ past, e.isReset = false)
    (small : (past.map (Event.amount c)).sum < 2 ^ 64) :
    ((rowsWritten file (past ++ [.periodicalMetrics true serverConfig interval])).map
        fun row => (c.delta row.period).toNat).sum =
        (c.live (after file past).metrics.toMetrics).toNat ↔
      lost c past = 0 := by
  set rows := rowsWritten file (past ++ [.periodicalMetrics true serverConfig interval])
  have hmap : (rows.map fun row => (c.delta row.period).toNat) =
      (rows.map fun row => c.delta row.period).map UInt64.toNat := by
    rw [List.map_map]
    rfl
  have hexact : ((rows.map fun row => c.delta row.period).map UInt64.toNat).sum < 2 ^ 64 := by
    have hle := written_le file c noReset
    have hlast := delta_le_of_clean file c fun e he => noReset e (mem_of_mem_afterLast he)
    rw [← hmap, sum_rowsWritten file _ fun period => (c.delta period).toNat, total_snoc]
    simp only [Event.writes, if_true]
    omega
  have hlost : lost c past + since Event.isReport (Event.amount c) past ≤
      (past.map (Event.amount c)).sum := lost_le c
  rw [hmap, ← toNat_sum hexact, UInt64.toNat_inj, rows_sum_iff file c serverConfig interval noReset]
  exact ⟨fun h => Nat.eq_zero_of_dvd_of_lt h (by omega), fun h => h ▸ Nat.dvd_zero _⟩

end LastRow

/-- **The rows add up to the counter**, in every run without resets, exactly if nothing came
together in the periods whose report failed before the last row. The counters are 64 bits wide, and
in 64 bits a multiple of `2 ^ 64` is nothing. -/
theorem rows_add_up_iff {past later : List Event} {serverConfig : ServerMemoryConfig}
    {interval : Int} (noReset : ∀ e ∈ es, e.isReset = false)
    (split : es = past ++ .periodicalMetrics true serverConfig interval :: later)
    (last : ∀ e ∈ later, e.writes = false) :
    (((rowsWritten file es).map fun row => c.delta row.period).sum =
        c.live (after file past).metrics.toMetrics ↔ 2 ^ 64 ∣ lost c past) ∧
      ((past.map (Event.amount c)).sum < 2 ^ 64 →
        (((rowsWritten file es).map fun row => (c.delta row.period).toNat).sum =
          (c.live (after file past).metrics.toMetrics).toNat ↔ lost c past = 0)) := by
  subst split
  have hpast : ∀ e ∈ past, e.isReset = false :=
    fun e he => noReset e (List.mem_append_left _ he)
  have hrows : rowsWritten file (past ++ .periodicalMetrics true serverConfig interval :: later) =
      rowsWritten file (past ++ [.periodicalMetrics true serverConfig interval]) := by
    rw [List.append_cons]
    exact rowsWritten_of_silent file last
  rw [hrows]
  exact ⟨rows_sum_iff file c serverConfig interval hpast,
    exact_rows_sum_iff file c serverConfig interval hpast⟩

/-- An access, a report that fails, a report that does not. -/
def failedOpenRun : List Event := [.increment .localAccess, report false, report true]

/-- The access is in no row. -/
theorem failed_open_loses_access :
    (∀ e ∈ failedOpenRun, e.isReset = false) ∧
      failedOpenRun = [.increment .localAccess, report false] ++ report true :: [] ∧
      ((rowsWritten [] failedOpenRun).map fun row =>
          ((Column.count .localAccess).delta row.period).toNat).sum ≠
        ((Column.count .localAccess).live
          (after [] [.increment .localAccess, report false]).metrics.toMetrics).toNat :=
  ⟨by decide, rfl, by decide⟩

/-- An access in a row, a report that fails with nothing to tell, another access. -/
def idleFailureRun : List Event :=
  [.increment .localAccess, report true, report false, .increment .localAccess]

theorem idle_failure_loses_nothing :
    ((rowsWritten [] (idleFailureRun ++ report true :: [])).map fun row =>
        ((Column.count .localAccess).delta row.period).toNat).sum =
      ((Column.count .localAccess).live (after [] idleFailureRun).metrics.toMetrics).toNat :=
  ((rows_add_up_iff [] (.count .localAccess) (by decide) rfl (List.forall_mem_nil _)).2
    (by decide)).mpr (by decide)

end Failures

end Reporter

end MemoryTiering
