import MemoryTiering.Laws.Metrics.Periods
import MemoryTiering.Lib.Trace
import Mathlib.Logic.Function.Basic

/-!
# Reports while accesses go on

An access adds its latency to the total and then counts, and a report loads the total and then the
counts, each in a step of its own. So a period's latency and its accesses are cut at different
points of the run: a column's delta is what was added between the last two loads of that column
(`Records.delta`). The report divides when the latency has grown. What it divides by can then be
zero: it is above zero in every report of a run exactly if, in each of them, an access counts
between the two loads of its counter, or no latency came between the two loads of the total
(`divisions_guarded_iff`).
-/

set_option autoImplicit false

namespace MemoryTiering

open History Transition

/-- The counters at the end of `accessPage`. -/
def Counter.isAccess : Counter → Bool
  | .localAccess | .remoteAccess | .pmemAccess => true
  | _ => false

/-- The `*_now` variables, as the metrics they were loaded from. -/
def Metrics.ofNow (now : Column → UInt64) : Metrics where
  localAccessCount := now (.count .localAccess)
  remoteAccessCount := now (.count .remoteAccess)
  pmemAccessCount := now (.count .pmemAccess)
  localToRemoteCount := now (.count .localToRemote)
  remoteToLocalCount := now (.count .remoteToLocal)
  pmemToRemoteCount := now (.count .pmemToRemote)
  remoteToPmemCount := now (.count .remoteToPmem)
  localToPmemCount := now (.count .localToPmem)
  pmemToLocalCount := now (.count .pmemToLocal)
  totalLatency := now .latency

/-- The manager and the metrics thread between two steps. `inAccess` tells that the manager has
recorded the latency of an access and not counted it yet. The metrics thread has still to load
`toLoad`. -/
structure Sampler extends Reporter where
  inAccess : Bool
  now : Column → UInt64
  toLoad : List Column

namespace Sampler

/-- The loads of `periodicalMetrics`, in its order. -/
def loads : List Column :=
  [.latency, .count .localAccess, .count .remoteAccess, .count .pmemAccess,
    .count .localToRemote, .count .remoteToLocal, .count .pmemToRemote, .count .remoteToPmem,
    .count .localToPmem, .count .pmemToLocal]

/-- Fresh metrics, and a file that may hold lines already. -/
def fresh (file : List ReportLine) : Sampler where
  metrics := {}
  file
  inAccess := false
  now _ := 0
  toLoad := loads

/-- The steps: the manager's two of an access, the scanner's increments, and the loads of a report
and the rest of it. -/
inductive Event where
  | recordAccessLatency (latency : UInt64)
  | increment (counter : Counter)
  | load (c : Column)
  | report (opens : Bool) (serverConfig : ServerMemoryConfig) (interval : Int)
  deriving DecidableEq

/-- What a report computes on. -/
def loaded (s : Sampler) : Reporter where
  metrics := { s.metrics with toMetrics := .ofNow s.now }
  file := s.file

/-- The deltas it computes. -/
def period (s : Sampler) : Period := s.loaded.metrics.currentPeriod

/-- `total_latency_now = total_latency_.load()`, or the like for another column. -/
def load (c : Column) (s : Sampler) : Sampler :=
  { s with
    now := Function.update s.now c (c.live s.metrics.toMetrics)
    toLoad := s.toLoad.tail }

/-- The rest of a report stores to the baselines and the file; the counters have gone on. -/
def report (opens : Bool) (serverConfig : ServerMemoryConfig) (interval : Int) (s : Sampler) :
    Sampler :=
  let reported := Reporter.Event.apply s.loaded (.periodicalMetrics opens serverConfig interval)
  { s with
    metrics := { reported.metrics with toMetrics := s.metrics.toMetrics }
    file := reported.file
    toLoad := loads }

namespace Event

/-- The state after a step, if it is the turn of that step. -/
def apply (s : Sampler) : Event → Option Sampler
  | .recordAccessLatency latency =>
    let recorded := Reporter.Event.apply s.toReporter (.recordAccessLatency latency)
    if s.inAccess then none else some { s with toReporter := recorded, inAccess := true }
  | .increment counter =>
    let counted := Reporter.Event.apply s.toReporter (.increment counter)
    if counter.isAccess then
      if s.inAccess then some { s with toReporter := counted, inAccess := false } else none
    else some { s with toReporter := counted }
  | .load c => if s.toLoad.head? = some c then some (s.load c) else none
  | .report opens serverConfig interval =>
    if s.toLoad = [] then some (s.report opens serverConfig interval) else none

def isLoad (c : Column) : Event → Bool
  | .load c' => c' = c
  | _ => false

def isReport : Event → Bool
  | .report .. => true
  | _ => false

/-- What a step adds to a column. -/
def amount (c : Column) : Event → Nat
  | .recordAccessLatency latency => Reporter.Event.amount c (.recordAccessLatency latency)
  | .increment counter => Reporter.Event.amount c (.increment counter)
  | _ => 0

end Event

/-- One step, with the state it was taken in. -/
structure Step (s : Sampler) (e : Sampler × Event) (s' : Sampler) : Prop where
  before : e.1 = s
  done : e.2.apply s = some s'

/-! ## What the registers hold -/

/-- All that was added to a column. -/
def added (c : Column) (es : List Event) : Nat := (es.map (Event.amount c)).sum

/-- What was added to a column between its last two loads. -/
def between (c : Column) (es : List Event) : Nat :=
  since (Event.isLoad c) (Event.amount c) (beforeLast (Event.isLoad c) es)

/-- The accesses counted between the last two loads of their counters. -/
def counted (es : List Event) : Nat :=
  between (.count .localAccess) es + between (.count .remoteAccess) es +
    between (.count .pmemAccess) es

theorem mem_loads (c : Column) : c ∈ loads := by
  rcases c with _ | counter
  · decide
  · cases counter <;> decide

theorem nodup_loads : loads.Nodup := by decide

theorem live_ofNow (c : Column) (now : Column → UInt64) : c.live (.ofNow now) = now c := by
  rcases c with _ | counter
  · rfl
  · cases counter <;> rfl

theorem added_snoc (c : Column) (es : List Event) (e : Event) :
    added c (es ++ [e]) = added c es + e.amount c := by
  unfold added
  rw [List.map_append, List.sum_append, List.map_singleton, List.sum_singleton]

theorem amount_of_isLoad {c : Column} {e : Event} (h : e.isLoad c = true) : e.amount c = 0 := by
  cases e with
  | load => rfl
  | recordAccessLatency | increment | report => cases h

/-- **The registers after a history.** A column that is still to be loaded has the last report's
value in its variable. -/
structure Records (es : List Event) (s : Sampler) : Prop where
  suffix : s.toLoad <:+ loads
  live : ∀ c, c.live s.metrics.toMetrics = UInt64.ofNat (added c es)
  now : ∀ c, s.now c = UInt64.ofNat (added c (beforeLast (Event.isLoad c) es))
  lastPeriod : ∀ c, c.lastPeriod s.metrics =
    if c ∈ s.toLoad then s.now c
    else UInt64.ofNat
      (added c (beforeLast (Event.isLoad c) (beforeLast (Event.isLoad c) es)))

section Steps

variable {es : List Event} {s s' : Sampler} {e : Event}

theorem records_fresh (file : List ReportLine) : Records [] (fresh file) where
  suffix := List.suffix_rfl
  live c := Reporter.live_fresh c
  now _ := rfl
  lastPeriod c := (Reporter.lastPeriod_fresh c).trans (if_pos (mem_loads c)).symm

/-- A step of the manager or the scanner. -/
theorem Records.write (h : Records es s) (write : ∀ c, e.isLoad c = false)
    (now : s'.now = s.now) (toLoad : s'.toLoad = s.toLoad)
    (live : ∀ c : Column, c.live s'.metrics.toMetrics =
      c.live s.metrics.toMetrics + UInt64.ofNat (e.amount c))
    (lastPeriod : ∀ c : Column, c.lastPeriod s'.metrics = c.lastPeriod s.metrics) :
    Records (es ++ [e]) s' := by
  have hcut : ∀ c, beforeLast (Event.isLoad c) (es ++ [e]) = beforeLast (Event.isLoad c) es := by
    intro c
    rw [beforeLast_snoc, write, if_neg Bool.false_ne_true]
  constructor
  case suffix =>
    rw [toLoad]
    exact h.suffix
  case live =>
    intro c
    rw [live, h.live, added_snoc, UInt64.ofNat_add]
  case now =>
    intro c
    rw [now, hcut, h.now]
  case lastPeriod =>
    intro c
    rw [lastPeriod, toLoad, now, hcut, h.lastPeriod]

theorem Records.load {c₀ : Column} (h : Records es s) (turn : s.toLoad.head? = some c₀) :
    Records (es ++ [.load c₀]) (s.load c₀) := by
  obtain ⟨rest, hrest⟩ := List.head?_eq_some_iff.mp turn
  have hnodup : (c₀ :: rest).Nodup := by
    rw [← hrest]
    exact h.suffix.sublist.nodup nodup_loads
  have hcut : ∀ c, beforeLast (Event.isLoad c) (es ++ [.load c₀]) =
      if c₀ = c then es else beforeLast (Event.isLoad c) es := by
    intro c
    rw [beforeLast_snoc]
    simp [Event.isLoad]
  constructor
  case suffix => exact (List.tail_suffix _).trans h.suffix
  case live =>
    intro c
    rw [added_snoc]
    exact h.live c
  case now =>
    intro c
    rw [hcut]
    by_cases hc : c₀ = c
    · subst hc
      rw [if_pos rfl, ← h.live]
      exact Function.update_self ..
    · rw [if_neg hc, ← h.now]
      exact Function.update_of_ne (Ne.symm hc) ..
  case lastPeriod =>
    intro c
    have hlast := h.lastPeriod c
    rw [hrest] at hlast
    have hrest' : (s.load c₀).toLoad = rest := by rw [Sampler.load, hrest, List.tail_cons]
    rw [hcut, hrest']
    by_cases hc : c₀ = c
    · subst hc
      rw [if_pos List.mem_cons_self, h.now] at hlast
      rw [if_pos rfl, if_neg (List.nodup_cons.mp hnodup).1]
      exact hlast
    · simp only [List.mem_cons, Ne.symm hc, false_or] at hlast
      rw [if_neg hc]
      refine hlast.trans ?_
      congr 1
      exact (Function.update_of_ne (Ne.symm hc) ..).symm

/-- After a report every column is to be loaded again. -/
theorem Records.report (h : Records es s) (opens : Bool) (serverConfig : ServerMemoryConfig)
    (interval : Int) :
    Records (es ++ [.report opens serverConfig interval])
      (s.report opens serverConfig interval) := by
  have hcut : ∀ c, beforeLast (Event.isLoad c) (es ++ [.report opens serverConfig interval]) =
      beforeLast (Event.isLoad c) es := fun c => beforeLast_snoc _ es _
  constructor
  case suffix => exact List.suffix_rfl
  case live =>
    intro c
    rw [added_snoc]
    exact h.live c
  case now =>
    intro c
    rw [hcut]
    exact h.now c
  case lastPeriod =>
    intro c
    calc c.lastPeriod (s.report opens serverConfig interval).metrics
        = c.live s.loaded.metrics.toMetrics :=
          (Reporter.lastPeriod_toMetrics c _ _).trans (Reporter.lastPeriod_apply s.loaded c _)
      _ = s.now c := live_ofNow c s.now
      _ = _ := (if_pos (mem_loads c)).symm

/-- An increment, of an access or not. -/
theorem increment_cases {counter : Counter} (done : (Event.increment counter).apply s = some s') :
    s'.toReporter = Reporter.Event.apply s.toReporter (.increment counter) ∧
      s'.now = s.now ∧ s'.toLoad = s.toLoad := by
  simp only [Event.apply] at done
  split at done
  · obtain ⟨-, heq⟩ := Option.ite_none_right_eq_some.mp done
    cases heq
    exact ⟨rfl, rfl, rfl⟩
  · cases done
    exact ⟨rfl, rfl, rfl⟩

/-- **The step lemma.** -/
theorem Records.step (h : Records es s) (done : e.apply s = some s') : Records (es ++ [e]) s' := by
  have hwrite : ∀ (write : Reporter.Event) (c : Column), write.isReset = false →
      c.live (write.apply s.toReporter).metrics.toMetrics =
        c.live s.metrics.toMetrics + UInt64.ofNat (write.amount c) := by
    intro write c hreset
    rw [Reporter.live_apply, hreset, if_neg Bool.false_ne_true]
  cases e with
  | recordAccessLatency latency =>
    obtain ⟨-, heq⟩ := Option.ite_none_left_eq_some.mp done
    cases heq
    exact h.write (fun _ => rfl) rfl rfl (fun c => hwrite (.recordAccessLatency latency) c rfl)
      fun c => Reporter.lastPeriod_apply s.toReporter c (.recordAccessLatency latency)
  | increment counter =>
    obtain ⟨hreporter, hnow, htoLoad⟩ := increment_cases done
    apply h.write (fun _ => rfl) hnow htoLoad
    · intro c
      rw [hreporter]
      exact hwrite (.increment counter) c rfl
    · intro c
      rw [hreporter]
      exact Reporter.lastPeriod_apply s.toReporter c (.increment counter)
  | load c =>
    obtain ⟨turn, heq⟩ := Option.ite_none_right_eq_some.mp done
    cases heq
    exact h.load turn
  | report opens serverConfig interval =>
    obtain ⟨-, heq⟩ := Option.ite_none_right_eq_some.mp done
    cases heq
    exact h.report opens serverConfig interval

/-- **A delta is what was added between the last two loads** of its column. -/
theorem Records.delta (h : Records es s) (ready : s.toLoad = []) (c : Column) :
    c.delta s.period = UInt64.ofNat (between c es) := by
  have hsum : added c (beforeLast (Event.isLoad c) es) =
      added c (beforeLast (Event.isLoad c) (beforeLast (Event.isLoad c) es)) + between c es :=
    sum_eq_add fun _ => amount_of_isLoad
  have hlast := h.lastPeriod c
  rw [ready, if_neg List.not_mem_nil] at hlast
  calc c.delta s.period
      = c.live (.ofNow s.now) - c.lastPeriod s.loaded.metrics := Reporter.delta_currentPeriod c _
    _ = s.now c - c.lastPeriod s.metrics := by
      rw [live_ofNow]
      exact congrArg _ (Reporter.lastPeriod_toMetrics c s.metrics _)
    _ = UInt64.ofNat (between c es) := by
      rw [h.now, hlast, hsum, UInt64.ofNat_add]
      exact add_sub_cancel_left _ _

/-- A register is above zero unless what came into it wrapped to zero. -/
theorem ofNat_pos_iff (n : Nat) : 0 < UInt64.ofNat n ↔ ¬ 2 ^ 64 ∣ n := by
  rw [UInt64.lt_iff_toNat_lt, UInt64.toNat_ofNat', UInt64.toNat_zero, Nat.pos_iff_ne_zero,
    Nat.dvd_iff_mod_eq_zero]

/-- **When a report's division is guarded**, from the history of the report. -/
theorem Records.guarded_iff (h : Records es s) (ready : s.toLoad = []) :
    (0 < s.period.currentLatency → 0 < s.period.currentAccess) ↔
      (2 ^ 64 ∣ between .latency es ∨ ¬ 2 ^ 64 ∣ counted es) := by
  have hlatency : s.period.currentLatency = UInt64.ofNat (between .latency es) :=
    h.delta ready .latency
  have haccess : s.period.currentAccess = UInt64.ofNat (counted es) := by
    unfold counted
    rw [UInt64.ofNat_add, UInt64.ofNat_add, ← h.delta ready, ← h.delta ready, ← h.delta ready]
    rfl
  rw [hlatency, haccess, ofNat_pos_iff, ofNat_pos_iff]
  exact (Decidable.imp_iff_not_or).trans (or_congr Decidable.not_not Iff.rfl)

end Steps

/-! ## Runs -/

/-- Loads with nothing between them. -/
def loadAll (s : Sampler) (cs : List Column) : Sampler := cs.foldl (fun s c => s.load c) s

theorem loads_run {cs : List Column} {s : Sampler} (toLoad : s.toLoad = cs) :
    (s.loadAll cs).toLoad = [] ∧
      ∃ es, es.map (·.2) = cs.map .load ∧ Trace Step s es (s.loadAll cs) := by
  induction cs generalizing s with
  | nil => exact ⟨toLoad, [], rfl, .nil s⟩
  | cons c cs ih =>
    have hturn : s.toLoad.head? = some c := by rw [toLoad, List.head?_cons]
    have hrest : (s.load c).toLoad = cs := by rw [load, toLoad, List.tail_cons]
    obtain ⟨hready, es, hevents, run⟩ := ih hrest
    refine ⟨hready, (s, .load c) :: es, ?_, .cons ⟨rfl, if_pos hturn⟩ run⟩
    rw [List.map_cons, hevents, List.map_cons]

/-- A report with nothing between its loads, as a run. -/
theorem report_run {s : Sampler} (toLoad : s.toLoad = loads) (opens : Bool)
    (serverConfig : ServerMemoryConfig) (interval : Int) :
    ∃ es, (es ++ [(s.loadAll loads, Event.report opens serverConfig interval)]).map (·.2) =
        loads.map .load ++ [.report opens serverConfig interval] ∧
      Trace Step s (es ++ [(s.loadAll loads, Event.report opens serverConfig interval)])
        ((s.loadAll loads).report opens serverConfig interval) := by
  obtain ⟨hready, es, hevents, run⟩ := loads_run toLoad
  refine ⟨es, ?_, run.snoc ⟨rfl, if_pos hready⟩⟩
  rw [List.map_append, hevents]
  rfl

/-- **A report that nothing interrupts** is a report on the counters as they are. -/
theorem report_alone (s : Sampler) (opens : Bool) (serverConfig : ServerMemoryConfig)
    (interval : Int) :
    ((s.loadAll loads).report opens serverConfig interval).toReporter =
      Reporter.Event.apply s.toReporter (.periodicalMetrics opens serverConfig interval) := by
  have hloaded : (s.loadAll loads).loaded = s.toReporter := rfl
  unfold report
  rw [hloaded]
  cases opens <;> rfl

/-- Every report of the run that divides has accesses to divide by. -/
def Guarded (es : List (Sampler × Event)) : Prop :=
  ∀ e ∈ es, e.2.isReport = true →
    0 < e.1.period.currentLatency → 0 < e.1.period.currentAccess

/-- No report of the history comes when latency was added between the last two loads of the total,
and no access counted between the last two loads of its counter. Sums that are multiples of `2 ^ 64`
leave a register as it was. -/
def Sampled (es : List Event) : Prop :=
  ∀ m ∈ moments [] es, m.2.isReport = true →
    2 ^ 64 ∣ between .latency m.1 ∨ ¬ 2 ^ 64 ∣ counted m.1

instance (es : List Event) : Decidable (Sampled es) := inferInstanceAs (Decidable (∀ m ∈ _, _))

/-- One more step: if it is a report, it is guarded as its history tells. -/
theorem Records.guarded_snoc {es : List (Sampler × Event)} {s s' : Sampler} {e : Event}
    (h : Records (es.map (·.2)) s) (done : e.apply s = some s')
    (hiff : Guarded es ↔ Sampled (es.map (·.2))) :
    Guarded (es ++ [(s, e)]) ↔ Sampled (es.map (·.2) ++ [e]) := by
  unfold Guarded Sampled at hiff ⊢
  rw [moments_snoc, List.nil_append, List.forall_mem_append, List.forall_mem_append, hiff,
    List.forall_mem_singleton, List.forall_mem_singleton]
  refine and_congr_right fun _ => ?_
  cases e with
  | report =>
    obtain ⟨ready, -⟩ := Option.ite_none_right_eq_some.mp done
    simp only [Event.isReport, forall_const]
    exact h.guarded_iff ready
  | recordAccessLatency | increment | load => exact iff_of_true nofun nofun

/-- **Divisions are guarded in a run**, whatever its steps and their order, exactly if none of its
reports sees latency and no access. -/
theorem divisions_guarded_iff {file : List ReportLine} {es : List (Sampler × Event)} {s : Sampler}
    (run : Trace Step (fresh file) es s) : Guarded es ↔ Sampled (es.map (·.2)) := by
  let Holds (es : List (Sampler × Event)) (s : Sampler) : Prop :=
    Records (es.map (·.2)) s ∧ (Guarded es ↔ Sampled (es.map (·.2)))
  have keeps : ∀ es s e s', Holds es s → Step s e s' → Holds (es ++ [e]) s' := by
    rintro es _ ⟨s, e⟩ s' ⟨h, hiff⟩ ⟨rfl, done⟩
    have hmap : (es ++ [(s, e)]).map (·.2) = es.map (·.2) ++ [e] := List.map_append
    refine ⟨?_, ?_⟩
    · rw [hmap]
      exact h.step done
    · rw [hmap]
      exact h.guarded_snoc done hiff
  have hstart : Holds [] (fresh file) := ⟨records_fresh file, iff_of_true nofun nofun⟩
  exact (run.invariant_with keeps hstart).2

/-- The latency of the first access is loaded, and its count not yet made. -/
theorem half_an_access_reported : ∃ es s, Trace Step (fresh []) es s ∧
    es.map (·.2) = .recordAccessLatency 100 ::
      (loads.map .load ++ [.report true { numTiers := 2 } 0]) ∧
    ¬ Guarded es := by
  have hrecord : ∃ s, Step (fresh []) (fresh [], .recordAccessLatency 100) s ∧ s.toLoad = loads ∧
      0 < (s.loadAll loads).period.currentLatency ∧
      (s.loadAll loads).period.currentAccess = 0 :=
    ⟨_, ⟨rfl, rfl⟩, rfl, by decide, by decide⟩
  obtain ⟨s, hstep, toLoad, hlatency, haccess⟩ := hrecord
  obtain ⟨es, hevents, run⟩ := report_run toLoad true { numTiers := 2 } 0
  refine ⟨_, _, .cons hstep run, by rw [List.map_cons, hevents], ?_⟩
  intro hguarded
  have hpos := hguarded (s.loadAll loads, .report true { numTiers := 2 } 0) (by simp) rfl hlatency
  rw [haccess] at hpos
  exact absurd hpos (by decide)

theorem whole_access_reported : ∃ es s, Trace Step (fresh []) es s ∧
    es.map (·.2) = .recordAccessLatency 100 :: .increment .localAccess ::
      (loads.map .load ++ [.report true { numTiers := 2 } 0]) ∧
    Guarded es := by
  have haccess : ∃ s₁ s₂, Step (fresh []) (fresh [], .recordAccessLatency 100) s₁ ∧
      Step s₁ (s₁, .increment .localAccess) s₂ ∧ s₂.toLoad = loads :=
    ⟨_, _, ⟨rfl, rfl⟩, ⟨rfl, rfl⟩, rfl⟩
  obtain ⟨s₁, s₂, hfirst, hsecond, toLoad⟩ := haccess
  obtain ⟨es, hevents, run⟩ := report_run toLoad true { numTiers := 2 } 0
  have hwhole := Trace.cons hfirst (.cons hsecond run)
  have hsampled : Sampled (.recordAccessLatency 100 :: .increment .localAccess ::
      (loads.map .load ++ [.report true { numTiers := 2 } 0])) := by decide +kernel
  refine ⟨_, _, hwhole, by rw [List.map_cons, List.map_cons, hevents],
    (divisions_guarded_iff hwhole).mpr ?_⟩
  rw [List.map_cons, List.map_cons, hevents]
  exact hsampled

end Sampler

end MemoryTiering
