import MemoryTiering.Laws.PageTable.Effect

/-!
# Migrations conserve pages

Three counters say how many pages each tier holds, and six say how many went from one to another.
They are kept apart: the first go up and down through pointers captured before a nested call, the
others are chosen by a chain of tests. Both follow the migrations a run completes, so each tier
holds what it held at the start, and what came, without what left (`migrations_conserve`).
-/

set_option autoImplicit false

namespace MemoryTiering

open Pointer Transition

/-- The counter the chain of tests chooses; a move within a layer has none. -/
def Metrics.migrations (m : Metrics) : PageLayer → PageLayer → UInt64
  | .numaLocal, .numaRemote => m.localToRemoteCount
  | .numaLocal, .pmem => m.localToPmemCount
  | .numaRemote, .numaLocal => m.remoteToLocalCount
  | .numaRemote, .pmem => m.remoteToPmemCount
  | .pmem, .numaLocal => m.pmemToLocalCount
  | .pmem, .numaRemote => m.pmemToRemoteCount
  | .numaLocal, .numaLocal => 0
  | .numaRemote, .numaRemote => 0
  | .pmem, .pmem => 0

theorem Metrics.migrations_incrementMigration (m : Metrics) {current target l l' : PageLayer}
    (h : l ≠ l') :
    (m.incrementMigration current target).migrations l l' =
      m.migrations l l' + if current = l ∧ target = l' then 1 else 0 := by
  cases current <;> cases target <;> cases l <;> cases l' <;>
    first | exact (h rfl).elim | rfl | exact (UInt64.add_zero _).symm

theorem Metrics.migrations_incrementAccess (m : Metrics) (layer l l' : PageLayer)
    (accessTime : UInt64) :
    ((m.recordAccessLatency accessTime).incrementAccess layer).migrations l l' =
      m.migrations l l' := by
  cases layer <;> cases l <;> cases l' <;> rfl

namespace PageTable

/-! ## The flow between tiers -/

/-- The migrations a run completes, in order. -/
def movesOf (es : List (PageTable × Call)) : List Move := es.flatMap fun e => e.2.moves e.1

/-- How many of them go from one layer to another. -/
def flow (es : List (PageTable × Call)) (current target : PageLayer) : Nat :=
  (movesOf es).countP fun mv => mv.current = current ∧ mv.target = target

def inflow (es : List (PageTable × Call)) (layer : PageLayer) : Nat :=
  (movesOf es).countP fun mv => mv.target = layer

def outflow (es : List (PageTable × Call)) (layer : PageLayer) : Nat :=
  (movesOf es).countP fun mv => mv.current = layer

theorem movesOf_snoc (es : List (PageTable × Call)) (t : PageTable) (c : Call) :
    movesOf (es ++ [(t, c)]) = movesOf es ++ c.moves t := by
  unfold movesOf
  rw [List.flatMap_append, List.flatMap_singleton]

/-- What comes to a layer comes from somewhere. -/
theorem inflow_eq (es : List (PageTable × Call)) (layer : PageLayer) :
    inflow es layer =
      flow es .numaLocal layer + flow es .numaRemote layer + flow es .pmem layer := by
  unfold inflow flow
  induction movesOf es with
  | nil => rfl
  | cons mv mvs ih =>
    simp only [List.countP_cons, ih]
    cases mv.current <;> by_cases hl : mv.target = layer <;> simp [hl] <;> omega

/-- What leaves a layer goes somewhere. -/
theorem outflow_eq (es : List (PageTable × Call)) (layer : PageLayer) :
    outflow es layer =
      flow es layer .numaLocal + flow es layer .numaRemote + flow es layer .pmem := by
  unfold outflow flow
  induction movesOf es with
  | nil => rfl
  | cons mv mvs ih =>
    simp only [List.countP_cons, ih]
    cases mv.target <;> by_cases hl : mv.current = layer <;> simp [hl] <;> omega

/-! ## The ledger -/

/-- The counters against the migrations so far. -/
structure Ledger (t₀ : PageTable) (es : List (PageTable × Call)) (t : PageTable) : Prop where
  coherent : t.Coherent
  tallied : t.Tallied
  counters : ∀ layer, (t.serverConfig.layer layer).count.toNat + outflow es layer =
    (t₀.serverConfig.layer layer).count.toNat + inflow es layer
  metrics : ∀ current target, current ≠ target → t.metrics.migrations current target =
    t₀.metrics.migrations current target + UInt64.ofNat (flow es current target)

section Runs

variable {t₀ t t' : PageTable} {es : List (PageTable × Call)} {c : Call}

/-- A call that completes no migration changes no counter. -/
theorem Ledger.still (h : Ledger t₀ es t) (hcoherent : t'.Coherent) (htally : t'.Tallied)
    (moves : c.moves t = []) (counters : t'.serverConfig = t.serverConfig)
    (metrics : ∀ l l', t'.metrics.migrations l l' = t.metrics.migrations l l') :
    Ledger t₀ (es ++ [(t, c)]) t' := by
  have hmoves : movesOf (es ++ [(t, c)]) = movesOf es := by
    rw [movesOf_snoc, moves, List.append_nil]
  constructor
  case coherent => exact hcoherent
  case tallied => exact htally
  case counters =>
    intro layer
    unfold outflow inflow
    rw [hmoves, counters]
    exact h.counters layer
  case metrics =>
    intro current target hne
    unfold flow
    rw [hmoves, metrics]
    exact h.metrics current target hne

/-- A migration is written in both books. -/
theorem Ledger.move (h : Ledger t₀ es t) (hcoherent : t'.Coherent) (htally : t'.Tallied)
    {mv : Move} (before : t.layer? mv.page = some mv.current)
    (room : (t.serverConfig.layer mv.target).isFull = false) (moves : c.moves t = [mv])
    (counters : t'.serverConfig = t.serverConfig.recount mv.current mv.target)
    (metrics : t'.metrics = t.metrics.incrementMigration mv.current mv.target) :
    Ledger t₀ (es ++ [(t, c)]) t' := by
  have hmoves : movesOf (es ++ [(t, c)]) = movesOf es ++ [mv] := by
    rw [movesOf_snoc, moves]
  constructor
  case coherent => exact hcoherent
  case tallied => exact htally
  case counters =>
    intro layer
    have hcounters := h.counters layer
    have hrecount := toNat_recount h.tallied before room layer
    unfold outflow inflow at hcounters ⊢
    rw [hmoves, counters, List.countP_append, List.countP_append, List.countP_singleton,
      List.countP_singleton]
    simp only [decide_eq_true_eq]
    omega
  case metrics =>
    intro current target hne
    unfold flow
    rw [hmoves, metrics, Metrics.migrations_incrementMigration _ hne, h.metrics _ _ hne,
      List.countP_append, List.countP_singleton, UInt64.ofNat_add, UInt64.add_assoc]
    simp only [decide_eq_true_eq]
    congr 2
    split <;> rfl

/-- **The step lemma.** -/
theorem Ledger.step (h : Ledger t₀ es t) (call : c.apply t = .ok t') :
    Ledger t₀ (es ++ [(t, c)]) t' := by
  obtain ⟨hcoherent, hshift⟩ := h.coherent.call call
  have htally := h.tallied.shift hshift
  cases h.coherent.effect call with
  | absent missing => exact h.still hcoherent htally rfl rfl fun _ _ => rfl
  | accessed found records counters accessTime metrics =>
    refine h.still hcoherent htally rfl counters ?_
    intro l l'
    rw [metrics, Metrics.migrations_incrementAccess]
  | stayed records counters metrics moves refused =>
    exact h.still hcoherent htally moves counters fun _ _ => by rw [metrics]
  | moved found records room counters metrics moves =>
    refine h.move hcoherent htally ?_ room moves counters metrics
    rw [layer?_eq_record, found, Option.map_some]
  | scanned => exact h.still hcoherent htally rfl rfl fun _ _ => rfl

/-- **The run lemma.** -/
theorem Ledger.run (hcoherent : t₀.Coherent) (htally : t₀.Tallied) (run : Trace Step t₀ es t) :
    Ledger t₀ es t := by
  have hstart : Ledger t₀ [] t₀ := by
    refine ⟨hcoherent, htally, fun _ => rfl, ?_⟩
    intro current target _
    exact (UInt64.add_zero _).symm
  have hrun := run.invariant_with (P := Ledger t₀) ?_ hstart
  · exact hrun
  · rintro es s ⟨s₀, c⟩ s' h ⟨rfl, call⟩
    exact h.step call

/-- From metrics that are all zero, they are the flows, as long as these fit. -/
theorem Ledger.toNat_migrations (h : Ledger t₀ es t) (zero : t₀.metrics = {})
    {current target : PageLayer} (hne : current ≠ target)
    (below : flow es current target < 2 ^ 64) :
    (t.metrics.migrations current target).toNat = flow es current target := by
  have hnone : t₀.metrics.migrations current target = 0 := by
    rw [zero]
    cases current <;> cases target <;> rfl
  rw [h.metrics current target hne, hnone, UInt64.zero_add, SizeT.toNat_ofNat below]

/-- The counters, by where the pages came from and went. -/
theorem Ledger.books (h : Ledger t₀ es t) (layer : PageLayer) :
    (t.serverConfig.layer layer).count.toNat +
        (flow es layer .numaLocal + flow es layer .numaRemote + flow es layer .pmem) =
      (t₀.serverConfig.layer layer).count.toNat +
        (flow es .numaLocal layer + flow es .numaRemote layer + flow es .pmem layer) := by
  rw [← inflow_eq, ← outflow_eq]
  exact h.counters layer

end Runs

/-- **Migrations conserve pages**, with a ring or without, over every run of completed calls: what a
tier's counter gained since the start is what the metrics say came, less what they say left. Fewer
than `2 ^ 64` migrations of each kind, so that the metrics are exact. -/
theorem migrations_conserve {clients : List ClientConfig} {server : ServerMemoryConfig}
    {ring : Bool} {alloc : Allocation} {t₀ t : PageTable} {es : List (PageTable × Call)}
    (tiers : server.numTiers = 2 ∨ server.numTiers = 3)
    (empty : ∀ layer, (server.layer layer).count = 0)
    (start : (new clients server ring).initPageTable alloc = .ok t₀)
    (run : Trace Step t₀ es t)
    (below : ∀ current target, current ≠ target → flow es current target < 2 ^ 64) :
    (t.serverConfig.localNuma.count.toNat : ℤ) =
        t₀.serverConfig.localNuma.count.toNat + t.metrics.remoteToLocalCount.toNat +
          t.metrics.pmemToLocalCount.toNat - t.metrics.localToRemoteCount.toNat -
          t.metrics.localToPmemCount.toNat ∧
      (t.serverConfig.remoteNuma.count.toNat : ℤ) =
        t₀.serverConfig.remoteNuma.count.toNat + t.metrics.localToRemoteCount.toNat +
          t.metrics.pmemToRemoteCount.toNat - t.metrics.remoteToLocalCount.toNat -
          t.metrics.remoteToPmemCount.toNat ∧
      (t.serverConfig.pmem.count.toNat : ℤ) =
        t₀.serverConfig.pmem.count.toNat + t.metrics.localToPmemCount.toNat +
          t.metrics.remoteToPmemCount.toNat - t.metrics.pmemToLocalCount.toNat -
          t.metrics.pmemToRemoteCount.toNat := by
  have hinit := initPageTable_spec tiers empty start
  have h := Ledger.run hinit.coherent hinit.tallied run
  have hzero : t₀.metrics = {} := hinit.frame.metrics
  have hmetrics : ∀ current target, current ≠ target →
      (t.metrics.migrations current target).toNat = flow es current target :=
    fun current target hne => h.toNat_migrations hzero hne (below current target hne)
  have hlr : t.metrics.localToRemoteCount.toNat = _ := hmetrics .numaLocal .numaRemote (by decide)
  have hlp : t.metrics.localToPmemCount.toNat = _ := hmetrics .numaLocal .pmem (by decide)
  have hrl : t.metrics.remoteToLocalCount.toNat = _ := hmetrics .numaRemote .numaLocal (by decide)
  have hrp : t.metrics.remoteToPmemCount.toNat = _ := hmetrics .numaRemote .pmem (by decide)
  have hpl : t.metrics.pmemToLocalCount.toNat = _ := hmetrics .pmem .numaLocal (by decide)
  have hpr : t.metrics.pmemToRemoteCount.toNat = _ := hmetrics .pmem .numaRemote (by decide)
  have hlocal := h.books .numaLocal
  have hremote := h.books .numaRemote
  have hpmem := h.books .pmem
  simp only [ServerMemoryConfig.layer] at hlocal hremote hpmem
  omega

/-- One page goes from remote memory to PMEM, and the books agree. -/
theorem demotion_conserves : ∃ t₀ t : PageTable,
    (new (smallConfig 1 1 (by decide)).clients (smallConfig 1 1 (by decide)).server
      true).initPageTable plainAllocation = .ok t₀ ∧
    Trace Step t₀ [(t₀, .migratePage 0 0 1 .pmem)] t ∧ t.metrics.remoteToPmemCount = 1 ∧
    (t.serverConfig.pmem.count.toNat : ℤ) =
      t₀.serverConfig.pmem.count.toNat + t.metrics.localToPmemCount.toNat +
        t.metrics.remoteToPmemCount.toNat - t.metrics.pmemToLocalCount.toNat -
        t.metrics.pmemToRemoteCount.toNat := by
  have hrun : ∃ t₀ t : PageTable, (new (smallConfig 1 1 (by decide)).clients
        (smallConfig 1 1 (by decide)).server true).initPageTable plainAllocation = .ok t₀ ∧
      Trace Step t₀ [(t₀, .migratePage 0 0 1 .pmem)] t ∧
      movesOf [(t₀, .migratePage 0 0 1 .pmem)] = [⟨1, .numaRemote, .pmem, 0⟩] ∧
      t.metrics.remoteToPmemCount = 1 :=
    ⟨_, _, rfl, Trace.single.mpr ⟨rfl, rfl⟩, rfl, rfl⟩
  obtain ⟨t₀, t, start, run, hmoves, hcount⟩ := hrun
  have hbooks := migrations_conserve (.inr rfl) (by intro layer; cases layer <;> rfl) start run (by
    intro current target _
    unfold flow
    rw [hmoves]
    cases current <;> cases target <;> decide)
  exact ⟨t₀, t, start, run, hcount, hbooks.2.2⟩

end PageTable

end MemoryTiering
