import MemoryTiering.Laws.PageTable.Filling
import MemoryTiering.Lib.Trace

/-!
# Runs of the page table

A run is a trace of completed calls from the table an accepted configuration starts with. A label
is a call and the table it was made on, so the labels of a run are its history: what a law says of
every state of a run it says of the labels and of the last state. What the manager and the scanner
do is such a run (`Driven.is_run`), under any policy and any clock.
-/

set_option autoImplicit false

namespace MemoryTiering

open Fallible Pointer Transition

/-- The table the server starts with. -/
def AcceptedConfig.start (config : AcceptedConfig) (enableCacheRing : Bool)
    (alloc : PageTable.Allocation) : Except Fault PageTable :=
  (PageTable.new config.clients config.server enableCacheRing).initPageTable alloc

namespace PageTable

/-- The calls of the manager and of the scanner. -/
inductive Call where
  | accessPage (latency : SizeT → OperationType → UInt64) (now : Nat) (pageId : PageId)
      (mode : OperationType)
  | migratePage (evictNow now : Nat) (pageId : PageId) (target : PageLayer)
  | scanNext

/-- The table after a call. -/
def Call.apply (t : PageTable) : Call → Except Fault PageTable
  | .accessPage latency now pageId mode => t.accessPage latency now pageId mode
  | .migratePage evictNow now pageId target => do
    let answer ← t.migratePage evictNow now pageId target
    .ok answer.2
  | .scanNext => .ok t.scanNext.2

/-- One completed call. -/
structure Step (t : PageTable) (e : PageTable × Call) (t' : PageTable) : Prop where
  before : e.1 = t
  call : e.2.apply t = .ok t'

/-! ## What each call answers -/

section Calls

variable {t t' : PageTable} {p : PageId}

/-- A completed migration and where it returned. -/
theorem apply_migratePage {evictNow now : Nat} {target : PageLayer}
    (h : (Call.migratePage evictNow now p target).apply t = .ok t') :
    ∃ exit, t.migratePage evictNow now p target = .ok (exit, t') := by
  obtain ⟨⟨exit, t₁⟩, hcall, h⟩ := bind_eq_ok.mp h
  cases h
  exact ⟨exit, hcall⟩

/-- What an access that returns leaves: the page's mark, its stamp and count, and the metrics. -/
theorem accessPage_cases {latency : SizeT → OperationType → UInt64} {now : Nat}
    {mode : OperationType} (h : t.accessPage latency now p mode = .ok t') :
    (t.meta? p = none ∧ t' = t) ∨
      ∃ e t₁, t.table.lookup p = some e ∧
        t' = { t₁.store p (.accessed now) with
          metrics := (t.metrics.recordAccessLatency (latency e.pageAddress mode)).incrementAccess
            e.metadata.pageLayer } ∧
        (((t.localCacheRing = none ∨ e.metadata.pageLayer ≠ .numaLocal) ∧ t₁ = t) ∨
          ∃ ring ring', t.localCacheRing = some ring ∧
            ring.markAccessed e.metadata.ringNodePtr = .ok ring' ∧ t₁ = t.withRing ring') := by
  unfold accessPage at h
  cases he : t.table.lookup p with
  | none =>
    rw [he] at h
    cases h
    exact .inl ⟨by rw [meta?, he, Option.map_none], rfl⟩
  | some e =>
    simp only [he] at h
    refine .inr ⟨e, ?_⟩
    split at h
    next ring hring hlayer =>
      obtain ⟨ring', hmark, h⟩ := bind_eq_ok.mp h
      cases h
      exact ⟨t.withRing ring', rfl, rfl, .inr ⟨ring, ring', hring, hmark, rfl⟩⟩
    next hskip =>
      cases h
      refine ⟨t, rfl, rfl, .inl ⟨?_, rfl⟩⟩
      cases hring : t.localCacheRing with
      | none => exact .inl rfl
      | some ring => exact .inr fun hlayer => hskip ring hring hlayer

/-- An access moves no page. -/
theorem sameLayers_accessPage {latency : SizeT → OperationType → UInt64} {now : Nat}
    {mode : OperationType} (h : t.accessPage latency now p mode = .ok t') : SameLayers t t' := by
  rcases accessPage_cases h with ⟨_, rfl⟩ | ⟨e, t₁, _, rfl, hring⟩
  · exact .refl _
  · have h₁ : SameLayers t t₁ := by
      rcases hring with ⟨_, rfl⟩ | ⟨_, ring', _, _, rfl⟩
      · exact .refl _
      · exact sameLayers_withRing t ring'
    have h₂ := sameLayers_store t₁ p
      (f := .accessed now)
      fun _ => rfl
    exact h₁.trans ⟨h₂.serverConfig, h₂.layer, h₂.population, h₂.size⟩

/-- Scanning moves no page. -/
theorem sameLayers_scanNext (t : PageTable) : SameLayers t t.scanNext.2 :=
  ⟨rfl, fun _ => rfl, fun _ => rfl, rfl⟩

end Calls

end PageTable

/-! ## The start -/

/-- `size_t` sums are sums modulo `2 ^ 64`. -/
theorem toNat_foldl_add (clients : List ClientConfig) (i : Nat) (total : SizeT) :
    (clients.foldl (fun total client => total + client.tier i) total).toNat =
      (total.toNat + (clients.map fun client => (client.tier i).toNat).sum) % 2 ^ 64 := by
  induction clients generalizing total with
  | nil =>
    rw [List.foldl_nil, List.map_nil, List.sum_nil, Nat.add_zero, Nat.mod_eq_of_lt total.toNat_lt]
  | cons client clients ih =>
    rw [List.foldl_cons, ih, UInt64.toNat_add, Nat.mod_add_mod, List.map_cons, List.sum_cons,
      Nat.add_assoc]

/-- A tier's total, when it does not wrap. -/
theorem toNat_tierTotal {clients : List ClientConfig} {i : Nat}
    (h : (clients.map fun client => (client.tier i).toNat).sum < 2 ^ 64) :
    (tierTotal clients i).toNat = (clients.map fun client => (client.tier i).toNat).sum := by
  rw [tierTotal, toNat_foldl_add, UInt64.toNat_zero, Nat.zero_add, Nat.mod_eq_of_lt h]

/-- A layer's demand is one tier's total. -/
theorem demand_eq {numTiers i : Nat} {clients : List ClientConfig} {layer : PageLayer}
    (h : tierIndex numTiers layer = some i) :
    demand numTiers clients layer = (clients.map fun client => (client.tier i).toNat).sum := by
  simp only [demand, ClientConfig.share, h, Option.map_some, Option.getD_some]

/-- No client asks for pages of a layer the server does not have. -/
theorem demand_eq_zero {numTiers : Nat} {clients : List ClientConfig} {layer : PageLayer}
    (h : tierIndex numTiers layer = none) : demand numTiers clients layer = 0 := by
  simp only [demand, ClientConfig.share, h, Option.map_none, Option.getD_none, List.map_const',
    List.sum_replicate_nat, Nat.mul_zero]

section Accepted

variable {config : AcceptedConfig} {ring : Bool} {alloc : PageTable.Allocation} {t : PageTable}

/-- The checks of `_validateMemoryConfiguration`, one at a time. -/
theorem AcceptedConfig.tierTotal_le (config : AcceptedConfig) {i : Nat} (hi : i < config.numTiers) :
    (tierTotal config.clients i).toNat ≤ ((tierLimits config.server).getD i 0).toNat := by
  have hall := List.all_eq_true.mp config.valid i
    (List.mem_range.mpr (by rw [config.server_eq.1]; exact hi))
  rwa [decide_eq_true_iff, UInt64.le_iff_toNat_le] at hall

/-- Two tiers leave `NUMA_REMOTE` no room. -/
theorem AcceptedConfig.remote_of_two (config : AcceptedConfig) (h : config.numTiers = 2) :
    config.server.remoteNuma.capacity = 0 := by
  have hparsed := config.parsed
  unfold parseServerConfig at hparsed
  split at hparsed
  · cases hparsed
  · rw [← Option.some.inj hparsed, h]
    rfl

theorem AcceptedConfig.initial (h : config.start ring alloc = .ok t) :
    PageTable.Initial config.clients config.server ring t :=
  PageTable.initPageTable_spec (by rw [config.server_eq.1]; exact config.tiers)
    config.server_eq.2 h

/-- The demand of a table that was filled did not wrap. -/
theorem PageTable.Initial.demand_lt {clients : List ClientConfig} {server : ServerMemoryConfig}
    (h : PageTable.Initial clients server ring t) (layer : PageLayer) :
    demand server.numTiers clients layer < 2 ^ 64 := by
  rw [← h.population]
  exact Nat.lt_of_le_of_lt (t.population_le layer) h.numbered.small

/-- `local_page_load_` is the clients' NUMA-local demand, when that does not wrap. -/
theorem PageTable.toNat_localPageLoad {clients : List ClientConfig} {server : ServerMemoryConfig}
    (ring : Bool) (htiers : server.numTiers = 2 ∨ server.numTiers = 3)
    (hlt : demand server.numTiers clients .numaLocal < 2 ^ 64) :
    (PageTable.new clients server ring).localPageLoad.toNat =
      demand server.numTiers clients .numaLocal := by
  rw [demand_eq (i := 0) rfl] at hlt ⊢
  have hload : (PageTable.new clients server ring).localPageLoad = tierTotal clients 0 := by
    unfold PageTable.new
    dsimp only
    rw [if_pos htiers]
    rfl
  rw [hload, toNat_tierTotal hlt]

/-- What an accepted configuration asks for fits. -/
theorem AcceptedConfig.demand_le (h : config.start ring alloc = .ok t) (layer : PageLayer) :
    demand config.server.numTiers config.clients layer ≤
      (config.server.layer layer).capacity.toNat := by
  have hlt := (AcceptedConfig.initial h).demand_lt layer
  have hnum := config.server_eq.1
  cases hindex : tierIndex config.server.numTiers layer with
  | none => rw [demand_eq_zero hindex]; exact Nat.zero_le _
  | some i =>
    rw [demand_eq hindex] at hlt ⊢
    rw [← toNat_tierTotal hlt]
    rw [hnum] at hindex
    rcases config.tiers with htwo | hthree
    · rw [htwo] at hindex
      cases layer with
      | numaLocal => cases hindex; exact config.tierTotal_le (by omega)
      | numaRemote => cases hindex
      | pmem =>
        -- the second total was compared with the remote limit, which is zero
        cases hindex
        have hle := config.tierTotal_le (i := 1) (by omega)
        change _ ≤ config.server.remoteNuma.capacity.toNat at hle
        rw [config.remote_of_two htwo] at hle
        exact hle.trans (Nat.zero_le _)
    · rw [hthree] at hindex
      cases layer <;> cases hindex
      · exact config.tierTotal_le (i := 0) (by omega)
      · exact config.tierTotal_le (i := 1) (by omega)
      · exact config.tierTotal_le (i := 2) (by omega)

/-- The counters of a table that was filled fit. -/
theorem PageTable.Initial.bounded {clients : List ClientConfig} {server : ServerMemoryConfig}
    (h : PageTable.Initial clients server ring t)
    (fits : ∀ layer, demand server.numTiers clients layer ≤ (server.layer layer).capacity.toNat) :
    t.Bounded := by
  intro layer
  rw [h.tallied, h.population, h.frame.capacity]
  exact fits layer

end Accepted

/-- One client with a page in NUMA-local and a page in remote memory, and no room in the latter. -/
def smallConfig (localCapacity pmemCapacity : SizeT) (h : 1 ≤ localCapacity) : AcceptedConfig where
  numTiers := 3
  memSizes := [localCapacity, 1, pmemCapacity]
  clients := [{ pattern := .uniform, tierSizes := [1, 1, 0] }]
  server :=
    { numTiers := 3
      localNuma := { capacity := localCapacity }
      remoteNuma := { capacity := 1 }
      pmem := { capacity := pmemCapacity } }
  tiers := .inr rfl
  parsed := rfl
  sizes := by simp
  valid := by
    simp [validateMemoryConfiguration, tierTotal, tierLimits, ClientConfig.tier, List.range,
      List.range.loop, h]

/-- A client with no pages, and one with a page in each tier. -/
def emptyClientConfig : AcceptedConfig where
  numTiers := 3
  memSizes := [1, 1, 1]
  clients := [⟨.hot, [0, 0, 0]⟩, ⟨.uniform, [1, 1, 1]⟩]
  server :=
    { numTiers := 3
      localNuma := { capacity := 1 }
      remoteNuma := { capacity := 1 }
      pmem := { capacity := 1 } }
  tiers := .inr rfl
  parsed := rfl
  sizes := by simp
  valid := rfl

/-- One page, in NUMA-local memory at the start, and room for it in each of the three tiers. -/
def loneConfig : AcceptedConfig :=
  { emptyClientConfig with
    clients := [⟨.uniform, [1, 0, 0]⟩]
    sizes := List.forall_mem_singleton.mpr rfl
    valid := rfl }

/-- Memory mapped at zero, and a clock that has just started. -/
def plainAllocation : PageTable.Allocation := ⟨fun _ => 0, fun _ => 0, fun _ => 0⟩

end MemoryTiering
