import MemoryTiering.Laws.PageTable.Conservation

/-!
# Two tiers

With two tiers the same `migratePage` runs as with three, and nothing in it says that remote memory
is not there. It is kept out by its capacity alone: a tier of capacity zero counts as full, so no
migration enters it and no eviction chooses it (`TwoTiers.step`). The layer then never appears, and
the metrics the two-tier report leaves out stay zero (`remote_never_used`).
-/

set_option autoImplicit false

namespace MemoryTiering

open Pointer Transition

namespace PageTable

/-- Nothing is, or ever was, in remote memory. -/
structure RemoteUnused (t : PageTable) : Prop where
  layers : ∀ p, t.layer? p ≠ some .numaRemote
  count : t.serverConfig.remoteNuma.count = 0
  accesses : t.metrics.remoteAccessCount = 0
  localToRemote : t.metrics.localToRemoteCount = 0
  remoteToLocal : t.metrics.remoteToLocalCount = 0
  remoteToPmem : t.metrics.remoteToPmemCount = 0
  pmemToRemote : t.metrics.pmemToRemoteCount = 0

/-- What every completed call keeps when remote memory has no capacity. -/
structure TwoTiers (t : PageTable) : Prop extends RemoteUnused t where
  coherent : t.Coherent
  capacity : t.serverConfig.remoteNuma.capacity = 0

section Calls

variable {t t' : PageTable} {c : Call}

theorem TwoTiers.remote_full (h : TwoTiers t) : t.serverConfig.remoteNuma.isFull = true := by
  rw [LayerInfo.isFull, h.capacity, h.count]
  rfl

/-- What is not about remote memory may change. -/
theorem RemoteUnused.of_same (h : RemoteUnused t) (layers : ∀ q, t'.layer? q ≠ some .numaRemote)
    (count : t'.serverConfig.remoteNuma = t.serverConfig.remoteNuma)
    (accesses : t'.metrics.remoteAccessCount = t.metrics.remoteAccessCount)
    (migrations : ∀ l l', l ≠ l' → l = .numaRemote ∨ l' = .numaRemote →
      t'.metrics.migrations l l' = t.metrics.migrations l l') : RemoteUnused t' := by
  constructor
  case layers => exact layers
  case count => rw [count, h.count]
  case accesses => exact accesses.trans h.accesses
  case localToRemote =>
    exact (migrations .numaLocal .numaRemote (by decide) (.inr rfl)).trans h.localToRemote
  case remoteToLocal =>
    exact (migrations .numaRemote .numaLocal (by decide) (.inl rfl)).trans h.remoteToLocal
  case remoteToPmem =>
    exact (migrations .numaRemote .pmem (by decide) (.inl rfl)).trans h.remoteToPmem
  case pmemToRemote =>
    exact (migrations .pmem .numaRemote (by decide) (.inr rfl)).trans h.pmemToRemote

/-- A call that changes no layer and no counter, and counts at most an access elsewhere. -/
theorem TwoTiers.still (h : TwoTiers t) (hcoherent : t'.Coherent)
    (layers : ∀ q, t'.layer? q = t.layer? q) (counters : t'.serverConfig = t.serverConfig)
    (metrics : t'.metrics = t.metrics ∨ ∃ accessTime layer, layer ≠ .numaRemote ∧
      t'.metrics = (t.metrics.recordAccessLatency accessTime).incrementAccess layer) :
    TwoTiers t' := by
  have hsame : t'.metrics.remoteAccessCount = t.metrics.remoteAccessCount ∧
      ∀ l l', t'.metrics.migrations l l' = t.metrics.migrations l l' := by
    rcases metrics with heq | ⟨accessTime, layer, hlayer, heq⟩
    · rw [heq]
      exact ⟨rfl, fun _ _ => rfl⟩
    · rw [heq]
      refine ⟨?_, fun l l' => Metrics.migrations_incrementAccess _ layer l l' accessTime⟩
      cases layer with
      | numaLocal => rfl
      | numaRemote => exact (hlayer rfl).elim
      | pmem => rfl
  obtain ⟨haccess, hmigrations⟩ := hsame
  constructor
  case coherent => exact hcoherent
  case capacity => rw [counters, h.capacity]
  case toRemoteUnused =>
    exact h.toRemoteUnused.of_same (fun q => layers q ▸ h.layers q) (by rw [counters]) haccess
      fun l l' _ _ => hmigrations l l'

/-- A migration between the two other tiers. -/
theorem TwoTiers.move (h : TwoTiers t) (hcoherent : t'.Coherent) {p : PageId} {now : Nat}
    {target : PageLayer} {m : PageMetadata} (found : t.record? p = some m)
    (records : ∀ q, t'.record? q = if q = p then some (m.moved target now) else t.record? q)
    (room : (t.serverConfig.layer target).isFull = false)
    (counters : t'.serverConfig = t.serverConfig.recount m.pageLayer target)
    (metrics : t'.metrics = t.metrics.incrementMigration m.pageLayer target) : TwoTiers t' := by
  have htarget : target ≠ .numaRemote := by
    rintro rfl
    exact Bool.noConfusion (h.remote_full.symm.trans room)
  have hcurrent : m.pageLayer ≠ .numaRemote := by
    intro hremote
    apply h.layers p
    rw [layer?_eq_record, found, Option.map_some, hremote]
  have hcounters : t'.serverConfig.remoteNuma = t.serverConfig.remoteNuma := by
    have hrecount := layer_recount t.serverConfig m.pageLayer target .numaRemote
    rw [if_neg hcurrent, if_neg htarget, UInt64.sub_zero, UInt64.add_zero] at hrecount
    rw [counters]
    exact hrecount
  have hmigrations : ∀ l l', l ≠ l' → l = .numaRemote ∨ l' = .numaRemote →
      t'.metrics.migrations l l' = t.metrics.migrations l l' := by
    intro l l' hne hremote
    rw [metrics, Metrics.migrations_incrementMigration _ hne, if_neg, UInt64.add_zero]
    rintro ⟨rfl, rfl⟩
    exact hremote.elim hcurrent htarget
  constructor
  case coherent => exact hcoherent
  case capacity => rw [hcounters, h.capacity]
  case toRemoteUnused =>
    refine h.toRemoteUnused.of_same ?_ hcounters ?_ hmigrations
    · intro q
      rw [layer?_eq_record, records]
      split
      · exact fun hremote => htarget (Option.some.inj hremote)
      · rw [← layer?_eq_record]
        exact h.layers q
    · rw [metrics]
      cases m.pageLayer <;> cases target <;> rfl

/-- **The step lemma**: no completed call enters remote memory, whatever it was asked for. -/
theorem TwoTiers.step (h : TwoTiers t) (call : c.apply t = .ok t') : TwoTiers t' := by
  obtain ⟨hcoherent, _⟩ := h.coherent.call call
  cases h.coherent.effect call with
  | absent missing => exact h
  | @accessed _ _ p _ _ m found records counters accessTime metrics =>
    have hlayer : t.layer? p = some m.pageLayer := by
      rw [layer?_eq_record, found, Option.map_some]
    refine h.still hcoherent ?_ counters (.inr ⟨accessTime, m.pageLayer, ?_, metrics⟩)
    · intro q
      rw [layer?_eq_record, layer?_eq_record, records]
      split
      next hq => rw [hq, found]; rfl
      next => rfl
    · exact fun hremote => h.layers p (hremote ▸ hlayer)
  | stayed records counters metrics moves refused =>
    refine h.still hcoherent ?_ counters (.inl metrics)
    intro q
    rw [layer?_eq_record, layer?_eq_record, records]
  | moved found records room counters metrics moves =>
    exact h.move hcoherent found records room counters metrics
  | scanned => exact h.still hcoherent (fun _ => rfl) rfl (.inl rfl)

end Calls

/-! ## Runs -/

section Runs

variable {clients : List ClientConfig} {server : ServerMemoryConfig} {ring : Bool}
  {alloc : Allocation} {t₀ t : PageTable}

/-- No page of a two-tier server is made in remote memory. -/
theorem Initial.twoTiers (h : Initial clients server ring t₀) (two : server.numTiers = 2)
    (capacity : server.remoteNuma.capacity = 0) : TwoTiers t₀ := by
  have hpopulation : t₀.population .numaRemote = 0 := by
    rw [h.population]
    exact demand_eq_zero (by rw [two]; rfl)
  have hmetrics : t₀.metrics = {} := h.frame.metrics
  constructor
  case coherent => exact h.coherent
  case capacity => exact (h.frame.capacity .numaRemote).trans capacity
  case toRemoteUnused =>
    constructor
    case layers =>
      intro p hremote
      have hpos := population_pos hremote
      omega
    case count =>
      have hcount := h.tallied .numaRemote
      rw [hpopulation] at hcount
      exact UInt64.toNat_inj.mp hcount
    all_goals rw [hmetrics]

/-- **Two-tier systems never use remote memory**, with a ring or without, under any policy and any
clock, over every run of the manager and the scanner. -/
theorem remote_never_used {es : List (PageTable × Event)} (two : server.numTiers = 2)
    (capacity : server.remoteNuma.capacity = 0) (empty : ∀ layer, (server.layer layer).count = 0)
    (start : (new clients server ring).initPageTable alloc = .ok t₀)
    (run : Trace Drives t₀ es t) : RemoteUnused t := by
  obtain ⟨calls, hcalls, _⟩ := Driven.is_run run
  have hinit := initPageTable_spec (.inl two) empty start
  have h := hcalls.invariant (P := TwoTiers) (fun _ _ _ h hstep => h.step hstep.call)
    (hinit.twoTiers two capacity)
  exact h.toRemoteUnused

/-- One page in each of two tiers, and room for one more in NUMA-local memory. -/
def twoTierServer : ServerMemoryConfig where
  numTiers := 2
  localNuma := { capacity := 2 }
  pmem := { capacity := 1 }

/-- The scanner looks at a local page and promotes the other one. -/
theorem promotion_without_remote : ∃ t₀ t₁ t : PageTable,
    (new [⟨.uniform, [1, 1]⟩] twoTierServer false).initPageTable plainAllocation = .ok t₀ ∧
    Trace Drives t₀ [(t₀, .round Scanner.alwaysHot 0 0), (t₁, .round Scanner.alwaysHot 0 0)] t ∧
    t.layer? 1 = some .numaLocal ∧ RemoteUnused t := by
  have hrun : ∃ t₀ t₁ t : PageTable,
      (new [⟨.uniform, [1, 1]⟩] twoTierServer false).initPageTable plainAllocation = .ok t₀ ∧
      Trace Drives t₀ [(t₀, .round Scanner.alwaysHot 0 0), (t₁, .round Scanner.alwaysHot 0 0)] t ∧
      t.layer? 1 = some .numaLocal :=
    ⟨_, _, _, rfl, .cons ⟨rfl, rfl⟩ (Trace.single.mpr ⟨rfl, rfl⟩), rfl⟩
  obtain ⟨t₀, t₁, t, start, run, hlayer⟩ := hrun
  exact ⟨t₀, t₁, t, start, run, hlayer,
    remote_never_used rfl rfl (by intro layer; cases layer <;> rfl) start run⟩

end Runs

end PageTable

end MemoryTiering
