import MemoryTiering.Laws.PageTable.Effect
import MemoryTiering.Laws.PageTable.Regions
import MemoryTiering.Laws.Server.Manager
import MemoryTiering.Lib.Refinement

/-!
# The ring decides nothing

With the cache ring a promotion to the full tier is to evict a page instead of being refused. No run
ever sees the difference: a server that evicts does not survive it, and what it does otherwise a
server without the ring does too. A table with the ring and one without are `Alike` when they differ
in the ring at most. Whatever the manager and the scanner do to the first and survive they can do to
the second, which they leave alike (`ring_changes_nothing`): the pages are in the same tiers, with
the same timestamps and access counts, and the metrics are the same.
-/

set_option autoImplicit false

namespace MemoryTiering

open Fallible

namespace PageTable

/-- Two tables that differ in their rings at most. -/
structure Alike (t u : PageTable) : Prop where
  record : ∀ p, u.record? p = t.record? p
  regions : SameRegions t u
  size : u.table.size = t.table.size
  scanIndex : u.scanIndex = t.scanIndex
  counters : u.serverConfig = t.serverConfig
  metrics : u.metrics = t.metrics

section Alike

variable {t t' u u' : PageTable} {p : PageId}

/-- What an access measures goes by the address, and what it counts by the layer. -/
theorem metrics_accessPage {latency : SizeT → OperationType → UInt64} {now : Nat}
    {mode : OperationType} (h : t.accessPage latency now p mode = .ok t') :
    t'.metrics = match t.address? p, t.record? p with
      | some a, some m =>
        (t.metrics.recordAccessLatency (latency a mode)).incrementAccess m.pageLayer
      | _, _ => t.metrics := by
  rcases accessPage_cases h with ⟨hm, rfl⟩ | ⟨e, t₁, he, rfl, _⟩
  · rw [record?, hm, Option.map_none]
    split
    next hsome => cases hsome
    next => rfl
  · have hm : t.meta? p = some e.metadata := by rw [meta?, he, Option.map_some]
    have ha : t.address? p = some e.pageAddress := by rw [address?, he, Option.map_some]
    rw [ha, record?_of_meta? hm]
    rfl

/-- The scanner reads a page's record. -/
theorem getPageMetaData_eq_record (t : PageTable) (p : PageId) :
    t.getPageMetaData p = match t.record? p with
      | none => (.numaLocal, 0, 0)
      | some m => (m.pageLayer, m.lastAccessTimeMs, m.accessCnt) := by
  unfold getPageMetaData record?
  cases t.meta? p <;> rfl

/-! ## Calls -/

/-- Alike tables stay alike if the same is written to both. -/
theorem Alike.step (h : Alike t u) (pages : SamePages t t') (pages' : SamePages u u')
    (regions : SameRegions t t') (regions' : SameRegions u u')
    (record : ∀ p, u'.record? p = t'.record? p) (counters : u'.serverConfig = t'.serverConfig)
    (metrics : u'.metrics = t'.metrics) : Alike t' u' where
  record := record
  regions := framed_sameRegions.trans regions.symm (framed_sameRegions.trans h.regions regions')
  size := by rw [pages'.size, h.size, pages.size]
  scanIndex := by rw [pages'.scanIndex, h.scanIndex, pages.scanIndex]
  counters := counters
  metrics := metrics

/-- An access writes the same to alike tables. -/
theorem Alike.access {latency : SizeT → OperationType → UInt64} {now : Nat} {mode : OperationType}
    (h : Alike t u) (ht : t.Coherent) (hu : u.Coherent)
    (call : t.accessPage latency now p mode = .ok t')
    (call' : u.accessPage latency now p mode = .ok u') : Alike t' u' := by
  have effect := ht.effect (c := .accessPage latency now p mode) call
  have effect' := hu.effect (c := .accessPage latency now p mode) call'
  have hmetrics : u'.metrics = t'.metrics := by
    rw [metrics_accessPage call, metrics_accessPage call', h.regions.address, h.record, h.metrics]
  apply h.step (samePages_accessPage call) (samePages_accessPage call')
    (sameRegions_accessPage call) (sameRegions_accessPage call') _ _ hmetrics
  · intro q
    cases effect with
    | absent missing =>
      cases effect' with
      | absent _ => exact h.record q
      | accessed found =>
        rw [h.record, missing] at found
        cases found
    | accessed found records =>
      cases effect' with
      | absent missing =>
        rw [h.record, found] at missing
        cases missing
      | accessed found' records' =>
        rw [h.record, found] at found'
        obtain rfl := Option.some.inj found'
        rw [records, records', h.record]
  · cases effect with
    | absent _ =>
      cases effect' with
      | absent _ => exact h.counters
      | accessed _ _ counters' => rw [counters', h.counters]
    | accessed _ _ counters =>
      cases effect' with
      | absent _ => rw [counters, h.counters]
      | accessed _ _ counters' => rw [counters, counters', h.counters]

/-- A migration writes the same to alike tables: neither evicts. -/
theorem Alike.migrate {evictNow now : Nat} {target : PageLayer} {exit exit' : Exit}
    (h : Alike t u) (ht : t.Coherent) (hu : u.Coherent)
    (call : t.migratePage evictNow now p target = .ok (exit, t'))
    (call' : u.migratePage evictNow now p target = .ok (exit', u')) : Alike t' u' := by
  have settled : (∀ q, u'.record? q = t'.record? q) ∧ u'.serverConfig = t'.serverConfig ∧
      u'.metrics = t'.metrics := by
    cases ht.effect_migratePage call with
    | stayed records counters metrics _ refused =>
      cases hu.effect_migratePage call' with
      | stayed records' counters' metrics' =>
        refine ⟨fun q => ?_, ?_, ?_⟩
        · rw [records, records', h.record]
        · rw [counters, counters', h.counters]
        · rw [metrics, metrics', h.metrics]
      | moved found' _ room' =>
        rw [h.record] at found'
        rw [h.counters] at room'
        rcases refused with missing | full
        · rw [missing] at found'
          cases found'
        · exact Bool.noConfusion (full.symm.trans room')
    | moved found records room counters metrics =>
      cases hu.effect_migratePage call' with
      | stayed _ _ _ _ refused' =>
        rw [h.record, h.counters] at refused'
        rcases refused' with missing | full
        · rw [missing] at found
          cases found
        · exact Bool.noConfusion (full.symm.trans room)
      | moved found' records' _ counters' metrics' =>
        rw [h.record, found] at found'
        obtain rfl := Option.some.inj found'
        refine ⟨fun q => ?_, ?_, ?_⟩
        · rw [records, records', h.record]
        · rw [counters, counters', h.counters]
        · rw [metrics, metrics', h.metrics]
  exact h.step (framed_samePages.migratePage call) (framed_samePages.migratePage call')
    (framed_sameRegions.migratePage call) (framed_sameRegions.migratePage call') settled.1
    settled.2.1 settled.2.2

/-! ## Events -/

/-- The cursor goes the same way. -/
theorem Alike.scanNext (h : Alike t u) : Alike t.scanNext.2 u.scanNext.2 where
  record := h.record
  regions := ⟨h.regions.address, h.regions.localPageLoad, h.regions.remotePageLoad,
    h.regions.pmemPageLoad, h.regions.numTiers⟩
  size := h.size
  scanIndex := by
    show (if u.size ≤ u.scanIndex + 1 then _ else _) = if t.size ≤ t.scanIndex + 1 then _ else _
    rw [PageTable.size, PageTable.size, h.size, h.scanIndex]
  counters := h.counters
  metrics := h.metrics

/-- The scanner decides the same. -/
theorem Alike.scan (h : Alike t u) (classification : Scanner.Classification) :
    (Scanner.scan classification u).1 = (Scanner.scan classification t).1 := by
  have hdata : u.scanNext.2.getPageMetaData u.scanIndex =
      t.scanNext.2.getPageMetaData t.scanIndex := by
    rw [getPageMetaData_eq_record, getPageMetaData_eq_record, h.scanIndex,
      h.scanNext.record]
  have request : ∀ t : PageTable, (Scanner.scan classification t).1 =
      let data := t.scanNext.2.getPageMetaData t.scanIndex
      (Scanner.targetLayer t.serverConfig.numTiers data.1
        (classification.classifyPage data.2.1 data.2.2)
        (classification.classifyHotPage data.2.1 data.2.2)).map fun target =>
          (t.scanIndex, target) := fun _ => rfl
  rw [request, request, hdata, h.counters, h.scanIndex]

/-- **The step lemma**: an event that a table with a ring survives happens to one without. -/
theorem Alike.event (h : Alike t u) (ht : t.Coherent) (plain : u.localCacheRing = none) {e : Event}
    (done : e.apply t = .ok t') :
    ∃ u', e.apply u = .ok u' ∧ Alike t' u' ∧ u'.localCacheRing = none := by
  cases e with
  | access latency now p mode =>
    obtain ⟨u', call', plain', _⟩ := apply_ringless plain (.accessPage latency now p mode)
    exact ⟨u', call', h.access ht (.inl plain) done call', plain'⟩
  | round classification evictNow now =>
    change Scanner.round classification evictNow now t = .ok t' at done
    show ∃ u', Scanner.round classification evictNow now u = .ok u' ∧ _
    cases hrequest : (Scanner.scan classification t).1 with
    | none =>
      rw [round_rests hrequest] at done
      cases done
      rw [round_rests ((h.scan classification).trans hrequest)]
      exact ⟨_, rfl, h.scanNext, plain⟩
    | some r =>
      rw [round_migrates hrequest] at done
      obtain ⟨⟨exit, t₁⟩, call, done⟩ := bind_eq_ok.mp done
      cases done
      rw [round_migrates ((h.scan classification).trans hrequest)]
      have ht₁ : t.scanNext.2.Coherent := (ht.call (c := .scanNext) rfl).1
      have plain₁ : u.scanNext.2.localCacheRing = none := plain
      obtain ⟨exit', u', call', plain', _⟩ :=
        migratePage_ringless plain₁ evictNow now r.1 r.2
      refine ⟨u', ?_, h.scanNext.migrate ht₁ (.inl plain₁) call call', plain'⟩
      rw [call', ok_bind]

end Alike

/-! ## Runs -/

section Runs

variable {config : AcceptedConfig} {alloc : Allocation} {t₀ t : PageTable}

/-- Counters that count the same pages are the same. -/
theorem counters_ext {c d : ServerMemoryConfig} (numTiers : d.numTiers = c.numTiers)
    (count : ∀ layer, (d.layer layer).count.toNat = (c.layer layer).count.toNat)
    (capacity : ∀ layer, (d.layer layer).capacity = (c.layer layer).capacity) : d = c := by
  have hinfo : ∀ layer, d.layer layer = c.layer layer := by
    intro layer
    calc d.layer layer = ⟨(d.layer layer).count, (d.layer layer).capacity⟩ := rfl
      _ = c.layer layer := by rw [UInt64.toNat_inj.mp (count layer), capacity layer]
  calc d = ⟨d.numTiers, d.layer .numaLocal, d.layer .numaRemote, d.layer .pmem⟩ := rfl
    _ = c := by rw [numTiers, hinfo, hinfo, hinfo]; rfl

/-- **The start**: the same configuration without the ring starts alike. -/
theorem alike_start (start : config.start true alloc = .ok t) :
    ∃ u, config.start false alloc = .ok u ∧ Alike t u ∧ u.localCacheRing = none := by
  have tiers : config.server.numTiers = 2 ∨ config.server.numTiers = 3 :=
    config.server_tiers
  have hinit := AcceptedConfig.initial start
  have hlaid := initPageTable_layout tiers config.server_eq.2 start
  have small : total (demand config.server.numTiers config.clients) < 2 ^ 64 := by
    have hsum := t.population_sum
    have hlt := hinit.numbered.small
    rw [hinit.population, hinit.population, hinit.population] at hsum
    unfold total
    omega
  obtain ⟨u, start'⟩ := start_returns config false alloc small
  have hinit' := AcceptedConfig.initial start'
  have hlaid' := initPageTable_layout tiers config.server_eq.2 start'
  refine ⟨u, start', ?_, hinit'.ringed⟩
  have hslot : ∀ p, u.slot? p = t.slot? p := fun p => (hlaid'.entry p).trans (hlaid.entry p).symm
  constructor
  case record =>
    intro p
    rw [record?_eq_slot, record?_eq_slot, hslot]
  case regions =>
    obtain ⟨hlocal, hremote, hpmem⟩ := loads_initPageTable start
    obtain ⟨hlocal', hremote', hpmem'⟩ := loads_initPageTable start'
    refine ⟨fun p => ?_, hlocal'.trans hlocal.symm, hremote'.trans hremote.symm,
      hpmem'.trans hpmem.symm, hinit'.frame.numTiers.trans hinit.frame.numTiers.symm⟩
    rw [hlaid'.address?_eq, hlaid.address?_eq]
  case size => rw [hlaid'.size, hlaid.size]
  case scanIndex => rw [hinit'.frame.scanIndex, hinit.frame.scanIndex]; rfl
  case counters =>
    apply counters_ext
    · rw [hinit'.frame.numTiers, hinit.frame.numTiers]
      rfl
    · intro layer
      rw [hinit'.tallied, hinit.tallied, hinit'.population, hinit.population]
    · intro layer
      rw [hinit'.frame.capacity, hinit.frame.capacity]
      rfl
  case metrics => rw [hinit'.frame.metrics, hinit.frame.metrics]; rfl

/-- **The ring decides nothing.** What the manager and the scanner do to a server with the cache
ring, as long as it survives, they can do to one without: every page is in the same tier with the
same timestamp and access count, the tiers hold the same, and the metrics are the same. -/
theorem ring_changes_nothing (start : config.start true alloc = .ok t₀) {events : List Event}
    (run : events.foldlM Event.apply t₀ = .ok t) :
    ∃ u₀ u, config.start false alloc = .ok u₀ ∧ events.foldlM Event.apply u₀ = .ok u ∧
      Alike t u := by
  obtain ⟨u₀, start', alike, plain⟩ := alike_start start
  obtain ⟨u, run', _, alike', _⟩ := Refinement.follows
    (R := fun t u => t.Coherent ∧ Alike t u ∧ u.localCacheRing = none) (g := Event.apply)
    (fun t u e t' ⟨ht, h, hu⟩ done =>
      have ⟨u', done', h', hu'⟩ := h.event ht hu done
      ⟨u', done', (ht.event done).1, h', hu'⟩)
    ⟨coherent_of_start start, alike, plain⟩ run
  exact ⟨u₀, u, start', run', alike'⟩

/-- The pages change places, one demotion and one promotion after the other. -/
theorem swapped_pages_alike : ∃ t₀ t u₀ u,
    (smallConfig 1 1 (by decide)).start true plainAllocation = .ok t₀ ∧
    [Event.access (fun _ _ => 5) 0 0 .read, .round Scanner.alwaysHot 0 0,
      .round Scanner.alwaysCold 0 0, .round Scanner.alwaysCold 0 0,
      .round Scanner.alwaysHot 0 0].foldlM Event.apply t₀ = .ok t ∧
    t.layer? 0 = some .numaRemote ∧ t.layer? 1 = some .numaLocal ∧
    (smallConfig 1 1 (by decide)).start false plainAllocation = .ok u₀ ∧ Alike t u := by
  have hrun : ∃ t₀ t, (smallConfig 1 1 (by decide)).start true plainAllocation = .ok t₀ ∧
      [Event.access (fun _ _ => 5) 0 0 .read, .round Scanner.alwaysHot 0 0,
        .round Scanner.alwaysCold 0 0, .round Scanner.alwaysCold 0 0,
        .round Scanner.alwaysHot 0 0].foldlM Event.apply t₀ = .ok t ∧
      t.layer? 0 = some .numaRemote ∧ t.layer? 1 = some .numaLocal :=
    ⟨_, _, rfl, rfl, rfl, rfl⟩
  obtain ⟨t₀, t, start, run, hlocal, hremote⟩ := hrun
  obtain ⟨u₀, u, start', _, alike⟩ := ring_changes_nothing start run
  exact ⟨t₀, t, u₀, u, start, run, hlocal, hremote, start', alike⟩

end Runs

end PageTable

end MemoryTiering
