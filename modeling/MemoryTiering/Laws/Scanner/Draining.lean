import MemoryTiering.Laws.PageTable.Regions
import MemoryTiering.Laws.Scanner.Settling

/-!
# Cold pages drain

Rounds that find every page cold act as under a frequency policy that no count is hot for, whatever
the policy, and so they settle the table. A settled table has no cold page above a tier with room.
That fixes how many pages each tier ends up with: the slow tiers hold all that they can
(`cold_rounds_drain`). On three tiers the way down leads through remote memory, and a server that
gives it no room keeps every page where it is. With the ring it keeps them only as long as it
survives, which is until a page that was refused is asked down again.
-/

set_option autoImplicit false

namespace MemoryTiering

open Fallible Transition

/-- A frequency policy under which every page is cold: a page counts up to `2 ^ 32 - 1`. -/
def allCold : FrequencyPolicyConfig where
  hotAccessCount := 0xFFFFFFFFFFFFFFFF
  coldAccessCount := 0xFFFFFFFFFFFFFFFF

namespace Scanner

theorem classifyPage_allCold (readings : Readings) (stamp : UInt64) (count : UInt32) :
    classifyPage (.frequency allCold) readings stamp count = .cold := by
  have hsmall : count.toUInt64.toNat < 2 ^ 32 := count.toNat_lt
  have hmax : allCold.hotAccessCount.toNat = 2 ^ 64 - 1 := rfl
  have hnotHot : ¬ allCold.hotAccessCount ≤ count.toUInt64 := by
    rw [UInt64.le_iff_toNat_le]
    omega
  have hcold : count.toUInt64 ≤ allCold.coldAccessCount := by
    rw [UInt64.le_iff_toNat_le]
    exact Nat.le_of_lt (hsmall.trans (by decide))
  simp [classifyPage, classifyHotPage, classifyColdPage, hnotHot, hcold]

/-- Where a cold page goes. The second hot test, of a remote page, does not matter to it. -/
def below? (numTiers : Nat) (layer : PageLayer) : Option PageLayer :=
  targetLayer numTiers layer .cold false

/-- What a round asks for when it finds the page cold. -/
theorem asks_of_cold {policy : PolicyVariant} {readings : Readings} {m : PageMetadata}
    (cold : classifyPage policy readings m.lastAccessTimeMs m.accessCnt = .cold) (numTiers : Nat) :
    asks policy readings numTiers m = below? numTiers m.pageLayer := by
  unfold asks below?
  rw [cold]
  cases m.pageLayer <;> rfl

end Scanner

namespace PageTable

/-- A round that finds its page cold. -/
def Activity.findsCold (policy : PolicyVariant) (t : PageTable) : Activity → Prop
  | .access .. => False
  | .scan readings _ _ => ∀ m, t.record? t.scanIndex = some m →
    Scanner.classifyPage policy readings m.lastAccessTimeMs m.accessCnt = .cold

section Drain

variable {policy : PolicyVariant} {n : Nat} {t t' : PageTable} {es : List (PageTable × Activity)}
  {server : ServerMemoryConfig}

/-- A page that is found cold is treated as if all were. -/
theorem Surveyed.round_cold (h : Surveyed n t) {readings : Scanner.Readings} {evictNow now : Nat}
    (cold : (Activity.scan readings evictNow now).findsCold policy t) :
    Scanner.round (Scanner.classification policy readings) evictNow now t =
      Scanner.round (Scanner.classification (.frequency allCold) readings) evictNow now t := by
  obtain ⟨m, hm⟩ : ∃ m, t.record? t.scanIndex = some m := by
    obtain ⟨m, hmeta⟩ := Option.isSome_iff_exists.mp ((h.pages t.scanIndex).mpr h.inside)
    exact ⟨_, record?_of_meta? hmeta⟩
  apply round_congr
  rw [scan_eq_asks hm, scan_eq_asks hm, Scanner.asks_of_cold (cold m hm),
    Scanner.asks_of_cold (Scanner.classifyPage_allCold readings _ _)]

/-- **Cold rounds are rounds of the policy that finds everything cold.** -/
theorem Surveyed.cold_run (h : Surveyed n t) (coherent : t.Coherent)
    (run : Trace (Acts policy) t es t') (cold : ∀ e ∈ es, e.2.findsCold policy e.1) :
    Trace (Acts (.frequency allCold)) t es t' ∧ ∀ e ∈ es, e.2.isScan = true := by
  induction run with
  | nil t => exact ⟨.nil t, nofun⟩
  | @cons t t₁ t' e es hstep hrest ih =>
    obtain ⟨hcold, hcolds⟩ := List.forall_mem_cons.mp cold
    obtain ⟨hsurveyed, hcoherent⟩ := h.run coherent (Trace.single.mpr hstep)
    obtain ⟨hrun, hscans⟩ := ih hsurveyed hcoherent hcolds
    obtain ⟨t, a⟩ := e
    obtain ⟨rfl, hdone⟩ := hstep
    cases a with
    | access => exact hcold.elim
    | scan readings evictNow now =>
      refine ⟨.cons ⟨rfl, ?_⟩ hrun, List.forall_mem_cons.mpr ⟨rfl, hscans⟩⟩
      exact (h.round_cold hcold).symm.trans hdone

/-- The accounts, along a run. -/
theorem Accounted.acts_run (h : Accounted server t) (coherent : t.Coherent)
    (run : Trace (Acts policy) t es t') : Accounted server t' ∧ t'.Coherent := by
  apply run.invariant (P := fun t => Accounted server t ∧ t.Coherent) _ ⟨h, coherent⟩
  rintro t e t' ⟨haccounts, hcoherent⟩ hstep
  have hdrives : Drives t (e.1, e.2.event policy) t' := ⟨hstep.before, hstep.done⟩
  obtain ⟨calls, hcalls, _⟩ := hdrives.is_run
  apply hcalls.invariant (P := fun t => Accounted server t ∧ t.Coherent) _ ⟨haccounts, hcoherent⟩
  rintro t c t' ⟨haccounts, hcoherent⟩ hcall
  obtain ⟨hcoherent', hshift⟩ := hcoherent.call hcall.call
  exact ⟨haccounts.shift hshift, hcoherent'⟩

theorem sameRegions_acts (run : Trace (Acts policy) t es t') : SameRegions t t' := by
  apply run.invariant (P := SameRegions t) _ (framed_sameRegions.refl t)
  rintro t₁ ⟨t, a⟩ t₂ h ⟨rfl, hdone⟩
  refine framed_sameRegions.trans h ?_
  cases a with
  | access => exact sameRegions_accessPage hdone
  | scan => exact sameRegions_round hdone

/-- **A settled table of cold pages** has no page above a tier with room. -/
theorem Settled.full_below (h : Settled (.frequency allCold) t) (accounts : Accounted server t)
    {layer target : PageLayer} (pages : 0 < t.population layer)
    (below : Scanner.below? t.serverConfig.numTiers layer = some target) :
    (server.layer target).capacity.toNat ≤ t.population target := by
  obtain ⟨p, m, hm, hlayer⟩ := exists_of_census_pos pages
  obtain rfl := of_decide_eq_true hlayer
  have hasks := Scanner.asks_of_cold
    (Scanner.classifyPage_allCold ⟨0, 0, 0⟩ m.lastAccessTimeMs m.accessCnt) t.serverConfig.numTiers
  have hfull := h p _ ⟨0, 0, 0⟩ target (record?_of_meta? hm) (hasks.trans below)
  rwa [LayerInfo.isFull_iff, accounts.capacity, accounts.tallied] at hfull

/-- **Where the pages are in the end.** -/
theorem Settled.drained (h : Settled (.frequency allCold) t) (accounts : Accounted server t)
    (way : (t.serverConfig.numTiers = 2 ∧ (server.layer .numaRemote).capacity.toNat = 0) ∨
      (t.serverConfig.numTiers = 3 ∧ 0 < (server.layer .numaRemote).capacity.toNat)) :
    t.population .pmem = min t.table.size (server.layer .pmem).capacity.toNat ∧
      t.population .pmem + t.population .numaRemote = min t.table.size
        ((server.layer .pmem).capacity.toNat + (server.layer .numaRemote).capacity.toNat) := by
  have hsum := t.population_sum
  have hbounded : ∀ layer, t.population layer ≤ (server.layer layer).capacity.toNat := by
    intro layer
    rw [← accounts.tallied, ← accounts.capacity]
    exact accounts.bounded layer
  have hremote := hbounded .numaRemote
  have hpmem := hbounded .pmem
  rcases way with ⟨htwo, hnone⟩ | ⟨hthree, hsome⟩
  · have hlocal : 0 < t.population .numaLocal →
        (server.layer .pmem).capacity.toNat ≤ t.population .pmem :=
      fun pages => h.full_below accounts pages (by rw [htwo]; rfl)
    omega
  · have hlocal : 0 < t.population .numaLocal →
        (server.layer .numaRemote).capacity.toNat ≤ t.population .numaRemote :=
      fun pages => h.full_below accounts pages (by rw [hthree]; rfl)
    have hfull : 0 < t.population .numaRemote →
        (server.layer .pmem).capacity.toNat ≤ t.population .pmem :=
      fun pages => h.full_below accounts pages rfl
    omega

/-- On three tiers without remote capacity every table of cold pages is settled. -/
theorem Accounted.settled_of_no_way (accounts : Accounted server t)
    (three : t.serverConfig.numTiers = 3) (none : (server.layer .numaRemote).capacity.toNat = 0) :
    Settled (.frequency allCold) t := by
  have hcapacity : (t.serverConfig.layer .numaRemote).capacity.toNat = 0 := by
    rw [accounts.capacity]
    exact none
  intro p m readings target hm hasks
  rw [Scanner.asks_of_cold (Scanner.classifyPage_allCold readings _ _), three] at hasks
  cases hlayer : m.pageLayer with
  | numaLocal =>
    rw [hlayer] at hasks
    cases hasks
    show (t.serverConfig.layer .numaRemote).isFull = true
    rw [LayerInfo.isFull_iff, hcapacity]
    exact Nat.zero_le _
  | numaRemote =>
    -- no page is in a tier that may hold none
    have hpos : 0 < t.population .numaRemote := by
      apply population_pos (p := p)
      rw [layer?_eq_record, hm, Option.map_some, hlayer]
    have hbounded := accounts.bounded .numaRemote
    rw [accounts.tallied, hcapacity] at hbounded
    omega
  | pmem =>
    rw [hlayer] at hasks
    cases hasks

end Drain

section Drains

variable {policy : PolicyVariant} {config : AcceptedConfig} {ring : Bool} {alloc : Allocation}
  {t₀ t t' : PageTable} {es rounds : List (PageTable × Activity)}

/-- **Cold rounds drain the table**, under any policy, with a ring or without, from any state that
accesses and rounds lead to: after `3 * n * n` of them at the latest, PMEM holds as many pages as it
can, and then remote memory. On three tiers without remote capacity they change nothing. -/
theorem cold_rounds_drain (start : config.start ring alloc = .ok t₀)
    (nonempty : 0 < t₀.table.size) (run : Trace (Acts policy) t₀ es t)
    (scan : Trace (Acts policy) t rounds t') (cold : ∀ e ∈ rounds, e.2.findsCold policy e.1) :
    (config.numTiers = 2 ∨ 0 < (config.server.layer .numaRemote).capacity.toNat →
      3 * t₀.table.size * t₀.table.size ≤ rounds.length →
        t'.population .pmem = min t₀.table.size (config.server.layer .pmem).capacity.toNat ∧
        t'.population .pmem + t'.population .numaRemote = min t₀.table.size
          ((config.server.layer .pmem).capacity.toNat +
            (config.server.layer .numaRemote).capacity.toNat)) ∧
    (config.numTiers = 3 → (config.server.layer .numaRemote).capacity.toNat = 0 →
      ∀ q, t'.record? q = t.record? q) := by
  have hinit := AcceptedConfig.initial start
  obtain ⟨haccounts, hcoherent⟩ := Accounted.acts_run
    (hinit.accounted (AcceptedConfig.demand_le start)) hinit.coherent run
  obtain ⟨haccounts', _⟩ := haccounts.acts_run hcoherent scan
  obtain ⟨hsurveyed, _⟩ := (surveyed_of_initPageTable start nonempty).run hinit.coherent run
  obtain ⟨hsurveyed', _⟩ := hsurveyed.run hcoherent scan
  obtain ⟨hcold, hidle⟩ := hsurveyed.cold_run hcoherent scan cold
  have htiers : t.serverConfig.numTiers = config.numTiers :=
    (sameRegions_acts run).numTiers.trans (hinit.frame.numTiers.trans config.server_eq.1)
  have htiers' : t'.serverConfig.numTiers = config.numTiers :=
    (sameRegions_acts scan).numTiers.trans htiers
  refine ⟨fun way long => ?_, fun three none => ?_⟩
  · have hsettled : Settled (.frequency allCold) t' := by
      refine hsurveyed.settles hcoherent (by decide) hcold hidle (Nat.le_trans ?_ long)
      exact Nat.mul_le_mul_right _ (unspent_le _ t)
    have hdrained := hsettled.drained haccounts' (by
      rw [htiers']
      rcases config.tiers with htwo | hthree
      · exact .inl ⟨htwo, congrArg UInt64.toNat (config.remote_of_two htwo)⟩
      · exact .inr ⟨hthree, way.resolve_left (by omega)⟩)
    rwa [hsurveyed'.size] at hdrained
  · have hsettled := haccounts.settled_of_no_way (htiers.trans three) none
    exact (hsettled.run hcoherent hcold hidle).2.records

/-- Under LRU a page nobody uses is in PMEM after rounds two seconds apart. -/
theorem idle_page_drains : ∃ t₀ t' : PageTable, ∃ rounds,
    loneConfig.start false plainAllocation = .ok t₀ ∧
    Trace (Acts (.lru ⟨100, 1000⟩)) t₀ rounds t' ∧
    (∀ e ∈ rounds, e.2.findsCold (.lru ⟨100, 1000⟩) e.1) ∧ t'.population .pmem = 1 := by
  have hrun : ∃ t₀ t₁ t₂ t' : PageTable, loneConfig.start false plainAllocation = .ok t₀ ∧
      t₀.table.size = 1 ∧
      Trace (Acts (.lru ⟨100, 1000⟩)) t₀ [(t₀, scanAt 2000000000), (t₁, scanAt 4000000000),
        (t₂, scanAt 6000000000)] t' ∧
      (∃ m, t₀.record? t₀.scanIndex = some m ∧ m.lastAccessTimeMs = 0) ∧
      (∃ m, t₁.record? t₁.scanIndex = some m ∧ m.lastAccessTimeMs = 2000) ∧
      ∃ m, t₂.record? t₂.scanIndex = some m ∧ m.lastAccessTimeMs = 4000 :=
    ⟨_, _, _, _, rfl, rfl, .cons ⟨rfl, rfl⟩ (.cons ⟨rfl, rfl⟩ (Trace.single.mpr ⟨rfl, rfl⟩)),
      ⟨_, rfl, rfl⟩, ⟨_, rfl, rfl⟩, ⟨_, rfl, rfl⟩⟩
  obtain ⟨t₀, t₁, t₂, t', start, hsize, scan, hfirst, hsecond, hthird⟩ := hrun
  have hfinds : ∀ {t : PageTable} {stamp : UInt64} {now : Nat},
      (∃ m, t.record? t.scanIndex = some m ∧ m.lastAccessTimeMs = stamp) →
      milliseconds now - stamp = 2000 →
      (scanAt now).findsCold (.lru ⟨100, 1000⟩) t := by
    rintro t stamp now ⟨m, hm, rfl⟩ hage m' hm'
    obtain rfl : m = m' := Option.some.inj (hm.symm.trans hm')
    simp [Scanner.classifyPage, Scanner.classifyHotPage, Scanner.classifyColdPage,
      Scanner.timeSinceLastAccess, hage]
  have cold : ∀ e ∈ [(t₀, scanAt 2000000000), (t₁, scanAt 4000000000),
      (t₂, scanAt 6000000000)], e.2.findsCold (.lru ⟨100, 1000⟩) e.1 := by
    simp only [List.forall_mem_cons, List.not_mem_nil, false_imp_iff, implies_true, and_true]
    exact ⟨hfinds hfirst rfl, hfinds hsecond rfl, hfinds hthird rfl⟩
  have hdrained := (cold_rounds_drain start (by omega) (.nil t₀) scan cold).1
    (.inr (by decide)) (by rw [hsize]; exact Nat.le_refl 3)
  refine ⟨t₀, t', _, start, scan, cold, ?_⟩
  rw [hdrained.1, hsize]
  rfl

end Drains

end PageTable

end MemoryTiering
