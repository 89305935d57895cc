import MemoryTiering.Laws.PageTable.Outcome

/-!
# The coupling of ring and page table over runs

The lost pages of a run are its refused demotions, counted (`Held.run`), so the ring and the page
table stay coupled exactly as long as there is none (`coupled_iff_no_refused_demotion`). A call
misuses a node exactly when it needs an eviction that has a victim, or moves a page that is lost
(`nodes_used_once_iff`). A refusal leaves the table as it was exactly when it ran no ring removal
(`refusal_unchanged_iff`).
-/

set_option autoImplicit false

namespace MemoryTiering

open Pointer Transition

/-- The fault is a node the call had no right to: null, or freed. -/
def Fault.misusesNode : Fault → Bool
  | .nullDeref => true
  | .useAfterFree _ => true
  | .assertion .removeNullptr => true
  | _ => false

namespace PageTable

/-! ## Runs -/

section Runs

variable {config : AcceptedConfig} {alloc : Allocation} {t₀ t : PageTable}
  {es : List (PageTable × Call)}

/-- The refused demotions of a run, counted. -/
def refusedDemotions (es : List (PageTable × Call)) : Nat :=
  es.countP fun e => e.2.refusesDemotion e.1

/-- **The run lemma**: the lost pages are the refused demotions, and the accounts stay right. -/
theorem Held.run {server : ServerMemoryConfig} {ring : ClockRing} {l : List Addr}
    (h : t₀.Held ring l) (haccounts : Accounted server t₀) (run : Trace Step t₀ es t) :
    ∃ ring' l', t.Held ring' l' ∧ ring'.capacity = ring.capacity ∧
      t.lost = t₀.lost + refusedDemotions es ∧ Accounted server t ∧
      t.table.size = t₀.table.size := by
  induction run generalizing ring l with
  | nil s => exact ⟨ring, l, h, rfl, rfl, haccounts, rfl⟩
  | @cons s s₁ s₂ e es hstep _ ih =>
    obtain ⟨ring₁, l₁, called⟩ := h.apply hstep.call
    obtain ⟨ring₂, l₂, h₂, hcap₂, hlost₂, haccounts₂, hsize₂⟩ :=
      ih called.held (haccounts.shift called.shifted)
    have hlost : s₂.lost = s.lost + refusedDemotions (e :: es) := by
      rw [hlost₂, called.lost]
      unfold refusedDemotions
      rw [List.countP_cons, hstep.before]
      omega
    exact ⟨ring₂, l₂, h₂, hcap₂.trans called.capacity, hlost, haccounts₂,
      hsize₂.trans called.shifted.size⟩

/-- What a run of an accepted configuration with the ring enabled reaches. -/
structure Reached (config : AcceptedConfig) (t : PageTable) (ring : ClockRing) (l : List Addr)
    (refused : Nat) : Prop where
  held : t.Held ring l
  capacity : ring.capacity.toNat = demand config.server.numTiers config.clients .numaLocal
  lost : t.lost = refused
  accounted : Accounted config.server t
  size : t.table.size = ([.numaLocal, .numaRemote, .pmem].map
    (demand config.server.numTiers config.clients)).sum

theorem reached (start : config.start true alloc = .ok t₀) (run : Trace Step t₀ es t) :
    ∃ ring l, Reached config t ring l (refusedDemotions es) := by
  have hinit := AcceptedConfig.initial start
  obtain ⟨⟨ring₀, l₀, h₀, hcap₀⟩, hlost₀⟩ := hinit.ringed
  have haccounts := hinit.accounted (AcceptedConfig.demand_le start)
  obtain ⟨ring, l, h, hcap, hlost, haccounts', hsize⟩ := h₀.run haccounts run
  exists ring, l
  constructor
  case held => exact h
  case capacity =>
    rw [hcap, hcap₀]
    apply toNat_localPageLoad true
    · rw [config.server_eq.1]
      exact config.tiers
    · exact hinit.demand_lt .numaLocal
  case lost => rw [hlost, hlost₀, Nat.zero_add]
  case accounted => exact haccounts'
  case size =>
    rw [hsize, ← population_sum]
    simp only [List.map_cons, List.map_nil, List.sum_cons, List.sum_nil, ← hinit.population]
    omega

/-! ## Coupling -/

/-- The ring holds the ids of the NUMA-local entries, each once. -/
structure HoldsLocal (t : PageTable) (ring : ClockRing) : Prop where
  present : t.localCacheRing = some ring
  wellFormed : ring.WellFormed
  once : ring.pages.Nodup
  ids : ∀ p, p ∈ ring.pages ↔ t.layer? p = some .numaLocal

/-- **The ring and the page table are coupled**: the ring holds the NUMA-local entries, an entry has
a node exactly when it is NUMA-local, and its node is live and carries its id. -/
structure Coupled (t : PageTable) (ring : ClockRing) : Prop extends HoldsLocal t ring where
  node_iff : ∀ p m, t.meta? p = some m → (m.ringNodePtr ≠ none ↔ m.pageLayer = .numaLocal)
  node : ∀ p m a, t.meta? p = some m → m.ringNodePtr = some a →
    ∃ n, ring.heap.read? a = some n ∧ a ∈ ring.nodes ∧ n.pageId = p

/-- The pages of the ring are the pages with a node, each once. -/
theorem Held.pages_nodup {ring : ClockRing} {l : List Addr} (h : t.Held ring l) :
    ring.pages.Nodup := by
  rw [ClockRing.pages, h.reads.nodes_eq]
  apply List.Nodup.map_on _ h.reads.nodup
  intro a ha b hb heq
  obtain ⟨p, m, hm, hptr⟩ := h.owned a ha
  obtain ⟨q, m', hm', hptr'⟩ := h.owned b hb
  rw [h.pageOf_eq hm hptr, h.pageOf_eq hm' hptr'] at heq
  subst heq
  rw [hm, Option.some.injEq] at hm'
  subst hm'
  exact Option.some.inj (hptr.symm.trans hptr')

theorem Held.mem_pages {ring : ClockRing} {l : List Addr} (h : t.Held ring l) (p : PageId) :
    p ∈ ring.pages ↔ ∃ m, t.meta? p = some m ∧ m.ringNodePtr ≠ none := by
  rw [ClockRing.pages, h.reads.nodes_eq, List.mem_map]
  constructor
  · rintro ⟨a, ha, rfl⟩
    obtain ⟨q, m, hm, hptr⟩ := h.owned a ha
    rw [h.pageOf_eq hm hptr]
    exact ⟨m, hm, by rw [hptr]; exact Option.some_ne_none a⟩
  · rintro ⟨m, hm, hne⟩
    obtain ⟨a, hptr⟩ := Option.ne_none_iff_exists'.mp hne
    exact ⟨a, h.live hm hptr, h.pageOf_eq hm hptr⟩

/-- **Coupled is held with no page lost.** -/
theorem Held.coupled_iff {ring : ClockRing} {l : List Addr} (h : t.Held ring l) :
    t.Coupled ring ↔ t.lost = 0 := by
  rw [lost_eq_zero_iff]
  constructor
  · intro hc p m hm
    exact (hc.node_iff p m hm).mpr
  · intro hall
    have hnode : ∀ p m, t.meta? p = some m → (m.ringNodePtr ≠ none ↔ m.pageLayer = .numaLocal) := by
      intro p m hm
      constructor
      · intro hne
        obtain ⟨a, hptr⟩ := Option.ne_none_iff_exists'.mp hne
        exact (h.points p m a hm hptr).1
      · exact hall p m hm
    have ids : ∀ p, p ∈ ring.pages ↔ t.layer? p = some .numaLocal := by
      intro p
      rw [h.mem_pages, layer?, Option.map_eq_some_iff]
      constructor
      · rintro ⟨m, hm, hne⟩
        exact ⟨m, hm, (hnode p m hm).mp hne⟩
      · rintro ⟨m, hm, hlayer⟩
        exact ⟨m, hm, (hnode p m hm).mpr hlayer⟩
    constructor
    case toHoldsLocal => exact ⟨h.present, h.reads.wellFormed, h.pages_nodup, ids⟩
    case node_iff => exact hnode
    case node =>
      intro p m a hm hptr
      obtain ⟨_, ha, hdata⟩ := h.points p m a hm hptr
      obtain ⟨n, hn⟩ := h.reads.read ha
      rw [ClockRing.data, ClockRing.dataOf, hn] at hdata
      rw [h.reads.nodes_eq]
      exact ⟨n, hn, ha, Option.some.inj hdata⟩

/-- **The coupling holds in every state of a run exactly when no demotion of the run was
refused.** -/
theorem coupled_iff_no_refused_demotion (start : config.start true alloc = .ok t₀)
    (run : Trace Step t₀ es t) :
    ((∀ e ∈ es, ∃ ring, e.1.Coupled ring) ∧ ∃ ring, t.Coupled ring) ↔
      ∀ e ∈ es, e.2.refusesDemotion e.1 = false := by
  constructor
  · rintro ⟨-, ring', hc⟩ e he
    obtain ⟨ring, l, ⟨h, -, hlost, -, -⟩⟩ := reached start run
    obtain rfl : ring = ring' := Option.some.inj (h.present.symm.trans hc.present)
    rw [h.coupled_iff.mp hc] at hlost
    simpa using List.countP_eq_zero.mp hlost.symm e he
  · intro hnone
    have coupled : ∀ {es' s}, (∀ e ∈ es', e.2.refusesDemotion e.1 = false) → Trace Step t₀ es' s →
        ∃ ring, s.Coupled ring := by
      intro es' s hes' run'
      obtain ⟨ring, l, ⟨h, -, hlost, -, -⟩⟩ := reached start run'
      have hzero : refusedDemotions es' = 0 := by
        rw [refusedDemotions, List.countP_eq_zero]
        intro e he
        simp [hes' e he]
      exact ⟨ring, h.coupled_iff.mpr (hlost.trans hzero)⟩
    constructor
    · intro e he
      obtain ⟨before, after, rfl⟩ := List.append_of_mem he
      obtain ⟨s, hbefore, hafter⟩ := run.split before
      cases hafter with
      | cons hstep _ =>
        rw [hstep.before]
        exact coupled (fun e' he' => hnone e' (List.mem_append_left _ he')) hbefore
    · exact coupled hnone run

/-- Once a refused demotion has lost a page's node, nothing is coupled any more. -/
theorem refused_demotion_uncouples : ∃ t₀ t,
    (smallConfig 1 1 (by decide)).start true plainAllocation = .ok t₀ ∧
    Trace Step t₀ [(t₀, .migratePage 0 0 0 .numaRemote)] t ∧ ¬ ∃ ring, t.Coupled ring := by
  refine ⟨_, _, rfl, Trace.single.mpr ⟨rfl, rfl⟩, ?_⟩
  rintro ⟨ring, hc⟩
  have hnode := (hc.node_iff 0 _ rfl).mpr rfl
  exact hnode rfl

theorem coupled_after_demotion : ∃ t₀ t,
    (smallConfig 1 1 (by decide)).start true plainAllocation = .ok t₀ ∧
    Trace Step t₀ [(t₀, .migratePage 0 0 1 .pmem)] t ∧ ∃ ring, t.Coupled ring := by
  have hrun : ∃ t₀ t, (smallConfig 1 1 (by decide)).start true plainAllocation = .ok t₀ ∧
      Trace Step t₀ [(t₀, .migratePage 0 0 1 .pmem)] t ∧
      Call.refusesDemotion t₀ (.migratePage 0 0 1 .pmem) = false :=
    ⟨_, _, rfl, Trace.single.mpr ⟨rfl, rfl⟩, rfl⟩
  obtain ⟨t₀, t, start, run, hno⟩ := hrun
  have hnone : ∀ e ∈ [(t₀, Call.migratePage 0 0 1 .pmem)], e.2.refusesDemotion e.1 = false := by
    intro e he
    rw [List.mem_singleton.mp he]
    exact hno
  exact ⟨t₀, t, start, run, ((coupled_iff_no_refused_demotion start run).mpr hnone).2⟩

/-! ## Node hand-off -/

/-- **Which calls misuse a node**, in every reachable table: those that demote a lost page, and
promotions to a full tier while another page has a node. The nodes of the ring are the nodes ever
inserted less the ones removed. -/
theorem nodes_used_once_iff (start : config.start true alloc = .ok t₀) (run : Trace Step t₀ es t) :
    (∃ ring, t.localCacheRing = some ring ∧
      ring.size.toNat + ring.heap.freed = ring.heap.allocated) ∧
    ∀ evictNow now p target,
      (∀ fault, t.migratePage evictNow now p target = .error fault → fault.misusesNode = false) ↔
        ∀ m, t.meta? p = some m → isLost m = false ∧
          ¬ (target = .numaLocal ∧ t.serverConfig.localNuma.isFull = true ∧ t.OtherNode p) := by
  obtain ⟨ring, l, ⟨h, -, -, -, -⟩⟩ := reached start run
  constructor
  · have hcount := Heap.length_add_freed h.reads.nodup h.reads.live
    rw [← h.reads.size] at hcount
    exact ⟨ring, h.present, hcount⟩
  · intro evictNow now p target
    cases hm : t.meta? p with
    | none =>
      apply iff_of_true
      · intro fault hcall
        rw [migratePage_eq_body, migrateBody_notFound hm] at hcall
        cases hcall
      · intro m hsome
        cases hsome
    | some m =>
      rcases h.outcome hm evictNow now target with ⟨hlost, hcall⟩ | ⟨hkept, rest, hother, _, hends⟩
      · apply iff_of_false
        · intro hall
          exact Bool.noConfusion (hall _ hcall)
        · intro hall
          exact Bool.noConfusion (hlost.symm.trans (hall m rfl).1)
      · simp only [Option.some.injEq, forall_eq', hkept, true_and, ← hother]
        generalize t.migratePage evictNow now p target = result at hends ⊢
        cases hends with
        | noCandidate promotes full empty =>
          apply iff_of_true
          · intro fault hfault
            cases hfault
            rfl
          · rintro ⟨-, -, nonempty⟩
            exact nonempty empty
        | freedNode promotes full nonempty a =>
          apply iff_of_false
          · intro hall
            exact Bool.noConfusion (hall _ rfl)
          · exact not_not.mpr ⟨promotes, full, nonempty⟩
        | ringFull promotes room full =>
          apply iff_of_true
          · intro fault hfault
            cases hfault
            rfl
          · rintro ⟨-, hfull, -⟩
            exact Bool.noConfusion (hfull.symm.trans room)
        | returns room answer =>
          apply iff_of_true
          · intro fault hfault
            cases hfault
          · rintro ⟨promotes, hfull, -⟩
            exact Bool.noConfusion (hfull.symm.trans (room promotes).1)

/-- A promotion to the full tier reads the node its eviction has just freed. -/
theorem eviction_reads_freed_node : ∃ t₀,
    (smallConfig 1 1 (by decide)).start true plainAllocation = .ok t₀ ∧
    t₀.migratePage 0 0 1 .numaLocal = .error (.useAfterFree 0) :=
  ⟨_, rfl, rfl⟩

theorem nodes_used_once_after_demotion : ∃ t₀ t,
    (smallConfig 1 1 (by decide)).start true plainAllocation = .ok t₀ ∧
    Trace Step t₀ [(t₀, .migratePage 0 0 1 .pmem)] t ∧
    ∀ fault, t.migratePage 0 0 0 .numaRemote = .error fault → fault.misusesNode = false := by
  have hrun : ∃ t₀ t, (smallConfig 1 1 (by decide)).start true plainAllocation = .ok t₀ ∧
      Trace Step t₀ [(t₀, .migratePage 0 0 1 .pmem)] t ∧
      (t.meta? 0).map isLost = some false :=
    ⟨_, _, rfl, Trace.single.mpr ⟨rfl, rfl⟩, rfl⟩
  obtain ⟨t₀, t, start, run, hkept⟩ := hrun
  refine ⟨t₀, t, start, run, ((nodes_used_once_iff start run).2 0 0 0 .numaRemote).mpr ?_⟩
  intro m hm
  rw [hm, Option.map_some, Option.some.injEq] at hkept
  exact ⟨hkept, fun hbad => by cases hbad.1⟩

end Runs

/-! ## Refusals -/

section Refusals

variable {t t' : PageTable} {p : PageId} {target : PageLayer} {evictNow now : Nat} {exit : Exit}

/-- `remove` asserts that its argument is not null. -/
theorem remove_eq_ok {ring ring' : ClockRing} {node : Option Addr}
    (h : ring.remove node = .ok ring') : node ≠ none := by
  rintro rfl
  cases h

/-- **A refusal changes nothing exactly when it ran no ring removal**: there is no ring, or the page
was not NUMA-local. -/
theorem refusal_unchanged_iff (h : t.migratePage evictNow now p target = .ok (exit, t'))
    (refused : exit ≠ .moved) :
    t' = t ↔ t.localCacheRing = none ∨ t.layer? p ≠ some .numaLocal := by
  rcases migrateBody_cases h with ⟨hm, _, rfl⟩ | ⟨m, t₁, hm, htake, h⟩
  · have hlayer : t'.layer? p = none := by rw [layer?, hm, Option.map_none]
    rw [hlayer]
    exact iff_of_true rfl (.inr (Option.some_ne_none _).symm)
  · obtain rfl : t' = t₁ := by
      rcases h with ⟨_, _, h⟩ | ⟨_, _, hmoved, _⟩
      · exact h
      · exact (refused hmoved).elim
    rw [layer?_eq hm]
    rcases takeFromRing_cases htake with
      ⟨hskip, hsame⟩ | ⟨ring, ring', hring, hlayer, hremove, htaken⟩
    · exact iff_of_true hsame (hskip.imp_right fun hne heq => hne (Option.some.inj heq))
    · apply iff_of_false
      · intro heq
        -- the removed node's pointer was not null, and it is null now
        have hptr : t'.meta? p = some (m.setRingNode none) := by
          rw [htaken]
          exact t.meta?_store_self p (.setRingNode none) hm
        rw [heq, hm, Option.some.injEq] at hptr
        apply remove_eq_ok hremove
        rw [hptr]
        rfl
      · simp [hring, hlayer]

/-- A refused demotion with a ring takes the page's node. -/
theorem refusal_takes_node : ∃ t₀ t',
    (smallConfig 1 1 (by decide)).start true plainAllocation = .ok t₀ ∧
    t₀.migratePage 0 0 0 .numaRemote = .ok (.targetFull, t') ∧ t' ≠ t₀ := by
  have hcall : ∃ t₀ t', (smallConfig 1 1 (by decide)).start true plainAllocation = .ok t₀ ∧
      t₀.migratePage 0 0 0 .numaRemote = .ok (.targetFull, t') ∧
      (t₀.meta? 0).map (·.ringNodePtr) = some (some 0) ∧
      (t'.meta? 0).map (·.ringNodePtr) = some none :=
    ⟨_, _, rfl, rfl, rfl, rfl⟩
  obtain ⟨t₀, t', start, hcall, hbefore, hafter⟩ := hcall
  have hne : t' ≠ t₀ := by
    rintro rfl
    rw [hbefore] at hafter
    cases hafter
  exact ⟨t₀, t', start, hcall, hne⟩

theorem refusal_of_remote_page : ∃ t₀ t',
    (smallConfig 1 1 (by decide)).start true plainAllocation = .ok t₀ ∧
    t₀.migratePage 0 0 1 .numaRemote = .ok (.targetFull, t') ∧ t' = t₀ := by
  have hcall : ∃ t₀ t', (smallConfig 1 1 (by decide)).start true plainAllocation = .ok t₀ ∧
      t₀.migratePage 0 0 1 .numaRemote = .ok (.targetFull, t') ∧
      t₀.layer? 1 = some .numaRemote :=
    ⟨_, _, rfl, rfl, rfl⟩
  obtain ⟨t₀, t', start, hcall, hlayer⟩ := hcall
  have hrefused : Exit.targetFull ≠ .moved := by decide
  have hremote : t₀.layer? 1 ≠ some .numaLocal := by
    rw [hlayer]
    decide
  exact ⟨t₀, t', start, hcall, (refusal_unchanged_iff hcall hrefused).mpr (.inr hremote)⟩

end Refusals

end PageTable

end MemoryTiering
