import MemoryTiering.Laws.PageTable.Coupling

/-!
# Replacement

A promotion into full NUMA-local memory should replace the clock's victim by the promoted page.
Here `remove` of a node the ring no longer holds has no effect (`removeHeld`), so what the promotion
does to the tiers is judged apart from the hand-off of nodes. The eviction moves the victim if the
tier it is sent to has room, and the promotion goes on either way: the law holds exactly when one of
the lower tiers has room (`promotion_replaces_iff`).
-/

set_option autoImplicit false

namespace MemoryTiering

open Fallible Pointer Transition

namespace PageTable

/-- `ClockRing::remove`, of no effect on a node the ring does not hold. -/
def removeHeld : Removal := fun ring node =>
  match node with
  | none => .ok ring
  | some a => if a ∈ ring.nodes then ring.remove (some a) else .ok ring

/-- It always returns, and no ring grows. -/
theorem removeHeld_ok {ring : ClockRing} {l : List Addr} (h : ring.Reads l) (node : Option Addr) :
    ∃ ring' l', removeHeld ring node = .ok ring' ∧ ring'.Reads l' ∧ l'.length ≤ l.length ∧
      ring'.capacity = ring.capacity := by
  unfold removeHeld
  cases node with
  | none => exact ⟨ring, l, rfl, h, le_rfl, rfl⟩
  | some a =>
    dsimp only
    rw [h.nodes_eq]
    by_cases ha : a ∈ l
    · obtain ⟨ring', hcall, hreads, _, hcap, _⟩ := h.remove_eq ha
      rw [if_pos ha]
      exact ⟨ring', _, hcall, hreads, List.erase_sublist.length_le, hcap⟩
    · rw [if_neg ha]
      exact ⟨ring, l, rfl, h, le_rfl, rfl⟩

/-- The victim's tier is full only when both lower tiers are. -/
theorem evictionTarget_isFull (config : ServerMemoryConfig) :
    (config.layer (evictionTarget config)).isFull =
      (config.remoteNuma.isFull && config.pmem.isFull) := by
  unfold evictionTarget
  cases h : config.remoteNuma.isFull with
  | true => rfl
  | false => exact h

section Replacement

variable {t : PageTable} {ring : ClockRing} {l : List Addr} {p : PageId} {m : PageMetadata}
  {target : PageLayer}

/-- **The nested call** on a NUMA-local page: it leaves a ring that is no longer, and moves the page
if its target has room. -/
theorem demotion (migrate : PageTable → PageId → PageLayer → Except Fault (Exit × PageTable))
    (now : Nat) (hring : t.localCacheRing = some ring) (hreads : ring.Reads l)
    (hm : t.meta? p = some m) (hlocal : m.pageLayer = .numaLocal) (htarget : target ≠ .numaLocal) :
    ∃ exit t₁ ring₁ l₁, migrateBody removeHeld migrate now t p target = .ok (exit, t₁) ∧
      t₁.localCacheRing = some ring₁ ∧ ring₁.Reads l₁ ∧ l₁.length ≤ l.length ∧
      ring₁.capacity = ring.capacity ∧
      (((t.serverConfig.layer target).isFull = true ∧ SameLayers t t₁) ∨
        ((t.serverConfig.layer target).isFull = false ∧ Moved t t₁ p .numaLocal target)) := by
  obtain ⟨ring₁, l₁, hremove, hreads₁, hshort, hcap⟩ := removeHeld_ok hreads m.ringNodePtr
  have htake : t.takeFromRing removeHeld p m =
      .ok ((t.store p (.setRingNode none)).withRing ring₁) := by
    rw [takeFromRing_local hring hlocal, hremove, ok_bind]
  have hsame := sameLayers_takeFromRing htake
  rw [migrateBody_found hm, htake, ok_bind, checkCapacity_plain _ _ (.inr htarget),
    hsame.serverConfig]
  cases hfull : (t.serverConfig.layer target).isFull with
  | true => exact ⟨_, _, ring₁, l₁, rfl, rfl, hreads₁, hshort, hcap, .inl ⟨rfl, hsame⟩⟩
  | false =>
    have hcurrent := (hsame.layer p).trans (layer?_eq hm)
    rw [hlocal] at hcurrent ⊢
    have hfinish := finishMove_skip now ((t.store p (.setRingNode none)).withRing ring₁) p
      .numaLocal (.inr htarget)
    have hmove := hsame.moved (moved_of_finishMove hcurrent hfinish)
    refine ⟨.moved, _, ring₁, l₁, ?_, ?_, hreads₁, hshort, hcap, .inr ⟨rfl, hmove⟩⟩
    · simp only [Bool.false_eq_true, if_false, ok_bind]
      rw [hfinish, ok_bind]
    · rfl

/-- What the eviction leaves: room in the ring, and the clock's victim moved if its target had
room. -/
structure Evicted (t t₁ : PageTable) (ring : ClockRing) (victim : PageId) : Prop where
  candidate : ∃ c, ring.findEvictionCandidate = .ok c ∧ c.victim = victim
  place : ∃ ring₁ l₁, t₁.localCacheRing = some ring₁ ∧ ring₁.Reads l₁ ∧
    l₁.length < ring₁.capacity.toNat
  layers :
    ((t.serverConfig.layer (evictionTarget t.serverConfig)).isFull = true ∧ SameLayers t t₁) ∨
    ((t.serverConfig.layer (evictionTarget t.serverConfig)).isFull = false ∧
      Moved t t₁ victim .numaLocal (evictionTarget t.serverConfig))

/-- **The eviction** from a ring that holds the NUMA-local pages. -/
theorem HoldsLocal.evict (h : t.HoldsLocal ring) (hne : ring.pages ≠ []) (evictNow : Nat) :
    ∃ victim t₁, t.layer? victim = some .numaLocal ∧
      t.evict (migrateWith removeHeld evictNow evictNow) ring = .ok t₁ ∧
      Evicted t t₁ ring victim := by
  have hnodes : ring.nodes ≠ [] := by
    intro hnil
    apply hne
    rw [ClockRing.pages, hnil, List.map_nil]
  obtain ⟨c, rest, hcall, hevict, hvictim, hreads, _, hcap, _⟩ :=
    h.wellFormed.findEvictionCandidate_eq hnodes
  obtain ⟨hmem, hlength⟩ := ClockRing.Reads.evicted_mem hevict
  have hlayer : t.layer? c.victim = some .numaLocal := by
    rw [← h.ids, ← ClockRing.pageOf_eq hvictim]
    exact List.mem_map_of_mem hmem
  obtain ⟨m, hm, hlocal⟩ := Option.map_eq_some_iff.mp hlayer
  obtain ⟨exit, t₁, ring₁, l₁, hnested, hring₁, hreads₁, hshort, hcap₁, hlayers⟩ :=
    demotion (t := t.withRing c.ring)
      (migrateBody removeHeld (fun _ _ _ => .error .outOfFuel) evictNow) evictNow rfl hreads hm
      hlocal (evictionTarget_ne_local t.serverConfig)
  refine ⟨c.victim, t₁, hlayer, ?_, ?_⟩
  · unfold PageTable.evict
    rw [hcall, ok_bind]
    dsimp only
    rw [serverConfig_withRing]
    unfold migrateWith
    rw [hnested, ok_bind]
  constructor
  case candidate => exact ⟨c, hcall, rfl⟩
  case place =>
    have hbounded := h.wellFormed.bounded
    refine ⟨ring₁, l₁, hring₁, hreads₁, ?_⟩
    rw [hcap₁, hcap]
    omega
  case layers =>
    exact hlayers.imp (.imp_right fun hsame => (sameLayers_withRing t c.ring).trans hsame)
      (.imp_right fun hmove => (sameLayers_withRing t c.ring).moved hmove)

/-- What the promotion of a page into full memory is for: no tier holds too much, and the page has
replaced the clock's victim, or nothing has moved because both lower tiers are full. -/
structure Replaced (t t' : PageTable) (ring : ClockRing) (p : PageId) : Prop where
  bounded : t'.Bounded
  layers : (t'.layer? p = some .numaLocal ∧
      ∃ c, ring.findEvictionCandidate = .ok c ∧ c.victim ≠ p ∧
        t.layer? c.victim = some .numaLocal ∧
        t'.layer? c.victim = some (evictionTarget t.serverConfig) ∧
        ∀ q, q ≠ p → q ≠ c.victim → t'.layer? q = t.layer? q) ∨
    (t.serverConfig.remoteNuma.isFull = true ∧ t.serverConfig.pmem.isFull = true ∧
      ∀ q, t'.layer? q = t.layer? q)

/-- Once the victim has left, there is room for one page. -/
theorem Moved.room {t₁ : PageTable} {victim : PageId} (tallied : t.Tallied) (bounded : t.Bounded)
    (hmove : Moved t t₁ victim .numaLocal target) (htarget : target ≠ .numaLocal)
    (room : (t.serverConfig.layer target).isFull = false) :
    (t₁.serverConfig.layer .numaLocal).isFull = false := by
  have hcensus := hmove.census .numaLocal
  have hle := bounded .numaLocal
  rw [tallied] at hle
  rw [if_pos rfl, if_neg htarget] at hcensus
  rw [LayerInfo.isFull_eq_false_iff, tallied.move hmove room, hmove.counters, layer_recount]
  dsimp only
  omega

/-- **A promotion into full NUMA-local memory** returns with the page moved, and replaces the
victim exactly when a lower tier has room. -/
theorem promotion_replaces_iff (h : t.HoldsLocal ring) (tallied : t.Tallied) (bounded : t.Bounded)
    (full : t.serverConfig.localNuma.isFull = true) (nonempty : t.serverConfig.localNuma.count ≠ 0)
    (hm : t.meta? p = some m) (lower : m.pageLayer ≠ .numaLocal) (evictNow now : Nat) :
    ∃ t', t.migrateWith removeHeld evictNow now p .numaLocal = .ok (.moved, t') ∧
      (Replaced t t' ring p ↔
        ¬ (t.serverConfig.remoteNuma.isFull = true ∧ t.serverConfig.pmem.isFull = true)) := by
  have hne : ring.pages ≠ [] := by
    have hcount : 0 < t.population .numaLocal := by
      rw [← tallied]
      exact Nat.pos_of_ne_zero fun hzero => nonempty (UInt64.toNat_inj.mp hzero)
    obtain ⟨q, mq, hmq, hq⟩ := exists_of_census_pos hcount
    apply List.ne_nil_of_mem
    rw [h.ids, layer?_eq hmq, of_decide_eq_true hq]
  obtain ⟨victim, t₁, hvictim, hevict, evicted⟩ := h.evict hne evictNow
  have hvp : victim ≠ p := by
    rintro rfl
    rw [layer?_eq hm, Option.some.injEq] at hvictim
    exact lower hvictim
  obtain ⟨ring₁, l₁, hring₁, hreads₁, hplace⟩ := evicted.place
  obtain ⟨ring', hinsert, _⟩ := hreads₁.insert_room p hplace
  obtain ⟨t', hfinish⟩ := finishMove_enter hring₁ hinsert now m.pageLayer
  have hcurrent : t₁.layer? p = some m.pageLayer := by
    rcases evicted.layers with ⟨_, hsame⟩ | ⟨_, hmove⟩
    · rw [hsame.layer, layer?_eq hm]
    · rw [hmove.layer, if_neg hvp.symm, layer?_eq hm]
  have hmove' := moved_of_finishMove hcurrent hfinish
  refine ⟨t', ?_, ?_⟩
  · rw [migrateWith_eq_body, migrateBody_found hm, takeFromRing_skip _ _ _ (.inr lower),
      ok_bind, checkCapacity_promotion h.present, if_pos full, hevict, ok_bind,
      ok_bind]
    dsimp only
    rw [hfinish, ok_bind]
  · rw [← Bool.and_eq_true, ← evictionTarget_isFull]
    rcases evicted.layers with ⟨hfull, hsame⟩ | ⟨room, hmove⟩
    · apply iff_of_false _ (not_not.mpr hfull)
      intro hreplaced
      rcases hreplaced.layers with ⟨_, c, _, hcp, hlocal, hmoved, _⟩ | ⟨_, _, hall⟩
      · rw [hmove'.layer, if_neg hcp, hsame.layer, hlocal, Option.some.injEq] at hmoved
        exact evictionTarget_ne_local _ hmoved.symm
      · have hp := hall p
        rw [hmove'.layer, if_pos rfl, layer?_eq hm, Option.some.injEq] at hp
        exact lower hp.symm
    · apply iff_of_true _ (Bool.eq_false_iff.mp room)
      have htarget := evictionTarget_ne_local t.serverConfig
      obtain ⟨c, hcall, rfl⟩ := evicted.candidate
      have hbounded := (bounded.move tallied hmove room).move (tallied.move hmove room) hmove'
        (hmove.room tallied bounded htarget room)
      refine ⟨hbounded, .inl ⟨?_, c, hcall, hvp, hvictim, ?_, ?_⟩⟩
      · rw [hmove'.layer, if_pos rfl]
      · rw [hmove'.layer, if_neg hvp, hmove.layer, if_pos rfl]
      · intro q hqp hqv
        rw [hmove'.layer, if_neg hqp, hmove.layer, if_neg hqv]

/-- The table of an accepted configuration starts coupled. -/
theorem coupled_at_start {config : AcceptedConfig} {alloc : Allocation}
    (start : config.start true alloc = .ok t) :
    ∃ ring, t.Coupled ring ∧ t.Tallied ∧ t.Bounded := by
  obtain ⟨ring, l, h⟩ := reached start (.nil t)
  exact ⟨ring, h.held.coupled_iff.mpr h.lost, h.accounted.tallied, h.accounted.bounded⟩

/-- With no room in either lower tier the promotion goes on, and overfills NUMA-local memory. -/
theorem promotion_overfills :
    ∃ t ring t', (smallConfig 1 0 (by decide)).start true plainAllocation = .ok t ∧
    t.HoldsLocal ring ∧ t.Tallied ∧ t.Bounded ∧ t.serverConfig.localNuma.isFull = true ∧
    t.serverConfig.localNuma.count ≠ 0 ∧ t.layer? 1 = some .numaRemote ∧
    t.migrateWith removeHeld 0 0 1 .numaLocal = .ok (.moved, t') ∧ ¬ Replaced t t' ring 1 := by
  have hcall : ∃ t t' : PageTable,
      (smallConfig 1 0 (by decide)).start true plainAllocation = .ok t ∧
      t.serverConfig.localNuma.isFull = true ∧ t.serverConfig.localNuma.count ≠ 0 ∧
      t.layer? 1 = some .numaRemote ∧
      t.migrateWith removeHeld 0 0 1 .numaLocal = .ok (.moved, t') ∧
      t'.serverConfig.localNuma = { count := 2, capacity := 1 } :=
    ⟨_, _, rfl, rfl, nofun, rfl, rfl, rfl⟩
  obtain ⟨t, t', start, hfull, hcount, hlayer, hcall, hover⟩ := hcall
  obtain ⟨ring, hcoupled, htally, hbound⟩ := coupled_at_start start
  refine ⟨t, ring, t', start, hcoupled.toHoldsLocal, htally, hbound, hfull, hcount, hlayer, hcall,
    ?_⟩
  intro hreplaced
  have hle := hreplaced.bounded .numaLocal
  change t'.serverConfig.localNuma.count.toNat ≤ t'.serverConfig.localNuma.capacity.toNat at hle
  rw [hover] at hle
  exact absurd hle (by decide)

theorem promotion_replaces_local_page : ∃ t ring t',
    (smallConfig 1 1 (by decide)).start true plainAllocation = .ok t ∧
    t.migrateWith removeHeld 0 0 1 .numaLocal = .ok (.moved, t') ∧ Replaced t t' ring 1 := by
  have hstart : ∃ t m, (smallConfig 1 1 (by decide)).start true plainAllocation = .ok t ∧
      t.serverConfig.localNuma.isFull = true ∧ t.serverConfig.localNuma.count ≠ 0 ∧
      t.meta? 1 = some m ∧ m.pageLayer ≠ .numaLocal ∧
      t.serverConfig.pmem.isFull = false :=
    ⟨_, _, rfl, rfl, nofun, rfl, nofun, rfl⟩
  obtain ⟨t, m, start, hfull, hcount, hm, hlower, hroom⟩ := hstart
  obtain ⟨ring, hcoupled, htally, hbound⟩ := coupled_at_start start
  obtain ⟨t', hcall, hiff⟩ := promotion_replaces_iff
    hcoupled.toHoldsLocal htally hbound hfull hcount hm hlower 0 0
  refine ⟨t, ring, t', start, hcall, hiff.mpr ?_⟩
  rintro ⟨-, hfull⟩
  exact Bool.noConfusion (hroom.symm.trans hfull)

end Replacement

end PageTable

end MemoryTiering
