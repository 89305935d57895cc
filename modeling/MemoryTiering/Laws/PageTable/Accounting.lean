import MemoryTiering.Laws.PageTable.Run

/-!
# Tier accounting

A tier's counter is a copy of the number of pages whose metadata name the tier, kept far from the
stores to the metadata. `Tallied.move` is the one place where both change; it needs the census
itself to see that the decremented counter is not zero. Without a ring every call is such a move
or moves nothing, and `ringless_accounting` follows for every run.
-/

set_option autoImplicit false

namespace MemoryTiering

open Fallible Pointer Transition

namespace PageTable

/-! ## The census of layers -/

/-- A page stands in its layer's census. -/
theorem population_pos {t : PageTable} {p : PageId} {layer : PageLayer}
    (h : t.layer? p = some layer) : 0 < t.population layer := by
  obtain ⟨m, hm, rfl⟩ := Option.map_eq_some_iff.mp h
  exact census_pos hm (by simp)

/-- What a move between layers does to the census. -/
theorem population_store {t : PageTable} {p : PageId} {m : PageMetadata}
    (hm : t.meta? p = some m) (f : PageMetadata → PageMetadata) (layer : PageLayer) :
    (t.store p f).population layer + (if m.pageLayer = layer then 1 else 0) =
      t.population layer + if (f m).pageLayer = layer then 1 else 0 := by
  have := t.census_store p f (·.pageLayer = layer) hm
  simp only [decide_eq_true_eq] at this
  exact this

/-! ## A move -/

/-- One page moved from its layer to another, in the metadata, the census and the counters. -/
structure Moved (t t' : PageTable) (p : PageId) (current target : PageLayer) : Prop where
  before : t.layer? p = some current
  layer : ∀ q, t'.layer? q = if q = p then some target else t.layer? q
  census : ∀ layer, t'.population layer + (if current = layer then 1 else 0) =
    t.population layer + if target = layer then 1 else 0
  counters : t'.serverConfig = t.serverConfig.recount current target
  size : t'.table.size = t.table.size

/-- What a completed call does to the layers: nothing, or one page moves into a tier with room. -/
def Shifted (t t' : PageTable) : Prop :=
  SameLayers t t' ∨ ∃ p current target, Moved t t' p current target ∧
    (t.serverConfig.layer target).isFull = false

/-- The counters after a move. -/
theorem layer_recount (config : ServerMemoryConfig) (current target layer : PageLayer) :
    (config.recount current target).layer layer =
      { count := (config.layer layer).count - (if current = layer then 1 else 0) +
          if target = layer then 1 else 0
        capacity := (config.layer layer).capacity } := by
  unfold ServerMemoryConfig.recount
  rw [ServerMemoryConfig.layer_modify, ServerMemoryConfig.layer_modify]
  by_cases hc : current = layer <;> by_cases ht : target = layer
  · simp [hc, ht]
  · simp [hc, ht, Ne.symm ht]
  · simp [hc, ht, Ne.symm hc]
  · simp [hc, ht, Ne.symm hc, Ne.symm ht]

section Move

variable {t t' : PageTable} {p : PageId} {current target : PageLayer}

/-- **What a move into a tier with room does to the counters.** The census shows that the one that
goes down is not zero, and the room that the one that goes up does not wrap. -/
theorem toNat_recount (h : t.Tallied) (before : t.layer? p = some current)
    (room : (t.serverConfig.layer target).isFull = false) (layer : PageLayer) :
    ((t.serverConfig.recount current target).layer layer).count.toNat +
        (if current = layer then 1 else 0) =
      (t.serverConfig.layer layer).count.toNat + if target = layer then 1 else 0 := by
  have hpos : (if current = layer then 1 else 0) ≤ (t.serverConfig.layer layer).count.toNat := by
    split
    next hc =>
      rw [h, ← hc]
      exact population_pos before
    next => exact Nat.zero_le _
  have hdown : ((t.serverConfig.layer layer).count - (if current = layer then 1 else 0)).toNat =
      (t.serverConfig.layer layer).count.toNat - if current = layer then 1 else 0 := by
    by_cases hc : current = layer
    · rw [if_pos hc] at hpos
      rw [if_pos hc, if_pos hc, SizeT.toNat_pred hpos]
    · rw [if_neg hc, if_neg hc, UInt64.sub_zero, Nat.sub_zero]
  rw [layer_recount]
  dsimp only
  by_cases ht : target = layer
  · rw [LayerInfo.isFull_eq_false_iff, ht] at room
    have hcap := (t.serverConfig.layer layer).capacity.toNat_lt
    rw [if_pos ht, if_pos ht, SizeT.toNat_succ (by rw [hdown]; omega), hdown]
    omega
  · rw [if_neg ht, if_neg ht, UInt64.add_zero, hdown]
    omega

/-- **A move into a tier with room keeps the counters in step with the census.** -/
theorem Tallied.move (h : t.Tallied) (hmove : Moved t t' p current target)
    (room : (t.serverConfig.layer target).isFull = false) : t'.Tallied := by
  intro layer
  have hcensus := hmove.census layer
  have hcounters := toNat_recount h hmove.before room layer
  rw [h] at hcounters
  rw [hmove.counters]
  omega

/-- A move into a tier with room keeps every tier within its capacity. -/
theorem Bounded.move (h : t.Bounded) (htally : t.Tallied) (hmove : Moved t t' p current target)
    (room : (t.serverConfig.layer target).isFull = false) : t'.Bounded := by
  intro layer
  have hcensus := hmove.census layer
  have hcap : (t'.serverConfig.layer layer).capacity = (t.serverConfig.layer layer).capacity := by
    rw [hmove.counters, layer_recount]
  have hle := h layer
  rw [htally] at hle
  rw [htally.move hmove room, hcap]
  rw [LayerInfo.isFull_eq_false_iff, htally] at room
  by_cases ht : target = layer
  · rw [ht] at room
    rw [if_pos ht] at hcensus
    omega
  · rw [if_neg ht] at hcensus
    omega

/-- From `migrate_page` to the end, one page moves. -/
theorem moved_of_finishMove {now : Nat} (hp : t.layer? p = some current)
    (h : t.finishMove now p current target = .ok t') : Moved t t' p current target := by
  obtain ⟨m, hm, rfl⟩ := Option.map_eq_some_iff.mp hp
  obtain ⟨t₁, henter, h⟩ := bind_eq_ok.mp h
  have hsame := sameLayers_enterRing henter
  have hstamp := sameLayers_store t₁ p (f := .reset now) fun _ => rfl
  cases h
  constructor
  case before => exact hp
  case layer =>
    intro q
    have hlayer : (t.store p (.setLayer target)).layer? q =
        if q = p then some target else t.layer? q := by
      unfold layer?
      by_cases hq : q = p
      · rw [hq, meta?_store_self _ _ _ hm, if_pos rfl]
        rfl
      · rw [meta?_store_ne _ _ _ _ hq, if_neg hq]
    exact (hstamp.layer q).trans ((hsame.layer q).trans hlayer)
  case census =>
    intro layer
    have hpop := population_store hm (.setLayer target) layer
    rw [← hsame.population, ← hstamp.population] at hpop
    exact hpop
  case counters =>
    show t₁.serverConfig.recount m.pageLayer target = _
    rw [hsame.serverConfig]
    rfl
  case size => exact hstamp.size.trans (hsame.size.trans (Table.size_update ..))

theorem SameLayers.moved {t₁ : PageTable} (h : SameLayers t t₁)
    (hmove : Moved t₁ t' p current target) : Moved t t' p current target := by
  constructor
  case before => rw [← h.layer, hmove.before]
  case layer =>
    intro q
    rw [hmove.layer, h.layer]
  case census =>
    intro layer
    rw [hmove.census, h.population]
  case counters => rw [hmove.counters, h.serverConfig]
  case size => rw [hmove.size, h.size]

end Move

/-! ## Accounts -/

/-- The counters stay in step whatever a completed call does. -/
theorem Tallied.shift {t t' : PageTable} (h : t.Tallied) (hshift : Shifted t t') : t'.Tallied := by
  rcases hshift with hsame | ⟨_, _, _, hmove, room⟩
  · intro layer
    rw [hsame.serverConfig, hsame.population]
    exact h layer
  · exact h.move hmove room

/-- What every completed call keeps, on a server of given capacities. -/
structure Accounted (server : ServerMemoryConfig) (t : PageTable) : Prop where
  tallied : t.Tallied
  bounded : t.Bounded
  capacity : ∀ layer, (t.serverConfig.layer layer).capacity = (server.layer layer).capacity

/-- **The accounts survive every shift of layers.** -/
theorem Accounted.shift {server : ServerMemoryConfig} {t t' : PageTable} (h : Accounted server t)
    (hshift : Shifted t t') : Accounted server t' := by
  rcases hshift with hsame | ⟨p, current, target, hmove, room⟩
  · constructor
    · exact h.tallied.shift (.inl hsame)
    · intro layer
      rw [hsame.serverConfig]
      exact h.bounded layer
    · intro layer
      rw [hsame.serverConfig]
      exact h.capacity layer
  · constructor
    · exact h.tallied.move hmove room
    · exact h.bounded.move h.tallied hmove room
    · intro layer
      rw [hmove.counters, layer_recount]
      exact h.capacity layer

/-- A table that was filled within its capacities. -/
theorem Initial.accounted {clients : List ClientConfig} {server : ServerMemoryConfig} {ring : Bool}
    {t : PageTable} (h : Initial clients server ring t)
    (fits : ∀ layer, demand server.numTiers clients layer ≤ (server.layer layer).capacity.toNat) :
    Accounted server t :=
  ⟨h.tallied, h.bounded fits, h.frame.capacity⟩

theorem Shifted.size {t t' : PageTable} (h : Shifted t t') : t'.table.size = t.table.size := by
  rcases h with hsame | ⟨_, _, _, hmove, _⟩
  · exact hsame.size
  · exact hmove.size

/-- No shift takes a page out of the table, or adds one. -/
theorem Shifted.isSome {t t' : PageTable} (h : Shifted t t') (p : PageId) :
    (t'.meta? p).isSome = (t.meta? p).isSome := by
  have hlayer : (t'.layer? p).isSome = (t.layer? p).isSome := by
    rcases h with hsame | ⟨q, current, target, hmove, _⟩
    · rw [hsame.layer]
    · rw [hmove.layer]
      split
      next hp => rw [hp, hmove.before]; rfl
      next => rfl
  simpa only [layer?, Option.isSome_map] using hlayer

/-! ## Without a ring -/

/-- A migration without a ring moves nothing, or one page into a tier with room. -/
theorem migratePage_ringless {t : PageTable} (hring : t.localCacheRing = none)
    (evictNow now : Nat) (p : PageId) (target : PageLayer) :
    ∃ exit t', t.migratePage evictNow now p target = .ok (exit, t') ∧ t'.localCacheRing = none ∧
      ((exit ≠ .moved ∧ t' = t) ∨
        (exit = .moved ∧ (t.serverConfig.layer target).isFull = false ∧
          ∃ current, Moved t t' p current target)) := by
  rw [migratePage_eq_body]
  cases hm : t.meta? p with
  | none => exact ⟨_, t, migrateBody_notFound hm, hring, .inl ⟨nofun, rfl⟩⟩
  | some m =>
    rw [migrateBody_found hm, takeFromRing_skip _ _ _ (.inl hring), ok_bind,
      checkCapacity_plain _ _ (.inl hring), ok_bind]
    cases hfull : (t.serverConfig.layer target).isFull with
    | true => exact ⟨_, t, rfl, hring, .inl ⟨nofun, rfl⟩⟩
    | false =>
      obtain ⟨t', hfinish, hring'⟩ : ∃ t', t.finishMove now p m.pageLayer target = .ok t' ∧
          t'.localCacheRing = none :=
        ⟨_, finishMove_skip now t p m.pageLayer (.inl hring), hring⟩
      have hmove := moved_of_finishMove (layer?_eq hm) hfinish
      refine ⟨.moved, t', ?_, hring', .inr ⟨rfl, rfl, m.pageLayer, hmove⟩⟩
      simp only [Bool.false_eq_true, if_false]
      rw [hfinish, ok_bind]

/-- **The step lemma**: without a ring every call returns, and shifts the layers. -/
theorem apply_ringless {t : PageTable} (hring : t.localCacheRing = none) (c : Call) :
    ∃ t', c.apply t = .ok t' ∧ t'.localCacheRing = none ∧ Shifted t t' := by
  cases c with
  | accessPage latency now p mode =>
    have hreturns : ∃ t', t.accessPage latency now p mode = .ok t' := by
      unfold accessPage
      cases t.table.lookup p with
      | none => exact ⟨_, rfl⟩
      | some e =>
        rw [hring]
        exact ⟨_, rfl⟩
    obtain ⟨t', hcall⟩ := hreturns
    have hring' : t'.localCacheRing = none := by
      rcases accessPage_cases hcall with ⟨_, rfl⟩ | ⟨_, t₁, _, rfl, ⟨_, rfl⟩ | ⟨_, _, hsome, _⟩⟩
      · exact hring
      · exact hring
      · rw [hring] at hsome
        cases hsome
    exact ⟨t', hcall, hring', .inl (sameLayers_accessPage hcall)⟩
  | migratePage evictNow now p target =>
    obtain ⟨exit, t', hcall, hring', hcases⟩ := migratePage_ringless hring evictNow now p target
    have happly : Call.apply t (.migratePage evictNow now p target) = .ok t' := by
      simp only [Call.apply, hcall, bind, Except.bind]
    refine ⟨t', happly, hring', ?_⟩
    rcases hcases with ⟨_, rfl⟩ | ⟨_, room, current, hmove⟩
    · exact .inl (.refl t')
    · exact .inr ⟨p, current, target, hmove, room⟩
  | scanNext => exact ⟨_, rfl, hring, .inl (sameLayers_scanNext t)⟩

/-- **The run lemma.** -/
theorem Accounted.run_ringless {server : ServerMemoryConfig} {t t' : PageTable}
    {es : List (PageTable × Call)} (h : Accounted server t) (hring : t.localCacheRing = none)
    (run : Trace Step t es t') : t'.localCacheRing = none ∧ Accounted server t' := by
  apply run.invariant (P := fun t => t.localCacheRing = none ∧ Accounted server t)
  · rintro t e t' ⟨hring, h⟩ hstep
    obtain ⟨t₁, hcall, hring₁, hshift⟩ := apply_ringless hring e.2
    rw [hstep.call] at hcall
    cases hcall
    exact ⟨hring₁, h.shift hshift⟩
  · exact ⟨hring, h⟩

/-- **Tier accounting without a ring**, over every run: each counter is the number of its tier's
pages and within its capacity, the counters add up to the table, every call returns, and a
migration that moves a page decrements a counter that is not zero. -/
theorem ringless_accounting {clients : List ClientConfig} {server : ServerMemoryConfig}
    {alloc : Allocation} {t₀ t : PageTable} {es : List (PageTable × Call)}
    (tiers : server.numTiers = 2 ∨ server.numTiers = 3)
    (empty : ∀ layer, (server.layer layer).count = 0)
    (fits : ∀ layer, demand server.numTiers clients layer ≤ (server.layer layer).capacity.toNat)
    (start : (new clients server false).initPageTable alloc = .ok t₀)
    (run : Trace Step t₀ es t) :
    (∀ layer, (t.serverConfig.layer layer).count.toNat = t.population layer ∧
      (t.serverConfig.layer layer).count ≤ (server.layer layer).capacity) ∧
    t.serverConfig.localNuma.count.toNat + t.serverConfig.remoteNuma.count.toNat +
      t.serverConfig.pmem.count.toNat = t.table.size ∧
    (∀ c, ∃ t', Step t (t, c) t') ∧
    ∀ evictNow now p target t', t.migratePage evictNow now p target = .ok (.moved, t') →
      ∃ current, t.layer? p = some current ∧ (t.serverConfig.layer current).count ≠ 0 ∧
        t'.serverConfig = t.serverConfig.recount current target := by
  have hinit := initPageTable_spec tiers empty start
  obtain ⟨hring, h⟩ := (hinit.accounted fits).run_ringless hinit.ringed run
  refine ⟨?_, ?_, ?_, ?_⟩
  · intro layer
    have hbounded := h.bounded layer
    rw [h.capacity, ← UInt64.le_iff_toNat_le] at hbounded
    exact ⟨h.tallied layer, hbounded⟩
  · rw [← population_sum]
    exact congrArg₂ _ (congrArg₂ _ (h.tallied .numaLocal) (h.tallied .numaRemote)) (h.tallied .pmem)
  · intro c
    obtain ⟨t', hcall, _⟩ := apply_ringless hring c
    exact ⟨t', rfl, hcall⟩
  · intro evictNow now p target t' hcall
    obtain ⟨exit, t₁, hcall', _, hcases⟩ := migratePage_ringless hring evictNow now p target
    rw [hcall] at hcall'
    cases hcall'
    rcases hcases with ⟨hne, _⟩ | ⟨_, _, current, hmove⟩
    · exact (hne rfl).elim
    · have hne : (t.serverConfig.layer current).count ≠ 0 := by
        intro hzero
        have hpos := population_pos hmove.before
        rw [← h.tallied, hzero] at hpos
        exact Nat.lt_irrefl _ hpos
      exact ⟨current, hmove.before, hne, hmove.counters⟩

/-- A run with a refusal, a move and a page that is not there. -/
theorem small_accounting : ∃ t₀ t₁ t₂ t : PageTable,
    (new (smallConfig 1 1 (by decide)).clients (smallConfig 1 1 (by decide)).server
      false).initPageTable plainAllocation = .ok t₀ ∧
    Trace Step t₀ [(t₀, .migratePage 0 0 0 .numaRemote), (t₁, .migratePage 0 0 1 .pmem),
      (t₂, .migratePage 0 0 7 .pmem)] t ∧
    t.serverConfig.localNuma.count.toNat + t.serverConfig.remoteNuma.count.toNat +
      t.serverConfig.pmem.count.toNat = t.table.size ∧
    t.layer? 1 = some .pmem := by
  have hrun : ∃ t₀ t₁ t₂ t : PageTable, (new (smallConfig 1 1 (by decide)).clients
        (smallConfig 1 1 (by decide)).server false).initPageTable plainAllocation = .ok t₀ ∧
      Trace Step t₀ [(t₀, .migratePage 0 0 0 .numaRemote), (t₁, .migratePage 0 0 1 .pmem),
        (t₂, .migratePage 0 0 7 .pmem)] t ∧ t.layer? 1 = some .pmem :=
    ⟨_, _, _, _, rfl, .cons ⟨rfl, rfl⟩ (.cons ⟨rfl, rfl⟩ (.cons ⟨rfl, rfl⟩ (.nil _))), rfl⟩
  obtain ⟨t₀, t₁, t₂, t, start, run, hlayer⟩ := hrun
  have haccounts := ringless_accounting (.inr rfl) (by intro layer; cases layer <;> rfl)
    (by intro layer; cases layer <;> decide) start run
  exact ⟨t₀, t₁, t₂, t, start, run, haccounts.2.1, hlayer⟩

end PageTable

end MemoryTiering
