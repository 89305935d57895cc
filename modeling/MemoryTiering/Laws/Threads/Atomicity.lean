import MemoryTiering.Laws.PageTable.Accounting
import MemoryTiering.Threads

/-!
# Whole calls

Without a ring, the manager and the scanner may cut into each other anywhere: what they do to the
layers, the counters and the metrics is what whole calls of `accessPage`, `migratePage` and
`scanNext` do, with the arguments the threads pass and in the order in which they take effect
(`interleavings_are_calls`). Between two effects a thread owes some stores, or is ahead with one,
and `Refines` says which. Stamps and access counts are not in the relation: these the threads do
overwrite. So this says nothing of what the scanner decides: it may read a count that no whole call
ever left behind.
-/

set_option autoImplicit false

namespace MemoryTiering

open Fallible Pointer Transition

/-! ## What a thread owes -/

/-- The page an access under way is about, which was found in the table. -/
def ManagerThread.pageId? : ManagerThread → Option PageId
  | .measured v | .tested v | .loaded v _ | .marked v | .stamped v | .counted v | .recorded v =>
    some v.pageId
  | .idle | .switched _ => none

/-- What the manager has recorded of an access that has not taken effect. -/
def ManagerThread.ahead : ManagerThread → Metrics → Metrics
  | .recorded v, metrics => metrics.recordAccessLatency v.accessTime
  | _, metrics => metrics

/-- What the manager has still to record of an access that has. -/
def ManagerThread.owes : ManagerThread → Metrics → Metrics
  | .switched pageLayer, metrics => metrics.incrementAccess pageLayer
  | _, metrics => metrics

/-- The migration that has taken effect and is not over, and the layer it started from. -/
def ScannerThread.moved? : ScannerThread → Option (Migration × PageLayer)
  | .placed move current | .entered move current | .stamped move current
  | .cleared move current | .left move current | .arrived move current => some (move, current)
  | _ => none

/-- What the scanner has still to count of a migration that has taken effect. -/
def ScannerThread.owes (s : ScannerThread) (metrics : Metrics) : Metrics :=
  match s.moved? with
  | some (move, current) => metrics.incrementMigration current move.target
  | none => metrics

/-- What it has still to do to the counters of the tiers. -/
def ScannerThread.settles : ScannerThread → ServerMemoryConfig → ServerMemoryConfig
  | .placed move current, config | .entered move current, config
  | .stamped move current, config | .cleared move current, config =>
    (config.leave current).arrive move.target
  | .left move _, config => config.arrive move.target
  | _, config => config

section Commute

variable (metrics : Metrics) (accessTime : UInt64) (layer current target : PageLayer)

theorem Metrics.recordAccessLatency_incrementMigration :
    (metrics.recordAccessLatency accessTime).incrementMigration current target =
      (metrics.incrementMigration current target).recordAccessLatency accessTime := by
  cases current <;> cases target <;> rfl

theorem Metrics.incrementAccess_incrementMigration :
    (metrics.incrementAccess layer).incrementMigration current target =
      (metrics.incrementMigration current target).incrementAccess layer := by
  cases layer <;> cases current <;> cases target <;> rfl

end Commute

theorem ScannerThread.owes_recordAccessLatency (s : ScannerThread) (metrics : Metrics)
    (accessTime : UInt64) :
    s.owes (metrics.recordAccessLatency accessTime) =
      (s.owes metrics).recordAccessLatency accessTime := by
  unfold owes
  split
  · exact metrics.recordAccessLatency_incrementMigration ..
  · rfl

theorem ScannerThread.owes_incrementAccess (s : ScannerThread) (metrics : Metrics)
    (layer : PageLayer) :
    s.owes (metrics.incrementAccess layer) = (s.owes metrics).incrementAccess layer := by
  unfold owes
  split
  · exact metrics.incrementAccess_incrementMigration ..
  · rfl

theorem ManagerThread.owes_incrementMigration (m : ManagerThread) (metrics : Metrics)
    (current target : PageLayer) :
    m.owes (metrics.incrementMigration current target) =
      (m.owes metrics).incrementMigration current target := by
  cases m with
  | switched layer => exact (metrics.incrementAccess_incrementMigration ..).symm
  | _ => rfl

theorem ManagerThread.ahead_incrementMigration (m : ManagerThread) (metrics : Metrics)
    (current target : PageLayer) :
    m.ahead (metrics.incrementMigration current target) =
      (m.ahead metrics).incrementMigration current target := by
  cases m with
  | recorded v => exact (metrics.recordAccessLatency_incrementMigration ..).symm
  | _ => rfl

/-! ## The scanner's view -/

/-- The scanner calls `migratePage` because of this layer, for some verdict. -/
def Migration.Chosen (numTiers : Nat) (layer : PageLayer) (move : Migration) : Prop :=
  ∃ status hot, Scanner.targetLayer numTiers layer status hot = some move.target

/-- What the scanner remembers of layers and counters is what they are: nobody else stores them.
Without a ring no node is exchanged and no page evicted. -/
def ScannerThread.Sound (t : PageTable) : ScannerThread → Prop
  | .readLayer p layer | .readTime p layer _ => (t.getPageMetaData p).1 = layer
  | .called move => move.Chosen t.serverConfig.numTiers (t.getPageMetaData move.pageId).1
  | .taken move current =>
    t.layer? move.pageId = some current ∧ move.Chosen t.serverConfig.numTiers current
  | .admitted move current =>
    t.layer? move.pageId = some current ∧ move.Chosen t.serverConfig.numTiers current ∧
      (t.serverConfig.layer move.target).isFull = false
  | .idle | .advanced _ => True
  | .located _ | .exchanged .. | .sweeping .. | .referenced .. | .condemned .. | .evicted .. =>
    False
  | .placed move current | .entered move current | .stamped move current
  | .cleared move current | .left move current | .arrived move current =>
    t.layer? move.pageId = some move.target ∧ move.Chosen t.serverConfig.numTiers current

namespace PageTable

theorem getPageMetaData_layer (t : PageTable) (p : PageId) :
    (t.getPageMetaData p).1 = (t.layer? p).getD .numaLocal := by
  unfold getPageMetaData layer?
  cases t.meta? p <;> rfl

/-- A store takes no page out of the table. -/
theorem isSome_layer?_store (t : PageTable) (p q : PageId) (f : PageMetadata → PageMetadata) :
    ((t.store p f).layer? q).isSome = (t.layer? q).isSome := by
  simp only [layer?, meta?_store, Option.isSome_map]

/-- The same pages in the same layers. -/
structure SamePlaces (t t' : PageTable) : Prop where
  layer : ∀ q, t'.layer? q = t.layer? q
  population : ∀ layer, t'.population layer = t.population layer
  size : t'.table.size = t.table.size

theorem SameLayers.places {t t' : PageTable} (h : SameLayers t t') : SamePlaces t t' :=
  ⟨h.layer, h.population, h.size⟩

theorem SamePlaces.trans {t t' t'' : PageTable} (h : SamePlaces t t') (k : SamePlaces t' t'') :
    SamePlaces t t'' :=
  ⟨fun q => (k.layer q).trans (h.layer q), fun layer => (k.population layer).trans
    (h.population layer), k.size.trans h.size⟩

/-- A store of a layer, on two tables with the same pages in the same layers. -/
theorem SamePlaces.setLayer {t t' : PageTable} (h : SamePlaces t t') {p : PageId}
    {f g : PageMetadata → PageMetadata} {target : PageLayer}
    (hf : ∀ m, (f m).pageLayer = target) (hg : ∀ m, (g m).pageLayer = target) :
    SamePlaces (t.store p f) (t'.store p g) := by
  have stored : ∀ (t : PageTable) {f : PageMetadata → PageMetadata},
      (∀ m, (f m).pageLayer = target) → ∀ q, (t.store p f).layer? q =
        if q = p then (t.layer? q).map fun _ => target else t.layer? q := by
    intro t f hf q
    unfold layer?
    rw [meta?_store, Option.map_map]
    by_cases hq : q = p
    · rw [if_pos hq, Option.map_map]
      congr 1
      funext m
      simp only [Function.comp_apply, if_pos hq, hf]
    · rw [if_neg hq]
      congr 1
      funext m
      simp only [Function.comp_apply, if_neg hq]
  constructor
  case layer =>
    intro q
    rw [stored t hf, stored t' hg, h.layer]
  case population =>
    intro layer
    cases hm : t.meta? p with
    | none =>
      have hm' : t'.meta? p = none := by
        have hlayer := h.layer p
        rw [layer?, layer?, hm, Option.map_none, Option.map_eq_none_iff] at hlayer
        exact hlayer
      have h₁ := census_store_eq t p f (·.pageLayer = layer) (by simp [hm])
      have h₂ := census_store_eq t' p g (·.pageLayer = layer) (by simp [hm'])
      exact h₂.trans ((h.population layer).trans h₁.symm)
    | some m =>
      obtain ⟨m', hm', hlayer⟩ := Option.map_eq_some_iff.mp
        ((h.layer p).trans (layer?_eq hm))
      have h₁ := population_store hm f layer
      have h₂ := population_store hm' g layer
      rw [hf] at h₁
      rw [hg, hlayer, h.population] at h₂
      omega
  case size => exact (Table.size_update ..).trans (h.size.trans (Table.size_update ..).symm)

end PageTable

open PageTable

theorem ScannerThread.Sound.congr {s : ScannerThread} {t t' : PageTable} (h : s.Sound t)
    (places : ∀ q, t'.layer? q = t.layer? q) (config : t'.serverConfig = t.serverConfig) :
    s.Sound t' := by
  have hdata : ∀ q, (t'.getPageMetaData q).1 = (t.getPageMetaData q).1 := by
    intro q
    rw [getPageMetaData_layer, getPageMetaData_layer, places]
  cases s with
  | idle | advanced => trivial
  | located | exchanged | sweeping | referenced | condemned | evicted => exact h
  | _ => simpa only [Sound, places, config, hdata] using h

namespace Threads

/-! ## The relation -/

/-- The threads' table and the one that whole calls have made. -/
structure Refines (s : Threads) (t : PageTable) : Prop where
  outermost : s.callers = []
  ringless : s.pageTable.localCacheRing = none
  whole : t.localCacheRing = none
  places : SamePlaces t s.pageTable
  config : s.scanner.settles s.pageTable.serverConfig = t.serverConfig
  metrics : s.manager.owes (s.scanner.owes s.pageTable.metrics) = s.manager.ahead t.metrics
  index : s.pageTable.scanIndex = t.scanIndex
  found : ∀ p ∈ s.manager.pageId?, (s.pageTable.layer? p).isSome
  sound : s.scanner.Sound s.pageTable

/-- Both tables before the first step. -/
theorem Refines.start {t : PageTable} (h : t.localCacheRing = none) :
    Refines { pageTable := t } t :=
  ⟨rfl, h, h, ⟨fun _ => rfl, fun _ => rfl, rfl⟩, rfl, rfl, rfl, nofun, trivial⟩

section Refines

variable {s : Threads} {t : PageTable}

/-- A step of the manager that only moves it on. -/
theorem Refines.manager (h : Refines s t) {manager : ManagerThread}
    (hahead : manager.ahead = s.manager.ahead) (howes : manager.owes = s.manager.owes)
    (hfound : ∀ p ∈ manager.pageId?, (s.pageTable.layer? p).isSome) :
    Refines { s with manager } t :=
  ⟨h.outermost, h.ringless, h.whole, h.places, h.config,
    by rw [hahead, howes]; exact h.metrics, h.index, hfound, h.sound⟩

/-- A store that keeps the layer of its page. -/
theorem Refines.store (h : Refines s t) (p : PageId) {f : PageMetadata → PageMetadata}
    (hf : ∀ m, (f m).pageLayer = m.pageLayer) :
    Refines { s with pageTable := s.pageTable.store p f } t := by
  have hsame := sameLayers_store s.pageTable p hf
  refine ⟨h.outermost, h.ringless, h.whole, h.places.trans hsame.places, h.config, h.metrics,
    h.index, ?_, h.sound.congr hsame.layer rfl⟩
  intro q hq
  rw [hsame.layer]
  exact h.found q hq

/-- A step of the scanner that only moves it on. -/
theorem Refines.scanner (h : Refines s t) {scanner : ScannerThread}
    (howes : scanner.owes = s.scanner.owes) (hsettles : scanner.settles = s.scanner.settles)
    (hsound : scanner.Sound s.pageTable) : Refines { s with scanner } t :=
  ⟨h.outermost, h.ringless, h.whole, h.places, by rw [hsettles]; exact h.config,
    by rw [howes]; exact h.metrics, h.index, h.found, hsound⟩

/-! ## The manager -/

/-- What an effect does to a table at once. -/
def Effects (t : PageTable) (effect : Option Call) (t' : PageTable) : Prop :=
  match effect with
  | none => t' = t
  | some c => c.apply t = .ok t'

/-- An access at once, without a ring. -/
theorem visit_apply (hring : t.localCacheRing = none) (v : Visit) {layer : PageLayer}
    (hlayer : t.layer? v.pageId = some layer) :
    v.call.apply t = .ok { t.store v.pageId (.accessed v.now) with
      metrics := (t.metrics.recordAccessLatency v.accessTime).incrementAccess layer } := by
  obtain ⟨m, hm, rfl⟩ := Option.map_eq_some_iff.mp hlayer
  obtain ⟨e, he, rfl⟩ := Option.map_eq_some_iff.mp hm
  rw [Visit.call, Call.apply, accessPage, he]
  simp only [hring, ok_bind, metrics_store]

/-- **The manager's step lemma.** -/
theorem Refines.access {effect : Option Call} {s' : Threads} (h : Refines s t)
    (step : s.access = .ok (effect, s')) : ∃ t', Effects t effect t' ∧ Refines s' t' := by
  obtain ⟨table, manager, scanner, callers⟩ := s
  have hring : table.localCacheRing = none := h.ringless
  have hmetrics := h.metrics
  unfold Threads.access at step
  cases manager with
  | idle =>
    cases step
    exact ⟨t, rfl, h⟩
  | measured | loaded =>
    simp only [hring] at step
    cases step
    exact ⟨t, rfl, h.manager rfl rfl h.found⟩
  | tested =>
    cases step
    exact ⟨t, rfl, h.manager rfl rfl h.found⟩
  | marked v =>
    cases step
    have hstore := h.store v.pageId (f := .stamp v.now) fun _ => rfl
    exact ⟨t, rfl, hstore.manager rfl rfl hstore.found⟩
  | stamped v =>
    cases step
    have hstore := h.store v.pageId (f := .count) fun _ => rfl
    exact ⟨t, rfl, hstore.manager rfl rfl hstore.found⟩
  | counted v =>
    cases step
    refine ⟨t, rfl, h.outermost, h.ringless, h.whole,
      ⟨h.places.layer, h.places.population, h.places.size⟩, h.config, ?_, h.index, h.found,
      h.sound.congr (fun _ => rfl) rfl⟩
    show scanner.owes (table.metrics.recordAccessLatency v.accessTime) =
      t.metrics.recordAccessLatency v.accessTime
    rw [ScannerThread.owes_recordAccessLatency]
    exact congrArg (·.recordAccessLatency v.accessTime) hmetrics
  | recorded v =>
    obtain ⟨layer, hlayer⟩ := Option.isSome_iff_exists.mp (h.found v.pageId rfl)
    have hlayer' : table.layer? v.pageId = some layer := hlayer
    simp only [hlayer'] at step
    cases step
    have hsame := sameLayers_store t v.pageId (f := .accessed v.now) fun _ => rfl
    refine ⟨_, visit_apply h.whole v ((h.places.layer _).symm.trans hlayer), ?_⟩
    refine ⟨h.outermost, h.ringless, h.whole, ?_, h.config, ?_, h.index, nofun, h.sound⟩
    · constructor
      · exact fun q => (h.places.layer q).trans (hsame.layer q).symm
      · exact fun layer => (h.places.population layer).trans (hsame.population layer).symm
      · exact h.places.size.trans hsame.size.symm
    · exact congrArg (·.incrementAccess layer) hmetrics
  | switched layer =>
    cases step
    refine ⟨t, rfl, h.outermost, h.ringless, h.whole,
      ⟨h.places.layer, h.places.population, h.places.size⟩, h.config, ?_, h.index, nofun,
      h.sound.congr (fun _ => rfl) rfl⟩
    exact (scanner.owes_incrementAccess table.metrics layer).trans hmetrics

/-! ## The scanner -/

theorem migratePage_missing {p : PageId} (hlayer : t.layer? p = none) (evictNow now : Nat)
    (target : PageLayer) : t.migratePage evictNow now p target = .ok (.notFound, t) := by
  rw [migratePage_eq_body, migrateBody_notFound (Option.map_eq_none_iff.mp hlayer)]

theorem migratePage_full (hring : t.localCacheRing = none) {p : PageId} {layer target : PageLayer}
    (hlayer : t.layer? p = some layer) (full : (t.serverConfig.layer target).isFull = true)
    (evictNow now : Nat) : t.migratePage evictNow now p target = .ok (.targetFull, t) := by
  obtain ⟨m, hm, rfl⟩ := Option.map_eq_some_iff.mp hlayer
  rw [migratePage_eq_body, migrateBody_found hm, takeFromRing_skip _ _ _ (.inl hring), ok_bind,
    checkCapacity_plain _ _ (.inl hring), full]
  rfl

theorem migratePage_room (hring : t.localCacheRing = none) {p : PageId} {layer target : PageLayer}
    (hlayer : t.layer? p = some layer) (room : (t.serverConfig.layer target).isFull = false)
    (evictNow now : Nat) :
    t.migratePage evictNow now p target = .ok (.moved,
      { t.store p (PageMetadata.moved target now) with
        serverConfig := t.serverConfig.recount layer target
        metrics := t.metrics.incrementMigration layer target }) := by
  obtain ⟨m, hm, rfl⟩ := Option.map_eq_some_iff.mp hlayer
  rw [migratePage_eq_body, migrateBody_found hm, takeFromRing_skip _ _ _ (.inl hring), ok_bind,
    checkCapacity_plain _ _ (.inl hring), room]
  simp only [Bool.false_eq_true, if_false, ok_bind,
    finishMove_skip now t p m.pageLayer (.inl hring)]

/-- Only what a migration leaves is looked at. -/
theorem migration_apply {move : Migration} {exit : Exit} {t' : PageTable}
    (call : t.migratePage move.evictNow move.now move.pageId move.target = .ok (exit, t')) :
    move.call.apply t = .ok t' := by
  rw [Migration.call, Call.apply, call, ok_bind]

section Scan

variable {table : PageTable} {manager : ManagerThread} {move : Migration} {current : PageLayer}

/-- **A refused migration takes effect** at the check of the capacity, and does nothing. -/
theorem Refines.refused (h : Refines ⟨table, manager, .taken move current, []⟩ t)
    (full : (table.serverConfig.layer move.target).isFull = true) :
    move.call.apply t = .ok t ∧ Refines ⟨table, manager, .idle, []⟩ t := by
  have hlayer : t.layer? move.pageId = some current := (h.places.layer _).symm.trans h.sound.1
  have hfull : (t.serverConfig.layer move.target).isFull = true := by
    rw [← full]
    exact congrArg (fun config => (config.layer move.target).isFull) h.config.symm
  exact ⟨migration_apply (migratePage_full h.whole hlayer hfull ..), h.scanner rfl rfl trivial⟩

/-- **A migration takes effect** at the store of the layer. -/
theorem Refines.moves (h : Refines ⟨table, manager, .admitted move current, []⟩ t) :
    ∃ t', move.call.apply t = .ok t' ∧
      Refines ⟨table.store move.pageId (.setLayer move.target), manager, .placed move current, []⟩
        t' := by
  obtain ⟨hlayer, hchosen, room⟩ := h.sound
  have hlayer' : t.layer? move.pageId = some current := (h.places.layer _).symm.trans hlayer
  have hroom : (t.serverConfig.layer move.target).isFull = false := by
    rw [← room]
    exact congrArg (fun config => (config.layer move.target).isFull) h.config.symm
  have hstored : (table.store move.pageId (.setLayer move.target)).layer? move.pageId =
      some move.target := by
    obtain ⟨m, hm, _⟩ := Option.map_eq_some_iff.mp hlayer
    rw [layer?, meta?_store_self _ _ _ hm]
    rfl
  refine ⟨_, migration_apply (migratePage_room h.whole hlayer' hroom move.evictNow move.now), rfl,
    h.ringless, h.whole, ?places, ?config, ?metrics, h.index, ?found, hstored, hchosen⟩
  case places =>
    have hstore := h.places.setLayer (p := move.pageId) (f := .moved move.target move.now)
      (g := .setLayer move.target) (fun _ => rfl) fun _ => rfl
    exact ⟨hstore.layer, hstore.population, hstore.size⟩
  case config => exact congrArg (·.recount current move.target) h.config
  case metrics =>
    have hmetrics := congrArg (·.incrementMigration current move.target) h.metrics
    dsimp only at hmetrics
    rw [← ManagerThread.owes_incrementMigration, ← ManagerThread.ahead_incrementMigration]
      at hmetrics
    exact hmetrics
  case found =>
    intro p hp
    rw [PageTable.isSome_layer?_store]
    exact h.found p hp

end Scan

/-- **The scanner's step lemma.** -/
theorem Refines.scan {classification : Scanner.Classification} {evictNow now : Nat}
    {effect : Option Call} {s' : Threads} (h : Refines s t)
    (step : s.scan classification evictNow now = .ok (effect, s')) :
    ∃ t', Effects t effect t' ∧ Refines s' t' := by
  obtain ⟨table, manager, scanner, callers⟩ := s
  obtain rfl : callers = [] := h.outermost
  have hring : table.localCacheRing = none := h.ringless
  have hsound := h.sound
  have hindex := h.index
  unfold Threads.scan at step
  cases scanner with
  | idle =>
    cases step
    refine ⟨t.scanNext.2, rfl, rfl, h.ringless, h.whole,
      ⟨h.places.layer, h.places.population, h.places.size⟩, h.config, h.metrics, ?_, h.found,
      trivial⟩
    show table.scanNext.2.scanIndex = t.scanNext.2.scanIndex
    unfold PageTable.scanNext PageTable.size
    dsimp only at hindex ⊢
    rw [hindex, h.places.size]
  | advanced p =>
    cases step
    exact ⟨t, rfl, h.scanner rfl rfl rfl⟩
  | readLayer p layer =>
    cases step
    exact ⟨t, rfl, h.scanner rfl rfl hsound⟩
  | readTime p layer time =>
    dsimp only at step
    split at step
    next hrest =>
      cases step
      exact ⟨t, rfl, h.scanner rfl rfl trivial⟩
    next target hchosen =>
      cases step
      have hlayer : (table.getPageMetaData p).1 = layer := hsound
      rw [← hlayer] at hchosen
      exact ⟨t, rfl, h.scanner rfl rfl ⟨_, _, hchosen⟩⟩
  | called move =>
    cases hlayer : table.layer? move.pageId with
    | none =>
      simp only [hring, hlayer] at step
      cases step
      have hnone : t.layer? move.pageId = none := (h.places.layer _).symm.trans hlayer
      exact ⟨t, migration_apply (migratePage_missing hnone ..), h.scanner rfl rfl trivial⟩
    | some current =>
      simp only [hring, hlayer] at step
      cases step
      have hchosen : move.Chosen table.serverConfig.numTiers
          (table.getPageMetaData move.pageId).1 := hsound
      rw [getPageMetaData_layer, hlayer] at hchosen
      exact ⟨t, rfl, h.scanner rfl rfl ⟨hlayer, hchosen⟩⟩
  | located | exchanged | sweeping | referenced | condemned | evicted => exact hsound.elim
  | taken move current =>
    dsimp only at step
    split at step
    next hfull =>
      simp only [hring] at step
      cases step
      exact ⟨t, h.refused hfull⟩
    next hroom =>
      cases step
      exact ⟨t, rfl, h.scanner rfl rfl ⟨hsound.1, hsound.2, Bool.eq_false_iff.mpr hroom⟩⟩
  | admitted move current =>
    cases step
    exact h.moves
  | placed move current =>
    dsimp only at step
    rw [enterRing_skip _ _ _ (.inl hring), ok_bind] at step
    cases step
    exact ⟨t, rfl, h.scanner rfl rfl hsound⟩
  | entered move current =>
    cases step
    have hstore := h.store move.pageId (f := .stamp move.now) fun _ => rfl
    exact ⟨t, rfl, hstore.scanner rfl rfl hstore.sound⟩
  | stamped move current =>
    cases step
    have hstore := h.store move.pageId (f := .clearCount) fun _ => rfl
    exact ⟨t, rfl, hstore.scanner rfl rfl hstore.sound⟩
  | cleared | left =>
    cases step
    exact ⟨t, rfl, rfl, h.ringless, h.whole,
      ⟨h.places.layer, h.places.population, h.places.size⟩, h.config, h.metrics, hindex, h.found,
      hsound.1, (ServerMemoryConfig.numTiers_modify ..).symm ▸ hsound.2⟩
  | arrived move current =>
    cases step
    exact ⟨t, rfl, rfl, h.ringless, h.whole,
      ⟨h.places.layer, h.places.population, h.places.size⟩, h.config, h.metrics, hindex, h.found,
      trivial⟩

/-! ## Runs -/

/-- **The step lemma**: a step changes nothing of what the relation sees, or does what the call does
that takes effect with it. -/
theorem Refines.step {effect : Option Call} {s' : Threads} (h : Refines s t)
    (hstep : Step s effect s') : ∃ t', Effects t effect t' ∧ Refines s' t' := by
  cases hstep with
  | begin visit idle found =>
    have hidle := h.metrics
    refine ⟨t, rfl, h.manager ?_ ?_ ?_⟩
    · rw [idle]
      rfl
    · rw [idle]
      rfl
    · rintro p ⟨⟩
      obtain ⟨e, he⟩ := Option.isSome_iff_exists.mp (AList.lookup_isSome.mpr found)
      rw [layer?, meta?, he]
      rfl
  | notFound visit idle missing =>
    refine ⟨t, ?_, h⟩
    have hlayer : t.layer? visit.pageId = none := by
      rw [← h.places.layer, layer?, meta?, AList.lookup_eq_none.mpr missing]
      rfl
    have hlookup : t.table.lookup visit.pageId = none := by
      simpa only [layer?, meta?, Option.map_eq_none_iff] using hlayer
    show visit.call.apply t = .ok t
    rw [Visit.call, Call.apply, accessPage, hlookup]
  | access step => exact h.access step
  | scan _ step => exact h.scan step

/-- **The run lemma.** -/
theorem Refines.run {s' : Threads} {effects : List (Option Call)} (h : Refines s t)
    (run : Trace Step s effects s') :
    ∃ t' es, Trace PageTable.Step t es t' ∧ es.map (·.2) = effects.filterMap id ∧
      Refines s' t' := by
  have follows : ∀ s effect s' t, Refines s t → Step s effect s' →
      ∃ es t', Trace PageTable.Step t es t' ∧
        es.filterMap (some ∘ Prod.snd) = (id effect).toList ∧ Refines s' t' := by
    intro s effect s' t h hstep
    obtain ⟨t', heffect, h'⟩ := h.step hstep
    cases effect with
    | none =>
      obtain rfl : t' = t := heffect
      exact ⟨[], t', .nil t', rfl, h'⟩
    | some c => exact ⟨[(t, c)], t', Trace.single.mpr ⟨rfl, heffect⟩, rfl, h'⟩
  obtain ⟨es, t', hes, hshown, h'⟩ := run.simulate_shown follows h
  rw [List.filterMap_eq_map] at hshown
  exact ⟨t', es, hes, hshown, h'⟩

/-- Nothing is owed while both threads are idle. -/
theorem Refines.idle (h : Refines s t) (hmanager : s.manager = .idle)
    (hscanner : s.scanner = .idle) :
    s.pageTable.serverConfig = t.serverConfig ∧ s.pageTable.metrics = t.metrics := by
  have hconfig := h.config
  have hmetrics := h.metrics
  rw [hscanner] at hconfig hmetrics
  rw [hmanager] at hmetrics
  exact ⟨hconfig, hmetrics⟩

end Refines

/-- **The calls are as good as indivisible**, without a ring: however the threads cut into each
other, the whole calls they make, with their own arguments and in the order in which they take
effect, lead to the same layers and the same index at every moment, and to the same counters and
metrics whenever both threads are idle. -/
theorem interleavings_are_calls {t₀ : PageTable} {s : Threads} {effects : List (Option Call)}
    (ringless : t₀.localCacheRing = none) (run : Trace Step { pageTable := t₀ } effects s) :
    ∃ t es, Trace PageTable.Step t₀ es t ∧ es.map (·.2) = effects.filterMap id ∧
      (∀ q, s.pageTable.layer? q = t.layer? q) ∧ s.pageTable.scanIndex = t.scanIndex ∧
      (s.manager = .idle → s.scanner = .idle →
        s.pageTable.serverConfig = t.serverConfig ∧ s.pageTable.metrics = t.metrics) := by
  obtain ⟨t, es, hes, hmap, h⟩ := (Refines.start ringless).run run
  exact ⟨t, es, hes, hmap, h.places.layer, h.index, h.idle⟩

/-- An access that is under way when its page is demoted counts where the page went. -/
theorem access_across_demotion : ∃ (t₀ t : PageTable) (s : Threads) (effects : List (Option Call))
    (es : List (PageTable × Call)),
    loneConfig.start false plainAllocation = .ok t₀ ∧
    Trace Step { pageTable := t₀ } effects s ∧ Trace PageTable.Step t₀ es t ∧
    es.length = 3 ∧ s.pageTable.metrics = t.metrics ∧
    s.pageTable.metrics.remoteAccessCount = 1 ∧ s.pageTable.metrics.localToRemoteCount = 1 := by
  have hrun : ∃ (t₀ : PageTable) (s : Threads) (effects : List (Option Call)),
      loneConfig.start false plainAllocation = .ok t₀ ∧
      t₀.localCacheRing = none ∧ 0 ∈ t₀.table ∧
      play (turnsOf (List.replicate 4 none ++ List.replicate 7 (some Scanner.alwaysCold) ++
        List.replicate 2 none ++ List.replicate 6 (some Scanner.alwaysCold)))
        { pageTable := t₀, manager := .measured ⟨0, .read, 5, 0⟩ } = .ok (effects, s) ∧
      (effects.filterMap id).length = 3 ∧ s.manager = .idle ∧ s.scanner = .idle ∧
      s.pageTable.metrics.remoteAccessCount = 1 ∧ s.pageTable.metrics.localToRemoteCount = 1 :=
    ⟨_, _, _, rfl, rfl, by decide, rfl, rfl, rfl, rfl, rfl, rfl⟩
  obtain ⟨t₀, s, effects, start, ringless, found, hplay, hlength, hmanager, hscanner, haccess,
    hmove⟩ := hrun
  have run := trace_of_visit found hplay
  obtain ⟨t, es, hes, hmap, _, _, hidle⟩ := interleavings_are_calls ringless run
  obtain ⟨_, hmetrics⟩ := hidle hmanager hscanner
  have hcalls : es.length = 3 := by
    rw [← List.length_map (f := Prod.snd), hmap]
    exact hlength
  exact ⟨t₀, t, s, _, es, start, run, hes, hcalls, hmetrics, haccess, hmove⟩

end Threads

end MemoryTiering
