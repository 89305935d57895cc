import MemoryTiering.Laws.PageTable.Transparency
import MemoryTiering.Laws.Threads.Atomicity
import MemoryTiering.Laws.Threads.Window

/-!
# The ring decides nothing, between loads and stores either

What the two threads do with the cache ring, as long as neither follows a freed node, two threads
without it can do: they skip what only the ring is for, an eviction and the nested call with it
among that, and the same calls take effect in the same order (`interleavings_without_ring`). At
every moment both servers have the same pages in the same tiers with the same timestamps and access
counts, the same counters and the same metrics. An eviction changes none of these, since its nested
call never gets to store a layer.
-/

set_option autoImplicit false

namespace MemoryTiering

open Fallible Pointer Transition PageTable

namespace PageTable

/-! ## Stores into alike tables -/

section Alike

variable {t t' u : PageTable} {p : PageId}

theorem Alike.layer (h : Alike t u) (q : PageId) : u.layer? q = t.layer? q := by
  rw [layer?_eq_record, layer?_eq_record, h.record]

theorem Alike.data (h : Alike t u) (q : PageId) : u.getPageMetaData q = t.getPageMetaData q := by
  rw [getPageMetaData_eq_record, getPageMetaData_eq_record, h.record]

theorem Alike.found_iff (h : Alike t u) : p ∈ u.table ↔ p ∈ t.table := by
  rw [← AList.lookup_isSome, ← AList.lookup_isSome]
  have hrecord := congrArg Option.isSome (h.record p)
  simpa only [record?, meta?, Option.isSome_map] using Bool.eq_iff_iff.mp hrecord

/-- The same store to both, which leaves the node alone. -/
theorem Alike.store (h : Alike t u) (p : PageId) {f : PageMetadata → PageMetadata}
    (hf : ∀ m, (f m).setRingNode none = f (m.setRingNode none)) :
    Alike (t.store p f) (u.store p f) := by
  refine h.step (samePages_store t p f) (samePages_store u p f) (sameRegions_store t p f)
    (sameRegions_store u p f) (fun q => ?_) h.counters h.metrics
  rw [record?_store t p hf, record?_store u p hf, h.record]

/-- A write about the ring, to one of them. -/
theorem Alike.ring_written (h : Alike t u) (record : ∀ q, t'.record? q = t.record? q)
    (pages : SamePages t t') (regions : SameRegions t t')
    (counters : t'.serverConfig = t.serverConfig) (metrics : t'.metrics = t.metrics) :
    Alike t' u := by
  refine h.step pages (framed_samePages.refl u) regions (framed_sameRegions.refl u)
    (fun q => ?_) ?_ ?_
  · rw [h.record, record]
  · rw [h.counters, counters]
  · rw [h.metrics, metrics]

/-- The same record in the metrics of both. -/
theorem Alike.recorded (h : Alike t u) {metrics metrics' : Metrics} (same : metrics' = metrics) :
    Alike { t with metrics } { u with metrics := metrics' } :=
  ⟨h.record, ⟨h.regions.address, h.regions.localPageLoad, h.regions.remotePageLoad,
    h.regions.pmemPageLoad, h.regions.numTiers⟩, h.size, h.scanIndex, h.counters, same⟩

/-- The same change of the counters of both. -/
theorem Alike.counted (h : Alike t u) (f : ServerMemoryConfig → ServerMemoryConfig) :
    Alike { t with serverConfig := f t.serverConfig } { u with serverConfig := f u.serverConfig } :=
  ⟨h.record, ⟨h.regions.address, h.regions.localPageLoad, h.regions.remotePageLoad,
    h.regions.pmemPageLoad, by rw [h.counters]⟩, h.size, h.scanIndex, congrArg f h.counters,
    h.metrics⟩

theorem Alike.withRing (h : Alike t u) (ring : ClockRing) : Alike (t.withRing ring) u :=
  h.ring_written (fun _ => rfl) (framed_samePages.withRing t ring)
    (framed_sameRegions.withRing t ring) rfl rfl

theorem Alike.exchanged (h : Alike t u) (p : PageId) (node : Option Addr) :
    Alike (t.store p (.setRingNode node)) u :=
  h.ring_written (record?_store_setRingNode t p node) (samePages_store t p _)
    (sameRegions_store t p _) rfl rfl

theorem Alike.entered (h : Alike t u) {assertion : Assertion} {layer : PageLayer}
    (call : t.enterRing assertion p layer = .ok t') : Alike t' u :=
  h.ring_written (record?_enterRing call) (framed_samePages.enterRing call)
    (framed_sameRegions.enterRing call) (sameLayers_enterRing call).serverConfig
    (metrics_enterRing call)

end Alike

end PageTable

/-! ## The threads -/

/-- Where the manager stands without a ring: an access that looks for its page's node has not
moved on. -/
def ManagerThread.unringed : ManagerThread → ManagerThread
  | .tested v | .loaded v _ => .measured v
  | manager => manager

/-- Where the scanner stands without a ring: a migration whose page leaves the ring has not read the
layer again, and one that evicts, itself or by a nested call, is at the check of the capacity. -/
def ScannerThread.unringed (callers : List (Migration × PageLayer)) (scanner : ScannerThread) :
    ScannerThread :=
  match callers, scanner with
  | (move, current) :: _, _ => .taken move current
  | [], .located move | [], .exchanged move _ => .called move
  | [], .sweeping move current | [], .referenced move current | [], .condemned move current
  | [], .evicted move current _ => .taken move current
  | [], scanner => scanner

namespace Threads

/-- A server with the ring, and one without that follows it. -/
structure Mirrors (s r : Threads) : Prop where
  alike : Alike s.pageTable r.pageTable
  plain : r.pageTable.localCacheRing = none
  outermost : r.callers = []
  manager : r.manager = s.manager.unringed
  scanner : r.scanner = s.scanner.unringed s.callers

/-- The server without the ring follows a step, with as much effect. -/
def Followed (verdicts : Scanner.Classification → Prop) (r : Threads) (effect : Option Call)
    (s' : Threads) : Prop :=
  ∃ effects r', Trace (StepWith verdicts) r effects r' ∧
    effects.filterMap id = effect.toList ∧ Mirrors s' r'

section Mirrors

variable {s s' r r' : Threads} {ring : ClockRing} {l : List Addr} {effect : Option Call}
  {verdicts : Scanner.Classification → Prop}

/-- It stays where it is. -/
theorem Followed.stays (h : Mirrors s' r) : Followed verdicts r none s' :=
  ⟨[], r, .nil r, rfl, h⟩

/-- It makes a step of its own. -/
theorem Followed.goes (step : StepWith verdicts r effect r') (h : Mirrors s' r') :
    Followed verdicts r effect s' := by
  refine ⟨[effect], r', Trace.single.mpr step, ?_, h⟩
  cases effect <;> rfl

theorem Followed.scans {classification : Scanner.Classification} (evictNow now : Nat)
    (allowed : verdicts classification) (r' : Threads) (h : Mirrors s' r')
    (call : r.scan classification evictNow now = .ok (effect, r')) :
    Followed verdicts r effect s' :=
  .goes (.scan allowed call) h

/-- **The manager's step lemma.** -/
theorem Mirrors.access (h : Mirrors s r) (step : s.access = .ok (effect, s')) :
    Followed verdicts r effect s' := by
  obtain ⟨table, manager, scanner, callers⟩ := s
  obtain ⟨plain, _, _, _⟩ := r
  obtain ⟨alike, hplain, rfl, rfl, rfl⟩ := h
  dsimp only at alike hplain ⊢
  unfold Threads.access at step
  cases manager with
  | idle =>
    cases step
    exact .stays ⟨alike, hplain, rfl, rfl, rfl⟩
  | measured v =>
    have hskip : StepWith verdicts ⟨plain, .measured v, scanner.unringed callers, []⟩ none
        ⟨plain, .marked v, scanner.unringed callers, []⟩ := by
      apply StepWith.access
      simp only [Threads.access, hplain]
    dsimp only at step
    split at step
    next =>
      cases step
      exact .stays ⟨alike, hplain, rfl, rfl, rfl⟩
    next =>
      cases step
      exact .goes hskip ⟨alike, hplain, rfl, rfl, rfl⟩
  | tested v =>
    cases step
    exact .stays ⟨alike, hplain, rfl, rfl, rfl⟩
  | loaded v node =>
    have hskip : StepWith verdicts ⟨plain, .measured v, scanner.unringed callers, []⟩ none
        ⟨plain, .marked v, scanner.unringed callers, []⟩ := by
      apply StepWith.access
      simp only [Threads.access, hplain]
    dsimp only at step
    split at step
    next =>
      cases step
      exact .goes hskip ⟨alike, hplain, rfl, rfl, rfl⟩
    next ring _ =>
      obtain ⟨ring', _, step⟩ := bind_eq_ok.mp step
      cases step
      exact .goes hskip ⟨alike.withRing ring', hplain, rfl, rfl, rfl⟩
  | marked v =>
    cases step
    have hstore := alike.store v.pageId (f := .stamp v.now) fun _ => rfl
    exact .goes (.access rfl) ⟨hstore, hplain, rfl, rfl, rfl⟩
  | stamped v =>
    cases step
    have hstore := alike.store v.pageId (f := .count) fun _ => rfl
    exact .goes (.access rfl) ⟨hstore, hplain, rfl, rfl, rfl⟩
  | counted v =>
    cases step
    have hmetrics := congrArg (·.recordAccessLatency v.accessTime) alike.metrics
    exact .goes (.access rfl) ⟨alike.recorded hmetrics, hplain, rfl, rfl, rfl⟩
  | recorded v =>
    have hlayer := alike.layer v.pageId
    dsimp only at step
    split at step
    next hnone =>
      cases step
      have hreturn : StepWith verdicts ⟨plain, .recorded v, scanner.unringed callers, []⟩ none
          ⟨plain, .idle, scanner.unringed callers, []⟩ := by
        apply StepWith.access
        simp only [Threads.access, hlayer, hnone]
      exact .goes hreturn ⟨alike, hplain, rfl, rfl, rfl⟩
    next layer hsome =>
      cases step
      have hswitch : StepWith verdicts ⟨plain, .recorded v, scanner.unringed callers, []⟩
          (some v.call) ⟨plain, .switched layer, scanner.unringed callers, []⟩ := by
        apply StepWith.access
        simp only [Threads.access, hlayer, hsome]
      exact .goes hswitch ⟨alike, hplain, rfl, rfl, rfl⟩
  | switched layer =>
    cases step
    have hmetrics := congrArg (·.incrementAccess layer) alike.metrics
    exact .goes (.access rfl) ⟨alike.recorded hmetrics, hplain, rfl, rfl, rfl⟩

/-! ## The scanner -/

section Scan

variable {table plain : PageTable} {manager : ManagerThread} {scanner : ScannerThread}
  {move : Migration} {current : PageLayer} {caller : Migration × PageLayer} {node : Option Addr}
  {classification : Scanner.Classification} {evictNow now : Nat}

/-- A nested call takes the pointer of the evicted page at most. -/
theorem Ringed.nested_frame (h : Ringed ⟨table, manager, scanner, [caller]⟩ ring l)
    (step : Threads.scan classification evictNow now ⟨table, manager, scanner, [caller]⟩ =
      .ok (effect, s')) :
    ∃ t' scanner', effect = none ∧ s' = ⟨t', manager, scanner', [caller]⟩ ∧
      (t' = table ∨ ∃ p, t' = table.store p (.setRingNode none)) := by
  have hring : table.localCacheRing = some ring := h.present
  have hstaged : scanner.NestedStage table ring l := h.staged
  have hnext := h.scan_nested step
  unfold Threads.scan at step
  cases scanner with
  | called move =>
    obtain ⟨m, a, hm, hlocal, _⟩ := hstaged
    simp only [hring, layer?_eq hm, hlocal] at step
    cases step
    exact ⟨_, _, rfl, rfl, .inl rfl⟩
  | located move =>
    cases step
    exact ⟨_, _, rfl, rfl, .inr ⟨move.pageId, rfl⟩⟩
  | exchanged move node =>
    obtain ⟨ring₀, _, step⟩ := bind_eq_ok.mp step
    obtain ⟨ring', _, step⟩ := bind_eq_ok.mp step
    cases step
    exact (show False from hnext.staged).elim
  | _ => exact hstaged.elim

/-- A call goes on to the check of the capacity, or returns. -/
theorem scan_called_plain (classification : Scanner.Classification) (evictNow now : Nat)
    (hplain : plain.localCacheRing = none) (manager : ManagerThread) (move : Migration) :
    Threads.scan classification evictNow now ⟨plain, manager, .called move, []⟩ =
      match plain.layer? move.pageId with
      | none => .ok (some move.call, ⟨plain, manager, .idle, []⟩)
      | some current => .ok (none, ⟨plain, manager, .taken move current, []⟩) := by
  unfold Threads.scan
  dsimp only
  rw [hplain]
  cases plain.layer? move.pageId with
  | none => rfl
  | some current => cases current <;> rfl

/-- There a full tier turns it away. -/
theorem scan_taken_plain (classification : Scanner.Classification) (evictNow now : Nat)
    (hplain : plain.localCacheRing = none) (manager : ManagerThread) (move : Migration)
    (current : PageLayer) :
    Threads.scan classification evictNow now ⟨plain, manager, .taken move current, []⟩ =
      if (plain.serverConfig.layer move.target).isFull then
        .ok (some move.call, ⟨plain, manager, .idle, []⟩)
      else .ok (none, ⟨plain, manager, .admitted move current, []⟩) := by
  unfold Threads.scan
  dsimp only
  rw [hplain]
  rfl

/-- The page is looked up, or taken out of the ring of the one before. -/
theorem followed_called (allowed : verdicts classification) (alike : Alike table plain)
    (hplain : plain.localCacheRing = none)
    (step : Threads.scan classification evictNow now ⟨table, manager, .called move, []⟩ =
      .ok (effect, s')) :
    Followed verdicts ⟨plain, manager.unringed, .called move, []⟩ effect s' := by
  have hpage := alike.layer move.pageId
  have hcalled := scan_called_plain classification evictNow now hplain manager.unringed move
  rw [hpage] at hcalled
  unfold Threads.scan at step
  dsimp only at step
  split at step
  next hnone =>
    cases step
    rw [hnone] at hcalled
    exact .scans evictNow now allowed ⟨plain, manager.unringed, .idle, []⟩
      ⟨alike, hplain, rfl, rfl, rfl⟩ hcalled
  next =>
    cases step
    exact .stays ⟨alike, hplain, rfl, rfl, rfl⟩
  next current hsome _ =>
    cases step
    rw [hsome] at hcalled
    exact .scans evictNow now allowed ⟨plain, manager.unringed, .taken move current, []⟩
      ⟨alike, hplain, rfl, rfl, rfl⟩ hcalled

/-- The page's node has left the ring of the one. -/
theorem followed_exchanged (allowed : verdicts classification) (alike : Alike table plain)
    (hplain : plain.localCacheRing = none)
    (ringed : Ringed ⟨table, manager, .exchanged move node, []⟩ ring l)
    (step : Threads.scan classification evictNow now ⟨table, manager, .exchanged move node, []⟩ =
      .ok (effect, s')) :
    Followed verdicts ⟨plain, manager.unringed, .called move, []⟩ effect s' := by
  obtain ⟨m, hm, _, hlocal⟩ := ringed.staged
  have hlayer : plain.layer? move.pageId = some .numaLocal :=
    (alike.layer move.pageId).trans ((layer?_eq hm).trans (congrArg some hlocal))
  have hcalled := scan_called_plain classification evictNow now hplain manager.unringed move
  rw [hlayer] at hcalled
  obtain ⟨ring₀, _, step⟩ := bind_eq_ok.mp step
  obtain ⟨ring', _, step⟩ := bind_eq_ok.mp step
  cases step
  exact .scans evictNow now allowed ⟨plain, manager.unringed, .taken move .numaLocal, []⟩
    ⟨alike.withRing ring', hplain, rfl, rfl, rfl⟩ hcalled

/-- At the check of the capacity the one may set out to evict, and the other stays. -/
theorem followed_taken (allowed : verdicts classification) (alike : Alike table plain)
    (hplain : plain.localCacheRing = none)
    (step : Threads.scan classification evictNow now ⟨table, manager, .taken move current, []⟩ =
      .ok (effect, s')) :
    Followed verdicts ⟨plain, manager.unringed, .taken move current, []⟩ effect s' := by
  have htaken := scan_taken_plain classification evictNow now hplain manager.unringed move current
  rw [alike.counters] at htaken
  unfold Threads.scan at step
  dsimp only at step
  split at step
  next hfull =>
    rw [if_pos hfull] at htaken
    split at step
    next =>
      split at step
      next => cases step
      next =>
        cases step
        exact .stays ⟨alike, hplain, rfl, rfl, rfl⟩
    next =>
      cases step
      exact .scans evictNow now allowed ⟨plain, manager.unringed, .idle, []⟩
        ⟨alike, hplain, rfl, rfl, rfl⟩ htaken
  next hroom =>
    cases step
    rw [if_neg hroom] at htaken
    exact .scans evictNow now allowed ⟨plain, manager.unringed, .admitted move current, []⟩
      ⟨alike, hplain, rfl, rfl, rfl⟩ htaken

/-- **The scanner's step lemma**, outside of nested calls. -/
theorem followed_outermost (allowed : verdicts classification) (alike : Alike table plain)
    (hplain : plain.localCacheRing = none)
    (ringed : Ringed ⟨table, manager, scanner, []⟩ ring l)
    (step : Threads.scan classification evictNow now ⟨table, manager, scanner, []⟩ =
      .ok (effect, s')) :
    Followed verdicts ⟨plain, manager.unringed, scanner.unringed [], []⟩ effect s' := by
  cases scanner with
  | called move => exact followed_called allowed alike hplain step
  | exchanged move node => exact followed_exchanged allowed alike hplain ringed step
  | taken move current => exact followed_taken allowed alike hplain step
  | idle =>
    cases step
    refine .scans evictNow now allowed
      ⟨plain.scanNext.2, manager.unringed, .advanced table.scanIndex, []⟩
      ⟨alike.scanNext, hplain, rfl, rfl, rfl⟩ ?_
    rw [← alike.scanIndex]
    rfl
  | advanced p =>
    cases step
    refine .scans evictNow now allowed
      ⟨plain, manager.unringed, .readLayer p (table.getPageMetaData p).1, []⟩
      ⟨alike, hplain, rfl, rfl, rfl⟩ ?_
    rw [← alike.data]
    rfl
  | readLayer p layer =>
    cases step
    refine .scans evictNow now allowed
      ⟨plain, manager.unringed, .readTime p layer (table.getPageMetaData p).2.1, []⟩
      ⟨alike, hplain, rfl, rfl, rfl⟩ ?_
    rw [← alike.data]
    rfl
  | readTime p layer time =>
    have hdata := alike.data p
    have hcounters := alike.counters
    unfold Threads.scan at step
    dsimp only at step
    split at step
    next hrest =>
      cases step
      refine .scans evictNow now allowed ⟨plain, manager.unringed, .idle, []⟩
        ⟨alike, hplain, rfl, rfl, rfl⟩ ?_
      simp only [ScannerThread.unringed, Threads.scan, hdata, hcounters, hrest]
    next target hchosen =>
      cases step
      refine .scans evictNow now allowed ⟨plain, manager.unringed, .called _, []⟩
        ⟨alike, hplain, rfl, rfl, rfl⟩ ?_
      simp only [ScannerThread.unringed, Threads.scan, hdata, hcounters, hchosen]
  | located move =>
    cases step
    exact .stays ⟨alike.exchanged move.pageId none, hplain, rfl, rfl, rfl⟩
  | sweeping move current =>
    obtain ⟨ring₀, _, step⟩ := bind_eq_ok.mp step
    obtain ⟨bit, _, step⟩ := bind_eq_ok.mp step
    cases bit with
    | true =>
      cases step
      exact .stays ⟨alike, hplain, rfl, rfl, rfl⟩
    | false =>
      cases step
      exact .stays ⟨alike, hplain, rfl, rfl, rfl⟩
  | referenced move current =>
    obtain ⟨ring₀, _, step⟩ := bind_eq_ok.mp step
    obtain ⟨ring', _, step⟩ := bind_eq_ok.mp step
    cases step
    exact .stays ⟨alike.withRing ring', hplain, rfl, rfl, rfl⟩
  | condemned move current =>
    obtain ⟨ring₀, _, step⟩ := bind_eq_ok.mp step
    obtain ⟨⟨victim, ring'⟩, _, step⟩ := bind_eq_ok.mp step
    cases step
    exact .stays ⟨alike.withRing ring', hplain, rfl, rfl, rfl⟩
  | evicted move current victim =>
    cases step
    exact .stays ⟨alike, hplain, rfl, rfl, rfl⟩
  | admitted move current =>
    cases step
    have hstore := alike.store move.pageId (f := .setLayer move.target) fun _ => rfl
    exact .scans evictNow now allowed
      ⟨plain.store move.pageId (.setLayer move.target), manager.unringed, .placed move current, []⟩
      ⟨hstore, hplain, rfl, rfl, rfl⟩ rfl
  | placed move current =>
    obtain ⟨t', henter, step⟩ := bind_eq_ok.mp step
    cases step
    refine .scans evictNow now allowed ⟨plain, manager.unringed, .entered move current, []⟩
      ⟨alike.entered henter, hplain, rfl, rfl, rfl⟩ ?_
    simp only [ScannerThread.unringed, Threads.scan, enterRing_skip _ _ _ (.inl hplain), ok_bind]
  | entered move current =>
    cases step
    have hstore := alike.store move.pageId (f := .stamp move.now) fun _ => rfl
    exact .scans evictNow now allowed
      ⟨plain.store move.pageId (.stamp move.now), manager.unringed, .stamped move current, []⟩
      ⟨hstore, hplain, rfl, rfl, rfl⟩ rfl
  | stamped move current =>
    cases step
    have hstore := alike.store move.pageId (f := .clearCount) fun _ => rfl
    exact .scans evictNow now allowed
      ⟨plain.store move.pageId .clearCount, manager.unringed, .cleared move current, []⟩
      ⟨hstore, hplain, rfl, rfl, rfl⟩ rfl
  | cleared move current =>
    cases step
    have hcounted := alike.counted (·.leave current)
    exact .scans evictNow now allowed
      ⟨{ plain with serverConfig := plain.serverConfig.leave current }, manager.unringed,
        .left move current, []⟩ ⟨hcounted, hplain, rfl, rfl, rfl⟩ rfl
  | left move current =>
    cases step
    have hcounted := alike.counted (·.arrive move.target)
    exact .scans evictNow now allowed
      ⟨{ plain with serverConfig := plain.serverConfig.arrive move.target }, manager.unringed,
        .arrived move current, []⟩ ⟨hcounted, hplain, rfl, rfl, rfl⟩ rfl
  | arrived move current =>
    cases step
    have hmetrics := congrArg (·.incrementMigration current move.target) alike.metrics
    exact .scans evictNow now allowed
      ⟨{ plain with metrics := plain.metrics.incrementMigration current move.target },
        manager.unringed, .idle, []⟩ ⟨alike.recorded hmetrics, hplain, rfl, rfl, rfl⟩ rfl

/-- **The scanner's step lemma.** -/
theorem Mirrors.scan (h : Mirrors s r) (ringed : Ringed s ring l)
    (allowed : verdicts classification)
    (step : s.scan classification evictNow now = .ok (effect, s')) :
    Followed verdicts r effect s' := by
  obtain ⟨table, manager, scanner, callers⟩ := s
  obtain ⟨plain, _, _, _⟩ := r
  obtain ⟨alike, hplain, rfl, rfl, rfl⟩ := h
  match callers, ringed.staged with
  | [], _ => exact followed_outermost allowed alike hplain ringed step
  | [_], _ =>
    obtain ⟨_, scanner', rfl, rfl, htable⟩ := ringed.nested_frame step
    rcases htable with rfl | ⟨p, rfl⟩
    · exact .stays ⟨alike, hplain, rfl, rfl, rfl⟩
    · exact .stays ⟨alike.exchanged p none, hplain, rfl, rfl, rfl⟩

end Scan

/-- **The step lemma.** -/
theorem Mirrors.step (h : Mirrors s r) (ringed : Ringed s ring l)
    (hstep : StepWith verdicts s effect s') : Followed verdicts r effect s' := by
  cases hstep with
  | begin visit idle found =>
    have hidle : r.manager = .idle := by rw [h.manager, idle]; rfl
    exact .goes (.begin visit hidle (h.alike.found_iff.mpr found))
      ⟨h.alike, h.plain, h.outermost, rfl, h.scanner⟩
  | notFound visit idle missing =>
    have hidle : r.manager = .idle := by rw [h.manager, idle]; rfl
    exact .goes (.notFound visit hidle fun found => missing (h.alike.found_iff.mp found)) h
  | access step => exact h.access step
  | scan allowed step => exact h.scan ringed allowed step

/-- **The run lemma.** -/
theorem Mirrors.run {effects : List (Option Call)} (h : Mirrors s r) (ringed : Ringed s ring l)
    (run : Trace (StepWith verdicts) s effects s') :
    ∃ effects' r', Trace (StepWith verdicts) r effects' r' ∧
      effects'.filterMap id = effects.filterMap id ∧ Mirrors s' r' := by
  have follows : ∀ s effect s' r, (∃ ring l, Ringed s ring l) ∧ Mirrors s r →
      StepWith verdicts s effect s' → ∃ effects' r', Trace (StepWith verdicts) r effects' r' ∧
        effects'.filterMap id = (id effect).toList ∧ (∃ ring l, Ringed s' ring l) ∧
          Mirrors s' r' := by
    rintro s effect s' r ⟨⟨ring, l, ringed⟩, h⟩ hstep
    obtain ⟨effects', r', run', hshown, h'⟩ := h.step ringed hstep
    exact ⟨effects', r', run', hshown, ringed.step hstep.step, h'⟩
  obtain ⟨effects', r', run', hshown, _, h'⟩ := run.simulate_shown follows ⟨⟨ring, l, ringed⟩, h⟩
  exact ⟨effects', r', run', hshown, h'⟩

end Mirrors

/-- Both servers before the first step. -/
theorem mirrors_start {config : AcceptedConfig} {alloc : Allocation} {t₀ : PageTable}
    (start : config.start true alloc = .ok t₀) : ∃ u₀ ring l,
      config.start false alloc = .ok u₀ ∧ Ringed { pageTable := t₀ } ring l ∧
        Mirrors { pageTable := t₀ } { pageTable := u₀ } := by
  obtain ⟨u₀, start', alike, plain⟩ := alike_start start
  obtain ⟨⟨ring, l, held, _⟩, _⟩ := (AcceptedConfig.initial start).ringed
  exact ⟨u₀, ring, l, start', ⟨held, trivial, trivial⟩, alike, plain, rfl, rfl, rfl⟩

/-- What holds at every moment, ring or not: the threads follow whole calls to a server without the
ring. -/
def Stands (s : Threads) : Prop :=
  (∃ t, Refines s t) ∨ ∃ ring l r t, Ringed s ring l ∧ Mirrors s r ∧ Refines r t

section Stands

variable {s s' : Threads} {effect : Option Call}

theorem stands_start {config : AcceptedConfig} {ring : Bool} {alloc : Allocation}
    {t₀ : PageTable} (start : config.start ring alloc = .ok t₀) : Stands { pageTable := t₀ } := by
  cases ring with
  | false => exact .inl ⟨t₀, .start (AcceptedConfig.initial start).ringed⟩
  | true =>
    obtain ⟨u₀, ring, l, _, ringed, mirrors⟩ := mirrors_start start
    exact .inr ⟨ring, l, _, u₀, ringed, mirrors, .start mirrors.plain⟩

/-- What the scanner remembers is what it is, but for what it does with the ring. -/
theorem Stands.sound (h : Stands s) : (s.scanner.unringed s.callers).Sound s.pageTable := by
  rcases h with ⟨t, refines⟩ | ⟨ring, l, r, t, _, mirrors, refines⟩
  · have hsound := refines.sound
    have hcallers := refines.outermost
    cases hscanner : s.scanner with
    | located | exchanged | sweeping | referenced | condemned | evicted =>
      rw [hscanner] at hsound
      exact hsound.elim
    | _ =>
      rw [hscanner] at hsound
      rw [hcallers]
      exact hsound
  · rw [← mirrors.scanner]
    exact refines.sound.congr (fun q => (mirrors.alike.layer q).symm) mirrors.alike.counters.symm

/-- Only with the ring does a call wait for a nested one. -/
theorem Stands.callers (h : Stands s) :
    s.callers = [] ∨ ∃ caller ring l, s.callers = [caller] ∧ Ringed s ring l := by
  rcases h with ⟨t, refines⟩ | ⟨ring, l, r, t, ringed, _⟩
  · exact .inl refines.outermost
  · have hstaged := ringed.staged
    unfold Staged at hstaged
    split at hstaged
    next hnone => exact .inl hnone
    next caller hone => exact .inr ⟨caller, ring, l, hone, ringed⟩
    next => exact hstaged.elim

/-- A page whose pointer was exchanged is in NUMA-local memory. -/
theorem Stands.exchanged {table : PageTable} {manager : ManagerThread} {move : Migration}
    {node : Option Addr} (h : Stands ⟨table, manager, .exchanged move node, []⟩) :
    table.layer? move.pageId = some .numaLocal := by
  rcases h with ⟨t, refines⟩ | ⟨ring, l, r, t, ringed, _⟩
  · exact refines.sound.elim
  · obtain ⟨m, hm, _, hlocal⟩ := ringed.staged
    exact (layer?_eq hm).trans (congrArg some hlocal)

theorem Stands.step (h : Stands s) (hstep : Step s effect s') : Stands s' := by
  rcases h with ⟨t, refines⟩ | ⟨ring, l, r, t, ringed, mirrors, refines⟩
  · obtain ⟨t', _, refines'⟩ := refines.step hstep
    exact .inl ⟨t', refines'⟩
  · obtain ⟨ring', l', ringed'⟩ := ringed.step hstep
    obtain ⟨effects', r', run', _, mirrors'⟩ := mirrors.step ringed hstep
    obtain ⟨t', _, _, _, refines'⟩ := refines.run run'
    exact .inr ⟨ring', l', r', t', ringed', mirrors', refines'⟩

end Stands

/-- **The ring decides nothing, wherever the threads cut into each other.** What a manager and a
scanner do with the cache ring, in any order of their loads and stores, as long as no step fails,
two threads without the ring can do too, with verdicts of the same policy. The same calls take
effect in the same order, and at every moment every page is in the same tier with the same timestamp
and access count, and counters and metrics are the same. -/
theorem interleavings_without_ring {config : AcceptedConfig} {alloc : Allocation} {t₀ : PageTable}
    {verdicts : Scanner.Classification → Prop} {s : Threads} {effects : List (Option Call)}
    (start : config.start true alloc = .ok t₀)
    (run : Trace (StepWith verdicts) { pageTable := t₀ } effects s) :
    ∃ u₀, config.start false alloc = .ok u₀ ∧ ∃ r effects',
      Trace (StepWith verdicts) { pageTable := u₀ } effects' r ∧
      effects'.filterMap id = effects.filterMap id ∧ Alike s.pageTable r.pageTable ∧
      r.manager = s.manager.unringed ∧ r.scanner = s.scanner.unringed s.callers := by
  obtain ⟨u₀, ring, l, start', ringed, mirrors⟩ := mirrors_start start
  obtain ⟨effects', r, run', hshown, h⟩ := mirrors.run ringed run
  exact ⟨u₀, start', r, effects', run', hshown, h.alike, h.manager, h.scanner⟩

/-- A page is demoted while an access to it is under way, which has marked its node before. -/
theorem marked_before_demotion : ∃ (t₀ u₀ : PageTable) (s r : Threads)
    (effects effects' : List (Option Call)),
    (smallConfig 1 1 (by decide)).start true plainAllocation = .ok t₀ ∧
    Trace Step { pageTable := t₀ } effects s ∧ s.pageTable.layer? 0 = some .numaRemote ∧
    s.pageTable.metrics.remoteAccessCount = 1 ∧
    (smallConfig 1 1 (by decide)).start false plainAllocation = .ok u₀ ∧
    Trace Step { pageTable := u₀ } effects' r ∧ Alike s.pageTable r.pageTable := by
  have hrun : ∃ (t₀ : PageTable) (s : Threads) (effects : List (Option Call)),
      (smallConfig 1 1 (by decide)).start true plainAllocation = .ok t₀ ∧ 0 ∈ t₀.table ∧
      play (turnsOf (List.replicate 4 (some Scanner.alwaysHot) ++
          List.replicate 15 (some Scanner.alwaysCold) ++ List.replicate 3 none ++
          List.replicate 7 (some Scanner.alwaysCold) ++ List.replicate 2 none ++
          List.replicate 6 (some Scanner.alwaysCold) ++ List.replicate 3 none))
        { pageTable := t₀, manager := .measured ⟨0, .read, 5, 0⟩ } = .ok (effects, s) ∧
      s.pageTable.layer? 0 = some .numaRemote ∧ s.pageTable.metrics.remoteAccessCount = 1 :=
    ⟨_, _, _, rfl, by decide, rfl, rfl, rfl⟩
  obtain ⟨t₀, s, effects, start, found, hplay, hlayer, haccess⟩ := hrun
  have run := trace_of_visit found hplay
  obtain ⟨u₀, start', r, effects', run', _, alike, _⟩ := interleavings_without_ring start run
  exact ⟨t₀, u₀, s, r, _, effects', start, run, hlayer, haccess, start', run', alike⟩

end Threads

end MemoryTiering
