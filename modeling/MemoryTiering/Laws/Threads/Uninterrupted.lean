import MemoryTiering.Threads

/-!
# Threads that are not interrupted

The steps of a thread, taken one after another, make up the function they are cut from, the eviction
and its nested call included: whatever `accessPage` and a round of the scanner do at once, the
threads can do (`driven_is_interleaving`). So the steps leave nothing out, and what holds of every
interleaving holds of every run of whole accesses and rounds.
-/

set_option autoImplicit false

namespace MemoryTiering

open Fallible Pointer Transition PageTable

namespace Threads

/-- Some interleaving leads from one state to the other. -/
def Reaches (s s' : Threads) : Prop := ∃ effects, Trace Step s effects s'

section Uninterrupted

variable {s s₁ s' : Threads} {t t' : PageTable} {effect : Option Call}

theorem Reaches.refl (s : Threads) : Reaches s s := ⟨[], .nil s⟩

theorem Reaches.trans (h : Reaches s s₁) (k : Reaches s₁ s') : Reaches s s' := by
  obtain ⟨effects, h⟩ := h
  obtain ⟨effects', k⟩ := k
  exact ⟨effects ++ effects', h.append k⟩

theorem Reaches.head (step : Step s effect s₁) (rest : Reaches s₁ s') : Reaches s s' := by
  obtain ⟨effects, rest⟩ := rest
  exact ⟨effect :: effects, .cons step rest⟩

theorem Reaches.access (step : s.access = .ok (effect, s₁)) (rest : Reaches s₁ s') :
    Reaches s s' :=
  rest.head (.access step)

/-- The switch at the end of an access reads the layer. -/
theorem access_recorded {v : Visit} {layer : PageLayer} {scanner : ScannerThread}
    {callers : List (Migration × PageLayer)} (hlayer : t.layer? v.pageId = some layer) :
    Threads.access ⟨t, .recorded v, scanner, callers⟩ =
      .ok (some v.call, ⟨t, .switched layer, scanner, callers⟩) := by
  unfold Threads.access
  simp only [hlayer]

/-- An access from the mark on. -/
theorem reaches_of_marked (t : PageTable) (v : Visit) {layer : PageLayer}
    (hlayer : t.layer? v.pageId = some layer) :
    Reaches { pageTable := t, manager := .marked v }
      { pageTable := { t.store v.pageId (.accessed v.now) with
          metrics := (t.metrics.recordAccessLatency v.accessTime).incrementAccess layer } } := by
  have hstored : (t.store v.pageId (.stamp v.now)).store v.pageId .count =
      t.store v.pageId (.accessed v.now) := store_store ..
  have hlayer' : (t.store v.pageId (.accessed v.now)).layer? v.pageId = some layer :=
    ((sameLayers_store t v.pageId (f := .accessed v.now) fun _ => rfl).layer _).trans hlayer
  apply Reaches.access rfl
  apply Reaches.access rfl
  dsimp only
  rw [hstored]
  apply Reaches.access rfl
  exact .access (access_recorded hlayer') (.access rfl (.refl _))

/-- Without a ring, or away from NUMA-local memory, an access marks nothing. -/
theorem access_unmarked {v : Visit} {scanner : ScannerThread}
    {callers : List (Migration × PageLayer)}
    (h : t.localCacheRing = none ∨ t.layer? v.pageId ≠ some .numaLocal) :
    Threads.access ⟨t, .measured v, scanner, callers⟩ =
      .ok (none, ⟨t, .marked v, scanner, callers⟩) := by
  unfold Threads.access
  dsimp only
  split
  next ring hring hlayer =>
    rcases h with h | h
    · rw [hring] at h
      cases h
    · exact (h hlayer).elim
  next => rfl

/-- A NUMA-local page is marked in three steps. -/
theorem reaches_marked {v : Visit} {m : PageMetadata} {ring ring' : ClockRing}
    (hm : t.meta? v.pageId = some m) (hring : t.localCacheRing = some ring)
    (hlayer : m.pageLayer = .numaLocal) (hmark : ring.markAccessed m.ringNodePtr = .ok ring') :
    Reaches { pageTable := t, manager := .measured v }
      { pageTable := t.withRing ring', manager := .marked v } := by
  have htested : Threads.access { pageTable := t, manager := .measured v } =
      .ok (none, { pageTable := t, manager := .tested v }) := by
    unfold Threads.access
    simp only [hring, layer?_eq hm, hlayer]
  have hloaded : Threads.access { pageTable := t, manager := .tested v } =
      .ok (none, { pageTable := t, manager := .loaded v m.ringNodePtr }) := by
    unfold Threads.access
    simp only [hm, Option.bind_some]
  have hmarked : Threads.access { pageTable := t, manager := .loaded v m.ringNodePtr } =
      .ok (none, { pageTable := t.withRing ring', manager := .marked v }) := by
    unfold Threads.access
    simp only [hring, hmark, ok_bind]
  exact .access htested (.access hloaded (.access hmarked (.refl _)))

/-- An access that nothing interrupts. -/
theorem reaches_accessPage {latency : SizeT → OperationType → UInt64} {now : Nat} {p : PageId}
    {mode : OperationType} (h : t.accessPage latency now p mode = .ok t') :
    Reaches { pageTable := t } { pageTable := t' } := by
  unfold accessPage at h
  cases he : t.table.lookup p with
  | none =>
    rw [he] at h
    cases h
    exact .head (.notFound ⟨p, mode, 0, now⟩ rfl (AList.lookup_eq_none.mp he)) (.refl _)
  | some e =>
    have hfound : p ∈ t.table := AList.lookup_isSome.mp (by rw [he]; rfl)
    have hm : t.meta? p = some e.metadata := by rw [meta?, he, Option.map_some]
    refine .head (.begin ⟨p, mode, latency e.pageAddress mode, now⟩ rfl hfound) ?_
    rw [he] at h
    dsimp only at h
    split at h
    next ring hring hlayer =>
      obtain ⟨ring', hmark, h⟩ := bind_eq_ok.mp h
      cases h
      exact (reaches_marked hm hring hlayer hmark).trans
        (reaches_of_marked (t.withRing ring') _ (layer?_eq hm))
    next hskip =>
      cases h
      refine .access (access_unmarked ?_) (reaches_of_marked t _ (layer?_eq hm))
      cases hring : t.localCacheRing with
      | none => exact .inl rfl
      | some ring =>
        right
        rw [layer?_eq hm]
        exact fun hlayer => hskip ring hring (Option.some.inj hlayer)

section Migrations

variable {move : Migration} {current : PageLayer} {callers : List (Migration × PageLayer)}

/-- Where the scanner goes on when `migratePage` has returned. -/
def resumed (t : PageTable) (callers : List (Migration × PageLayer)) : Threads :=
  returns { pageTable := t, callers }

theorem returns_eq_resumed (t : PageTable) (scanner : ScannerThread)
    (callers : List (Migration × PageLayer)) :
    returns { pageTable := t, scanner, callers } = resumed t callers := by
  cases callers <;> rfl

/-- A step of the scanner, for any verdict. -/
theorem Reaches.goes (step : ∃ effect, s.scan Scanner.alwaysCold 0 0 = .ok (effect, s₁))
    (rest : Reaches s₁ s') : Reaches s s' := by
  obtain ⟨effect, step⟩ := step
  exact rest.head (.scan trivial step)

/-- From the store of the layer to the end of a migration. -/
theorem reaches_finishMove
    (h : t.finishMove move.now move.pageId current move.target = .ok t') :
    Reaches { pageTable := t, scanner := .admitted move current, callers }
      (resumed t' callers) := by
  obtain ⟨t₁, henter, h⟩ := bind_eq_ok.mp h
  cases h
  have hentered : Threads.scan Scanner.alwaysCold 0 0
      { pageTable := t.store move.pageId (.setLayer move.target)
        scanner := .placed move current, callers } =
      .ok (none, { pageTable := t₁, scanner := .entered move current, callers }) := by
    unfold Threads.scan
    simp only [henter, ok_bind]
  have hstored : (t₁.store move.pageId (.stamp move.now)).store move.pageId .clearCount =
      t₁.store move.pageId (.reset move.now) := store_store ..
  apply Reaches.goes ⟨_, rfl⟩
  apply Reaches.goes ⟨_, hentered⟩
  apply Reaches.goes ⟨_, rfl⟩
  apply Reaches.goes ⟨_, rfl⟩
  dsimp only
  rw [hstored]
  apply Reaches.goes ⟨_, rfl⟩
  apply Reaches.goes ⟨_, rfl⟩
  refine Reaches.goes ⟨_, rfl⟩ ?_
  rw [returns_eq_resumed]
  exact .refl _

/-- From the call to the check of the capacity. -/
theorem reaches_taken {m : PageMetadata} (hm : t.meta? move.pageId = some m)
    (h : t.takeFromRing ClockRing.remove move.pageId m = .ok t') :
    Reaches { pageTable := t, scanner := .called move, callers }
      { pageTable := t', scanner := .taken move m.pageLayer, callers } := by
  have hlayer := layer?_eq hm
  rcases takeFromRing_cases h with ⟨hskip, rfl⟩ | ⟨ring, ring', hring, hlocal, hremove, rfl⟩
  · have htaken : Threads.scan Scanner.alwaysCold 0 0
        { pageTable := t', scanner := .called move, callers } =
        .ok (none, { pageTable := t', scanner := .taken move m.pageLayer, callers }) := by
      unfold Threads.scan
      simp only [hlayer]
      split
      next hnone => cases hnone
      next hring hlocal =>
        rcases hskip with hskip | hskip
        · rw [hskip] at hring
          cases hring
        · exact (hskip (Option.some.inj hlocal)).elim
      next hsome _ =>
        obtain rfl := Option.some.inj hsome
        rfl
    exact .goes ⟨_, htaken⟩ (.refl _)
  · have hlocated : Threads.scan Scanner.alwaysCold 0 0
        { pageTable := t, scanner := .called move, callers } =
        .ok (none, { pageTable := t, scanner := .located move, callers }) := by
      unfold Threads.scan
      simp only [hring, hlayer, hlocal]
    have hexchanged : Threads.scan Scanner.alwaysCold 0 0
        { pageTable := t, scanner := .located move, callers } =
        .ok (none,
          { pageTable := t.store move.pageId (.setRingNode none)
            scanner := .exchanged move m.ringNodePtr, callers }) := by
      unfold Threads.scan
      simp only [hm, Option.bind_some]
    have hcache : (t.store move.pageId (.setRingNode none)).cacheRing = .ok ring :=
      cacheRing_eq hring
    have htaken : Threads.scan Scanner.alwaysCold 0 0
        { pageTable := t.store move.pageId (.setRingNode none)
          scanner := .exchanged move m.ringNodePtr, callers } =
        .ok (none,
          { pageTable := (t.store move.pageId (.setRingNode none)).withRing ring'
            scanner := .taken move m.pageLayer, callers }) := by
      unfold Threads.scan
      simp only [hcache, ok_bind, hremove, hlocal]
    exact .goes ⟨_, hlocated⟩ (.goes ⟨_, hexchanged⟩ (.goes ⟨_, htaken⟩ (.refl _)))

/-- One look at the hand. -/
theorem evictionLoop_cases {ring : ClockRing} {fuel : Nat} {c : ClockRing.Candidate}
    (h : ClockRing.evictionLoop (fuel + 1) ring = .ok c) :
    (∃ ring₁ c₁, ring.handBit = .ok true ∧ ring.passHand = .ok ring₁ ∧
        ClockRing.evictionLoop fuel ring₁ = .ok c₁ ∧ c.victim = c₁.victim ∧ c.ring = c₁.ring) ∨
      (ring.handBit = .ok false ∧ ring.evictHand = .ok (c.victim, c.ring)) := by
  unfold ClockRing.evictionLoop at h
  cases hhand : ring.hand with
  | none =>
    rw [hhand] at h
    cases h
  | some hand =>
    rw [hhand] at h
    obtain ⟨node, hnode, h⟩ := bind_eq_ok.mp h
    have hbit : ring.handBit = .ok node.refBit := by
      unfold ClockRing.handBit
      rw [hhand, hnode, ok_bind]
    split at h
    next hset =>
      obtain ⟨heap, hstore, h⟩ := bind_eq_ok.mp h
      obtain ⟨node', hnode', h⟩ := bind_eq_ok.mp h
      obtain ⟨c₁, hloop, h⟩ := bind_eq_ok.mp h
      cases h
      have hpass : ring.passHand = .ok { ring with heap, hand := node'.next } := by
        unfold ClockRing.passHand
        rw [hhand, hstore, ok_bind, hnode', ok_bind]
      exact .inl ⟨_, c₁, by rw [hbit, hset], hpass, hloop, rfl, rfl⟩
    next hclear =>
      obtain ⟨ring', hremove, h⟩ := bind_eq_ok.mp h
      cases h
      have hevict : ring.evictHand = .ok (node.pageId, ring') := by
        unfold ClockRing.evictHand
        rw [hhand, hnode, ok_bind, hremove, ok_bind]
      exact .inr ⟨by rw [hbit, Bool.eq_false_iff.mpr hclear], hevict⟩

/-- The loop of `findEvictionCandidate`. -/
theorem reaches_evicted (move : Migration) (current : PageLayer)
    (callers : List (Migration × PageLayer)) {fuel : Nat} :
    ∀ {t : PageTable} {ring : ClockRing} {c : ClockRing.Candidate},
      t.localCacheRing = some ring → ClockRing.evictionLoop fuel ring = .ok c →
      Reaches { pageTable := t, scanner := .sweeping move current, callers }
        { pageTable := t.withRing c.ring, scanner := .evicted move current c.victim, callers } := by
  induction fuel with
  | zero =>
    intro t ring c _ h
    cases h
  | succ fuel ih =>
    intro t ring c hring h
    have hcache : t.cacheRing = .ok ring := cacheRing_eq hring
    rcases evictionLoop_cases h with
      ⟨ring₁, c₁, hbit, hpass, hloop, hvictim, hleft⟩ | ⟨hbit, hevict⟩
    · have hreferenced : Threads.scan Scanner.alwaysCold 0 0
          { pageTable := t, scanner := .sweeping move current, callers } =
          .ok (none, { pageTable := t, scanner := .referenced move current, callers }) := by
        unfold Threads.scan
        simp only [hcache, ok_bind, hbit]
      have hpassed : Threads.scan Scanner.alwaysCold 0 0
          { pageTable := t, scanner := .referenced move current, callers } =
          .ok (none,
            { pageTable := t.withRing ring₁, scanner := .sweeping move current, callers }) := by
        unfold Threads.scan
        simp only [hcache, ok_bind, hpass]
      rw [hvictim, hleft]
      exact .goes ⟨_, hreferenced⟩ (.goes ⟨_, hpassed⟩ (ih (t := t.withRing ring₁) rfl hloop))
    · have hcondemned : Threads.scan Scanner.alwaysCold 0 0
          { pageTable := t, scanner := .sweeping move current, callers } =
          .ok (none, { pageTable := t, scanner := .condemned move current, callers }) := by
        unfold Threads.scan
        simp only [hcache, ok_bind, hbit]
      have hevicted : Threads.scan Scanner.alwaysCold 0 0
          { pageTable := t, scanner := .condemned move current, callers } =
          .ok (none,
            { pageTable := t.withRing c.ring, scanner := .evicted move current c.victim,
              callers }) := by
        unfold Threads.scan
        simp only [hcache, ok_bind, hevict]
      exact .goes ⟨_, hcondemned⟩ (.goes ⟨_, hevicted⟩ (.refl _))

/-- What a nested call does at once, the scanner can do. -/
def Nests (migrate : PageTable → PageId → PageLayer → Except Fault (Exit × PageTable))
    (now : Nat) : Prop :=
  ∀ (t : PageTable) (victim : PageId) (target : PageLayer) (answer : Exit × PageTable)
    (callers : List (Migration × PageLayer)), target ≠ .numaLocal →
    migrate t victim target = .ok answer →
    Reaches { pageTable := t, scanner := .called ⟨victim, target, now, now⟩, callers }
      (resumed answer.2 callers)

/-- An evicted page goes down. -/
theorem evictionTarget_ne (config : ServerMemoryConfig) : evictionTarget config ≠ .numaLocal := by
  unfold evictionTarget
  split
  · exact PageLayer.noConfusion
  · exact PageLayer.noConfusion

section Checks

variable {migrate : PageTable → PageId → PageLayer → Except Fault (Exit × PageTable)}

/-- An eviction. -/
theorem reaches_evict {ring : ClockRing} (nests : Nests migrate move.evictNow)
    (hring : t.localCacheRing = some ring) (htarget : move.target = .numaLocal)
    (full : t.serverConfig.localNuma.isFull = true) (h : t.evict migrate ring = .ok t') :
    Reaches { pageTable := t, scanner := .taken move current, callers }
      { pageTable := t', scanner := .admitted move current, callers } := by
  obtain ⟨c, hcandidate, h⟩ := bind_eq_ok.mp h
  obtain ⟨answer, hnested, h⟩ := bind_eq_ok.mp h
  cases h
  unfold ClockRing.findEvictionCandidate at hcandidate
  cases hhand : ring.hand with
  | none =>
    rw [hhand] at hcandidate
    cases hcandidate
  | some hand =>
    rw [hhand] at hcandidate
    have hfull : (t.serverConfig.layer .numaLocal).isFull = true := full
    have hsweeping : Threads.scan Scanner.alwaysCold 0 0
        { pageTable := t, scanner := .taken move current, callers } =
        .ok (none, { pageTable := t, scanner := .sweeping move current, callers }) := by
      unfold Threads.scan
      simp only [htarget, hfull, if_true, hring, hhand]
    have hcalled := nests _ _ _ _ ((move, current) :: callers) (evictionTarget_ne _) hnested
    exact .goes ⟨_, hsweeping⟩
      ((reaches_evicted move current callers hring hcandidate).trans (.goes ⟨_, rfl⟩ hcalled))

/-- **The check of the capacity**, with its eviction. -/
theorem reaches_checked (nests : move.target = .numaLocal → Nests migrate move.evictNow)
    {answer : Option PageTable} (h : t.checkCapacity migrate move.target = .ok answer) :
    Reaches { pageTable := t, scanner := .taken move current, callers }
      (match answer with
        | none => resumed t callers
        | some t' => { pageTable := t', scanner := .admitted move current, callers }) := by
  have admits : (t.serverConfig.layer move.target).isFull = false →
      Reaches { pageTable := t, scanner := .taken move current, callers }
        { pageTable := t, scanner := .admitted move current, callers } := by
    intro room
    have hadmitted : Threads.scan Scanner.alwaysCold 0 0
        { pageTable := t, scanner := .taken move current, callers } =
        .ok (none, { pageTable := t, scanner := .admitted move current, callers }) := by
      unfold Threads.scan
      simp only [room, Bool.false_eq_true, if_false]
    exact .goes ⟨_, hadmitted⟩ (.refl _)
  by_cases hplain : t.localCacheRing = none ∨ move.target ≠ .numaLocal
  · rw [checkCapacity_plain migrate t hplain] at h
    cases hfull : (t.serverConfig.layer move.target).isFull with
    | false =>
      rw [hfull] at h
      cases h
      exact admits hfull
    | true =>
      rw [hfull] at h
      cases h
      have hreturned : Threads.scan Scanner.alwaysCold 0 0
          { pageTable := t, scanner := .taken move current, callers } =
          .ok (effectOf { pageTable := t, scanner := .taken move current, callers } move,
            resumed t callers) := by
        unfold Threads.scan
        simp only [hfull, if_true, returns_eq_resumed]
        split
        next hring hlocal =>
          rcases hplain with hplain | hplain
          · rw [hplain] at hring
            cases hring
          · exact (hplain hlocal).elim
        next => rfl
      exact .goes ⟨_, hreturned⟩ (.refl _)
  · obtain ⟨hring, htarget⟩ := not_or.mp hplain
    obtain ⟨ring, hring⟩ := Option.ne_none_iff_exists'.mp hring
    have hlocal := not_not.mp htarget
    rw [hlocal, checkCapacity_promotion hring] at h
    split at h
    next hfull =>
      obtain ⟨t₁, hevict, h⟩ := bind_eq_ok.mp h
      cases h
      exact reaches_evict (nests hlocal) hring hlocal hfull hevict
    next hroom =>
      cases h
      apply admits
      rw [hlocal]
      exact Bool.eq_false_iff.mpr hroom

/-- A migration that nothing interrupts, for what its nested call does. -/
theorem reaches_migrateBody (move : Migration)
    (nests : move.target = .numaLocal → Nests migrate move.evictNow) {exit : Exit}
    (h : migrateBody ClockRing.remove migrate move.now t move.pageId move.target =
      .ok (exit, t')) :
    Reaches { pageTable := t, scanner := .called move, callers } (resumed t' callers) := by
  rcases migrateBody_cases h with ⟨hm, _, rfl⟩ | ⟨m, t₁, hm, htake, hrest⟩
  · have hlayer : t'.layer? move.pageId = none := by rw [layer?, hm, Option.map_none]
    have hreturned : Threads.scan Scanner.alwaysCold 0 0
        { pageTable := t', scanner := .called move, callers } =
        .ok (effectOf { pageTable := t', scanner := .called move, callers } move,
          resumed t' callers) := by
      unfold Threads.scan
      simp only [hlayer, returns_eq_resumed]
    exact .goes ⟨_, hreturned⟩ (.refl _)
  · apply (reaches_taken hm htake).trans
    rcases hrest with ⟨hcheck, _, rfl⟩ | ⟨t₂, hcheck, _, hfinish⟩
    · exact reaches_checked nests hcheck
    · exact (reaches_checked nests hcheck).trans (reaches_finishMove hfinish)

end Checks

/-- **A migration that nothing interrupts.** Its nested call does not evict. -/
theorem reaches_migratePage {exit : Exit}
    (h : t.migratePage move.evictNow move.now move.pageId move.target = .ok (exit, t')) :
    Reaches { pageTable := t, scanner := .called move, callers } (resumed t' callers) := by
  rw [migratePage_eq_body] at h
  refine reaches_migrateBody move (fun _ => ?_) h
  intro t victim target answer callers htarget hnested
  rw [migratePage_eq_body] at hnested
  exact reaches_migrateBody ⟨victim, target, move.evictNow, move.evictNow⟩
    (fun hlocal => (htarget hlocal).elim) hnested

end Migrations

/-- Where the scanner goes on when it has decided. -/
def decided (t : PageTable) (p : PageId) (evictNow now : Nat) : Option PageLayer → Threads
  | none => { pageTable := t }
  | some target => { pageTable := t, scanner := .called ⟨p, target, evictNow, now⟩ }

/-- The last load of a round, and the verdict. -/
theorem scan_readTime (classification : Scanner.Classification) (evictNow now : Nat)
    (t : PageTable) (p : PageId) (layer : PageLayer) (time : UInt64) {request : Option PageLayer}
    (hrequest : Scanner.targetLayer t.serverConfig.numTiers layer
      (classification.classifyPage time (t.getPageMetaData p).2.2)
      (classification.classifyHotPage time (t.getPageMetaData p).2.2) = request) :
    Threads.scan classification evictNow now
        { pageTable := t, scanner := .readTime p layer time } =
      .ok (none, decided t p evictNow now request) := by
  unfold Threads.scan
  dsimp only
  rw [hrequest]
  cases request <;> rfl

/-- A round that nothing interrupts. -/
theorem reaches_round {classification : Scanner.Classification} {evictNow now : Nat}
    (h : Scanner.round classification evictNow now t = .ok t') :
    Reaches { pageTable := t } { pageTable := t' } := by
  obtain ⟨u, hu⟩ : ∃ u, u = t.scanNext.2 := ⟨_, rfl⟩
  obtain ⟨data, hdata⟩ : ∃ data, data = u.getPageMetaData t.scanIndex := ⟨_, rfl⟩
  obtain ⟨request, hrequest⟩ : ∃ request, Scanner.targetLayer u.serverConfig.numTiers data.1
      (classification.classifyPage data.2.1 data.2.2)
      (classification.classifyHotPage data.2.1 data.2.2) = request := ⟨_, rfl⟩
  have hscan : (Scanner.scan classification t).1 =
      request.map fun target => (t.scanIndex, target) := by
    rw [← hrequest, hdata, hu]
    rfl
  -- three loads, and then the verdict
  have hread : Reaches { pageTable := t }
      { pageTable := u, scanner := .readTime t.scanIndex data.1 data.2.1 } := by
    rw [hdata, hu]
    exact .goes ⟨_, rfl⟩ (.goes ⟨_, rfl⟩ (.goes ⟨_, rfl⟩ (.refl _)))
  have hlast : Threads.scan classification evictNow now
      { pageTable := u, scanner := .readTime t.scanIndex data.1 data.2.1 } =
      .ok (none, decided u t.scanIndex evictNow now request) := by
    apply scan_readTime
    rw [← hdata]
    exact hrequest
  apply hread.trans
  cases request with
  | none =>
    rw [round_rests hscan, ← hu] at h
    cases h
    exact .head (.scan trivial hlast) (.refl _)
  | some target =>
    rw [round_migrates hscan, ← hu] at h
    obtain ⟨⟨exit, t₁⟩, hcall, h⟩ := bind_eq_ok.mp h
    cases h
    exact .head (.scan trivial hlast) (reaches_migratePage hcall)

/-- **What whole accesses and whole rounds do, the threads can do**, with or without a ring. -/
theorem driven_is_interleaving {es : List (PageTable × Event)} (h : Trace Drives t es t') :
    Reaches { pageTable := t } { pageTable := t' } := by
  induction h with
  | nil t => exact .refl _
  | @cons t t₁ t₂ e es hstep _ ih =>
    obtain ⟨u, e⟩ := e
    obtain ⟨rfl, hdone⟩ := hstep
    cases e with
    | access latency now p mode => exact (reaches_accessPage hdone).trans ih
    | round classification evictNow now => exact (reaches_round hdone).trans ih

end Uninterrupted

end Threads

end MemoryTiering
