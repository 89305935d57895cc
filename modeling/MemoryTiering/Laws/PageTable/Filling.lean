import MemoryTiering.Laws.PageTable.Ownership
import MemoryTiering.ConfigParser

/-!
# The filled table

What `initPageTable` leaves behind, when it returns. `Filled` is what the loops keep: the next page
index is the size of the table, the pages are the indices below it, and with a ring every
NUMA-local page has a node. The counters are copies of the census after each client
(`Tallied`), and the census is what the clients asked for (`initPageTable_spec`).
-/

set_option autoImplicit false

namespace MemoryTiering

open Fallible Pointer

/-- The tier whose sizes are pages of a layer. -/
def tierIndex (numTiers : Nat) : PageLayer → Option Nat
  | .numaLocal => some 0
  | .numaRemote => if numTiers = 3 then some 1 else none
  | .pmem => if numTiers = 3 then some 2 else some 1

/-- The pages a client asks for in a layer. -/
def ClientConfig.share (client : ClientConfig) (numTiers : Nat) (layer : PageLayer) : Nat :=
  ((tierIndex numTiers layer).map fun i => (client.tier i).toNat).getD 0

/-- The pages all clients ask for in a layer, with no wrap. -/
def demand (numTiers : Nat) (clients : List ClientConfig) (layer : PageLayer) : Nat :=
  (clients.map fun client => client.share numTiers layer).sum

namespace PageTable

/-- The counters are the census. -/
def Tallied (t : PageTable) : Prop :=
  ∀ layer, (t.serverConfig.layer layer).count.toNat = t.population layer

/-- No tier holds more pages than it may. -/
def Bounded (t : PageTable) : Prop :=
  ∀ layer, (t.serverConfig.layer layer).count.toNat ≤ (t.serverConfig.layer layer).capacity.toNat

/-- The pages are the indices below the table's size. -/
structure Numbered (t : PageTable) : Prop where
  small : t.table.size < 2 ^ 64
  pages : ∀ p, (t.meta? p).isSome = true ↔ p.toNat < t.table.size

/-- The ring of a filled table: none, or one with a node for every NUMA-local page. -/
def Ringed (t : PageTable) (capacity : Option SizeT) : Prop :=
  match capacity with
  | none => t.localCacheRing = none
  | some capacity => (∃ ring l, t.Held ring l ∧ ring.capacity = capacity) ∧ t.lost = 0

/-- What filling never touches. -/
structure SameFrame (t t' : PageTable) : Prop where
  clientConfigs : t'.clientConfigs = t.clientConfigs
  localPageLoad : t'.localPageLoad = t.localPageLoad
  scanIndex : t'.scanIndex = t.scanIndex
  metrics : t'.metrics = t.metrics
  numTiers : t'.serverConfig.numTiers = t.serverConfig.numTiers
  capacity : ∀ layer, (t'.serverConfig.layer layer).capacity = (t.serverConfig.layer layer).capacity

theorem SameFrame.refl (t : PageTable) : SameFrame t t :=
  ⟨rfl, rfl, rfl, rfl, rfl, fun _ => rfl⟩

theorem SameFrame.trans {t t' t'' : PageTable} (h : SameFrame t t') (k : SameFrame t' t'') :
    SameFrame t t'' :=
  ⟨k.clientConfigs.trans h.clientConfigs, k.localPageLoad.trans h.localPageLoad,
    k.scanIndex.trans h.scanIndex, k.metrics.trans h.metrics, k.numTiers.trans h.numTiers,
    fun layer => (k.capacity layer).trans (h.capacity layer)⟩

/-! ## A new entry -/

section Insert

variable {t : PageTable} {p : PageId} {entry : PageTableEntry}

/-- The table with an entry added. -/
def withEntry (t : PageTable) (p : PageId) (entry : PageTableEntry) : PageTable :=
  { t with table := t.table.insert p entry }

theorem meta?_withEntry (t : PageTable) (p : PageId) (entry : PageTableEntry) (q : PageId) :
    (t.withEntry p entry).meta? q = if q = p then some entry.metadata else t.meta? q := by
  unfold meta? withEntry
  by_cases hq : q = p
  · subst hq
    rw [AList.lookup_insert, if_pos rfl, Option.map_some]
  · rw [AList.lookup_insert_ne hq, if_neg hq]

theorem notMem_of_meta? (h : t.meta? p = none) : p ∉ t.table := by
  rw [meta?, Option.map_eq_none_iff, AList.lookup_eq_none] at h
  exact h

theorem census_withEntry (entry : PageTableEntry) (h : t.meta? p = none)
    (property : PageMetadata → Bool) :
    (t.withEntry p entry).census property =
      t.census property + if property entry.metadata then 1 else 0 :=
  Table.census_insert _ _ (notMem_of_meta? h)

theorem size_withEntry (entry : PageTableEntry) (h : t.meta? p = none) :
    (t.withEntry p entry).table.size = t.table.size + 1 :=
  Table.size_insert _ (notMem_of_meta? h)

/-- An entry without a node keeps the coupling. -/
theorem Held.withEntry {ring : ClockRing} {l : List Addr} (h : t.Held ring l)
    (hp : t.meta? p = none) (hptr : entry.metadata.ringNodePtr = none) :
    (t.withEntry p entry).Held ring l := by
  constructor
  case present => exact h.present
  case reads => exact h.reads
  case owned =>
    intro a ha
    obtain ⟨q, m, hm, hnode⟩ := h.owned a ha
    have hqp : q ≠ p := by
      rintro rfl
      rw [hp] at hm
      cases hm
    exact ⟨q, m, by rw [meta?_withEntry, if_neg hqp, hm], hnode⟩
  case points =>
    intro q m a hm hnode
    rw [meta?_withEntry] at hm
    split at hm
    · cases hm
      rw [hptr] at hnode
      cases hnode
    · exact h.points q m a hm hnode
  case counted =>
    rw [census_withEntry entry hp, hptr, h.counted]
    rfl

end Insert

/-! ## One page -/

/-- What the loops keep. -/
structure Filled (t₀ : PageTable) (s : Filling) : Prop where
  index : s.currentIndex.toNat = s.pageTable.table.size
  numbered : s.pageTable.Numbered
  ringed : s.pageTable.Ringed (t₀.localCacheRing.map (·.capacity))
  frame : SameFrame t₀ s.pageTable

/-- Entering a ring leaves the frame. -/
theorem sameFrame_enterRing {assertion : Assertion} {t t' : PageTable} {p : PageId}
    {layer : PageLayer} (h : t.enterRing assertion p layer = .ok t') : SameFrame t t' := by
  rcases enterRing_cases h with ⟨_, rfl⟩ | ⟨_, _, _, _, _, _, rfl⟩
  · exact .refl _
  · exact ⟨rfl, rfl, rfl, rfl, rfl, fun _ => rfl⟩

/-- Which pages there are does not change when one enters the ring. -/
theorem SameLayers.numbered {t t' : PageTable} (h : SameLayers t t') (hn : t.Numbered) :
    t'.Numbered := by
  have hsome : ∀ q, (t'.meta? q).isSome = (t.meta? q).isSome := fun q => by
    simpa only [layer?, Option.isSome_map] using congrArg Option.isSome (h.layer q)
  exact ⟨by rw [h.size]; exact hn.small, fun q => by rw [hsome, h.size]; exact hn.pages q⟩

/-- A page that enters the ring as it is made. -/
theorem Ringed.enterRing {assertion : Assertion} {t t' : PageTable} {p : PageId}
    {entry : PageTableEntry} {capacity : Option SizeT} (h : t.Ringed capacity)
    (hp : t.meta? p = none) (hptr : entry.metadata.ringNodePtr = none)
    (call : (t.withEntry p entry).enterRing assertion p entry.metadata.pageLayer = .ok t') :
    t'.Ringed capacity := by
  have hm : (t.withEntry p entry).meta? p = some entry.metadata := by
    rw [meta?_withEntry, if_pos rfl]
  cases capacity with
  | none =>
    have hnone : t.localCacheRing = none := h
    rw [enterRing_skip _ _ _ (.inl (by exact hnone))] at call
    cases call
    exact hnone
  | some capacity =>
    obtain ⟨⟨ring, l, hheld, hcap⟩, hlost⟩ := h
    have hentry := hheld.withEntry hp hptr
    have hcensus := census_withEntry entry hp isLost
    change (t.withEntry p entry).lost = t.lost + _ at hcensus
    rcases enterRing_cases call with ⟨hskip, rfl⟩ | ⟨ring₁, a, ring', hring, hlocal, hinsert, rfl⟩
    · have hlayer : entry.metadata.pageLayer ≠ .numaLocal := by
        apply hskip.resolve_left
        intro hnone
        rw [hentry.present] at hnone
        cases hnone
      refine ⟨⟨ring, l, hentry, hcap⟩, ?_⟩
      rw [hcensus, hlost]
      simp [isLost, hlayer]
    · obtain rfl : ring = ring₁ := Option.some.inj (hentry.present.symm.trans hring)
      obtain ⟨hheld', hcap'⟩ := hentry.enter hm hptr hlocal hinsert
      refine ⟨⟨ring', _, hheld', hcap'.trans hcap⟩, ?_⟩
      have hstore := ((t.withEntry p entry).withRing ring').census_store p
        (.setRingNode (some a)) isLost hm
      have hgain : isLost entry.metadata = true := by simp [isLost, hlocal, hptr]
      have hnode : isLost (entry.metadata.setRingNode (some a)) = false := by
        simp [isLost]
      rw [hgain, hnode, census_withRing] at hstore
      rw [hgain] at hcensus
      simp only [if_true, Bool.false_eq_true, if_false] at hstore hcensus
      unfold lost at hcensus hlost ⊢
      omega

/-- **The step lemma of the loop**: one more page, in its layer. -/
theorem Filled.fillPage {t₀ : PageTable} {alloc : Allocation} {layer : PageLayer} {s s' : Filling}
    (h : Filled t₀ s) (call : s.fillPage alloc layer = .ok s') :
    Filled t₀ s' ∧ s'.pageTable.serverConfig = s.pageTable.serverConfig ∧
      (∀ l, s'.pageTable.population l = s.pageTable.population l + if l = layer then 1 else 0) ∧
      s'.pageTable.table.size = s.pageTable.table.size + 1 := by
  have hp : s.pageTable.meta? s.currentIndex = none := by
    rw [← Option.not_isSome_iff_eq_none, h.numbered.pages, h.index]
    exact Nat.lt_irrefl _
  have hnotMem := notMem_of_meta? hp
  unfold Filling.fillPage at call
  dsimp only at call
  split at call
  · cases call
  next hroom =>
    obtain ⟨t, henter, call⟩ := bind_eq_ok.mp call
    cases call
    generalize hentry : (⟨alloc.base layer + s.offsetPages layer * pageSize,
      .new layer (alloc.now s.currentIndex) (alloc.rawAccessCnt s.currentIndex)⟩ : PageTableEntry) =
        entry at henter
    have hlayer : entry.metadata.pageLayer = layer := by rw [← hentry]; rfl
    have hptr : entry.metadata.ringNodePtr = none := by rw [← hentry]; rfl
    replace henter : (s.pageTable.withEntry s.currentIndex entry).enterRing .fillInsert
        s.currentIndex entry.metadata.pageLayer = .ok t := by
      rw [hlayer]
      exact henter
    have hsame := sameLayers_enterRing henter
    have hsize := size_withEntry entry hp
    have hindex := h.index
    refine ⟨⟨?_, ?_, h.ringed.enterRing hp hptr henter, h.frame.trans ?_⟩, hsame.serverConfig,
      ?_, ?_⟩
    · rw [hsame.size, hsize, SizeT.toNat_succ (by omega), hindex]
    · apply hsame.numbered
      constructor
      · rw [hsize]
        omega
      · intro q
        rw [meta?_withEntry, hsize]
        by_cases hq : q = s.currentIndex
        · rw [if_pos hq, hq, hindex]
          simp
        · have hne : q.toNat ≠ s.currentIndex.toNat := by
            intro heq
            exact hq (UInt64.toNat_inj.mp heq)
          rw [if_neg hq, h.numbered.pages]
          omega
    · exact (show SameFrame s.pageTable (s.pageTable.withEntry s.currentIndex entry) from
        ⟨rfl, rfl, rfl, rfl, rfl, fun _ => rfl⟩).trans (sameFrame_enterRing henter)
    · intro l
      have hcensus := census_withEntry entry hp (·.pageLayer = l)
      rw [hsame.population]
      unfold population
      rw [hcensus, hlayer]
      by_cases hl : l = layer
      · simp [hl]
      · simp [hl, Ne.symm hl]
    · rw [hsame.size, hsize]

/-- The loop adds its pages. -/
theorem Filled.fillPages {t₀ : PageTable} {alloc : Allocation} {layer : PageLayer} {count : Nat} :
    ∀ {s s' : Filling}, Filled t₀ s → s.fillPages alloc layer count = .ok s' →
      Filled t₀ s' ∧ s'.pageTable.serverConfig = s.pageTable.serverConfig ∧
      (∀ l, s'.pageTable.population l =
        s.pageTable.population l + if l = layer then count else 0) ∧
      s'.pageTable.table.size = s.pageTable.table.size + count := by
  induction count with
  | zero =>
    intro s s' h call
    cases call
    exact ⟨h, rfl, fun l => by rw [ite_self]; rfl, rfl⟩
  | succ count ih =>
    intro s s' h call
    obtain ⟨s₁, hpage, call⟩ := bind_eq_ok.mp call
    obtain ⟨h₁, hconfig₁, hpop₁, hsize₁⟩ := h.fillPage hpage
    obtain ⟨h', hconfig, hpop, hsize⟩ := ih h₁ call
    refine ⟨h', hconfig.trans hconfig₁, ?_, by omega⟩
    intro l
    rw [hpop, hpop₁]
    split <;> omega

/-! ## The clients -/

/-- The `count +=` after the pages of a layer. -/
theorem Filled.addCount {t₀ : PageTable} {s : Filling} (h : Filled t₀ s) (layer : PageLayer)
    (count : SizeT) :
    Filled t₀ { s with pageTable :=
      { s.pageTable with
        serverConfig := s.pageTable.serverConfig.modify
          (fun info => { info with count := info.count + count }) layer } } := by
  refine ⟨h.index, ⟨h.numbered.small, h.numbered.pages⟩, ?_, h.frame.trans ?_⟩
  · have hringed := h.ringed
    cases hcap : t₀.localCacheRing.map (·.capacity) with
    | none =>
      rw [hcap] at hringed
      exact hringed
    | some capacity =>
      rw [hcap] at hringed
      obtain ⟨⟨ring, l, hheld, hcap'⟩, hlost⟩ := hringed
      exact ⟨⟨ring, l, hheld.congr rfl rfl, hcap'⟩, hlost⟩
  · refine ⟨rfl, rfl, rfl, rfl, ServerMemoryConfig.numTiers_modify .., ?_⟩
    intro l
    show ((s.pageTable.serverConfig.modify _ layer).layer l).capacity = _
    rw [ServerMemoryConfig.layer_modify]
    split <;> rfl

/-- Filling a layer keeps the table filled, whatever the counters were. -/
theorem Filled.layer {t₀ : PageTable} {alloc : Allocation} {layer : PageLayer} {count : SizeT}
    {s s' : Filling} (h : Filled t₀ s) (call : s.fillLayer alloc layer count = .ok s') :
    Filled t₀ s' := by
  obtain ⟨s₁, hpages, call⟩ := bind_eq_ok.mp call
  cases call
  exact (h.fillPages hpages).1.addCount layer count

/-- So do the clients, on a server of any number of tiers. -/
theorem Filled.clients {t₀ : PageTable} {alloc : Allocation} {clients : List ClientConfig} :
    ∀ {s s' : Filling}, Filled t₀ s → clients.foldlM (Filling.fillClient alloc) s = .ok s' →
      Filled t₀ s' := by
  induction clients with
  | nil =>
    intro s s' h call
    cases call
    exact h
  | cons client clients ih =>
    intro s s' h call
    rw [List.foldlM_cons] at call
    obtain ⟨s₁, hclient, call⟩ := bind_eq_ok.mp call
    apply ih _ call
    unfold Filling.fillClient at hclient
    split at hclient
    · obtain ⟨s₂, hlocal, hpmem⟩ := bind_eq_ok.mp hclient
      exact (h.layer hlocal).layer hpmem
    · split at hclient
      · obtain ⟨s₂, hlocal, hclient⟩ := bind_eq_ok.mp hclient
        obtain ⟨s₃, hremote, hpmem⟩ := bind_eq_ok.mp hclient
        exact ((h.layer hlocal).layer hremote).layer hpmem
      · cases hclient
        exact h

/-- Filling a layer keeps the counters in step with the census. -/
theorem Filled.fillLayer {t₀ : PageTable} {alloc : Allocation} {layer : PageLayer} {count : SizeT}
    {s s' : Filling} (h : Filled t₀ s) (htally : s.pageTable.Tallied)
    (call : s.fillLayer alloc layer count = .ok s') :
    Filled t₀ s' ∧ s'.pageTable.Tallied ∧
      ∀ l, s'.pageTable.population l =
        s.pageTable.population l + if l = layer then count.toNat else 0 := by
  have h' := h.layer call
  obtain ⟨s₁, hpages, call⟩ := bind_eq_ok.mp call
  cases call
  obtain ⟨h₁, hconfig, hpop, _⟩ := h.fillPages hpages
  refine ⟨h', fun l => ?_, hpop⟩
  show (((s₁.pageTable.serverConfig.modify _ layer).layer l).count).toNat =
    s₁.pageTable.population l
  have hle := population_le s₁.pageTable l
  have hsmall := h₁.numbered.small
  have hcount := htally l
  rw [ServerMemoryConfig.layer_modify, hpop, hconfig]
  rw [hpop] at hle
  split
  next heq =>
    rw [if_pos heq] at hle
    rw [SizeT.toNat_add (by omega), hcount]
  next => exact hcount

/-- One client's pages. -/
theorem Filled.fillClient {t₀ : PageTable} {alloc : Allocation} {client : ClientConfig}
    {s s' : Filling} (h : Filled t₀ s) (htally : s.pageTable.Tallied)
    (htiers : t₀.serverConfig.numTiers = 2 ∨ t₀.serverConfig.numTiers = 3)
    (call : s.fillClient alloc client = .ok s') :
    Filled t₀ s' ∧ s'.pageTable.Tallied ∧
      ∀ l, s'.pageTable.population l =
        s.pageTable.population l + client.share t₀.serverConfig.numTiers l := by
  have hnum := h.frame.numTiers
  unfold Filling.fillClient at call
  rw [hnum] at call
  rcases htiers with htwo | hthree
  · rw [if_pos htwo] at call
    obtain ⟨s₁, hlocal, hpmem⟩ := bind_eq_ok.mp call
    obtain ⟨h₁, htally₁, hpop₁⟩ := h.fillLayer htally hlocal
    obtain ⟨h₂, htally₂, hpop₂⟩ := h₁.fillLayer htally₁ hpmem
    refine ⟨h₂, htally₂, ?_⟩
    intro l
    rw [hpop₂, hpop₁, htwo]
    cases l <;> simp [ClientConfig.share, tierIndex]
  · rw [if_neg (by omega), if_pos hthree] at call
    obtain ⟨s₁, hlocal, call⟩ := bind_eq_ok.mp call
    obtain ⟨s₂, hremote, hpmem⟩ := bind_eq_ok.mp call
    obtain ⟨h₁, htally₁, hpop₁⟩ := h.fillLayer htally hlocal
    obtain ⟨h₂, htally₂, hpop₂⟩ := h₁.fillLayer htally₁ hremote
    obtain ⟨h₃, htally₃, hpop₃⟩ := h₂.fillLayer htally₂ hpmem
    refine ⟨h₃, htally₃, ?_⟩
    intro l
    rw [hpop₃, hpop₂, hpop₁, hthree]
    cases l <;> simp [ClientConfig.share, tierIndex]

/-- All clients' pages. -/
theorem Filled.fillClients {t₀ : PageTable} {alloc : Allocation} {clients : List ClientConfig}
    (htiers : t₀.serverConfig.numTiers = 2 ∨ t₀.serverConfig.numTiers = 3) :
    ∀ {s s' : Filling}, Filled t₀ s → s.pageTable.Tallied →
      clients.foldlM (Filling.fillClient alloc) s = .ok s' →
      Filled t₀ s' ∧ s'.pageTable.Tallied ∧
        ∀ l, s'.pageTable.population l =
          s.pageTable.population l + demand t₀.serverConfig.numTiers clients l := by
  induction clients with
  | nil =>
    intro s s' h htally call
    cases call
    exact ⟨h, htally, fun l => rfl⟩
  | cons client clients ih =>
    intro s s' h htally call
    rw [List.foldlM_cons] at call
    obtain ⟨s₁, hclient, call⟩ := bind_eq_ok.mp call
    obtain ⟨h₁, htally₁, hpop₁⟩ := h.fillClient htally htiers hclient
    obtain ⟨h', htally', hpop⟩ := ih h₁ htally₁ call
    refine ⟨h', htally', ?_⟩
    intro l
    rw [hpop, hpop₁]
    simp only [demand, List.map_cons, List.sum_cons, Nat.add_assoc]

/-- **What `initPageTable` leaves**, from a server that holds no pages yet. -/
structure Initial (clients : List ClientConfig) (server : ServerMemoryConfig) (ring : Bool)
    (t : PageTable) : Prop where
  tallied : t.Tallied
  numbered : t.Numbered
  population : ∀ layer, t.population layer = demand server.numTiers clients layer
  ringed : t.Ringed (if ring then some (new clients server ring).localPageLoad else none)
  frame : SameFrame (new clients server ring) t

section New

variable (clients : List ClientConfig) (server : ServerMemoryConfig) (ring : Bool)

theorem ring_capacity_new : (new clients server ring).localCacheRing.map (·.capacity) =
    if ring then some (new clients server ring).localPageLoad else none := by
  cases ring <;> rfl

/-- The empty table. -/
theorem filled_new : Filled (new clients server ring) { pageTable := new clients server ring } := by
  have hnumbered : (new clients server ring).Numbered := by
    constructor
    · exact Nat.two_pow_pos 64
    · intro q
      constructor
      · intro hsome
        cases hsome
      · intro hlt
        cases hlt
  refine ⟨rfl, hnumbered, ?_, .refl _⟩
  rw [ring_capacity_new]
  cases ring with
  | false => rfl
  | true =>
    have hheld : (new clients server true).Held (.new (new clients server true).localPageLoad) [] :=
      ⟨rfl, ClockRing.reads_new _, nofun, fun p m a hm => (by cases hm), rfl⟩
    exact ⟨⟨_, [], hheld, rfl⟩, rfl⟩

theorem tallied_new (empty : ∀ layer, (server.layer layer).count = 0) :
    (new clients server ring).Tallied := by
  intro layer
  show (server.layer layer).count.toNat = 0
  rw [empty]
  rfl

end New

theorem initPageTable_spec {clients : List ClientConfig} {server : ServerMemoryConfig} {ring : Bool}
    {alloc : Allocation} {t : PageTable} (htiers : server.numTiers = 2 ∨ server.numTiers = 3)
    (empty : ∀ layer, (server.layer layer).count = 0)
    (call : (new clients server ring).initPageTable alloc = .ok t) :
    Initial clients server ring t := by
  obtain ⟨s, hfold, call⟩ := bind_eq_ok.mp call
  cases call
  have hring := ring_capacity_new clients server ring
  have hstart := filled_new clients server ring
  have htally := tallied_new clients server ring empty
  obtain ⟨h, htally', hpop'⟩ := hstart.fillClients htiers htally hfold
  constructor
  case tallied => exact htally'
  case numbered => exact h.numbered
  case population =>
    intro layer
    rw [hpop' layer]
    exact Nat.zero_add _
  case ringed => exact hring ▸ h.ringed
  case frame => exact h.frame

/-- The pages of every table that was filled, and where its scan starts. -/
theorem numbered_of_initPageTable {clients : List ClientConfig} {server : ServerMemoryConfig}
    {ring : Bool} {alloc : Allocation} {t : PageTable}
    (call : (new clients server ring).initPageTable alloc = .ok t) :
    t.Numbered ∧ t.scanIndex = 0 := by
  obtain ⟨s, hfold, call⟩ := bind_eq_ok.mp call
  cases call
  have h := (filled_new clients server ring).clients hfold
  exact ⟨h.numbered, h.frame.scanIndex⟩

end PageTable

end MemoryTiering
