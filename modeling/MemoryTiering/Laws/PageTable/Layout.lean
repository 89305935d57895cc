import MemoryTiering.Laws.PageTable.Run

/-!
# The layout of a filled table

Filling the table writes one page after the other, so what it has written is a list: the layers of
the pages, by page id (`layout`). The list determines every entry but for its ring node, and the
contents of the ring (`LaidOut`). Each loop appends to it, and `initPageTable_layout` says what the
server starts with.
-/

set_option autoImplicit false

namespace MemoryTiering

open Fallible Pointer

/-- The layers of one client's pages, in the order they are made. -/
def ClientConfig.layers (client : ClientConfig) (numTiers : Nat) : List PageLayer :=
  List.replicate (client.share numTiers .numaLocal) .numaLocal ++
    List.replicate (client.share numTiers .numaRemote) .numaRemote ++
    List.replicate (client.share numTiers .pmem) .pmem

/-- The layers of all pages, by page id. -/
def layout (numTiers : Nat) (clients : List ClientConfig) : List PageLayer :=
  clients.flatMap fun client => client.layers numTiers

/-- The ids of the NUMA-local pages, in increasing order. -/
def localIds (laid : List PageLayer) : List PageId :=
  ((List.range laid.length).filter fun k => laid[k]? = some .numaLocal).map UInt64.ofNat

theorem localIds_snoc (laid : List PageLayer) (layer : PageLayer) :
    localIds (laid ++ [layer]) =
      localIds laid ++ if layer = .numaLocal then [UInt64.ofNat laid.length] else [] := by
  unfold localIds
  rw [List.length_append, List.length_singleton, List.range_succ, List.filter_append,
    List.map_append]
  congr 1
  · congr 1
    apply List.filter_congr
    intro k hk
    rw [List.getElem?_append_left (List.mem_range.mp hk)]
  · rw [List.filter_singleton, List.getElem?_concat_length]
    by_cases hlayer : layer = .numaLocal
    · simp [hlayer]
    · simp [hlayer]

namespace PageTable

/-- A page's entry, but for its ring node. -/
def slot? (t : PageTable) (p : PageId) : Option PageTableEntry :=
  (t.table.lookup p).map fun e => { e with metadata := e.metadata.setRingNode none }

/-- The entry a page is made with. -/
def Allocation.entry (alloc : Allocation) (laid : List PageLayer) (p : PageId) :
    Option PageTableEntry :=
  laid[p.toNat]?.map fun layer =>
    { pageAddress := alloc.base layer + UInt64.ofNat ((laid.take p.toNat).count layer) * pageSize
      metadata := .new layer (alloc.now p) (alloc.rawAccessCnt p) }

/-- What filling has written so far. -/
structure LaidOut (alloc : Allocation) (s : Filling) (laid : List PageLayer) : Prop where
  index : s.currentIndex.toNat = laid.length
  entry : ∀ p, s.pageTable.slot? p = alloc.entry laid p
  offset : ∀ layer, s.offsetPages layer = UInt64.ofNat (laid.count layer)
  ring : ∀ ring, s.pageTable.localCacheRing = some ring →
    ∃ l, ring.Reads l ∧ l.map ring.pageOf = localIds laid

section Entries

variable {t t' : PageTable} {p : PageId}

theorem slot?_store_setRingNode (t : PageTable) (p : PageId) (node : Option Addr) (q : PageId) :
    (t.store p (.setRingNode node)).slot? q = t.slot? q := by
  unfold slot? store
  rw [Table.lookup_update, Option.map_map]
  congr 1
  funext e
  simp only [Function.comp_apply]
  split <;> rfl

theorem slot?_withEntry (t : PageTable) (p : PageId) (entry : PageTableEntry) (q : PageId) :
    (t.withEntry p entry).slot? q =
      if q = p then some { entry with metadata := entry.metadata.setRingNode none }
      else t.slot? q := by
  unfold slot? withEntry
  by_cases hq : q = p
  · subst hq
    rw [AList.lookup_insert, if_pos rfl, Option.map_some]
  · rw [AList.lookup_insert_ne hq, if_neg hq]

/-- Entering the ring writes nothing but the node. -/
theorem slot?_enterRing {assertion : Assertion} {layer : PageLayer}
    (h : t.enterRing assertion p layer = .ok t') (q : PageId) : t'.slot? q = t.slot? q := by
  rcases enterRing_cases h with ⟨_, rfl⟩ | ⟨_, _, ring', _, _, _, rfl⟩
  · rfl
  · rw [slot?_store_setRingNode]
    rfl

/-- A page that is made next to the others. -/
theorem Allocation.entry_snoc (alloc : Allocation) (laid : List PageLayer) (layer : PageLayer)
    (q : PageId) :
    alloc.entry (laid ++ [layer]) q =
      if q.toNat = laid.length then
        some
          { pageAddress := alloc.base layer + UInt64.ofNat (laid.count layer) * pageSize
            metadata := .new layer (alloc.now q) (alloc.rawAccessCnt q) }
      else alloc.entry laid q := by
  unfold Allocation.entry
  rcases Nat.lt_trichotomy q.toNat laid.length with hlt | heq | hgt
  · rw [if_neg hlt.ne, List.getElem?_append_left hlt, List.take_append_of_le_length hlt.le]
  · rw [if_pos heq, heq, List.getElem?_concat_length, List.take_left]
    rfl
  · have hout : (laid ++ [layer]).length ≤ q.toNat := by
      rw [List.length_append, List.length_singleton]
      exact hgt
    rw [if_neg hgt.ne', List.getElem?_eq_none hout, List.getElem?_eq_none hgt.le, Option.map_none,
      Option.map_none]

end Entries

/-! ## The loops -/

section Loops

variable {t₀ : PageTable} {alloc : Allocation} {s s' : Filling} {laid : List PageLayer}
  {layer : PageLayer}

/-- **The step lemma of the loop**: one entry more, and the page enters the ring behind the others
if it is NUMA-local. -/
theorem LaidOut.fillPage (h : LaidOut alloc s laid) (filled : Filled t₀ s)
    (call : s.fillPage alloc layer = .ok s') : LaidOut alloc s' (laid ++ [layer]) := by
  have hp : s.pageTable.meta? s.currentIndex = none := by
    rw [← Option.not_isSome_iff_eq_none, filled.numbered.pages, filled.index]
    exact Nat.lt_irrefl _
  have hnotMem := notMem_of_meta? hp
  unfold Filling.fillPage at call
  dsimp only at call
  split at call
  · cases call
  next hroom =>
    obtain ⟨t, henter, call⟩ := bind_eq_ok.mp call
    cases call
    replace henter : (s.pageTable.withEntry s.currentIndex
        ⟨alloc.base layer + s.offsetPages layer * pageSize,
          .new layer (alloc.now s.currentIndex) (alloc.rawAccessCnt s.currentIndex)⟩).enterRing
            .fillInsert s.currentIndex layer = .ok t := henter
    have hindex : (s.currentIndex + 1).toNat = laid.length + 1 := by
      have hsize := filled.index
      rw [SizeT.toNat_succ (by omega), h.index]
    constructor
    case index => rw [List.length_append, List.length_singleton, hindex]
    case entry =>
      intro q
      have hwith := slot?_withEntry s.pageTable s.currentIndex
        ⟨alloc.base layer + s.offsetPages layer * pageSize,
          .new layer (alloc.now s.currentIndex) (alloc.rawAccessCnt s.currentIndex)⟩ q
      rw [alloc.entry_snoc, ← h.offset, ← h.entry]
      refine (slot?_enterRing henter q).trans (hwith.trans ?_)
      by_cases hq : q = s.currentIndex
      · rw [if_pos hq, if_pos (by rw [hq, h.index]), hq]
        rfl
      · have hne : q.toNat ≠ laid.length := by
          rw [← h.index]
          intro heq
          exact hq (UInt64.toNat_inj.mp heq)
        rw [if_neg hq, if_neg hne]
    case offset =>
      intro l
      rw [List.count_append, List.count_singleton]
      dsimp only
      by_cases hl : l = layer
      · rw [if_pos hl, hl, beq_self_eq_true, if_pos rfl, h.offset, UInt64.ofNat_add]
        rfl
      · rw [if_neg hl, h.offset, if_neg (by simpa using Ne.symm hl), Nat.add_zero]
    case ring =>
      intro ring hring
      rw [localIds_snoc]
      rcases enterRing_cases henter with ⟨hskip, rfl⟩ | ⟨ring₀, a, ring', hring₀, hlocal, hins, rfl⟩
      · have hlayer : layer ≠ .numaLocal := by
          apply hskip.resolve_left
          intro hnone
          rw [hring] at hnone
          cases hnone
        rw [if_neg hlayer, List.append_nil]
        exact h.ring ring hring
      · obtain rfl : ring' = ring := Option.some.inj hring
        obtain ⟨l, hreads, hpages⟩ := h.ring ring₀ hring₀
        have hreads' := hreads.insert_pages hins
        obtain ⟨hreads', hpages'⟩ := hreads'
        refine ⟨l ++ [a], hreads', ?_⟩
        rw [hpages', hpages, if_pos hlocal, ← h.index, UInt64.ofNat_toNat]

/-- The pages of one layer. -/
theorem LaidOut.fillPages {count : Nat} :
    ∀ {s s' : Filling} {laid : List PageLayer}, LaidOut alloc s laid → Filled t₀ s →
      s.fillPages alloc layer count = .ok s' →
      LaidOut alloc s' (laid ++ List.replicate count layer) := by
  induction count with
  | zero =>
    intro s s' laid h _ call
    cases call
    rwa [List.replicate_zero, List.append_nil]
  | succ count ih =>
    intro s s' laid h filled call
    obtain ⟨s₁, hpage, call⟩ := bind_eq_ok.mp call
    have h₁ := h.fillPage filled hpage
    have h' := ih h₁ (filled.fillPage hpage).1 call
    rwa [List.append_assoc, List.singleton_append, ← List.replicate_succ] at h'

/-- The count that goes up afterwards is no part of the layout. -/
theorem LaidOut.fillLayer {count : SizeT} (h : LaidOut alloc s laid) (filled : Filled t₀ s)
    (call : s.fillLayer alloc layer count = .ok s') :
    LaidOut alloc s' (laid ++ List.replicate count.toNat layer) := by
  obtain ⟨s₁, hpages, call⟩ := bind_eq_ok.mp call
  cases call
  have h₁ := h.fillPages filled hpages
  exact ⟨h₁.index, h₁.entry, h₁.offset, h₁.ring⟩

/-- One client's pages. -/
theorem LaidOut.fillClient {client : ClientConfig} (h : LaidOut alloc s laid)
    (filled : Filled t₀ s) (htally : s.pageTable.Tallied)
    (htiers : t₀.serverConfig.numTiers = 2 ∨ t₀.serverConfig.numTiers = 3)
    (call : s.fillClient alloc client = .ok s') :
    LaidOut alloc s' (laid ++ client.layers t₀.serverConfig.numTiers) := by
  have hnum := filled.frame.numTiers
  unfold Filling.fillClient at call
  rw [hnum] at call
  rcases htiers with htwo | hthree
  · rw [if_pos htwo] at call
    obtain ⟨s₁, hlocal, hpmem⟩ := bind_eq_ok.mp call
    obtain ⟨filled₁, _⟩ := filled.fillLayer htally hlocal
    have h₂ := (h.fillLayer filled hlocal).fillLayer filled₁ hpmem
    rw [List.append_assoc] at h₂
    rw [htwo]
    simpa only [ClientConfig.layers, ClientConfig.share, tierIndex, Nat.reduceEqDiff, if_false,
      Option.map_some, Option.map_none, Option.getD_some, Option.getD_none, List.replicate_zero,
      List.append_nil] using h₂
  · rw [if_neg (by omega), if_pos hthree] at call
    obtain ⟨s₁, hlocal, call⟩ := bind_eq_ok.mp call
    obtain ⟨s₂, hremote, hpmem⟩ := bind_eq_ok.mp call
    obtain ⟨filled₁, htally₁, _⟩ := filled.fillLayer htally hlocal
    obtain ⟨filled₂, _⟩ := filled₁.fillLayer htally₁ hremote
    have h₃ := ((h.fillLayer filled hlocal).fillLayer filled₁ hremote).fillLayer filled₂ hpmem
    rw [List.append_assoc, List.append_assoc, ← List.append_assoc (List.replicate _ _)] at h₃
    rw [hthree]
    simpa only [ClientConfig.layers, ClientConfig.share, tierIndex, if_true, Option.map_some,
      Option.getD_some] using h₃

/-- All clients' pages. -/
theorem LaidOut.fillClients {clients : List ClientConfig}
    (htiers : t₀.serverConfig.numTiers = 2 ∨ t₀.serverConfig.numTiers = 3) :
    ∀ {s s' : Filling} {laid : List PageLayer}, LaidOut alloc s laid → Filled t₀ s →
      s.pageTable.Tallied → clients.foldlM (Filling.fillClient alloc) s = .ok s' →
      LaidOut alloc s' (laid ++ layout t₀.serverConfig.numTiers clients) := by
  induction clients with
  | nil =>
    intro s s' laid h _ _ call
    cases call
    rwa [layout, List.flatMap_nil, List.append_nil]
  | cons client clients ih =>
    intro s s' laid h filled htally call
    rw [List.foldlM_cons] at call
    obtain ⟨s₁, hclient, call⟩ := bind_eq_ok.mp call
    obtain ⟨filled₁, htally₁, _⟩ := filled.fillClient htally htiers hclient
    have h' := ih (h.fillClient filled htally htiers hclient) filled₁ htally₁ call
    rwa [List.append_assoc] at h'

end Loops

/-! ## The table the server starts with -/

/-- **The layout of a filled table**: as many pages as the clients ask for, each with the entry its
id determines, and the NUMA-local ones in the ring, in order. -/
structure Laid (clients : List ClientConfig) (numTiers : Nat) (alloc : Allocation)
    (t : PageTable) : Prop where
  size : t.table.size = (layout numTiers clients).length
  entry : ∀ p, t.slot? p = alloc.entry (layout numTiers clients) p
  ring : ∀ ring, t.localCacheRing = some ring → ring.pages = localIds (layout numTiers clients)

theorem initPageTable_layout {clients : List ClientConfig} {server : ServerMemoryConfig}
    {ring : Bool} {alloc : Allocation} {t : PageTable}
    (htiers : server.numTiers = 2 ∨ server.numTiers = 3)
    (empty : ∀ layer, (server.layer layer).count = 0)
    (call : (new clients server ring).initPageTable alloc = .ok t) :
    Laid clients server.numTiers alloc t := by
  obtain ⟨s, hfold, call⟩ := bind_eq_ok.mp call
  cases call
  have hstart : LaidOut alloc { pageTable := new clients server ring } [] := by
    constructor
    case index => rfl
    case entry => exact fun _ => rfl
    case offset => exact fun _ => rfl
    case ring =>
      intro r hr
      cases ring with
      | false => cases hr
      | true =>
        cases hr
        exact ⟨[], ClockRing.reads_new _, rfl⟩
  have filled := filled_new clients server ring
  have htally := tallied_new clients server ring empty
  have h := hstart.fillClients htiers filled htally hfold
  obtain ⟨filled', _⟩ := filled.fillClients htiers htally hfold
  constructor
  case size => exact filled'.index.symm.trans h.index
  case entry => exact h.entry
  case ring =>
    intro r hr
    obtain ⟨l, hreads, hpages⟩ := h.ring r hr
    rw [ClockRing.pages, hreads.nodes_eq, hpages]
    rfl

end PageTable

end MemoryTiering
