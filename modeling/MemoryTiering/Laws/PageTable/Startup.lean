import MemoryTiering.Laws.PageTable.Run

/-!
# The table can be filled

`initPageTable` returns whenever the clients ask for fewer than `2 ^ 64` pages in all: the map has
room for each page, and a ring of the clients' NUMA-local total has room for each NUMA-local one.
Filling keeps room for the pages that are still to come (`Room`).
-/

set_option autoImplicit false

namespace MemoryTiering

open Fallible Pointer

namespace PageTable

/-- The pages of all layers. -/
def total (pages : PageLayer → Nat) : Nat := pages .numaLocal + pages .numaRemote + pages .pmem

/-- The pages of one layer. -/
def only (layer : PageLayer) (count : Nat) (l : PageLayer) : Nat := if l = layer then count else 0

/-- There is room for more pages, in the map and in the ring. -/
structure Room (t₀ : PageTable) (s : Filling) (pages : PageLayer → Nat) : Prop where
  map : s.pageTable.table.size + total pages < 2 ^ 64
  ring : ∀ ring, t₀.localCacheRing = some ring →
    s.pageTable.population .numaLocal + pages .numaLocal ≤ ring.capacity.toNat

section Filling

variable {t₀ : PageTable} {s s' : Filling} {pages now later : PageLayer → Nat}

/-- Room for the pages that come first. -/
theorem Room.first (h : Room t₀ s pages) (hpages : ∀ l, pages l = now l + later l) :
    Room t₀ s now := by
  have hlocal := hpages .numaLocal
  have hremote := hpages .numaRemote
  have hpmem := hpages .pmem
  constructor
  · have hmap := h.map
    unfold total at hmap ⊢
    omega
  · intro ring hring
    have hroom := h.ring ring hring
    omega

/-- Room for the rest, once the first pages are there. -/
theorem Room.next (h : Room t₀ s pages) (hpages : ∀ l, pages l = now l + later l)
    (hpop : ∀ l, s'.pageTable.population l = s.pageTable.population l + now l) :
    Room t₀ s' later := by
  have hlocal := hpages .numaLocal
  have hremote := hpages .numaRemote
  have hpmem := hpages .pmem
  constructor
  · have hmap := h.map
    rw [← population_sum] at hmap ⊢
    rw [hpop, hpop, hpop]
    unfold total at hmap ⊢
    omega
  · intro ring hring
    have hroom := h.ring ring hring
    rw [hpop]
    omega

end Filling

/-- A new page enters a ring with room. -/
theorem Ringed.enterRing_returns {t : PageTable} {p : PageId} (entry : PageTableEntry)
    {capacity : Option SizeT} (h : t.Ringed capacity) (hp : t.meta? p = none)
    (hptr : entry.metadata.ringNodePtr = none) (assertion : Assertion)
    (room : ∀ c, capacity = some c → entry.metadata.pageLayer = .numaLocal →
      t.population .numaLocal < c.toNat) :
    ∃ t', (t.withEntry p entry).enterRing assertion p entry.metadata.pageLayer = .ok t' := by
  by_cases hlayer : entry.metadata.pageLayer = .numaLocal
  · cases capacity with
    | none =>
      have hnone : (t.withEntry p entry).localCacheRing = none := h
      exact ⟨_, enterRing_skip _ _ _ (.inl hnone)⟩
    | some c =>
      obtain ⟨⟨ring, l, hheld, rfl⟩, hlost⟩ := h
      have hlength := hheld.local_eq
      rw [hlost, Nat.add_zero] at hlength
      have hroom := room ring.capacity rfl hlayer
      rcases hheld.insert_cases p with ⟨full, _⟩ | ⟨_, a, ring', hinsert⟩
      · omega
      · have hring := (hheld.withEntry hp hptr).present
        rw [hlayer]
        exact ⟨_, enterRing_enter assertion hring hinsert⟩
  · exact ⟨_, enterRing_skip _ _ _ (.inr hlayer)⟩

section Filling

variable {t₀ : PageTable} {s : Filling} {layer : PageLayer}

/-- **One more page**, if there is room for it. -/
theorem Filled.fillPage_returns (h : Filled t₀ s) (room : Room t₀ s (only layer 1))
    (alloc : Allocation) : ∃ s', s.fillPage alloc layer = .ok s' := by
  have hmap : ¬ 2 ^ 64 ≤ s.pageTable.table.size + 1 := by
    have hroom := room.map
    cases layer <;> simp [total, only] at hroom <;> omega
  have hp : s.pageTable.meta? s.currentIndex = none := by
    rw [← Option.not_isSome_iff_eq_none, h.numbered.pages, h.index]
    exact Nat.lt_irrefl _
  have hplaces : ∀ c, t₀.localCacheRing.map (·.capacity) = some c → layer = .numaLocal →
      s.pageTable.population .numaLocal < c.toNat := by
    intro c hc hlayer
    obtain ⟨ring, hring, rfl⟩ := Option.map_eq_some_iff.mp hc
    have hroom := room.ring ring hring
    rw [only, if_pos hlayer.symm] at hroom
    omega
  let entry : PageTableEntry :=
    ⟨alloc.base layer + s.offsetPages layer * pageSize,
      .new layer (alloc.now s.currentIndex) (alloc.rawAccessCnt s.currentIndex)⟩
  obtain ⟨t', henter⟩ := h.ringed.enterRing_returns entry hp rfl .fillInsert hplaces
  have hinsert : (s.pageTable.withEntry s.currentIndex entry).enterRing .fillInsert s.currentIndex
      layer = .ok t' := henter
  unfold withEntry at hinsert
  unfold Filling.fillPage
  dsimp only
  rw [if_neg hmap, if_neg (notMem_of_meta? hp), hinsert]
  exact ⟨_, rfl⟩

/-- **All pages of a layer.** -/
theorem Filled.fillPages_returns {count : Nat} (alloc : Allocation) :
    ∀ {s : Filling}, Filled t₀ s → Room t₀ s (only layer count) →
      ∃ s', s.fillPages alloc layer count = .ok s' := by
  induction count with
  | zero => exact fun _ _ => ⟨_, rfl⟩
  | succ count ih =>
    intro s h room
    have hsplit : ∀ l, only layer (count + 1) l = only layer 1 l + only layer count l := by
      intro l
      unfold only
      split <;> omega
    obtain ⟨s₁, hpage⟩ := h.fillPage_returns (room.first hsplit) alloc
    obtain ⟨h₁, _, hpop, _⟩ := h.fillPage hpage
    obtain ⟨s', hpages⟩ := ih h₁ (room.next hsplit hpop)
    refine ⟨s', ?_⟩
    unfold Filling.fillPages
    rw [hpage, ok_bind, hpages]

theorem Filled.fillLayer_returns {count : SizeT} (h : Filled t₀ s)
    (room : Room t₀ s (only layer count.toNat)) (alloc : Allocation) :
    ∃ s', s.fillLayer alloc layer count = .ok s' := by
  obtain ⟨s', hpages⟩ := h.fillPages_returns alloc room
  unfold Filling.fillLayer
  rw [hpages]
  exact ⟨_, rfl⟩

/-- Two layers, one after the other. -/
theorem Filled.fillClient_returns {client : ClientConfig} (h : Filled t₀ s)
    (htally : s.pageTable.Tallied)
    (htiers : t₀.serverConfig.numTiers = 2 ∨ t₀.serverConfig.numTiers = 3)
    (room : Room t₀ s (client.share t₀.serverConfig.numTiers)) (alloc : Allocation) :
    ∃ s', s.fillClient alloc client = .ok s' := by
  have hnum := h.frame.numTiers
  unfold Filling.fillClient
  rw [hnum]
  rcases htiers with htwo | hthree
  · rw [if_pos htwo]
    rw [htwo] at room
    have hsplit : ∀ l, client.share 2 l =
        only .numaLocal (client.tier 0).toNat l + only .pmem (client.tier 1).toNat l := by
      intro l
      cases l <;> simp [ClientConfig.share, tierIndex, only]
    obtain ⟨s₁, hlocal⟩ := h.fillLayer_returns (room.first hsplit) alloc
    obtain ⟨h₁, _, hpop⟩ := h.fillLayer htally hlocal
    obtain ⟨s', hpmem⟩ := h₁.fillLayer_returns (room.next hsplit hpop) alloc
    rw [hlocal, ok_bind, hpmem]
    exact ⟨s', rfl⟩
  · rw [if_neg (by omega), if_pos hthree]
    rw [hthree] at room
    have hsplit : ∀ l, client.share 3 l = only .numaLocal (client.tier 0).toNat l +
        (only .numaRemote (client.tier 1).toNat l + only .pmem (client.tier 2).toNat l) := by
      intro l
      cases l <;> simp [ClientConfig.share, tierIndex, only]
    obtain ⟨s₁, hlocal⟩ := h.fillLayer_returns (room.first hsplit) alloc
    obtain ⟨h₁, htally₁, hpop₁⟩ := h.fillLayer htally hlocal
    have room₁ := room.next hsplit hpop₁
    obtain ⟨s₂, hremote⟩ := h₁.fillLayer_returns (room₁.first fun _ => rfl) alloc
    obtain ⟨h₂, _, hpop₂⟩ := h₁.fillLayer htally₁ hremote
    obtain ⟨s', hpmem⟩ := h₂.fillLayer_returns (room₁.next (fun _ => rfl) hpop₂) alloc
    rw [hlocal, ok_bind, hremote, ok_bind, hpmem]
    exact ⟨s', rfl⟩

theorem Filled.fillClients_returns {clients : List ClientConfig}
    (htiers : t₀.serverConfig.numTiers = 2 ∨ t₀.serverConfig.numTiers = 3) (alloc : Allocation) :
    ∀ {s : Filling}, Filled t₀ s → s.pageTable.Tallied →
      Room t₀ s (demand t₀.serverConfig.numTiers clients) →
      ∃ s', clients.foldlM (Filling.fillClient alloc) s = .ok s' := by
  induction clients with
  | nil => exact fun _ _ _ => ⟨_, rfl⟩
  | cons client clients ih =>
    intro s h htally room
    have hsplit : ∀ l, demand t₀.serverConfig.numTiers (client :: clients) l =
        client.share t₀.serverConfig.numTiers l + demand t₀.serverConfig.numTiers clients l :=
      fun _ => rfl
    obtain ⟨s₁, hclient⟩ := h.fillClient_returns htally htiers
      (room.first hsplit) alloc
    obtain ⟨h₁, htally₁, hpop⟩ := h.fillClient htally htiers hclient
    rw [List.foldlM_cons, hclient, ok_bind]
    exact ih h₁ htally₁ (room.next hsplit hpop)

end Filling

/-- **`initPageTable` returns** when the clients ask for fewer than `2 ^ 64` pages in all. -/
theorem initPageTable_returns {clients : List ClientConfig} {server : ServerMemoryConfig}
    (ring : Bool) (alloc : Allocation) (htiers : server.numTiers = 2 ∨ server.numTiers = 3)
    (empty : ∀ layer, (server.layer layer).count = 0)
    (small : total (demand server.numTiers clients) < 2 ^ 64) :
    ∃ t, (new clients server ring).initPageTable alloc = .ok t := by
  have hlocal : demand server.numTiers clients .numaLocal < 2 ^ 64 := by
    unfold total at small
    omega
  have room : Room (new clients server ring) { pageTable := new clients server ring }
      (demand server.numTiers clients) := by
    constructor
    · exact (Nat.zero_add _).symm ▸ small
    · intro r hr
      have hcap := ring_capacity_new clients server ring
      rw [hr] at hcap
      cases ring with
      | false => cases hcap
      | true =>
        have hcapacity : r.capacity = (new clients server true).localPageLoad :=
          Option.some.inj hcap
        rw [hcapacity, toNat_localPageLoad true htiers hlocal]
        exact (Nat.zero_add _).le
  obtain ⟨s, hfold⟩ := (filled_new clients server ring).fillClients_returns htiers alloc
    (tallied_new clients server ring empty) room
  unfold initPageTable
  show ∃ t, (clients.foldlM (Filling.fillClient alloc) _ >>= _) = _
  rw [hfold]
  exact ⟨_, rfl⟩

/-- **The server starts** on an accepted configuration of fewer than `2 ^ 64` pages. -/
theorem start_returns (config : AcceptedConfig) (ring : Bool) (alloc : Allocation)
    (small : total (demand config.server.numTiers config.clients) < 2 ^ 64) :
    ∃ t, config.start ring alloc = .ok t := by
  apply initPageTable_returns ring alloc
  · rw [config.server_eq.1]
    exact config.tiers
  · exact config.server_eq.2
  · exact small

end PageTable

end MemoryTiering
