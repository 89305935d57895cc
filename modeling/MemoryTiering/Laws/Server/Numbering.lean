import MemoryTiering.Laws.PageTable.Layout
import MemoryTiering.Laws.PageTable.Startup
import MemoryTiering.Lib.Segments
import MemoryTiering.Server

/-!
# Page numbering

The client list is walked three times: the server adds up where each client's pages begin, `main`
adds up how many each client has, and `initPageTable` makes them, with one running index and one
offset into each region. All three are the one layout: clients are its segments, and a page's
address is its rank among the pages of its layer (`pages_numbered`).
-/

set_option autoImplicit false

namespace MemoryTiering

open Fallible Pointer

/-- `base_page_id_[client] + pid` -/
def Server.clientPage (s : Server) (page : Nat × SizeT) : PageId :=
  s.basePageId.getD page.1 0 + page.2

theorem Server.pageIndex_eq (s : Server) (msg : ClientMessage) :
    s.pageIndex msg = s.clientPage (msg.clientId, msg.pid) := rfl

/-- The pages the clients may name: a client's number, and a page below its total. -/
def clientPages (clients : List ClientConfig) : Set (Nat × SizeT) :=
  {page | ∃ client, clients[page.1]? = some client ∧
    page.2.toNat < (clientPageSize client).toNat}

/-- A page's address. -/
def PageTable.address? (t : PageTable) (p : PageId) : Option SizeT :=
  (t.table.lookup p).map (·.pageAddress)

/-! ## One client -/

section Client

variable {client : ClientConfig} {numTiers : Nat}

/-- `main` and the server add up the same pages. -/
theorem clientPageSize_eq (tiers : numTiers = 2 ∨ numTiers = 3)
    (sizes : client.tierSizes.length = numTiers) :
    clientPageSize client = Server.clientPages numTiers client := by
  unfold clientPageSize Server.clientPages ClientConfig.tier
  rcases tiers with rfl | rfl
  · obtain ⟨a, b, hsizes⟩ := List.length_eq_two.mp sizes
    simp [hsizes]
  · obtain ⟨a, b, c, hsizes⟩ := List.length_eq_three.mp sizes
    simp [hsizes]

theorem length_layers (client : ClientConfig) (numTiers : Nat) :
    (client.layers numTiers).length = client.share numTiers .numaLocal +
      client.share numTiers .numaRemote + client.share numTiers .pmem := by
  simp [ClientConfig.layers, Nat.add_assoc]

/-- They are as many as the pages that are made, counted in 64 bits. -/
theorem clientPages_eq (tiers : numTiers = 2 ∨ numTiers = 3) :
    Server.clientPages numTiers client = UInt64.ofNat (client.layers numTiers).length := by
  rw [length_layers]
  rcases tiers with rfl | rfl
  · simp [Server.clientPages, ClientConfig.share, tierIndex]
  · simp [Server.clientPages, ClientConfig.share, tierIndex]

theorem length_layers_eq_sum (tiers : numTiers = 2 ∨ numTiers = 3)
    (sizes : client.tierSizes.length = numTiers) :
    (client.layers numTiers).length = (client.tierSizes.map UInt64.toNat).sum := by
  rw [length_layers]
  rcases tiers with rfl | rfl
  · obtain ⟨a, b, hsizes⟩ := List.length_eq_two.mp sizes
    simp [ClientConfig.share, tierIndex, ClientConfig.tier, hsizes]
  · obtain ⟨a, b, c, hsizes⟩ := List.length_eq_three.mp sizes
    simp [ClientConfig.share, tierIndex, ClientConfig.tier, hsizes, Nat.add_assoc]

end Client

/-! ## All clients -/

section Clients

variable {clients : List ClientConfig} {numTiers : Nat}

theorem layout_eq_flatten (numTiers : Nat) (clients : List ClientConfig) :
    layout numTiers clients = (clients.map fun client => client.layers numTiers).flatten := rfl

theorem length_layout (numTiers : Nat) (clients : List ClientConfig) :
    (layout numTiers clients).length = demand numTiers clients .numaLocal +
      demand numTiers clients .numaRemote + demand numTiers clients .pmem := by
  induction clients with
  | nil => rfl
  | cons client clients ih =>
    have hfirst := length_layers client numTiers
    unfold layout demand at ih ⊢
    rw [List.flatMap_cons, List.length_append]
    simp only [List.map_cons, List.sum_cons]
    omega

theorem count_layout (numTiers : Nat) (clients : List ClientConfig) (layer : PageLayer) :
    (layout numTiers clients).count layer = demand numTiers clients layer := by
  have hclient : ∀ client : ClientConfig,
      (client.layers numTiers).count layer = client.share numTiers layer := by
    intro client
    unfold ClientConfig.layers
    cases layer <;> simp [List.count_replicate]
  rw [layout, List.count_flatMap, demand]
  congr 1
  apply List.map_congr_left
  exact fun client _ => hclient client

/-- **The server's bases are where the segments start.** -/
theorem basePageIds_getD (tiers : numTiers = 2 ∨ numTiers = 3) (base : SizeT) {c : Nat}
    (hc : c < clients.length) :
    (Server.basePageIds numTiers base clients).getD c 0 = base + UInt64.ofNat
      (Segments.start (clients.map fun client => client.layers numTiers) c) := by
  induction clients generalizing base c with
  | nil => exact (Nat.not_lt_zero c hc).elim
  | cons client clients ih =>
    unfold Server.basePageIds
    cases c with
    | zero => exact (UInt64.add_zero base).symm
    | succ c =>
      rw [List.getD_cons_succ, ih _ (Nat.lt_of_succ_lt_succ hc), clientPages_eq tiers,
        List.map_cons, Segments.start_succ_cons, UInt64.ofNat_add, UInt64.add_assoc]

end Clients

/-! ## The server as it starts -/

section Started

variable {clients : List ClientConfig} {numTiers : Nat} {alloc : PageTable.Allocation}
  {t : PageTable}

/-- What the layout says of one page. -/
theorem PageTable.Laid.layer?_eq (h : PageTable.Laid clients numTiers alloc t) (p : PageId) :
    t.layer? p = (layout numTiers clients)[p.toNat]? := by
  have hslot : t.layer? p = (t.slot? p).map (·.metadata.pageLayer) := by
    unfold PageTable.layer? PageTable.meta? PageTable.slot?
    rw [Option.map_map, Option.map_map]
    rfl
  rw [hslot, h.entry, PageTable.Allocation.entry, Option.map_map]
  exact Option.map_id'

theorem PageTable.Laid.mem_iff (h : PageTable.Laid clients numTiers alloc t) (p : PageId) :
    p ∈ t.table ↔ p.toNat < (layout numTiers clients).length := by
  have hsome : (t.layer? p).isSome = (t.table.lookup p).isSome := by
    unfold PageTable.layer? PageTable.meta?
    rw [Option.isSome_map, Option.isSome_map]
  rw [← AList.lookup_isSome, ← hsome, h.layer?_eq, isSome_getElem?]

theorem PageTable.Laid.address?_eq (h : PageTable.Laid clients numTiers alloc t) (p : PageId) :
    t.address? p = (layout numTiers clients)[p.toNat]?.map fun layer =>
      alloc.base layer +
        UInt64.ofNat (Segments.rank (layout numTiers clients) layer p.toNat) * pageSize := by
  have hslot : t.address? p = (t.slot? p).map (·.pageAddress) := by
    unfold PageTable.address? PageTable.slot?
    rw [Option.map_map]
    rfl
  rw [hslot, h.entry, PageTable.Allocation.entry, Option.map_map]
  rfl

/-- The address of a page of a region that lies in the address space. -/
theorem toNat_page_add {base : SizeT} {k n : Nat} (hk : k < n)
    (mapped : base.toNat + n * pageSize.toNat ≤ 2 ^ 64) :
    (base + UInt64.ofNat k * pageSize).toNat = base.toNat + k * pageSize.toNat := by
  have hpage : pageSize.toNat = 4096 := rfl
  rw [hpage] at mapped ⊢
  have hoffset : (UInt64.ofNat k * pageSize).toNat = k * 4096 := by
    rw [UInt64.toNat_mul, SizeT.toNat_ofNat (by omega), hpage, Nat.mod_eq_of_lt (by omega)]
  rw [SizeT.toNat_add (by omega), hoffset]

/-- **Addresses are ranks**, in regions that lie in the address space. -/
theorem PageTable.Laid.addresses (h : PageTable.Laid clients numTiers alloc t)
    (small : (layout numTiers clients).length < 2 ^ 64) {layer : PageLayer}
    (mapped : (alloc.base layer).toNat + demand numTiers clients layer * pageSize.toNat ≤ 2 ^ 64) :
    Set.BijOn t.address? {p | t.layer? p = some layer}
      {a | ∃ k < demand numTiers clients layer,
        a.map UInt64.toNat = some ((alloc.base layer).toNat + k * pageSize.toNat)} := by
  have hrank := Segments.bijOn_rank (layout numTiers clients) layer
  rw [count_layout] at hrank
  have haddress : ∀ p, (layout numTiers clients)[p.toNat]? = some layer →
      (t.address? p).map UInt64.toNat = some ((alloc.base layer).toNat +
        Segments.rank (layout numTiers clients) layer p.toNat * pageSize.toNat) := by
    intro p hp
    have hlt : _ < demand numTiers clients layer := hrank.mapsTo hp
    rw [h.address?_eq, hp, Option.map_some, Option.map_some, toNat_page_add hlt mapped]
  refine ⟨?mapsTo, ?injOn, ?surjOn⟩
  case mapsTo =>
    intro p hp
    rw [Set.mem_ofPred_eq, h.layer?_eq] at hp
    exact ⟨_, hrank.mapsTo hp, haddress p hp⟩
  case injOn =>
    intro p hp q hq heq
    rw [Set.mem_ofPred_eq, h.layer?_eq] at hp hq
    have hsame := haddress p hp
    rw [heq, haddress q hq, Option.some.injEq] at hsame
    have hranks := Nat.eq_of_mul_eq_mul_right (by decide) (Nat.add_left_cancel hsame)
    exact UInt64.toNat_inj.mp (hrank.injOn hp hq hranks.symm)
  case surjOn =>
    rintro a ⟨k, hk, ha⟩
    obtain ⟨i, hi, rfl⟩ := hrank.surjOn hk
    have hi' : i < (layout numTiers clients).length := (List.getElem?_eq_some_iff.mp hi).1
    have hto : (UInt64.ofNat i).toNat = i := SizeT.toNat_ofNat (hi'.trans small)
    have hlayer : (layout numTiers clients)[(UInt64.ofNat i).toNat]? = some layer := by
      rw [hto]
      exact hi
    refine ⟨UInt64.ofNat i, ?_, ?_⟩
    · rw [Set.mem_ofPred_eq, h.layer?_eq, hlayer]
    · have hat := haddress _ hlayer
      rw [hto, ← ha] at hat
      exact Option.map_injective (fun _ _ => UInt64.toNat_inj.mp) hat

end Started

section Server

variable {clients : List ClientConfig} {server : ServerMemoryConfig} {ring : Bool}
  {alloc : PageTable.Allocation} {s : Server}

/-- What the constructor leaves: the filled table and the bases. -/
theorem Server.new_spec (tiers : server.numTiers = 2 ∨ server.numTiers = 3)
    (empty : ∀ layer, (server.layer layer).count = 0)
    (start : Server.new clients server ring alloc = .ok s) :
    PageTable.Laid clients server.numTiers alloc s.pageTable ∧
      PageTable.Initial clients server ring s.pageTable ∧
      s.basePageId = Server.basePageIds server.numTiers 0 clients := by
  obtain ⟨t, ht, hs⟩ := bind_eq_ok.mp start
  cases hs
  exact ⟨PageTable.initPageTable_layout tiers empty ht, PageTable.initPageTable_spec tiers empty ht,
    if_pos tiers⟩

/-- The segments of the layout. -/
theorem getElem?_segments {c : Nat} {client : ClientConfig} (numTiers : Nat)
    (h : clients[c]? = some client) :
    (clients.map fun client => client.layers numTiers)[c]? = some (client.layers numTiers) := by
  rw [List.getElem?_map, h, Option.map_some]

/-- A client has as many pages as its segment is long. -/
theorem toNat_clientPageSize {client : ClientConfig}
    (tiers : server.numTiers = 2 ∨ server.numTiers = 3)
    (sizes : ∀ client ∈ clients, client.tierSizes.length = server.numTiers)
    (small : (layout server.numTiers clients).length < 2 ^ 64) (h : client ∈ clients) :
    (clientPageSize client).toNat = (client.layers server.numTiers).length := by
  obtain ⟨c, hc⟩ := List.mem_iff_getElem?.mp h
  have hfits := Segments.start_add_le (getElem?_segments server.numTiers hc)
  rw [← layout_eq_flatten] at hfits
  rw [clientPageSize_eq tiers (sizes client h), clientPages_eq tiers, SizeT.toNat_ofNat (by omega)]

/-- A client's base is where its segment starts. -/
theorem toNat_base (tiers : server.numTiers = 2 ∨ server.numTiers = 3)
    (bases : s.basePageId = Server.basePageIds server.numTiers 0 clients)
    (small : (layout server.numTiers clients).length < 2 ^ 64) {c : Nat} {client : ClientConfig}
    (hc : clients[c]? = some client) :
    (s.basePageId.getD c 0).toNat =
      Segments.start (clients.map fun client => client.layers server.numTiers) c := by
  have hfits := Segments.start_add_le (getElem?_segments server.numTiers hc)
  rw [← layout_eq_flatten] at hfits
  rw [bases, basePageIds_getD tiers 0 (List.getElem?_eq_some_iff.mp hc).1, UInt64.zero_add,
    SizeT.toNat_ofNat (by omega)]

/-- **A client's page is its place in the layout.** -/
theorem toNat_clientPage (tiers : server.numTiers = 2 ∨ server.numTiers = 3)
    (bases : s.basePageId = Server.basePageIds server.numTiers 0 clients)
    (small : (layout server.numTiers clients).length < 2 ^ 64) {c : Nat} {client : ClientConfig}
    {pid : SizeT} (hc : clients[c]? = some client)
    (hpid : pid.toNat < (client.layers server.numTiers).length) :
    (s.clientPage (c, pid)).toNat =
      Segments.start (clients.map fun client => client.layers server.numTiers) c + pid.toNat := by
  have hfits := Segments.start_add_le (getElem?_segments server.numTiers hc)
  rw [← layout_eq_flatten] at hfits
  have hbase := toNat_base tiers bases small hc
  unfold Server.clientPage
  dsimp only
  rw [SizeT.toNat_add (by omega), hbase]

/-- **The clients' pages are the pages of the table.** -/
theorem bijOn_clientPage (tiers : server.numTiers = 2 ∨ server.numTiers = 3)
    (sizes : ∀ client ∈ clients, client.tierSizes.length = server.numTiers)
    (small : (layout server.numTiers clients).length < 2 ^ 64)
    (laid : PageTable.Laid clients server.numTiers alloc s.pageTable)
    (bases : s.basePageId = Server.basePageIds server.numTiers 0 clients) :
    Set.BijOn s.clientPage (clientPages clients) {p | p ∈ s.pageTable.table} := by
  have hsegments := Segments.bijOn_place (clients.map fun client => client.layers server.numTiers)
  rw [← layout_eq_flatten] at hsegments
  have hplace : ∀ page ∈ clientPages clients,
      (page.1, page.2.toNat) ∈
          Segments.positions (clients.map fun client => client.layers server.numTiers) ∧
        (s.clientPage page).toNat =
          Segments.place (clients.map fun client => client.layers server.numTiers)
            (page.1, page.2.toNat) := by
    rintro ⟨c, pid⟩ ⟨client, hc, hpid⟩
    rw [toNat_clientPageSize tiers sizes small (List.mem_of_getElem? hc)] at hpid
    exact ⟨⟨_, getElem?_segments server.numTiers hc, hpid⟩,
      toNat_clientPage tiers bases small hc hpid⟩
  refine ⟨?mapsTo, ?injOn, ?surjOn⟩
  case mapsTo =>
    intro page hpage
    obtain ⟨hmem, hto⟩ := hplace page hpage
    rw [Set.mem_ofPred_eq, laid.mem_iff, hto]
    exact hsegments.mapsTo hmem
  case injOn =>
    intro page hpage page' hpage' heq
    obtain ⟨hmem, hto⟩ := hplace page hpage
    obtain ⟨hmem', hto'⟩ := hplace page' hpage'
    have hsame := hsegments.injOn hmem hmem' (by rw [← hto, ← hto', heq])
    obtain ⟨hc, hp⟩ := Prod.mk.inj hsame
    exact Prod.ext hc (UInt64.toNat_inj.mp hp)
  case surjOn =>
    intro p hp
    rw [Set.mem_ofPred_eq, laid.mem_iff] at hp
    obtain ⟨⟨c, k⟩, ⟨l, hl, hk⟩, heq⟩ := hsegments.surjOn hp
    have hfits := Segments.start_add_le hl
    rw [← layout_eq_flatten] at hfits
    have hto : (UInt64.ofNat k).toNat = k := SizeT.toNat_ofNat (by omega)
    rw [List.getElem?_map] at hl
    obtain ⟨client, hc, rfl⟩ := Option.map_eq_some_iff.mp hl
    have hpage : (c, UInt64.ofNat k) ∈ clientPages clients := by
      refine ⟨client, hc, ?_⟩
      rw [toNat_clientPageSize tiers sizes small (List.mem_of_getElem? hc)]
      exact hto.symm ▸ hk
    refine ⟨(c, UInt64.ofNat k), hpage, ?_⟩
    rw [← UInt64.toNat_inj, (hplace _ hpage).2, ← heq]
    dsimp only
    rw [hto]

end Server

end MemoryTiering
