import MemoryTiering.Laws.Server.Numbering
import MemoryTiering.Machine

/-!
# Initial placement

A region is mapped, bound and touched before its pages enter the table. The binding call gets the
size of one page where the mapping gets that of all of them, so only the first page of a region is
bound, and the first touch leaves the others on the thread's node. What the memory holds then is a
function of the three regions (`Started`), and the table's addresses are the ranks of the layout:
placement and metadata agree exactly when no bound tier but the thread's own has a second page
(`placed_at_start_iff`).
-/

set_option autoImplicit false

namespace MemoryTiering

open Fallible Pointer

theorem PageLayer.node_injective : Function.Injective PageLayer.node := by
  intro layer layer' h
  cases layer <;> cases layer' <;> first | rfl | cases h

/-- A page resides on the node of its layer. -/
def Machine.Placed (m : Machine) : Prop :=
  ∀ p e, m.pageTable.table.lookup p = some e →
    m.memory.node (pageNumber e.pageAddress) = some e.metadata.pageLayer.node

/-- No two pages of the table lie in one page of memory. -/
def Machine.Apart (m : Machine) : Prop :=
  ∀ p q e f, m.pageTable.table.lookup p = some e → m.pageTable.table.lookup q = some f →
    pageNumber e.pageAddress = pageNumber f.pageAddress → p = q

/-! ## Ranges of pages -/

section Ranges

variable {addr len page : SizeT}

theorem overlaps_iff : overlaps addr len page = true ↔ 0 < len.toNat ∧
    addr.toNat < (page.toNat + 1) * 4096 ∧ page.toNat * 4096 < addr.toNat + len.toNat :=
  decide_eq_true_iff

theorem overlaps_zero (addr page : SizeT) : overlaps addr 0 page = false := by
  rw [← Bool.not_eq_true, overlaps_iff]
  exact fun h => Nat.lt_irrefl 0 h.1

theorem toNat_pageNumber (addr : SizeT) : (pageNumber addr).toNat = addr.toNat / 4096 :=
  UInt64.toNat_div ..

/-- The length of one page, from where a page begins, reaches no other page. -/
theorem overlaps_pageSize (aligned : addr.toNat % 4096 = 0) :
    overlaps addr pageSize page = true ↔ page = pageNumber addr := by
  have hpage : pageSize.toNat = 4096 := rfl
  rw [overlaps_iff, ← UInt64.toNat_inj, toNat_pageNumber, hpage]
  omega

/-- The page after a page is another one, also where the addresses wrap. -/
theorem pageNumber_add_pageSize (addr : SizeT) :
    pageNumber (addr + pageSize) ≠ pageNumber addr := by
  have hpage : pageSize.toNat = 4096 := rfl
  have hlt := addr.toNat_lt
  rw [Ne, ← UInt64.toNat_inj, toNat_pageNumber, toNat_pageNumber, UInt64.toNat_add, hpage]
  omega

/-- `2 ^ 52` pages in a row are all pages there are. -/
theorem exists_pageNumber_eq (addr : SizeT) {n : Nat} (many : 2 ^ 52 ≤ n)
    (hpage : page.toNat < 2 ^ 52) :
    ∃ k < n, pageNumber (addr + UInt64.ofNat k * pageSize) = page := by
  have haddr := addr.toNat_lt
  refine ⟨(page.toNat + 2 ^ 52 - addr.toNat / 4096) % 2 ^ 52, ?_, ?_⟩
  · omega
  · have hsize : pageSize.toNat = 4096 := rfl
    rw [← UInt64.toNat_inj, toNat_pageNumber, UInt64.toNat_add, UInt64.toNat_mul, hsize,
      SizeT.toNat_ofNat (by omega)]
    omega

end Ranges

/-! ## One region -/

namespace Memory

variable {mem : Memory}

/-- Touching resident pages places none. -/
theorem touch_of_resident {addr len : SizeT}
    (resident : ∀ page, overlaps addr len page = true → mem.node page ≠ none) :
    mem.touch addr len = mem := by
  unfold touch
  have hnode : (fun page => if overlaps addr len page = true ∧ mem.node page = none then
      some ((mem.bound page).getD 0) else mem.node page) = mem.node := by
    funext page
    rw [if_neg]
    rintro ⟨hin, hnone⟩
    exact resident page hin hnone
  rw [hnode]

/-- **What `allocate_and_bind_to_numa` leaves**: the pages of the mapping are resident, on the
bound node where the length of one page reaches and on the thread's elsewhere. -/
theorem node_allocateAndBindToNuma (mem : Memory) (addr number : SizeT) (numaNode : Nat)
    (page : SizeT) :
    (mem.allocateAndBindToNuma addr pageSize number numaNode).2.node page =
      if overlaps addr (pageSize * number) page then
        some (if overlaps addr pageSize page then numaNode else 0)
      else mem.node page := by
  unfold allocateAndBindToNuma
  by_cases hzero : pageSize * number = 0
  · rw [if_pos hzero, hzero, overlaps_zero]
    rfl
  · rw [if_neg hzero]
    simp only [touch, mbind, mmap]
    by_cases hin : overlaps addr (pageSize * number) page = true
    · simp only [hin, if_true, and_self]
      split <;> rfl
    · rw [Bool.not_eq_true] at hin
      simp only [hin, Bool.false_eq_true, false_and, if_false]

theorem base_allocateAndBindToNuma (mem : Memory) (addr number : SizeT) (numaNode : Nat) :
    (mem.allocateAndBindToNuma addr pageSize number numaNode).1 =
      if pageSize * number = 0 then 0 else addr := by
  unfold allocateAndBindToNuma
  split <;> rfl

end Memory

/-! ## The three regions -/

/-- The bytes that are mapped for a layer. -/
def regionSize (clients : List ClientConfig) (layer : PageLayer) : SizeT :=
  pageSize * UInt64.ofNat (demand 3 clients layer)

/-- The pointer `initPageTable` gets for a layer: null, where there is nothing to map. -/
def regionBase (clients : List ClientConfig) (alloc : PageTable.Allocation) (layer : PageLayer) :
    SizeT :=
  if regionSize clients layer = 0 then 0 else alloc.base layer

/-- The page of memory that a layer's page of rank `k` lies in. -/
def rankPage (clients : List ClientConfig) (alloc : PageTable.Allocation) (layer : PageLayer)
    (k : Nat) : SizeT :=
  pageNumber (regionBase clients alloc layer + UInt64.ofNat k * pageSize)

/-- The page is in the layer's region. -/
def inRegion (clients : List ClientConfig) (alloc : PageTable.Allocation) (layer : PageLayer)
    (page : SizeT) : Prop :=
  overlaps (alloc.base layer) (regionSize clients layer) page = true

instance (clients : List ClientConfig) (alloc : PageTable.Allocation) (layer : PageLayer)
    (page : SizeT) : Decidable (inRegion clients alloc layer page) :=
  inferInstanceAs (Decidable (_ = true))

/-- What `mmap` promises of the three regions: page boundaries, inside the address space, with no
page in two of them. -/
structure Mapped (clients : List ClientConfig) (alloc : PageTable.Allocation) : Prop where
  aligned : ∀ layer, regionSize clients layer ≠ 0 →
    (alloc.base layer).toNat % pageSize.toNat = 0
  fits : ∀ layer, (alloc.base layer).toNat + (regionSize clients layer).toNat ≤ 2 ^ 64
  apart : ∀ layer layer' page, inRegion clients alloc layer page →
    inRegion clients alloc layer' page → layer = layer'

/-- The node a region's page resides on when the region was touched. -/
def touchedOn (alloc : PageTable.Allocation) (layer : PageLayer) (page : SizeT) : Nat :=
  if overlaps (alloc.base layer) pageSize page then layer.node else 0

/-- Where the pages reside when all three regions were touched, one after the other. -/
def firstTouch (clients : List ClientConfig) (alloc : PageTable.Allocation) (page : SizeT) :
    Option Nat :=
  if inRegion clients alloc .pmem page then some (touchedOn alloc .pmem page)
  else if inRegion clients alloc .numaRemote page then some (touchedOn alloc .numaRemote page)
  else if inRegion clients alloc .numaLocal page then some (touchedOn alloc .numaLocal page)
  else none

section Regions

variable {clients : List ClientConfig} {alloc : PageTable.Allocation} {layer : PageLayer}
  {page : SizeT}

theorem inRegion_iff : inRegion clients alloc layer page ↔
    0 < (regionSize clients layer).toNat ∧
      (alloc.base layer).toNat < (page.toNat + 1) * 4096 ∧
      page.toNat * 4096 < (alloc.base layer).toNat + (regionSize clients layer).toNat :=
  overlaps_iff

/-- The null pointer stands for a region without pages. -/
theorem overlaps_regionBase : overlaps (regionBase clients alloc layer) (regionSize clients layer)
    page = true ↔ inRegion clients alloc layer page := by
  unfold inRegion regionBase
  split
  next hzero => rw [hzero, overlaps_zero, overlaps_zero]
  next => rfl

/-- Every page of a region is resident. -/
theorem firstTouch_ne_none (h : inRegion clients alloc layer page) :
    firstTouch clients alloc page ≠ none := by
  unfold firstTouch
  cases layer <;> split_ifs <;> simp

/-- A resident page is in a region. -/
theorem inRegion_of_firstTouch {node : Nat} (h : firstTouch clients alloc page = some node) :
    ∃ layer, inRegion clients alloc layer page ∧ touchedOn alloc layer page = node := by
  unfold firstTouch at h
  split_ifs at h with hpmem hremote hlocal
  · exact ⟨.pmem, hpmem, Option.some.inj h⟩
  · exact ⟨.numaRemote, hremote, Option.some.inj h⟩
  · exact ⟨.numaLocal, hlocal, Option.some.inj h⟩

/-- In regions that are apart, the region decides. -/
theorem Mapped.firstTouch_eq (mapped : Mapped clients alloc)
    (h : inRegion clients alloc layer page) :
    firstTouch clients alloc page = some (touchedOn alloc layer page) := by
  obtain ⟨node, hnode⟩ := Option.ne_none_iff_exists'.mp (firstTouch_ne_none h)
  obtain ⟨layer', h', htouched⟩ := inRegion_of_firstTouch hnode
  rw [hnode, ← htouched, mapped.apart layer layer' page h h']

/-- **A bound tier holds one page at most**: on the node of a layer but the thread's resides the
first page of the layer's region only. -/
theorem Mapped.eq_of_firstTouch (mapped : Mapped clients alloc) (bound : layer ≠ .numaLocal)
    (h : firstTouch clients alloc page = some layer.node) :
    page = pageNumber (alloc.base layer) := by
  obtain ⟨layer', h', htouched⟩ := inRegion_of_firstTouch h
  unfold touchedOn at htouched
  split at htouched
  case isFalse => exact (bound (PageLayer.node_injective htouched.symm)).elim
  case isTrue hfirst =>
  obtain rfl := PageLayer.node_injective htouched
  have hsize : regionSize clients layer' ≠ 0 := by
    intro hzero
    rw [inRegion, hzero, overlaps_zero] at h'
    cases h'
  exact (overlaps_pageSize (mapped.aligned layer' hsize)).mp hfirst

end Regions

/-! ## The start -/

/-- What the server starts with on three tiers: the table laid out over the regions, and the memory
they were touched in. -/
structure Machine.Started (clients : List ClientConfig) (server : ServerMemoryConfig) (ring : Bool)
    (alloc : PageTable.Allocation) (m : Machine) : Prop where
  initial : PageTable.Initial clients server ring m.pageTable
  laid : m.pageTable.Laid clients 3 { alloc with base := regionBase clients alloc }
  node : ∀ page, m.memory.node page = firstTouch clients alloc page

section Start

variable {clients : List ClientConfig} {server : ServerMemoryConfig} {ring : Bool}
  {alloc : PageTable.Allocation}

/-- A tier's load, added up in 64 bits. -/
theorem pageLoad_eq {i : Nat} {layer : PageLayer} (h : tierIndex 3 layer = some i) :
    PageTable.pageLoad clients i = UInt64.ofNat (demand 3 clients layer) := by
  rw [demand_eq h, ← UInt64.toNat_inj, PageTable.pageLoad, toNat_foldl_add, UInt64.toNat_zero,
    Nat.zero_add, UInt64.toNat_ofNat']

/-- The constructor's loads are the layers' demands. -/
theorem loads_new (clients : List ClientConfig) (three : server.numTiers = 3) (ring : Bool) :
    (PageTable.new clients server ring).localPageLoad =
        UInt64.ofNat (demand 3 clients .numaLocal) ∧
      (PageTable.new clients server ring).remotePageLoad =
        UInt64.ofNat (demand 3 clients .numaRemote) ∧
      (PageTable.new clients server ring).pmemPageLoad =
        UInt64.ofNat (demand 3 clients .pmem) := by
  unfold PageTable.new
  simp only [three, Nat.reduceEqDiff, or_true, if_true, if_false]
  exact ⟨pageLoad_eq rfl, pageLoad_eq rfl, pageLoad_eq rfl⟩

/-- **What `_allocateMemory` leaves**: three pointers, and every page where its first touch put
it. -/
theorem Machine.allocateMemory_spec (clients : List ClientConfig) (three : server.numTiers = 3)
    (ring : Bool) (alloc : PageTable.Allocation) :
    ∃ memory, Machine.allocateMemory ⟨PageTable.new clients server ring, {}⟩ alloc.base =
        .ok (regionBase clients alloc, memory) ∧
      ∀ page, memory.node page = firstTouch clients alloc page := by
  obtain ⟨hlocal, hremote, hpmem⟩ := loads_new clients three ring
  have htwo : ¬ (PageTable.new clients server ring).serverConfig.numTiers = 2 := by
    show ¬ server.numTiers = 2
    omega
  unfold Machine.allocateMemory
  dsimp only
  rw [if_neg htwo, hlocal, hremote, hpmem]
  refine ⟨_, congrArg (fun base => Except.ok (base, _)) ?_, ?_⟩
  · funext layer
    cases layer <;> exact Memory.base_allocateAndBindToNuma ..
  · intro page
    rw [Memory.node_allocateAndBindToNuma, Memory.node_allocateAndBindToNuma,
      Memory.node_allocateAndBindToNuma]
    rfl

/-- The random content goes to pages that are resident. -/
theorem Machine.generateRandomContent_eq (three : server.numTiers = 3) (ring : Bool)
    {memory : Memory} (node : ∀ page, memory.node page = firstTouch clients alloc page) :
    Machine.generateRandomContent (PageTable.new clients server ring) (regionBase clients alloc)
      memory = memory := by
  obtain ⟨hlocal, hremote, hpmem⟩ := loads_new clients three ring
  have htouch : ∀ layer,
      memory.touch (regionBase clients alloc layer)
        (UInt64.ofNat (demand 3 clients layer) * pageSize) = memory := by
    intro layer
    apply Memory.touch_of_resident
    intro page hin
    rw [UInt64.mul_comm, ← regionSize, overlaps_regionBase] at hin
    rw [node]
    exact firstTouch_ne_none hin
  have hnum : (PageTable.new clients server ring).serverConfig.numTiers = 3 := three
  unfold Machine.generateRandomContent
  simp only [hnum, Nat.reduceEqDiff, if_true, if_false, hlocal, hremote, hpmem, htouch]

/-- **The server starts**, with every page where its first touch put it. -/
theorem Machine.initPageTable_spec (three : server.numTiers = 3)
    (empty : ∀ layer, (server.layer layer).count = 0)
    (small : demand 3 clients .numaLocal + demand 3 clients .numaRemote + demand 3 clients .pmem <
      2 ^ 64) (ring : Bool) (alloc : PageTable.Allocation) :
    ∃ m, Machine.initPageTable ⟨PageTable.new clients server ring, {}⟩ alloc = .ok m ∧
      m.Started clients server ring alloc := by
  obtain ⟨memory, hallocate, hnode⟩ := Machine.allocateMemory_spec clients three ring alloc
  obtain ⟨t, ht⟩ := @PageTable.initPageTable_returns clients server ring
    { alloc with base := regionBase clients alloc } (.inr three) empty (by rw [three]; exact small)
  have hlaid := PageTable.initPageTable_layout (.inr three) empty ht
  have hinitial := PageTable.initPageTable_spec (.inr three) empty ht
  refine ⟨⟨t, memory⟩, ?_, hinitial, three ▸ hlaid, hnode⟩
  refine bind_eq_ok.mpr ⟨_, hallocate, ?_⟩
  dsimp only
  rw [Machine.generateRandomContent_eq three ring hnode, ht]
  rfl

/-- An entry of a started machine: its layer is the layout's, its address the rank's. -/
theorem Machine.Started.entry {m : Machine} (h : m.Started clients server ring alloc) {p : PageId}
    {e : PageTableEntry} (he : m.pageTable.table.lookup p = some e) :
    (layout 3 clients)[p.toNat]? = some e.metadata.pageLayer ∧
      e.pageAddress = regionBase clients alloc e.metadata.pageLayer +
        UInt64.ofNat (Segments.rank (layout 3 clients) e.metadata.pageLayer p.toNat) *
          pageSize := by
  have hlayer := h.laid.layer?_eq p
  have haddress := h.laid.address?_eq p
  unfold PageTable.layer? PageTable.meta? at hlayer
  unfold PageTable.address? at haddress
  simp only [he, Option.map_some] at hlayer haddress
  rw [← hlayer, Option.map_some, Option.some.injEq] at haddress
  exact ⟨hlayer.symm, haddress⟩

/-- A started machine's pages are the ranks of its layers. -/
theorem Machine.Started.placed_iff {m : Machine} (h : m.Started clients server ring alloc)
    (small : (layout 3 clients).length < 2 ^ 64) :
    m.Placed ↔ ∀ layer, ∀ k < demand 3 clients layer,
      firstTouch clients alloc (rankPage clients alloc layer k) = some layer.node := by
  have hrank := Segments.bijOn_rank (layout 3 clients)
  constructor
  · intro placed layer k hk
    rw [← count_layout] at hk
    obtain ⟨i, hi, rfl⟩ := (hrank layer).surjOn hk
    have hlt : i < (layout 3 clients).length := (List.getElem?_eq_some_iff.mp hi).1
    have hto : (UInt64.ofNat i).toNat = i := SizeT.toNat_ofNat (hlt.trans small)
    obtain ⟨e, he⟩ : ∃ e, m.pageTable.table.lookup (UInt64.ofNat i) = some e := by
      rw [← Option.isSome_iff_exists, AList.lookup_isSome, h.laid.mem_iff, hto]
      exact hlt
    obtain ⟨hlayer, haddress⟩ := h.entry he
    rw [hto, hi, Option.some.injEq] at hlayer
    have hnode := placed _ e he
    rwa [h.node, haddress, hto, ← hlayer] at hnode
  · intro ranks p e he
    obtain ⟨hlayer, haddress⟩ := h.entry he
    rw [h.node, haddress]
    apply ranks
    rw [← count_layout]
    exact (hrank _).mapsTo hlayer

/-! ## Where the metadata is right -/

/-- Where the pages of a region lie that was mapped whole. -/
theorem Mapped.toNat_rankPage (mapped : Mapped clients alloc) {layer : PageLayer} {k : Nat}
    (whole : demand 3 clients layer * 4096 < 2 ^ 64) (hk : k < demand 3 clients layer) :
    regionSize clients layer ≠ 0 ∧
      (regionSize clients layer).toNat = demand 3 clients layer * 4096 ∧
      (rankPage clients alloc layer k).toNat = (alloc.base layer).toNat / 4096 + k := by
  have hpage : pageSize.toNat = 4096 := rfl
  have hsize : (regionSize clients layer).toNat = demand 3 clients layer * 4096 := by
    rw [regionSize, UInt64.toNat_mul, SizeT.toNat_ofNat (by omega), hpage,
      Nat.mod_eq_of_lt (by omega), Nat.mul_comm]
  have hne : regionSize clients layer ≠ 0 := by
    intro hzero
    rw [hzero, UInt64.toNat_zero] at hsize
    omega
  have hfits := mapped.fits layer
  rw [hsize, ← hpage] at hfits
  refine ⟨hne, hsize, ?_⟩
  rw [rankPage, regionBase, if_neg hne, toNat_pageNumber, toNat_page_add hk hfits, hpage]
  omega

/-- Such a page is in the region, and the first one is the page that is bound. -/
theorem Mapped.region_page (mapped : Mapped clients alloc) {layer : PageLayer} {k : Nat}
    (whole : demand 3 clients layer * 4096 < 2 ^ 64) (hk : k < demand 3 clients layer) :
    inRegion clients alloc layer (rankPage clients alloc layer k) ∧
      (k = 0 → overlaps (alloc.base layer) pageSize (rankPage clients alloc layer k) = true) := by
  obtain ⟨hne, hsize, hrank⟩ := mapped.toNat_rankPage whole hk
  have haligned : (alloc.base layer).toNat % 4096 = 0 := mapped.aligned layer hne
  rw [inRegion_iff, overlaps_pageSize haligned, hsize, ← UInt64.toNat_inj, toNat_pageNumber, hrank]
  clear whole hsize
  generalize demand 3 clients layer = n at hk ⊢
  refine ⟨⟨by omega, by omega, by omega⟩, ?_⟩
  rintro rfl
  rw [Nat.add_zero]

/-- Regions that were mapped whole keep the pages apart. -/
theorem Machine.Started.apart {m : Machine} (h : m.Started clients server ring alloc)
    (mapped : Mapped clients alloc) (whole : ∀ layer, demand 3 clients layer * 4096 < 2 ^ 64) :
    m.Apart := by
  intro p q e f he hf hsame
  have hrank := Segments.bijOn_rank (layout 3 clients)
  simp only [count_layout] at hrank
  obtain ⟨hlayer, haddress⟩ := h.entry he
  obtain ⟨hlayer', haddress'⟩ := h.entry hf
  have hlt := (hrank _).mapsTo hlayer
  have hlt' := (hrank _).mapsTo hlayer'
  rw [haddress, haddress'] at hsame
  have hin := (mapped.region_page (whole _) hlt).1
  have hin' := (mapped.region_page (whole _) hlt').1
  have hlayers : e.metadata.pageLayer = f.metadata.pageLayer :=
    mapped.apart _ _ _ hin (by rw [rankPage, hsame]; exact hin')
  have hpage := (mapped.toNat_rankPage (whole _) hlt).2.2
  have hpage' := (mapped.toNat_rankPage (whole _) hlt').2.2
  rw [rankPage, hsame, ← rankPage, hpage', hlayers] at hpage
  rw [hlayers] at hlayer
  have hranks := Nat.add_left_cancel hpage
  exact UInt64.toNat_inj.mp ((hrank _).injOn hlayer hlayer' hranks.symm)

/-- A tier but the thread's own, all of whose pages are placed, has one page at most: the second
one would lie on the first. -/
theorem Mapped.demand_le_one (mapped : Mapped clients alloc) {layer : PageLayer}
    (bound : layer ≠ .numaLocal)
    (ranks : ∀ k < demand 3 clients layer,
      firstTouch clients alloc (rankPage clients alloc layer k) = some layer.node) :
    demand 3 clients layer ≤ 1 := by
  by_contra hmany
  have hfirst := mapped.eq_of_firstTouch bound (ranks 0 (by omega))
  have hsecond := mapped.eq_of_firstTouch bound (ranks 1 (by omega))
  have hzero : rankPage clients alloc layer 0 = pageNumber (regionBase clients alloc layer) := by
    show pageNumber (_ + 0 * pageSize) = _
    rw [UInt64.zero_mul, UInt64.add_zero]
  have hone : rankPage clients alloc layer 1 =
      pageNumber (regionBase clients alloc layer + pageSize) := by
    show pageNumber (_ + 1 * pageSize) = _
    rw [UInt64.one_mul]
  rw [hzero] at hfirst
  rw [hone, ← hfirst] at hsecond
  exact pageNumber_add_pageSize _ hsecond

/-- Regions are whole pages long. -/
theorem toNat_regionSize_mod (clients : List ClientConfig) (layer : PageLayer) :
    (regionSize clients layer).toNat % 4096 = 0 := by
  have hpage : pageSize.toNat = 4096 := rfl
  rw [regionSize, UInt64.toNat_mul, hpage]
  omega

/-- A region that is there begins with a page of its own node. -/
theorem Mapped.firstTouch_base (mapped : Mapped clients alloc) {layer : PageLayer}
    (h : regionSize clients layer ≠ 0) :
    firstTouch clients alloc (pageNumber (alloc.base layer)) = some layer.node := by
  have haligned := mapped.aligned layer h
  have hmod := toNat_regionSize_mod clients layer
  have hpos : 0 < (regionSize clients layer).toNat := by
    rw [Nat.pos_iff_ne_zero]
    intro hzero
    exact h (UInt64.toNat_inj.mp hzero)
  have hin : inRegion clients alloc layer (pageNumber (alloc.base layer)) := by
    rw [inRegion_iff, toNat_pageNumber]
    omega
  rw [mapped.firstTouch_eq hin, touchedOn, if_pos ((overlaps_pageSize haligned).mpr rfl)]

/-- No region is the whole address space. -/
theorem Mapped.exists_notMem (mapped : Mapped clients alloc) (layer : PageLayer) :
    ∃ page : SizeT, page.toNat < 2 ^ 52 ∧ ¬ inRegion clients alloc layer page := by
  by_contra hall
  push Not at hall
  have hmod := toNat_regionSize_mod clients layer
  have hlt := (regionSize clients layer).toNat_lt
  have hlow := inRegion_iff.mp (hall 0 (by decide))
  have hhigh := inRegion_iff.mp (hall (UInt64.ofNat (2 ^ 52 - 1)) (by decide))
  have haligned : (alloc.base layer).toNat % 4096 = 0 := by
    apply mapped.aligned layer
    intro hzero
    rw [hzero] at hlow
    exact Nat.lt_irrefl 0 hlow.1
  rw [UInt64.toNat_zero] at hlow
  rw [SizeT.toNat_ofNat (by decide)] at hhigh
  omega

/-- One page is always mapped whole. -/
theorem demand_whole (few : demand 3 clients .numaLocal * 4096 < 2 ^ 64 ∧
      demand 3 clients .numaRemote ≤ 1 ∧ demand 3 clients .pmem ≤ 1) (layer : PageLayer) :
    demand 3 clients layer * 4096 < 2 ^ 64 := by
  have hone : ∀ n ≤ 1, n * 4096 < 2 ^ 64 :=
    fun n hn => (Nat.mul_le_mul_right 4096 hn).trans_lt (by decide)
  cases layer with
  | numaLocal => exact few.1
  | numaRemote => exact hone _ few.2.1
  | pmem => exact hone _ few.2.2

/-- Local pages that are placed were mapped whole: otherwise they lie on every page there is, and
one of these begins another region or is in none. -/
theorem Mapped.local_whole (mapped : Mapped clients alloc)
    (ranks : ∀ k < demand 3 clients .numaLocal,
      firstTouch clients alloc (rankPage clients alloc .numaLocal k) =
        some PageLayer.numaLocal.node) :
    demand 3 clients .numaLocal * 4096 < 2 ^ 64 := by
  by_contra hwraps
  have hall : ∀ page : SizeT, page.toNat < 2 ^ 52 →
      firstTouch clients alloc page = some PageLayer.numaLocal.node := by
    intro page hpage
    obtain ⟨k, hk, rfl⟩ := exists_pageNumber_eq (regionBase clients alloc .numaLocal)
      (n := demand 3 clients .numaLocal) (by omega) hpage
    exact ranks k hk
  obtain ⟨page, hpage, hout⟩ := mapped.exists_notMem .numaLocal
  obtain ⟨layer, hin, _⟩ := inRegion_of_firstTouch (hall page hpage)
  have hsize : regionSize clients layer ≠ 0 := by
    intro hzero
    rw [inRegion, hzero, overlaps_zero] at hin
    cases hin
  have hbase : (pageNumber (alloc.base layer)).toNat < 2 ^ 52 := by
    have hlt := (alloc.base layer).toNat_lt
    rw [toNat_pageNumber]
    omega
  have hnode := (mapped.firstTouch_base hsize).symm.trans (hall _ hbase)
  rw [PageLayer.node_injective (Option.some.inj hnode)] at hin
  exact hout hin

/-- Placement, decided by the three demands. -/
theorem Machine.Started.placed_iff_demand {m : Machine} (h : m.Started clients server ring alloc)
    (small : (layout 3 clients).length < 2 ^ 64) (mapped : Mapped clients alloc) :
    m.Placed ↔ demand 3 clients .numaLocal * 4096 < 2 ^ 64 ∧
      demand 3 clients .numaRemote ≤ 1 ∧ demand 3 clients .pmem ≤ 1 := by
  rw [h.placed_iff small]
  constructor
  · intro ranks
    exact ⟨mapped.local_whole (ranks .numaLocal),
      mapped.demand_le_one (by decide) (ranks .numaRemote),
      mapped.demand_le_one (by decide) (ranks .pmem)⟩
  · intro hfew layer k hk
    obtain ⟨hin, hfirst⟩ := mapped.region_page (demand_whole hfew layer) hk
    rw [mapped.firstTouch_eq hin, touchedOn]
    rcases eq_or_ne layer .numaLocal with rfl | hne
    · split <;> rfl
    · have hzero : k = 0 := by
        cases layer with
        | numaLocal => exact (hne rfl).elim
        | numaRemote => exact Nat.lt_one_iff.mp (hk.trans_le hfew.2.1)
        | pmem => exact Nat.lt_one_iff.mp (hk.trans_le hfew.2.2)
      rw [if_pos (hfirst hzero)]

/-- **Initial placement matches the metadata** exactly when the tiers that are bound to another node
than the thread's have one page at most, and the length of the NUMA-local region does not wrap. The
clients ask for fewer than `2 ^ 64` pages; with more, filling the table throws. -/
theorem placed_at_start_iff (three : server.numTiers = 3)
    (empty : ∀ layer, (server.layer layer).count = 0)
    (small : demand 3 clients .numaLocal + demand 3 clients .numaRemote + demand 3 clients .pmem <
      2 ^ 64) (mapped : Mapped clients alloc) :
    ∃ m, Machine.initPageTable ⟨PageTable.new clients server ring, {}⟩ alloc = .ok m ∧
      (m.Placed ↔ demand 3 clients .numaLocal * pageSize.toNat < 2 ^ 64 ∧
        demand 3 clients .numaRemote ≤ 1 ∧ demand 3 clients .pmem ≤ 1) := by
  obtain ⟨m, start, started⟩ := Machine.initPageTable_spec three empty small ring alloc
  exact ⟨m, start, started.placed_iff_demand (by rw [length_layout]; exact small) mapped⟩

end Start

/-! ## Small machines -/

/-- Regions of fewer than `2 ^ 32` bytes, far apart. -/
def spreadAllocation : PageTable.Allocation where
  base
    | .numaLocal => 4294967296
    | .numaRemote => 8589934592
    | .pmem => 12884901888
  now := fun _ => 0
  rawAccessCnt := fun _ => 0

theorem mapped_spreadAllocation {clients : List ClientConfig}
    (short : ∀ layer, (regionSize clients layer).toNat < 2 ^ 32) :
    Mapped clients spreadAllocation := by
  constructor
  case aligned =>
    intro layer _
    cases layer <;> decide
  case fits =>
    intro layer
    have hlt := short layer
    cases layer <;> simp only [spreadAllocation, UInt64.reduceToNat] <;> omega
  case apart =>
    intro layer layer' page h h'
    have hlt := short layer
    have hlt' := short layer'
    rw [inRegion_iff] at h h'
    cases layer <;> cases layer' <;> first
      | rfl
      | (simp only [spreadAllocation, UInt64.reduceToNat] at h h'
         omega)

/-- One page in each tier: all are where the metadata says. -/
theorem one_page_each_placed : ∃ m,
    Machine.initPageTable ⟨PageTable.new [⟨.uniform, [1, 1, 1]⟩] { numTiers := 3 } false, {}⟩
      spreadAllocation = .ok m ∧ m.Placed := by
  have hmapped : Mapped [⟨.uniform, [1, 1, 1]⟩] spreadAllocation :=
    mapped_spreadAllocation fun layer => by cases layer <;> decide
  obtain ⟨m, start, h⟩ := @placed_at_start_iff _ { numTiers := 3 } false _ rfl
    (by intro layer; cases layer <;> rfl) (by decide) hmapped
  exact ⟨m, start, h.mpr (by decide)⟩

/-- The second page of the remote tier is not bound, and resides on node 0. -/
theorem second_remote_page_is_local : ∃ m e,
    Mapped [⟨.uniform, [1, 2, 1]⟩] spreadAllocation ∧
    Machine.initPageTable ⟨PageTable.new [⟨.uniform, [1, 2, 1]⟩] { numTiers := 3 } false, {}⟩
      spreadAllocation = .ok m ∧
    m.pageTable.table.lookup 2 = some e ∧ e.metadata.pageLayer = .numaRemote ∧
    m.memory.node (pageNumber e.pageAddress) = some 0 ∧ ¬ m.Placed := by
  have hrun : ∃ m e,
      Machine.initPageTable ⟨PageTable.new [⟨.uniform, [1, 2, 1]⟩] { numTiers := 3 } false, {}⟩
        spreadAllocation = .ok m ∧
      m.pageTable.table.lookup 2 = some e ∧ e.metadata.pageLayer = .numaRemote ∧
      m.memory.node (pageNumber e.pageAddress) = some 0 :=
    ⟨_, _, rfl, rfl, rfl, rfl⟩
  obtain ⟨m, e, start, hlookup, hlayer, hnode⟩ := hrun
  refine ⟨m, e, ?_, start, hlookup, hlayer, hnode, ?_⟩
  · exact mapped_spreadAllocation fun layer => by cases layer <;> decide
  · intro placed
    have hplaced := placed 2 e hlookup
    rw [hnode, hlayer] at hplaced
    exact absurd hplaced (by decide)

end MemoryTiering
