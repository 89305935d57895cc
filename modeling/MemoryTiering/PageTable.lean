import MemoryTiering.ClockRing
import MemoryTiering.Metrics
import MemoryTiering.Lib.Table

/-!
# The page table

`src/server/PageTable.cpp`: which tier each page is in, the occupancy of the tiers, and the clock
ring of NUMA-local pages. A call takes what it reads from outside as arguments: the latency
`access_page` measures, and the nanoseconds `steady_clock::now()` shows. It answers a `Fault` where
the program aborts or follows a dead pointer.
-/

set_option autoImplicit false

namespace MemoryTiering

open Pointer

/-- `PAGE_SIZE` -/
def pageSize : SizeT := 4096

/-- `HUGE_PAGE_SIZE` -/
def hugePageSize : SizeT := 2 * 1024 * 1024

/-- `duration_cast<milliseconds>(now.time_since_epoch()).count()`, as a `uint64_t`. -/
def milliseconds (now : Nat) : UInt64 := UInt64.ofNat (now / 1000000)

/-- `duration_cast<microseconds>(now.time_since_epoch()).count()`, as a `uint64_t`. -/
def microseconds (now : Nat) : UInt64 := UInt64.ofNat (now / 1000)

/-- `current_layer_info->count--; target_layer_info->count++;` -/
def ServerMemoryConfig.recount (config : ServerMemoryConfig) (current target : PageLayer) :
    ServerMemoryConfig :=
  (config.modify (fun info => { info with count := info.count - 1 }) current).modify
    (fun info => { info with count := info.count + 1 }) target

structure PageMetadata where
  pageLayer : PageLayer
  lastAccessTimeMs : UInt64
  accessCnt : UInt32
  ringNodePtr : Option Addr
  deriving DecidableEq

/-- The constructor. It stores a microsecond count, and leaves `access_cnt` as whatever bytes the
allocation held. -/
def PageMetadata.new (layer : PageLayer) (now : Nat) (rawAccessCnt : UInt32) : PageMetadata where
  pageLayer := layer
  lastAccessTimeMs := microseconds now
  accessCnt := rawAccessCnt
  ringNodePtr := none

/-- `ring_node_ptr.store(node)` -/
def PageMetadata.setRingNode (node : Option Addr) (m : PageMetadata) : PageMetadata :=
  { m with ringNodePtr := node }

/-- `page_layer = layer` -/
def PageMetadata.setLayer (layer : PageLayer) (m : PageMetadata) : PageMetadata :=
  { m with pageLayer := layer }

/-- The stores of an access. -/
def PageMetadata.accessed (now : Nat) (m : PageMetadata) : PageMetadata :=
  { m with lastAccessTimeMs := milliseconds now, accessCnt := m.accessCnt + 1 }

/-- The stores at the end of a migration. -/
def PageMetadata.reset (now : Nat) (m : PageMetadata) : PageMetadata :=
  { m with lastAccessTimeMs := milliseconds now, accessCnt := 0 }

section Stores

variable (m : PageMetadata) (node : Option Addr) (layer : PageLayer) (now : Nat)

@[simp] theorem PageMetadata.ringNodePtr_setRingNode :
    (m.setRingNode node).ringNodePtr = node := rfl

@[simp] theorem PageMetadata.pageLayer_setRingNode :
    (m.setRingNode node).pageLayer = m.pageLayer := rfl

@[simp] theorem PageMetadata.ringNodePtr_setLayer :
    (m.setLayer layer).ringNodePtr = m.ringNodePtr := rfl

@[simp] theorem PageMetadata.pageLayer_setLayer : (m.setLayer layer).pageLayer = layer := rfl

end Stores

structure PageTableEntry where
  pageAddress : SizeT
  metadata : PageMetadata
  deriving DecidableEq

/-- The ring is there exactly when `enable_cache_ring_` is set: the constructor makes it so, and no
method changes either. -/
structure PageTable where
  clientConfigs : List ClientConfig
  serverConfig : ServerMemoryConfig
  table : Table PageId PageTableEntry
  localPageLoad : SizeT
  remotePageLoad : SizeT
  pmemPageLoad : SizeT
  scanIndex : SizeT
  localCacheRing : Option ClockRing
  metrics : Metrics

namespace PageTable

/-! ## Construction -/

/-- The pages all clients ask for in tier `i`, added up in `size_t`. -/
def pageLoad (clientConfigs : List ClientConfig) (i : Nat) : SizeT :=
  clientConfigs.foldl (fun load client => load + client.tier i) 0

/-- The constructor. -/
def new (clientConfigs : List ClientConfig) (serverConfig : ServerMemoryConfig)
    (enableCacheRing : Bool) : PageTable :=
  let three := serverConfig.numTiers = 3
  let two := serverConfig.numTiers = 2
  let localPageLoad := if two ∨ three then pageLoad clientConfigs 0 else 0
  { clientConfigs
    serverConfig
    table := ∅
    localPageLoad
    remotePageLoad := if three then pageLoad clientConfigs 1 else 0
    pmemPageLoad :=
      if two then pageLoad clientConfigs 1 else if three then pageLoad clientConfigs 2 else 0
    scanIndex := 0
    localCacheRing := if enableCacheRing then some (.new localPageLoad) else none
    metrics := {} }

/-- What filling the table reads from outside: where the three regions were mapped, the clock when
each entry was made, and the bytes each entry's `access_cnt` was left with. -/
structure Allocation where
  base : PageLayer → SizeT
  now : PageId → Nat
  rawAccessCnt : PageId → UInt32

/-- A store through a reference to a page's metadata. -/
def store (t : PageTable) (pageId : PageId) (f : PageMetadata → PageMetadata) : PageTable :=
  { t with table := t.table.update pageId fun e => { e with metadata := f e.metadata } }

/-- The ring changed in place. -/
def withRing (t : PageTable) (ring : ClockRing) : PageTable :=
  { t with localCacheRing := some ring }

/-- A NUMA-local page enters the ring, and its metadata gets the node. The two callers assert that
the ring took it. -/
def enterRing (assertion : Assertion) (t : PageTable) (pageId : PageId) (layer : PageLayer) :
    Except Fault PageTable :=
  match t.localCacheRing, layer with
  | some ring, .numaLocal => do
    match ← ring.insert pageId with
    | (none, _) => .error (.assertion assertion)
    | (some node, ring) =>
      .ok ((t.withRing ring).store pageId (.setRingNode (some node)))
  | _, _ => .ok t

/-- The variables the lambda `fillPages` captures. -/
structure Filling where
  pageTable : PageTable
  currentIndex : SizeT := 0
  offsetPages : PageLayer → SizeT := fun _ => 0

/-- One round of the loop of `fillPages`. The map cannot hold `2 ^ 64` entries, so `emplace` throws
before `current_index` wraps. -/
def Filling.fillPage (alloc : Allocation) (layer : PageLayer) (s : Filling) :
    Except Fault Filling :=
  let t := s.pageTable
  let index := s.currentIndex
  let entry : PageTableEntry :=
    { pageAddress := alloc.base layer + s.offsetPages layer * pageSize
      metadata := .new layer (alloc.now index) (alloc.rawAccessCnt index) }
  if 2 ^ 64 ≤ t.table.size + 1 then .error .badAlloc
  else do
    let table := if index ∈ t.table then t.table else t.table.insert index entry
    let t ← { t with table }.enterRing .fillInsert index layer
    .ok { pageTable := t, currentIndex := index + 1,
          offsetPages := fun l => if l = layer then s.offsetPages l + 1 else s.offsetPages l }

def Filling.fillPages (alloc : Allocation) (layer : PageLayer) :
    Nat → Filling → Except Fault Filling
  | 0, s => .ok s
  | count + 1, s => do
    let s ← s.fillPage alloc layer
    s.fillPages alloc layer count

/-- `fillPages` for one client's pages of a layer, and the `count +=` after it. -/
def Filling.fillLayer (alloc : Allocation) (layer : PageLayer) (count : SizeT) (s : Filling) :
    Except Fault Filling := do
  let s ← s.fillPages alloc layer count.toNat
  let config := s.pageTable.serverConfig.modify
    (fun info => { info with count := info.count + count }) layer
  .ok { s with pageTable := { s.pageTable with serverConfig := config } }

/-- One round of the loop over the clients. -/
def Filling.fillClient (alloc : Allocation) (s : Filling) (client : ClientConfig) :
    Except Fault Filling :=
  if s.pageTable.serverConfig.numTiers = 2 then do
    let s ← s.fillLayer alloc .numaLocal (client.tier 0)
    s.fillLayer alloc .pmem (client.tier 1)
  else if s.pageTable.serverConfig.numTiers = 3 then do
    let s ← s.fillLayer alloc .numaLocal (client.tier 0)
    let s ← s.fillLayer alloc .numaRemote (client.tier 1)
    s.fillLayer alloc .pmem (client.tier 2)
  else .ok s

def initPageTable (t : PageTable) (alloc : Allocation) : Except Fault PageTable := do
  let s ← t.clientConfigs.foldlM (Filling.fillClient alloc) { pageTable := t }
  .ok s.pageTable

/-! ## Reading -/

/-- The metadata of a page. -/
def meta? (t : PageTable) (pageId : PageId) : Option PageMetadata :=
  (t.table.lookup pageId).map (·.metadata)

/-- The layer of a page. -/
def layer? (t : PageTable) (pageId : PageId) : Option PageLayer :=
  (t.meta? pageId).map (·.pageLayer)

/-- `table_.size()` -/
def size (t : PageTable) : SizeT := UInt64.ofNat t.table.size

def getPageMetaData (t : PageTable) (pageId : PageId) : PageLayer × UInt64 × UInt32 :=
  match t.meta? pageId with
  | none => (.numaLocal, 0, 0)
  | some m => (m.pageLayer, m.lastAccessTimeMs, m.accessCnt)

/-- Answers the page to scan, and moves on. -/
def scanNext (t : PageTable) : PageId × PageTable :=
  let next := t.scanIndex + 1
  (t.scanIndex, { t with scanIndex := if t.size ≤ next then 0 else next })

/-! ## Accesses -/

/-- `latency` is what `access_page` measures at an address. -/
def accessPage (latency : SizeT → OperationType → UInt64) (now : Nat) (t : PageTable)
    (pageId : PageId) (mode : OperationType) : Except Fault PageTable :=
  match t.table.lookup pageId with
  | none => .ok t
  | some entry => do
    let accessTime := latency entry.pageAddress mode
    let t ←
      match t.localCacheRing, entry.metadata.pageLayer with
      | some ring, .numaLocal => do
        let ring ← ring.markAccessed entry.metadata.ringNodePtr
        .ok (t.withRing ring)
      | _, _ => .ok t
    let t := t.store pageId (.accessed now)
    .ok { t with
      metrics := (t.metrics.recordAccessLatency accessTime).incrementAccess
        entry.metadata.pageLayer }

/-! ## Migrations -/

/-- Where `migratePage` returned. -/
inductive Exit where
  | notFound
  | targetFull
  | moved
  deriving DecidableEq, Repr

/-- How `ClockRing::remove` acts on a node pointer. -/
abbrev Removal := ClockRing → Option Addr → Except Fault ClockRing

/-- The case `NUMA_LOCAL` of the second switch: the page's node leaves the ring. -/
def takeFromRing (remove : Removal) (t : PageTable) (pageIndex : PageId) (m : PageMetadata) :
    Except Fault PageTable :=
  match t.localCacheRing, m.pageLayer with
  | some ring, .numaLocal => do
    let t := t.store pageIndex (.setRingNode none)
    let ring ← remove ring m.ringNodePtr
    .ok (t.withRing ring)
  | _, _ => .ok t

/-- Where an evicted page goes: `NUMA_REMOTE`, or `PMEM` when that is full. -/
def evictionTarget (config : ServerMemoryConfig) : PageLayer :=
  if config.remoteNuma.isFull then .pmem else .numaRemote

/-- The eviction: whatever the nested call answers, its effect stays. -/
def evict (migrate : PageTable → PageId → PageLayer → Except Fault (Exit × PageTable))
    (t : PageTable) (ring : ClockRing) : Except Fault PageTable := do
  let c ← ring.findEvictionCandidate
  let t := t.withRing c.ring
  let answer ← migrate t c.victim (evictionTarget t.serverConfig)
  .ok answer.2

/-- The capacity check; `none` is the early return. -/
def checkCapacity (migrate : PageTable → PageId → PageLayer → Except Fault (Exit × PageTable))
    (t : PageTable) (target : PageLayer) : Except Fault (Option PageTable) :=
  match t.localCacheRing, target with
  | some ring, .numaLocal =>
    if (t.serverConfig.layer target).isFull then do
      let t ← t.evict migrate ring
      .ok (some t)
    else .ok (some t)
  | _, _ => if (t.serverConfig.layer target).isFull then .ok none else .ok (some t)

/-- What follows the move: the page's timestamp and access count, the two occupancies, and the
metrics. -/
def settle (now : Nat) (t : PageTable) (pageIndex : PageId) (current target : PageLayer) :
    PageTable :=
  let t := t.store pageIndex (.reset now)
  { t with
    serverConfig := t.serverConfig.recount current target
    metrics := t.metrics.incrementMigration current target }

/-- From `migrate_page` to the end. -/
def finishMove (now : Nat) (t : PageTable) (pageIndex : PageId) (current target : PageLayer) :
    Except Fault PageTable := do
  let t := t.store pageIndex (.setLayer target)
  let t ← t.enterRing .migrateInsert pageIndex target
  .ok (t.settle now pageIndex current target)

/-- The body of `migratePage`, over the function its recursive call stands for. -/
def migrateBody (remove : Removal)
    (migrate : PageTable → PageId → PageLayer → Except Fault (Exit × PageTable)) (now : Nat)
    (t : PageTable) (pageIndex : PageId) (target : PageLayer) : Except Fault (Exit × PageTable) :=
  match t.meta? pageIndex with
  | none => .ok (.notFound, t)
  | some m => do
    let t ← t.takeFromRing remove pageIndex m
    match ← t.checkCapacity migrate target with
    | none => .ok (.targetFull, t)
    | some t => do
      let t ← t.finishMove now pageIndex m.pageLayer target
      .ok (.moved, t)

/-- `migratePage` over a reading of `remove`. The clock reads `evictNow` in a nested call and `now`
after it. A nested call does not evict, so the recursion is unrolled twice
(`migrateWith_eq_body`). -/
def migrateWith (remove : Removal) (evictNow now : Nat) : PageTable → PageId → PageLayer →
    Except Fault (Exit × PageTable) :=
  migrateBody remove (migrateBody remove (fun _ _ _ => .error .outOfFuel) evictNow) now

def migratePage : Nat → Nat → PageTable → PageId → PageLayer → Except Fault (Exit × PageTable) :=
  migrateWith ClockRing.remove

/-! ## Huge pages -/

/-- A call `madvise(address, length, MADV_HUGEPAGE)`. What it returns is only logged. -/
structure Advice where
  address : SizeT
  length : SizeT
  deriving DecidableEq, Repr

/-- The lambda `promoteRegion`. -/
def promoteRegion (base numPages : SizeT) : Option Advice :=
  if base = 0 ∨ numPages = 0 then none
  else
    let alignedAddr := base &&& ~~~(hugePageSize - 1)
    let alignedSize := numPages * pageSize + (base - alignedAddr)
    some ⟨alignedAddr, (alignedSize + hugePageSize - 1) &&& ~~~(hugePageSize - 1)⟩

/-- What `promoteToHugePage` asks the kernel for, over where the regions were mapped. -/
def promoteToHugePage (base : PageLayer → SizeT) (t : PageTable) : List Advice :=
  (promoteRegion (base .numaLocal) t.localPageLoad).toList ++
    (if t.serverConfig.numTiers = 3 then
      (promoteRegion (base .numaRemote) t.remotePageLoad).toList else []) ++
    (promoteRegion (base .pmem) t.pmemPageLoad).toList

end PageTable

end MemoryTiering
