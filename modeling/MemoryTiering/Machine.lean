import MemoryTiering.Memory

/-!
# The page table over memory

The parts of `src/server/PageTable.cpp` that place pages: `_allocateMemory`,
`_generateRandomContent`, `initPageTable`, `migratePage` and the destructor, over the table and the
memory. What `migratePage` does to the table is what `PageTable.migratePage` says; here it also asks
the kernel to move the page, and the process can exit.
-/

set_option autoImplicit false

namespace MemoryTiering

open Pointer

/-- A call of the table, which can only fault. -/
def orFault {α : Type} : Except Fault α → Except Stop α
  | .ok a => .ok a
  | .error fault => .error (.fault fault)

structure Machine where
  pageTable : PageTable
  memory : Memory

namespace Machine

/-! ## Construction -/

/-- `_allocateMemory`: the three base pointers, and the memory. The kernel chooses `addr`. -/
def allocateMemory (m : Machine) (addr : PageLayer → SizeT) :
    Except Stop ((PageLayer → SizeT) × Memory) :=
  let t := m.pageTable
  if t.serverConfig.numTiers = 2 then do
    let mem ← m.memory.allocatePages (addr .numaLocal) pageSize
      (t.localPageLoad + t.remotePageLoad)
    let (pmemBase, mem) := mem.allocateAndBindToNuma (addr .pmem) pageSize t.pmemPageLoad 2
    .ok (fun
      | .numaLocal => addr .numaLocal
      | .numaRemote => 0
      | .pmem => pmemBase, mem)
  else
    let (localBase, mem) :=
      m.memory.allocateAndBindToNuma (addr .numaLocal) pageSize t.localPageLoad 0
    let (remoteBase, mem) :=
      mem.allocateAndBindToNuma (addr .numaRemote) pageSize t.remotePageLoad 1
    let (pmemBase, mem) := mem.allocateAndBindToNuma (addr .pmem) pageSize t.pmemPageLoad 2
    .ok (fun
      | .numaLocal => localBase
      | .numaRemote => remoteBase
      | .pmem => pmemBase, mem)

/-- `_generateRandomContent`, as far as it places pages. -/
def generateRandomContent (t : PageTable) (base : PageLayer → SizeT) (mem : Memory) : Memory :=
  let localSize :=
    if t.serverConfig.numTiers = 2 then (t.localPageLoad + t.remotePageLoad) * pageSize
    else t.localPageLoad * pageSize
  let remoteSize := if t.serverConfig.numTiers = 3 then t.remotePageLoad * pageSize else 0
  let mem := mem.touch (base .numaLocal) localSize
  let mem := if t.serverConfig.numTiers = 3 then mem.touch (base .numaRemote) remoteSize else mem
  mem.touch (base .pmem) (t.pmemPageLoad * pageSize)

/-- `alloc.base` is what the kernel chooses. -/
def initPageTable (m : Machine) (alloc : PageTable.Allocation) : Except Stop Machine := do
  let (base, memory) ← m.allocateMemory alloc.base
  let memory := generateRandomContent m.pageTable base memory
  let pageTable ← orFault (m.pageTable.initPageTable { alloc with base })
  .ok { pageTable, memory }

/-! ## Migrations -/

/-- The eviction: whatever the nested call answers, its effect stays. -/
def evict (migrate : Machine → PageId → PageLayer → Except Stop (PageTable.Exit × Machine))
    (m : Machine) (ring : ClockRing) : Except Stop Machine := do
  let c ← orFault ring.findEvictionCandidate
  let m := { m with pageTable := m.pageTable.withRing c.ring }
  let answer ← migrate m c.victim (PageTable.evictionTarget m.pageTable.serverConfig)
  .ok answer.2

/-- The capacity check; `none` is the early return. -/
def checkCapacity (migrate : Machine → PageId → PageLayer → Except Stop (PageTable.Exit × Machine))
    (m : Machine) (target : PageLayer) : Except Stop (Option Machine) :=
  match m.pageTable.localCacheRing, target with
  | some ring, .numaLocal =>
    if (m.pageTable.serverConfig.layer target).isFull then do
      let m ← m.evict migrate ring
      .ok (some m)
    else .ok (some m)
  | _, _ =>
    if (m.pageTable.serverConfig.layer target).isFull then .ok none else .ok (some m)

/-- The body of `migratePage`, over the function its recursive call stands for. The move comes
between the capacity check and the metadata. -/
def migrateBody (migrate : Machine → PageId → PageLayer → Except Stop (PageTable.Exit × Machine))
    (report : MoveReport) (now : Nat) (m : Machine) (pageIndex : PageId) (target : PageLayer) :
    Except Stop (PageTable.Exit × Machine) :=
  match m.pageTable.table.lookup pageIndex with
  | none => .ok (.notFound, m)
  | some entry => do
    let t ← orFault (m.pageTable.takeFromRing ClockRing.remove pageIndex entry.metadata)
    match ← checkCapacity migrate { m with pageTable := t } target with
    | none => .ok (.targetFull, { m with pageTable := t })
    | some m => do
      let memory ← m.memory.migratePage entry.pageAddress target report
      let t ← orFault (m.pageTable.finishMove now pageIndex entry.metadata.pageLayer target)
      .ok (.moved, { pageTable := t, memory })

/-- What one call reads from outside: the clock and the kernel's report, in a nested call and in the
call itself. -/
structure MoveInputs where
  evictNow : Nat
  evictReport : MoveReport
  now : Nat
  report : MoveReport
  deriving DecidableEq, Repr

/-- A nested call does not evict, so the recursion is unrolled twice, as in the table. -/
def migratePage (inputs : MoveInputs) :
    Machine → PageId → PageLayer → Except Stop (PageTable.Exit × Machine) :=
  migrateBody
    (migrateBody (fun _ _ _ => .error (.fault .outOfFuel)) inputs.evictReport inputs.evictNow)
    inputs.report inputs.now

/-! ## Destruction -/

/-- What the destructors leave. -/
structure Remains where
  memory : Memory
  ring : Option ClockRing.Destruction

/-- One `if` of the destructor. -/
def unmapRegion (base load : SizeT) (mem : Memory) : Memory :=
  if base = 0 then mem else mem.munmap base (load * pageSize)

/-- `~PageTable`, over the base pointers `_allocateMemory` stored. The ring goes after the regions,
as a member. -/
def destroy (m : Machine) (base : PageLayer → SizeT) : Except Fault Remains :=
  let t := m.pageTable
  let mem := unmapRegion (base .numaLocal) t.localPageLoad m.memory
  let mem := unmapRegion (base .numaRemote) t.remotePageLoad mem
  let mem := unmapRegion (base .pmem) t.pmemPageLoad mem
  match t.localCacheRing with
  | none => .ok { memory := mem, ring := none }
  | some ring => do
    let destruction ← ring.destroy
    .ok { memory := mem, ring := some destruction }

end Machine

end MemoryTiering
