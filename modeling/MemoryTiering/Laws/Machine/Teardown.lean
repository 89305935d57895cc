import MemoryTiering.Laws.ClockRing.Destruction
import MemoryTiering.Laws.Machine.Moves
import MemoryTiering.Laws.PageTable.Coupling
import MemoryTiering.Laws.PageTable.HugePages

/-!
# The end of a machine

The kernel keeps a page for as long as it is bound or resident. Starting maps the regions; a call
touches no page of memory but that of a page of the table, and the table's pages lie in the regions
(`Confined`); the destructor unmaps the regions by the sizes the constructor added up, which are
those they were mapped with, on two tiers as on three. So the kernel keeps nothing in the end, and
neither does the heap of the ring (`destroy_leaves_nothing`).
-/

set_option autoImplicit false

namespace MemoryTiering

open Fallible Pointer Transition

/-! ## Pages the kernel keeps -/

namespace Memory

/-- The kernel keeps the page. -/
def Holds (mem : Memory) (page : SizeT) : Prop := mem.bound page ≠ none ∨ mem.node page ≠ none

section Calls

variable {mem mem' : Memory} {addr len number page : SizeT}

theorem holds_mmap (h : (mem.mmap addr len).Holds page) : mem.Holds page := by
  unfold Holds mmap at h
  dsimp only at h
  split at h
  · exact (h.elim (· rfl) (· rfl)).elim
  · exact h

theorem holds_mbind {numaNode : Nat} (h : (mem.mbind addr len numaNode).Holds page) :
    mem.Holds page ∨ overlaps addr len page = true := by
  unfold Holds mbind at h
  dsimp only at h
  split at h
  next hin => exact .inr hin
  next => exact .inl h

theorem holds_touch (h : (mem.touch addr len).Holds page) :
    mem.Holds page ∨ overlaps addr len page = true := by
  unfold Holds touch at h
  dsimp only at h
  split at h
  next hin => exact .inr hin.1
  next => exact .inl h

theorem holds_munmap : (mem.munmap addr len).Holds page ↔
    mem.Holds page ∧ ¬ overlaps addr len page = true := by
  unfold Holds munmap
  dsimp only
  split
  next hin => exact iff_of_false (fun h => h.elim (· rfl) (· rfl)) fun h => h.2 hin
  next hout => exact (and_iff_left hout).symm

/-- A mapping that is there has a page. -/
theorem overlaps_of_first (some : pageSize * number ≠ 0)
    (h : overlaps addr pageSize page = true) : overlaps addr (pageSize * number) page = true := by
  have hpage : pageSize.toNat = 4096 := rfl
  have hpos : (pageSize * number).toNat ≠ 0 := fun h => some (UInt64.toNat_inj.mp h)
  rw [UInt64.toNat_mul, hpage] at hpos
  rw [overlaps_iff, hpage] at h
  rw [overlaps_iff, UInt64.toNat_mul, hpage]
  omega

theorem holds_allocatePages (call : mem.allocatePages addr pageSize number = .ok mem')
    (h : mem'.Holds page) : mem.Holds page ∨ overlaps addr (pageSize * number) page = true := by
  unfold allocatePages at call
  split at call
  · cases call
  · cases call
    exact (holds_touch h).imp_left holds_mmap

/-- The bound page is one of the mapping. -/
theorem holds_allocateAndBindToNuma {numaNode : Nat}
    (h : (mem.allocateAndBindToNuma addr pageSize number numaNode).2.Holds page) :
    mem.Holds page ∨
      overlaps (mem.allocateAndBindToNuma addr pageSize number numaNode).1 (pageSize * number)
        page = true := by
  unfold allocateAndBindToNuma at h ⊢
  split at h
  next => exact .inl h
  next hsome =>
    rw [if_neg hsome]
    rcases holds_touch h with h | hin
    · exact (holds_mbind h).imp holds_mmap (overlaps_of_first hsome)
    · exact .inr hin

theorem holds_migratePage {target : PageLayer} {report : MoveReport}
    (call : mem.migratePage addr target report = .ok mem') (h : mem'.Holds page) :
    mem.Holds page ∨ page = pageNumber addr := by
  cases report with
  | failed => cases call
  | error =>
    cases call
    exact .inl h
  | placed =>
    cases call
    unfold Holds at h
    dsimp only at h
    split at h
    next hpage => exact .inr hpage
    next => exact .inl h

end Calls

end Memory

namespace Machine

/-! ## The start -/

/-- The page is in one of the regions that the destructor unmaps. -/
def InRegions (t : PageTable) (base : PageLayer → SizeT) (page : SizeT) : Prop :=
  ∃ layer, overlaps (base layer) (t.load layer * pageSize) page = true

section Start

variable {m m₀ : Machine} {addr base : PageLayer → SizeT} {mem : Memory}

/-- A base pointer is the address the kernel chose, unless there is nothing to map. -/
theorem allocateMemory_base (remote : m.pageTable.serverConfig.numTiers = 2 →
      m.pageTable.remotePageLoad = 0)
    (call : m.allocateMemory addr = .ok (base, mem)) (layer : PageLayer) :
    base layer = addr layer ∨ m.pageTable.load layer * pageSize = 0 := by
  have hbound : ∀ (mem : Memory) addr number numaNode,
      (mem.allocateAndBindToNuma addr pageSize number numaNode).1 = addr ∨
        number * pageSize = 0 := by
    intro mem addr number numaNode
    rw [Memory.base_allocateAndBindToNuma, UInt64.mul_comm number]
    split
    next hzero => exact .inr hzero
    next => exact .inl rfl
  unfold allocateMemory at call
  dsimp only at call
  split at call
  next htwo =>
    obtain ⟨mem₁, _, call⟩ := bind_eq_ok.mp call
    cases call
    cases layer with
    | numaLocal => exact .inl rfl
    | numaRemote =>
      right
      show m.pageTable.remotePageLoad * pageSize = 0
      rw [remote htwo, UInt64.zero_mul]
    | pmem => exact hbound ..
  next =>
    cases call
    cases layer <;> exact hbound ..

/-- **What `_allocateMemory` maps** is in the regions. -/
theorem holds_allocateMemory (remote : m.pageTable.serverConfig.numTiers = 2 →
      m.pageTable.remotePageLoad = 0)
    (call : m.allocateMemory addr = .ok (base, mem)) {page : SizeT} (h : mem.Holds page) :
    m.memory.Holds page ∨ InRegions m.pageTable base page := by
  unfold allocateMemory at call
  dsimp only at call
  split at call
  next htwo =>
    obtain ⟨mem₁, hallocate, call⟩ := bind_eq_ok.mp call
    cases call
    rcases Memory.holds_allocateAndBindToNuma h with h | hin
    · refine (Memory.holds_allocatePages hallocate h).imp_right fun hin => ⟨.numaLocal, ?_⟩
      rwa [remote htwo, UInt64.add_zero, UInt64.mul_comm] at hin
    · exact .inr ⟨.pmem, UInt64.mul_comm pageSize _ ▸ hin⟩
  next =>
    cases call
    rcases Memory.holds_allocateAndBindToNuma h with h | hin
    · rcases Memory.holds_allocateAndBindToNuma h with h | hin
      · exact (Memory.holds_allocateAndBindToNuma h).imp_right fun hin =>
          ⟨.numaLocal, UInt64.mul_comm pageSize _ ▸ hin⟩
      · exact .inr ⟨.numaRemote, UInt64.mul_comm pageSize _ ▸ hin⟩
    · exact .inr ⟨.pmem, UInt64.mul_comm pageSize _ ▸ hin⟩

/-- So is what `_generateRandomContent` writes. -/
theorem holds_generateRandomContent {t : PageTable} (remote : t.serverConfig.numTiers = 2 →
      t.remotePageLoad = 0) {page : SizeT}
    (h : (generateRandomContent t base mem).Holds page) :
    mem.Holds page ∨ InRegions t base page := by
  have hlocal : ∀ {mem : Memory}, (mem.touch (base .numaLocal)
      (if t.serverConfig.numTiers = 2 then (t.localPageLoad + t.remotePageLoad) * pageSize
        else t.localPageLoad * pageSize)).Holds page → mem.Holds page ∨ InRegions t base page := by
    intro mem h
    refine (Memory.holds_touch h).imp_right fun hin => ⟨.numaLocal, ?_⟩
    split at hin
    next htwo => rwa [remote htwo, UInt64.add_zero] at hin
    next => exact hin
  unfold generateRandomContent at h
  dsimp only at h
  rcases Memory.holds_touch h with h | hin
  · split at h
    next hthree =>
      rcases Memory.holds_touch h with h | hin
      · exact hlocal h
      · exact .inr ⟨.numaRemote, hin⟩
    next => exact hlocal h
  · exact .inr ⟨.pmem, hin⟩

end Start

/-! ## Calls -/

/-- A call of the manager or the scanner, with what the kernel reports of the pages it moves. -/
structure ServerCall where
  call : PageTable.Call
  evictReport : MoveReport
  report : MoveReport

def ServerCall.apply (m : Machine) (c : ServerCall) : Except Stop Machine :=
  match c.call with
  | .migratePage evictNow now pageId target => do
    let answer ← m.migratePage
      { evictNow, evictReport := c.evictReport, now, report := c.report } pageId target
    .ok answer.2
  | call => do
    let pageTable ← orFault (call.apply m.pageTable)
    .ok { m with pageTable }

/-- One call that returns. -/
structure Serves (m : Machine) (e : Machine × ServerCall) (m' : Machine) : Prop where
  before : e.1 = m
  call : e.2.apply m = .ok m'

/-- The kernel keeps no page but those it kept, and those of the table. The table's regions are the
same. -/
structure Confined (m m' : Machine) : Prop where
  regions : PageTable.SameRegions m.pageTable m'.pageTable
  holds : ∀ page, m'.memory.Holds page →
    m.memory.Holds page ∨ ∃ p a, m.pageTable.address? p = some a ∧ page = pageNumber a

section Calls

variable {m m' m'' : Machine} {p : PageId} {target : PageLayer} {exit : PageTable.Exit}
  {migrate : Machine → PageId → PageLayer → Except Stop (PageTable.Exit × Machine)}

theorem Confined.trans (h : Confined m m') (k : Confined m' m'') : Confined m m'' where
  regions := PageTable.framed_sameRegions.trans h.regions k.regions
  holds page held := by
    rcases k.holds page held with held | ⟨p, a, ha, hpage⟩
    · exact h.holds page held
    · exact .inr ⟨p, a, (h.regions.address p).symm.trans ha, hpage⟩

/-- A call that only writes the table. -/
theorem confined_table {t : PageTable} (h : PageTable.SameRegions m.pageTable t) :
    Confined m { m with pageTable := t } :=
  ⟨h, fun _ => .inl⟩

theorem confined_checkCapacity
    (nested : ∀ m p target exit m', migrate m p target = .ok (exit, m') → Confined m m')
    (call : m.checkCapacity migrate target = .ok (some m')) : Confined m m' := by
  have hself : Confined m m := confined_table (PageTable.framed_sameRegions.refl _)
  by_cases hplain : m.pageTable.localCacheRing = none ∨ target ≠ .numaLocal
  · rw [checkCapacity_plain m hplain] at call
    split at call
    · cases call
    · cases call
      exact hself
  · obtain ⟨hring, htarget⟩ := not_or.mp hplain
    obtain ⟨ring, hring⟩ := Option.ne_none_iff_exists'.mp hring
    rw [not_not.mp htarget, checkCapacity_promotion hring] at call
    split at call
    · obtain ⟨m₁, hevict, call⟩ := bind_eq_ok.mp call
      cases call
      obtain ⟨c, _, hevict⟩ := bind_eq_ok.mp hevict
      obtain ⟨⟨exit, m₂⟩, hmigrate, hevict⟩ := bind_eq_ok.mp hevict
      cases hevict
      exact (confined_table (PageTable.framed_sameRegions.withRing ..)).trans
        (nested _ _ _ _ _ hmigrate)
    · cases call
      exact hself

/-- **The step lemma of a migration**: the page the kernel moves is the one under the page of the
table, whose address no call has changed. -/
theorem confined_migrateBody {report : MoveReport} {now : Nat}
    (nested : ∀ m p target exit m', migrate m p target = .ok (exit, m') → Confined m m')
    (call : migrateBody migrate report now m p target = .ok (exit, m')) : Confined m m' := by
  rcases migrateBody_cases call with ⟨_, _, rfl⟩ | ⟨e, t₁, he, htake, hrest⟩
  · exact confined_table (PageTable.framed_sameRegions.refl _)
  · have htaken : Confined m { m with pageTable := t₁ } :=
      confined_table (PageTable.framed_sameRegions.takeFromRing htake)
    rcases hrest with ⟨_, _, rfl⟩ | ⟨m₂, hcheck, _, hmove, hfinish⟩
    · exact htaken
    · have hchecked := htaken.trans (confined_checkCapacity nested hcheck)
      refine hchecked.trans ⟨PageTable.framed_sameRegions.finishMove hfinish, ?_⟩
      intro page held
      refine (Memory.holds_migratePage hmove held).imp_right fun hpage => ⟨p, _, ?_, hpage⟩
      rw [hchecked.regions.address, PageTable.address?, he, Option.map_some]

/-- **No call that returns leaves the frame.** -/
theorem Serves.confined {e : Machine × ServerCall} (h : Serves m e m') : Confined m m' := by
  obtain ⟨m₀, call, evictReport, report⟩ := e
  obtain ⟨rfl, happly⟩ := h
  cases call with
  | migratePage evictNow now p target =>
    obtain ⟨⟨exit, m₁⟩, hcall, happly⟩ := bind_eq_ok.mp happly
    cases happly
    refine confined_migrateBody (fun m p target exit m' hnested => ?_) hcall
    refine confined_migrateBody (fun m p target exit m' hnever => ?_) hnested
    cases hnever
  | accessPage latency now p mode =>
    obtain ⟨t, hcall, happly⟩ := bind_eq_ok.mp happly
    cases happly
    exact confined_table (PageTable.sameRegions_call (orFault_eq_ok.mp hcall))
  | scanNext =>
    obtain ⟨t, hcall, happly⟩ := bind_eq_ok.mp happly
    cases happly
    exact confined_table (PageTable.sameRegions_call (orFault_eq_ok.mp hcall))

/-- A call of the machine is a call of its table. -/
theorem Serves.table {e : Machine × ServerCall} (h : Serves m e m') :
    PageTable.Step m.pageTable (e.1.pageTable, e.2.call) m'.pageTable := by
  obtain ⟨m₀, call, evictReport, report⟩ := e
  obtain ⟨rfl, happly⟩ := h
  refine ⟨rfl, ?_⟩
  cases call with
  | migratePage evictNow now p target =>
    obtain ⟨⟨exit, m₁⟩, hcall, happly⟩ := bind_eq_ok.mp happly
    cases happly
    have htable := migratePage_refines hcall
    exact bind_eq_ok.mpr ⟨(exit, m₁.pageTable), htable, rfl⟩
  | accessPage latency now p mode =>
    obtain ⟨t, hcall, happly⟩ := bind_eq_ok.mp happly
    cases happly
    exact orFault_eq_ok.mp hcall
  | scanNext =>
    obtain ⟨t, hcall, happly⟩ := bind_eq_ok.mp happly
    cases happly
    exact orFault_eq_ok.mp hcall

end Calls

/-! ## Runs -/

section Runs

variable {config : AcceptedConfig} {ring : Bool} {alloc : PageTable.Allocation} {m m₀ : Machine}
  {es : List (Machine × ServerCall)}

/-- **The run lemma.** -/
theorem confined_of_run (run : Trace Serves m₀ es m) : Confined m₀ m := by
  refine run.invariant (P := Confined m₀) ?_
    (confined_table (PageTable.framed_sameRegions.refl _))
  intro m₁ e m₂ h hstep
  exact h.trans hstep.confined

/-- A run of the machine is one of its table. -/
theorem table_run (run : Trace Serves m₀ es m) : ∃ fs,
    Trace PageTable.Step m₀.pageTable fs m.pageTable := by
  obtain ⟨t, htrace, rfl⟩ := run.simulate (R := fun m t => m.pageTable = t)
    (fun e => [(e.1.pageTable, e.2.call)])
    (by
      rintro m e m' _ rfl hstep
      exact ⟨_, Trace.single.mpr hstep.table, rfl⟩) rfl
  exact ⟨_, htrace⟩

end Runs

/-! ## The end -/

section End

variable {config : AcceptedConfig} {ring : Bool} {alloc : PageTable.Allocation} {mem₀ : Memory}
  {m m₀ : Machine} {es : List (Machine × ServerCall)} {base : PageLayer → SizeT}

theorem holds_unmapRegion {mem : Memory} {base load page : SizeT}
    (h : (unmapRegion base load mem).Holds page) :
    mem.Holds page ∧ (base ≠ 0 → ¬ overlaps base (load * pageSize) page = true) := by
  unfold unmapRegion at h
  split at h
  next hnull => exact ⟨h, fun hne => (hne hnull).elim⟩
  next => exact (Memory.holds_munmap.mp h).imp_right fun hout _ => hout

/-- **What the destructor unmaps**, when it returns: everything in a region that is there. -/
theorem holds_destroy {remains : Remains} (call : m.destroy base = .ok remains) {page : SizeT}
    (h : remains.memory.Holds page) :
    m.memory.Holds page ∧
      ∀ layer, base layer ≠ 0 → ¬ overlaps (base layer) (m.pageTable.load layer * pageSize) page =
        true := by
  have hmemory : remains.memory = unmapRegion (base .pmem) m.pageTable.pmemPageLoad
      (unmapRegion (base .numaRemote) m.pageTable.remotePageLoad
        (unmapRegion (base .numaLocal) m.pageTable.localPageLoad m.memory)) := by
    unfold destroy at call
    dsimp only at call
    split at call
    · cases call
      rfl
    · obtain ⟨d, _, call⟩ := bind_eq_ok.mp call
      cases call
      rfl
  rw [hmemory] at h
  obtain ⟨h, hpmem⟩ := holds_unmapRegion h
  obtain ⟨h, hremote⟩ := holds_unmapRegion h
  obtain ⟨h, hlocal⟩ := holds_unmapRegion h
  refine ⟨h, ?_⟩
  intro layer
  cases layer with
  | numaLocal => exact hlocal
  | numaRemote => exact hremote
  | pmem => exact hpmem

/-- What starting leaves: the regions of the table, and pages only there. -/
structure Begun (config : AcceptedConfig) (ring : Bool) (alloc : PageTable.Allocation)
    (mem₀ : Memory) (base : PageLayer → SizeT) (m₀ : Machine) : Prop where
  started : config.start ring { alloc with base } = .ok m₀.pageTable
  pointer : ∀ layer, base layer = alloc.base layer ∨ m₀.pageTable.load layer * pageSize = 0
  load : ∀ layer, (m₀.pageTable.load layer).toNat =
    demand config.server.numTiers config.clients layer
  holds : ∀ page, m₀.memory.Holds page → mem₀.Holds page ∨ InRegions m₀.pageTable base page

theorem begun_of_start
    (start : Machine.initPageTable ⟨PageTable.new config.clients config.server ring, mem₀⟩ alloc =
      .ok m₀) :
    ∃ base mem, Machine.allocateMemory ⟨PageTable.new config.clients config.server ring, mem₀⟩
      alloc.base = .ok (base, mem) ∧ Begun config ring alloc mem₀ base m₀ := by
  have tiers := config.server_tiers
  have remote : config.server.numTiers = 2 →
      (PageTable.new config.clients config.server ring).remotePageLoad = 0 :=
    fun htwo => if_neg (by omega)
  obtain ⟨⟨base, mem⟩, hallocate, start⟩ := bind_eq_ok.mp start
  obtain ⟨t, hinit, start⟩ := bind_eq_ok.mp start
  cases start
  have hinit : (PageTable.new config.clients config.server ring).initPageTable
      { alloc with base } = .ok t := orFault_eq_ok.mp hinit
  have hinitial : PageTable.Initial config.clients config.server ring t :=
    AcceptedConfig.initial hinit
  obtain ⟨hlocal, hremote, hpmem⟩ := PageTable.loads_initPageTable hinit
  have hloads : t.load = (PageTable.new config.clients config.server ring).load := by
    funext layer
    cases layer with
    | numaLocal => exact hlocal
    | numaRemote => exact hremote
    | pmem => exact hpmem
  refine ⟨base, mem, hallocate, hinit, ?_, ?_, ?_⟩
  · have hpointer := allocateMemory_base
      (m := ⟨PageTable.new config.clients config.server ring, mem₀⟩) remote hallocate
    rw [hloads]
    exact hpointer
  · intro layer
    exact PageTable.toNat_load tiers hinit hinitial layer
  · intro page h
    unfold InRegions
    rw [hloads]
    rcases holds_generateRandomContent remote h with h | hin
    · exact holds_allocateMemory
        (m := ⟨PageTable.new config.clients config.server ring, mem₀⟩) remote hallocate h
    · exact .inr hin

/-- What `mmap` promises of the regions that have pages: they are not at null, and inside the
address space. -/
def Promised (config : AcceptedConfig) (alloc : PageTable.Allocation) : Prop :=
  ∀ layer, 0 < demand config.server.numTiers config.clients layer →
    alloc.base layer ≠ 0 ∧
      (alloc.base layer).toNat +
        demand config.server.numTiers config.clients layer * pageSize.toNat ≤ 2 ^ 64

/-- A region with pages is where the kernel put it, and as long as its pages. -/
theorem Begun.region (h : Begun config ring alloc mem₀ base m₀) (promised : Promised config alloc)
    {layer : PageLayer} (pages : 0 < demand config.server.numTiers config.clients layer) :
    base layer = alloc.base layer ∧ (m₀.pageTable.load layer * pageSize).toNat =
      demand config.server.numTiers config.clients layer * 4096 := by
  have hpage : pageSize.toNat = 4096 := rfl
  have hfits := (promised layer pages).2
  have hbase := (alloc.base layer).toNat_lt
  have hnull : (alloc.base layer).toNat ≠ 0 :=
    fun hzero => (promised layer pages).1 (UInt64.toNat_inj.mp hzero)
  rw [hpage] at hfits
  have hsize : (m₀.pageTable.load layer * pageSize).toNat =
      demand config.server.numTiers config.clients layer * 4096 := by
    rw [UInt64.toNat_mul, h.load, hpage, Nat.mod_eq_of_lt (by omega)]
  refine ⟨(h.pointer layer).resolve_right fun hzero => ?_, hsize⟩
  rw [hzero, UInt64.toNat_zero] at hsize
  omega

/-- **The table's pages lie in the regions.** -/
theorem Begun.address_inRegions (h : Begun config ring alloc mem₀ base m₀)
    (promised : Promised config alloc) {p : PageId} {a : SizeT}
    (ha : m₀.pageTable.address? p = some a) : InRegions m₀.pageTable base (pageNumber a) := by
  have hpage : pageSize.toNat = 4096 := rfl
  have tiers := config.server_tiers
  have laid := PageTable.initPageTable_layout tiers config.server_eq.2 h.started
  have small : (layout config.server.numTiers config.clients).length < 2 ^ 64 :=
    laid.size ▸ (AcceptedConfig.initial h.started).numbered.small
  have fits : ∀ layer, 0 < demand config.server.numTiers config.clients layer →
      (base layer).toNat +
        demand config.server.numTiers config.clients layer * pageSize.toNat ≤ 2 ^ 64 := by
    intro layer pages
    rw [(h.region promised pages).1]
    exact (promised layer pages).2
  obtain ⟨layer, k, hk, hnumber⟩ := (PageTable.exists_address_iff laid small fits
    (fun n => n / 4096 = (pageNumber a).toNat)).mp ⟨p, a, ha, (toNat_pageNumber a).symm⟩
  dsimp only at hnumber
  refine ⟨layer, ?_⟩
  rw [overlaps_iff, (h.region promised (Nat.zero_lt_of_lt hk)).2]
  rw [hpage] at hnumber
  omega

/-- **Nothing is left.** After any run of accesses, migrations and scans, whatever the kernel
reported, the destructor returns; the kernel keeps no page but those it kept before the start, and
of the ring every node is deleted, each once. -/
theorem destroy_leaves_nothing
    (start : Machine.initPageTable ⟨PageTable.new config.clients config.server ring, mem₀⟩ alloc =
      .ok m₀)
    (promised : Promised config alloc) (run : Trace Serves m₀ es m) :
    ∃ base mem remains,
      Machine.allocateMemory ⟨PageTable.new config.clients config.server ring, mem₀⟩ alloc.base =
        .ok (base, mem) ∧
      m.destroy base = .ok remains ∧
      (∀ page, remains.memory.Holds page → mem₀.Holds page) ∧
      ∀ r, m.pageTable.localCacheRing = some r → ∃ d, remains.ring = some d ∧
        d.deleted = r.nodes ∧ d.deleted.Nodup ∧ ∀ a, d.ring.heap.read? a = none := by
  obtain ⟨base, mem, hallocate, begun⟩ := begun_of_start start
  obtain ⟨fs, tableRun⟩ := table_run run
  have confined := confined_of_run run
  have hdestroy : ∃ remains, m.destroy base = .ok remains ∧
      ∀ r, m.pageTable.localCacheRing = some r → ∃ d, remains.ring = some d ∧
        d.deleted = r.nodes ∧ d.deleted.Nodup ∧ ∀ a, d.ring.heap.read? a = none := by
    unfold destroy
    dsimp only
    cases hring : m.pageTable.localCacheRing with
    | none => exact ⟨_, rfl, nofun⟩
    | some r =>
      have hstarted := begun.started
      cases ring with
      | false =>
        have hinitial := AcceptedConfig.initial hstarted
        have haccounts := hinitial.accounted (AcceptedConfig.demand_le hstarted)
        have hnone := (haccounts.run_ringless hinitial.ringed tableRun).1
        rw [hring] at hnone
        cases hnone
      | true =>
        obtain ⟨r', l, hreached⟩ := PageTable.reached hstarted tableRun
        have hsame := hreached.held.present
        rw [hring, Option.some.injEq] at hsame
        subst hsame
        obtain ⟨d, hd⟩ := Session.destroysOnce_of_reads hreached.held.reads
        refine ⟨_, bind_eq_ok.mpr ⟨d, hd.returns, rfl⟩, ?_⟩
        rintro _ ⟨⟩
        exact ⟨d, rfl, hd.deleted, hd.once, hd.none_left⟩
  obtain ⟨remains, hcall, hring⟩ := hdestroy
  refine ⟨base, mem, remains, hallocate, hcall, ?_, hring⟩
  intro page held
  obtain ⟨held, hout⟩ := holds_destroy hcall held
  have hload : m.pageTable.load = m₀.pageTable.load := by
    funext layer
    cases layer with
    | numaLocal => exact confined.regions.localPageLoad
    | numaRemote => exact confined.regions.remotePageLoad
    | pmem => exact confined.regions.pmemPageLoad
  have hregions : ¬ InRegions m₀.pageTable base page := by
    rintro ⟨layer, hin⟩
    rw [hload] at hout
    refine hout layer (fun hnull => ?_) hin
    -- Only a region without pages is at null.
    have hpages : demand config.server.numTiers config.clients layer = 0 := by
      by_contra hpages
      have hpos := Nat.pos_of_ne_zero hpages
      exact (promised layer hpos).1 ((begun.region promised hpos).1 ▸ hnull)
    rw [← begun.load, ← UInt64.toNat_zero, UInt64.toNat_inj] at hpages
    rw [hpages, UInt64.zero_mul, overlaps_zero] at hin
    cases hin
  rcases confined.holds page held with held | ⟨p, a, ha, rfl⟩
  · exact (begun.holds page held).resolve_right hregions
  · exact (hregions (begun.address_inRegions promised ha)).elim

/-- A demoted page leaves the ring empty, and the kernel keeps a page of PMEM until the end. -/
theorem demoted_page_unmapped : ∃ m₀ m base remains,
    Machine.initPageTable
      ⟨PageTable.new (smallConfig 1 1 (by decide)).clients (smallConfig 1 1 (by decide)).server
        true, {}⟩ spreadAllocation = .ok m₀ ∧
    Trace Serves m₀ [(m₀, ⟨.migratePage 0 0 0 .pmem, .placed, .placed⟩)] m ∧
    m.pageTable.layer? 0 = some .pmem ∧ m.destroy base = .ok remains ∧
    ∀ page, ¬ remains.memory.Holds page := by
  have hrun : ∃ m₀ m : Machine, Machine.initPageTable
      ⟨PageTable.new (smallConfig 1 1 (by decide)).clients (smallConfig 1 1 (by decide)).server
        true, {}⟩ spreadAllocation = .ok m₀ ∧
      ServerCall.apply m₀ ⟨.migratePage 0 0 0 .pmem, .placed, .placed⟩ = .ok m ∧
      m.pageTable.layer? 0 = some .pmem := ⟨_, _, rfl, rfl, rfl⟩
  obtain ⟨m₀, m, start, call, hlayer⟩ := hrun
  have run : Trace Serves m₀ [(m₀, ⟨.migratePage 0 0 0 .pmem, .placed, .placed⟩)] m :=
    Trace.single.mpr ⟨rfl, call⟩
  have promised : Promised (smallConfig 1 1 (by decide)) spreadAllocation := by
    intro layer _
    cases layer <;> exact ⟨by decide, by decide⟩
  obtain ⟨base, _, remains, _, hcall, hheld, _⟩ := destroy_leaves_nothing start promised run
  refine ⟨m₀, m, base, remains, start, run, hlayer, hcall, ?_⟩
  intro page held
  exact (hheld page held).elim (· rfl) (· rfl)

end End

end Machine

end MemoryTiering
