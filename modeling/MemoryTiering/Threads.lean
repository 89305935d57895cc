import MemoryTiering.Laws.PageTable.Promotion

/-!
# The manager and the scanner side by side

`accessPage` and the rounds of `runScanner` as the two threads run them, without a lock. A thread
stands at a point of its code, named after what it did last, and carries its local variables; what
it reads from outside it has from the start of its call.

A step makes at most one access to what both threads touch: a page's layer, timestamp, access count
or `ring_node_ptr`, a metric, a node's `ref_bit`, or whether the node is still there. What the
scanner alone touches goes along with such a step: the ring's own pointers and its size, the tiers'
counters, the index. So `remove` is one step, after the `exchange` of the pointer, and `insert` goes
with the store of the pointer. `getPageMetaData` loads layer, timestamp and count in this order;
C++ leaves the order of the three loads open. Every load sees the last store: what the relaxed
orders allow beyond that is left out.
-/

set_option autoImplicit false

namespace MemoryTiering

open Fallible Pointer Transition

/-! ## Loads and stores -/

/-- `last_access_time_ms.store(ms)` -/
def PageMetadata.stamp (now : Nat) (m : PageMetadata) : PageMetadata :=
  { m with lastAccessTimeMs := milliseconds now }

/-- `access_cnt++` -/
def PageMetadata.count (m : PageMetadata) : PageMetadata :=
  { m with accessCnt := m.accessCnt + 1 }

/-- `access_cnt.store(0)` -/
def PageMetadata.clearCount (m : PageMetadata) : PageMetadata :=
  { m with accessCnt := 0 }

/-- `current_layer_info->count--;` -/
def ServerMemoryConfig.leave (config : ServerMemoryConfig) (current : PageLayer) :
    ServerMemoryConfig :=
  config.modify (fun info => { info with count := info.count - 1 }) current

/-- `target_layer_info->count++;` -/
def ServerMemoryConfig.arrive (config : ServerMemoryConfig) (target : PageLayer) :
    ServerMemoryConfig :=
  config.modify (fun info => { info with count := info.count + 1 }) target

/-- `*local_cache_ring_` -/
def PageTable.cacheRing (t : PageTable) : Except Fault ClockRing :=
  match t.localCacheRing with
  | some ring => .ok ring
  | none => .error .nullDeref

theorem PageTable.cacheRing_eq {t : PageTable} {ring : ClockRing}
    (h : t.localCacheRing = some ring) : t.cacheRing = .ok ring := by
  unfold cacheRing
  rw [h]

/-- `hand_->ref_bit.load()` -/
def ClockRing.handBit (r : ClockRing) : Except Fault Bool := do
  let node ← deref r.heap r.hand
  .ok node.refBit

/-- `hand_->ref_bit.store(false); hand_ = hand_->next;` -/
def ClockRing.passHand (r : ClockRing) : Except Fault ClockRing := do
  let heap ← setRefBit r.heap r.hand false
  let node ← deref heap r.hand
  .ok { r with heap, hand := node.next }

/-- From `size_t victim = hand_->page_id;` to `return victim;`. -/
def ClockRing.evictHand (r : ClockRing) : Except Fault (PageId × ClockRing) := do
  let node ← deref r.heap r.hand
  let ring ← remove { r with hand := node.next } r.hand
  .ok (node.pageId, ring)

/-! ## Points of the code -/

/-- A call of `accessPage`: its arguments, what `access_page` measures, and the clock. -/
structure Visit where
  pageId : PageId
  mode : OperationType
  accessTime : UInt64
  now : Nat
  deriving DecidableEq

def Visit.call (visit : Visit) : PageTable.Call :=
  .accessPage (fun _ _ => visit.accessTime) visit.now visit.pageId visit.mode

/-- A call of `migratePage`: its arguments, and the clock. -/
structure Migration where
  pageId : PageId
  target : PageLayer
  evictNow : Nat
  now : Nat
  deriving DecidableEq

def Migration.call (move : Migration) : PageTable.Call :=
  .migratePage move.evictNow move.now move.pageId move.target

/-- The manager in `accessPage`. -/
inductive ManagerThread where
  | idle
  /-- The page was found, and `access_page` was timed. -/
  | measured (visit : Visit)
  /-- There is a ring, and `page_layer` was NUMA-local. -/
  | tested (visit : Visit)
  /-- `ring_node_ptr` was read. -/
  | loaded (visit : Visit) (node : Option Addr)
  /-- `markAccessed` returned, or was not called. -/
  | marked (visit : Visit)
  | stamped (visit : Visit)
  | counted (visit : Visit)
  | recorded (visit : Visit)
  /-- The switch at the end read `page_layer`. -/
  | switched (pageLayer : PageLayer)
  deriving DecidableEq

/-- The scanner in a round of `runScanner`, and from `called` on in `migratePage`. -/
inductive ScannerThread where
  | idle
  | advanced (pageId : PageId)
  /-- `getPageMetaData` read `page_layer`. -/
  | readLayer (pageId : PageId) (pageLayer : PageLayer)
  /-- It read `last_access_time_ms`. -/
  | readTime (pageId : PageId) (pageLayer : PageLayer) (lastAccessTime : UInt64)
  | called (move : Migration)
  /-- There is a ring, and `page_layer`, read again, was NUMA-local. -/
  | located (move : Migration)
  /-- `ring_node_ptr.exchange(nullptr)` answered. -/
  | exchanged (move : Migration) (node : Option Addr)
  /-- `page_layer` was read again, and a NUMA-local page is out of the ring. -/
  | taken (move : Migration) (current : PageLayer)
  /-- NUMA-local memory was full, and `findEvictionCandidate` is to look at the hand. -/
  | sweeping (move : Migration) (current : PageLayer)
  /-- The hand's `ref_bit` was set. -/
  | referenced (move : Migration) (current : PageLayer)
  /-- The hand's `ref_bit` was not set. -/
  | condemned (move : Migration) (current : PageLayer)
  /-- `findEvictionCandidate` returned. -/
  | evicted (move : Migration) (current : PageLayer) (victim : PageId)
  /-- The capacity check let the call pass. -/
  | admitted (move : Migration) (current : PageLayer)
  /-- `page_layer` was stored. -/
  | placed (move : Migration) (current : PageLayer)
  /-- A page that went to NUMA-local memory is in the ring. -/
  | entered (move : Migration) (current : PageLayer)
  | stamped (move : Migration) (current : PageLayer)
  | cleared (move : Migration) (current : PageLayer)
  /-- The current layer's counter went down. -/
  | left (move : Migration) (current : PageLayer)
  /-- The target layer's counter went up. -/
  | arrived (move : Migration) (current : PageLayer)
  deriving DecidableEq

/-! ## Steps -/

/-- The page table, and where the two threads stand. A call of `migratePage` that evicts waits for a
nested one: `callers` are the waiting ones, the innermost first, with the layers their pages were
in. -/
structure Threads where
  pageTable : PageTable
  manager : ManagerThread := .idle
  scanner : ScannerThread := .idle
  callers : List (Migration × PageLayer) := []

namespace Threads

open PageTable

/-- The manager's next step, and the call that takes effect with it. An access takes effect when
the switch at its end reads the layer. -/
def access (s : Threads) : Except Fault (Option Call × Threads) :=
  let t := s.pageTable
  match s.manager with
  | .idle => .ok (none, s)
  | .measured v =>
    match t.localCacheRing, t.layer? v.pageId with
    | some _, some .numaLocal => .ok (none, { s with manager := .tested v })
    | _, _ => .ok (none, { s with manager := .marked v })
  | .tested v =>
    .ok (none, { s with manager := .loaded v ((t.meta? v.pageId).bind (·.ringNodePtr)) })
  | .loaded v node =>
    match t.localCacheRing with
    | none => .ok (none, { s with manager := .marked v })
    | some ring => do
      let ring ← ring.markAccessed node
      .ok (none, { s with pageTable := t.withRing ring, manager := .marked v })
  | .marked v =>
    .ok (none, { s with pageTable := t.store v.pageId (.stamp v.now), manager := .stamped v })
  | .stamped v =>
    .ok (none, { s with pageTable := t.store v.pageId .count, manager := .counted v })
  | .counted v =>
    let metrics := t.metrics.recordAccessLatency v.accessTime
    .ok (none, { s with pageTable := { t with metrics }, manager := .recorded v })
  | .recorded v =>
    match t.layer? v.pageId with
    | none => .ok (none, { s with manager := .idle })
    | some pageLayer => .ok (some v.call, { s with manager := .switched pageLayer })
  | .switched pageLayer =>
    let metrics := t.metrics.incrementAccess pageLayer
    .ok (none, { s with pageTable := { t with metrics }, manager := .idle })

/-- `migratePage` returns to the call that waits for it, or to `runScanner`. -/
def returns (s : Threads) : Threads :=
  match s.callers with
  | [] => { s with scanner := .idle }
  | (move, current) :: callers => { s with scanner := .admitted move current, callers }

/-- The effect of a migration. A nested one is part of the call that waits for it. -/
def effectOf (s : Threads) (move : Migration) : Option Call :=
  match s.callers with
  | [] => some move.call
  | _ :: _ => none

/-- The scanner's next step, and the call that takes effect with it. `scanNext` does at once, and a
migration when it stores the layer, or where it returns early. -/
def scan (classification : Scanner.Classification) (evictNow now : Nat) (s : Threads) :
    Except Fault (Option Call × Threads) :=
  let t := s.pageTable
  match s.scanner with
  | .idle =>
    .ok (some .scanNext, { s with pageTable := t.scanNext.2, scanner := .advanced t.scanNext.1 })
  | .advanced p => .ok (none, { s with scanner := .readLayer p (t.getPageMetaData p).1 })
  | .readLayer p pageLayer =>
    .ok (none, { s with scanner := .readTime p pageLayer (t.getPageMetaData p).2.1 })
  | .readTime p pageLayer lastAccessTime =>
    let accessCnt := (t.getPageMetaData p).2.2
    let status := classification.classifyPage lastAccessTime accessCnt
    let hot := classification.classifyHotPage lastAccessTime accessCnt
    match Scanner.targetLayer t.serverConfig.numTiers pageLayer status hot with
    | none => .ok (none, { s with scanner := .idle })
    | some target => .ok (none, { s with scanner := .called ⟨p, target, evictNow, now⟩ })
  | .called move =>
    match t.localCacheRing, t.layer? move.pageId with
    | _, none => .ok (s.effectOf move, s.returns)
    | some _, some .numaLocal => .ok (none, { s with scanner := .located move })
    | _, some current => .ok (none, { s with scanner := .taken move current })
  | .located move =>
    let node := (t.meta? move.pageId).bind (·.ringNodePtr)
    .ok (none,
      { s with
        pageTable := t.store move.pageId (.setRingNode none)
        scanner := .exchanged move node })
  | .exchanged move node => do
    let ring ← t.cacheRing
    let ring ← ring.remove node
    .ok (none, { s with pageTable := t.withRing ring, scanner := .taken move .numaLocal })
  | .taken move current =>
    if (t.serverConfig.layer move.target).isFull then
      match t.localCacheRing, move.target with
      | some ring, .numaLocal =>
        match ring.hand with
        | none => .error (.assertion .ringEmpty)
        | some _ => .ok (none, { s with scanner := .sweeping move current })
      | _, _ => .ok (s.effectOf move, s.returns)
    else .ok (none, { s with scanner := .admitted move current })
  | .sweeping move current => do
    let ring ← t.cacheRing
    match ← ring.handBit with
    | true => .ok (none, { s with scanner := .referenced move current })
    | false => .ok (none, { s with scanner := .condemned move current })
  | .referenced move current => do
    let ring ← t.cacheRing
    let ring ← ring.passHand
    .ok (none, { s with pageTable := t.withRing ring, scanner := .sweeping move current })
  | .condemned move current => do
    let ring ← t.cacheRing
    let (victim, ring) ← ring.evictHand
    .ok (none, { s with pageTable := t.withRing ring, scanner := .evicted move current victim })
  | .evicted move current victim =>
    let nested : Migration :=
      ⟨victim, evictionTarget t.serverConfig, move.evictNow, move.evictNow⟩
    .ok (none, { s with scanner := .called nested, callers := (move, current) :: s.callers })
  | .admitted move current =>
    .ok (s.effectOf move,
      { s with
        pageTable := t.store move.pageId (.setLayer move.target)
        scanner := .placed move current })
  | .placed move current => do
    let t ← t.enterRing .migrateInsert move.pageId move.target
    .ok (none, { s with pageTable := t, scanner := .entered move current })
  | .entered move current =>
    .ok (none,
      { s with
        pageTable := t.store move.pageId (.stamp move.now)
        scanner := .stamped move current })
  | .stamped move current =>
    .ok (none,
      { s with pageTable := t.store move.pageId .clearCount, scanner := .cleared move current })
  | .cleared move current =>
    let serverConfig := t.serverConfig.leave current
    .ok (none, { s with pageTable := { t with serverConfig }, scanner := .left move current })
  | .left move current =>
    let serverConfig := t.serverConfig.arrive move.target
    .ok (none, { s with pageTable := { t with serverConfig }, scanner := .arrived move current })
  | .arrived move current =>
    let metrics := t.metrics.incrementMigration current move.target
    .ok (none, { s with pageTable := { t with metrics } }.returns)

/-- One step of one thread, labelled with the call that takes effect. The scanner classifies in one
of the ways of `verdicts`, which are those of its policy, or whatever they may be. -/
inductive StepWith (verdicts : Scanner.Classification → Prop) (s : Threads) :
    Option Call → Threads → Prop where
  /-- The manager calls `accessPage` with a page of the table. -/
  | begin (visit : Visit) (idle : s.manager = .idle) (found : visit.pageId ∈ s.pageTable.table) :
      StepWith verdicts s none { s with manager := .measured visit }
  /-- `accessPage` finds no page, and returns. -/
  | notFound (visit : Visit) (idle : s.manager = .idle)
      (missing : visit.pageId ∉ s.pageTable.table) : StepWith verdicts s (some visit.call) s
  | access {effect : Option Call} {s' : Threads} (step : s.access = .ok (effect, s')) :
      StepWith verdicts s effect s'
  | scan {classification : Scanner.Classification} {evictNow now : Nat} {effect : Option Call}
      {s' : Threads} (allowed : verdicts classification)
      (step : s.scan classification evictNow now = .ok (effect, s')) :
      StepWith verdicts s effect s'

/-- One step, whatever the scanner's verdict. -/
abbrev Step : Threads → Option Call → Threads → Prop := StepWith fun _ => True

theorem StepWith.step {verdicts : Scanner.Classification → Prop} {s s' : Threads}
    {effect : Option Call} (h : StepWith verdicts s effect s') : Step s effect s' := by
  cases h with
  | begin visit idle found => exact .begin visit idle found
  | notFound visit idle missing => exact .notFound visit idle missing
  | access step => exact .access step
  | scan _ step => exact .scan trivial step

/-! ## Schedules -/

/-- A thread's turn. -/
abbrev Turn : Type := Threads → Except Fault (Option Call × Threads)

/-- What a schedule of turns makes of the threads. -/
def play : List Turn → Threads → Except Fault (List (Option Call) × Threads)
  | [], s => .ok ([], s)
  | turn :: turns, s => do
    let (effect, s) ← turn s
    let (effects, s) ← play turns s
    .ok (effect :: effects, s)

theorem trace_of_play {turns : List Turn}
    (steps : ∀ turn ∈ turns, ∀ s effect s', turn s = .ok (effect, s') → Step s effect s')
    {s s' : Threads} {effects : List (Option Call)} (h : play turns s = .ok (effects, s')) :
    Trace Step s effects s' := by
  induction turns generalizing s effects with
  | nil =>
    cases h
    exact .nil _
  | cons turn turns ih =>
    obtain ⟨⟨effect, s₁⟩, hturn, h⟩ := bind_eq_ok.mp h
    obtain ⟨⟨rest, s₂⟩, hrest, h⟩ := bind_eq_ok.mp h
    cases h
    exact .cons (steps turn List.mem_cons_self _ _ _ hturn)
      (ih (fun turn hmem => steps turn (List.mem_cons_of_mem _ hmem)) hrest)

/-- Turns of the manager, and of a scanner with these verdicts. -/
def turnsOf (scans : List (Option Scanner.Classification)) : List Turn :=
  scans.map fun
    | none => access
    | some classification => scan classification 0 0

theorem steps_of_turnsOf {scans : List (Option Scanner.Classification)} :
    ∀ turn ∈ turnsOf scans, ∀ s effect s', turn s = .ok (effect, s') → Step s effect s' := by
  intro turn hmem s effect s' hturn
  obtain ⟨choice, _, rfl⟩ := List.mem_map.mp hmem
  cases choice with
  | none => exact .access hturn
  | some classification => exact .scan trivial hturn

/-- A schedule in which the manager is called first. -/
theorem trace_of_visit {visit : Visit} {scans : List (Option Scanner.Classification)}
    {t : PageTable} {s : Threads} {effects : List (Option Call)} (found : visit.pageId ∈ t.table)
    (hplay : play (turnsOf scans) { pageTable := t, manager := .measured visit } =
      .ok (effects, s)) : Trace Step { pageTable := t } (none :: effects) s :=
  .cons (.begin visit rfl found) (trace_of_play steps_of_turnsOf hplay)

end Threads

end MemoryTiering
