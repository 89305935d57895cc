import MemoryTiering.Laws.Threads.Hand

/-!
# The window of an access

With a ring, `accessPage` reads `ring_node_ptr` and follows it a step later, and the scanner may
delete the node in between. That is the only way an access can fail (`access_faults_iff`): it fails
when the node it read is no longer its page's in the ring. That is not quite what `ring_node_ptr`
says. A node whose pointer was exchanged is in the ring until `remove` has run, and the pointer of
an evicted page outlives its node; `Threads.node?` is the pointer but for these two. What carries
the proof is that the ring never gives a node to another page, nor an address twice, so a pointer
that was read stays the page's or dies.
-/

set_option autoImplicit false

namespace MemoryTiering

open Fallible Pointer Transition PageTable

/-! ## What happens to old nodes -/

/-- The nodes of a later ring that were there before are the same pages'. -/
structure ClockRing.Later (ring ring' : ClockRing) (l l' : List Addr) : Prop where
  allocated : ring.heap.allocated ≤ ring'.heap.allocated
  old : ∀ a < ring.heap.allocated, a ∈ l' → a ∈ l ∧ ring'.pageOf a = ring.pageOf a

/-- No node was allocated, and the nodes left have their pages still. -/
theorem ClockRing.Later.of_pages {ring ring' : ClockRing} {l l' : List Addr}
    (allocated : ring'.heap.allocated = ring.heap.allocated) (old : ∀ a ∈ l', a ∈ l)
    (pages : ∀ a ∈ l', (ring'.data a).map (·.1) = (ring.data a).map (·.1)) :
    Later ring ring' l l' := by
  refine ⟨Nat.le_of_eq allocated.symm, fun a _ ha => ⟨old a ha, ?_⟩⟩
  rw [pageOf, pages a ha, pageOf]

section Rings

variable {ring ring' : ClockRing} {l : List Addr}

theorem ClockRing.Reads.later_remove (h : ring.Reads l) {a : Addr} (ha : a ∈ l)
    (call : ring.remove (some a) = .ok ring') : ring.Later ring' l (l.erase a) := by
  obtain ⟨ring₁, hcall, _, hdata, _, hallocated⟩ := h.remove_eq ha
  rw [call] at hcall
  cases hcall
  refine .of_pages hallocated (fun b hb => (h.nodup.mem_erase_iff.mp hb).2) fun b hb => ?_
  rw [hdata, if_neg (h.nodup.mem_erase_iff.mp hb).1]

theorem ClockRing.Reads.later_insert (h : ring.Reads l) {p : PageId} {a : Addr}
    (call : ring.insert p = .ok (some a, ring')) : ring.Later ring' l (l ++ [a]) := by
  have room : l.length < ring.capacity.toNat := by
    apply Nat.lt_of_le_of_ne h.bounded
    intro full
    rw [h.insert_full p full] at call
    cases call
  obtain ⟨ring₁, hcall, _, hdata, _, hallocated⟩ := h.insert_room p room
  rw [call] at hcall
  cases hcall
  refine ⟨by rw [hallocated]; exact Nat.le_succ _, fun b hb hmem => ?_⟩
  have hne : b ≠ ring.heap.allocated := Nat.ne_of_lt hb
  refine ⟨?_, by rw [ClockRing.pageOf, hdata, if_neg hne, ClockRing.pageOf]⟩
  exact (List.mem_append.mp hmem).resolve_right fun hlast => hne (List.mem_singleton.mp hlast)

/-- A pointer is followed only into the ring. -/
theorem ClockRing.Reads.markAccessed_live (h : ring.Reads l) {a : Addr}
    (call : ring.markAccessed (some a) = .ok ring') : a ∈ l := by
  obtain ⟨heap, hstore, _⟩ := bind_eq_ok.mp call
  unfold ClockRing.setRefBit ClockRing.store at hstore
  dsimp only at hstore
  split at hstore
  next hlive => exact (h.live a).mpr hlive
  next => cases hstore

/-- A node outside of the ring is gone. -/
theorem ClockRing.Reads.freed (h : ring.Reads l) {a : Addr} (ha : a ∉ l) :
    ring.heap.read? a = none := by
  rw [← Option.not_isSome_iff_eq_none, ← h.live]
  exact ha

theorem ClockRing.Reads.markAccessed_freed (h : ring.Reads l) {a : Addr} (ha : a ∉ l) :
    ring.markAccessed (some a) = .error (.useAfterFree a) := by
  unfold ClockRing.markAccessed ClockRing.setRefBit ClockRing.store
  dsimp only
  rw [h.freed ha]
  rfl

end Rings

/-! ## Where pointer and ring differ -/

/-- The page whose pointer is not to the node it has in the ring, and that node: one whose pointer
was exchanged, and one that was evicted. -/
def ScannerThread.astray (callers : List (Migration × PageLayer)) :
    ScannerThread → Option (PageId × Option Addr)
  | .exchanged move node => if callers = [] then some (move.pageId, node) else none
  | .evicted _ _ victim => some (victim, none)
  | .called move | .located move => if callers = [] then none else some (move.pageId, none)
  | _ => none

/-- The table with that page's pointer to its node. -/
def PageTable.mend (astray : Option (PageId × Option Addr)) (t : PageTable) : PageTable :=
  match astray with
  | some (p, node) => t.store p (.setRingNode node)
  | none => t

def Threads.mended (s : Threads) : PageTable := s.pageTable.mend (s.scanner.astray s.callers)

/-- The node a page has in the ring. -/
def Threads.node? (s : Threads) (p : PageId) : Option Addr :=
  (s.mended.meta? p).bind (·.ringNodePtr)

section Mend

variable (astray : Option (PageId × Option Addr)) (t : PageTable)

theorem PageTable.mend_store (p : PageId) {f : PageMetadata → PageMetadata}
    (hf : ∀ m node, (f m).setRingNode node = f (m.setRingNode node)) :
    (t.store p f).mend astray = (t.mend astray).store p f := by
  cases astray with
  | none => rfl
  | some page => exact store_comm t p page.1 fun m => (hf m page.2).symm

theorem PageTable.mend_withRing (ring : ClockRing) :
    (t.withRing ring).mend astray = (t.mend astray).withRing ring := by
  cases astray <;> rfl

theorem PageTable.mend_metrics (metrics : Metrics) :
    ({ t with metrics } : PageTable).mend astray = { t.mend astray with metrics } := by
  cases astray <;> rfl

@[simp] theorem PageTable.localCacheRing_mend :
    (t.mend astray).localCacheRing = t.localCacheRing := by
  cases astray <;> rfl

end Mend

/-! ## The invariant -/

/-- A node the manager has read is its page's, or is gone. -/
def ManagerThread.Window (ring : ClockRing) (l : List Addr) : ManagerThread → Prop
  | .loaded v (some a) => a < ring.heap.allocated ∧ (a ∈ l → ring.pageOf a = v.pageId)
  | _ => True

theorem ManagerThread.Window.later {manager : ManagerThread} {ring ring' : ClockRing}
    {l l' : List Addr} (h : manager.Window ring l) (hlater : ring.Later ring' l l') :
    manager.Window ring' l' := by
  unfold Window at h ⊢
  split at h
  next v a =>
    refine ⟨Nat.lt_of_lt_of_le h.1 hlater.allocated, fun ha => ?_⟩
    obtain ⟨hold, hpage⟩ := hlater.old a h.1 ha
    rw [hpage]
    exact h.2 hold
  next => trivial

/-- The page was evicted, and its pointer is to a node that is gone. -/
def PageTable.Dangles (t : PageTable) (ring : ClockRing) (l : List Addr) (p : PageId) : Prop :=
  ∃ m a, t.meta? p = some m ∧ m.pageLayer = .numaLocal ∧ m.ringNodePtr = some a ∧ a ∉ l ∧
    a < ring.heap.allocated

/-- What holds at each point of a round. A page under migration has no node until it is in its
tier. -/
def ScannerThread.Stage (t : PageTable) (ring : ClockRing) (l : List Addr) : ScannerThread → Prop
  | .located move => t.layer? move.pageId = some .numaLocal
  | .exchanged move _ =>
    ∃ m, t.meta? move.pageId = some m ∧ m.ringNodePtr = none ∧ m.pageLayer = .numaLocal
  | .taken move _ | .admitted move _ =>
    ∃ m, t.meta? move.pageId = some m ∧ m.ringNodePtr = none
  | .placed move _ =>
    ∃ m, t.meta? move.pageId = some m ∧ m.ringNodePtr = none ∧ m.pageLayer = move.target
  | .sweeping .. | .referenced .. | .condemned .. => l ≠ []
  | .evicted _ _ victim => t.Dangles ring l victim
  | _ => True

/-- A nested call gets no further than to the node it is to remove, which is gone. -/
def ScannerThread.NestedStage (t : PageTable) (ring : ClockRing) (l : List Addr) :
    ScannerThread → Prop
  | .called move | .located move => t.Dangles ring l move.pageId
  | .exchanged _ node => ∃ a, node = some a ∧ a ∉ l
  | _ => False

/-- What the manager's stores leave alone. -/
def PageTable.Steady (t t' : PageTable) : Prop :=
  ∀ p m, t.meta? p = some m →
    ∃ m', t'.meta? p = some m' ∧ m'.ringNodePtr = m.ringNodePtr ∧ m'.pageLayer = m.pageLayer

theorem PageTable.steady_store (t : PageTable) (p : PageId) {f : PageMetadata → PageMetadata}
    (hptr : ∀ m, (f m).ringNodePtr = m.ringNodePtr) (hlayer : ∀ m, (f m).pageLayer = m.pageLayer) :
    t.Steady (t.store p f) := by
  intro q m hm
  rw [meta?_store, hm, Option.map_some]
  refine ⟨_, rfl, ?_⟩
  split
  · exact ⟨hptr m, hlayer m⟩
  · exact ⟨rfl, rfl⟩

theorem PageTable.Dangles.steady {t t' : PageTable} {ring ring' : ClockRing} {l : List Addr}
    {p : PageId} (h : t.Dangles ring l p) (hsteady : t.Steady t')
    (hallocated : ring'.heap.allocated = ring.heap.allocated) : t'.Dangles ring' l p := by
  obtain ⟨m, a, hm, hlocal, hptr, hgone, hold⟩ := h
  obtain ⟨m', hm', hptr', hlayer'⟩ := hsteady p m hm
  exact ⟨m', a, hm', hlayer'.trans hlocal, hptr'.trans hptr, hgone, by rwa [hallocated]⟩

section Steady

variable {scanner : ScannerThread} {t t' : PageTable} {ring ring' : ClockRing} {l : List Addr}

theorem ScannerThread.Stage.steady (h : scanner.Stage t ring l) (hsteady : t.Steady t')
    (hallocated : ring'.heap.allocated = ring.heap.allocated) : scanner.Stage t' ring' l := by
  cases scanner with
  | located move =>
    obtain ⟨m, hm, hlayer⟩ := Option.map_eq_some_iff.mp h
    obtain ⟨m', hm', _, hlayer'⟩ := hsteady _ m hm
    exact (layer?_eq hm').trans (congrArg some (hlayer'.trans hlayer))
  | taken move current | admitted move current =>
    obtain ⟨m, hm, hptr⟩ := h
    obtain ⟨m', hm', hptr', _⟩ := hsteady _ m hm
    exact ⟨m', hm', hptr'.trans hptr⟩
  | exchanged move node | placed move current =>
    obtain ⟨m, hm, hptr, hlayer⟩ := h
    obtain ⟨m', hm', hptr', hlayer'⟩ := hsteady _ m hm
    exact ⟨m', hm', hptr'.trans hptr, hlayer'.trans hlayer⟩
  | evicted move current victim => exact PageTable.Dangles.steady h hsteady hallocated
  | sweeping | referenced | condemned => exact h
  | _ => trivial

theorem ScannerThread.NestedStage.steady (h : scanner.NestedStage t ring l)
    (hsteady : t.Steady t') (hallocated : ring'.heap.allocated = ring.heap.allocated) :
    scanner.NestedStage t' ring' l := by
  cases scanner with
  | called move | located move => exact PageTable.Dangles.steady h hsteady hallocated
  | exchanged move node => exact h
  | _ => exact h.elim

end Steady

namespace Threads

/-- What holds where the scanner stands. Calls are nested once at most. -/
def Staged (s : Threads) (ring : ClockRing) (l : List Addr) : Prop :=
  match s.callers with
  | [] => s.scanner.Stage s.pageTable ring l
  | [_] => s.scanner.NestedStage s.pageTable ring l
  | _ => False

theorem Staged.steady {s : Threads} {t' : PageTable} {manager : ManagerThread}
    {ring ring' : ClockRing} {l : List Addr} (h : s.Staged ring l)
    (hsteady : s.pageTable.Steady t')
    (hallocated : ring'.heap.allocated = ring.heap.allocated) :
    ({ s with pageTable := t', manager } : Threads).Staged ring' l := by
  unfold Staged at h ⊢
  dsimp only
  split at h
  · exact ScannerThread.Stage.steady h hsteady hallocated
  · exact ScannerThread.NestedStage.steady h hsteady hallocated
  · exact h

/-- What the two threads keep of the ring. -/
structure Ringed (s : Threads) (ring : ClockRing) (l : List Addr) : Prop where
  held : s.mended.Held ring l
  window : s.manager.Window ring l
  staged : s.Staged ring l

section Ringed

variable {s s' : Threads} {ring : ClockRing} {l : List Addr} {effect : Option Call}

theorem Ringed.present (h : Ringed s ring l) : s.pageTable.localCacheRing = some ring := by
  rw [← PageTable.localCacheRing_mend (s.scanner.astray s.callers)]
  exact h.held.present

theorem Ringed.cacheRing (h : Ringed s ring l) : s.pageTable.cacheRing = .ok ring :=
  cacheRing_eq h.present

/-- A pointer is to the page's node, or to one that is gone. -/
theorem Ringed.pointer (h : Ringed s ring l) {p : PageId} {m : PageMetadata} {a : Addr}
    (hm : s.pageTable.meta? p = some m) (hptr : m.ringNodePtr = some a) :
    a < ring.heap.allocated ∧ (a ∈ l → ring.pageOf a = p) := by
  have owned : s.mended.meta? p = some m →
      a < ring.heap.allocated ∧ (a ∈ l → ring.pageOf a = p) := by
    intro hm'
    obtain ⟨node, hread⟩ := h.held.reads.read (h.held.live hm' hptr)
    exact ⟨Heap.lt_of_read? hread, fun _ => h.held.pageOf_eq hm' hptr⟩
  have gone : s.pageTable.Dangles ring l p →
      a < ring.heap.allocated ∧ (a ∈ l → ring.pageOf a = p) := by
    rintro ⟨m', a', hm', _, hptr', hgone, hold⟩
    obtain rfl := Option.some.inj (hm.symm.trans hm')
    obtain rfl := Option.some.inj (hptr.symm.trans hptr')
    exact ⟨hold, fun ha => (hgone ha).elim⟩
  have elsewhere : ∀ q node, s.scanner.astray s.callers = some (q, node) → p ≠ q →
      s.mended.meta? p = some m := by
    intro q node hastray hpq
    unfold mended mend
    rw [hastray]
    exact (meta?_store_ne _ q p _ hpq).trans hm
  obtain ⟨table, manager, scanner, callers⟩ := s
  have hstaged := h.staged
  unfold Staged at hstaged
  cases scanner with
  | called move | located move =>
    match callers, hstaged with
    | [], _ => exact owned hm
    | [_], hevicted =>
      by_cases hp : p = move.pageId
      · subst hp
        exact gone hevicted
      · exact owned (elsewhere _ _ rfl hp)
  | exchanged move node =>
    match callers, hstaged with
    | [], ⟨m', hm', hnone, _⟩ =>
      have hp : p ≠ move.pageId := by
        rintro rfl
        obtain rfl := Option.some.inj (hm.symm.trans hm')
        rw [hnone] at hptr
        cases hptr
      exact owned (elsewhere _ _ rfl hp)
    | [_], _ => exact owned hm
  | evicted move current victim =>
    match callers, hstaged with
    | [], hevicted =>
      by_cases hp : p = victim
      · subst hp
        exact gone hevicted
      · exact owned (elsewhere _ _ rfl hp)
    | [_], hnone => exact hnone.elim
  | _ => exact owned hm

/-- A step of the manager that stores nothing. -/
theorem Ringed.moved (h : Ringed s ring l) {manager : ManagerThread}
    (hwindow : manager.Window ring l) : Ringed { s with manager } ring l :=
  ⟨h.held, hwindow, h.staged⟩

/-- A store of the manager. -/
theorem Ringed.stored (h : Ringed s ring l) (p : PageId) {f : PageMetadata → PageMetadata}
    {manager : ManagerThread} (hwindow : manager.Window ring l)
    (hptr : ∀ m, (f m).ringNodePtr = m.ringNodePtr) (hlayer : ∀ m, (f m).pageLayer = m.pageLayer)
    (hf : ∀ m node, (f m).setRingNode node = f (m.setRingNode node)) :
    Ringed { s with pageTable := s.pageTable.store p f, manager } ring l := by
  refine ⟨?_, hwindow, h.staged.steady (s.pageTable.steady_store p hptr hlayer) rfl⟩
  have hheld := h.held.store p f hptr fun m _ _ => hlayer m
  unfold mended at hheld ⊢
  rw [← mend_store _ _ _ hf] at hheld
  exact hheld

/-- A record in the metrics. -/
theorem Ringed.recorded (h : Ringed s ring l) (metrics : Metrics) {manager : ManagerThread}
    (hwindow : manager.Window ring l) :
    Ringed { s with pageTable := { s.pageTable with metrics }, manager } ring l := by
  refine ⟨?_, hwindow, h.staged.steady (fun _ m hm => ⟨m, hm, rfl, rfl⟩) rfl⟩
  unfold mended
  rw [mend_metrics]
  exact h.held.congr rfl rfl

/-- **The manager's step lemma.** -/
theorem Ringed.access (h : Ringed s ring l) (step : s.access = .ok (effect, s')) :
    ∃ ring' l', Ringed s' ring' l' := by
  obtain ⟨table, manager, scanner, callers⟩ := s
  have hring : table.localCacheRing = some ring := h.present
  unfold Threads.access at step
  cases manager with
  | idle =>
    cases step
    exact ⟨ring, l, h⟩
  | measured | recorded =>
    dsimp only at step
    split at step
    all_goals
      cases step
      exact ⟨ring, l, h.moved trivial⟩
  | tested v =>
    cases step
    refine ⟨ring, l, h.moved ?_⟩
    show ManagerThread.Window ring l (.loaded v ((table.meta? v.pageId).bind (·.ringNodePtr)))
    cases hnode : (table.meta? v.pageId).bind (·.ringNodePtr) with
    | none => trivial
    | some a =>
      obtain ⟨m, hm, hptr⟩ := Option.bind_eq_some_iff.mp hnode
      exact h.pointer hm hptr
  | loaded v node =>
    simp only [hring] at step
    obtain ⟨ring', hmark, step⟩ := bind_eq_ok.mp step
    cases step
    cases node with
    | none =>
      cases hmark
      have hsame : table.withRing ring = table := by
        unfold withRing
        rw [← hring]
      rw [hsame]
      exact ⟨ring, l, h.moved trivial⟩
    | some a =>
      obtain ⟨p, m, hm, hptr⟩ := h.held.owned a (h.held.reads.markAccessed_live hmark)
      obtain ⟨ring₁, hmark₁, hheld, _⟩ := h.held.mark hm
      obtain ⟨ring₂, hmark₂, _, _, _, hallocated⟩ :=
        h.held.reads.markAccessed_eq (h.held.reads.markAccessed_live hmark)
      rw [hptr, hmark] at hmark₁
      rw [hmark] at hmark₂
      cases hmark₁
      cases hmark₂
      refine ⟨ring', l, ?_, trivial, h.staged.steady (fun _ m hm => ⟨m, hm, rfl, rfl⟩) hallocated⟩
      unfold mended at hheld ⊢
      rw [← mend_withRing] at hheld
      exact hheld
  | marked v | stamped v =>
    cases step
    exact ⟨ring, l, h.stored v.pageId trivial (fun _ => rfl) (fun _ => rfl) fun _ _ => rfl⟩
  | counted | switched =>
    cases step
    exact ⟨ring, l, h.recorded _ trivial⟩

/-! ## The scanner -/

section Scan

variable {table : PageTable} {manager : ManagerThread} {scanner : ScannerThread}
  {caller : Migration × PageLayer} {classification : Scanner.Classification} {evictNow now : Nat}

/-- **The nested step lemma**: the call comes to the node that is gone, and no further. -/
theorem Ringed.scan_nested (h : Ringed ⟨table, manager, scanner, [caller]⟩ ring l)
    (step : Threads.scan classification evictNow now ⟨table, manager, scanner, [caller]⟩ =
      .ok (effect, s')) : Ringed s' ring l := by
  have hring : table.localCacheRing = some ring := h.present
  have hstaged : scanner.NestedStage table ring l := h.staged
  unfold Threads.scan at step
  cases scanner with
  | called move =>
    obtain ⟨m, a, hm, hlocal, _⟩ := hstaged
    simp only [hring, layer?_eq hm, hlocal] at step
    cases step
    exact ⟨h.held, h.window, h.staged⟩
  | located move =>
    obtain ⟨m, a, hm, _, hptr, hgone, _⟩ := hstaged
    simp only [hm, Option.bind_some] at step
    cases step
    exact ⟨h.held, h.window, a, hptr, hgone⟩
  | exchanged move node =>
    obtain ⟨a, rfl, hgone⟩ := hstaged
    have hcache : table.cacheRing = .ok ring := h.cacheRing
    simp only [hcache, ok_bind, ClockRing.remove_freed (h.held.reads.freed hgone)] at step
    cases step
  | _ => exact hstaged.elim

/-- The pointer is exchanged, and the node stays. -/
theorem Ringed.scan_located {move : Migration} {m : PageMetadata}
    (h : Ringed ⟨table, manager, .located move, []⟩ ring l)
    (hm : table.meta? move.pageId = some m) :
    Ringed ⟨table.store move.pageId (.setRingNode none), manager,
      .exchanged move m.ringNodePtr, []⟩ ring l := by
  have hheld : table.Held ring l := h.held
  have hlocal : m.pageLayer = .numaLocal := Option.some.inj ((layer?_eq hm).symm.trans h.staged)
  have hsame : (table.store move.pageId (.setRingNode none)).store move.pageId
      (.setRingNode m.ringNodePtr) = table := by
    rw [store_store]
    apply store_eq_self
    intro m' hm'
    obtain rfl := Option.some.inj (hm.symm.trans hm')
    rfl
  refine ⟨?_, h.window, m.setRingNode none,
    table.meta?_store_self move.pageId (.setRingNode none) hm, rfl, hlocal⟩
  show PageTable.Held ((table.store move.pageId (.setRingNode none)).store move.pageId
    (.setRingNode m.ringNodePtr)) ring l
  rw [hsame]
  exact hheld

/-- The exchanged node leaves the ring. -/
theorem Ringed.scan_exchanged {move : Migration} {node : Option Addr}
    (h : Ringed ⟨table, manager, .exchanged move node, []⟩ ring l) {ring' : ClockRing}
    (call : ring.remove node = .ok ring') :
    ∃ l', Ringed ⟨table.withRing ring', manager, .taken move .numaLocal, []⟩ ring' l' := by
  obtain ⟨m, hm, hnone, hlocal⟩ := h.staged
  cases node with
  | none => cases call
  | some a =>
    have hheld : (table.store move.pageId (.setRingNode (some a))).Held ring l := h.held
    have hmended := table.meta?_store_self move.pageId (.setRingNode (some a)) hm
    obtain ⟨ring₁, hremove, hreleased, _⟩ := hheld.release hmended rfl
    have hlater := hheld.reads.later_remove (hheld.live hmended rfl) call
    rw [call] at hremove
    cases hremove
    have hsame : (table.store move.pageId (.setRingNode (some a))).store move.pageId
        (.setRingNode none) = table := by
      rw [store_store]
      apply store_eq_self
      intro m' hm'
      obtain rfl := Option.some.inj (hm.symm.trans hm')
      show m.setRingNode none = m
      rw [← hnone]
      rfl
    rw [hsame] at hreleased
    exact ⟨_, hreleased, h.window.later hlater, m, hm, hnone⟩

/-- The hand passes a node. -/
theorem Ringed.scan_referenced {move : Migration} {current : PageLayer}
    (h : Ringed ⟨table, manager, .referenced move current, []⟩ ring l) :
    ∃ a rest ring', l = a :: rest ∧ ring.passHand = .ok ring' ∧
      (∀ b, ring'.refBit b = (ring.refBit b && b ≠ a)) ∧
      Ringed ⟨table.withRing ring', manager, .sweeping move current, []⟩ ring' (rest ++ [a]) := by
  obtain ⟨a, rest, rfl⟩ := List.exists_cons_of_ne_nil h.staged
  have hheld : table.Held ring (a :: rest) := h.held
  obtain ⟨ring', hpass, hpassed, hpages, hbits, hallocated⟩ := hheld.passHand
  have hlater := ClockRing.Later.of_pages hallocated
    (fun b hb => (List.perm_append_singleton a rest).mem_iff.mp hb) fun b _ => hpages b
  exact ⟨a, rest, ring', rfl, hpass, hbits, hpassed, h.window.later hlater, by simp [Staged,
    ScannerThread.Stage]⟩

/-- The hand's node goes, and its page is left with a pointer to it. -/
theorem Ringed.scan_condemned {move : Migration} {current : PageLayer}
    (h : Ringed ⟨table, manager, .condemned move current, []⟩ ring l) :
    ∃ victim ring' l', ring.evictHand = .ok (victim, ring') ∧
      Ringed ⟨table.withRing ring', manager, .evicted move current victim, []⟩ ring' l' := by
  obtain ⟨a, rest, rfl⟩ := List.exists_cons_of_ne_nil h.staged
  have hheld : table.Held ring (a :: rest) := h.held
  obtain ⟨victim, m, ring', hevict, hm, hlocal, hptr, hleft, hdata, hallocated⟩ := hheld.evictHand
  have hfresh : a ∉ rest := (List.nodup_cons.mp hheld.reads.nodup).1
  have hlater : ring.Later ring' (a :: rest) rest := by
    refine .of_pages hallocated (fun b hb => List.mem_cons_of_mem a hb) fun b hb => ?_
    have hne : b ≠ a := by
      rintro rfl
      exact hfresh hb
    rw [hdata, if_neg hne]
  obtain ⟨node, hread⟩ := hheld.reads.read List.mem_cons_self
  have hold : a < ring'.heap.allocated := hallocated ▸ Heap.lt_of_read? hread
  exact ⟨victim, ring', rest, hevict, hleft, h.window.later hlater, m, a, hm, hlocal, hptr, hfresh,
    hold⟩

/-- **The scanner's step lemma**, outside of nested calls. -/
theorem Ringed.scan_outermost (h : Ringed ⟨table, manager, scanner, []⟩ ring l)
    (step : Threads.scan classification evictNow now ⟨table, manager, scanner, []⟩ =
      .ok (effect, s')) : ∃ ring' l', Ringed s' ring' l' := by
  have hring : table.localCacheRing = some ring := h.present
  have hcache : table.cacheRing = .ok ring := h.cacheRing
  have hstaged : scanner.Stage table ring l := h.staged
  unfold Threads.scan at step
  cases scanner with
  | idle | cleared | left | arrived =>
    cases step
    exact ⟨ring, l, PageTable.Held.congr h.held rfl rfl, h.window, trivial⟩
  | advanced | readLayer =>
    cases step
    exact ⟨ring, l, h.held, h.window, trivial⟩
  | readTime p layer time =>
    dsimp only at step
    split at step
    all_goals
      cases step
      exact ⟨ring, l, h.held, h.window, trivial⟩
  | called move =>
    have hheld : table.Held ring l := h.held
    cases hlayer : table.layer? move.pageId with
    | none =>
      simp only [hring, hlayer] at step
      cases step
      exact ⟨ring, l, hheld, h.window, trivial⟩
    | some current =>
      obtain ⟨m, hm, rfl⟩ := Option.map_eq_some_iff.mp hlayer
      by_cases hlocal : m.pageLayer = .numaLocal
      · simp only [hring, hlayer, hlocal] at step
        cases step
        exact ⟨ring, l, hheld, h.window, hlayer.trans (congrArg some hlocal)⟩
      · simp only [hring, hlayer] at step
        split at step
        next hnone => cases hnone
        next hsome => exact (hlocal (Option.some.inj hsome)).elim
        next =>
          cases step
          exact ⟨ring, l, hheld, h.window, m, hm, hheld.no_node hm hlocal⟩
  | located move =>
    obtain ⟨m, hm, _⟩ := Option.map_eq_some_iff.mp hstaged
    have hexchanged := h.scan_located hm
    simp only [hm, Option.bind_some] at step
    cases step
    exact ⟨ring, l, hexchanged⟩
  | exchanged move node =>
    simp only [hcache, ok_bind] at step
    obtain ⟨ring', hremove, step⟩ := bind_eq_ok.mp step
    cases step
    exact ⟨ring', h.scan_exchanged hremove⟩
  | taken move current =>
    dsimp only at step
    split at step
    next =>
      rw [hring] at step
      split at step
      next ring₀ hring₀ _ =>
        obtain rfl := Option.some.inj hring₀
        split at step
        next => cases step
        next hand hhand =>
          cases step
          refine ⟨ring, l, h.held, h.window, ?_⟩
          rintro rfl
          rw [h.held.reads.hand] at hhand
          cases hhand
      next =>
        cases step
        exact ⟨ring, l, h.held, h.window, trivial⟩
    next =>
      cases step
      exact ⟨ring, l, h.held, h.window, hstaged⟩
  | sweeping move current =>
    simp only [hcache, ok_bind] at step
    obtain ⟨bit, _, step⟩ := bind_eq_ok.mp step
    cases bit with
    | true =>
      cases step
      exact ⟨ring, l, h.held, h.window, hstaged⟩
    | false =>
      cases step
      exact ⟨ring, l, h.held, h.window, hstaged⟩
  | referenced move current =>
    obtain ⟨a, rest, ring', _, hpass, _, h'⟩ := h.scan_referenced
    simp only [hcache, ok_bind, hpass] at step
    cases step
    exact ⟨_, _, h'⟩
  | condemned move current =>
    obtain ⟨victim, ring', l', hevict, h'⟩ := h.scan_condemned
    simp only [hcache, ok_bind, hevict] at step
    cases step
    exact ⟨_, _, h'⟩
  | evicted move current victim =>
    cases step
    exact ⟨ring, l, h.held, h.window, hstaged⟩
  | admitted move current =>
    cases step
    obtain ⟨m, hm, hptr⟩ := hstaged
    refine ⟨ring, l, ?_, h.window, m.setLayer move.target,
      table.meta?_store_self move.pageId (.setLayer move.target) hm, hptr, rfl⟩
    apply PageTable.Held.store h.held move.pageId (.setLayer move.target) fun _ => rfl
    intro m' hm' hne
    obtain rfl : m' = m := Option.some.inj (hm'.symm.trans hm)
    exact (hne hptr).elim
  | placed move current =>
    have hheld : table.Held ring l := h.held
    obtain ⟨t₁, henter, step⟩ := bind_eq_ok.mp step
    cases step
    obtain ⟨m, hm, hptr, hlayer⟩ := hstaged
    rcases enterRing_cases henter with ⟨_, rfl⟩ | ⟨ring₀, a, ring', hring₀, htarget, hinsert, rfl⟩
    · exact ⟨ring, l, hheld, h.window, trivial⟩
    · obtain rfl : ring = ring₀ := Option.some.inj (hring.symm.trans hring₀)
      obtain ⟨hentered, _⟩ := hheld.enter hm hptr (hlayer.trans htarget) hinsert
      exact ⟨ring', l ++ [a], hentered, h.window.later (hheld.reads.later_insert hinsert), trivial⟩
  | entered | stamped =>
    cases step
    exact ⟨ring, l, PageTable.Held.store h.held _ _ (fun _ => rfl) fun _ _ _ => rfl, h.window,
      trivial⟩

end Scan

/-- **The scanner's step lemma.** -/
theorem Ringed.scan {classification : Scanner.Classification} {evictNow now : Nat}
    (h : Ringed s ring l) (step : s.scan classification evictNow now = .ok (effect, s')) :
    ∃ ring' l', Ringed s' ring' l' := by
  obtain ⟨table, manager, scanner, callers⟩ := s
  match callers, h.staged with
  | [], _ => exact h.scan_outermost step
  | [_], _ => exact ⟨ring, l, h.scan_nested step⟩

/-- **The step lemma.** -/
theorem Ringed.step (h : Ringed s ring l) (hstep : Step s effect s') :
    ∃ ring' l', Ringed s' ring' l' := by
  cases hstep with
  | begin visit idle found => exact ⟨ring, l, h.moved trivial⟩
  | notFound => exact ⟨ring, l, h⟩
  | access step => exact h.access step
  | scan _ step => exact h.scan step

/-- **The run lemma.** -/
theorem Ringed.run {effects : List (Option Call)} (h : Ringed s ring l)
    (run : Trace Step s effects s') : ∃ ring' l', Ringed s' ring' l' :=
  run.invariant (P := fun s => ∃ ring l, Ringed s ring l)
    (fun _ _ _ ⟨_, _, h⟩ hstep => h.step hstep) ⟨ring, l, h⟩

/-- Both threads before the first step. -/
theorem ringed_start {clients : List ClientConfig} {server : ServerMemoryConfig}
    {alloc : Allocation} {t₀ : PageTable} (tiers : server.numTiers = 2 ∨ server.numTiers = 3)
    (empty : ∀ layer, (server.layer layer).count = 0)
    (start : (new clients server true).initPageTable alloc = .ok t₀) :
    ∃ ring l, Ringed { pageTable := t₀ } ring l := by
  obtain ⟨⟨ring, l, held, _⟩, _⟩ := (initPageTable_spec tiers empty start).ringed
  exact ⟨ring, l, held, trivial, trivial⟩

/-- A node that was read is in the ring exactly while it is its page's. -/
theorem Ringed.mem_iff (h : Ringed s ring l) {v : Visit} {a : Addr}
    (hmanager : s.manager = .loaded v (some a)) : a ∈ l ↔ s.node? v.pageId = some a := by
  have hwindow := h.window
  rw [hmanager] at hwindow
  constructor
  · intro ha
    obtain ⟨p, m, hm, hptr⟩ := h.held.owned a ha
    obtain rfl : p = v.pageId := (h.held.pageOf_eq hm hptr).symm.trans (hwindow.2 ha)
    exact Option.bind_eq_some_iff.mpr ⟨m, hm, hptr⟩
  · intro hnode
    obtain ⟨m, hm, hptr⟩ := Option.bind_eq_some_iff.mp hnode
    exact h.held.live hm hptr

/-- **When the manager's next step fails.** -/
theorem Ringed.access_error_iff (h : Ringed s ring l) (fault : Fault) :
    s.access = .error fault ↔ ∃ v a, s.manager = .loaded v (some a) ∧ fault = .useAfterFree a ∧
      s.node? v.pageId ≠ some a := by
  have hring := h.present
  constructor
  · intro herror
    cases hmanager : s.manager with
    | loaded v node =>
      unfold Threads.access at herror
      simp only [hmanager, hring] at herror
      cases node with
      | none => cases herror
      | some a =>
        have hnot : a ∉ l := by
          intro ha
          obtain ⟨ring', hmark, _⟩ := h.held.reads.markAccessed_eq ha
          rw [hmark] at herror
          cases herror
        rw [h.held.reads.markAccessed_freed hnot] at herror
        cases herror
        exact ⟨v, a, rfl, rfl, fun hnode => hnot ((h.mem_iff hmanager).mpr hnode)⟩
    | measured | recorded =>
      unfold Threads.access at herror
      simp only [hmanager] at herror
      split at herror <;> cases herror
    | _ =>
      unfold Threads.access at herror
      simp only [hmanager] at herror
      cases herror
  · rintro ⟨v, a, hmanager, rfl, hnode⟩
    have hnot : a ∉ l := fun ha => hnode ((h.mem_iff hmanager).mp ha)
    unfold Threads.access
    simp only [hmanager, hring]
    rw [h.held.reads.markAccessed_freed hnot]
    rfl

end Ringed

/-- **The window of an access**: with a ring, over every interleaving, the manager's next step
fails exactly when it is about to mark a node that is no longer its page's in the ring, and then it
follows that freed node. Everywhere else in an access it goes on. -/
theorem access_faults_iff {clients : List ClientConfig} {server : ServerMemoryConfig}
    {alloc : Allocation} {t₀ : PageTable} {s : Threads} {effects : List (Option Call)}
    (tiers : server.numTiers = 2 ∨ server.numTiers = 3)
    (empty : ∀ layer, (server.layer layer).count = 0)
    (start : (new clients server true).initPageTable alloc = .ok t₀)
    (run : Trace Step { pageTable := t₀ } effects s) (fault : Fault) :
    s.access = .error fault ↔ ∃ v a, s.manager = .loaded v (some a) ∧ fault = .useAfterFree a ∧
      s.node? v.pageId ≠ some a := by
  obtain ⟨ring₀, l₀, h₀⟩ := ringed_start tiers empty start
  obtain ⟨ring, l, h⟩ := h₀.run run
  exact h.access_error_iff fault

/-- A demotion takes the node between the load and the mark. Between the exchange of the pointer and
`remove` the mark would still have found it. -/
theorem demotion_in_the_window : ∃ (t₀ : PageTable) (s s' : Threads) (effects : List (Option Call)),
    loneConfig.start true plainAllocation = .ok t₀ ∧
    Trace Step { pageTable := t₀ } effects s ∧
    (s.pageTable.meta? 0).bind (·.ringNodePtr) = none ∧
    s.access ≠ .error (.useAfterFree 0) ∧
    s.scan Scanner.alwaysCold 0 0 = .ok (none, s') ∧ s'.access = .error (.useAfterFree 0) := by
  have hrun : ∃ (t₀ : PageTable) (s s' : Threads) (effects : List (Option Call)),
      loneConfig.start true plainAllocation = .ok t₀ ∧ 0 ∈ t₀.table ∧
      play (turnsOf (List.replicate 2 none ++ List.replicate 6 (some Scanner.alwaysCold)))
        { pageTable := t₀, manager := .measured ⟨0, .read, 5, 0⟩ } = .ok (effects, s) ∧
      s.manager = .loaded ⟨0, .read, 5, 0⟩ (some 0) ∧
      (s.pageTable.meta? 0).bind (·.ringNodePtr) = none ∧ s.node? 0 = some 0 ∧
      s.scan Scanner.alwaysCold 0 0 = .ok (none, s') ∧
      s'.manager = .loaded ⟨0, .read, 5, 0⟩ (some 0) ∧ s'.node? 0 = none :=
    ⟨_, _, _, _, rfl, by decide, rfl, rfl, rfl, rfl, rfl, rfl, rfl⟩
  obtain ⟨t₀, s, s', effects, start, found, hplay, hmanager, hpointer, hnode, hscan, hmanager',
    hnode'⟩ := hrun
  have run := trace_of_visit found hplay
  have hfaults := access_faults_iff (.inr rfl) (by intro layer; cases layer <;> rfl) start run
    (.useAfterFree 0)
  have hfaults' := access_faults_iff (.inr rfl) (by intro layer; cases layer <;> rfl) start
    (run.snoc (.scan trivial hscan)) (.useAfterFree 0)
  refine ⟨t₀, s, s', _, start, run, hpointer, fun hfault => ?_, hscan,
    hfaults'.mpr ⟨_, 0, hmanager', rfl, by rw [hnode']; exact (Option.some_ne_none 0).symm⟩⟩
  obtain ⟨v, a, hloaded, _, hother⟩ := hfaults.mp hfault
  rw [hmanager] at hloaded
  cases hloaded
  exact hother hnode

end Threads

end MemoryTiering
