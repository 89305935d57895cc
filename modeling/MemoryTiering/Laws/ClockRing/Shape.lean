import MemoryTiering.ClockRing
import MemoryTiering.Lib.Cycle
import MemoryTiering.Lib.Fallible
import Mathlib.Tactic.Common

/-!
# The shape of a clock ring

`ClockRing.nodes` reads a ring as a list, walking `size` times along `next` from the hand.
`ClockRing.WellFormed` says that this reading is faithful: the live nodes are exactly the ones on
the walk, each once, and the links run around them in both directions. Every operation gets one
lemma here that says what it answers, which list the ring reads as afterwards, and what became of
each node's page and reference bit (`ClockRing.data`); nothing later unfolds an operation.
-/

set_option autoImplicit false

namespace MemoryTiering

open Fallible Pointer

/-- `p->next`, where `p` is live. -/
def nextOf (heap : Heap ClockRingNode) (a : Addr) : Option Addr := (heap.read? a).bind (·.next)

/-- `p->prev`, where `p` is live. -/
def prevOf (heap : Heap ClockRingNode) (a : Addr) : Option Addr := (heap.read? a).bind (·.prev)

namespace ClockRing

/-- The ring from its hand. -/
def nodes (r : ClockRing) : List Addr := walk (nextOf r.heap) r.size.toNat r.hand

/-- The page and reference bit of a live node. -/
def dataOf (heap : Heap ClockRingNode) (a : Addr) : Option (PageId × Bool) :=
  (heap.read? a).map fun n => (n.pageId, n.refBit)

/-- The page and reference bit of a node of the ring. -/
def data (r : ClockRing) (a : Addr) : Option (PageId × Bool) := dataOf r.heap a

/-- The ring is one doubly linked cycle, read from the hand as `l`. -/
structure Reads (r : ClockRing) (l : List Addr) : Prop where
  nodup : l.Nodup
  live : ∀ a, a ∈ l ↔ (r.heap.read? a).isSome
  cycle : IsCycle (nextOf r.heap) (prevOf r.heap) l
  hand : r.hand = l.head?
  size : r.size.toNat = l.length
  bounded : l.length ≤ r.capacity.toNat

/-- The heap reachable from the hand is one doubly linked cycle of exactly `size` live nodes. -/
def WellFormed (r : ClockRing) : Prop := r.Reads r.nodes

/-- A ring reads as one list only. -/
theorem Reads.nodes_eq {r : ClockRing} {l : List Addr} (h : r.Reads l) : r.nodes = l := by
  rw [nodes, h.size, h.hand]
  exact IsCycle.walk_eq h.cycle.chain

theorem Reads.wellFormed {r : ClockRing} {l : List Addr} (h : r.Reads l) : r.WellFormed := by
  rw [WellFormed, h.nodes_eq]
  exact h

theorem Reads.mem_iff_data {r : ClockRing} {l : List Addr} (h : r.Reads l) (a : Addr) :
    a ∈ l ↔ (r.data a).isSome := by
  rw [h.live a, data, dataOf, Option.isSome_map]

/-- A node of the ring is there to be read. -/
theorem Reads.read {r : ClockRing} {l : List Addr} (h : r.Reads l) {a : Addr} (ha : a ∈ l) :
    ∃ node, r.heap.read? a = some node :=
  Option.isSome_iff_exists.mp ((h.live a).mp ha)

/-- A node's page. -/
def pageOf (r : ClockRing) (a : Addr) : PageId := ((r.data a).map (·.1)).getD 0

/-- The nodes read from the hand, each with its page. -/
def contents (r : ClockRing) : List (Addr × PageId) := r.nodes.map fun a => (a, r.pageOf a)

/-- The pages read from the hand. -/
def pages (r : ClockRing) : List PageId := r.nodes.map r.pageOf

theorem pageOf_eq {r : ClockRing} {a : Addr} {p : PageId} (h : (r.data a).map (·.1) = some p) :
    r.pageOf a = p := by
  rw [pageOf, h, Option.getD_some]

theorem Reads.contents_eq {r : ClockRing} {l : List Addr} (h : r.Reads l) :
    r.contents = l.map fun a => (a, r.pageOf a) := by
  rw [contents, h.nodes_eq]

theorem pageOf_congr {r r' : ClockRing} {l : List Addr} (h : ∀ a ∈ l, r'.pageOf a = r.pageOf a) :
    (l.map fun a => (a, r'.pageOf a)) = l.map fun a => (a, r.pageOf a) :=
  List.map_congr_left fun a ha => by rw [h a ha]

/-- The empty ring. -/
theorem reads_new (capacity : SizeT) : (new capacity).Reads [] where
  nodup := .nil
  live a := by simp [new]
  cycle := .nil
  hand := rfl
  size := rfl
  bounded := Nat.zero_le _

/-! ## Pointers -/

section Stores

variable (heap : Heap ClockRingNode) (a b : Addr) (p : Option Addr) (bit : Bool)

/-- The heap after `a->next = p`. -/
def withNext : Heap ClockRingNode := heap.modify a fun n => { n with next := p }

/-- The heap after `a->prev = p`. -/
def withPrev : Heap ClockRingNode := heap.modify a fun n => { n with prev := p }

/-- The heap after `a->ref_bit.store(bit)`. -/
def withRefBit : Heap ClockRingNode := heap.modify a fun n => { n with refBit := bit }

variable {heap a}

theorem deref_eq {node : ClockRingNode} (h : heap.read? a = some node) :
    deref heap (some a) = .ok node := by
  simp only [deref, h]

theorem setNext_eq (h : (heap.read? a).isSome = true) :
    setNext heap (some a) p = .ok (withNext heap a p) := by
  simp only [setNext, store, h, if_true, withNext]

theorem setPrev_eq (h : (heap.read? a).isSome = true) :
    setPrev heap (some a) p = .ok (withPrev heap a p) := by
  simp only [setPrev, store, h, if_true, withPrev]

theorem setRefBit_eq (h : (heap.read? a).isSome = true) :
    setRefBit heap (some a) bit = .ok (withRefBit heap a bit) := by
  simp only [setRefBit, store, h, if_true, withRefBit]

theorem delete_eq (h : (heap.read? a).isSome = true) :
    delete heap (some a) = .ok (heap.free a) := by
  simp only [delete, h, if_true]

variable (heap a)

@[simp] theorem live_withNext : ((withNext heap a p).read? b).isSome = (heap.read? b).isSome :=
  Heap.isSome_read?_modify ..

@[simp] theorem live_withPrev : ((withPrev heap a p).read? b).isSome = (heap.read? b).isSome :=
  Heap.isSome_read?_modify ..

@[simp] theorem live_withRefBit :
    ((withRefBit heap a bit).read? b).isSome = (heap.read? b).isSome :=
  Heap.isSome_read?_modify ..

theorem read?_withNext (h : b ≠ a) : (withNext heap a p).read? b = heap.read? b := by
  rw [withNext, Heap.read?_modify, if_neg h]

theorem read?_withPrev (h : b ≠ a) : (withPrev heap a p).read? b = heap.read? b := by
  rw [withPrev, Heap.read?_modify, if_neg h]

theorem dataOf_alloc (node : ClockRingNode) : dataOf (heap.alloc node) b =
    if b = heap.allocated then some (node.pageId, node.refBit) else dataOf heap b := by
  rw [dataOf, Heap.read?_alloc]
  split <;> rfl

@[simp] theorem dataOf_withNext : dataOf (withNext heap a p) b = dataOf heap b := by
  rw [dataOf, withNext, Heap.read?_modify]
  split
  · rw [Option.map_map]; rfl
  · rfl

@[simp] theorem dataOf_withPrev : dataOf (withPrev heap a p) b = dataOf heap b := by
  rw [dataOf, withPrev, Heap.read?_modify]
  split
  · rw [Option.map_map]; rfl
  · rfl

theorem dataOf_withRefBit : dataOf (withRefBit heap a bit) b =
    if b = a then (dataOf heap b).map fun d => (d.1, bit) else dataOf heap b := by
  rw [dataOf, withRefBit, Heap.read?_modify]
  split
  · simp only [dataOf, Option.map_map]; rfl
  · rfl

theorem dataOf_free : dataOf (heap.free a) b = if b = a then none else dataOf heap b := by
  rw [dataOf, Heap.read?_free]
  split <;> rfl

theorem nextOf_alloc (node : ClockRingNode) : nextOf (heap.alloc node) b =
    if b = heap.allocated then node.next else nextOf heap b := by
  rw [nextOf, Heap.read?_alloc]
  split <;> rfl

theorem prevOf_alloc (node : ClockRingNode) : prevOf (heap.alloc node) b =
    if b = heap.allocated then node.prev else prevOf heap b := by
  rw [prevOf, Heap.read?_alloc]
  split <;> rfl

theorem nextOf_withNext (h : (heap.read? a).isSome = true) :
    nextOf (withNext heap a p) b = if b = a then p else nextOf heap b := by
  obtain ⟨node, hnode⟩ := Option.isSome_iff_exists.mp h
  rw [nextOf, withNext, Heap.read?_modify]
  split
  next hb => rw [hb, hnode]; rfl
  next => rfl

theorem prevOf_withPrev (h : (heap.read? a).isSome = true) :
    prevOf (withPrev heap a p) b = if b = a then p else prevOf heap b := by
  obtain ⟨node, hnode⟩ := Option.isSome_iff_exists.mp h
  rw [prevOf, withPrev, Heap.read?_modify]
  split
  next hb => rw [hb, hnode]; rfl
  next => rfl

@[simp] theorem nextOf_withPrev : nextOf (withPrev heap a p) b = nextOf heap b := by
  rw [nextOf, withPrev, Heap.read?_modify]
  split
  · rw [nextOf, Option.bind_map]; rfl
  · rfl

@[simp] theorem nextOf_withRefBit : nextOf (withRefBit heap a bit) b = nextOf heap b := by
  rw [nextOf, withRefBit, Heap.read?_modify]
  split
  · rw [nextOf, Option.bind_map]; rfl
  · rfl

@[simp] theorem prevOf_withNext : prevOf (withNext heap a p) b = prevOf heap b := by
  rw [prevOf, withNext, Heap.read?_modify]
  split
  · rw [prevOf, Option.bind_map]; rfl
  · rfl

@[simp] theorem prevOf_withRefBit : prevOf (withRefBit heap a bit) b = prevOf heap b := by
  rw [prevOf, withRefBit, Heap.read?_modify]
  split
  · rw [prevOf, Option.bind_map]; rfl
  · rfl

theorem nextOf_free (h : b ≠ a) : nextOf (heap.free a) b = nextOf heap b := by
  rw [nextOf, Heap.read?_free, if_neg h, nextOf]

theorem prevOf_free (h : b ≠ a) : prevOf (heap.free a) b = prevOf heap b := by
  rw [prevOf, Heap.read?_free, if_neg h, prevOf]

@[simp] theorem allocated_withNext : (withNext heap a p).allocated = heap.allocated :=
  Heap.allocated_modify ..

@[simp] theorem allocated_withPrev : (withPrev heap a p).allocated = heap.allocated :=
  Heap.allocated_modify ..

@[simp] theorem allocated_withRefBit : (withRefBit heap a bit).allocated = heap.allocated :=
  Heap.allocated_modify ..

variable {heap a} in
theorem nextOf_eq {node : ClockRingNode} (h : heap.read? a = some node) :
    nextOf heap a = node.next := by
  simp only [nextOf, h, Option.bind_some]

variable {heap a} in
theorem prevOf_eq {node : ClockRingNode} (h : heap.read? a = some node) :
    prevOf heap a = node.prev := by
  simp only [prevOf, h, Option.bind_some]

end Stores

/-! ## Splices -/

section Splices

variable {heap : Heap ClockRingNode} {l : List Addr} {x y z : Addr}

/-- A live node alone, linked to itself. -/
theorem isCycle_alone (hx : (heap.read? x).isSome = true) :
    IsCycle (nextOf (withNext (withPrev heap x (some x)) x (some x)))
      (prevOf (withNext (withPrev heap x (some x)) x (some x))) [x] := by
  apply IsCycle.singleton
  constructor
  · rw [nextOf_withNext _ _ _ _ (by rw [live_withPrev, hx]), if_pos rfl]
  · rw [prevOf_withNext, prevOf_withPrev _ _ _ _ hx, if_pos rfl]

/-- The four stores of `insert` link a live node in between the last and the first. -/
theorem isCycle_spliceIn (h : IsCycle (nextOf heap) (prevOf heap) l) (nodup : l.Nodup)
    (live : ∀ a ∈ l, (heap.read? a).isSome = true) (hx : (heap.read? x).isSome = true)
    (fresh : x ∉ l) (first : l.head? = some y) (last : l.getLast? = some z) :
    IsCycle
      (nextOf (withPrev (withNext (withPrev (withNext heap z (some x)) x (some z)) x (some y))
        y (some x)))
      (prevOf (withPrev (withNext (withPrev (withNext heap z (some x)) x (some z)) x (some y))
        y (some x))) (l ++ [x]) := by
  have hold : ∀ a ∈ l, a ≠ x := by
    rintro a ha rfl
    exact fresh ha
  have hy : y ∈ l := List.mem_of_head? first
  have hz : z ∈ l := List.mem_of_getLast? last
  apply h.append_last nodup first last
  · intro a ha hne
    simp only [nextOf_withPrev, nextOf_withNext, live_withPrev, live_withNext, hx, live z hz,
      if_neg (hold a ha), if_neg hne]
  · intro a ha hne
    simp only [prevOf_withPrev, prevOf_withNext, live_withPrev, live_withNext, hx, live y hy,
      if_neg (hold a ha), if_neg hne]
  · constructor
    · simp only [nextOf_withPrev, nextOf_withNext, live_withPrev, live_withNext, hx, live z hz,
        if_neg (hold z hz), if_true]
    · simp only [prevOf_withPrev, prevOf_withNext, live_withPrev, live_withNext, hx, live y hy,
        if_neg (hold y hy).symm, if_true]
  · constructor
    · simp only [nextOf_withPrev, nextOf_withNext, live_withPrev, live_withNext, hx, if_true]
    · simp only [prevOf_withPrev, live_withPrev, live_withNext, live y hy, if_true]

/-- The two stores of `remove` link the neighbours of the first to each other. -/
theorem isCycle_spliceOut (h : IsCycle (nextOf heap) (prevOf heap) (x :: l))
    (nodup : (x :: l).Nodup) (live : ∀ a ∈ l, (heap.read? a).isSome = true)
    (first : l.head? = some y) (last : l.getLast? = some z) :
    IsCycle (nextOf ((withPrev (withNext heap z (some y)) y (some z)).free x))
      (prevOf ((withPrev (withNext heap z (some y)) y (some z)).free x)) l := by
  obtain ⟨fresh, nodup⟩ := List.nodup_cons.mp nodup
  have hne : ∀ a ∈ l, a ≠ x := by
    rintro a ha rfl
    exact fresh ha
  have hy : y ∈ l := List.mem_of_head? first
  have hz : z ∈ l := List.mem_of_getLast? last
  have hyLive : ((withNext heap z (some y)).read? y).isSome = true := by
    rw [live_withNext]
    exact live y hy
  apply h.unlink_head nodup first last
  · intro a ha haz
    rw [nextOf_free _ _ _ (hne a ha), nextOf_withPrev, nextOf_withNext _ _ _ _ (live z hz),
      if_neg haz]
  · intro a ha hay
    rw [prevOf_free _ _ _ (hne a ha), prevOf_withPrev _ _ _ _ hyLive, if_neg hay, prevOf_withNext]
  · constructor
    · rw [nextOf_free _ _ _ (hne z hz), nextOf_withPrev, nextOf_withNext _ _ _ _ (live z hz),
        if_pos rfl]
    · rw [prevOf_free _ _ _ (hne y hy), prevOf_withPrev _ _ _ _ hyLive, if_pos rfl]

end Splices

/-! ## `insert` -/

/-- A full ring refuses. -/
theorem Reads.insert_full {r : ClockRing} {l : List Addr} (h : r.Reads l) (pageId : PageId)
    (full : l.length = r.capacity.toNat) : r.insert pageId = .ok (none, r) := by
  have hle : r.capacity ≤ r.size := by rw [UInt64.le_iff_toNat_le, h.size, full]
  rw [insert, if_pos hle]

theorem live_allocated (heap : Heap ClockRingNode) (node : ClockRingNode) :
    ((heap.alloc node).read? heap.allocated).isSome = true := by
  rw [Heap.read?_alloc, if_pos rfl]
  rfl

/-- The call on an empty ring. -/
theorem insert_alone {r : ClockRing} (room : ¬ r.capacity ≤ r.size) (hhand : r.hand = none)
    (pageId : PageId) :
    r.insert pageId = .ok (some r.heap.allocated,
      { r with
        heap := withNext (withPrev (r.heap.alloc { pageId }) r.heap.allocated
          (some r.heap.allocated)) r.heap.allocated (some r.heap.allocated)
        hand := some r.heap.allocated
        size := r.size + 1 }) := by
  have hx := live_allocated r.heap { pageId }
  rw [insert, if_neg room]
  simp only [hhand, setPrev_eq, setNext_eq, hx, ok_bind, live_withPrev]

/-- The call on a ring with a hand, and a node behind it. -/
theorem insert_behind {r : ClockRing} {y z : Addr} {pageId : PageId}
    (room : ¬ r.capacity ≤ r.size) (hhand : r.hand = some y)
    (hy : ((r.heap.alloc { pageId }).read? y).isSome = true)
    (hz : ((r.heap.alloc { pageId }).read? z).isSome = true)
    (hprev : prevOf (r.heap.alloc { pageId }) y = some z) :
    r.insert pageId = .ok (some r.heap.allocated,
      { r with
        heap := withPrev (withNext (withPrev (withNext (r.heap.alloc { pageId }) z
          (some r.heap.allocated)) r.heap.allocated (some z)) r.heap.allocated (some y)) y
          (some r.heap.allocated)
        size := r.size + 1 }) := by
  have hx := live_allocated r.heap { pageId }
  obtain ⟨head, hhead⟩ := Option.isSome_iff_exists.mp hy
  rw [prevOf_eq hhead] at hprev
  rw [insert, if_neg room]
  simp only [hhand, deref_eq hhead, ok_bind, hprev, setNext_eq, setPrev_eq, hz, hx, hy,
    live_withNext, live_withPrev]

/-- The list with a node at its end, once one is allocated and the others are still there. -/
theorem Reads.append {r r' : ClockRing} {l : List Addr} (h : r.Reads l) (pageId : PageId)
    (room : l.length < r.capacity.toNat)
    (hlive : ∀ a, (r'.heap.read? a).isSome = ((r.heap.alloc { pageId }).read? a).isSome)
    (hsize : r'.size = r.size + 1) (hcapacity : r'.capacity = r.capacity)
    (cycle : IsCycle (nextOf r'.heap) (prevOf r'.heap) (l ++ [r.heap.allocated]))
    (hand : r'.hand = (l ++ [r.heap.allocated]).head?) :
    r'.Reads (l ++ [r.heap.allocated]) := by
  have hlength : (l ++ [r.heap.allocated]).length = l.length + 1 := by
    rw [List.length_append, List.length_singleton]
  have hlt := r.capacity.toNat_lt
  constructor
  case nodup =>
    apply h.nodup.append (List.nodup_singleton _) (List.disjoint_singleton.mpr _)
    rw [h.live, Heap.read?_allocated]
    exact Bool.false_ne_true
  case live =>
    intro a
    rw [List.mem_append, List.mem_singleton, hlive, Heap.read?_alloc, h.live]
    by_cases ha : a = r.heap.allocated
    · simp only [ha, or_true, if_true, Option.isSome_some]
    · simp only [ha, or_false, if_false]
  case cycle => exact cycle
  case hand => exact hand
  case size => rw [hsize, SizeT.toNat_succ (by rw [h.size]; omega), h.size, hlength]
  case bounded =>
    rw [hcapacity, hlength]
    exact room

/-- **`insert` appends**: with room, the new node goes in behind the hand. -/
theorem Reads.insert_room {r : ClockRing} {l : List Addr} (h : r.Reads l) (pageId : PageId)
    (room : l.length < r.capacity.toNat) :
    ∃ r', r.insert pageId = .ok (some r.heap.allocated, r') ∧
      r'.Reads (l ++ [r.heap.allocated]) ∧
      (∀ a, r'.data a = if a = r.heap.allocated then some (pageId, false) else r.data a) ∧
      r'.capacity = r.capacity ∧ r'.heap.allocated = r.heap.allocated + 1 := by
  have hroom : ¬ r.capacity ≤ r.size := by
    rw [UInt64.le_iff_toNat_le, h.size, Nat.not_le]
    exact room
  have fresh : r.heap.allocated ∉ l := by
    rw [h.live, Heap.read?_allocated]
    exact Bool.false_ne_true
  have hold : ∀ a ∈ l, a ≠ r.heap.allocated := by
    rintro a ha rfl
    exact fresh ha
  have hx := live_allocated r.heap { pageId }
  cases hl : l with
  | nil =>
    subst hl
    refine ⟨_, insert_alone hroom h.hand pageId, ?_, ?_, rfl, ?_⟩
    · refine h.append pageId room ?_ rfl rfl (isCycle_alone hx) rfl
      intro a
      rw [live_withNext, live_withPrev]
    · intro a
      rw [data, dataOf_withNext, dataOf_withPrev]
      exact dataOf_alloc ..
    · rw [allocated_withNext, allocated_withPrev]
      exact Heap.allocated_alloc ..
  | cons y t =>
    rw [← hl]
    have first : l.head? = some y := by rw [hl, List.head?_cons]
    obtain ⟨z, hz⟩ : ∃ z, l.getLast? = some z :=
      ⟨_, List.getLast?_eq_some_getLast (by rw [hl]; exact List.cons_ne_nil y t)⟩
    have hlive : ∀ a ∈ l, ((r.heap.alloc { pageId }).read? a).isSome = true := by
      intro a ha
      rw [Heap.read?_alloc, if_neg (hold a ha)]
      exact (h.live a).mp ha
    have hcycle :
        IsCycle (nextOf (r.heap.alloc { pageId })) (prevOf (r.heap.alloc { pageId })) l := by
      apply h.cycle.congr
      · intro a ha
        rw [nextOf_alloc, if_neg (hold a ha)]
      · intro a ha
        rw [prevOf_alloc, if_neg (hold a ha)]
    have htail := (hcycle.prev_head first).trans hz
    refine ⟨_, insert_behind hroom (h.hand.trans first) (hlive y (List.mem_of_head? first))
      (hlive z (List.mem_of_getLast? hz)) htail, ?_, ?_, rfl, ?_⟩
    · refine h.append pageId room ?_ rfl rfl
        (isCycle_spliceIn hcycle h.nodup hlive hx fresh first hz) ?_
      · intro a
        simp only [live_withNext, live_withPrev]
      · rw [List.head?_append, first, Option.some_or]
        exact h.hand.trans first
    · intro a
      simp only [data, dataOf_withNext, dataOf_withPrev]
      exact dataOf_alloc ..
    · simp only [allocated_withNext, allocated_withPrev]
      exact Heap.allocated_alloc ..

/-- The node of an insertion that succeeds comes last, and carries the page. -/
theorem Reads.insert_pages {r r' : ClockRing} {l : List Addr} (h : r.Reads l) {pageId : PageId}
    {a : Addr} (call : r.insert pageId = .ok (some a, r')) :
    r'.Reads (l ++ [a]) ∧ (l ++ [a]).map r'.pageOf = l.map r.pageOf ++ [pageId] := by
  have room : l.length < r.capacity.toNat := by
    rcases Nat.lt_or_eq_of_le h.bounded with room | full
    · exact room
    · rw [h.insert_full pageId full] at call
      cases call
  obtain ⟨r₁, hcall, hreads, hdata, _⟩ := h.insert_room pageId room
  rw [call] at hcall
  cases hcall
  refine ⟨hreads, ?_⟩
  have hnew : r'.pageOf r.heap.allocated = pageId := by
    apply pageOf_eq
    rw [hdata, if_pos rfl, Option.map_some]
  rw [List.map_append, List.map_singleton, hnew]
  congr 1
  apply List.map_congr_left
  intro b hb
  have hne : b ≠ r.heap.allocated := by
    rintro rfl
    rw [h.live, Heap.read?_allocated] at hb
    exact Bool.false_ne_true hb
  rw [pageOf, hdata, if_neg hne]
  rfl

/-! ## `remove` -/

/-- `remove` reads the node first: a freed one faults. -/
theorem remove_freed {r : ClockRing} {a : Addr} (h : r.heap.read? a = none) :
    r.remove (some a) = .error (.useAfterFree a) := by
  unfold remove deref
  simp only [h]
  rfl

/-- The call on the only node. -/
theorem remove_alone {r : ClockRing} {x : Addr} (hx : (r.heap.read? x).isSome = true)
    (hnext : nextOf r.heap x = some x) :
    r.remove (some x) =
      .ok { r with heap := r.heap.free x, hand := none, size := r.size - 1 } := by
  obtain ⟨node, hnode⟩ := Option.isSome_iff_exists.mp hx
  rw [nextOf_eq hnode] at hnext
  simp only [remove, deref_eq hnode, ok_bind, hnext, if_true, delete_eq hx]

/-- The call on a node between two others, which may be one. -/
theorem remove_between {r : ClockRing} {x y z : Addr} (hx : (r.heap.read? x).isSome = true)
    (hy : (r.heap.read? y).isSome = true) (hz : (r.heap.read? z).isSome = true)
    (hnext : nextOf r.heap x = some y) (hprev : prevOf r.heap x = some z) (hyx : y ≠ x)
    (hzx : z ≠ x) :
    r.remove (some x) = .ok
      { r with
        heap := (withPrev (withNext r.heap z (some y)) y (some z)).free x
        hand := if r.hand = some x then some y else r.hand
        size := r.size - 1 } := by
  obtain ⟨node, hnode⟩ := Option.isSome_iff_exists.mp hx
  rw [nextOf_eq hnode] at hnext
  rw [prevOf_eq hnode] at hprev
  have hother : ¬ node.next = some x := by
    rw [hnext, Option.some.injEq]
    exact hyx
  -- the node's own fields are the same after either store
  have hnode₁ := (read?_withNext r.heap z x (some y) hzx.symm).trans hnode
  have hnode₂ := (read?_withPrev (withNext r.heap z (some y)) y x (some z) hyx.symm).trans hnode₁
  unfold remove
  simp only [deref_eq hnode, ok_bind, if_neg hother]
  rw [hnext, hprev, setNext_eq _ hz]
  simp only [ok_bind, deref_eq hnode₁, hnext, hprev]
  rw [setPrev_eq _ (by rw [live_withNext]; exact hy)]
  simp only [ok_bind, deref_eq hnode₂, hnext]
  rw [delete_eq (by rw [live_withPrev, live_withNext]; exact hx), ok_bind]

/-- The ring read from one of its nodes on. -/
theorem Reads.around {r : ClockRing} {before after : List Addr} {x : Addr}
    (h : r.Reads (before ++ x :: after)) :
    IsCycle (nextOf r.heap) (prevOf r.heap) (x :: (after ++ before)) ∧
      (x :: (after ++ before)).Nodup := by
  have hperm : (before ++ x :: after).Perm (x :: after ++ before) := List.perm_append_comm
  exact ⟨h.cycle.append_comm, hperm.nodup h.nodup⟩

/-- What is left of the list, once a node is freed and the others are still there. -/
theorem Reads.erase {r r' : ClockRing} {l : List Addr} {x : Addr} (h : r.Reads l) (hx : x ∈ l)
    {heap : Heap ClockRingNode} (hlive : ∀ a, (heap.read? a).isSome = (r.heap.read? a).isSome)
    (hheap : r'.heap = heap.free x) (hsize : r'.size = r.size - 1)
    (hcapacity : r'.capacity = r.capacity)
    (cycle : IsCycle (nextOf r'.heap) (prevOf r'.heap) (l.erase x))
    (hand : r'.hand = (l.erase x).head?) : r'.Reads (l.erase x) := by
  have hlength := List.length_erase_of_mem hx
  have hpos := List.length_pos_of_mem hx
  constructor
  case nodup => exact h.nodup.erase x
  case live =>
    intro a
    rw [h.nodup.mem_erase_iff, hheap, Heap.read?_free]
    by_cases ha : a = x
    · simp only [ha, ne_eq, not_true_eq_false, false_and, if_true, Option.isSome_none,
        Bool.false_eq_true]
    · rw [if_neg ha, hlive, h.live]
      simp only [ne_eq, ha, not_false_eq_true, true_and]
  case cycle => exact cycle
  case hand => exact hand
  case size => rw [hsize, SizeT.toNat_pred (by rw [h.size]; exact hpos), h.size, hlength]
  case bounded =>
    rw [hcapacity, hlength]
    exact (Nat.sub_le _ _).trans h.bounded

/-- **`remove` takes out one node** and keeps the order of the others. -/
theorem Reads.remove_eq {r : ClockRing} {l : List Addr} (h : r.Reads l) {x : Addr} (hx : x ∈ l) :
    ∃ r', r.remove (some x) = .ok r' ∧ r'.Reads (l.erase x) ∧
      (∀ a, r'.data a = if a = x then none else r.data a) ∧
      r'.capacity = r.capacity ∧ r'.heap.allocated = r.heap.allocated := by
  obtain ⟨before, after, rfl⟩ := List.append_of_mem hx
  have hbefore : x ∉ before := by
    intro hin
    exact (List.nodup_append.mp h.nodup).2.2 x hin x List.mem_cons_self rfl
  have herase : (before ++ x :: after).erase x = before ++ after := by
    rw [List.erase_append_right _ hbefore, List.erase_cons_head]
  obtain ⟨hcycle, hnodup⟩ := h.around
  have hxLive : (r.heap.read? x).isSome = true := (h.live x).mp hx
  by_cases hrest : after ++ before = []
  · have halone := (hcycle.next_head_eq_self_iff hnodup).mpr hrest
    obtain ⟨rfl, rfl⟩ := List.append_eq_nil_iff.mp hrest
    refine ⟨_, remove_alone hxLive halone, ?_, fun a => dataOf_free .., rfl, Heap.allocated_free ..⟩
    refine h.erase hx (fun _ => rfl) rfl rfl rfl ?_ ?_
    · rw [herase]
      exact .nil
    · rw [herase]
      rfl
  · obtain ⟨y, hy⟩ : ∃ y, (after ++ before).head? = some y :=
      ⟨_, List.head?_eq_some_head hrest⟩
    obtain ⟨z, hz⟩ : ∃ z, (after ++ before).getLast? = some z :=
      ⟨_, List.getLast?_eq_some_getLast hrest⟩
    have hne : ∀ a ∈ after ++ before, a ≠ x := by
      rintro a ha rfl
      exact (List.nodup_cons.mp hnodup).1 ha
    have hlive : ∀ a ∈ after ++ before, (r.heap.read? a).isSome = true := by
      intro a ha
      rw [← h.live]
      exact List.perm_middle.mem_iff.mpr
        (List.mem_cons_of_mem x (List.perm_append_comm.mem_iff.mp ha))
    have hyMem := List.mem_of_head? hy
    have hzMem := List.mem_of_getLast? hz
    have hnext : nextOf r.heap x = some y := by
      rw [hcycle.next_head, List.head?_append, hy, Option.some_or]
    have hprev : prevOf r.heap x = some z := by
      rw [hcycle.prev_head (List.head?_cons ..), List.getLast?_cons, hz, Option.getD_some]
    refine ⟨_, remove_between hxLive (hlive y hyMem) (hlive z hzMem) hnext hprev (hne y hyMem)
      (hne z hzMem), ?_, ?_, rfl, ?_⟩
    · refine h.erase hx ?_ rfl rfl rfl ?_ ?_
      · intro a
        rw [live_withPrev, live_withNext]
      · rw [herase]
        exact (isCycle_spliceOut hcycle hnodup hlive hy hz).append_comm
      · rw [herase, h.hand]
        cases before with
        | nil =>
          rw [List.append_nil] at hy
          simp only [List.nil_append, List.head?_cons, if_true, hy]
        | cons a before =>
          have hax : a ≠ x := by
            rintro rfl
            exact hbefore List.mem_cons_self
          simp only [List.cons_append, List.head?_cons, Option.some.injEq, if_neg hax]
    · intro a
      simp only [data, dataOf_free, dataOf_withPrev, dataOf_withNext]
    · simp only [Heap.allocated_free, allocated_withPrev, allocated_withNext]

end ClockRing

end MemoryTiering
