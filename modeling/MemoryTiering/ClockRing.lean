import MemoryTiering.Common

/-!
# The clock ring

`src/server/ClockRing.cpp`: a circular doubly linked list of heap nodes with a hand, on which
NUMA-local pages get a second chance before they are evicted. Nodes live on a heap of their own,
pointers are addresses or null, and a pointer to a deleted node faults when it is followed.
-/

set_option autoImplicit false

namespace MemoryTiering

open Pointer

structure ClockRingNode where
  pageId : PageId
  refBit : Bool := false
  prev : Option Addr := none
  next : Option Addr := none
  deriving DecidableEq

structure ClockRing where
  heap : Heap ClockRingNode
  hand : Option Addr
  size : SizeT
  capacity : SizeT
  deriving DecidableEq

namespace ClockRing

/-! ## Pointers to nodes -/

/-- `*p`. -/
def deref (heap : Heap ClockRingNode) : Option Addr → Except Fault ClockRingNode
  | none => .error .nullDeref
  | some a =>
    match heap.read? a with
    | some node => .ok node
    | none => .error (.useAfterFree a)

/-- A store to a field of `*p`. -/
def store (heap : Heap ClockRingNode) (p : Option Addr) (f : ClockRingNode → ClockRingNode) :
    Except Fault (Heap ClockRingNode) :=
  match p with
  | none => .error .nullDeref
  | some a => if (heap.read? a).isSome then .ok (heap.modify a f) else .error (.useAfterFree a)

/-- `p->next = q`. -/
def setNext (heap : Heap ClockRingNode) (p q : Option Addr) : Except Fault (Heap ClockRingNode) :=
  store heap p fun n => { n with next := q }

/-- `p->prev = q`. -/
def setPrev (heap : Heap ClockRingNode) (p q : Option Addr) : Except Fault (Heap ClockRingNode) :=
  store heap p fun n => { n with prev := q }

/-- `p->ref_bit.store(bit)`. -/
def setRefBit (heap : Heap ClockRingNode) (p : Option Addr) (bit : Bool) :
    Except Fault (Heap ClockRingNode) :=
  store heap p fun n => { n with refBit := bit }

/-- `delete p`. -/
def delete (heap : Heap ClockRingNode) : Option Addr → Except Fault (Heap ClockRingNode)
  | none => .ok heap
  | some a => if (heap.read? a).isSome then .ok (heap.free a) else .error (.useAfterFree a)

/-! ## Operations -/

/-- The constructor. -/
def new (capacity : SizeT) : ClockRing := { heap := .empty, hand := none, size := 0, capacity }

/-- `none` is the return value `false`, which leaves `out_ptr` alone; `some node` is `true` with
`out_ptr` set to the new node. -/
def insert (r : ClockRing) (pageId : PageId) : Except Fault (Option Addr × ClockRing) :=
  if r.capacity ≤ r.size then .ok (none, r)
  else
    let node := r.heap.allocated
    let heap := r.heap.alloc { pageId }
    match r.hand with
    | none => do
      let heap ← setPrev heap (some node) (some node)
      let heap ← setNext heap (some node) (some node)
      .ok (some node, { r with heap, hand := some node, size := r.size + 1 })
    | some hand => do
      -- insert before the hand, as the tail of the ring
      let tail := (← deref heap (some hand)).prev
      let heap ← setNext heap tail (some node)
      let heap ← setPrev heap (some node) tail
      let heap ← setNext heap (some node) (some hand)
      let heap ← setPrev heap (some hand) (some node)
      .ok (some node, { r with heap, size := r.size + 1 })

/-- The caller's `node_ptr` is null afterwards. -/
def remove (r : ClockRing) : Option Addr → Except Fault ClockRing
  | none => .error (.assertion .removeNullptr)
  | some a => do
    let node ← deref r.heap (some a)
    if node.next = some a then
      let heap ← delete r.heap (some a)
      .ok { r with heap, hand := none, size := r.size - 1 }
    else
      let heap ← setNext r.heap node.prev node.next
      -- the fields of `*node_ptr` are read again after each store
      let node ← deref heap (some a)
      let heap ← setPrev heap node.next node.prev
      let node ← deref heap (some a)
      let hand := if r.hand = some a then node.next else r.hand
      let heap ← delete heap (some a)
      .ok { r with heap, hand, size := r.size - 1 }

def markAccessed (r : ClockRing) : Option Addr → Except Fault ClockRing
  | none => .ok r
  | some a => do
    let heap ← setRefBit r.heap (some a) true
    .ok { r with heap }

/-- What `findEvictionCandidate` answers and does: the page it returns, the node it deletes, and
the nodes whose `ref_bit` it read, in order. -/
structure Candidate where
  victim : PageId
  evicted : Addr
  inspected : List Addr
  ring : ClockRing
  deriving DecidableEq

/-- The body of `while (true)`, at most `fuel` times. -/
def evictionLoop : Nat → ClockRing → Except Fault Candidate
  | 0, _ => .error .outOfFuel
  | fuel + 1, r =>
    match r.hand with
    | none => .error .nullDeref
    | some hand => do
      let node ← deref r.heap (some hand)
      if node.refBit then
        let heap ← setRefBit r.heap (some hand) false
        let node ← deref heap (some hand)
        let c ← evictionLoop fuel { r with heap, hand := node.next }
        .ok { c with inspected := hand :: c.inspected }
      else
        let ring ← remove { r with hand := node.next } (some hand)
        .ok { victim := node.pageId, evicted := hand, inspected := [hand], ring }

/-- The hand meets an unmarked node within one round and one node more
(`ClockRing.Reads.evictionLoop_eq`), so this fuel never runs out. -/
def findEvictionCandidate (r : ClockRing) : Except Fault Candidate :=
  match r.hand with
  | none => .error (.assertion .ringEmpty)
  | some _ => evictionLoop (r.size.toNat + 1) r

/-- What the destructor does: the nodes it deletes, in order, and what it leaves of the members. -/
structure Destruction where
  deleted : List Addr
  ring : ClockRing
  deriving DecidableEq

/-- `while (size_ > 0)`. -/
def destroyLoop (r : ClockRing) : Except Fault Destruction :=
  if _ : 0 < r.size then do
    let node := r.hand
    let hand := (← deref r.heap r.hand).next
    let heap ← delete r.heap node
    let d ← destroyLoop { r with heap, hand, size := r.size - 1 }
    .ok { d with deleted := node.toList ++ d.deleted }
  else .ok { deleted := [], ring := r }
termination_by r.size.toNat
decreasing_by
  have hpos : 0 < r.size.toNat := UInt64.lt_iff_toNat_lt.mp ‹0 < r.size›
  rw [SizeT.toNat_pred hpos]
  exact Nat.sub_lt hpos Nat.one_pos

/-- `~ClockRing`. -/
def destroy (r : ClockRing) : Except Fault Destruction := do
  let d ← destroyLoop r
  .ok { d with ring := { d.ring with hand := none } }

end ClockRing

end MemoryTiering
