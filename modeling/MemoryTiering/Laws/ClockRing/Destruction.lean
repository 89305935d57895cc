import MemoryTiering.Laws.ClockRing.Session

/-!
# The end of a ring

`~ClockRing` takes the cycle apart from the hand on. After the first node is gone the links of its
neighbours dangle, so what is left is no cycle but an arc: each node leads to the next one, and
nobody asks the last one where it leads. `size_` stops the loop there
(`Session.destroy_frees_once`).
-/

set_option autoImplicit false

namespace MemoryTiering

open Fallible Pointer Transition

namespace ClockRing

/-- What the loop has still to delete: the live nodes, in the order of their `next` links from the
hand. The `prev` links, and the last node's `next`, may dangle. -/
structure Arc (r : ClockRing) (l : List Addr) : Prop where
  nodup : l.Nodup
  live : ∀ a, a ∈ l ↔ (r.heap.read? a).isSome
  chain : l.IsChain fun a b => nextOf r.heap a = some b
  hand : ∀ a ∈ l.head?, r.hand = some a
  size : r.size.toNat = l.length

/-- A ring is an arc too. -/
theorem Reads.arc {r : ClockRing} {l : List Addr} (h : r.Reads l) : r.Arc l where
  nodup := h.nodup
  live := h.live
  chain := h.cycle.chain.imp fun _ _ linked => linked.1
  hand _ first := h.hand.trans first
  size := h.size

/-- **Once around the loop**: the node under the hand goes, and the rest is an arc. -/
theorem Arc.destroyLoop_step {r : ClockRing} {a : Addr} {l : List Addr} (h : r.Arc (a :: l)) :
    ∃ r₁, r₁.Arc l ∧ r₁.heap = r.heap.free a ∧
      destroyLoop r = destroyLoop r₁ >>= fun d => .ok { d with deleted := a :: d.deleted } := by
  have hlive := (h.live a).mp List.mem_cons_self
  obtain ⟨node, hnode⟩ := Option.isSome_iff_exists.mp hlive
  have hhand : r.hand = some a := h.hand a rfl
  have hpos : 0 < r.size := by
    rw [UInt64.lt_iff_toNat_lt, h.size]
    exact Nat.succ_pos _
  have hfresh : a ∉ l := (List.nodup_cons.mp h.nodup).1
  have hne : ∀ b ∈ l, b ≠ a := fun b hb heq => hfresh (heq ▸ hb)
  refine ⟨{ r with heap := r.heap.free a, hand := nextOf r.heap a, size := r.size - 1 }, ?_, rfl,
    ?_⟩
  · constructor
    case nodup => exact (List.nodup_cons.mp h.nodup).2
    case live =>
      intro b
      rw [Heap.read?_free]
      by_cases hb : b = a
      · simp [hb, hfresh]
      · rw [if_neg hb, ← h.live b, List.mem_cons, or_iff_right hb]
    case chain =>
      -- no node that is left leads out of the deleted one
      refine List.IsChain.imp_of_mem_imp (fun b c hb _ hbc => ?_) h.chain.tail
      rw [nextOf_free r.heap a b (hne b hb)]
      exact hbc
    case hand =>
      intro b first
      obtain ⟨rest, rfl⟩ := List.head?_eq_some_iff.mp first
      exact (List.isChain_cons_cons.mp h.chain).1
    case size =>
      rw [SizeT.toNat_pred (UInt64.lt_iff_toNat_lt.mp hpos), h.size]
      rfl
  · rw [destroyLoop, dif_pos hpos]
    simp only [hhand, deref_eq hnode, ok_bind, delete_eq hlive, nextOf_eq hnode, Option.toList_some,
      List.singleton_append]

/-- **The whole loop** deletes the arc, node by node, and then nothing is live. -/
theorem Arc.destroyLoop_eq {r : ClockRing} {l : List Addr} (h : r.Arc l) :
    ∃ d, destroyLoop r = .ok d ∧ d.deleted = l ∧ d.ring.Arc [] ∧
      d.ring.heap.allocated = r.heap.allocated := by
  induction l generalizing r with
  | nil =>
    have hzero : ¬ 0 < r.size := by
      rw [UInt64.lt_iff_toNat_lt, h.size]
      exact Nat.lt_irrefl 0
    refine ⟨⟨[], r⟩, ?_, rfl, h, rfl⟩
    rw [destroyLoop, dif_neg hzero]
  | cons a l ih =>
    obtain ⟨r₁, harc, hheap, hstep⟩ := h.destroyLoop_step
    obtain ⟨d, hloop, hdeleted, hempty, halloc⟩ := ih harc
    refine ⟨{ d with deleted := a :: d.deleted }, ?_, ?_, hempty, ?_⟩
    · rw [hstep, hloop, ok_bind]
    · rw [hdeleted]
    · rw [halloc, hheap, Heap.allocated_free]

end ClockRing

namespace Session

/-- `~ClockRing` returns, having deleted every node that was left, each once. Following a pointer
to a deleted node, or deleting one again, would be a fault. -/
structure DestroysOnce (r : ClockRing) (d : ClockRing.Destruction) : Prop where
  returns : r.destroy = .ok d
  deleted : d.deleted = r.nodes
  once : d.deleted.Nodup
  all : ∀ a, a ∈ d.deleted ↔ (r.heap.read? a).isSome
  none_left : ∀ a, d.ring.heap.read? a = none
  /-- Over the life of the ring, every `new` has met its `delete`. -/
  freed : d.ring.heap.freed = d.ring.heap.allocated
  allocated : d.ring.heap.allocated = r.heap.allocated
  hand : d.ring.hand = none
  size : d.ring.size = 0

/-- It does so with every ring that reads as a cycle. -/
theorem destroysOnce_of_reads {r : ClockRing} {l : List Addr} (h : r.Reads l) :
    ∃ d, DestroysOnce r d := by
  obtain ⟨d, hloop, hdeleted, hempty, halloc⟩ := h.arc.destroyLoop_eq
  have hnone : ∀ a, d.ring.heap.read? a = none := by
    intro a
    rw [← Option.not_isSome_iff_eq_none, ← hempty.live a]
    exact List.not_mem_nil
  refine ⟨{ d with ring := { d.ring with hand := none } }, ?_⟩
  constructor
  case returns => rw [ClockRing.destroy, hloop, ok_bind]
  case deleted => rw [h.nodes_eq, hdeleted]
  case once => exact hdeleted ▸ h.nodup
  case all =>
    intro a
    rw [hdeleted]
    exact h.live a
  case none_left => exact hnone
  case freed =>
    have hcount := Heap.length_add_freed List.nodup_nil hempty.live
    rwa [List.length_nil, Nat.zero_add] at hcount
  case allocated => exact halloc
  case hand => rfl
  case size => exact UInt64.toNat_inj.mp hempty.size

/-- **The destructor frees each node exactly once**, after every run of valid calls. -/
theorem destroy_frees_once {capacity : SizeT} {es : List Event} {s : Session}
    (run : Trace Step (start capacity) es s) : ∃ d, DestroysOnce s.ring d := by
  obtain ⟨⟨l, hl⟩, _⟩ := valid_of_run run
  exact destroysOnce_of_reads hl.reads

/-- Three nodes, of which the first is marked and the second evicted, and two are left. -/
theorem two_left_destroyed : ∃ (s : Session) (d : ClockRing.Destruction),
    Trace Step (start 3)
      [.inserted 10 0, .marked 0, .inserted 11 1, .inserted 12 2, .evicted 11 1 [0, 1]] s ∧
    d.deleted = [2, 0] ∧ DestroysOnce s.ring d := by
  have hrun : ∃ s, Trace Step (start 3)
      [.inserted 10 0, .marked 0, .inserted 11 1, .inserted 12 2, .evicted 11 1 [0, 1]] s ∧
      s.ring.nodes = [2, 0] :=
    ⟨_, .cons (.insert rfl) <| .cons (.mark (by decide) rfl) <| .cons (.insert rfl) <|
      .cons (.insert rfl) <| .cons (.evict (c := ⟨11, 1, [0, 1], _⟩) (by decide) rfl) (.nil _), rfl⟩
  obtain ⟨s, run, hnodes⟩ := hrun
  obtain ⟨d, hd⟩ := destroy_frees_once run
  exact ⟨s, d, run, hd.deleted.trans hnodes, hd⟩

end Session

end MemoryTiering
