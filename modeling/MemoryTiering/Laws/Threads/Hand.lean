import MemoryTiering.Laws.PageTable.Outcome
import MemoryTiering.Threads

/-!
# The eviction, one look at a time

The three pieces the loop of `findEvictionCandidate` is cut into, each with what it answers and what
it leaves of the ring: the load of the hand's `ref_bit`, the store that clears it, and the removal
of the node at the hand. A page whose node is evicted keeps its pointer, so the coupling of ring and
table holds of the table in which that pointer is null.
-/

set_option autoImplicit false

namespace MemoryTiering

open Fallible Pointer

namespace ClockRing

section Hand

variable {r : ClockRing} {a : Addr} {l : List Addr}

/-- The hand's node is there. -/
theorem Reads.deref_hand (h : r.Reads (a :: l)) :
    ∃ node, deref r.heap r.hand = .ok node ∧ r.heap.read? a = some node := by
  obtain ⟨node, hnode⟩ := h.read List.mem_cons_self
  have hhand : r.hand = some a := h.hand
  exact ⟨node, by rw [hhand, deref_eq hnode], hnode⟩

theorem Reads.handBit_eq (h : r.Reads (a :: l)) : r.handBit = .ok (r.refBit a) := by
  obtain ⟨node, hderef, hnode⟩ := h.deref_hand
  rw [handBit, hderef, ok_bind, refBit, data, dataOf, hnode]
  rfl

/-- The hand's mark goes, and the hand moves on. -/
theorem Reads.passHand_eq (h : r.Reads (a :: l)) :
    ∃ r', r.passHand = .ok r' ∧ r'.Reads (l ++ [a]) ∧
      (∀ b, r'.data b = if b = a then (r.data b).map fun d => (d.1, false) else r.data b) ∧
      r'.capacity = r.capacity ∧ r'.heap.allocated = r.heap.allocated := by
  have hhand : r.hand = some a := h.hand
  have hlive := (h.live a).mp List.mem_cons_self
  have hcleared := (h.withRefBit a false).deref_hand
  obtain ⟨node, hderef, hnode⟩ := hcleared
  have hcall : r.passHand = .ok { r with
      heap := ClockRing.withRefBit r.heap a false
      hand := nextOf (ClockRing.withRefBit r.heap a false) a } := by
    rw [hhand] at hderef
    rw [passHand, hhand, setRefBit_eq _ hlive, ok_bind, hderef, ok_bind, ClockRing.nextOf_eq hnode]
  exact ⟨_, hcall, (h.withRefBit a false).advance, fun b => dataOf_withRefBit .., rfl,
    allocated_withRefBit ..⟩

/-- The node at the hand goes. -/
theorem Reads.evictHand_eq (h : r.Reads (a :: l)) :
    ∃ r', r.evictHand = .ok (r.pageOf a, r') ∧
      ({ r with hand := nextOf r.heap a } : ClockRing).remove (some a) = .ok r' := by
  obtain ⟨node, hderef, hnode⟩ := h.deref_hand
  obtain ⟨r', hremove, _⟩ := h.remove_head
  have hhand : r.hand = some a := h.hand
  have hpage : r.pageOf a = node.pageId := by
    rw [pageOf, data, dataOf, hnode]
    rfl
  refine ⟨r', ?_, hremove⟩
  rw [evictHand, hderef, ok_bind, hhand, ← ClockRing.nextOf_eq hnode, hremove, ok_bind, hpage]

end Hand

end ClockRing

namespace PageTable

section Hand

variable {t : PageTable} {ring : ClockRing} {a : Addr} {l : List Addr}

/-- Passing a node keeps the coupling. -/
theorem Held.passHand (h : t.Held ring (a :: l)) :
    ∃ ring', ring.passHand = .ok ring' ∧ (t.withRing ring').Held ring' (l ++ [a]) ∧
      (∀ b, (ring'.data b).map (·.1) = (ring.data b).map (·.1)) ∧
      (∀ b, ring'.refBit b = (ring.refBit b && b ≠ a)) ∧
      ring'.heap.allocated = ring.heap.allocated := by
  obtain ⟨ring', hcall, hreads, hdata, _, hallocated⟩ := h.reads.passHand_eq
  have hpages : ∀ b, (ring'.data b).map (·.1) = (ring.data b).map (·.1) := by
    intro b
    rw [hdata]
    split
    · rw [Option.map_map]
      rfl
    · rfl
  refine ⟨ring', hcall, h.reread hreads (List.perm_append_singleton a l) hpages, hpages, ?_,
    hallocated⟩
  intro b
  rw [ClockRing.refBit, ClockRing.refBit, hdata]
  by_cases hb : b = a
  · rw [if_pos hb, Option.map_map]
    cases ring.data b <;> simp [hb]
  · rw [if_neg hb]
    simp [hb]

/-- **Evicting the page at the hand** leaves its pointer, and the coupling without it. -/
theorem Held.evictHand (h : t.Held ring (a :: l)) :
    ∃ victim m ring', ring.evictHand = .ok (victim, ring') ∧ t.meta? victim = some m ∧
      m.pageLayer = .numaLocal ∧ m.ringNodePtr = some a ∧
      ((t.store victim (.setRingNode none)).withRing ring').Held ring' l ∧
      (∀ b, ring'.data b = if b = a then none else ring.data b) ∧
      ring'.heap.allocated = ring.heap.allocated := by
  obtain ⟨p, m, hm, hptr⟩ := h.owned a List.mem_cons_self
  obtain ⟨ring', hevict, hremove⟩ := h.reads.evictHand_eq
  obtain ⟨ring₁, hremove₁, _, hdata, _, hallocated⟩ := h.reads.remove_head
  obtain rfl := Except.ok.inj (hremove.symm.trans hremove₁)
  have hadvanced := h.reread h.reads.advance (List.perm_append_singleton a l) fun _ => rfl
  obtain ⟨ring₂, hremove₂, hheld, _⟩ := hadvanced.release hm hptr
  obtain rfl := Except.ok.inj (hremove.symm.trans hremove₂)
  rw [h.reads.erase_last] at hheld
  rw [h.pageOf_eq hm hptr] at hevict
  exact ⟨p, m, ring', hevict, hm, (h.points p m a hm hptr).1, hptr, hheld, hdata, hallocated⟩

end Hand

end PageTable

end MemoryTiering
