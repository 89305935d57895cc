import MemoryTiering.Laws.ClockRing.Shape
import MemoryTiering.Lib.SecondChance

/-!
# Marking and eviction

`markAccessed` touches one reference bit, and the loop of `findEvictionCandidate` is the
second-chance eviction of the queue the ring reads as (`ClockRing.Reads.evictionLoop_eq`). The
loop is followed one node at a time: a marked node loses its mark and the hand moves on, which
reads as a rotation; an unmarked one is taken out. The induction is on the marked nodes in front
of the victim.
-/

set_option autoImplicit false

namespace MemoryTiering

open Fallible Pointer

namespace ClockRing

/-- A node's reference bit; a node that is not there has none set. -/
def refBit (r : ClockRing) (a : Addr) : Bool := ((r.data a).map (·.2)).getD false

/-- The ring as a second-chance queue, for the list it reads as. -/
def queueOf (r : ClockRing) (l : List Addr) : SecondChance.Queue Addr :=
  l.map fun a => ⟨a, r.refBit a⟩

@[simp] theorem keys_queueOf (r : ClockRing) (l : List Addr) :
    SecondChance.keys (r.queueOf l) = l := by
  rw [SecondChance.keys, queueOf, List.map_map]
  exact List.map_id l

/-- Queues of one list differ where the bits do. -/
theorem queueOf_congr {r r' : ClockRing} {l : List Addr} (h : ∀ a ∈ l, r'.data a = r.data a) :
    r'.queueOf l = r.queueOf l :=
  List.map_congr_left fun a ha => by rw [refBit, refBit, h a ha]

/-- A store to a reference bit leaves the cycle alone. -/
theorem Reads.withRefBit {r : ClockRing} {l : List Addr} (h : r.Reads l) (a : Addr) (bit : Bool) :
    ({ r with heap := withRefBit r.heap a bit } : ClockRing).Reads l where
  nodup := h.nodup
  live b := by rw [live_withRefBit]; exact h.live b
  cycle := h.cycle.congr (fun b _ => nextOf_withRefBit ..) (fun b _ => prevOf_withRefBit ..)
  hand := h.hand
  size := h.size
  bounded := h.bounded

/-- Moving the hand on to the head's successor rotates the reading by one. -/
theorem Reads.advance {r : ClockRing} {a : Addr} {l : List Addr} (h : r.Reads (a :: l)) :
    ({ r with hand := nextOf r.heap a } : ClockRing).Reads (l ++ [a]) where
  nodup := (List.perm_append_singleton a l).symm.nodup h.nodup
  live b := by
    rw [(List.perm_append_singleton a l).mem_iff]
    exact h.live b
  cycle := IsCycle.append_comm (show IsCycle _ _ ([a] ++ l) from h.cycle)
  hand := h.cycle.next_head
  size := by
    rw [(List.perm_append_singleton a l).length_eq]
    exact h.size
  bounded := by
    rw [(List.perm_append_singleton a l).length_eq]
    exact h.bounded

/-! ## `markAccessed` -/

/-- **`markAccessed` sets one bit** and moves nothing. -/
theorem Reads.markAccessed_eq {r : ClockRing} {l : List Addr} (h : r.Reads l) {x : Addr}
    (hx : x ∈ l) :
    ∃ r', r.markAccessed (some x) = .ok r' ∧ r'.Reads l ∧
      (∀ a, r'.data a = if a = x then (r.data a).map fun d => (d.1, true) else r.data a) ∧
      r'.capacity = r.capacity ∧ r'.heap.allocated = r.heap.allocated := by
  have hcall : r.markAccessed (some x) =
      .ok { r with heap := ClockRing.withRefBit r.heap x true } := by
    rw [markAccessed, setRefBit_eq _ ((h.live x).mp hx), ok_bind]
  exact ⟨_, hcall, h.withRefBit x true, fun a => dataOf_withRefBit .., rfl,
    allocated_withRefBit ..⟩

/-! ## `findEvictionCandidate` -/

/-- The loop at a marked node: its mark goes, the hand moves on. -/
theorem Reads.loop_pass {r : ClockRing} {a : Addr} {l : List Addr} (h : r.Reads (a :: l))
    (marked : r.refBit a = true) (fuel : Nat) :
    ∃ r₁, r₁.Reads (l ++ [a]) ∧
      (∀ b, r₁.data b = if b = a then (r.data b).map fun d => (d.1, false) else r.data b) ∧
      r₁.capacity = r.capacity ∧ r₁.heap.allocated = r.heap.allocated ∧
      evictionLoop (fuel + 1) r =
        evictionLoop fuel r₁ >>= fun c => .ok { c with inspected := a :: c.inspected } := by
  have hlive := (h.live a).mp List.mem_cons_self
  obtain ⟨node, hnode⟩ := Option.isSome_iff_exists.mp hlive
  have hbit : node.refBit = true := by
    simpa only [refBit, data, dataOf, hnode, Option.map_some, Option.getD_some] using marked
  have hread :
      (ClockRing.withRefBit r.heap a false).read? a = some { node with refBit := false } := by
    rw [ClockRing.withRefBit, Heap.read?_modify, if_pos rfl, hnode, Option.map_some]
  refine ⟨_, (h.withRefBit a false).advance, fun b => dataOf_withRefBit .., rfl,
    allocated_withRefBit .., ?_⟩
  have hhand : r.hand = some a := h.hand
  rw [evictionLoop]
  simp only [hhand, deref_eq hnode, ok_bind, hbit, if_true, setRefBit_eq _ hlive,
    deref_eq hread, nextOf_eq hread]

/-- The head of the list, once it is the last, is the first of its kind. -/
theorem Reads.erase_last {r : ClockRing} {a : Addr} {l : List Addr} (h : r.Reads (a :: l)) :
    (l ++ [a]).erase a = l := by
  rw [List.erase_append_right _ (List.nodup_cons.mp h.nodup).1, List.erase_cons_head,
    List.append_nil]

/-- The node at the hand goes when the hand has moved past it. -/
theorem Reads.remove_head {r : ClockRing} {a : Addr} {l : List Addr} (h : r.Reads (a :: l)) :
    ∃ r', ({ r with hand := nextOf r.heap a } : ClockRing).remove (some a) = .ok r' ∧
      r'.Reads l ∧ (∀ b, r'.data b = if b = a then none else r.data b) ∧
      r'.capacity = r.capacity ∧ r'.heap.allocated = r.heap.allocated := by
  obtain ⟨r', hr', hreads, hdata, hcap, halloc⟩ :=
    h.advance.remove_eq (List.mem_append_right l (List.mem_singleton_self a))
  rw [h.erase_last] at hreads
  exact ⟨r', hr', hreads, hdata, hcap, halloc⟩

/-- The loop at an unmarked node: it is the victim. -/
theorem Reads.loop_stop {r : ClockRing} {a : Addr} {l : List Addr} (h : r.Reads (a :: l))
    (unmarked : r.refBit a = false) (fuel : Nat) :
    ∃ c, evictionLoop (fuel + 1) r = .ok c ∧ r.data a = some (c.victim, false) ∧ c.evicted = a ∧
      c.inspected = [a] ∧ c.ring.Reads l ∧
      (∀ b, c.ring.data b = if b = a then none else r.data b) ∧
      c.ring.capacity = r.capacity ∧ c.ring.heap.allocated = r.heap.allocated := by
  have hlive := (h.live a).mp List.mem_cons_self
  obtain ⟨node, hnode⟩ := Option.isSome_iff_exists.mp hlive
  have hbit : node.refBit = false := by
    simpa only [refBit, data, dataOf, hnode, Option.map_some, Option.getD_some] using unmarked
  obtain ⟨r', hr', hreads, hdata, hcap, halloc⟩ := h.remove_head
  have hhand : r.hand = some a := h.hand
  refine ⟨⟨node.pageId, a, [a], r'⟩, ?_, ?_, rfl, rfl, hreads, hdata, hcap, halloc⟩
  · rw [evictionLoop]
    simp only [hhand, deref_eq hnode, ok_bind, hbit, Bool.false_eq_true, if_false,
      ← nextOf_eq hnode, hr']
  · rw [data, dataOf, hnode, Option.map_some, hbit]

/-- What the data of the ring is after an eviction: the victim is gone, and every other node the
hand looked at lost its mark. -/
def Swept (r : ClockRing) (c : Candidate) : Prop :=
  ∀ b, c.ring.data b =
    if b = c.evicted then none
    else if b ∈ c.inspected then (r.data b).map fun d => (d.1, false) else r.data b

/-- A node passed before the rest of the loop is one more node swept. -/
theorem Swept.pass {r r₁ : ClockRing} {a : Addr} {c : Candidate} (h : Swept r₁ c)
    (hdata : ∀ b, r₁.data b = if b = a then (r.data b).map fun d => (d.1, false) else r.data b) :
    Swept r { c with inspected := a :: c.inspected } := by
  intro b
  show c.ring.data b = if b = c.evicted then none else if b ∈ a :: c.inspected then _ else _
  rw [h b, hdata b]
  by_cases hb : b = a
  · have hmap : ((r.data b).map fun d => (d.1, false)).map (fun d => (d.1, false)) =
        (r.data b).map fun d => (d.1, false) := by
      cases r.data b <;> rfl
    simp only [hb, if_true, List.mem_cons, true_or] at hmap ⊢
    rw [hmap, ite_self]
  · simp only [hb, if_false, List.mem_cons, false_or]

/-- **The loop from a ring that reads as marked nodes in front of an unmarked one.** -/
theorem Reads.loop_passed {passed : List Addr} :
    ∀ {r : ClockRing} {v : Addr} {later : List Addr} {fuel : Nat},
      r.Reads (passed ++ v :: later) → (∀ a ∈ passed, r.refBit a = true) → r.refBit v = false →
      passed.length < fuel →
      ∃ c, evictionLoop fuel r = .ok c ∧ r.data v = some (c.victim, false) ∧ c.evicted = v ∧
        c.inspected = passed ++ [v] ∧ c.ring.Reads (later ++ passed) ∧ Swept r c ∧
        c.ring.capacity = r.capacity ∧ c.ring.heap.allocated = r.heap.allocated := by
  induction passed with
  | nil =>
    intro r v later fuel h _ hv hfuel
    obtain ⟨fuel, rfl⟩ : ∃ k, fuel = k + 1 := ⟨fuel - 1, by simp at hfuel; omega⟩
    obtain ⟨c, hc, hvictim, hevicted, hinspected, hreads, hdata, hcap, halloc⟩ :=
      h.loop_stop hv fuel
    have hswept : Swept r c := by
      intro b
      rw [hdata, hevicted, hinspected]
      by_cases hb : b = v
      · rw [if_pos hb, if_pos hb]
      · simp only [if_neg hb, List.mem_singleton]
    rw [← List.append_nil later] at hreads
    exact ⟨c, hc, hvictim, hevicted, hinspected, hreads, hswept, hcap, halloc⟩
  | cons a passed ih =>
    intro r v later fuel h hpassed hv hfuel
    obtain ⟨fuel, rfl⟩ : ∃ k, fuel = k + 1 := ⟨fuel - 1, by simp at hfuel; omega⟩
    rw [List.cons_append] at h
    obtain ⟨r₁, hreads₁, hdata₁, hcap₁, halloc₁, hloop⟩ :=
      h.loop_pass (hpassed a List.mem_cons_self) fuel
    have hfresh : ∀ b ∈ passed ++ v :: later, b ≠ a := by
      rintro b hb rfl
      exact (List.nodup_cons.mp h.nodup).1 hb
    have hbit : ∀ b ∈ passed ++ v :: later, r₁.refBit b = r.refBit b := by
      intro b hb
      rw [refBit, refBit, hdata₁, if_neg (hfresh b hb)]
    have hvmem : v ∈ passed ++ v :: later := List.mem_append_right _ List.mem_cons_self
    have hmarked : ∀ b ∈ passed, r₁.refBit b = true := by
      intro b hb
      rw [hbit b (List.mem_append_left _ hb)]
      exact hpassed b (List.mem_cons_of_mem _ hb)
    have hclear : r₁.refBit v = false := by rw [hbit v hvmem, hv]
    have hlength : passed.length < fuel := Nat.lt_of_succ_lt_succ hfuel
    rw [List.append_assoc, List.cons_append] at hreads₁
    obtain ⟨c, hc, hvictim, hevicted, hinspected, hreads, hswept, hcap, halloc⟩ :=
      ih hreads₁ hmarked hclear hlength
    rw [hdata₁, if_neg (hfresh v hvmem)] at hvictim
    rw [hc, ok_bind] at hloop
    rw [List.append_assoc, List.singleton_append] at hreads
    exact ⟨{ c with inspected := a :: c.inspected }, hloop, hvictim, hevicted,
      by rw [hinspected, List.cons_append], hreads, hswept.pass hdata₁, hcap.trans hcap₁,
      halloc.trans halloc₁⟩

/-- Nodes the hand looked at are unmarked now. -/
theorem Swept.queueOf_seen {r : ClockRing} {c : Candidate} (h : Swept r c) {l : List Addr}
    (hl : ∀ a ∈ l, a ≠ c.evicted ∧ a ∈ c.inspected) :
    c.ring.queueOf l = (r.queueOf l).map SecondChance.Slot.clear := by
  rw [queueOf, queueOf, List.map_map]
  apply List.map_congr_left
  intro a ha
  show (⟨a, c.ring.refBit a⟩ : SecondChance.Slot Addr) = ⟨a, false⟩
  rw [refBit, h a, if_neg (hl a ha).1, if_pos (hl a ha).2]
  cases r.data a <;> rfl

/-- Nodes the hand did not reach are as they were. -/
theorem Swept.queueOf_unseen {r : ClockRing} {c : Candidate} (h : Swept r c) {l : List Addr}
    (hl : ∀ a ∈ l, a ≠ c.evicted ∧ a ∉ c.inspected) : c.ring.queueOf l = r.queueOf l :=
  queueOf_congr fun a ha => by rw [h a, if_neg (hl a ha).1, if_neg (hl a ha).2]

/-- **The loop from a ring with every mark set**: the hand clears them all and comes back to the
head. -/
theorem Reads.loop_all {r : ClockRing} {v : Addr} {later : List Addr} {fuel : Nat}
    (h : r.Reads (v :: later)) (hall : ∀ a ∈ v :: later, r.refBit a = true)
    (hfuel : later.length + 1 < fuel) :
    ∃ c, evictionLoop fuel r = .ok c ∧ r.data v = some (c.victim, true) ∧ c.evicted = v ∧
      c.inspected = v :: later ++ [v] ∧ c.ring.Reads later ∧ Swept r c ∧
      c.ring.capacity = r.capacity ∧ c.ring.heap.allocated = r.heap.allocated := by
  obtain ⟨fuel, rfl⟩ : ∃ k, fuel = k + 1 := ⟨fuel - 1, by omega⟩
  have hv := hall v List.mem_cons_self
  obtain ⟨r₁, hreads₁, hdata₁, hcap₁, halloc₁, hloop⟩ := h.loop_pass hv fuel
  have hfresh : ∀ a ∈ later, a ≠ v := by
    rintro a ha rfl
    exact (List.nodup_cons.mp h.nodup).1 ha
  obtain ⟨⟨p, bit⟩, hp⟩ := Option.isSome_iff_exists.mp ((h.mem_iff_data v).mp List.mem_cons_self)
  simp only [refBit, hp, Option.map_some, Option.getD_some] at hv
  subst hv
  have hmarked : ∀ a ∈ later, r₁.refBit a = true := by
    intro a ha
    rw [refBit, hdata₁, if_neg (hfresh a ha)]
    exact hall a (List.mem_cons_of_mem _ ha)
  have hclear : r₁.refBit v = false := by rw [refBit, hdata₁, if_pos rfl, hp]; rfl
  have hlater : later.length < fuel := by omega
  obtain ⟨c, hc, hvictim, hevicted, hinspected, hreads, hswept, hcap, halloc⟩ :=
    (show r₁.Reads (later ++ v :: []) from hreads₁).loop_passed hmarked hclear hlater
  rw [hdata₁, if_pos rfl, hp, Option.map_some, Option.some.injEq, Prod.mk.injEq] at hvictim
  rw [hc, ok_bind] at hloop
  rw [List.nil_append] at hreads
  have hpage : p = c.victim := hvictim.1
  rw [hpage] at hp
  exact ⟨{ c with inspected := v :: c.inspected }, hloop, hp, hevicted,
    by rw [hinspected, List.cons_append], hreads, hswept.pass hdata₁, hcap.trans hcap₁,
    halloc.trans halloc₁⟩

/-- **The loop is the second-chance eviction.** From a nonempty ring, any fuel of at least one
round and one node more gives the same answer: the queue's victim, after looking at the same
nodes, with the ring reading as the queue that is left. -/
theorem Reads.evictionLoop_eq {r : ClockRing} {l : List Addr} (h : r.Reads l) (hl : l ≠ [])
    {fuel : Nat} (hfuel : l.length < fuel) :
    ∃ c rest, evictionLoop fuel r = .ok c ∧
      SecondChance.evict (r.queueOf l) = some ⟨c.evicted, c.inspected, c.ring.queueOf rest⟩ ∧
      (r.data c.evicted).map (·.1) = some c.victim ∧ c.ring.Reads rest ∧ Swept r c ∧
      c.ring.capacity = r.capacity ∧ c.ring.heap.allocated = r.heap.allocated := by
  have slots : ∀ l, (∀ a ∈ l, r.refBit a = true) → ∀ s ∈ r.queueOf l, s.marked = true := by
    intro l hl s hs
    obtain ⟨a, ha, rfl⟩ := List.mem_map.mp hs
    exact hl a ha
  by_cases hall : ∀ a ∈ l, r.refBit a = true
  · obtain ⟨v, later, rfl⟩ := List.exists_cons_of_ne_nil hl
    obtain ⟨c, hc, hvictim, hevicted, hinspected, hreads, hswept, hcap, halloc⟩ :=
      h.loop_all hall hfuel
    have hseen : ∀ a ∈ later, a ≠ c.evicted ∧ a ∈ c.inspected := by
      intro a ha
      rw [hevicted, hinspected]
      exact ⟨fun heq => (List.nodup_cons.mp h.nodup).1 (heq ▸ ha), by simp [ha]⟩
    have hevict : SecondChance.evict (r.queueOf (v :: later)) =
        some ⟨c.evicted, c.inspected, c.ring.queueOf later⟩ := by
      calc SecondChance.evict (r.queueOf (v :: later))
          = some ⟨v, SecondChance.keys (r.queueOf (v :: later)) ++ [v],
              (r.queueOf later).map .clear⟩ := SecondChance.evict_all (slots _ hall)
        _ = some ⟨c.evicted, c.inspected, c.ring.queueOf later⟩ := by
            rw [hevicted, hinspected, ← hswept.queueOf_seen hseen, keys_queueOf]
    have hpage : (r.data c.evicted).map (·.1) = some c.victim := by
      rw [hevicted, hvictim]
      rfl
    exact ⟨c, later, hc, hevict, hpage, hreads, hswept, hcap, halloc⟩
  · obtain ⟨passed, v, later, rfl, hpassed, hv⟩ := SecondChance.exists_first_not r.refBit hall
    have hlen : passed.length < fuel := by
      rw [List.length_append, List.length_cons] at hfuel
      omega
    obtain ⟨c, hc, hvictim, hevicted, hinspected, hreads, hswept, hcap, halloc⟩ :=
      h.loop_passed hpassed hv hlen
    have hsplit := List.nodup_append.mp h.nodup
    have hseen : ∀ a ∈ passed, a ≠ c.evicted ∧ a ∈ c.inspected := by
      intro a ha
      rw [hevicted, hinspected]
      exact ⟨hsplit.2.2 a ha v List.mem_cons_self, List.mem_append_left _ ha⟩
    have hunseen : ∀ a ∈ later, a ≠ c.evicted ∧ a ∉ c.inspected := by
      intro a ha
      have hav : a ≠ v := fun heq => (List.nodup_cons.mp hsplit.2.1).1 (heq ▸ ha)
      rw [hevicted, hinspected, List.mem_append, List.mem_singleton, not_or]
      exact ⟨hav, fun hin => hsplit.2.2 a hin a (List.mem_cons_of_mem _ ha) rfl, hav⟩
    have hevict : SecondChance.evict (r.queueOf (passed ++ v :: later)) =
        some ⟨c.evicted, c.inspected, c.ring.queueOf (later ++ passed)⟩ := by
      calc SecondChance.evict (r.queueOf (passed ++ v :: later))
          = SecondChance.evict (r.queueOf passed ++ ⟨v, r.refBit v⟩ :: r.queueOf later) := by
            rw [queueOf, List.map_append]; rfl
        _ = some ⟨v, passed ++ [v], r.queueOf later ++ (r.queueOf passed).map .clear⟩ := by
            rw [SecondChance.evict_append (slots _ hpassed) hv, keys_queueOf]
        _ = some ⟨c.evicted, c.inspected, c.ring.queueOf (later ++ passed)⟩ := by
            rw [hevicted, hinspected, ← hswept.queueOf_seen hseen, ← hswept.queueOf_unseen hunseen,
              queueOf, queueOf, queueOf, List.map_append]
    have hpage : (r.data c.evicted).map (·.1) = some c.victim := by
      rw [hevicted, hvictim]
      rfl
    exact ⟨c, later ++ passed, hc, hevict, hpage, hreads, hswept, hcap, halloc⟩

/-- An empty ring fails the assert. -/
theorem Reads.findEvictionCandidate_nil {r : ClockRing} (h : r.Reads []) :
    r.findEvictionCandidate = .error (.assertion .ringEmpty) := by
  have hhand : r.hand = none := h.hand
  rw [findEvictionCandidate, hhand]

/-- **`findEvictionCandidate` is the eviction of the queue the ring reads as.** -/
theorem Reads.findEvictionCandidate_eq {r : ClockRing} {l : List Addr} (h : r.Reads l)
    (hl : l ≠ []) :
    ∃ c rest, r.findEvictionCandidate = .ok c ∧
      SecondChance.evict (r.queueOf l) = some ⟨c.evicted, c.inspected, c.ring.queueOf rest⟩ ∧
      (r.data c.evicted).map (·.1) = some c.victim ∧ c.ring.Reads rest ∧ Swept r c ∧
      c.ring.capacity = r.capacity ∧ c.ring.heap.allocated = r.heap.allocated := by
  have hhand : r.hand = some (l.head hl) := h.hand.trans (List.head?_eq_some_head hl)
  have hfuel : l.length < r.size.toNat + 1 := by rw [h.size]; exact Nat.lt_succ_self _
  rw [findEvictionCandidate, hhand]
  exact h.evictionLoop_eq hl hfuel

/-- The victim was a node of the ring, which is shorter by one. -/
theorem Reads.evicted_mem {r : ClockRing} {l rest : List Addr} {c : Candidate}
    (hevict : SecondChance.evict (r.queueOf l) =
      some ⟨c.evicted, c.inspected, c.ring.queueOf rest⟩) :
    c.evicted ∈ l ∧ rest.length + 1 = l.length := by
  have hperm := SecondChance.keys_evict_perm hevict
  rw [keys_queueOf, keys_queueOf] at hperm
  exact ⟨hperm.mem_iff.mpr List.mem_cons_self, hperm.length_eq.symm⟩

end ClockRing

end MemoryTiering
