import MemoryTiering.Laws.ClockRing.Eviction

/-!
# Runs of a clock ring

A session is a ring and the handles its user still holds: `insert` hands one out, `remove` and
`findEvictionCandidate` take one back. A step is one call a user may make, with what the call
answers; a run is a `Trace` of them from the empty ring. `Session.runs_refine` says that every
valid call of every run returns and does to the list read from the hand what a rotating queue
does; `Session.runs_second_chance` is the second-chance law of the same runs, carried over from
`SecondChance.second_chance` by the simulation `Session.Step.simulates`.
-/

set_option autoImplicit false

namespace MemoryTiering

open Pointer Transition

/-- A ring in use, and the handles that are out. -/
structure Session where
  ring : ClockRing
  handles : List Addr

namespace Session

/-- Before the first call. -/
def start (capacity : SizeT) : Session := ⟨.new capacity, []⟩

/-- A call and its answer. -/
inductive Event where
  | inserted (pageId : PageId) (node : Addr)
  | refused (pageId : PageId)
  | removed (node : Addr)
  | marked (node : Addr)
  | evicted (victim : PageId) (node : Addr) (inspected : List Addr)
  deriving DecidableEq

/-- The calls a user may make: `remove` and `markAccessed` on handles that are out,
`findEvictionCandidate` on a ring that is not empty. -/
inductive Step : Session → Event → Session → Prop where
  | insert {s : Session} {pageId : PageId} {node : Addr} {ring : ClockRing}
      (call : s.ring.insert pageId = .ok (some node, ring)) :
      Step s (.inserted pageId node) ⟨ring, node :: s.handles⟩
  | refuse {s : Session} {pageId : PageId} {ring : ClockRing}
      (call : s.ring.insert pageId = .ok (none, ring)) :
      Step s (.refused pageId) ⟨ring, s.handles⟩
  | remove {s : Session} {node : Addr} {ring : ClockRing} (held : node ∈ s.handles)
      (call : s.ring.remove (some node) = .ok ring) :
      Step s (.removed node) ⟨ring, s.handles.erase node⟩
  | mark {s : Session} {node : Addr} {ring : ClockRing} (held : node ∈ s.handles)
      (call : s.ring.markAccessed (some node) = .ok ring) :
      Step s (.marked node) ⟨ring, s.handles⟩
  | evict {s : Session} {c : ClockRing.Candidate} (nonempty : s.ring.size ≠ 0)
      (call : s.ring.findEvictionCandidate = .ok c) :
      Step s (.evicted c.victim c.evicted c.inspected) ⟨c.ring, s.handles.erase c.evicted⟩

/-- The ring reads as a list of exactly the handles that are out. -/
structure Holds (s : Session) (l : List Addr) : Prop where
  reads : s.ring.Reads l
  handles : s.handles.Perm l

theorem holds_start (capacity : SizeT) : (start capacity).Holds [] :=
  ⟨ClockRing.reads_new capacity, .nil⟩

/-! ## What each call does to the list and to the queue -/

section Calls

variable {s : Session} {l : List Addr}

/-- The queue a session's ring reads as. -/
def queue (s : Session) : SecondChance.Queue Addr := s.ring.queueOf s.ring.nodes

theorem Holds.queue_eq (h : s.Holds l) : s.queue = s.ring.queueOf l := by
  rw [queue, h.reads.nodes_eq]

theorem Holds.mem (h : s.Holds l) {x : Addr} (hx : x ∈ s.handles) : x ∈ l :=
  h.handles.mem_iff.mp hx

/-- `insert` with room. -/
theorem Holds.insert (h : s.Holds l) (pageId : PageId) (room : l.length < s.ring.capacity.toNat) :
    ∃ ring, s.ring.insert pageId = .ok (some s.ring.heap.allocated, ring) ∧
      s.ring.heap.allocated ∉ l ∧
      (⟨ring, s.ring.heap.allocated :: s.handles⟩ : Session).Holds (l ++ [s.ring.heap.allocated]) ∧
      (∀ a, ring.data a =
        if a = s.ring.heap.allocated then some (pageId, false) else s.ring.data a) ∧
      ring.queueOf (l ++ [s.ring.heap.allocated]) =
        SecondChance.enqueue (s.ring.queueOf l) s.ring.heap.allocated ∧
      ring.capacity = s.ring.capacity := by
  obtain ⟨ring, hcall, hreads, hdata, hcap, _⟩ := h.reads.insert_room pageId room
  have fresh : s.ring.heap.allocated ∉ l := by
    rw [h.reads.live, Heap.read?_allocated]
    exact Bool.false_ne_true
  have hhandles : (s.ring.heap.allocated :: s.handles).Perm (l ++ [s.ring.heap.allocated]) :=
    (h.handles.cons _).trans (List.perm_append_singleton _ l).symm
  have hold : ∀ a ∈ l, ring.data a = s.ring.data a := by
    intro a ha
    have hne : a ≠ s.ring.heap.allocated := by
      rintro rfl
      exact fresh ha
    rw [hdata, if_neg hne]
  have hnew : ring.refBit s.ring.heap.allocated = false := by
    rw [ClockRing.refBit, hdata, if_pos rfl]
    rfl
  have hqueue : ring.queueOf (l ++ [s.ring.heap.allocated]) =
      SecondChance.enqueue (s.ring.queueOf l) s.ring.heap.allocated := by
    rw [SecondChance.enqueue, ← ClockRing.queueOf_congr hold, ClockRing.queueOf,
      ClockRing.queueOf, List.map_append, List.map_singleton, hnew]
  exact ⟨ring, hcall, fresh, ⟨hreads, hhandles⟩, hdata, hqueue, hcap⟩

/-- `remove` of a handle that is out. -/
theorem Holds.remove (h : s.Holds l) {x : Addr} (hx : x ∈ s.handles) :
    ∃ ring, s.ring.remove (some x) = .ok ring ∧
      (⟨ring, s.handles.erase x⟩ : Session).Holds (l.erase x) ∧
      (∀ a, ring.data a = if a = x then none else s.ring.data a) ∧
      ring.queueOf (l.erase x) = SecondChance.remove (s.ring.queueOf l) x ∧
      ring.capacity = s.ring.capacity := by
  obtain ⟨ring, hcall, hreads, hdata, hcap, _⟩ := h.reads.remove_eq (h.mem hx)
  have hkept : ∀ a ∈ l.erase x, ring.data a = s.ring.data a := by
    intro a ha
    rw [hdata, if_neg (h.reads.nodup.mem_erase_iff.mp ha).1]
  have hqueue : ring.queueOf (l.erase x) = SecondChance.remove (s.ring.queueOf l) x := by
    rw [ClockRing.queueOf_congr hkept, h.reads.nodup.erase_eq_filter, SecondChance.remove,
      ClockRing.queueOf, ClockRing.queueOf, List.filter_map]
    congr 1
    apply List.filter_congr
    intro a _
    show (a != x) = decide (a ≠ x)
    by_cases hax : a = x <;> simp [hax]
  exact ⟨ring, hcall, ⟨hreads, h.handles.erase x⟩, hdata, hqueue, hcap⟩

/-- `markAccessed` on a handle that is out. -/
theorem Holds.mark (h : s.Holds l) {x : Addr} (hx : x ∈ s.handles) :
    ∃ ring, s.ring.markAccessed (some x) = .ok ring ∧ (⟨ring, s.handles⟩ : Session).Holds l ∧
      (∀ a, ring.data a = if a = x then (s.ring.data a).map fun d => (d.1, true)
        else s.ring.data a) ∧
      ring.queueOf l = SecondChance.mark (s.ring.queueOf l) x ∧
      ring.capacity = s.ring.capacity := by
  obtain ⟨ring, hcall, hreads, hdata, hcap, _⟩ := h.reads.markAccessed_eq (h.mem hx)
  have hqueue : ring.queueOf l = SecondChance.mark (s.ring.queueOf l) x := by
    rw [SecondChance.mark, ClockRing.queueOf, ClockRing.queueOf, List.map_map]
    apply List.map_congr_left
    intro a ha
    obtain ⟨d, hd⟩ := Option.isSome_iff_exists.mp ((h.reads.mem_iff_data a).mp ha)
    simp only [Function.comp_apply, ClockRing.refBit, hdata a]
    by_cases hax : a = x
    · subst hax
      simp only [if_true, hd, Option.map_some, Option.getD_some]
    · simp only [hax, if_false]
  exact ⟨ring, hcall, ⟨hreads, h.handles⟩, hdata, hqueue, hcap⟩

/-- `findEvictionCandidate` on a ring that is not empty. -/
theorem Holds.evict (h : s.Holds l) (nonempty : s.ring.size ≠ 0) :
    ∃ c rest, s.ring.findEvictionCandidate = .ok c ∧ c.evicted ∈ l ∧
      (⟨c.ring, s.handles.erase c.evicted⟩ : Session).Holds rest ∧
      (s.ring.data c.evicted).map (·.1) = some c.victim ∧ ClockRing.Swept s.ring c ∧
      SecondChance.evict (s.ring.queueOf l) =
        some ⟨c.evicted, c.inspected, c.ring.queueOf rest⟩ ∧
      c.ring.capacity = s.ring.capacity := by
  have hl : l ≠ [] := by
    rintro rfl
    exact nonempty (UInt64.toNat_inj.mp h.reads.size)
  obtain ⟨c, rest, hcall, hevict, hvictim, hreads, hswept, hcap, _⟩ :=
    h.reads.findEvictionCandidate_eq hl
  have hperm := SecondChance.keys_evict_perm hevict
  rw [ClockRing.keys_queueOf, ClockRing.keys_queueOf] at hperm
  have hhandles := (h.handles.trans hperm).erase c.evicted
  rw [List.erase_cons_head] at hhandles
  exact ⟨c, rest, hcall, hperm.mem_iff.mpr List.mem_cons_self, ⟨hreads, hhandles⟩, hvictim, hswept,
    hevict, hcap⟩

end Calls

/-! ## Steps keep the reading -/

/-- What a step says to the second-chance queue; a refusal says nothing. -/
def Event.onQueue : Event → List (SecondChance.Event Addr)
  | .inserted _ node => [.enqueued node]
  | .refused _ => []
  | .removed node => [.removed node]
  | .marked node => [.marked node]
  | .evicted _ node inspected => [.evicted node inspected]

/-- A session whose ring reads as the handles that are out, for some order of them. -/
def Valid (s : Session) : Prop := ∃ l, s.Holds l

/-- **The step lemma**: a call keeps the session valid and is the queue's step. -/
theorem Step.simulates {s t : Session} {e : Event} (hs : s.Valid) (h : Step s e t) :
    t.Valid ∧ t.ring.capacity = s.ring.capacity ∧
      Trace SecondChance.Step s.queue e.onQueue t.queue := by
  obtain ⟨l, hl⟩ := hs
  rw [hl.queue_eq]
  cases h with
  | @insert pageId node ring call =>
    rcases Nat.lt_or_eq_of_le hl.reads.bounded with room | full
    · obtain ⟨ring', hcall, hfresh, hholds, _, hqueue, hcap⟩ := hl.insert pageId room
      obtain ⟨rfl, rfl⟩ : s.ring.heap.allocated = node ∧ ring' = ring := by
        simpa only [Except.ok.injEq, Prod.mk.injEq, Option.some.injEq] using hcall.symm.trans call
      have hstep : SecondChance.Step (s.ring.queueOf l) (.enqueued s.ring.heap.allocated)
          (queue ⟨ring', s.ring.heap.allocated :: s.handles⟩) := by
        rw [hholds.queue_eq, hqueue]
        apply SecondChance.Step.enqueue
        rwa [ClockRing.keys_queueOf]
      exact ⟨⟨_, hholds⟩, hcap, .cons hstep (.nil _)⟩
    · have hne := (hl.reads.insert_full pageId full).symm.trans call
      simp only [Except.ok.injEq, Prod.mk.injEq, reduceCtorEq, false_and] at hne
  | @refuse pageId ring call =>
    rcases Nat.lt_or_eq_of_le hl.reads.bounded with room | full
    · obtain ⟨ring', hcall, _⟩ := hl.insert pageId room
      have hne := hcall.symm.trans call
      simp only [Except.ok.injEq, Prod.mk.injEq, reduceCtorEq, false_and] at hne
    · obtain rfl : s.ring = ring := by
        simpa only [Except.ok.injEq, Prod.mk.injEq, true_and] using
          (hl.reads.insert_full pageId full).symm.trans call
      rw [← hl.queue_eq]
      exact ⟨⟨l, hl⟩, rfl, .nil _⟩
  | @remove node ring held call =>
    obtain ⟨ring', hcall, hholds, _, hqueue, hcap⟩ := hl.remove held
    obtain rfl : ring' = ring := Except.ok.inj (hcall.symm.trans call)
    have hstep : SecondChance.Step (s.ring.queueOf l) (.removed node)
        (queue ⟨ring', s.handles.erase node⟩) := by
      rw [hholds.queue_eq, hqueue]
      apply SecondChance.Step.remove
      rw [ClockRing.keys_queueOf]
      exact hl.mem held
    exact ⟨⟨_, hholds⟩, hcap, .cons hstep (.nil _)⟩
  | @mark node ring held call =>
    obtain ⟨ring', hcall, hholds, _, hqueue, hcap⟩ := hl.mark held
    obtain rfl : ring' = ring := Except.ok.inj (hcall.symm.trans call)
    have hstep : SecondChance.Step (s.ring.queueOf l) (.marked node)
        (queue ⟨ring', s.handles⟩) := by
      rw [hholds.queue_eq, hqueue]
      apply SecondChance.Step.mark
      rw [ClockRing.keys_queueOf]
      exact hl.mem held
    exact ⟨⟨_, hholds⟩, hcap, .cons hstep (.nil _)⟩
  | @evict c nonempty call =>
    obtain ⟨c', rest, hcall, _, hholds, _, _, hevict, hcap⟩ := hl.evict nonempty
    obtain rfl : c' = c := Except.ok.inj (hcall.symm.trans call)
    have hstep : SecondChance.Step (s.ring.queueOf l) (.evicted c'.evicted c'.inspected)
        (queue ⟨c'.ring, s.handles.erase c'.evicted⟩) := by
      rw [hholds.queue_eq]
      exact .evict hevict
    exact ⟨⟨_, hholds⟩, hcap, .cons hstep (.nil _)⟩

/-- Every session of a run is valid, and its ring has the capacity it was made with. -/
theorem valid_of_run {capacity : SizeT} {es : List Event} {s : Session}
    (run : Trace Step (start capacity) es s) : s.Valid ∧ s.ring.capacity = capacity := by
  apply run.invariant (P := fun s => s.Valid ∧ s.ring.capacity = capacity)
  · rintro s e t ⟨hvalid, hcap⟩ h
    obtain ⟨hvalid', hcap', _⟩ := h.simulates hvalid
    exact ⟨hvalid', hcap'.trans hcap⟩
  · exact ⟨⟨[], holds_start capacity⟩, rfl⟩

/-! ## The ring as a rotating queue -/

/-- The ring of a session acts as a rotating queue of at most `capacity` entries: it is one
doubly linked cycle, and each valid call returns and does to its contents what the queue's
operation does. -/
structure ActsAsQueue (capacity : SizeT) (s : Session) : Prop where
  wellFormed : s.ring.WellFormed
  inverse : ∀ a ∈ s.ring.nodes, ∀ b ∈ s.ring.nodes,
    nextOf s.ring.heap a = some b ↔ prevOf s.ring.heap b = some a
  hand_null : s.ring.hand = none ↔ s.ring.size = 0
  bounded : s.ring.size ≤ capacity
  handles : ∀ a, a ∈ s.handles ↔ a ∈ s.ring.nodes
  insert : ∀ pageId, ∃ answer ring, s.ring.insert pageId = .ok (answer, ring) ∧
    (answer = none ↔ s.ring.size = capacity) ∧ (answer = none → ring = s.ring) ∧
    ∀ node, answer = some node →
      node ∉ s.ring.nodes ∧ ring.contents = s.ring.contents ++ [(node, pageId)]
  remove : ∀ node ∈ s.handles, ∃ ring, s.ring.remove (some node) = .ok ring ∧
    ring.contents = s.ring.contents.filter (·.1 ≠ node) ∧
    ring.hand = if s.ring.hand = some node then s.ring.nodes.tail.head? else s.ring.hand
  markAccessed : ∀ node ∈ s.handles, ∃ ring, s.ring.markAccessed (some node) = .ok ring ∧
    ring.contents = s.ring.contents
  findEvictionCandidate : s.ring.size ≠ 0 → ∃ c n, s.ring.findEvictionCandidate = .ok c ∧
    s.ring.contents.rotate n = (c.evicted, c.victim) :: c.ring.contents

section Contents

variable {s : Session} {l : List Addr} {node : Addr}

/-- An insertion with room appends. -/
theorem Holds.insert_contents (h : s.Holds l) (pageId : PageId)
    (room : l.length < s.ring.capacity.toNat) :
    ∃ node ring, s.ring.insert pageId = .ok (some node, ring) ∧ node ∉ l ∧
      ring.contents = s.ring.contents ++ [(node, pageId)] := by
  obtain ⟨ring, hcall, hfresh, hholds, hdata, _, _⟩ := h.insert pageId room
  have hold : ∀ a ∈ l, ring.pageOf a = s.ring.pageOf a := by
    intro a ha
    have hne : a ≠ s.ring.heap.allocated := by
      rintro rfl
      exact hfresh ha
    rw [ClockRing.pageOf, ClockRing.pageOf, hdata, if_neg hne]
  have hnew : ring.pageOf s.ring.heap.allocated = pageId := by
    rw [ClockRing.pageOf, hdata, if_pos rfl]
    rfl
  have hcontents : ring.contents = s.ring.contents ++ [(s.ring.heap.allocated, pageId)] := by
    rw [hholds.reads.contents_eq, h.reads.contents_eq, List.map_append,
      ClockRing.pageOf_congr hold, List.map_singleton, hnew]
  exact ⟨_, ring, hcall, hfresh, hcontents⟩

/-- The head of a list without one of its elements. -/
theorem head?_erase (l : List Addr) (node : Addr) :
    (l.erase node).head? = if l.head? = some node then l.tail.head? else l.head? := by
  cases l with
  | nil => rfl
  | cons a l =>
    by_cases ha : a = node
    · subst ha
      simp only [List.erase_cons_head, List.head?_cons, if_true, List.tail_cons]
    · have hne : ¬ (a == node) = true := by simpa using ha
      rw [List.erase_cons_tail hne, List.head?_cons, List.head?_cons, if_neg (by simpa using ha)]

/-- A removal filters, and the hand moves on if it stood there. -/
theorem Holds.remove_contents (h : s.Holds l) (held : node ∈ s.handles) :
    ∃ ring, s.ring.remove (some node) = .ok ring ∧
      ring.contents = s.ring.contents.filter (·.1 ≠ node) ∧
      ring.hand = if s.ring.hand = some node then l.tail.head? else s.ring.hand := by
  obtain ⟨ring, hcall, hholds, hdata, _, _⟩ := h.remove held
  have hkept : ∀ a ∈ l.erase node, ring.pageOf a = s.ring.pageOf a := by
    intro a ha
    rw [ClockRing.pageOf, ClockRing.pageOf, hdata, if_neg (h.reads.nodup.mem_erase_iff.mp ha).1]
  have hcontents : ring.contents = s.ring.contents.filter (·.1 ≠ node) := by
    rw [hholds.reads.contents_eq, h.reads.contents_eq, ClockRing.pageOf_congr hkept,
      List.filter_map, h.reads.nodup.erase_eq_filter]
    congr 1
    apply List.filter_congr
    intro a _
    by_cases ha : a = node <;> simp [ha]
  have hhand : ring.hand = if s.ring.hand = some node then l.tail.head? else s.ring.hand := by
    rw [hholds.reads.hand, h.reads.hand, head?_erase]
  exact ⟨ring, hcall, hcontents, hhand⟩

/-- A mark changes no page. -/
theorem Holds.mark_contents (h : s.Holds l) (held : node ∈ s.handles) :
    ∃ ring, s.ring.markAccessed (some node) = .ok ring ∧ ring.contents = s.ring.contents := by
  obtain ⟨ring, hcall, hholds, hdata, _, _⟩ := h.mark held
  have hpages : ∀ a ∈ l, ring.pageOf a = s.ring.pageOf a := by
    intro a _
    rw [ClockRing.pageOf, ClockRing.pageOf, hdata]
    split
    · rw [Option.map_map]; rfl
    · rfl
  have hcontents : ring.contents = s.ring.contents := by
    rw [hholds.reads.contents_eq, h.reads.contents_eq, ClockRing.pageOf_congr hpages]
  exact ⟨ring, hcall, hcontents⟩

/-- An eviction rotates to the victim and takes it off. -/
theorem Holds.evict_contents (h : s.Holds l) (nonempty : s.ring.size ≠ 0) :
    ∃ c n, s.ring.findEvictionCandidate = .ok c ∧
      s.ring.contents.rotate n = (c.evicted, c.victim) :: c.ring.contents := by
  obtain ⟨c, rest, hcall, _, hholds, hvictim, hswept, hevict, _⟩ := h.evict nonempty
  obtain ⟨n, hrotate⟩ := SecondChance.evict_rotate hevict
  rw [ClockRing.keys_queueOf, ClockRing.keys_queueOf] at hrotate
  have hnodup : (c.evicted :: rest).Nodup := by
    rw [← hrotate, List.nodup_rotate]
    exact h.reads.nodup
  have hkept : ∀ a ∈ rest, c.ring.pageOf a = s.ring.pageOf a := by
    intro a ha
    have hne : a ≠ c.evicted := by
      rintro rfl
      exact (List.nodup_cons.mp hnodup).1 ha
    rw [ClockRing.pageOf, ClockRing.pageOf, hswept a, if_neg hne]
    split
    · rw [Option.map_map]; rfl
    · rfl
  have hpage : s.ring.pageOf c.evicted = c.victim := ClockRing.pageOf_eq hvictim
  have hcontents : s.ring.contents.rotate n = (c.evicted, c.victim) :: c.ring.contents := by
    rw [hholds.reads.contents_eq, h.reads.contents_eq, ← List.map_rotate, hrotate, List.map_cons,
      hpage, ClockRing.pageOf_congr hkept]
  exact ⟨c, n, hcall, hcontents⟩

end Contents

/-- **Every run of valid calls acts as a rotating queue.** -/
theorem runs_refine {capacity : SizeT} {es : List Event} {s : Session}
    (run : Trace Step (start capacity) es s) : s.ActsAsQueue capacity := by
  obtain ⟨⟨l, hl⟩, rfl⟩ := valid_of_run run
  have hnodes := hl.reads.nodes_eq
  have hfull : s.ring.size = s.ring.capacity ↔ l.length = s.ring.capacity.toNat := by
    rw [← UInt64.toNat_inj, hl.reads.size]
  constructor
  case wellFormed => exact hl.reads.wellFormed
  case inverse =>
    intro a ha b hb
    rw [hnodes] at ha hb
    exact hl.reads.cycle.next_eq_iff ha hb
  case hand_null =>
    rw [hl.reads.hand, ← UInt64.toNat_inj, hl.reads.size]
    simp only [List.head?_eq_none_iff, UInt64.toNat_zero, List.length_eq_zero_iff]
  case bounded =>
    rw [UInt64.le_iff_toNat_le, hl.reads.size]
    exact hl.reads.bounded
  case handles =>
    intro a
    rw [hnodes, hl.handles.mem_iff]
  case insert =>
    intro pageId
    rw [hnodes, hfull]
    rcases Nat.lt_or_eq_of_le hl.reads.bounded with room | full
    · obtain ⟨node, ring, hcall, hfresh, hcontents⟩ := hl.insert_contents pageId room
      refine ⟨some node, ring, hcall, ?_, ?_, ?_⟩
      · exact iff_of_false (Option.some_ne_none _) (Nat.ne_of_lt room)
      · intro hnone
        cases hnone
      · intro node' heq
        rw [← Option.some.inj heq]
        exact ⟨hfresh, hcontents⟩
    · refine ⟨none, s.ring, hl.reads.insert_full pageId full, iff_of_true rfl full, fun _ => rfl,
        ?_⟩
      intro node hsome
      cases hsome
  case remove =>
    intro node held
    rw [hnodes]
    exact hl.remove_contents held
  case markAccessed =>
    intro node held
    exact hl.mark_contents held
  case findEvictionCandidate => exact hl.evict_contents

/-- One run with every kind of step: the first node is marked, so the eviction passes it. -/
def sampleEvents : List Event :=
  [.inserted 10 0, .marked 0, .inserted 11 1, .inserted 12 2, .refused 13, .evicted 11 1 [0, 1],
    .removed 2]

theorem sample_run : ∃ s, Trace Step (start 3) sampleEvents s :=
  ⟨_, .cons (.insert rfl) <| .cons (.mark (by decide) rfl) <| .cons (.insert rfl) <|
    .cons (.insert rfl) <| .cons (.refuse rfl) <|
    .cons (.evict (c := ⟨11, 1, [0, 1], _⟩) (by decide) rfl) <|
    .cons (.remove (by decide) rfl) (.nil _)⟩

theorem sample_run_refines : ∃ s, Trace Step (start 3) sampleEvents s ∧ s.ActsAsQueue 3 := by
  obtain ⟨s, run⟩ := sample_run
  exact ⟨s, run, runs_refine run⟩

/-! ## Second chance -/

/-- The step took `y` out of the ring, or the hand read its reference bit. -/
def Event.touches (y : Addr) : Event → Prop
  | .inserted _ _ => False
  | .refused _ => False
  | .removed node => node = y
  | .marked _ => False
  | .evicted _ node inspected => node = y ∨ y ∈ inspected

/-- The step inserted `x` or marked it accessed. -/
def Event.refreshes (x : Addr) : Event → Prop
  | .inserted _ node => node = x
  | .marked node => node = x
  | _ => False

/-- A run of calls is a run of the queue. -/
theorem run_on_queue {s t : Session} {es : List Event} (hs : s.Valid) (run : Trace Step s es t) :
    t.Valid ∧ Trace SecondChance.Step s.queue (es.flatMap Event.onQueue) t.queue := by
  have sim : ∀ s e t q, s.Valid ∧ s.queue = q → Step s e t →
      ∃ q', Trace SecondChance.Step q e.onQueue q' ∧ t.Valid ∧ t.queue = q' := by
    rintro s e t _ ⟨hvalid, rfl⟩ h
    obtain ⟨hvalid', _, htrace⟩ := h.simulates hvalid
    exact ⟨_, htrace, hvalid', rfl⟩
  obtain ⟨_, hrun, hvalid, rfl⟩ := run.simulate Event.onQueue sim ⟨hs, rfl⟩
  exact ⟨hvalid, hrun⟩

/-- Of the queue's steps for a call, one that settles `y` is the call's doing. -/
theorem Event.touches_of_onQueue {y : Addr} {e : Event} {e' : SecondChance.Event Addr}
    (he : e' ∈ e.onQueue) (ht : e'.touches y) : e.touches y := by
  cases e with
  | inserted _ _ => obtain rfl := List.mem_singleton.mp he; exact ht
  | refused _ => cases he
  | removed _ => obtain rfl := List.mem_singleton.mp he; exact ht
  | marked _ => obtain rfl := List.mem_singleton.mp he; exact ht
  | evicted _ _ _ => obtain rfl := List.mem_singleton.mp he; exact .inr ht

/-- Only a call that refreshes `x` enqueues or marks it. -/
theorem Event.refreshes_of_onQueue {x : Addr} {e : Event} {e' : SecondChance.Event Addr}
    (he : e' ∈ e.onQueue) (hx : e' = .enqueued x ∨ e' = .marked x) : e.refreshes x := by
  cases e with
  | inserted _ _ => obtain rfl := List.mem_singleton.mp he; simpa [Event.refreshes] using hx
  | refused _ => cases he
  | removed _ => obtain rfl := List.mem_singleton.mp he; simp at hx
  | marked _ => obtain rfl := List.mem_singleton.mp he; simpa [Event.refreshes] using hx
  | evicted _ _ _ => obtain rfl := List.mem_singleton.mp he; simp at hx

/-- **Second chance.** From the last step of a run that inserted or marked `x` to the step that
evicts `x`, every other node of the ring at that moment is removed, evicted or looked at. -/
theorem runs_second_chance {capacity : SizeT} {x : Addr} {page : PageId} {inspected : List Addr}
    {s₀ s₁ s₂ s₃ : Session} {e : Event} {before after : List Event}
    (run : Trace Step (start capacity) before s₀) (last : Step s₀ e s₁) (he : e.refreshes x)
    (quiet : ∀ e' ∈ after, ¬ e'.refreshes x) (rest : Trace Step s₁ after s₂)
    (finish : Step s₂ (.evicted page x inspected) s₃) :
    ∀ y ∈ s₁.ring.nodes, y ≠ x → ∃ e' ∈ after ++ [.evicted page x inspected], e'.touches y := by
  obtain ⟨hvalid₀, _⟩ := valid_of_run run
  obtain ⟨hvalid₁, _, htrace⟩ := last.simulates hvalid₀
  obtain ⟨hvalid₂, hrest⟩ := run_on_queue hvalid₁ rest
  obtain ⟨_, _, hfinish⟩ := finish.simulates hvalid₂
  obtain ⟨l₀, hl₀⟩ := hvalid₀
  obtain ⟨e', hstart, hstep⟩ : ∃ e', (e' = .enqueued x ∨ e' = .marked x) ∧
      SecondChance.Step s₀.queue e' s₁.queue := by
    cases e with
    | inserted _ node =>
      obtain rfl : node = x := he
      exact ⟨_, .inl rfl, Trace.single.mp htrace⟩
    | marked node =>
      obtain rfl : node = x := he
      exact ⟨_, .inr rfl, Trace.single.mp htrace⟩
    | refused _ | removed _ | evicted _ _ _ => exact he.elim
  have hlast : SecondChance.Step s₂.queue (.evicted x inspected) s₃.queue :=
    Trace.single.mp hfinish
  have hnodup : (SecondChance.keys s₀.queue).Nodup := by
    rw [hl₀.queue_eq, ClockRing.keys_queueOf]
    exact hl₀.reads.nodup
  have hquiet : ∀ e' ∈ after.flatMap Event.onQueue, e' ≠ .enqueued x ∧ e' ≠ .marked x := by
    intro e' he'
    obtain ⟨d, hd, hin⟩ := List.mem_flatMap.mp he'
    exact ⟨fun heq => quiet d hd (Event.refreshes_of_onQueue hin (.inl heq)),
      fun heq => quiet d hd (Event.refreshes_of_onQueue hin (.inr heq))⟩
  intro y hy hne
  have hkeys : y ∈ SecondChance.keys s₁.queue := by
    rw [queue, ClockRing.keys_queueOf]
    exact hy
  obtain ⟨e₁, he₁, ht⟩ :=
    SecondChance.second_chance hnodup hstep hstart hrest hquiet hlast y hkeys hne
  rcases List.mem_append.mp he₁ with hin | hin
  · obtain ⟨d, hd, hin⟩ := List.mem_flatMap.mp hin
    exact ⟨d, List.mem_append_left _ hd, Event.touches_of_onQueue hin ht⟩
  · obtain rfl := List.mem_singleton.mp hin
    exact ⟨_, List.mem_append_right _ (List.mem_singleton_self _), .inr ht⟩

theorem sample_run_second_chance : ∃ s₁ s₂ s₃,
    Trace Step (start 3) (sampleEvents.take 3) s₁ ∧
    Trace Step s₁ [.inserted 12 2, .refused 13] s₂ ∧ Step s₂ (.evicted 11 1 [0, 1]) s₃ ∧
    ∀ y ∈ s₁.ring.nodes, y ≠ 1 →
      ∃ e' ∈ [.inserted 12 2, .refused 13] ++ [.evicted 11 1 [0, 1]], Event.touches y e' := by
  obtain ⟨_, run⟩ := sample_run
  obtain ⟨s₀, before, run⟩ := run.split [Event.inserted 10 0, Event.marked 0]
  obtain ⟨s₁, hlast, run⟩ := run.split [Event.inserted 11 1]
  obtain ⟨s₂, after, run⟩ := run.split [Event.inserted 12 2, Event.refused 13]
  obtain ⟨s₃, hfinish, _⟩ := run.split [Event.evicted 11 1 [0, 1]]
  have last := Trace.single.mp hlast
  have finish := Trace.single.mp hfinish
  exact ⟨s₁, s₂, s₃, before.snoc last, after, finish,
    runs_second_chance before last rfl (by simp [Event.refreshes]) after finish⟩

end Session

end MemoryTiering
