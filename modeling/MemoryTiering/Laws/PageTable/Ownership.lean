import MemoryTiering.Laws.PageTable.Migration
import MemoryTiering.Laws.ClockRing.Eviction

/-!
# Who owns a ring node

The page table and the ring share each node: the ring links it, and one page's `ring_node_ptr`
points to it. `Held` is what every completed call keeps of that: each node of the ring is pointed
to by the page it carries, that page is NUMA-local, and no page points anywhere else. It does not
say that every NUMA-local page has a node. A page without one is **lost**: nothing brings its node
back, and the ring is smaller than the tier by the lost pages (`Held.local_eq`). The phases of a
migration keep `Held`, and each is followed here by one lemma.
-/

set_option autoImplicit false

namespace MemoryTiering

open Fallible Pointer

namespace PageTable

/-- Ring nodes and pages point at each other. -/
structure Held (t : PageTable) (ring : ClockRing) (l : List Addr) : Prop where
  present : t.localCacheRing = some ring
  reads : ring.Reads l
  owned : ∀ a ∈ l, ∃ p m, t.meta? p = some m ∧ m.ringNodePtr = some a
  points : ∀ p m a, t.meta? p = some m → m.ringNodePtr = some a →
    m.pageLayer = .numaLocal ∧ a ∈ l ∧ (ring.data a).map (·.1) = some p
  counted : l.length = t.census (·.ringNodePtr.isSome)

/-- A NUMA-local page without a node. -/
def isLost (m : PageMetadata) : Bool := m.pageLayer = .numaLocal && m.ringNodePtr.isNone

/-- The NUMA-local pages without a node. -/
def lost (t : PageTable) : Nat := t.census isLost

section Held

variable {t t' : PageTable} {ring : ClockRing} {l : List Addr} {p : PageId} {m : PageMetadata}

/-- **The ring and the lost pages make up the tier.** -/
theorem Held.local_eq (h : t.Held ring l) : t.population .numaLocal = l.length + t.lost := by
  have hptr : t.census (fun m => m.pageLayer = .numaLocal && m.ringNodePtr.isSome) =
      t.census (·.ringNodePtr.isSome) := by
    apply Table.census_congr
    intro q e he
    cases hnode : e.metadata.ringNodePtr with
    | none => simp only [hnode, Option.isSome_none, Bool.and_false]
    | some a =>
      have hm : t.meta? q = some e.metadata := by rw [meta?, he, Option.map_some]
      simp only [hnode, (h.points q _ a hm hnode).1, decide_true, Option.isSome_some, Bool.and_self]
  have hlost : t.census (fun m => m.pageLayer = .numaLocal && !m.ringNodePtr.isSome) = t.lost := by
    unfold lost census
    apply Table.census_congr
    intro q e _
    simp only [isLost, Option.not_isSome]
  unfold population
  rw [h.counted, ← hptr, ← hlost]
  exact Table.census_split _ _ _

/-- No page is lost when every NUMA-local page has a node. -/
theorem lost_eq_zero_iff :
    t.lost = 0 ↔ ∀ p m, t.meta? p = some m → m.pageLayer = .numaLocal → m.ringNodePtr ≠ none := by
  constructor
  · intro hlost q m hm hlayer hptr
    have hpos : 0 < t.lost := census_pos hm (by simp [isLost, hlayer, hptr])
    omega
  · intro hall
    by_contra hne
    obtain ⟨q, m, hm, hlost⟩ := exists_of_census_pos (Nat.pos_of_ne_zero hne)
    simp only [isLost, Bool.and_eq_true, decide_eq_true_eq, Option.isNone_iff_eq_none] at hlost
    exact hall q m hm hlost.1 hlost.2

/-- The coupling is about the table and the ring only. -/
theorem Held.congr (h : t.Held ring l) (table : t'.table = t.table)
    (hring : t'.localCacheRing = t.localCacheRing) : t'.Held ring l := by
  have hmeta : ∀ q, t'.meta? q = t.meta? q := by
    intro q
    unfold meta?
    rw [table]
  constructor
  case present => exact hring.trans h.present
  case reads => exact h.reads
  case owned =>
    intro a ha
    simpa only [hmeta] using h.owned a ha
  case points =>
    intro q m a hm
    exact h.points q m a (hmeta q ▸ hm)
  case counted =>
    rw [census_congr table]
    exact h.counted

/-- A page of the ring has its node where it points. -/
theorem Held.live (h : t.Held ring l) {a : Addr} (hm : t.meta? p = some m)
    (hptr : m.ringNodePtr = some a) : a ∈ l :=
  (h.points p m a hm hptr).2.1

theorem Held.pageOf_eq (h : t.Held ring l) {a : Addr} (hm : t.meta? p = some m)
    (hptr : m.ringNodePtr = some a) : ring.pageOf a = p :=
  ClockRing.pageOf_eq (h.points p m a hm hptr).2.2

/-- A node is one page's. -/
theorem Held.page_unique (h : t.Held ring l) {q : PageId} {m' : PageMetadata} {a : Addr}
    (hm : t.meta? p = some m) (hptr : m.ringNodePtr = some a) (hm' : t.meta? q = some m')
    (hptr' : m'.ringNodePtr = some a) : p = q :=
  (h.pageOf_eq hm hptr).symm.trans (h.pageOf_eq hm' hptr')

/-- Stores that keep a page's node, and its layer if it has one, keep the coupling. -/
theorem Held.store (h : t.Held ring l) (p : PageId) (f : PageMetadata → PageMetadata)
    (hptr : ∀ m, (f m).ringNodePtr = m.ringNodePtr)
    (hlayer : ∀ m, t.meta? p = some m → m.ringNodePtr ≠ none → (f m).pageLayer = m.pageLayer) :
    (t.store p f).Held ring l := by
  constructor
  case present => exact h.present
  case reads => exact h.reads
  case owned =>
    intro a ha
    obtain ⟨q, m, hm, hnode⟩ := h.owned a ha
    refine ⟨q, _, by rw [meta?_store, hm, Option.map_some], ?_⟩
    split
    · rw [hptr, hnode]
    · exact hnode
  case points =>
    intro q m a hm hnode
    rw [meta?_store] at hm
    obtain ⟨m₀, hm₀, rfl⟩ := Option.map_eq_some_iff.mp hm
    by_cases hq : q = p
    · rw [if_pos hq] at hnode ⊢
      rw [hptr] at hnode
      rw [hlayer m₀ (hq ▸ hm₀) (by rw [hnode]; exact Option.some_ne_none a)]
      exact h.points q m₀ a hm₀ hnode
    · rw [if_neg hq] at hnode ⊢
      exact h.points q m₀ a hm₀ hnode
  case counted =>
    rw [h.counted, census_store_eq]
    intro m _
    rw [hptr]

/-! ## A node leaves the ring -/

/-- **A page with a node gives it back**: `remove` returns, and the page is lost if it stays
NUMA-local. -/
theorem Held.release (h : t.Held ring l) (hm : t.meta? p = some m) {a : Addr}
    (hptr : m.ringNodePtr = some a) :
    ∃ ring', ring.remove (some a) = .ok ring' ∧
      ((t.store p (.setRingNode none)).withRing ring').Held ring' (l.erase a) ∧
      ring'.capacity = ring.capacity := by
  obtain ⟨_, ha, hpage⟩ := h.points p m a hm hptr
  obtain ⟨ring', hcall, hreads, hdata, hcap, _⟩ := h.reads.remove_eq ha
  refine ⟨ring', hcall, ?_, hcap⟩
  constructor
  case present => rfl
  case reads => exact hreads
  case owned =>
    intro b hb
    obtain ⟨hba, hb⟩ := h.reads.nodup.mem_erase_iff.mp hb
    obtain ⟨q, m', hm', hnode⟩ := h.owned b hb
    have hqp : q ≠ p := by
      rintro rfl
      rw [hm, Option.some.injEq] at hm'
      rw [← hm', hptr, Option.some.injEq] at hnode
      exact hba hnode.symm
    exact ⟨q, m', (meta?_store_ne t p q (.setRingNode none) hqp).trans hm', hnode⟩
  case points =>
    intro q m' b hm' hnode
    rw [meta?_withRing, meta?_store] at hm'
    obtain ⟨m₀, hm₀, rfl⟩ := Option.map_eq_some_iff.mp hm'
    by_cases hq : q = p
    · rw [if_pos hq] at hnode
      cases hnode
    · rw [if_neg hq] at hnode ⊢
      obtain ⟨hlayer, hb, hdata₀⟩ := h.points q m₀ b hm₀ hnode
      have hba : b ≠ a := by
        rintro rfl
        exact hq (h.page_unique hm₀ hnode hm hptr)
      rw [hdata, if_neg hba]
      exact ⟨hlayer, h.reads.nodup.mem_erase_iff.mpr ⟨hba, hb⟩, hdata₀⟩
  case counted =>
    have hcensus := t.census_store p (.setRingNode none) (·.ringNodePtr.isSome) hm
    simp only [hptr, PageMetadata.ringNodePtr_setRingNode, Option.isSome_some, Option.isSome_none,
      if_true, Bool.false_eq_true, if_false] at hcensus
    have hlength := List.length_erase_of_mem ha
    have hcounted := h.counted
    rw [census_withRing]
    omega

/-! ## A node enters the ring -/

/-- The ring takes a node exactly when it has room. -/
theorem Held.insert_cases (h : t.Held ring l) (p : PageId) :
    (l.length = ring.capacity.toNat ∧ ring.insert p = .ok (none, ring)) ∨
      (l.length < ring.capacity.toNat ∧ ∃ a ring', ring.insert p = .ok (some a, ring')) := by
  rcases Nat.lt_or_eq_of_le h.reads.bounded with room | full
  · obtain ⟨ring', hcall, _⟩ := h.reads.insert_room p room
    exact .inr ⟨room, _, ring', hcall⟩
  · exact .inl ⟨full, h.reads.insert_full p full⟩

/-- **A NUMA-local page without a node gets one.** -/
theorem Held.enter {a : Addr} {ring' : ClockRing} (h : t.Held ring l) (hm : t.meta? p = some m)
    (hptr : m.ringNodePtr = none) (hlayer : m.pageLayer = .numaLocal)
    (call : ring.insert p = .ok (some a, ring')) :
    ((t.withRing ring').store p (.setRingNode (some a))).Held ring' (l ++ [a]) ∧
      ring'.capacity = ring.capacity := by
  have room : l.length < ring.capacity.toNat := by
    rcases h.insert_cases p with ⟨_, hfull⟩ | ⟨room, _⟩
    · rw [call] at hfull
      cases hfull
    · exact room
  obtain ⟨ring₁, hcall, hreads, hdata, hcap, _⟩ := h.reads.insert_room p room
  rw [call] at hcall
  cases hcall
  have fresh : ring.heap.allocated ∉ l := by
    rw [h.reads.live, Heap.read?_allocated]
    exact Bool.false_ne_true
  refine ⟨?_, hcap⟩
  constructor
  case present => rfl
  case reads => exact hreads
  case owned =>
    intro b hb
    rcases List.mem_append.mp hb with hb | hb
    · obtain ⟨q, m', hm', hnode⟩ := h.owned b hb
      have hqp : q ≠ p := by
        rintro rfl
        rw [hm, Option.some.injEq] at hm'
        rw [← hm', hptr] at hnode
        cases hnode
      exact ⟨q, m', (meta?_store_ne _ p q _ hqp).trans hm', hnode⟩
    · obtain rfl := List.mem_singleton.mp hb
      exact ⟨p, _, meta?_store_self _ p _ hm, rfl⟩
  case points =>
    intro q m' b hm' hnode
    rw [meta?_store] at hm'
    obtain ⟨m₀, hm₀, rfl⟩ := Option.map_eq_some_iff.mp hm'
    rw [meta?_withRing] at hm₀
    by_cases hq : q = p
    · subst hq
      obtain rfl : m₀ = m := Option.some.inj (hm₀.symm.trans hm)
      rw [if_pos rfl] at hnode ⊢
      obtain rfl := Option.some.inj hnode
      rw [hdata, if_pos rfl]
      exact ⟨hlayer, List.mem_append_right _ (List.mem_singleton_self _), rfl⟩
    · rw [if_neg hq] at hnode ⊢
      obtain ⟨hlayer', hb, hdata₀⟩ := h.points q m₀ b hm₀ hnode
      have hne : b ≠ ring.heap.allocated := by
        rintro rfl
        exact fresh hb
      rw [hdata, if_neg hne]
      exact ⟨hlayer', List.mem_append_left _ hb, hdata₀⟩
  case counted =>
    have hcensus := (t.withRing ring').census_store p
      (.setRingNode (some ring.heap.allocated)) (·.ringNodePtr.isSome) hm
    simp only [hptr, PageMetadata.ringNodePtr_setRingNode, Option.isSome_some, Option.isSome_none,
      if_true, Bool.false_eq_true, if_false, census_withRing] at hcensus
    rw [List.length_append, List.length_singleton, h.counted]
    omega

/-! ## Marks, and the hand -/

/-- A ring of the same nodes with the same pages keeps the coupling, wherever its hand stands. -/
theorem Held.reread (h : t.Held ring l) {ring' : ClockRing} {l' : List Addr}
    (reads : ring'.Reads l') (perm : l'.Perm l)
    (pages : ∀ a, (ring'.data a).map (·.1) = (ring.data a).map (·.1)) :
    (t.withRing ring').Held ring' l' where
  present := rfl
  reads := reads
  owned a ha := h.owned a (perm.mem_iff.mp ha)
  points q m' b hm' hnode := by
    obtain ⟨hlayer, hb, hpage⟩ := h.points q m' b hm' hnode
    exact ⟨hlayer, perm.mem_iff.mpr hb, (pages b).trans hpage⟩
  counted := perm.length_eq.trans h.counted

/-- Marking a node keeps the coupling. -/
theorem Held.mark (h : t.Held ring l) (hm : t.meta? p = some m) :
    ∃ ring', ring.markAccessed m.ringNodePtr = .ok ring' ∧
      (t.withRing ring').Held ring' l ∧ ring'.capacity = ring.capacity := by
  cases hptr : m.ringNodePtr with
  | none => exact ⟨ring, rfl, h.congr rfl h.present.symm, rfl⟩
  | some a =>
    obtain ⟨ring', hcall, hreads, hdata, hcap, _⟩ := h.reads.markAccessed_eq (h.live hm hptr)
    refine ⟨ring', hcall, h.reread hreads (.refl l) fun b => ?_, hcap⟩
    rw [hdata]
    split
    · rw [Option.map_map]
      rfl
    · rfl

end Held

/-! ## The eviction -/

/-- **The eviction follows a freed node.** `findEvictionCandidate` deletes the victim's node and
leaves the victim's pointer; the nested call reads through it. -/
theorem Held.evict_faults {t : PageTable} {ring : ClockRing} {l : List Addr} (h : t.Held ring l)
    (hl : l ≠ []) (migrate : PageTable → PageId → PageLayer → Except Fault (Exit × PageTable))
    (now : Nat) :
    ∃ a ∈ l,
      t.evict (migrateBody ClockRing.remove migrate now) ring = .error (.useAfterFree a) := by
  obtain ⟨c, rest, hcall, hevict, hvictim, hreads, hswept, _, _⟩ :=
    h.reads.findEvictionCandidate_eq hl
  have hmem : c.evicted ∈ l := (ClockRing.Reads.evicted_mem hevict).1
  obtain ⟨p, m, hm, hptr⟩ := h.owned _ hmem
  obtain ⟨hlayer, _, hpage⟩ := h.points p m _ hm hptr
  obtain rfl : p = c.victim := Option.some.inj (hpage.symm.trans hvictim)
  have hfreed : c.ring.heap.read? c.evicted = none := by
    have hdata := hswept c.evicted
    rw [if_pos rfl, ClockRing.data, ClockRing.dataOf, Option.map_eq_none_iff] at hdata
    exact hdata
  have hm' : (t.withRing c.ring).meta? c.victim = some m := hm
  have hfault : t.evict (migrateBody ClockRing.remove migrate now) ring =
      .error (.useAfterFree c.evicted) := by
    unfold evict
    rw [hcall, ok_bind]
    dsimp only
    rw [migrateBody_found hm', takeFromRing_local rfl hlayer, hptr, ClockRing.remove_freed hfreed]
    rfl
  exact ⟨c.evicted, hmem, hfault⟩

/-- An empty ring fails the assert of `findEvictionCandidate`. -/
theorem Held.evict_empty {t : PageTable} {ring : ClockRing} (h : t.Held ring [])
    (migrate : PageTable → PageId → PageLayer → Except Fault (Exit × PageTable)) :
    t.evict migrate ring = .error (.assertion .ringEmpty) := by
  unfold evict
  rw [h.reads.findEvictionCandidate_nil]
  rfl

end PageTable

end MemoryTiering
