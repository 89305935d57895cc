import MemoryTiering.Laws.ClockRing.Eviction

/-!
# The victim

`findEvictionCandidate` goes around a ring of `n` nodes at most once and one node further. Its
victim is the first unmarked node from the hand, or the node under the hand when all are marked; the
nodes it looked at on the way lose their marks, and the hand ends on the victim's successor
(`findEvictionCandidate_spec`).
-/

set_option autoImplicit false

namespace MemoryTiering

open Fallible Pointer

namespace ClockRing

/-- The first unmarked node from the hand, or else the hand's own. -/
def clockVictim (r : ClockRing) : Option Addr := (r.nodes.find? fun a => !r.refBit a).or r.hand

/-- How the loop ends: the victim with the nodes on both sides of it, and how it was found. -/
inductive Sweep (r : ClockRing) (c : Candidate) : List Addr → List Addr → Prop where
  /-- The first unmarked node. -/
  | unmarked {passed later : List Addr} (marked : ∀ a ∈ passed, r.refBit a = true)
      (clear : r.refBit c.evicted = false) (inspected : c.inspected = passed ++ [c.evicted]) :
      Sweep r c passed later
  /-- The hand's own node, after one round. -/
  | allMarked {later : List Addr} (marked : ∀ a ∈ c.evicted :: later, r.refBit a = true)
      (inspected : c.inspected = c.evicted :: later ++ [c.evicted]) :
      Sweep r c [] later

section Loop

variable {r : ClockRing} {l : List Addr} {c : Candidate} {fuel : Nat}

/-- **How the loop ends.** -/
theorem Reads.evictionLoop_sweep (h : r.Reads l) (hl : l ≠ []) (hfuel : l.length < fuel) :
    ∃ c passed later, evictionLoop fuel r = .ok c ∧ l = passed ++ c.evicted :: later ∧
      Sweep r c passed later ∧ r.pageOf c.evicted = c.victim ∧
      c.ring.Reads (later ++ passed) ∧ Swept r c := by
  by_cases hall : ∀ a ∈ l, r.refBit a = true
  · obtain ⟨v, later, rfl⟩ := List.exists_cons_of_ne_nil hl
    obtain ⟨c, hc, hvictim, rfl, hinspected, hreads, hswept, _⟩ := h.loop_all hall hfuel
    have hpage : r.pageOf c.evicted = c.victim := pageOf_eq (by rw [hvictim]; rfl)
    rw [← List.append_nil later] at hreads
    exact ⟨c, [], later, hc, rfl, .allMarked hall hinspected, hpage, hreads, hswept⟩
  · obtain ⟨passed, v, later, rfl, hpassed, hv⟩ := SecondChance.exists_first_not r.refBit hall
    have hlen : passed.length < fuel := by
      rw [List.length_append, List.length_cons] at hfuel
      omega
    obtain ⟨c, hc, hvictim, rfl, hinspected, hreads, hswept, _⟩ :=
      h.loop_passed hpassed hv hlen
    have hpage : r.pageOf c.evicted = c.victim := pageOf_eq (by rw [hvictim]; rfl)
    exact ⟨c, passed, later, hc, rfl, .unmarked hpassed hv hinspected, hpage, hreads, hswept⟩

/-- More fuel does not change an answer. -/
theorem evictionLoop_succ : ∀ {fuel : Nat} {r : ClockRing} {c : Candidate},
    evictionLoop fuel r = .ok c → evictionLoop (fuel + 1) r = .ok c := by
  intro fuel
  induction fuel with
  | zero =>
    intro r c h
    cases h
  | succ fuel ih =>
    intro r c h
    rw [evictionLoop] at h ⊢
    cases hhand : r.hand with
    | none =>
      rw [hhand] at h
      cases h
    | some hand =>
      simp only [hhand] at h ⊢
      refine bind_ok_imp h fun node h => ?_
      by_cases hbit : node.refBit = true
      · rw [if_pos hbit] at h ⊢
        refine bind_ok_imp h fun heap h => bind_ok_imp h fun node h => ?_
        cases hrest : evictionLoop fuel { r with heap, hand := node.next } with
        | error fault =>
          rw [hrest] at h
          cases h
        | ok rest =>
          rw [hrest] at h
          rw [ih hrest]
          exact h
      · rw [if_neg hbit] at h ⊢
        exact h

theorem evictionLoop_mono {fuel fuel' : Nat} (hle : fuel ≤ fuel')
    (h : evictionLoop fuel r = .ok c) : evictionLoop fuel' r = .ok c := by
  induction hle with
  | refl => exact h
  | step _ ih => exact evictionLoop_succ ih

/-- A node's successor, as the ring reads from it. -/
theorem Reads.nextOf_eq {passed later : List Addr} {v : Addr}
    (h : r.Reads (passed ++ v :: later)) :
    nextOf r.heap v = (later ++ passed ++ [v]).head? :=
  h.around.1.next_head

/-- The bits after a sweep. -/
theorem Swept.refBit_eq (h : Swept r c) {a : Addr} (ha : a ≠ c.evicted) :
    c.ring.refBit a = if a ∈ c.inspected then false else r.refBit a := by
  rw [refBit, h a, if_neg ha]
  split
  · cases r.data a <;> rfl
  · rfl

end Loop

/-! ## What an eviction does -/

/-- What `findEvictionCandidate` does to a ring. -/
structure Evicts (r : ClockRing) (c : Candidate) : Prop where
  /-- It looks at every node once, and at one of them twice, at the most. -/
  bound : c.inspected.length ≤ r.size.toNat + 1
  /-- It looks at the nodes in clock order from the hand, and at the hand's again. -/
  path : c.inspected <+: r.nodes ++ r.hand.toList
  /-- It stops at the victim. -/
  stop : c.inspected = c.inspected.dropLast ++ [c.evicted]
  victim : r.clockVictim = some c.evicted
  page : r.pageOf c.evicted = c.victim
  /-- The nodes before the victim were marked, -/
  marked : ∀ a ∈ c.inspected.dropLast, r.refBit a = true
  /-- and no longer are; no other bit changes. -/
  cleared : ∀ a ∈ r.nodes, a ≠ c.evicted →
    c.ring.refBit a = if a ∈ c.inspected.dropLast then false else r.refBit a
  hand : r.size.toNat ≠ 1 → c.ring.hand = nextOf r.heap c.evicted
  handNull : c.ring.hand = none ↔ r.size.toNat = 1
  size : c.ring.size.toNat = r.size.toNat - 1
  wellFormed : c.ring.WellFormed

section Evicts

variable {r : ClockRing} {passed later : List Addr} {c : Candidate}

/-- The nodes looked at, in all. -/
theorem Sweep.inspected_eq (h : Sweep r c passed later) :
    c.inspected = c.inspected.dropLast ++ [c.evicted] := by
  cases h with
  | unmarked _ _ inspected => rw [inspected, List.dropLast_concat]
  | allMarked _ inspected => rw [inspected, List.dropLast_concat]

theorem Sweep.path (h : Sweep r c passed later)
    (reads : r.Reads (passed ++ c.evicted :: later)) :
    c.inspected <+: (passed ++ c.evicted :: later) ++ r.hand.toList := by
  cases h with
  | unmarked _ _ inspected =>
    rw [inspected, List.append_assoc, List.cons_append]
    exact ⟨later ++ r.hand.toList, by simp⟩
  | allMarked _ inspected =>
    have hhand : r.hand = some c.evicted := reads.hand
    rw [inspected, hhand]
    exact List.prefix_refl _

theorem Sweep.victim (h : Sweep r c passed later)
    (reads : r.Reads (passed ++ c.evicted :: later)) : r.clockVictim = some c.evicted := by
  rw [clockVictim, reads.nodes_eq]
  cases h with
  | unmarked marked clear _ =>
    have hnone : passed.find? (fun a => !r.refBit a) = none := by
      rw [List.find?_eq_none]
      intro a ha
      simp [marked a ha]
    rw [List.find?_append, hnone, Option.none_or, List.find?_cons_of_pos (by simp [clear])]
    rfl
  | allMarked marked _ =>
    have hnone : (c.evicted :: later).find? (fun a => !r.refBit a) = none := by
      rw [List.find?_eq_none]
      intro a ha
      simp [marked a ha]
    rw [List.nil_append, hnone, Option.none_or]
    exact reads.hand

theorem Sweep.marked (h : Sweep r c passed later) :
    ∀ a ∈ c.inspected.dropLast, r.refBit a = true := by
  cases h with
  | unmarked marked _ inspected => rwa [inspected, List.dropLast_concat]
  | allMarked marked inspected => rwa [inspected, List.dropLast_concat]

theorem Sweep.length_le (h : Sweep r c passed later) :
    c.inspected.length ≤ (passed ++ c.evicted :: later).length + 1 := by
  cases h with
  | unmarked _ _ inspected =>
    simp only [inspected, List.length_append, List.length_cons, List.length_nil]
    omega
  | allMarked _ inspected =>
    rw [inspected, List.length_append, List.length_singleton]
    exact Nat.le_refl _

/-- **Clock eviction.** On every ring that is not empty `findEvictionCandidate` returns, and any
fuel above the size of the ring gives the same answer: the right victim, after one round and one
node at the most. -/
theorem findEvictionCandidate_spec (h : r.WellFormed) (hne : r.nodes ≠ []) :
    ∃ c, r.findEvictionCandidate = .ok c ∧
      (∀ fuel, r.size.toNat < fuel → evictionLoop fuel r = .ok c) ∧ Evicts r c := by
  have hsize : r.size.toNat = r.nodes.length := h.size
  have hfuel : r.nodes.length < r.size.toNat + 1 := by omega
  obtain ⟨c, passed, later, hloop, hnodes, hsweep, hpage, hreads, hswept⟩ :=
    h.evictionLoop_sweep hne hfuel
  have hhand : r.hand = some (r.nodes.head hne) := h.hand.trans (List.head?_eq_some_head hne)
  have hcall : r.findEvictionCandidate = .ok c := by
    rw [findEvictionCandidate, hhand]
    exact hloop
  have hr : r.Reads (passed ++ c.evicted :: later) := hnodes ▸ h
  have hnext := hr.nextOf_eq
  have hlength : r.size.toNat = (later ++ passed).length + 1 := by
    rw [hsize, hnodes]
    simp
    omega
  refine ⟨c, hcall, fun fuel hlt => evictionLoop_mono hlt hloop, ?_⟩
  constructor
  case bound =>
    rw [hsize, hnodes]
    exact hsweep.length_le
  case path =>
    rw [hnodes]
    exact hsweep.path hr
  case stop => exact hsweep.inspected_eq
  case victim => exact hsweep.victim hr
  case page => exact hpage
  case marked => exact hsweep.marked
  case cleared =>
    intro a _ ha
    have hmem : a ∈ c.inspected ↔ a ∈ c.inspected.dropLast := by
      rw [hsweep.inspected_eq]
      simp [ha]
    rw [hswept.refBit_eq ha]
    simp only [hmem]
  case hand =>
    intro hmore
    have hrest : later ++ passed ≠ [] := by
      intro hnil
      rw [hnil] at hlength
      exact hmore hlength
    rw [hreads.hand, hnext, List.head?_append_of_ne_nil _ hrest]
  case handNull =>
    rw [hreads.hand, List.head?_eq_none_iff, ← List.length_eq_zero_iff]
    omega
  case size =>
    rw [hreads.size]
    omega
  case wellFormed => exact hreads.wellFormed

/-- Two pages, the first of them marked: the second goes. -/
theorem second_page_evicted : ∃ (r₁ r₂ r : ClockRing) (a b : Addr) (c : Candidate),
    (new 3).insert 10 = .ok (some a, r₁) ∧ r₁.insert 11 = .ok (some b, r₂) ∧
    r₂.markAccessed (some a) = .ok r ∧ r.findEvictionCandidate = .ok c ∧ c.victim = 11 ∧
    Evicts r c := by
  have hrun : ∃ (r₁ r₂ r : ClockRing) (a b : Addr), (new 3).insert 10 = .ok (some a, r₁) ∧
      r₁.insert 11 = .ok (some b, r₂) ∧ r₂.markAccessed (some a) = .ok r ∧
      r.findEvictionCandidate.map (·.victim) = .ok 11 :=
    ⟨_, _, _, _, _, rfl, rfl, rfl, rfl⟩
  obtain ⟨r₁, r₂, r, a, b, hfirst, hsecond, hmark, hvictim⟩ := hrun
  have hr₂ := (((reads_new 3).insert_pages hfirst).1.insert_pages hsecond).1
  obtain ⟨r', hmark', hr, _⟩ := hr₂.markAccessed_eq (x := a) (by simp)
  obtain rfl : r = r' := Except.ok.inj (hmark.symm.trans hmark')
  have hne : r.nodes ≠ [] := by
    rw [hr.nodes_eq]
    simp
  obtain ⟨c, hcall, _, hevicts⟩ := findEvictionCandidate_spec hr.wellFormed hne
  rw [hcall] at hvictim
  exact ⟨r₁, r₂, r, a, b, c, hfirst, hsecond, hmark, hcall, Except.ok.inj hvictim, hevicts⟩

end Evicts

end ClockRing

end MemoryTiering
