import Mathlib.Data.List.Chain
import Mathlib.Data.List.Nodup
import Mathlib.Data.List.Rotate
import MemoryTiering.Lib.Heap

/-!
# Circular doubly linked lists

A circular list is given by two partial link functions. `IsCycle next prev l` reads the list `l`
off them: neighbours in `l` are linked both ways, and the last is linked to the first. The
predicate does not care where the list starts (`IsCycle.append_comm`), so a splice anywhere is a
splice at an end after a rotation. The two splices are `IsCycle.append_last` (a new element
between the last and the first) and `IsCycle.unlink_head` (the first element taken out).
-/

set_option autoImplicit false

namespace Pointer

variable {ι : Type*} {next prev next' prev' : ι → Option ι}

/-- `b` stands right after `a`, by both links. -/
def Linked (next prev : ι → Option ι) (a b : ι) : Prop :=
  next a = some b ∧ prev b = some a

/-- The links run once around `l` and back to its start. -/
structure IsCycle (next prev : ι → Option ι) (l : List ι) : Prop where
  chain : l.IsChain (Linked next prev)
  wrap : ∀ z ∈ l.getLast?, ∀ a ∈ l.head?, Linked next prev z a

/-- The first `n` elements met walking along `next`. -/
def walk (next : ι → Option ι) : Nat → Option ι → List ι
  | 0, _ => []
  | _ + 1, none => []
  | n + 1, some a => a :: walk next n (next a)

namespace IsCycle

theorem nil : IsCycle next prev [] :=
  ⟨.nil, fun _ hz => nomatch hz⟩

/-- One element linked to itself is a cycle. -/
theorem singleton {a : ι} (h : Linked next prev a a) : IsCycle next prev [a] := by
  constructor
  · exact .singleton a
  · intro z hz b hb
    simp only [List.getLast?_singleton, List.head?_cons, Option.mem_some_iff] at hz hb
    rw [← hz, ← hb]
    exact h

/-- **A cycle has no first element**: reading it from further along reads the same cycle. -/
theorem append_comm {l₁ l₂ : List ι} (h : IsCycle next prev (l₁ ++ l₂)) :
    IsCycle next prev (l₂ ++ l₁) := by
  rcases List.eq_nil_or_concat l₁ with rfl | ⟨l₁, y, rfl⟩
  · simpa only [List.nil_append, List.append_nil] using h
  · rcases List.eq_nil_or_concat l₂ with rfl | ⟨l₂, z, rfl⟩
    · simpa only [List.nil_append, List.append_nil] using h
    · obtain ⟨hchain, hwrap⟩ := h
      obtain ⟨h₁, h₂, hjoin⟩ := List.isChain_append.mp hchain
      constructor
      · apply List.isChain_append.mpr ⟨h₂, h₁, _⟩
        intro a ha b hb
        apply hwrap a _ b _
        · rwa [List.getLast?_append_of_ne_nil _ (by simp)]
        · rwa [List.head?_append_of_ne_nil _ (by simp)]
      · intro a ha b hb
        rw [List.getLast?_append_of_ne_nil _ (by simp)] at ha
        rw [List.head?_append_of_ne_nil _ (by simp)] at hb
        exact hjoin a ha b hb

/-- A cycle depends on the links of its own elements only. -/
theorem congr {l : List ι} (hnext : ∀ a ∈ l, next' a = next a) (hprev : ∀ a ∈ l, prev' a = prev a)
    (h : IsCycle next prev l) : IsCycle next' prev' l := by
  have transfer : ∀ a b, a ∈ l → b ∈ l → Linked next prev a b → Linked next' prev' a b := by
    intro a b ha hb hab
    rw [Linked, hnext a ha, hprev b hb]
    exact hab
  constructor
  · exact List.IsChain.imp_of_mem_imp transfer h.chain
  · intro z hz a ha
    exact transfer z a (List.mem_of_getLast? hz) (List.mem_of_head? ha) (h.wrap z hz a ha)

/-- Elements on both sides of a point of the cycle, met in the other order. -/
theorem mem_around {l₁ l₂ : List ι} {a x : ι} (h : a ∈ l₂ ++ l₁) : a ∈ l₁ ++ x :: l₂ := by
  rcases List.mem_append.mp h with h | h
  · exact List.mem_append_right _ (List.mem_cons_of_mem _ h)
  · exact List.mem_append_left _ h

end IsCycle

/-- The inside of a chain uses neither the last element's `next` nor the first one's `prev`. -/
theorem isChain_congr_inner {l : List ι} (hnext : ∀ a ∈ l.dropLast, next' a = next a)
    (hprev : ∀ b ∈ l.tail, prev' b = prev b) (h : l.IsChain (Linked next prev)) :
    l.IsChain (Linked next' prev') := by
  induction l with
  | nil => exact .nil
  | cons a l ih =>
    cases l with
    | nil => exact .singleton a
    | cons b l =>
      obtain ⟨hab, hrest⟩ := List.isChain_cons_cons.mp h
      rw [List.isChain_cons_cons]
      constructor
      · rw [Linked, hnext a List.mem_cons_self, hprev b List.mem_cons_self]
        exact hab
      · apply ih _ _ hrest
        · intro c hc
          exact hnext c (List.mem_cons_of_mem _ hc)
        · intro c hc
          exact hprev c (List.mem_of_mem_tail hc)

/-- So a chain survives new links out of its last element and back from its first. -/
theorem isChain_relink {l : List ι} {y z : ι} (nodup : l.Nodup) (first : l.head? = some y)
    (last : l.getLast? = some z) (hnext : ∀ a ∈ l, a ≠ z → next' a = next a)
    (hprev : ∀ a ∈ l, a ≠ y → prev' a = prev a) (h : l.IsChain (Linked next prev)) :
    l.IsChain (Linked next' prev') := by
  apply isChain_congr_inner _ _ h
  · intro a ha
    apply hnext a (List.mem_of_mem_dropLast ha)
    rintro rfl
    obtain ⟨init, rfl⟩ := List.getLast?_eq_some_iff.mp last
    rw [List.dropLast_concat] at ha
    exact (List.nodup_append.mp nodup).2.2 a ha a List.mem_cons_self rfl
  · intro b hb
    apply hprev b (List.mem_of_mem_tail hb)
    rintro rfl
    obtain ⟨tail, rfl⟩ := List.head?_eq_some_iff.mp first
    exact (List.nodup_cons.mp nodup).1 hb

namespace IsCycle

/-- **Splice in at the end**: a new element linked between the last and the first. -/
theorem append_last {l : List ι} {x y z : ι} (h : IsCycle next prev l) (nodup : l.Nodup)
    (first : l.head? = some y) (last : l.getLast? = some z)
    (hnext : ∀ a ∈ l, a ≠ z → next' a = next a) (hprev : ∀ a ∈ l, a ≠ y → prev' a = prev a)
    (hzx : Linked next' prev' z x) (hxy : Linked next' prev' x y) :
    IsCycle next' prev' (l ++ [x]) := by
  have inner := isChain_relink nodup first last hnext hprev h.chain
  constructor
  · apply List.isChain_append.mpr ⟨inner, .singleton x, _⟩
    intro a ha b hb
    rw [last, Option.mem_some_iff] at ha
    rw [List.head?_cons, Option.mem_some_iff] at hb
    rw [← ha, ← hb]
    exact hzx
  · intro a ha b hb
    rw [List.getLast?_concat, Option.mem_some_iff] at ha
    rw [List.head?_append, first, Option.some_or, Option.mem_some_iff] at hb
    rw [← ha, ← hb]
    exact hxy

/-- **Splice out the first**: its two neighbours linked to each other. -/
theorem unlink_head {l : List ι} {x y z : ι} (h : IsCycle next prev (x :: l)) (nodup : l.Nodup)
    (first : l.head? = some y) (last : l.getLast? = some z)
    (hnext : ∀ a ∈ l, a ≠ z → next' a = next a) (hprev : ∀ a ∈ l, a ≠ y → prev' a = prev a)
    (hzy : Linked next' prev' z y) : IsCycle next' prev' l := by
  constructor
  · exact isChain_relink nodup first last hnext hprev h.chain.tail
  · intro a ha b hb
    rw [last, Option.mem_some_iff] at ha
    rw [first, Option.mem_some_iff] at hb
    rw [← ha, ← hb]
    exact hzy

/-- The first element's successor: the second, or itself when it is alone. -/
theorem next_head {l : List ι} {x : ι} (h : IsCycle next prev (x :: l)) :
    next x = (l ++ [x]).head? := by
  cases l with
  | nil => exact (h.wrap x rfl x rfl).1
  | cons y l => exact (List.isChain_cons_cons.mp h.chain).1.1

/-- The first element's predecessor: the last. -/
theorem prev_head {l : List ι} {x : ι} (h : IsCycle next prev l) (first : l.head? = some x) :
    prev x = l.getLast? := by
  obtain ⟨t, rfl⟩ := List.head?_eq_some_iff.mp first
  have hlast := List.getLast?_eq_some_getLast (List.cons_ne_nil x t)
  rw [hlast]
  exact (h.wrap _ hlast x rfl).2

/-- Only an element alone in its cycle is its own successor. -/
theorem next_head_eq_self_iff {l : List ι} {x : ι} (h : IsCycle next prev (x :: l))
    (nodup : (x :: l).Nodup) : next x = some x ↔ l = [] := by
  rw [h.next_head]
  cases l with
  | nil => simp only [List.nil_append, List.head?_cons]
  | cons y l =>
    have hne : y ≠ x := by
      rintro rfl
      exact (List.nodup_cons.mp nodup).1 List.mem_cons_self
    simp only [List.cons_append, List.head?_cons, Option.some.injEq, hne, reduceCtorEq]

/-- Every element has a successor on the cycle. -/
theorem exists_next {l : List ι} (h : IsCycle next prev l) {a : ι} (ha : a ∈ l) :
    ∃ b ∈ l, Linked next prev a b := by
  obtain ⟨before, after, rfl⟩ := List.append_of_mem ha
  have hcycle := h.append_comm
  rw [List.cons_append] at hcycle
  cases hrest : after ++ before with
  | nil =>
    rw [hrest] at hcycle
    exact ⟨a, ha, hcycle.wrap a rfl a rfl⟩
  | cons b rest =>
    rw [hrest] at hcycle
    have hb : b ∈ after ++ before := by
      rw [hrest]
      exact List.mem_cons_self
    exact ⟨b, mem_around hb, (List.isChain_cons_cons.mp hcycle.chain).1⟩

/-- Every element has a predecessor on the cycle. -/
theorem exists_prev {l : List ι} (h : IsCycle next prev l) {b : ι} (hb : b ∈ l) :
    ∃ a ∈ l, Linked next prev a b := by
  obtain ⟨before, after, rfl⟩ := List.append_of_mem hb
  have hcycle := h.append_comm
  rw [List.cons_append] at hcycle
  obtain ⟨z, hz⟩ : ∃ z, (b :: (after ++ before)).getLast? = some z :=
    ⟨_, List.getLast?_eq_some_getLast (List.cons_ne_nil _ _)⟩
  have hmem : z ∈ before ++ b :: after := by
    rcases List.mem_cons.mp (List.mem_of_getLast? hz) with rfl | hin
    · exact hb
    · exact mem_around hin
  exact ⟨z, hmem, hcycle.wrap z hz b rfl⟩

/-- **The links are inverse to each other** on a cycle. -/
theorem next_eq_iff {l : List ι} (h : IsCycle next prev l) {a b : ι} (ha : a ∈ l) (hb : b ∈ l) :
    next a = some b ↔ prev b = some a := by
  constructor
  · intro hab
    obtain ⟨c, _, hlink⟩ := h.exists_next ha
    obtain rfl : c = b := Option.some.inj (hlink.1.symm.trans hab)
    exact hlink.2
  · intro hba
    obtain ⟨c, _, hlink⟩ := h.exists_prev hb
    obtain rfl : c = a := Option.some.inj (hlink.2.symm.trans hba)
    exact hlink.1

/-- Walking along `next` for the cycle's length reads the cycle. -/
theorem walk_eq {l : List ι} (h : l.IsChain (Linked next prev)) :
    walk next l.length l.head? = l := by
  induction l with
  | nil => rfl
  | cons a l ih =>
    simp only [List.length_cons, List.head?_cons, walk, List.cons.injEq, true_and]
    cases l with
    | nil => rfl
    | cons b l =>
      obtain ⟨hab, hrest⟩ := List.isChain_cons_cons.mp h
      rw [hab.1]
      exact ih hrest

end IsCycle

end Pointer
