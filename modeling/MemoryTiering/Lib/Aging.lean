import MemoryTiering.Lib.SecondChance

/-!
# Aging in the second-chance queue

A second chance is not a third. In a queue that never gets longer than `capacity`, an unmarked key
moves up with every eviction until it is the victim, and a marked one loses its mark when the hand
comes to it and then moves up from the back. So a key that nobody marks survives a bounded number of
evictions: `Patient` says how many are left, and each eviction takes one of them.
-/

set_option autoImplicit false

namespace SecondChance

open Transition

variable {ι : Type*}

def Event.isEviction : Event ι → Bool
  | .evicted .. => true
  | _ => false

/-- How many evictions a slot with so many others in front of it can survive. -/
def Slot.patience (capacity : Nat) (s : Slot ι) (front : Nat) : Nat :=
  front + if s.marked then capacity - 1 else 0

/-- The key `x` is in the queue, for at most `n` more evictions. -/
def Patient (capacity : Nat) (x : ι) (n : Nat) (q : Queue ι) : Prop :=
  ∃ (front : Queue ι) (s : Slot ι) (back : Queue ι), q = front ++ s :: back ∧ s.key = x ∧
    s.patience capacity front.length ≤ n

/-- A step of a queue that is within its capacity. -/
structure BoundedStep [DecidableEq ι] (capacity : Nat) (q : Queue ι) (e : Event ι)
    (q' : Queue ι) : Prop where
  step : Step q e q'
  bounded : q.length ≤ capacity

section Steps

variable {capacity n : Nat} {x : ι} {q : Queue ι}

theorem Patient.mem (h : Patient capacity x n q) : x ∈ keys q := by
  obtain ⟨front, s, back, rfl, rfl, _⟩ := h
  rw [keys_append, keys_cons]
  exact List.mem_append_right _ List.mem_cons_self

/-- A key with nobody behind it, unmarked. -/
theorem patient_enqueue (capacity : Nat) (q : Queue ι) (x : ι) :
    Patient capacity x q.length (enqueue q x) :=
  ⟨q, ⟨x, false⟩, [], rfl, rfl, Nat.le_refl _⟩

/-- A key has at most the whole queue in front of it. -/
theorem patient_of_mem (bounded : q.length ≤ capacity) (h : x ∈ keys q) :
    Patient capacity x (2 * (capacity - 1)) q := by
  obtain ⟨s, hs, hkey⟩ := mem_keys.mp h
  obtain ⟨front, back, rfl⟩ := List.append_of_mem hs
  refine ⟨front, s, back, rfl, hkey, ?_⟩
  rw [List.length_append, List.length_cons] at bounded
  unfold Slot.patience
  split <;> omega

theorem Patient.enqueue (h : Patient capacity x n q) (z : ι) :
    Patient capacity x n (SecondChance.enqueue q z) := by
  obtain ⟨front, s, back, rfl, hkey, hn⟩ := h
  exact ⟨front, s, back ++ [⟨z, false⟩], by simp [SecondChance.enqueue], hkey, hn⟩

/-- Whoever else is taken out, nobody comes in front. -/
theorem Patient.remove [DecidableEq ι] {z : ι} (h : Patient capacity x n q) (hz : z ≠ x) :
    Patient capacity x n (SecondChance.remove q z) := by
  obtain ⟨front, s, back, rfl, rfl, hn⟩ := h
  refine ⟨SecondChance.remove front z, s, SecondChance.remove back z, ?_, rfl, ?_⟩
  · unfold SecondChance.remove
    rw [List.filter_append, List.filter_cons_of_pos (by simpa using hz.symm)]
  · have hfront : (SecondChance.remove front z).length ≤ front.length :=
      List.length_filter_le _ _
    unfold Slot.patience at hn ⊢
    omega

theorem Patient.mark [DecidableEq ι] {z : ι} (h : Patient capacity x n q) (hz : z ≠ x) :
    Patient capacity x n (SecondChance.mark q z) := by
  obtain ⟨front, s, back, rfl, rfl, hn⟩ := h
  refine ⟨SecondChance.mark front z, s, SecondChance.mark back z, ?_, rfl, ?_⟩
  · unfold SecondChance.mark
    rw [List.map_append, List.map_cons, if_neg hz.symm]
  · rw [SecondChance.mark, List.length_map]
    exact hn

/-- The hand passes a marked front: whoever stood there goes to the back and has lost its mark, and
whoever stands behind the victim moves up. -/
theorem Patient.pass {passed later : Queue ι} {v : Slot ι}
    (h : Patient capacity x n (passed ++ v :: later))
    (bounded : (passed ++ v :: later).length ≤ capacity) (marked : ∀ s ∈ passed, s.marked = true)
    (hx : x ≠ v.key) : ∃ m < n, Patient capacity x m (later ++ passed.map Slot.clear) := by
  obtain ⟨front, s, back, heq, rfl, hn⟩ := h
  rcases List.append_eq_append_iff.mp heq with ⟨rest, rfl, hrest⟩ | ⟨rest, rfl, hrest⟩
  · cases rest with
    | nil =>
      rw [List.nil_append, List.cons.injEq] at hrest
      exact absurd (congrArg Slot.key hrest.1.symm) hx
    | cons w rest =>
      -- it stands behind the victim
      rw [List.cons_append, List.cons.injEq] at hrest
      obtain ⟨rfl, rfl⟩ := hrest
      have hshift : s.patience capacity rest.length < n := by
        unfold Slot.patience at hn ⊢
        rw [List.length_append, List.length_cons] at hn
        omega
      exact ⟨_, hshift, rest, s, back ++ passed.map Slot.clear, by simp, rfl, Nat.le_refl _⟩
  · cases rest with
    | nil =>
      rw [List.nil_append, List.cons.injEq] at hrest
      exact absurd (congrArg Slot.key hrest.1) hx
    | cons w rest =>
      -- the hand passes it
      rw [List.cons_append, List.cons.injEq] at hrest
      obtain ⟨rfl, rfl⟩ := hrest
      have hmarked : s.marked = true := marked s (by simp)
      have hback : later.length + front.length < n := by
        unfold Slot.patience at hn
        rw [if_pos hmarked] at hn
        simp only [List.length_append, List.length_cons] at bounded
        omega
      refine ⟨_, hback, later ++ front.map Slot.clear, s.clear, rest.map Slot.clear, by simp, rfl,
        ?_⟩
      rw [List.length_append, List.length_map]
      exact Nat.le_refl _

/-- The hand goes once around a queue that is marked all over. -/
theorem Patient.around {later : Queue ι} {v : Slot ι} (h : Patient capacity x n (v :: later))
    (hx : x ≠ v.key) : ∃ m < n, Patient capacity x m (later.map Slot.clear) := by
  obtain ⟨front, s, back, heq, rfl, hn⟩ := h
  cases front with
  | nil =>
    rw [List.nil_append, List.cons.injEq] at heq
    exact absurd (congrArg Slot.key heq.1.symm) hx
  | cons w front =>
    rw [List.cons_append, List.cons.injEq] at heq
    obtain ⟨rfl, rfl⟩ := heq
    have hshift : front.length < n := by
      unfold Slot.patience at hn
      rw [List.length_cons] at hn
      omega
    refine ⟨_, hshift, front.map Slot.clear, s.clear, back.map Slot.clear, by simp, rfl, ?_⟩
    rw [List.length_map]
    exact Nat.le_refl _

/-- **An eviction of another key takes one of those left.** -/
theorem Patient.evict {e : Eviction ι} (h : Patient capacity x n q)
    (bounded : q.length ≤ capacity) (he : SecondChance.evict q = some e) (hx : x ≠ e.victim) :
    ∃ m < n, Patient capacity x m e.rest := by
  rcases evict_cases he with ⟨passed, v, later, rfl, marked, _, rfl⟩ | ⟨v, later, rfl, _, rfl⟩
  · exact h.pass bounded marked hx
  · exact h.around hx

end Steps

section Runs

variable [DecidableEq ι] {capacity n : Nat} {x : ι} {q q' : Queue ι} {e : Event ι}
  {es : List (Event ι)}

/-- **The step lemma**: a key that is still there, and was not marked, is as patient as before, or
less if there was an eviction. -/
theorem Patient.step (h : Patient capacity x n q) (nodup : (keys q).Nodup)
    (hs : BoundedStep capacity q e q') (hmark : e ≠ .marked x) (mem : x ∈ keys q') :
    ∃ m, Patient capacity x m q' ∧ m + (if e.isEviction then 1 else 0) ≤ n := by
  obtain ⟨hs, bounded⟩ := hs
  cases hs with
  | @enqueue z _ => exact ⟨n, h.enqueue z, Nat.le_refl n⟩
  | @remove z _ =>
    have hz : z ≠ x := by
      rintro rfl
      rw [keys_remove] at mem
      simp at mem
    exact ⟨n, h.remove hz, Nat.le_refl n⟩
  | @mark z _ =>
    have hz : z ≠ x := by
      rintro rfl
      exact hmark rfl
    exact ⟨n, h.mark hz, Nat.le_refl n⟩
  | @evict c hc =>
    have hx : x ≠ c.victim := by
      rintro rfl
      exact (List.nodup_cons.mp ((keys_evict_perm hc).nodup nodup)).1 mem
    obtain ⟨m, hm, hpatient⟩ := h.evict bounded hc hx
    exact ⟨m, hpatient, hm⟩

/-- A key that is gone comes back only by being enqueued. -/
theorem Step.not_mem (hs : Step q e q') (hnew : e ≠ .enqueued x) (h : x ∉ keys q) :
    x ∉ keys q' := by
  cases hs with
  | @enqueue z _ =>
    have hz : x ≠ z := by
      rintro rfl
      exact hnew rfl
    rw [SecondChance.enqueue, keys_append, List.mem_append, not_or]
    exact ⟨h, fun hmem => hz (List.mem_singleton.mp hmem)⟩
  | remove _ =>
    rw [keys_remove]
    exact fun hmem => h (List.mem_filter.mp hmem).1
  | mark _ =>
    rw [keys_mark]
    exact h
  | evict he => exact fun hmem => h ((keys_evict_perm he).mem_iff.mpr (List.mem_cons_of_mem _ hmem))

/-- So a key that is there at the end of a run that never enqueued it was there all along. -/
theorem mem_of_run (run : Trace (BoundedStep capacity) q es q')
    (quiet : ∀ e ∈ es, e ≠ .enqueued x) (mem : x ∈ keys q') : x ∈ keys q := by
  induction run with
  | nil => exact mem
  | cons hs _ ih =>
    by_contra hgone
    exact hs.step.not_mem (quiet _ List.mem_cons_self) hgone
      (ih (fun e he => quiet e (List.mem_cons_of_mem _ he)) mem)

/-- **Aging.** A key that is in the queue after a run that neither enqueued nor marked it has
survived no more evictions than it was patient for. -/
theorem Patient.survived (h : Patient capacity x n q) (nodup : (keys q).Nodup)
    (run : Trace (BoundedStep capacity) q es q')
    (quiet : ∀ e ∈ es, e ≠ .enqueued x ∧ e ≠ .marked x) (mem : x ∈ keys q') :
    es.countP Event.isEviction ≤ n := by
  induction run generalizing n with
  | nil => exact Nat.zero_le n
  | @cons q q₁ q₂ e es hs run ih =>
    have hquiet := quiet e List.mem_cons_self
    have hrest : ∀ e' ∈ es, e' ≠ .enqueued x ∧ e' ≠ .marked x :=
      fun e' he' => quiet e' (List.mem_cons_of_mem e he')
    have hmem := mem_of_run run (fun e' he' => (hrest e' he').1) mem
    obtain ⟨m, hpatient, hm⟩ := h.step nodup hs hquiet.2 hmem
    have hsurvived := ih hpatient (hs.step.nodup nodup) hrest mem
    rw [List.countP_cons]
    omega

end Runs

end SecondChance
