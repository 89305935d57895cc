import MemoryTiering.Laws.ClockRing.Session
import MemoryTiering.Lib.Aging

/-!
# Nodes that nobody accesses leave the ring

The other side of the second chance. A ring is a queue within its capacity, so a node that is not
accessed is gone after so many evictions (`SecondChance.Patient.survived`): as many as the ring has
nodes if it was only inserted, and one short of twice as many if it was marked, for the round in
which it loses its mark.
-/

set_option autoImplicit false

namespace MemoryTiering

open Pointer Transition

namespace Session

def Event.isEviction : Event → Bool
  | .evicted .. => true
  | _ => false

/-- The evictions a node survives at most after this step. -/
def Event.patience (capacity : SizeT) : Event → Nat
  | .marked _ => 2 * (capacity.toNat - 1)
  | _ => capacity.toNat - 1

section Queue

variable {capacity : SizeT} {s t : Session} {e : Event} {es : List Event}

theorem isEviction_onQueue (es : List Event) :
    (es.flatMap Event.onQueue).countP SecondChance.Event.isEviction =
      es.countP Event.isEviction := by
  induction es with
  | nil => rfl
  | cons e es ih =>
    rw [List.flatMap_cons, List.countP_append, ih, List.countP_cons, Nat.add_comm]
    cases e <;> rfl

theorem Valid.queue_length (h : s.Valid) (hcap : s.ring.capacity = capacity) :
    s.queue.length ≤ capacity.toNat := by
  obtain ⟨l, hl⟩ := h
  rw [hl.queue_eq, ← hcap, ClockRing.queueOf, List.length_map]
  exact hl.reads.bounded

/-- A call is a step of a queue within the capacity, or none. -/
theorem Step.simulates_bounded (h : Step s e t) (valid : s.Valid)
    (hcap : s.ring.capacity = capacity) :
    (t.Valid ∧ t.ring.capacity = capacity) ∧
      Trace (SecondChance.BoundedStep capacity.toNat) s.queue e.onQueue t.queue := by
  obtain ⟨hvalid, hcap', htrace⟩ := h.simulates valid
  refine ⟨⟨hvalid, hcap'.trans hcap⟩, ?_⟩
  have hbounded := valid.queue_length hcap
  cases e with
  | refused =>
    generalize t.queue = q' at htrace
    cases htrace
    exact .nil _
  | inserted | removed | marked | evicted =>
    exact Trace.single.mpr ⟨Trace.single.mp htrace, hbounded⟩

/-- A run of calls is a run of a queue within the capacity. -/
theorem run_on_bounded_queue (valid : s.Valid) (hcap : s.ring.capacity = capacity)
    (run : Trace Step s es t) :
    t.Valid ∧ Trace (SecondChance.BoundedStep capacity.toNat) s.queue
      (es.flatMap Event.onQueue) t.queue := by
  have sim : ∀ s e t q, (s.Valid ∧ s.ring.capacity = capacity) ∧ s.queue = q → Step s e t →
      ∃ q', Trace (SecondChance.BoundedStep capacity.toNat) q e.onQueue q' ∧
        (t.Valid ∧ t.ring.capacity = capacity) ∧ t.queue = q' := by
    rintro s e t _ ⟨⟨hvalid, hcap'⟩, rfl⟩ h
    obtain ⟨hkept, htrace⟩ := h.simulates_bounded hvalid hcap'
    exact ⟨_, htrace, hkept, rfl⟩
  obtain ⟨_, hrun, ⟨hvalid, _⟩, rfl⟩ := run.simulate Event.onQueue sim ⟨⟨valid, hcap⟩, rfl⟩
  exact ⟨hvalid, hrun⟩

theorem Valid.mem_keys (h : s.Valid) {x : Addr} :
    x ∈ SecondChance.keys s.queue ↔ x ∈ s.handles := by
  obtain ⟨l, hl⟩ := h
  rw [hl.queue_eq, ClockRing.keys_queueOf, hl.handles.mem_iff]

/-- What is left to a node right after it was inserted or marked. -/
theorem Step.patient {x : Addr} (h : Step s e t) (valid : s.Valid)
    (hcap : s.ring.capacity = capacity) (he : e.refreshes x) :
    SecondChance.Patient capacity.toNat x (e.patience capacity) t.queue := by
  obtain ⟨⟨hvalid, hcap'⟩, htrace⟩ := h.simulates_bounded valid hcap
  have hbounded := hvalid.queue_length hcap'
  cases e with
  | inserted pageId node =>
    obtain rfl : node = x := he
    obtain ⟨hstep, -⟩ := Trace.single.mp htrace
    generalize t.queue = q' at hbounded hstep
    cases hstep with
    | enqueue fresh =>
      obtain ⟨front, slot, back, hq, hkey, hle⟩ := SecondChance.patient_enqueue
        capacity.toNat s.queue node
      rw [SecondChance.enqueue, List.length_append, List.length_singleton] at hbounded
      have hroom : s.queue.length ≤ capacity.toNat - 1 := by omega
      exact ⟨front, slot, back, hq, hkey, hle.trans hroom⟩
  | marked node =>
    obtain rfl : node = x := he
    apply SecondChance.patient_of_mem hbounded
    rw [hvalid.mem_keys]
    cases h with
    | mark held _ => exact held
  | refused | removed | evicted => exact he.elim

end Queue

/-- **Nodes that nobody accesses leave the ring.** A node that is still out after a run that did not
insert it or mark it again has survived fewer evictions than the ring can hold nodes, or, if its
last step marked it, fewer than twice as many less one. -/
theorem runs_age_out {capacity : SizeT} {x : Addr} {s₀ s₁ s₂ : Session} {e : Event}
    {before after : List Event} (run : Trace Step (start capacity) before s₀)
    (last : Step s₀ e s₁) (he : e.refreshes x) (quiet : ∀ e' ∈ after, ¬ e'.refreshes x)
    (rest : Trace Step s₁ after s₂) (held : x ∈ s₂.handles) :
    after.countP Event.isEviction ≤ e.patience capacity := by
  obtain ⟨hvalid₀, hcap₀⟩ := valid_of_run run
  obtain ⟨⟨hvalid₁, hcap₁⟩, -⟩ := last.simulates_bounded hvalid₀ hcap₀
  obtain ⟨hvalid₂, hrest⟩ := run_on_bounded_queue hvalid₁ hcap₁ rest
  have hpatient := last.patient hvalid₀ hcap₀ he
  have hnodup : (SecondChance.keys s₁.queue).Nodup := by
    obtain ⟨l, hl⟩ := hvalid₁
    rw [hl.queue_eq, ClockRing.keys_queueOf]
    exact hl.reads.nodup
  have hquiet : ∀ e' ∈ after.flatMap Event.onQueue, e' ≠ .enqueued x ∧ e' ≠ .marked x := by
    intro e' he'
    obtain ⟨d, hd, hin⟩ := List.mem_flatMap.mp he'
    exact ⟨fun heq => quiet d hd (Event.refreshes_of_onQueue hin (.inl heq)),
      fun heq => quiet d hd (Event.refreshes_of_onQueue hin (.inr heq))⟩
  rw [← isEviction_onQueue]
  exact hpatient.survived hnodup hrest hquiet (hvalid₂.mem_keys.mpr held)

/-- A marked node of a ring for two that outlives two others, and no third. -/
theorem marked_node_outlives_two : ∃ s₀ s₁ s₂,
    Trace Step (start 2) [.inserted 10 0, .inserted 11 1] s₀ ∧ Step s₀ (.marked 1) s₁ ∧
    Trace Step s₁ [.evicted 10 0 [0], .inserted 12 2, .evicted 12 2 [1, 2]] s₂ ∧
    1 ∈ s₂.handles ∧
    [Event.evicted 10 0 [0], .inserted 12 2, .evicted 12 2 [1, 2]].countP Event.isEviction ≤ 2 := by
  have hrun : ∃ s₀ s₁ s₂,
      Trace Step (start 2) [.inserted 10 0, .inserted 11 1] s₀ ∧ Step s₀ (.marked 1) s₁ ∧
      Trace Step s₁ [.evicted 10 0 [0], .inserted 12 2, .evicted 12 2 [1, 2]] s₂ ∧
      1 ∈ s₂.handles :=
    ⟨_, _, _, .cons (.insert rfl) <| .cons (.insert rfl) (.nil _), .mark (by decide) rfl,
      .cons (.evict (c := ⟨10, 0, [0], _⟩) (by decide) rfl) <| .cons (.insert rfl) <|
        .cons (.evict (c := ⟨12, 2, [1, 2], _⟩) (by decide) rfl) (.nil _), by decide⟩
  obtain ⟨s₀, s₁, s₂, run, last, rest, held⟩ := hrun
  exact ⟨s₀, s₁, s₂, run, last, rest, held,
    runs_age_out run last rfl (by simp [Event.refreshes]) rest held⟩

end Session

end MemoryTiering
