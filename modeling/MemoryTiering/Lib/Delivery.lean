import MemoryTiering.Lib.Trace
import Mathlib.Algebra.BigOperators.Group.Finset.Piecewise

/-!
# Delivery through a bounded queue

Any number of producers send their messages, each in its own order, into one queue of bounded
length, and one consumer takes them out at its front. What a producer still has on the way, in the
queue and not yet sent, is its **stream**. Sending leaves every stream as it is and a receipt takes
the head off one, so a run receives a prefix of each stream (`stream_of_run`). Nothing else is
needed to see that a producer whose last message has arrived is done (`closed_of_run`), and that
the network is not stuck before its streams are empty (`exists_step`).
-/

set_option autoImplicit false

namespace Delivery

open Transition

variable {ι α : Type*} [DecidableEq ι]

/-- The messages on their way: what each producer has still to send, and the queue. -/
structure Network (ι α : Type*) where
  unsent : ι → List α
  queue : List α

inductive Event (ι α : Type*) where
  | send (i : ι) (a : α)
  | receive (a : α)

/-- One message sent or received. -/
inductive Step (capacity : Nat) (n : Network ι α) : Event ι α → Network ι α → Prop where
  | send {i : ι} {a : α} {rest : List α} (next : n.unsent i = a :: rest)
      (room : n.queue.length < capacity) :
      Step capacity n (.send i a) ⟨Function.update n.unsent i rest, n.queue ++ [a]⟩
  | receive {a : α} {rest : List α} (front : n.queue = a :: rest) :
      Step capacity n (.receive a) ⟨n.unsent, rest⟩

/-- The messages a producer sent, in order. -/
def sent (i : ι) (es : List (Event ι α)) : List α :=
  es.filterMap fun
    | .send j a => if j = i then some a else none
    | .receive _ => none

/-- The messages received, in order. -/
def received (es : List (Event ι α)) : List α :=
  es.filterMap fun
    | .send _ _ => none
    | .receive a => some a

/-- Every message still to be sent names its producer. -/
def Signed (source : α → ι) (n : Network ι α) : Prop := ∀ i, ∀ a ∈ n.unsent i, source a = i

/-- What is on the way from a producer. -/
def stream (source : α → ι) (n : Network ι α) (i : ι) : List α :=
  n.queue.filter (fun a => source a = i) ++ n.unsent i

section Steps

variable {capacity : Nat} {source : α → ι} {n n' : Network ι α} {e : Event ι α}
  {es : List (Event ι α)} {i : ι}

theorem Step.signed (h : Step capacity n e n') (signed : Signed source n) : Signed source n' := by
  cases h with
  | @send j a rest next =>
    intro k b hb
    dsimp only at hb
    by_cases hk : k = j
    · subst hk
      rw [Function.update_self] at hb
      exact signed k b (next ▸ List.mem_cons_of_mem a hb)
    · rw [Function.update_of_ne hk] at hb
      exact signed k b hb
  | receive => exact signed

/-- **The step lemma**: a receipt takes the head of a stream, and nothing else changes one. -/
theorem Step.stream_eq (h : Step capacity n e n') (signed : Signed source n) (i : ι) :
    stream source n i = (received [e]).filter (fun a => source a = i) ++ stream source n' i := by
  unfold stream
  cases h with
  | @send j a rest next =>
    have hsource : source a = j := signed j a (next ▸ List.mem_cons_self)
    dsimp only
    rw [List.filter_append]
    by_cases hi : i = j
    · subst hi
      simp [received, next, hsource]
    · simp [received, hsource, Function.update_of_ne hi, Ne.symm hi]
  | @receive a rest front =>
    rw [front]
    simp only [received, List.filterMap_cons, List.filterMap_nil, List.filter_cons, List.filter_nil]
    split <;> rfl

/-- A producer sends its messages in order. -/
theorem Step.unsent_eq (h : Step capacity n e n') (i : ι) :
    n.unsent i = sent i [e] ++ n'.unsent i := by
  cases h with
  | @send j a rest next =>
    by_cases hi : i = j
    · subst hi
      simp [sent, next]
    · simp [sent, Function.update_of_ne hi, Ne.symm hi]
  | receive => rfl

/-! ## Runs -/

/-- **The run lemma**: what was received from a producer, followed by what is still on the way, is
what was on the way before. -/
theorem stream_of_run (run : Trace (Step capacity) n es n') (signed : Signed source n) (i : ι) :
    stream source n i = (received es).filter (fun a => source a = i) ++ stream source n' i := by
  induction run with
  | nil n => rfl
  | @cons n n₁ n₂ e es hstep _ ih =>
    have hsplit : received (e :: es) = received [e] ++ received es :=
      List.filterMap_append (l := [e])
    rw [hstep.stream_eq signed, ih (hstep.signed signed), hsplit, List.filter_append,
      List.append_assoc]

theorem unsent_of_run (run : Trace (Step capacity) n es n') (i : ι) :
    n.unsent i = sent i es ++ n'.unsent i := by
  induction run with
  | nil n => rfl
  | @cons n n₁ n₂ e es hstep _ ih =>
    have hsplit : sent i (e :: es) = sent i [e] ++ sent i es := List.filterMap_append (l := [e])
    rw [hstep.unsent_eq, ih, hsplit, List.append_assoc]

/-- A prefix that reaches the last element is everything. -/
theorem eq_nil_of_mem_prefix {before after ms : List α} {last : α}
    (h : before ++ after = ms ++ [last]) (fresh : last ∉ ms) (reached : last ∈ before) :
    after = [] := by
  rcases List.append_eq_append_iff.mp h with ⟨rest, rfl, _⟩ | ⟨rest, rfl, hlast⟩
  · exact (fresh (List.mem_append_left _ reached)).elim
  · cases rest with
    | nil =>
      rw [List.append_nil] at reached
      exact (fresh reached).elim
    | cons a rest =>
      rw [List.cons_append, List.cons.injEq] at hlast
      exact (List.append_eq_nil_iff.mp hlast.2.symm).2

/-- **Once a producer's last message has arrived, all of its messages have**, and none of them is
on the way. -/
theorem closed_of_run (run : Trace (Step capacity) n es n') (signed : Signed source n) {i : ι}
    {ms : List α} {last : α} (hstream : stream source n i = ms ++ [last]) (fresh : last ∉ ms)
    (hlast : source last = i) (arrived : last ∈ received es) :
    stream source n' i = [] ∧ (received es).filter (fun a => source a = i) = ms ++ [last] := by
  have hrun := stream_of_run run signed i
  rw [hstream] at hrun
  have hnil := eq_nil_of_mem_prefix hrun.symm fresh (by simp [arrived, hlast])
  rw [hnil, List.append_nil] at hrun
  exact ⟨hnil, hrun.symm⟩

/-- Empty streams leave the queue empty. -/
theorem queue_eq_nil (h : ∀ i, stream source n i = []) : n.queue = [] := by
  apply List.eq_nil_iff_forall_not_mem.mpr
  intro a ha
  have hmem : a ∈ stream source n (source a) := by simp [stream, ha]
  rw [h] at hmem
  cases hmem

/-- **No deadlock**: while something is on the way, a message can be sent or received. -/
theorem exists_step (room : 0 < capacity) (h : stream source n i ≠ []) :
    ∃ e n', Step capacity n e n' := by
  cases hqueue : n.queue with
  | cons a rest => exact ⟨.receive a, _, .receive hqueue⟩
  | nil =>
    have hunsent : n.unsent i ≠ [] := by
      intro hnil
      apply h
      rw [stream, hqueue, hnil]
      rfl
    obtain ⟨a, rest, hnext⟩ := List.exists_cons_of_ne_nil hunsent
    exact ⟨.send i a, _, .send hnext (by rw [hqueue]; exact room)⟩

end Steps

/-! ## Counting -/

/-- Messages counted producer by producer. -/
theorem countP_eq_sum (source : α → ι) (p : α → Bool) (producers : Finset ι) {l : List α}
    (h : ∀ a ∈ l, source a ∈ producers) :
    l.countP p = ∑ i ∈ producers, (l.filter fun a => source a = i).countP p := by
  induction l with
  | nil => simp
  | cons a l ih =>
    have hhead : ∀ i, ((a :: l).filter fun a => source a = i).countP p =
        (l.filter fun a => source a = i).countP p +
          if source a = i then (if p a then 1 else 0) else 0 := by
      intro i
      rw [List.filter_cons]
      by_cases hi : source a = i
      · simp [hi, List.countP_cons]
      · simp [hi]
    simp only [hhead, Finset.sum_add_distrib]
    rw [← ih fun b hb => h b (List.mem_cons_of_mem a hb), Finset.sum_ite_eq,
      if_pos (h a List.mem_cons_self), List.countP_cons]

end Delivery
