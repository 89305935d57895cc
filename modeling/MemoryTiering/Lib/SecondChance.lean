import Mathlib.Data.List.Nodup
import Mathlib.Data.List.Rotate
import Mathlib.Data.List.TakeWhile
import MemoryTiering.Lib.Trace

/-!
# The second-chance queue

The clock replacement policy over arbitrary keys: a queue read from the hand, each slot with a
mark. An eviction looks at slots from the front; a marked one loses its mark and goes to the
back, the first unmarked one is the victim. `evict` states the outcome in closed form: the marked
slots in front of the victim, unmarked, end up behind everything else, and when every slot is
marked the hand comes round to the first.

**The law** (`second_chance`): between the last moment a key was enqueued or marked and its
eviction, every other key of the queue at that moment is removed or looked at. Its invariant is
`Covered`: until `x` loses its mark nothing is promised about positions, and from then on every
key still owed a look stands in front of `x`.
-/

set_option autoImplicit false

namespace SecondChance

open Transition
open scoped List

variable {ι : Type*} [DecidableEq ι]

/-- One key of the queue and its mark. -/
structure Slot (ι : Type*) where
  key : ι
  marked : Bool
  deriving DecidableEq

/-- The slots in clock order from the hand. -/
abbrev Queue (ι : Type*) := List (Slot ι)

/-- The keys in clock order. -/
def keys {ι : Type*} (q : Queue ι) : List ι := q.map (·.key)

/-- A slot after the hand passed it. -/
def Slot.clear {ι : Type*} (s : Slot ι) : Slot ι := { s with marked := false }

/-- New keys go in behind the hand, unmarked. -/
def enqueue {ι : Type*} (q : Queue ι) (x : ι) : Queue ι := q ++ [⟨x, false⟩]

def remove (q : Queue ι) (x : ι) : Queue ι := q.filter fun s => s.key ≠ x

def mark (q : Queue ι) (x : ι) : Queue ι :=
  q.map fun s => if s.key = x then { s with marked := true } else s

/-- An eviction's victim, the keys the hand looked at in order, and the queue left. -/
structure Eviction (ι : Type*) where
  victim : ι
  inspected : List ι
  rest : Queue ι

/-- The eviction of a nonempty queue. -/
def evict {ι : Type*} (q : Queue ι) : Option (Eviction ι) :=
  match q.dropWhile (·.marked) with
  | v :: later =>
    let passed := q.takeWhile (·.marked)
    some ⟨v.key, keys passed ++ [v.key], later ++ passed.map Slot.clear⟩
  | [] =>
    match q with
    | [] => none
    | v :: later => some ⟨v.key, keys (v :: later) ++ [v.key], later.map Slot.clear⟩

/-- What a step of the queue did. -/
inductive Event (ι : Type*) where
  | enqueued (x : ι)
  | removed (x : ι)
  | marked (x : ι)
  | evicted (victim : ι) (inspected : List ι)
  deriving DecidableEq

/-- The step settled what the queue owes `y`: it took `y` out or looked at it. -/
def Event.touches {ι : Type*} (y : ι) : Event ι → Prop
  | .enqueued _ => False
  | .removed x => x = y
  | .marked _ => False
  | .evicted _ inspected => y ∈ inspected

/-- The queue's steps. -/
inductive Step : Queue ι → Event ι → Queue ι → Prop where
  | enqueue {q : Queue ι} {x : ι} (fresh : x ∉ keys q) : Step q (.enqueued x) (enqueue q x)
  | remove {q : Queue ι} {x : ι} (mem : x ∈ keys q) : Step q (.removed x) (remove q x)
  | mark {q : Queue ι} {x : ι} (mem : x ∈ keys q) : Step q (.marked x) (mark q x)
  | evict {q : Queue ι} {e : Eviction ι} (he : evict q = some e) :
      Step q (.evicted e.victim e.inspected) e.rest

/-! ## Keys -/

@[simp] theorem keys_append {ι : Type*} (p q : Queue ι) : keys (p ++ q) = keys p ++ keys q :=
  List.map_append

@[simp] theorem keys_cons {ι : Type*} (s : Slot ι) (q : Queue ι) :
    keys (s :: q) = s.key :: keys q := rfl

@[simp] theorem keys_clear {ι : Type*} (q : Queue ι) : keys (q.map Slot.clear) = keys q := by
  simp only [keys, List.map_map]
  rfl

@[simp] theorem keys_mark (q : Queue ι) (x : ι) : keys (mark q x) = keys q := by
  simp only [keys, mark, List.map_map]
  apply List.map_congr_left
  intro s _
  simp only [Function.comp_apply]
  split <;> rfl

theorem keys_remove (q : Queue ι) (x : ι) : keys (remove q x) = (keys q).filter (· ≠ x) := by
  simp only [keys, remove, List.filter_map]
  rfl

theorem mem_keys {ι : Type*} {q : Queue ι} {x : ι} : x ∈ keys q ↔ ∃ s ∈ q, s.key = x :=
  List.mem_map

/-- There is nothing to mark. -/
theorem mark_of_notMem {q : Queue ι} {x : ι} (h : x ∉ keys q) : mark q x = q := by
  have hself : ∀ s ∈ q, (if s.key = x then { s with marked := true } else s) = s := by
    intro s hs
    rw [if_neg]
    rintro rfl
    exact h (List.mem_map_of_mem hs)
  rw [mark, List.map_congr_left hself, List.map_id']

/-! ## The shape of an eviction -/

/-- A list whose elements do not all have a property splits at the first that has not. -/
theorem exists_first_not {α : Type*} (p : α → Bool) {l : List α} (h : ¬ ∀ a ∈ l, p a = true) :
    ∃ passed v later, l = passed ++ v :: later ∧ (∀ a ∈ passed, p a = true) ∧ p v = false := by
  have hsplit := List.takeWhile_append_dropWhile (p := p) (l := l)
  cases hdrop : l.dropWhile p with
  | nil => exact (h (List.dropWhile_eq_nil_iff.mp hdrop)).elim
  | cons v later =>
    have hv : p v = false := by
      have hhead := List.head?_dropWhile_not p l
      rw [hdrop] at hhead
      simpa only [List.head?_cons, Bool.not_eq_true] using hhead
    rw [hdrop] at hsplit
    exact ⟨l.takeWhile p, v, later, hsplit.symm, fun a ha => List.mem_takeWhile_imp ha, hv⟩

/-- Past a marked front the victim is the first unmarked slot. -/
theorem evict_append {ι : Type*} {passed later : Queue ι} {v : Slot ι}
    (hpassed : ∀ s ∈ passed, s.marked = true) (hv : v.marked = false) :
    evict (passed ++ v :: later) =
      some ⟨v.key, keys passed ++ [v.key], later ++ passed.map Slot.clear⟩ := by
  have hdrop : (passed ++ v :: later).dropWhile (·.marked) = v :: later := by
    rw [List.dropWhile_append_of_pos hpassed, List.dropWhile_cons_of_neg (by simp [hv])]
  have htake : (passed ++ v :: later).takeWhile (·.marked) = passed := by
    rw [List.takeWhile_append_of_pos hpassed, List.takeWhile_cons_of_neg (by simp [hv]),
      List.append_nil]
  simp only [evict, hdrop, htake]

/-- Marked all over, the victim is the first slot. -/
theorem evict_all {ι : Type*} {later : Queue ι} {v : Slot ι}
    (hall : ∀ s ∈ v :: later, s.marked = true) :
    evict (v :: later) = some ⟨v.key, keys (v :: later) ++ [v.key], later.map Slot.clear⟩ := by
  have hdrop : (v :: later).dropWhile (·.marked) = [] := List.dropWhile_eq_nil_iff.mpr hall
  simp only [evict, hdrop]

/-- **The two evictions**: past a marked front to the first unmarked slot, or once around a queue
that is marked all over. -/
theorem evict_cases {ι : Type*} {q : Queue ι} {e : Eviction ι} (he : evict q = some e) :
    (∃ (passed : Queue ι) (v : Slot ι) (later : Queue ι), q = passed ++ v :: later ∧
        (∀ s ∈ passed, s.marked = true) ∧ v.marked = false ∧
        e = ⟨v.key, keys passed ++ [v.key], later ++ passed.map Slot.clear⟩) ∨
      (∃ (v : Slot ι) (later : Queue ι), q = v :: later ∧ (∀ s ∈ q, s.marked = true) ∧
        e = ⟨v.key, keys q ++ [v.key], later.map Slot.clear⟩) := by
  by_cases hall : ∀ s ∈ q, s.marked = true
  · cases q with
    | nil => cases he
    | cons v later =>
      rw [evict_all hall, Option.some.injEq] at he
      exact .inr ⟨v, later, rfl, hall, he.symm⟩
  · obtain ⟨passed, v, later, rfl, hpassed, hv⟩ := exists_first_not Slot.marked hall
    rw [evict_append hpassed hv, Option.some.injEq] at he
    exact .inl ⟨passed, v, later, rfl, hpassed, hv, he.symm⟩

/-- **A victim's queue is a rotation with the victim taken off its front.** -/
theorem evict_rotate {ι : Type*} {q : Queue ι} {e : Eviction ι} (he : evict q = some e) :
    ∃ k, (keys q).rotate k = e.victim :: keys e.rest := by
  rcases evict_cases he with ⟨passed, v, later, rfl, _, _, rfl⟩ | ⟨v, later, rfl, _, rfl⟩
  · exists (keys passed).length
    simp only [keys_append, keys_cons, keys_clear, List.rotate_append_length_eq, List.cons_append]
  · exists 0
    simp only [List.rotate_zero, keys_cons, keys_clear]

theorem keys_evict_perm {ι : Type*} {q : Queue ι} {e : Eviction ι} (he : evict q = some e) :
    (keys q).Perm (e.victim :: keys e.rest) := by
  obtain ⟨k, hk⟩ := evict_rotate he
  exact hk ▸ (List.rotate_perm (keys q) k).symm

/-- Steps keep the keys distinct. -/
theorem Step.nodup {q q' : Queue ι} {e : Event ι} (h : Step q e q') (nodup : (keys q).Nodup) :
    (keys q').Nodup := by
  cases h with
  | enqueue fresh =>
    rw [SecondChance.enqueue, keys_append]
    exact nodup.append (List.nodup_singleton _) (List.disjoint_singleton.mpr fresh)
  | remove _ =>
    rw [keys_remove]
    exact nodup.filter _
  | mark _ =>
    rw [keys_mark]
    exact nodup
  | evict he => exact (List.nodup_cons.mp ((keys_evict_perm he).nodup nodup)).2

/-! ## Second chance -/

/-- What the queue keeps about `x` while the keys of `owed` are still to be settled: they are all
there, and `x` is marked or every one of them stands in front of `x`. -/
structure Covered {ι : Type*} (x : ι) (owed : ι → Prop) (q : Queue ι) : Prop where
  present : ∀ y, owed y → y ∈ keys q
  guarded : (∀ s ∈ q, s.key = x → s.marked = true) ∨ ∀ y, owed y → [y, x] <+ keys q

/-- The keys of `q₀` other than `x` that no step of `es` settled. -/
def Owed {ι : Type*} (x : ι) (q₀ : Queue ι) (es : List (Event ι)) (y : ι) : Prop :=
  y ∈ keys q₀ ∧ y ≠ x ∧ ∀ e ∈ es, ¬ e.touches y

theorem Owed.of_snoc {ι : Type*} {x y : ι} {q₀ : Queue ι} {es : List (Event ι)} {e : Event ι}
    (h : Owed x q₀ (es ++ [e]) y) : Owed x q₀ es y ∧ ¬ e.touches y :=
  ⟨⟨h.1, h.2.1, fun f hf => h.2.2 f (List.mem_append_left _ hf)⟩,
    h.2.2 e (List.mem_append_right _ (List.mem_singleton_self e))⟩

/-- A pair in order that does not start on the left lies on the right. -/
theorem pair_sublist_right {ι : Type*} {x y : ι} {l₁ l₂ : List ι} (h : [y, x] <+ l₁ ++ l₂)
    (hy : y ∉ l₁) : [y, x] <+ l₂ := by
  obtain ⟨m₁, m₂, hm, h₁, h₂⟩ := List.sublist_append_iff.mp h
  cases m₁ with
  | nil => rw [hm]; exact h₂
  | cons a m₁ =>
    obtain ⟨rfl, _⟩ := List.cons.inj hm
    exact (hy (h₁.subset List.mem_cons_self)).elim

/-- No other element stands in front of the first one. -/
theorem not_pair_sublist_cons {ι : Type*} {x y : ι} {l : List ι} (nodup : (x :: l).Nodup)
    (hy : y ≠ x) : ¬ [y, x] <+ x :: l := by
  intro h
  rcases List.cons_sublist_cons'.mp h with h | ⟨hyx, _⟩
  · exact (List.nodup_cons.mp nodup).1 (h.subset (by simp))
  · exact hy hyx

section Steps

variable {x z : ι} {owed : ι → Prop} {q : Queue ι}

/-- Fewer keys owed are covered all the more. -/
theorem Covered.mono {ι : Type*} {x : ι} {owed owed' : ι → Prop} {q : Queue ι}
    (h : Covered x owed q) (sub : ∀ y, owed' y → owed y) : Covered x owed' q := by
  constructor
  · intro y hy
    exact h.present y (sub y hy)
  · apply h.guarded.imp_right
    intro hfront y hy
    exact hfront y (sub y hy)

/-- A new key goes behind everything. -/
theorem Covered.enqueue {ι : Type*} {x z : ι} {owed : ι → Prop} {q : Queue ι}
    (h : Covered x owed q) (hz : z ≠ x) : Covered x owed (SecondChance.enqueue q z) := by
  constructor
  · intro y hy
    rw [SecondChance.enqueue, keys_append]
    exact List.mem_append_left _ (h.present y hy)
  · rcases h.guarded with hmarked | hfront
    · left
      intro s hs hkey
      rcases List.mem_append.mp hs with hs | hs
      · exact hmarked s hs hkey
      · rw [List.mem_singleton.mp hs] at hkey
        exact (hz hkey).elim
    · right
      intro y hy
      rw [SecondChance.enqueue, keys_append]
      exact (hfront y hy).trans (List.sublist_append_left _ _)

/-- A removal keeps the order of the others. -/
theorem Covered.remove (h : Covered x owed q) (z : ι) :
    Covered x (fun y => owed y ∧ y ≠ z) (SecondChance.remove q z) := by
  constructor
  · rintro y ⟨hy, hne⟩
    rw [keys_remove, List.mem_filter]
    exact ⟨h.present y hy, decide_eq_true hne⟩
  · by_cases hz : x = z
    · left
      intro s hs hkey
      have hkept := of_decide_eq_true (List.mem_filter.mp hs).2
      exact (hkept (hkey.trans hz)).elim
    · rcases h.guarded with hmarked | hfront
      · left
        intro s hs hkey
        exact hmarked s (List.mem_filter.mp hs).1 hkey
      · right
        rintro y ⟨hy, hne⟩
        have hpair := (hfront y hy).filter (· ≠ z)
        rw [List.filter_cons_of_pos (by simpa using hne),
          List.filter_cons_of_pos (by simpa using hz), List.filter_nil] at hpair
        rw [keys_remove]
        exact hpair

/-- A mark moves nothing. -/
theorem Covered.mark (h : Covered x owed q) (hz : z ≠ x) :
    Covered x owed (SecondChance.mark q z) := by
  constructor
  · intro y hy
    rw [keys_mark]
    exact h.present y hy
  · rcases h.guarded with hmarked | hfront
    · left
      intro s hs hkey
      obtain ⟨t, ht, rfl⟩ := List.mem_map.mp hs
      split at hkey
      next heq => exact (hz (heq.symm.trans hkey)).elim
      next hne =>
        rw [if_neg hne]
        exact hmarked t ht hkey
    · right
      intro y hy
      rw [keys_mark]
      exact hfront y hy

/-- The hand passes marked slots up to the victim: if it passed `x` it put `x` behind every key it
did not look at. -/
theorem Covered.pass {ι : Type*} {x : ι} {owed : ι → Prop} {passed later : Queue ι} {v : Slot ι}
    (h : Covered x owed (passed ++ v :: later)) :
    Covered x (fun y => owed y ∧ y ∉ keys passed ++ [v.key]) (later ++ passed.map Slot.clear) := by
  have unseen : ∀ y, (owed y ∧ y ∉ keys passed ++ [v.key]) →
      y ∉ keys passed ∧ y ≠ v.key ∧ y ∈ keys later := by
    rintro y ⟨hy, hnot⟩
    rw [List.mem_append, List.mem_singleton, not_or] at hnot
    have hin := h.present y hy
    rw [keys_append, keys_cons, List.mem_append, List.mem_cons] at hin
    exact ⟨hnot.1, hnot.2, (hin.resolve_left hnot.1).resolve_left hnot.2⟩
  constructor
  · intro y hy
    rw [keys_append]
    exact List.mem_append_left _ (unseen y hy).2.2
  · by_cases hx : x ∈ keys passed
    · right
      intro y hy
      rw [keys_append, keys_clear]
      exact (List.singleton_sublist.mpr (unseen y hy).2.2).append (List.singleton_sublist.mpr hx)
    · rcases h.guarded with hmarked | hfront
      · left
        intro s hs hkey
        rcases List.mem_append.mp hs with hs | hs
        · exact hmarked s (List.mem_append_right _ (List.mem_cons_of_mem _ hs)) hkey
        · obtain ⟨t, ht, rfl⟩ := List.mem_map.mp hs
          exact (hx (mem_keys.mpr ⟨t, ht, hkey⟩)).elim
      · right
        intro y hy
        obtain ⟨hpassed, hne, _⟩ := unseen y hy
        have hright := hfront y hy.1
        rw [keys_append, keys_cons] at hright
        have hcons := pair_sublist_right hright hpassed
        have hlater := (List.cons_sublist_cons'.mp hcons).resolve_right fun hh => hne hh.1
        rw [keys_append]
        exact hlater.trans (List.sublist_append_left _ _)

/-- An eviction of another key keeps `x` covered. -/
theorem Covered.evict {ι : Type*} {x : ι} {owed : ι → Prop} {q : Queue ι} {e : Eviction ι}
    (h : Covered x owed q) (he : SecondChance.evict q = some e) :
    Covered x (fun y => owed y ∧ y ∉ e.inspected) e.rest := by
  rcases evict_cases he with ⟨passed, v, later, rfl, _, _, rfl⟩ | ⟨v, later, rfl, _, rfl⟩
  · exact h.pass
  · -- the hand has looked at everything
    have none_owed : ∀ y, ¬ (owed y ∧ y ∉ keys (v :: later) ++ [v.key]) :=
      fun y hy => hy.2 (List.mem_append_left _ (h.present y hy.1))
    exact ⟨fun y hy => (none_owed y hy).elim, .inr fun y hy => (none_owed y hy).elim⟩

end Steps

/-- **The step lemma**: while `x` is neither enqueued nor marked, a step keeps it covered. -/
theorem Covered.step {x : ι} {q₀ q q' : Queue ι} {es : List (Event ι)} {e : Event ι}
    (h : Covered x (Owed x q₀ es) q) (hs : Step q e q') (hnew : e ≠ .enqueued x)
    (hmark : e ≠ .marked x) : Covered x (Owed x q₀ (es ++ [e])) q' := by
  cases hs with
  | @enqueue z _ =>
    have hz : z ≠ x := by
      rintro rfl
      exact hnew rfl
    exact (h.enqueue hz).mono fun y hy => hy.of_snoc.1
  | @remove z _ =>
    apply (h.remove z).mono
    intro y hy
    exact ⟨hy.of_snoc.1, fun heq => hy.of_snoc.2 heq.symm⟩
  | @mark z _ =>
    have hz : z ≠ x := by
      rintro rfl
      exact hmark rfl
    exact (h.mark hz).mono fun y hy => hy.of_snoc.1
  | evict he => exact (h.evict he).mono fun y hy => hy.of_snoc

/-- Right after `x` was enqueued or marked it is covered. -/
theorem covered_start {x : ι} {q q' : Queue ι} {e : Event ι} (hs : Step q e q')
    (he : e = .enqueued x ∨ e = .marked x) : Covered x (Owed x q' []) q' := by
  refine ⟨fun y hy => hy.1, ?_⟩
  cases hs with
  | @enqueue z fresh =>
    obtain rfl : z = x := by simpa using he
    right
    rintro y ⟨hmem, hne, _⟩
    rw [SecondChance.enqueue, keys_append] at hmem ⊢
    have hold := (List.mem_append.mp hmem).resolve_right (hne ∘ List.mem_singleton.mp)
    exact (List.singleton_sublist.mpr hold).append (List.Sublist.refl _)
  | @mark z _ =>
    obtain rfl : z = x := by simpa using he
    left
    intro s hs hkey
    obtain ⟨t, _, rfl⟩ := List.mem_map.mp hs
    split at hkey
    next heq => rw [if_pos heq]
    next hne => exact (hne hkey).elim
  | remove _ => simp at he
  | evict _ => simp at he

/-- The eviction of a covered key settles everything still owed. -/
theorem Covered.evicted {ι : Type*} {x : ι} {owed : ι → Prop} {q : Queue ι} {e : Eviction ι}
    (h : Covered x owed q) (nodup : (keys q).Nodup) (hne : ∀ y, owed y → y ≠ x)
    (he : SecondChance.evict q = some e) (hx : e.victim = x) (y : ι) (hy : owed y) :
    y ∈ e.inspected := by
  rcases evict_cases he with ⟨passed, v, later, rfl, _, hv, rfl⟩ | ⟨v, later, rfl, _, rfl⟩
  · rcases h.guarded with hmarked | hfront
    · have := hmarked v (by simp) hx
      rw [hv] at this
      cases this
    · by_contra hnot
      have hpassed : y ∉ keys passed := fun hin => hnot (List.mem_append_left _ hin)
      have hright := hfront y hy
      rw [keys_append, keys_cons] at hright nodup
      have hx' : v.key = x := hx
      rw [hx'] at hright nodup
      exact not_pair_sublist_cons (List.nodup_append.mp nodup).2.1 (hne y hy)
        (pair_sublist_right hright hpassed)
  · exact List.mem_append_left _ (h.present y hy)

/-- **Second chance.** Between the last step that enqueued or marked `x` and the step that evicts
`x`, each other key of the queue at that moment is taken out or looked at. -/
theorem second_chance {x : ι} {q₁ q₂ q₃ q₄ : Queue ι} {e : Event ι} {es : List (Event ι)}
    {inspected : List ι} (nodup : (keys q₁).Nodup) (start : Step q₁ e q₂)
    (he : e = .enqueued x ∨ e = .marked x) (run : Trace Step q₂ es q₃)
    (last : ∀ e' ∈ es, e' ≠ .enqueued x ∧ e' ≠ .marked x)
    (finish : Step q₃ (.evicted x inspected) q₄) :
    ∀ y ∈ keys q₂, y ≠ x → ∃ e' ∈ es ++ [.evicted x inspected], e'.touches y := by
  have nodup₃ : (keys q₃).Nodup :=
    run.invariant (P := fun q => (keys q).Nodup) (fun _ _ _ hq hs => hs.nodup hq)
      (start.nodup nodup)
  have covered : Covered x (Owed x q₂ es) q₃ := by
    let P : List (Event ι) → Queue ι → Prop := fun es q =>
      (∀ e' ∈ es, e' ≠ .enqueued x ∧ e' ≠ .marked x) → Covered x (Owed x q₂ es) q
    have keeps : ∀ es q e q', P es q → Step q e q' → P (es ++ [e]) q' := by
      intro es q e q' hcov hs hes
      have hlast := hes e (List.mem_append_right _ (List.mem_singleton_self e))
      exact (hcov fun e' he' => hes e' (List.mem_append_left _ he')).step hs hlast.1 hlast.2
    have hstart : P [] q₂ := fun _ => covered_start start he
    exact run.invariant_with keeps hstart last
  intro y hy hne
  by_contra hnone
  have untouched : ∀ e' ∈ es ++ [.evicted x inspected], ¬ e'.touches y :=
    fun e' he' ht => hnone ⟨e', he', ht⟩
  have howed : Owed x q₂ es y :=
    ⟨hy, hne, fun e' he' => untouched e' (List.mem_append_left _ he')⟩
  have hinspected : y ∉ inspected :=
    untouched _ (List.mem_append_right _ (List.mem_singleton_self _))
  generalize hev : Event.evicted x inspected = ev at finish
  cases finish with
  | evict hevict =>
    cases hev
    exact hinspected (covered.evicted nodup₃ (fun y hy => hy.2.1) hevict rfl y howed)
  | _ => cases hev

end SecondChance
