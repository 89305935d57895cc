import Mathlib.Algebra.BigOperators.Group.Finset.Basic
import Mathlib.Algebra.Order.BigOperators.Group.Finset
import Mathlib.Data.List.AList
import Mathlib.Data.List.Count

/-!
# Keyed tables and their census

A map from keys to values is Mathlib's `AList`: entries with distinct keys. Two things are added.
`update` changes the value at one key in place, which is what a store through an iterator or a
reference into a map does. `census` counts the entries whose value has a property; an update moves
it by what the changed value gained and lost (`census_update`).
-/

set_option autoImplicit false

/-- A finite map from keys to values of one type. -/
abbrev Table (κ ν : Type*) := AList fun _ : κ => ν

namespace Table

variable {κ ν : Type*} [DecidableEq κ]

/-- The table with `f` applied to the value at `k`. A missing key changes nothing. -/
def update (t : Table κ ν) (k : κ) (f : ν → ν) : Table κ ν where
  entries := t.entries.map fun e => ⟨e.1, if e.1 = k then f e.2 else e.2⟩
  nodupKeys := by
    have hkeys : (t.entries.map fun e =>
        (⟨e.1, if e.1 = k then f e.2 else e.2⟩ : Sigma fun _ : κ => ν)).keys = t.entries.keys := by
      simp only [List.keys, List.map_map]
      rfl
    rw [List.NodupKeys, hkeys]
    exact t.keys_nodup

/-- How many entries hold a value with the property. -/
def census {κ ν : Type*} (p : ν → Bool) (t : Table κ ν) : Nat := t.entries.countP fun e => p e.2

/-- How many entries there are. -/
def size {κ ν : Type*} (t : Table κ ν) : Nat := t.entries.length

@[simp] theorem lookup_update (t : Table κ ν) (k : κ) (f : ν → ν) (j : κ) :
    (t.update k f).lookup j = (t.lookup j).map fun v => if j = k then f v else v :=
  List.dlookup_map₂ (f := fun i v => if i = k then f v else v) j

@[simp] theorem size_update (t : Table κ ν) (k : κ) (f : ν → ν) : (t.update k f).size = t.size :=
  List.length_map _

/-- Two updates at one key are one. -/
theorem update_update (t : Table κ ν) (k : κ) (f g : ν → ν) :
    (t.update k f).update k g = t.update k (g ∘ f) := by
  ext1
  simp only [update, List.map_map]
  apply List.map_congr_left
  intro e _
  simp only [Function.comp_apply]
  split <;> rfl

/-- Updates that commute may change places, under any keys. -/
theorem update_comm (t : Table κ ν) (k j : κ) {f g : ν → ν} (h : ∀ v, f (g v) = g (f v)) :
    (t.update k f).update j g = (t.update j g).update k f := by
  ext1
  simp only [update, List.map_map]
  apply List.map_congr_left
  intro e _
  simp only [Function.comp_apply]
  split <;> split <;> simp only [h]

/-- An update that keeps its value changes nothing. -/
theorem update_eq_self {t : Table κ ν} {k : κ} {f : ν → ν}
    (h : ∀ v, t.lookup k = some v → f v = v) : t.update k f = t := by
  ext1
  apply (List.map_congr_left _).trans (List.map_id t.entries)
  rintro ⟨i, v⟩ he
  split
  next hi =>
    obtain rfl : i = k := hi
    rw [h v (AList.mem_lookup_iff.mpr he)]
    rfl
  next => rfl

/-- Entries under other keys stay as they are. -/
theorem map_update_of_notMem {l : List (Sigma fun _ : κ => ν)} {k : κ} (f : ν → ν)
    (fresh : k ∉ l.keys) :
    (l.map fun e => (⟨e.1, if e.1 = k then f e.2 else e.2⟩ : Sigma fun _ : κ => ν)) = l := by
  apply (List.map_congr_left _).trans (List.map_id l)
  intro e he
  have hne : e.1 ≠ k := by
    intro heq
    exact fresh (heq ▸ List.mem_keys_of_mem he)
  rw [if_neg hne]
  rfl

/-- An update at a missing key changes nothing. -/
theorem update_of_lookup_none {t : Table κ ν} {k : κ} (f : ν → ν) (h : t.lookup k = none) :
    t.update k f = t := by
  ext1
  exact map_update_of_notMem f (AList.lookup_eq_none.mp h)

theorem size_insert {t : Table κ ν} {k : κ} (v : ν) (h : k ∉ t) :
    size (AList.insert k v t) = size t + 1 := by
  rw [size, AList.entries_insert_of_notMem h]
  rfl

theorem census_insert (p : ν → Bool) {t : Table κ ν} {k : κ} (v : ν) (h : k ∉ t) :
    census p (AList.insert k v t) = census p t + if p v then 1 else 0 := by
  rw [census, AList.entries_insert_of_notMem h, List.countP_cons]
  rfl

/-- **An update moves the census by one value.** -/
theorem census_update (p : ν → Bool) {t : Table κ ν} {k : κ} {v : ν} (f : ν → ν)
    (h : t.lookup k = some v) :
    census p (t.update k f) + (if p v then 1 else 0) = census p t + if p (f v) then 1 else 0 := by
  obtain ⟨l, nodup⟩ := t
  change List.dlookup k l = some v at h
  change (l.map fun e => (⟨e.1, if e.1 = k then f e.2 else e.2⟩ : Sigma fun _ : κ => ν)).countP
    (fun e => p e.2) + _ = l.countP (fun e => p e.2) + _
  induction l with
  | nil => cases h
  | cons e l ih =>
    obtain ⟨fresh, nodup'⟩ := List.nodupKeys_cons.mp nodup
    simp only [List.map_cons, List.countP_cons]
    by_cases hk : e.1 = k
    · obtain ⟨j, w⟩ := e
      obtain rfl : j = k := hk
      obtain rfl : w = v := by simpa only [List.dlookup_cons_eq, Option.some.injEq] using h
      simp only [map_update_of_notMem f fresh, if_true]
      omega
    · have htail : List.dlookup k l = some v := by
        rwa [List.dlookup_cons_ne l e (Ne.symm hk)] at h
      have := ih nodup' htail
      simp only [if_neg hk]
      omega

/-- The census of the entries counts none where no lookup finds one. -/
theorem census_pos {p : ν → Bool} {t : Table κ ν} {k : κ} {v : ν} (h : t.lookup k = some v)
    (hp : p v = true) : 0 < census p t := by
  rw [census, List.countP_pos_iff]
  exact ⟨⟨k, v⟩, AList.mem_lookup_iff.mp h, hp⟩

/-- A positive census has an entry to show. -/
theorem exists_of_census_pos {p : ν → Bool} {t : Table κ ν} (h : 0 < census p t) :
    ∃ k v, t.lookup k = some v ∧ p v = true := by
  obtain ⟨e, he, hp⟩ := List.countP_pos_iff.mp h
  exact ⟨e.1, e.2, AList.mem_lookup_iff.mpr he, hp⟩

/-- Properties that agree on every value of the table have one census. -/
theorem census_congr {p q : ν → Bool} {t : Table κ ν} (h : ∀ k v, t.lookup k = some v → p v = q v) :
    census p t = census q t :=
  List.countP_congr fun e he => by rw [h e.1 e.2 (AList.mem_lookup_iff.mpr he)]

/-- A property that no other entry has is counted at one key. -/
theorem census_eq_of_unique {p : ν → Bool} {t : Table κ ν} {k : κ} {v : ν}
    (h : t.lookup k = some v) (others : ∀ j w, t.lookup j = some w → j ≠ k → p w = false) :
    census p t = if p v then 1 else 0 := by
  obtain ⟨l, nodup⟩ := t
  change List.dlookup k l = some v at h
  change ∀ j w, List.dlookup j l = some w → j ≠ k → p w = false at others
  change l.countP (fun e => p e.2) = _
  induction l with
  | nil => cases h
  | cons e l ih =>
    obtain ⟨fresh, nodup'⟩ := List.nodupKeys_cons.mp nodup
    have htail : ∀ j w, List.dlookup j l = some w → j ≠ k → p w = false := by
      intro j w hj hne
      have hje : j ≠ e.1 := by
        rintro rfl
        rw [List.dlookup_eq_none.mpr fresh] at hj
        cases hj
      exact others j w (by rwa [List.dlookup_cons_ne l e hje]) hne
    rw [List.countP_cons]
    by_cases hk : e.1 = k
    · obtain ⟨j, w⟩ := e
      obtain rfl : j = k := hk
      obtain rfl : w = v := by simpa only [List.dlookup_cons_eq, Option.some.injEq] using h
      have hnone : l.countP (fun e => p e.2) = 0 := by
        rw [List.countP_eq_zero]
        intro e he
        have hne : e.1 ≠ j := by
          intro heq
          have hkey := List.mem_keys_of_mem he
          rw [heq] at hkey
          exact fresh hkey
        rw [htail e.1 e.2 ((List.mem_dlookup_iff nodup').mpr he) hne]
        exact Bool.false_ne_true
      rw [hnone, Nat.zero_add]
    · have hhead : p e.2 = false := by
        apply others e.1 e.2 _ hk
        obtain ⟨j, w⟩ := e
        exact List.dlookup_cons_eq l j w
      have hlookup : List.dlookup k l = some v := by
        rwa [List.dlookup_cons_ne l e (Ne.symm hk)] at h
      rw [ih nodup' hlookup htail, hhead]
      rfl

/-- A census splits along a second property. -/
theorem census_split {κ ν : Type*} (p q : ν → Bool) (t : Table κ ν) :
    census p t = census (fun v => p v && q v) t + census (fun v => p v && !q v) t := by
  unfold census
  induction t.entries with
  | nil => rfl
  | cons e l ih =>
    simp only [List.countP_cons, ih]
    cases p e.2 <;> cases q e.2 <;> simp only [Bool.and_true, Bool.and_false, Bool.not_true,
      Bool.not_false, Bool.false_eq_true, if_true, if_false] <;> omega

/-- A list of keys with no key more than `k` times is at most `k` times as long as the table. -/
theorem length_le_of_count_le {t : Table κ ν} {l : List κ} {k : Nat} (keys : ∀ a ∈ l, a ∈ t)
    (few : ∀ a, l.count a ≤ k) : l.length ≤ k * size t := by
  have hsub : l.toFinset ⊆ t.keys.toFinset := by
    intro a ha
    exact List.mem_toFinset.mpr (AList.mem_keys.mp (keys a (List.mem_toFinset.mp ha)))
  have hcard : l.toFinset.card ≤ size t := by
    calc l.toFinset.card ≤ t.keys.toFinset.card := Finset.card_le_card hsub
      _ ≤ t.keys.length := List.toFinset_card_le _
      _ = size t := List.length_map _
  calc l.length = ∑ a ∈ l.toFinset, l.count a := (List.sum_toFinset_count_eq_length l).symm
    _ ≤ l.toFinset.card * k := Finset.sum_le_card_nsmul _ _ k fun a _ => few a
    _ ≤ size t * k := Nat.mul_le_mul_right k hcard
    _ = k * size t := Nat.mul_comm _ _

theorem census_le_size {κ ν : Type*} (p : ν → Bool) (t : Table κ ν) : census p t ≤ size t :=
  List.countP_le_length

end Table
