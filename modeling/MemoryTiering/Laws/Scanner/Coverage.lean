import MemoryTiering.Laws.PageTable.Promotion
import MemoryTiering.Lib.Circuit
import Mathlib.Data.List.ReduceOption

/-!
# Coverage

The cursor wraps in the page table, where it is compared with the size after it moved; the end of a
round is seen in the scanner, where the page it stood at is compared with the size less one. Nothing
else moves the cursor, and no access or migration adds a page or takes one out (`SamePages`), so the
pages of successive iterations are a tour of the table's indices (`Scans.tour`): any window as long
as the table examines each page once and ends one round, at the last page
(`every_window_covers_the_table`).
-/

set_option autoImplicit false

namespace MemoryTiering

open Fallible Transition

namespace PageTable

/-! ## What moves neither the cursor nor the pages -/

/-- The same pages, and the cursor where it was. -/
structure SamePages (t t' : PageTable) : Prop where
  pages : ∀ p, (t'.meta? p).isSome = (t.meta? p).isSome
  size : t'.table.size = t.table.size
  scanIndex : t'.scanIndex = t.scanIndex

theorem samePages_store (t : PageTable) (p : PageId) (f : PageMetadata → PageMetadata) :
    SamePages t (t.store p f) where
  pages q := by rw [meta?_store, Option.isSome_map]
  size := Table.size_update ..
  scanIndex := rfl

theorem framed_samePages : Framed SamePages where
  refl _ := ⟨fun _ => rfl, rfl, rfl⟩
  trans h k := ⟨fun p => (k.pages p).trans (h.pages p), k.size.trans h.size,
    k.scanIndex.trans h.scanIndex⟩
  store := samePages_store
  withRing _ _ := ⟨fun _ => rfl, rfl, rfl⟩
  settle now t p _ _ :=
    have h := samePages_store t p (.reset now)
    ⟨h.pages, h.size, h.scanIndex⟩

section Scan

variable {t t' : PageTable} {classification : Scanner.Classification} {evictNow now : Nat}

/-- An access moves neither. -/
theorem samePages_accessPage {latency : SizeT → OperationType → UInt64} {p : PageId}
    {mode : OperationType} (h : t.accessPage latency now p mode = .ok t') : SamePages t t' := by
  rcases accessPage_cases h with ⟨_, rfl⟩ | ⟨e, t₁, _, rfl, hring⟩
  · exact framed_samePages.refl _
  · have h₁ : SamePages t t₁ := by
      rcases hring with ⟨_, rfl⟩ | ⟨_, ring', _, _, rfl⟩
      · exact framed_samePages.refl _
      · exact framed_samePages.withRing t ring'
    have h₂ := framed_samePages.trans h₁ (samePages_store t₁ p (.accessed now))
    exact ⟨h₂.pages, h₂.size, h₂.scanIndex⟩

/-- A round that returns moves the cursor on, whether its migration was asked for, refused or
done. -/
theorem samePages_round (h : Scanner.round classification evictNow now t = .ok t') :
    SamePages t.scanNext.2 t' := by
  cases hrequest : (Scanner.scan classification t).1 with
  | none =>
    rw [round_rests hrequest] at h
    cases h
    exact framed_samePages.refl _
  | some r =>
    rw [round_migrates hrequest] at h
    obtain ⟨⟨exit, t₁⟩, hcall, h⟩ := bind_eq_ok.mp h
    cases h
    exact framed_samePages.migratePage hcall

end Scan

/-! ## Scanning runs -/

/-- The manager accesses a page, or the scanner completes an iteration. -/
inductive Scans (base : PageLayer → SizeT) : PageTable → Option Scanner.Iteration → PageTable →
    Prop where
  | access {t t' : PageTable} {latency : SizeT → OperationType → UInt64} {now : Nat}
      {pageId : PageId} {mode : OperationType}
      (call : t.accessPage latency now pageId mode = .ok t') : Scans base t none t'
  | iterate {t t' : PageTable} {classification : Scanner.Classification} {evictNow now : Nat}
      {i : Scanner.Iteration}
      (call : Scanner.iterate base classification evictNow now t = .ok (i, t')) :
      Scans base t (some i) t'

/-- The pages that iterations examined, in order. -/
def examined (iterations : List Scanner.Iteration) : List Nat :=
  iterations.map fun i => i.pageId.toNat

/-- A table of `n` pages, numbered from zero, with the cursor at one of them. -/
structure Surveyed (n : Nat) (t : PageTable) : Prop where
  small : n < 2 ^ 64
  size : t.table.size = n
  pages : ∀ p, (t.meta? p).isSome = true ↔ p.toNat < n
  inside : t.scanIndex.toNat < n

section Runs

variable {base : PageLayer → SizeT} {n : Nat} {t t' : PageTable}
  {es : List (Option Scanner.Iteration)}

theorem Surveyed.congr (h : Surveyed n t) (same : SamePages t t') : Surveyed n t' where
  small := h.small
  size := same.size.trans h.size
  pages p := by rw [same.pages, h.pages]
  inside := by rw [same.scanIndex]; exact h.inside

theorem Surveyed.toNat_size (h : Surveyed n t) : t.size.toNat = n := by
  unfold PageTable.size
  rw [h.size, SizeT.toNat_ofNat h.small]

/-- The cursor goes round the table. -/
theorem Surveyed.scanNext (h : Surveyed n t) :
    Surveyed n t.scanNext.2 ∧
      t.scanNext.2.scanIndex.toNat = Circuit.next n t.scanIndex.toNat := by
  have hindex : t.scanNext.2.scanIndex.toNat = Circuit.next n t.scanIndex.toNat := by
    have hinside := h.inside
    have hsmall := h.small
    have hnext : (t.scanIndex + 1).toNat = t.scanIndex.toNat + 1 := SizeT.toNat_succ (by omega)
    have hwraps : t.size ≤ t.scanIndex + 1 ↔ n ≤ t.scanIndex.toNat + 1 := by
      rw [UInt64.le_iff_toNat_le, h.toNat_size, hnext]
    show (if t.size ≤ t.scanIndex + 1 then (0 : SizeT) else t.scanIndex + 1).toNat =
      if n ≤ t.scanIndex.toNat + 1 then 0 else t.scanIndex.toNat + 1
    simp only [hwraps]
    split
    · rfl
    · exact hnext
  refine ⟨⟨h.small, h.size, h.pages, ?_⟩, hindex⟩
  rw [hindex]
  exact Circuit.next_lt h.inside

/-- **The step lemma**: an iteration examines the page at the cursor, moves it on, and ends the
round exactly at the last page. -/
theorem Surveyed.iterate (h : Surveyed n t) {classification : Scanner.Classification}
    {evictNow now : Nat} {i : Scanner.Iteration}
    (call : Scanner.iterate base classification evictNow now t = .ok (i, t')) :
    Surveyed n t' ∧ t'.scanIndex.toNat = Circuit.next n t.scanIndex.toNat ∧
      i.pageId.toNat = t.scanIndex.toNat ∧
      (i.endOfRound.isSome = true ↔ i.pageId.toNat = n - 1) := by
  obtain ⟨⟨p, t₁⟩, hvisit, call⟩ := bind_eq_ok.mp call
  cases call
  obtain ⟨rfl, hround⟩ := visit_eq_ok hvisit
  obtain ⟨hscanned, hnext⟩ := h.scanNext
  have hsame := samePages_round hround
  have hsurveyed := hscanned.congr hsame
  refine ⟨hsurveyed, by rw [hsame.scanIndex, hnext], rfl, ?_⟩
  have hpos : 1 ≤ n := Nat.lt_of_le_of_lt (Nat.zero_le _) h.inside
  have hlast : (t'.size - 1).toNat = n - 1 := by
    rw [SizeT.toNat_pred (by rw [hsurveyed.toNat_size]; exact hpos), hsurveyed.toNat_size]
  show (if t.scanIndex = t'.size - 1 then some _ else none).isSome = true ↔
    t.scanIndex.toNat = n - 1
  rw [← hlast, UInt64.toNat_inj]
  split
  next hend => simp [hend]
  next hend => simp [hend]

/-- **The run lemma**: the iterations of a run tour the table, whatever comes between them. -/
theorem Scans.tour (run : Trace (Scans base) t es t') (h : Surveyed n t) :
    Surveyed n t' ∧
      examined es.reduceOption =
        Circuit.tour n t.scanIndex.toNat es.reduceOption.length ∧
      ∀ i ∈ es.reduceOption, (i.endOfRound.isSome = true ↔ i.pageId.toNat = n - 1) := by
  induction run with
  | nil t => exact ⟨h, rfl, nofun⟩
  | cons hstep _ ih =>
    cases hstep with
    | access call =>
      have hsame := samePages_accessPage call
      rw [← hsame.scanIndex]
      exact ih (h.congr hsame)
    | iterate call =>
      obtain ⟨h₁, hnext, hpage, hend⟩ := h.iterate call
      obtain ⟨h', htour, hends⟩ := ih h₁
      rw [List.reduceOption_cons_of_some]
      refine ⟨h', ?_, List.forall_mem_cons.mpr ⟨hend, hends⟩⟩
      rw [List.length_cons, Circuit.tour, ← hnext, ← htour, ← hpage]
      rfl

/-- The iterations that end a round, told by the pages they examined. -/
theorem examined_endsRound {iterations : List Scanner.Iteration}
    (ends : ∀ i ∈ iterations, (i.endOfRound.isSome = true ↔ i.pageId.toNat = n - 1)) :
    examined (iterations.filter fun i => i.endOfRound.isSome) =
      (examined iterations).filter fun p => p = n - 1 := by
  unfold examined
  rw [List.filter_map]
  congr 1
  apply List.filter_congr
  intro i hi
  rw [Bool.eq_iff_iff, ends i hi]
  exact decide_eq_true_iff.symm

end Runs

section Coverage

variable {clients : List ClientConfig} {server : ServerMemoryConfig} {ring : Bool}
  {alloc : Allocation} {base : PageLayer → SizeT} {t₀ t t' : PageTable}
  {es window : List (Option Scanner.Iteration)}

/-- Every table that was filled with pages. -/
theorem surveyed_of_initPageTable (start : (new clients server ring).initPageTable alloc = .ok t₀)
    (nonempty : 0 < t₀.table.size) : Surveyed t₀.table.size t₀ := by
  obtain ⟨hnumbered, hindex⟩ := numbered_of_initPageTable start
  exact ⟨hnumbered.small, rfl, hnumbered.pages, by rw [hindex]; exact nonempty⟩

/-- **Every scan round covers the table**, from any state the manager and the scanner reach, with
accesses between the iterations and whatever they migrate. The pages are the ones the table was
filled with. As many iterations as there are pages examine each of them once, and one of these
iterations, at the last page, ends a round. From one end of a round to the next, all pages are
examined in order. -/
theorem every_window_covers_the_table
    (start : (new clients server ring).initPageTable alloc = .ok t₀)
    (nonempty : 0 < t₀.table.size) (run : Trace (Scans base) t₀ es t)
    (scan : Trace (Scans base) t window t') :
    (∀ p, (t.meta? p).isSome = true ↔ p.toNat < t₀.table.size) ∧
    (window.reduceOption.length = t₀.table.size →
      (examined window.reduceOption).Perm (List.range t₀.table.size) ∧
      examined (window.reduceOption.filter fun i => i.endOfRound.isSome) =
        [t₀.table.size - 1]) ∧
    ∀ first between last, window.reduceOption = first :: (between ++ [last]) →
      first.endOfRound.isSome = true → last.endOfRound.isSome = true →
      (∀ i ∈ between, i.endOfRound = none) →
      examined (between ++ [last]) = List.range t₀.table.size := by
  obtain ⟨h, _, _⟩ := Scans.tour run (surveyed_of_initPageTable start nonempty)
  obtain ⟨_, htour, hends⟩ := Scans.tour scan h
  refine ⟨h.pages, ?_, ?_⟩
  · intro hlength
    rw [examined_endsRound hends, htour, hlength]
    exact ⟨Circuit.tour_perm h.inside, Circuit.filter_tour h.inside⟩
  · intro first between last hwindow hfirst hlast hbetween
    rw [hwindow] at htour hends
    have hpage : ∀ i ∈ first :: (between ++ [last]), i.endOfRound.isSome = true →
        i.pageId.toNat = t₀.table.size - 1 := fun i hi => (hends i hi).mp
    have hexamined : examined (first :: (between ++ [last])) =
        (t₀.table.size - 1) :: (examined between ++ [t₀.table.size - 1]) := by
      unfold examined
      rw [List.map_cons, List.map_append, List.map_singleton, hpage first (by simp) hfirst,
        hpage last (by simp) hlast]
    have hfresh : t₀.table.size - 1 ∉ examined between := by
      intro hmem
      obtain ⟨i, hi, hlastPage⟩ := List.mem_map.mp hmem
      have hend := (hends i (by simp [hi])).mpr hlastPage
      rw [hbetween i hi] at hend
      cases hend
    have hcover := Circuit.tour_between nonempty (htour.symm.trans hexamined) hfresh
    unfold examined at hcover ⊢
    rw [List.map_append, List.map_singleton, hpage last (by simp) hlast, hcover]

/-- Two pages, both cold: the first is demoted to the full tier in vain, the second moves, and the
round ends. -/
theorem two_cold_pages_covered : ∃ t₀ t' window,
    (smallConfig 1 1 (by decide)).start false plainAllocation = .ok t₀ ∧
    Trace (Scans fun _ => hugePageSize) t₀ window t' ∧
    (examined window.reduceOption).Perm (List.range t₀.table.size) ∧
    examined (window.reduceOption.filter fun i => i.endOfRound.isSome) = [1] := by
  have hrun : ∃ t₀ t₁ t₂ advices, (smallConfig 1 1 (by decide)).start false plainAllocation =
      .ok t₀ ∧ t₀.table.size = 2 ∧
      Scanner.iterate (fun _ => hugePageSize) Scanner.alwaysCold 0 0 t₀ =
        .ok (⟨0, none⟩, t₁) ∧
      Scanner.iterate (fun _ => hugePageSize) Scanner.alwaysCold 0 0 t₁ =
        .ok (⟨1, some advices⟩, t₂) :=
    ⟨_, _, _, _, rfl, rfl, rfl, rfl⟩
  obtain ⟨t₀, t₁, t₂, advices, start, hsize, hfirst, hsecond⟩ := hrun
  have hscan : Trace (Scans fun _ => hugePageSize) t₀ [some _, some _] t₂ :=
    .cons (.iterate hfirst) (.cons (.iterate hsecond) (.nil t₂))
  refine ⟨t₀, t₂, _, start, hscan, ?_⟩
  have hcovered := (every_window_covers_the_table start (by omega) (.nil t₀) hscan).2.1 hsize.symm
  rwa [hsize] at hcovered ⊢

end Coverage

end PageTable

end MemoryTiering
