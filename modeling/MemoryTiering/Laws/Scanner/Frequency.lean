import MemoryTiering.Laws.Scanner.Rounds

/-!
# The frequency policy comes to rest

The frequency policy sees a page's layer and its count. A migration leaves the count at zero, which
is never hot, for a threshold of one or more, and always cold. So while nobody accesses a page, it
is migrated once for the count it had, and from then on only down. `budget` is what it has left; a
refused migration spends nothing.
-/

set_option autoImplicit false

namespace MemoryTiering

open Pointer Transition

namespace PageTable

/-- The migrations a run of activities completes, in order. -/
def migrations (policy : PolicyVariant) (es : List (PageTable × Activity)) : List Move :=
  es.flatMap fun e => e.2.moves policy e.1

/-! ## Budgets -/

section Budgets

variable {policy : PolicyVariant} {t₀ t t' : PageTable} {es : List (PageTable × Activity)}
  {weight : PageMetadata → Nat} {counts : Move → Bool}

/-- What a page has left. -/
def left (weight : PageMetadata → Nat) (t : PageTable) (p : PageId) : Nat :=
  ((t.record? p).map weight).getD 0

/-- No page has more left than any metadata allows. -/
theorem left_le {k : Nat} (h : ∀ m, weight m ≤ k) (t : PageTable) (p : PageId) :
    t.left weight p ≤ k := by
  unfold left
  cases t.record? p with
  | none => exact Nat.zero_le k
  | some m => exact h m

/-- A round pays for the migration it completes. -/
theorem Round.pays {readings : Scanner.Readings} {evictNow now : Nat}
    (pays : ∀ readings numTiers m target now p,
      Scanner.asks policy readings numTiers m = some target →
      (if counts ⟨p, m.pageLayer, target, now⟩ then 1 else 0) + weight (m.moved target now) ≤
        weight m)
    (h : Round policy t readings evictNow now t') (p : PageId) :
    (((Activity.scan readings evictNow now).moves policy t).countP
        fun mv => mv.page = p && counts mv) + t'.left weight p ≤ t.left weight p := by
  unfold left
  cases h with
  | rested records moves refused =>
    rw [moves, records, List.countP_nil, Nat.zero_add]
  | @moved m target found asked room records moves =>
    rw [moves, records, List.countP_singleton]
    by_cases hp : p = t.scanIndex
    · rw [if_pos hp, hp, found]
      simpa using pays readings t.serverConfig.numTiers m target now t.scanIndex asked
    · simp [hp, Ne.symm hp]

/-- **What a page's migrations cost, it had to spend.** -/
theorem spent_le
    (pays : ∀ readings numTiers m target now p,
      Scanner.asks policy readings numTiers m = some target →
      (if counts ⟨p, m.pageLayer, target, now⟩ then 1 else 0) + weight (m.moved target now) ≤
        weight m)
    (h : t₀.Coherent) (run : Trace (Acts policy) t₀ es t) (idle : ∀ e ∈ es, e.2.isScan = true)
    (p : PageId) :
    ((migrations policy es).countP fun mv => mv.page = p && counts mv) ≤ t₀.left weight p := by
  have hpaid : (es.map fun e =>
      (e.2.moves policy e.1).countP fun mv => mv.page = p && counts mv).sum + t.left weight p ≤
        t₀.left weight p := by
    refine run.potential (P := Coherent) (f := fun t => t.left weight p) ?_ h
    rintro s ⟨s₀, e⟩ he s' hs hstep
    refine ⟨(hs.acts hstep).1, ?_⟩
    obtain ⟨rfl, hdone⟩ := hstep
    cases e with
    | access => cases idle _ he
    | scan readings evictNow now => exact (hs.round hdone).pays pays p
  unfold migrations
  rw [List.countP_flatMap]
  exact (Nat.le_add_right _ _).trans hpaid

/-- What a run has migrated so far is in the table it started with. -/
structure MigratesInside (policy : PolicyVariant) (t₀ : PageTable)
    (es : List (PageTable × Activity)) (t : PageTable) : Prop where
  coherent : t.Coherent
  pages : ∀ q, (t.meta? q).isSome = (t₀.meta? q).isSome
  migrated : ∀ mv ∈ migrations policy es, (t₀.meta? mv.page).isSome = true

/-- **The step lemma.** -/
theorem MigratesInside.step {e : PageTable × Activity} (h : MigratesInside policy t₀ es t)
    (hstep : Acts policy t e t') : MigratesInside policy t₀ (es ++ [e]) t' := by
  obtain ⟨hcoherent, hpages⟩ := h.coherent.acts hstep
  refine ⟨hcoherent, fun q => (hpages q).trans (h.pages q), ?_⟩
  obtain ⟨t, e⟩ := e
  obtain ⟨rfl, hdone⟩ := hstep
  intro mv hmv
  unfold migrations at hmv
  rw [List.flatMap_append, List.mem_append, List.flatMap_singleton] at hmv
  rcases hmv with hold | hnew
  · exact h.migrated mv hold
  · cases e with
    | access => cases hnew
    | scan readings evictNow now =>
      cases h.coherent.round hdone with
      | rested records moves refused =>
        rw [moves] at hnew
        cases hnew
      | moved found asked room records moves =>
        rw [moves, List.mem_singleton] at hnew
        rw [hnew, ← h.pages]
        obtain ⟨m, hm, _⟩ := Option.map_eq_some_iff.mp found
        rw [hm]
        rfl

/-- **Only pages of the table are migrated.** -/
theorem mem_of_migrated (h : t₀.Coherent) (run : Trace (Acts policy) t₀ es t) {mv : Move}
    (hmv : mv ∈ migrations policy es) : mv.page ∈ t₀.table := by
  have hstart : MigratesInside policy t₀ [] t₀ := ⟨h, fun _ => rfl, nofun⟩
  have hrun := run.invariant_with (fun _ _ _ _ h hstep => h.step hstep) hstart
  have hsome := hrun.migrated mv hmv
  rw [meta?, Option.isSome_map] at hsome
  exact AList.lookup_isSome.mp hsome

end Budgets

/-! ## The frequency policy -/

section Frequency

variable {freq : FrequencyPolicyConfig}

/-- The migrations a page can still complete. -/
def budget (m : PageMetadata) : Nat :=
  if m.accessCnt = 0 then PageLayer.pmem.depth - m.pageLayer.depth else 3

/-- The promotions among them. -/
def promotionBudget (m : PageMetadata) : Nat := if m.accessCnt = 0 then 0 else 1

theorem budget_le (m : PageMetadata) : budget m ≤ 3 := by
  unfold budget
  split
  · exact (Nat.sub_le _ _).trans (by decide)
  · exact Nat.le_refl 3

theorem promotionBudget_le (m : PageMetadata) : promotionBudget m ≤ 1 := by
  unfold promotionBudget
  split <;> decide

/-- A count of zero is cold. -/
theorem classifyPage_zero (hot : 1 ≤ freq.hotAccessCount) (readings : Scanner.Readings)
    (lastAccessTime : UInt64) :
    Scanner.classifyPage (.frequency freq) readings lastAccessTime 0 = .cold ∧
      Scanner.classifyHotPage (.frequency freq) readings.again lastAccessTime 0 = false := by
  have hpositive : ¬ freq.hotAccessCount ≤ 0 := by
    rw [UInt64.le_iff_toNat_le] at hot ⊢
    exact Nat.not_le.mpr hot
  have hcold : (0 : UInt64) ≤ freq.coldAccessCount := by
    rw [UInt64.le_iff_toNat_le]
    exact Nat.zero_le _
  simp [Scanner.classifyPage, Scanner.classifyHotPage, Scanner.classifyColdPage, hpositive, hcold]

/-- **A page with a count of zero only goes down.** -/
theorem asks_zero (hot : 1 ≤ freq.hotAccessCount) {readings : Scanner.Readings} {numTiers : Nat}
    {m : PageMetadata} {target : PageLayer} (hzero : m.accessCnt = 0)
    (h : Scanner.asks (.frequency freq) readings numTiers m = some target) :
    m.pageLayer.depth < target.depth := by
  obtain ⟨hcold, hnot⟩ := classifyPage_zero hot readings m.lastAccessTimeMs
  unfold Scanner.asks at h
  rw [hzero, hcold, hnot] at h
  cases hlayer : m.pageLayer with
  | numaLocal =>
    rw [hlayer] at h
    simp only [Scanner.targetLayer, if_true, Option.some.injEq] at h
    rw [← h]
    split <;> decide
  | numaRemote =>
    rw [hlayer] at h
    cases h
    decide
  | pmem =>
    rw [hlayer] at h
    cases h

theorem PageLayer.depth_le (layer : PageLayer) : layer.depth ≤ PageLayer.pmem.depth := by
  cases layer <;> decide

/-- A migration is paid for, whatever the count was. -/
theorem budget_pays (hot : 1 ≤ freq.hotAccessCount) {readings : Scanner.Readings} {numTiers : Nat}
    {m : PageMetadata} {target : PageLayer} {now : Nat}
    (h : Scanner.asks (.frequency freq) readings numTiers m = some target) :
    1 + budget (m.moved target now) ≤ budget m := by
  have hmoved : budget (m.moved target now) = PageLayer.pmem.depth - target.depth := if_pos rfl
  have htarget := PageLayer.depth_le target
  rw [hmoved]
  unfold budget
  split
  next hzero =>
    have hdown := asks_zero hot hzero h
    omega
  next => exact Nat.add_le_add_left (Nat.sub_le _ _) 1

/-- So is a promotion. -/
theorem promotionBudget_pays (hot : 1 ≤ freq.hotAccessCount) {readings : Scanner.Readings}
    {numTiers : Nat} {m : PageMetadata} {target : PageLayer} {now : Nat} (p : PageId)
    (h : Scanner.asks (.frequency freq) readings numTiers m = some target) :
    (if Move.promotes ⟨p, m.pageLayer, target, now⟩ then 1 else 0) +
      promotionBudget (m.moved target now) ≤ promotionBudget m := by
  have hmoved : promotionBudget (m.moved target now) = 0 := if_pos rfl
  rw [hmoved, promotionBudget]
  by_cases hzero : m.accessCnt = 0
  · have hdown := asks_zero hot hzero h
    rw [if_pos hzero, Move.promotes, if_neg (by simpa using hdown.le)]
  · rw [if_neg hzero]
    split <;> decide

/-- **The scanner comes to rest under the frequency policy.** While nobody accesses a page, however
many rounds there are, each page completes at most three migrations, and one to a faster tier. -/
theorem frequency_comes_to_rest {t₀ t : PageTable} {es : List (PageTable × Activity)}
    (hot : 1 ≤ freq.hotAccessCount) (ringless : t₀.localCacheRing = none)
    (run : Trace (Acts (.frequency freq)) t₀ es t) (idle : ∀ e ∈ es, e.2.isScan = true) :
    (∀ p, ((migrations (.frequency freq) es).countP fun mv => mv.page = p) ≤ 3 ∧
        ((migrations (.frequency freq) es).countP fun mv => mv.page = p && mv.promotes) ≤ 1) ∧
      (migrations (.frequency freq) es).length ≤ 3 * t₀.table.size := by
  have hmoves : ∀ p, ((migrations (.frequency freq) es).countP fun mv => mv.page = p) ≤ 3 := by
    intro p
    have hspent : ((migrations (.frequency freq) es).countP fun mv => mv.page = p && true) ≤
        t₀.left budget p :=
      spent_le (fun _ _ _ _ _ _ h => budget_pays hot h) (.inl ringless) run idle p
    simp only [Bool.and_true] at hspent
    exact hspent.trans (left_le budget_le t₀ p)
  have hpromotions : ∀ p,
      ((migrations (.frequency freq) es).countP fun mv => mv.page = p && mv.promotes) ≤ 1 := by
    intro p
    have hspent : ((migrations (.frequency freq) es).countP fun mv => mv.page = p && mv.promotes) ≤
        t₀.left promotionBudget p :=
      spent_le (fun _ _ _ _ _ p h => promotionBudget_pays hot p h) (.inl ringless) run idle p
    exact hspent.trans (left_le promotionBudget_le t₀ p)
  refine ⟨fun p => ⟨hmoves p, hpromotions p⟩, ?_⟩
  have hlength := Table.length_le_of_count_le (t := t₀.table) (k := 3)
    (l := (migrations (.frequency freq) es).map (·.page)) ?_ ?_
  · rwa [List.length_map] at hlength
  · intro p hp
    obtain ⟨mv, hmv, rfl⟩ := List.mem_map.mp hp
    exact mem_of_migrated (.inl ringless) run hmv
  · intro p
    rw [List.count, List.countP_map]
    exact (List.countP_congr fun mv _ => by simp).trans_le (hmoves p)

/-- Two rounds over the two pages: the local page meets a full remote tier, the remote page goes
down. -/
theorem first_rounds_come_to_rest : ∃ t₀ t₁ t : PageTable,
    (smallConfig 1 1 (by decide)).start false plainAllocation = .ok t₀ ∧
    Trace (Acts (.frequency ⟨1, 0⟩)) t₀
      [(t₀, .scan ⟨0, 0, 0⟩ 0 0), (t₁, .scan ⟨0, 0, 0⟩ 0 0)] t ∧
    t.layer? 1 = some .pmem ∧
    (migrations (.frequency ⟨1, 0⟩)
      [(t₀, .scan ⟨0, 0, 0⟩ 0 0), (t₁, .scan ⟨0, 0, 0⟩ 0 0)]).length ≤ 3 * t₀.table.size := by
  have hrun : ∃ t₀ t₁ t : PageTable,
      (smallConfig 1 1 (by decide)).start false plainAllocation = .ok t₀ ∧
      Trace (Acts (.frequency ⟨1, 0⟩)) t₀
        [(t₀, .scan ⟨0, 0, 0⟩ 0 0), (t₁, .scan ⟨0, 0, 0⟩ 0 0)] t ∧
      t.layer? 1 = some .pmem ∧ t₀.localCacheRing = none :=
    ⟨_, _, _, rfl, .cons ⟨rfl, rfl⟩ (Trace.single.mpr ⟨rfl, rfl⟩), rfl, rfl⟩
  obtain ⟨t₀, t₁, t, start, run, hlayer, ringless⟩ := hrun
  exact ⟨t₀, t₁, t, start, run, hlayer,
    (frequency_comes_to_rest (by decide) ringless run (by simp [Activity.isScan])).2⟩

end Frequency

end PageTable

end MemoryTiering
