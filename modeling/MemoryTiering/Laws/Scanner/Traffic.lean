import MemoryTiering.Laws.Scanner.Frequency
import Mathlib.Algebra.BigOperators.Ring.List

/-!
# Accesses pay for migrations

Under the frequency policy a page goes to a faster tier only with a count above both thresholds'
reach, and a migration takes the whole count away. So each promotion has cost the clients that many
accesses (`price`), and since a page goes down no more often than it has come up, with two levels to
start with, so have all of its migrations, three for the price. This bounds the traffic of every
run, with any clock, any tiers and any accesses between the rounds.
-/

set_option autoImplicit false

namespace MemoryTiering

open Transition

/-- The least count with which a page is promoted: hot, or not cold any more. -/
def FrequencyPolicyConfig.price (freq : FrequencyPolicyConfig) : Nat :=
  min freq.hotAccessCount.toNat (freq.coldAccessCount.toNat + 1)

namespace PageTable

/-- The activity accesses the page. -/
def Activity.accesses (p : PageId) : Activity → Bool
  | .access _ _ pageId _ => pageId = p
  | .scan .. => false

/-! ## Charges -/

section Charges

variable {policy : PolicyVariant} {t₀ t t' : PageTable} {es : List (PageTable × Activity)}
  {weight : PageMetadata → Nat} {counts : Move → Bool} {price income : Nat}

/-- What a policy's migrations cost comes out of the page's weight, which an access adds to. -/
structure Charges (policy : PolicyVariant) (weight : PageMetadata → Nat) (counts : Move → Bool)
    (price income : Nat) : Prop where
  moved : ∀ readings numTiers m target now p,
    Scanner.asks policy readings numTiers m = some target →
    (if counts ⟨p, m.pageLayer, target, now⟩ then price else 0) + weight (m.moved target now) ≤
      weight m
  accessed : ∀ m now, weight (m.accessed now) ≤ weight m + income

/-- A round pays. -/
theorem Charges.round (h : Charges policy weight counts price income)
    {readings : Scanner.Readings} {evictNow now : Nat}
    (done : Round policy t readings evictNow now t') (p : PageId) :
    price * (((Activity.scan readings evictNow now).moves policy t).countP
        fun mv => mv.page = p && counts mv) + t'.left weight p ≤ t.left weight p := by
  unfold left
  cases done with
  | rested records moves refused =>
    rw [moves, records, List.countP_nil, Nat.mul_zero, Nat.zero_add]
  | @moved m target found asked room records moves =>
    rw [moves, records, List.countP_singleton]
    by_cases hp : p = t.scanIndex
    · have hpaid := h.moved readings t.serverConfig.numTiers m target now t.scanIndex asked
      rw [if_pos hp, hp, found]
      simpa using hpaid
    · simp [hp, Ne.symm hp]

/-- An access brings in. -/
theorem Charges.access (h : Charges policy weight counts price income) (coherent : t.Coherent)
    {latency : SizeT → OperationType → UInt64} {now : Nat} {pageId : PageId} {mode : OperationType}
    (done : t.accessPage latency now pageId mode = .ok t') (p : PageId) :
    t'.left weight p ≤ t.left weight p + if pageId = p then income else 0 := by
  unfold left
  cases coherent.effect (c := .accessPage latency now pageId mode) done with
  | absent missing => exact Nat.le_add_right _ _
  | @accessed _ _ _ _ _ m found records counters accessTime metrics =>
    rw [records]
    by_cases hp : p = pageId
    · subst hp
      rw [if_pos rfl, if_pos rfl, found]
      exact h.accessed m now
    · rw [if_neg hp, if_neg (Ne.symm hp), Nat.add_zero]

/-- **The step lemma.** -/
theorem Charges.acts (h : Charges policy weight counts price income) (coherent : t.Coherent)
    {e : PageTable × Activity} (hstep : Acts policy t e t') (p : PageId) :
    price * ((e.2.moves policy e.1).countP fun mv => mv.page = p && counts mv) +
        t'.left weight p ≤
      t.left weight p + income * if e.2.accesses p then 1 else 0 := by
  obtain ⟨t, e⟩ := e
  obtain ⟨rfl, hdone⟩ := hstep
  cases e with
  | access latency now pageId mode =>
    have haccess := h.access coherent hdone p
    simpa [Activity.moves, Activity.accesses] using haccess
  | scan readings evictNow now =>
    have hround := h.round (coherent.round hdone) p
    simpa [Activity.accesses] using hround

/-- A count is a sum over the list. -/
theorem sum_map_ite_eq_countP {α : Type} (p : α → Bool) (l : List α) :
    (l.map fun a => if p a then 1 else 0).sum = l.countP p := by
  induction l with
  | nil => rfl
  | cons a l ih => rw [List.map_cons, List.sum_cons, ih, List.countP_cons, Nat.add_comm]

/-- **What the migrations of a page cost, the page had or its accesses brought in.** -/
theorem Charges.run (h : Charges policy weight counts price income) (coherent : t₀.Coherent)
    (run : Trace (Acts policy) t₀ es t) (p : PageId) :
    price * ((migrations policy es).countP fun mv => mv.page = p && counts mv) ≤
      t₀.left weight p + income * es.countP fun e => e.2.accesses p := by
  have hpays : ∀ s e s', s.Coherent → Acts policy s e s' → s'.Coherent ∧
      price * ((e.2.moves policy e.1).countP fun mv => mv.page = p && counts mv) +
          s'.left weight p ≤
        s.left weight p + income * if e.2.accesses p then 1 else 0 :=
    fun s e s' hs hstep => ⟨(hs.acts hstep).1, h.acts hs hstep p⟩
  have hpaid := run.financed (f := fun t => t.left weight p) hpays coherent
  rw [List.sum_map_mul_left, List.sum_map_mul_left, sum_map_ite_eq_countP] at hpaid
  unfold migrations
  rw [List.countP_flatMap]
  exact (Nat.le_add_right _ _).trans hpaid

end Charges

/-! ## The frequency policy -/

section Frequency

variable {freq : FrequencyPolicyConfig}

/-- The price of a migration for each level a page can still go down, and of three for each access
its count shows. -/
def reserve (price : Nat) (m : PageMetadata) : Nat :=
  price * (PageLayer.pmem.depth - m.pageLayer.depth) + 3 * m.accessCnt.toNat

/-- A page that is hot has been accessed for the price. -/
theorem price_le_of_hot {now : Nat} {last : UInt64} {cnt : UInt32}
    (h : Scanner.classifyHotPage (.frequency freq) now last cnt = true) :
    freq.price ≤ cnt.toNat := by
  simp only [Scanner.classifyHotPage, decide_eq_true_eq, UInt64.le_iff_toNat_le,
    UInt32.toNat_toUInt64] at h
  exact (Nat.min_le_left _ _).trans h

/-- So has a page that is not cold. -/
theorem price_le_of_not_cold {now : Nat} {last : UInt64} {cnt : UInt32}
    (h : Scanner.classifyColdPage (.frequency freq) now last cnt = false) :
    freq.price ≤ cnt.toNat := by
  simp only [Scanner.classifyColdPage, decide_eq_false_iff_not, UInt64.le_iff_toNat_le,
    UInt32.toNat_toUInt64, Nat.not_le] at h
  exact (Nat.min_le_right _ _).trans h

/-- **A page goes down, or up for the price.** -/
theorem asks_priced {readings : Scanner.Readings} {numTiers : Nat} {m : PageMetadata}
    {target : PageLayer} (h : Scanner.asks (.frequency freq) readings numTiers m = some target) :
    m.pageLayer.depth < target.depth ∨
      (target.depth < m.pageLayer.depth ∧ freq.price ≤ m.accessCnt.toNat) := by
  rcases Scanner.targetLayer_cases h with ⟨_, hdown⟩ | ⟨hstatus, hup⟩
  · exact .inl hdown
  · refine .inr ⟨hup, ?_⟩
    unfold Scanner.classifyPage at hstatus
    split at hstatus
    next hhot => exact price_le_of_hot hhot
    next =>
      split at hstatus
      next hcold => exact price_le_of_not_cold (by simpa using hcold)
      next => exact (hstatus rfl).elim

/-- One access more. -/
theorem toNat_accessCnt_accessed (m : PageMetadata) (now : Nat) :
    (m.accessed now).accessCnt.toNat ≤ m.accessCnt.toNat + 1 := by
  show (m.accessCnt + 1).toNat ≤ _
  rw [UInt32.toNat_add]
  exact Nat.mod_le _ _

/-- A promotion takes the price out of the page's count. -/
theorem charges_promotions (freq : FrequencyPolicyConfig) :
    Charges (.frequency freq) (fun m => m.accessCnt.toNat) Move.promotes freq.price 1 where
  moved readings numTiers m target now p h := by
    have hmoved : (m.moved target now).accessCnt.toNat = 0 := rfl
    rw [hmoved, Nat.add_zero]
    split
    next hup =>
      rcases asks_priced h with hdown | ⟨_, hprice⟩
      · exact absurd (of_decide_eq_true hup) hdown.le.not_gt
      · exact hprice
    next => exact Nat.zero_le _
  accessed := toNat_accessCnt_accessed

/-- Any migration takes the price out of the page's reserve: one that goes down a level, one that
goes up three of the price, of which two pay for the levels. -/
theorem charges_migrations (freq : FrequencyPolicyConfig) :
    Charges (.frequency freq) (reserve freq.price) (fun _ => true) freq.price 3 where
  moved readings numTiers m target now p h := by
    have hmoved : reserve freq.price (m.moved target now) =
        freq.price * (PageLayer.pmem.depth - target.depth) := Nat.add_zero _
    have hbottom := PageLayer.depth_le target
    rw [hmoved, if_pos rfl, reserve]
    rcases asks_priced h with hdown | ⟨hup, hprice⟩
    · obtain ⟨levels, hlevels⟩ := Nat.exists_eq_add_of_lt hdown
      have hleft : PageLayer.pmem.depth - m.pageLayer.depth =
          PageLayer.pmem.depth - target.depth + (levels + 1) := by omega
      rw [hleft, Nat.mul_add, Nat.mul_succ]
      omega
    · have hlevels : PageLayer.pmem.depth - target.depth ≤ 2 := Nat.sub_le _ _
      have hpaid := Nat.mul_le_mul_left freq.price hlevels
      omega
  accessed m now := by
    have haccess := toNat_accessCnt_accessed m now
    show freq.price * (PageLayer.pmem.depth - m.pageLayer.depth) + _ ≤ reserve freq.price m + 3
    unfold reserve
    omega

/-- What a page's count shows at the start. -/
def countAt (t : PageTable) (p : PageId) : Nat := t.left (fun m => m.accessCnt.toNat) p

theorem left_reserve_le (t : PageTable) (p : PageId) (price : Nat) :
    t.left (reserve price) p ≤ 2 * price + 3 * t.countAt p := by
  unfold countAt left
  cases t.record? p with
  | none => exact Nat.zero_le _
  | some m =>
    have hlevels : PageLayer.pmem.depth - m.pageLayer.depth ≤ 2 := Nat.sub_le _ _
    have hpaid := Nat.mul_le_mul_left price hlevels
    show reserve price m ≤ 2 * price + 3 * m.accessCnt.toNat
    unfold reserve
    omega

/-- **Accesses pay for migrations.** In every run under the frequency policy the promotions of a
page, times the price, come to no more than the accesses to it and what its count showed at the
start; and all its migrations, but for two, to no more than three times that. -/
theorem accesses_pay_for_migrations {t₀ t : PageTable} {es : List (PageTable × Activity)}
    {config : AcceptedConfig} {ring : Bool} {alloc : Allocation}
    (start : config.start ring alloc = .ok t₀) (run : Trace (Acts (.frequency freq)) t₀ es t)
    (p : PageId) :
    freq.price *
        ((migrations (.frequency freq) es).countP fun mv => mv.page = p && mv.promotes) ≤
      t₀.countAt p + es.countP (fun e => e.2.accesses p) ∧
    freq.price * ((migrations (.frequency freq) es).countP fun mv => mv.page = p) ≤
      2 * freq.price + 3 * (t₀.countAt p + es.countP fun e => e.2.accesses p) := by
  have hcoherent : t₀.Coherent := (AcceptedConfig.initial start).coherent
  constructor
  · have hpromotions := (charges_promotions freq).run hcoherent run p
    rwa [Nat.one_mul] at hpromotions
  · have hmigrations := (charges_migrations freq).run hcoherent run p
    simp only [Bool.and_true] at hmigrations
    have hreserve := left_reserve_le t₀ p freq.price
    omega

/-- Two accesses, for a price of two, bring the remote page to NUMA-local memory. -/
theorem two_accesses_pay : ∃ (t₀ t : PageTable) (es : List (PageTable × Activity)),
    (smallConfig 2 1 (by decide)).start false plainAllocation = .ok t₀ ∧
    Trace (Acts (.frequency ⟨2, 1⟩)) t₀ es t ∧ es.map (·.2.isScan) = [false, false, true, true] ∧
    t.layer? 1 = some .numaLocal ∧
    2 * ((migrations (.frequency ⟨2, 1⟩) es).countP fun mv => mv.page = 1 && mv.promotes) ≤
      t₀.countAt 1 + es.countP fun e => e.2.accesses 1 := by
  have hrun : ∃ t₀ t₁ t₂ t₃ t : PageTable,
      (smallConfig 2 1 (by decide)).start false plainAllocation = .ok t₀ ∧
      Trace (Acts (.frequency ⟨2, 1⟩)) t₀
        [(t₀, .access (fun _ _ => 0) 0 1 .read), (t₁, .access (fun _ _ => 0) 0 1 .read),
          (t₂, .scan ⟨0, 0, 0⟩ 0 0), (t₃, .scan ⟨0, 0, 0⟩ 0 0)] t ∧
      t.layer? 1 = some .numaLocal :=
    ⟨_, _, _, _, _, rfl, .cons ⟨rfl, rfl⟩ (.cons ⟨rfl, rfl⟩ (.cons ⟨rfl, rfl⟩
      (Trace.single.mpr ⟨rfl, rfl⟩))), rfl⟩
  obtain ⟨t₀, t₁, t₂, t₃, t, start, run, hlayer⟩ := hrun
  exact ⟨t₀, t, _, start, run, rfl, hlayer, (accesses_pay_for_migrations start run 1).1⟩

end Frequency

end PageTable

end MemoryTiering
