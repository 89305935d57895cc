import MemoryTiering.Policy
import Mathlib.Tactic.Linarith

/-!
# How hot a page is

`classifyPage` grades a page by its age and its access count, through a hot and a cold test. Each
policy's hot test holds of younger and busier pages all the more, its cold test all the less, so the
grade is monotone (`classifyPage_mono`), whatever the thresholds. The tests exclude each other under
ordered thresholds, but for a hybrid policy with equal weights whose two kinds of evidence disagree
(`hot_cold_exclusive_iff`).
-/

set_option autoImplicit false

namespace MemoryTiering

/-- The order of the grades: cold, warm, hot. -/
def PageStatus.heat : PageStatus → Nat
  | .cold => 0
  | .warm => 1
  | .hot => 2

/-- Hybrid weights are not negative. -/
def PolicyVariant.NonnegWeights : PolicyVariant → Prop
  | .hybrid config => 0 ≤ config.weightRecency ∧ 0 ≤ config.weightFrequency
  | _ => True

/-- Hybrid weights are positive. -/
def PolicyVariant.PositiveWeights : PolicyVariant → Prop
  | .hybrid config => 0 < config.weightRecency ∧ 0 < config.weightFrequency
  | _ => True

/-- A page gets hot before it gets cold, in time and in accesses. -/
def PolicyVariant.Ordered : PolicyVariant → Prop
  | .lru config => config.hotThresholdMs < config.coldThresholdMs
  | .frequency config => config.coldAccessCount < config.hotAccessCount
  | .hybrid config =>
    config.hotThresholdMs < config.coldThresholdMs ∧
      config.coldAccessCount < config.hotAccessCount

namespace Scanner

/-- Every test of a round reads the same time. -/
def Readings.single (now : Nat) : Readings := ⟨now, now, now⟩

/-- `classifyPage` with its two tests the other way around. -/
def classifyPageColdFirst (policy : PolicyVariant) (now : Nat) (lastAccessTime : UInt64)
    (accessCount : UInt32) : PageStatus :=
  if classifyColdPage policy now lastAccessTime accessCount then .cold
  else if !classifyHotPage policy now lastAccessTime accessCount then .warm
  else .hot

/-- Nothing is hotter than hot. -/
theorem heat_le_two (status : PageStatus) : status.heat ≤ 2 := by
  cases status <;> decide

/-! ## The two tests -/

/-- A stamp that is not in the future makes the difference an age. -/
theorem toNat_timeSinceLastAccess {now : Nat} {last : UInt64} (h : last ≤ milliseconds now) :
    (timeSinceLastAccess now last).toNat = (milliseconds now).toNat - last.toNat :=
  UInt64.toNat_sub_of_le _ _ h

/-- A later access leaves a page younger. -/
theorem timeSinceLastAccess_anti {now : Nat} {last last' : UInt64} (h : last' ≤ last)
    (past : last ≤ milliseconds now) :
    timeSinceLastAccess now last ≤ timeSinceLastAccess now last' := by
  rw [UInt64.le_iff_toNat_le, toNat_timeSinceLastAccess past,
    toNat_timeSinceLastAccess (UInt64.le_trans h past)]
  exact Nat.sub_le_sub_left (UInt64.le_iff_toNat_le.mp h) _

theorem toUInt64_mono {cnt cnt' : UInt32} (h : cnt' ≤ cnt) : cnt'.toUInt64 ≤ cnt.toUInt64 := by
  rw [UInt64.le_iff_toNat_le, UInt32.toNat_toUInt64, UInt32.toNat_toUInt64]
  exact UInt32.le_iff_toNat_le.mp h

/-- **The vote**, by who votes for it. -/
theorem hybridScore_iff (config : HybridPolicyConfig) (recent frequent : Bool) :
    hybridScore config recent frequent = true ↔
      match recent, frequent with
      | true, true => 0 ≤ config.weightRecency + config.weightFrequency
      | true, false => config.weightFrequency ≤ config.weightRecency
      | false, true => config.weightRecency ≤ config.weightFrequency
      | false, false => config.weightRecency + config.weightFrequency ≤ 0 := by
  unfold hybridScore
  rw [decide_eq_true_iff]
  cases recent <;> cases frequent <;>
    simp only [if_true, Bool.false_eq_true, if_false, add_zero, zero_add] <;>
    constructor <;> intro h <;> linarith

/-- A vote more is no less. -/
theorem score_mono {weight : ℚ} (hw : 0 ≤ weight) {vote vote' : Bool}
    (h : vote = true → vote' = true) :
    (if vote then weight else 0) ≤ if vote' then weight else 0 := by
  cases vote with
  | true => rw [h rfl]
  | false =>
    cases vote' with
    | true => exact hw
    | false => exact le_rfl

/-- One more vote does not turn the result down. -/
theorem hybridScore_mono {config : HybridPolicyConfig} (hr : 0 ≤ config.weightRecency)
    (hf : 0 ≤ config.weightFrequency) {recent recent' frequent frequent' : Bool}
    (hrecent : recent = true → recent' = true) (hfrequent : frequent = true → frequent' = true)
    (h : hybridScore config recent frequent = true) :
    hybridScore config recent' frequent' = true := by
  have hhalf := of_decide_eq_true h
  have hscores := add_le_add (score_mono hr hrecent) (score_mono hf hfrequent)
  exact decide_eq_true (hhalf.trans hscores)

section Monotone

variable {policy : PolicyVariant} {now : Nat} {lastA lastB : UInt64} {cntA cntB : UInt32}

/-- A page accessed later and more often is hot if the other one is. -/
theorem classifyHotPage_mono (weights : policy.NonnegWeights) (past : lastA ≤ milliseconds now)
    (recent : lastB ≤ lastA) (frequent : cntB ≤ cntA)
    (h : classifyHotPage policy now lastB cntB = true) :
    classifyHotPage policy now lastA cntA = true := by
  have hage := timeSinceLastAccess_anti recent past
  have hcnt := toUInt64_mono frequent
  cases policy with
  | lru lru => exact decide_eq_true (UInt64.le_trans hage (of_decide_eq_true h))
  | frequency freq => exact decide_eq_true (UInt64.le_trans (of_decide_eq_true h) hcnt)
  | hybrid hybrid =>
    refine hybridScore_mono weights.1 weights.2 ?_ ?_ h
    · intro hyoung
      exact decide_eq_true (UInt64.le_trans hage (of_decide_eq_true hyoung))
    · intro hbusy
      exact decide_eq_true (UInt64.le_trans (of_decide_eq_true hbusy) hcnt)

/-- A page accessed later and more often is cold only if the other one is. -/
theorem classifyColdPage_anti (weights : policy.NonnegWeights) (past : lastA ≤ milliseconds now)
    (recent : lastB ≤ lastA) (frequent : cntB ≤ cntA)
    (h : classifyColdPage policy now lastA cntA = true) :
    classifyColdPage policy now lastB cntB = true := by
  have hage := timeSinceLastAccess_anti recent past
  have hcnt := toUInt64_mono frequent
  cases policy with
  | lru lru => exact decide_eq_true (UInt64.le_trans (of_decide_eq_true h) hage)
  | frequency freq => exact decide_eq_true (UInt64.le_trans hcnt (of_decide_eq_true h))
  | hybrid hybrid =>
    refine hybridScore_mono weights.1 weights.2 ?_ ?_ h
    · intro hold
      exact decide_eq_true (UInt64.le_trans (of_decide_eq_true hold) hage)
    · intro hidle
      exact decide_eq_true (UInt64.le_trans hcnt (of_decide_eq_true hidle))

/-- Grades follow the tests: easier to be hot and harder to be cold is no cooler. -/
theorem heat_le_of_tests {readings : Readings}
    (hot : classifyHotPage policy readings.hot lastB cntB = true →
      classifyHotPage policy readings.hot lastA cntA = true)
    (cold : classifyColdPage policy readings.cold lastA cntA = true →
      classifyColdPage policy readings.cold lastB cntB = true) :
    (classifyPage policy readings lastB cntB).heat ≤
      (classifyPage policy readings lastA cntA).heat := by
  unfold classifyPage
  by_cases hhotA : classifyHotPage policy readings.hot lastA cntA = true
  · rw [if_pos hhotA]
    exact heat_le_two _
  · rw [if_neg hhotA, if_neg fun hhotB => hhotA (hot hhotB)]
    cases hcoldA : classifyColdPage policy readings.cold lastA cntA with
    | true => rw [cold hcoldA]
    | false => cases classifyColdPage policy readings.cold lastB cntB <;> decide

/-- **Classification is monotone**: at one time, a page accessed no earlier and no less often than
another is at least as hot, under every policy. -/
theorem classifyPage_mono (weights : policy.NonnegWeights) (past : lastA ≤ milliseconds now)
    (recent : lastB ≤ lastA) (frequent : cntB ≤ cntA) :
    (classifyPage policy (.single now) lastB cntB).heat ≤
      (classifyPage policy (.single now) lastA cntA).heat :=
  heat_le_of_tests (classifyHotPage_mono weights past recent frequent)
    (classifyColdPage_anti weights past recent frequent)

/-- Thresholds that cross: a page is hot for a second and cold after half of one. -/
def crossedHybrid : PolicyVariant := .hybrid ⟨1000, 500, 2, 4, 1 / 3, 2 / 3⟩

theorem crossed_thresholds_monotone :
    crossedHybrid.NonnegWeights ∧ (1400 : UInt64) ≤ milliseconds 2000000000 ∧
      (classifyPage crossedHybrid (.single 2000000000) 900 1).heat ≤
        (classifyPage crossedHybrid (.single 2000000000) 1400 3).heat := by
  have weights : crossedHybrid.NonnegWeights := by
    constructor
    · show (0 : ℚ) ≤ 1 / 3
      norm_num
    · show (0 : ℚ) ≤ 2 / 3
      norm_num
  exact ⟨weights, by decide, classifyPage_mono weights (by decide) (by decide) (by decide)⟩

end Monotone

/-! ## Two tests at once -/

section Exclusive

variable {policy : PolicyVariant} {now : Nat} {last : UInt64} {cnt : UInt32}

/-- Equal weights, and the page is young but idle, or old but busy. -/
def Tied (policy : PolicyVariant) (now : Nat) (last : UInt64) (cnt : UInt32) : Prop :=
  match policy with
  | .hybrid hybrid =>
    hybrid.weightRecency = hybrid.weightFrequency ∧
      ((timeSinceLastAccess now last ≤ hybrid.hotThresholdMs ∧
          cnt.toUInt64 ≤ hybrid.coldAccessCount) ∨
        (hybrid.coldThresholdMs ≤ timeSinceLastAccess now last ∧
          hybrid.hotAccessCount ≤ cnt.toUInt64))
  | _ => False

/-- Two votes of which nobody takes part in both come out together exactly in a tie. -/
theorem hybridScore_both_iff {config : HybridPolicyConfig} (hr : 0 < config.weightRecency)
    (hf : 0 < config.weightFrequency) {young busy old idle : Bool}
    (time : ¬ (young = true ∧ old = true)) (count : ¬ (idle = true ∧ busy = true)) :
    (hybridScore config young busy = true ∧ hybridScore config old idle = true) ↔
      config.weightRecency = config.weightFrequency ∧
        ((young = true ∧ idle = true) ∨ (old = true ∧ busy = true)) := by
  have hsum : ¬ config.weightRecency + config.weightFrequency ≤ 0 := not_le.mpr (add_pos hr hf)
  rw [hybridScore_iff, hybridScore_iff, le_antisymm_iff]
  cases young <;> cases busy <;> cases old <;> cases idle <;> simp_all [and_comm]

/-- No page is too young and too old, under ordered thresholds. -/
theorem not_both_sides {low high x : UInt64} (h : low < high) : ¬ (x ≤ low ∧ high ≤ x) := by
  rintro ⟨hlow, hhigh⟩
  exact absurd (UInt64.le_trans hhigh hlow) (UInt64.not_le.mpr h)

/-- Both tests are true in a tie and nowhere else. -/
theorem hot_and_cold_iff (ordered : policy.Ordered) (weights : policy.PositiveWeights) :
    (classifyHotPage policy now last cnt = true ∧ classifyColdPage policy now last cnt = true) ↔
      Tied policy now last cnt := by
  cases policy with
  | lru lru =>
    refine iff_of_false ?_ id
    rintro ⟨hhot, hcold⟩
    exact not_both_sides ordered ⟨of_decide_eq_true hhot, of_decide_eq_true hcold⟩
  | frequency freq =>
    refine iff_of_false ?_ id
    rintro ⟨hhot, hcold⟩
    exact not_both_sides ordered ⟨of_decide_eq_true hcold, of_decide_eq_true hhot⟩
  | hybrid hybrid =>
    have htime : ¬ (decide (timeSinceLastAccess now last ≤ hybrid.hotThresholdMs) = true ∧
        decide (hybrid.coldThresholdMs ≤ timeSinceLastAccess now last) = true) := by
      simpa only [decide_eq_true_iff] using not_both_sides ordered.1
    have hcount : ¬ (decide (cnt.toUInt64 ≤ hybrid.coldAccessCount) = true ∧
        decide (hybrid.hotAccessCount ≤ cnt.toUInt64) = true) := by
      simpa only [decide_eq_true_iff] using not_both_sides ordered.2
    have hvotes := hybridScore_both_iff weights.1 weights.2 htime hcount
    simp only [decide_eq_true_iff] at hvotes
    exact hvotes

/-- **Hot and cold exclude each other** under ordered thresholds, and so the order of the two tests
does not matter, except in a tie. There both are true, and the first one decides. -/
theorem hot_cold_exclusive_iff (ordered : policy.Ordered) (weights : policy.PositiveWeights) :
    ((¬ (classifyHotPage policy now last cnt = true ∧ classifyColdPage policy now last cnt = true) ∧
        classifyPageColdFirst policy now last cnt = classifyPage policy (.single now) last cnt) ↔
      ¬ Tied policy now last cnt) ∧
    (Tied policy now last cnt →
      classifyHotPage policy now last cnt = true ∧ classifyColdPage policy now last cnt = true ∧
        classifyPage policy (.single now) last cnt = .hot) := by
  rw [← hot_and_cold_iff ordered weights]
  refine ⟨⟨And.left, fun hnot => ⟨hnot, ?_⟩⟩, fun ⟨hhot, hcold⟩ => ⟨hhot, hcold, if_pos hhot⟩⟩
  unfold classifyPageColdFirst classifyPage Readings.single
  cases hhot : classifyHotPage policy now last cnt <;>
    cases hcold : classifyColdPage policy now last cnt
  · rfl
  · rfl
  · rfl
  · exact (hnot ⟨hhot, hcold⟩).elim

/-- The defaults: half the weight each. -/
def defaultHybrid : PolicyVariant := .hybrid ⟨100, 1000, 10, 2, 1 / 2, 1 / 2⟩

theorem defaultHybrid_ordered : defaultHybrid.Ordered := ⟨by decide, by decide⟩

theorem defaultHybrid_positive : defaultHybrid.PositiveWeights := by
  have hhalf : (0 : ℚ) < 1 / 2 := by norm_num
  exact ⟨hhalf, hhalf⟩

/-- A page accessed for the first time just now is hot and cold. -/
theorem new_page_ties :
    defaultHybrid.Ordered ∧ defaultHybrid.PositiveWeights ∧
      classifyHotPage defaultHybrid 2000000000 2000 1 = true ∧
      classifyColdPage defaultHybrid 2000000000 2000 1 = true ∧
      classifyPage defaultHybrid (.single 2000000000) 2000 1 = .hot ∧
      classifyPageColdFirst defaultHybrid 2000000000 2000 1 = .cold :=
  ⟨defaultHybrid_ordered, defaultHybrid_positive, by decide +kernel⟩

/-- After a dozen accesses it is only hot. -/
theorem busy_page_hot :
    ¬ (classifyHotPage defaultHybrid 2000000000 2000 12 = true ∧
        classifyColdPage defaultHybrid 2000000000 2000 12 = true) ∧
      classifyPageColdFirst defaultHybrid 2000000000 2000 12 =
        classifyPage defaultHybrid (.single 2000000000) 2000 12 := by
  apply (hot_cold_exclusive_iff defaultHybrid_ordered defaultHybrid_positive).1.mpr
  rintro ⟨_, ⟨_, hidle⟩ | ⟨hold, _⟩⟩
  · exact absurd hidle (by decide)
  · exact absurd hold (by decide)

end Exclusive

end Scanner

end MemoryTiering
