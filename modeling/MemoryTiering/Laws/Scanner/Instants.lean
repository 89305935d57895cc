import MemoryTiering.Laws.Scanner.Recency
import MemoryTiering.Laws.Scanner.Grades

/-!
# Several looks at the clock

A round of the scanner reads the clock up to three times, and a page grows older in between. Under
the LRU policy what the round asks for is still what it would ask for at one instant between the
first reading and the last (`lru_one_instant`): where the readings straddle the hot threshold, an
instant at which the page is warm lies between them.
-/

set_option autoImplicit false

namespace MemoryTiering

namespace Scanner

section Tests

variable {lru : LRUPolicyConfig} {now now' : Nat} {last : UInt64} {cnt : UInt32}

/-- The clock's milliseconds do not go back either. -/
theorem milliseconds_mono (h : now ≤ now') (bounded : now' < 2 ^ 63) :
    milliseconds now ≤ milliseconds now' := by
  rw [UInt64.le_iff_toNat_le, PageTable.toNat_milliseconds (by omega),
    PageTable.toNat_milliseconds bounded]
  exact Nat.div_le_div_right h

theorem lru_hot_iff (past : last ≤ milliseconds now) :
    classifyHotPage (.lru lru) now last cnt = true ↔
      (milliseconds now).toNat ≤ last.toNat + lru.hotThresholdMs.toNat := by
  unfold classifyHotPage
  simp only [decide_eq_true_iff, UInt64.le_iff_toNat_le, toNat_timeSinceLastAccess past]
  omega

theorem lru_cold_iff (past : last ≤ milliseconds now) :
    classifyColdPage (.lru lru) now last cnt = true ↔
      last.toNat + lru.coldThresholdMs.toNat ≤ (milliseconds now).toNat := by
  have hpast := UInt64.le_iff_toNat_le.mp past
  unfold classifyColdPage
  simp only [decide_eq_true_iff, UInt64.le_iff_toNat_le, toNat_timeSinceLastAccess past]
  omega

/-- A page that is not hot does not get hot by itself. -/
theorem lru_not_hot_later (past : last ≤ milliseconds now) (h : now ≤ now')
    (bounded : now' < 2 ^ 63) (hnot : ¬ classifyHotPage (.lru lru) now last cnt = true) :
    ¬ classifyHotPage (.lru lru) now' last cnt = true := by
  have hle := milliseconds_mono h bounded
  rw [lru_hot_iff past] at hnot
  rw [lru_hot_iff (UInt64.le_trans past hle)]
  rw [UInt64.le_iff_toNat_le] at hle
  omega

/-- A page that is not cold was not cold before. -/
theorem lru_not_cold_before (past : last ≤ milliseconds now) (h : now ≤ now')
    (bounded : now' < 2 ^ 63) (hnot : ¬ classifyColdPage (.lru lru) now' last cnt = true) :
    ¬ classifyColdPage (.lru lru) now last cnt = true := by
  have hle := milliseconds_mono h bounded
  rw [lru_cold_iff past]
  rw [lru_cold_iff (UInt64.le_trans past hle)] at hnot
  rw [UInt64.le_iff_toNat_le] at hle
  omega

/-- Between a reading at which a page is hot and one at which it is not, there is an instant at
which it is warm, if the thresholds leave a millisecond between them. -/
theorem lru_warm_between (gap : lru.hotThresholdMs.toNat + 1 < lru.coldThresholdMs.toNat)
    (past : last ≤ milliseconds now) (h : now ≤ now') (bounded : now' < 2 ^ 63)
    (hhot : classifyHotPage (.lru lru) now last cnt = true)
    (hnot : ¬ classifyHotPage (.lru lru) now' last cnt = true) :
    ∃ instant, now ≤ instant ∧ instant ≤ now' ∧
      ¬ classifyHotPage (.lru lru) instant last cnt = true ∧
      ¬ classifyColdPage (.lru lru) instant last cnt = true := by
  rw [lru_hot_iff past, PageTable.toNat_milliseconds (by omega)] at hhot
  rw [lru_hot_iff (UInt64.le_trans past (milliseconds_mono h bounded)),
    PageTable.toNat_milliseconds bounded] at hnot
  -- the first millisecond after the hot threshold
  let instant := 1000000 * (last.toNat + lru.hotThresholdMs.toNat + 1)
  have hfirst : now ≤ instant := by omega
  have hlast : instant ≤ now' := by omega
  have hms : (milliseconds instant).toNat = last.toNat + lru.hotThresholdMs.toNat + 1 := by
    rw [PageTable.toNat_milliseconds (by omega)]
    exact Nat.mul_div_cancel_left _ (by decide)
  have hpast : last ≤ milliseconds instant := by
    rw [UInt64.le_iff_toNat_le, hms]
    omega
  refine ⟨instant, hfirst, hlast, ?_, ?_⟩
  · rw [lru_hot_iff hpast, hms]
    omega
  · rw [lru_cold_iff hpast, hms]
    omega

end Tests

/-- **One look is as good as several** under the LRU policy: whatever a round asks for, it would
ask for at one instant between its first reading of the clock and its last. -/
theorem lru_one_instant {lru : LRUPolicyConfig}
    (gap : lru.hotThresholdMs.toNat + 1 < lru.coldThresholdMs.toNat) {readings : Readings}
    (hcold : readings.hot ≤ readings.cold) (hagain : readings.cold ≤ readings.again)
    (bounded : readings.again < 2 ^ 63) (numTiers : Nat) {m : PageMetadata}
    (past : m.lastAccessTimeMs ≤ milliseconds readings.hot) :
    ∃ instant, readings.hot ≤ instant ∧ instant ≤ readings.again ∧
      asks (.lru lru) readings numTiers m = asks (.lru lru) (.single instant) numTiers m := by
  have hwhole := hcold.trans hagain
  unfold asks classifyPage Readings.single
  by_cases hhot : classifyHotPage (.lru lru) readings.hot m.lastAccessTimeMs m.accessCnt = true
  · by_cases hstill :
        classifyHotPage (.lru lru) readings.again m.lastAccessTimeMs m.accessCnt = true
    · refine ⟨readings.hot, le_rfl, hwhole, ?_⟩
      simp only [hhot, hstill, if_true]
    · obtain ⟨instant, hfirst, hlast, hnot, hwarm⟩ :=
        lru_warm_between gap past hwhole bounded hhot hstill
      cases hlayer : m.pageLayer with
      | numaRemote =>
        -- hot at the first test, no longer hot at the last: left alone, as a warm page is
        refine ⟨instant, hfirst, hlast, ?_⟩
        simp [targetLayer, hhot, hstill, hnot, hwarm]
      | numaLocal => exact ⟨readings.hot, le_rfl, hwhole, by simp [targetLayer, hhot]⟩
      | pmem => exact ⟨readings.hot, le_rfl, hwhole, by simp [targetLayer, hhot]⟩
  · have hnever := lru_not_hot_later past hwhole bounded hhot
    by_cases hold : classifyColdPage (.lru lru) readings.cold m.lastAccessTimeMs m.accessCnt = true
    · have hnot := lru_not_hot_later past hcold (by omega) hhot
      refine ⟨readings.cold, hcold, hagain, ?_⟩
      simp [hhot, hnot, hnever, hold]
    · have hwarm := lru_not_cold_before past hcold (by omega) hold
      refine ⟨readings.hot, le_rfl, hwhole, ?_⟩
      simp [hhot, hnever, hold, hwarm]

/-- A remote page that stops being hot between the tests is left alone, as at an instant when it is
warm. -/
theorem remote_page_between_tests :
    let lru : LRUPolicyConfig := ⟨100, 1000⟩
    let readings : Readings := ⟨2000000000, 2050000000, 2500000000⟩
    let m : PageMetadata := ⟨.numaRemote, 1900, 3, none⟩
    asks (.lru lru) readings 3 m = none ∧
      ∃ instant, readings.hot ≤ instant ∧ instant ≤ readings.again ∧
        asks (.lru lru) readings 3 m = asks (.lru lru) (.single instant) 3 m :=
  ⟨rfl, lru_one_instant (by decide) (by decide) (by decide) (by decide) 3 (by decide)⟩

end Scanner

end MemoryTiering
