import MemoryTiering.Laws.PageTable.Effect
import MemoryTiering.Laws.Scanner.Grades

/-!
# An access and the class of its page

An access makes its page younger and counts one more, so it leaves the page at least as hot, until
the 32-bit count wraps: then a page that was accessed four billion times looks like one that never
was. That cools the page exactly where the policy lets the count decide and grades the largest count
above zero (`grades_after_wrap_iff`); in a run no access cools its page exactly when none wraps the
count under such a policy (`never_cools_iff`).
-/

set_option autoImplicit false

namespace MemoryTiering

open Transition

/-- The thresholds do not tell the largest count from zero, or tell it to be as cold. -/
def BlindAtWrap (coldAccessCount hotAccessCount : SizeT) : Prop :=
  hotAccessCount = 0 ∨
    (2 ^ 32 ≤ hotAccessCount.toNat ∧ 2 ^ 32 - 1 ≤ coldAccessCount.toNat)

/-- The access count does not decide, or not between the largest count and zero. -/
def PolicyVariant.BlindAtWrap : PolicyVariant → Prop
  | .lru _ => True
  | .frequency config => MemoryTiering.BlindAtWrap config.coldAccessCount config.hotAccessCount
  | .hybrid config =>
    config.weightFrequency ≤ config.weightRecency ∨
      MemoryTiering.BlindAtWrap config.coldAccessCount config.hotAccessCount

namespace Scanner

/-! ## One access -/

section Access

variable {policy : PolicyVariant} {now : Nat} {last : UInt64} {cnt : UInt32}

/-- The class of a page at one time. -/
def heatAt (policy : PolicyVariant) (now : Nat) (m : PageMetadata) : Nat :=
  (classifyPage policy (.single now) m.lastAccessTimeMs m.accessCnt).heat

theorem heat_of_hot (h : classifyHotPage policy now last cnt = true) :
    (classifyPage policy (.single now) last cnt).heat = 2 := by
  rw [classifyPage, Readings.single, if_pos h]
  rfl

theorem heat_eq_zero_iff :
    (classifyPage policy (.single now) last cnt).heat = 0 ↔
      classifyHotPage policy now last cnt = false ∧
        classifyColdPage policy now last cnt = true := by
  unfold classifyPage Readings.single
  cases classifyHotPage policy now last cnt <;> cases classifyColdPage policy now last cnt <;>
    simp [PageStatus.heat]

/-- A page accessed just now has no age. -/
theorem timeSinceLastAccess_self (now : Nat) :
    timeSinceLastAccess now (milliseconds now) = 0 :=
  UInt64.sub_self _

/-- Where the frequency weighs more, it decides the vote. -/
theorem hybridScore_of_frequency {config : HybridPolicyConfig} (hr : 0 ≤ config.weightRecency)
    (h : config.weightRecency < config.weightFrequency) (recent frequent : Bool) :
    hybridScore config recent frequent = frequent := by
  rw [Bool.eq_iff_iff, hybridScore_iff]
  cases recent <;> cases frequent <;> simp <;> linarith

/-- **Where the count decides**, a page is as hot after the wrap as before it only if its thresholds
do not see the wrap. -/
theorem heat_of_count_iff {cold hot : SizeT}
    (hhot : ∀ last cnt, classifyHotPage policy now last cnt = decide (hot ≤ cnt.toUInt64))
    (hcold : ∀ last cnt, classifyColdPage policy now last cnt = decide (cnt.toUInt64 ≤ cold))
    (last last' : UInt64) :
    (classifyPage policy (.single now) last (4294967295 : UInt32)).heat ≤
        (classifyPage policy (.single now) last' 0).heat ↔
      BlindAtWrap cold hot := by
  unfold BlindAtWrap
  by_cases hzero : hot = 0
  · have htop : classifyHotPage policy now last' 0 = true := by
      rw [hhot, hzero]
      rfl
    rw [heat_of_hot htop]
    exact iff_of_true (heat_le_two _) (.inl hzero)
  · have hafter : (classifyPage policy (.single now) last' 0).heat = 0 := by
      rw [heat_eq_zero_iff, hhot, hcold]
      constructor
      · apply decide_eq_false
        rw [UInt64.le_iff_toNat_le]
        intro hle
        exact hzero (UInt64.toNat_inj.mp (Nat.le_zero.mp hle))
      · exact decide_eq_true (UInt64.le_iff_toNat_le.mpr (Nat.zero_le _))
    have hmax : (4294967295 : UInt32).toUInt64.toNat = 4294967295 := rfl
    rw [hafter, Nat.le_zero, heat_eq_zero_iff, hhot, hcold, decide_eq_false_iff_not,
      decide_eq_true_iff, UInt64.le_iff_toNat_le, UInt64.le_iff_toNat_le, hmax]
    constructor
    · rintro ⟨hover, hunder⟩
      exact .inr ⟨by omega, by omega⟩
    · rintro (hz | ⟨hover, hunder⟩)
      · exact absurd hz hzero
      · exact ⟨by omega, by omega⟩

/-- **The access that wraps the count** leaves its page at least as hot exactly under a policy that
does not see the wrap. -/
theorem grades_after_wrap_iff (weights : policy.NonnegWeights) {m : PageMetadata}
    (hwrap : m.accessCnt = 4294967295) :
    heatAt policy now m ≤ heatAt policy now (m.accessed now) ↔ policy.BlindAtWrap := by
  unfold heatAt
  show _ ≤ (classifyPage policy (.single now) (milliseconds now) (m.accessCnt + 1)).heat ↔ _
  rw [hwrap, show (4294967295 : UInt32) + 1 = 0 from rfl]
  cases policy with
  | lru lru =>
    have hnew : classifyHotPage (.lru lru) now (milliseconds now) 0 = true := by
      unfold classifyHotPage
      simp only [timeSinceLastAccess_self, decide_eq_true_iff, UInt64.le_iff_toNat_le]
      exact Nat.zero_le _
    rw [heat_of_hot hnew]
    exact iff_of_true (heat_le_two _) trivial
  | frequency freq => exact heat_of_count_iff (fun _ _ => rfl) (fun _ _ => rfl) _ _
  | hybrid hybrid =>
    by_cases hrecency : hybrid.weightFrequency ≤ hybrid.weightRecency
    · have hnew : classifyHotPage (.hybrid hybrid) now (milliseconds now) 0 = true := by
        have hyoung : timeSinceLastAccess now (milliseconds now) ≤ hybrid.hotThresholdMs := by
          rw [timeSinceLastAccess_self, UInt64.le_iff_toNat_le]
          exact Nat.zero_le _
        unfold classifyHotPage
        rw [hybridScore_iff, decide_eq_true hyoung]
        cases decide (hybrid.hotAccessCount ≤ UInt32.toUInt64 0) with
        | true => exact add_nonneg weights.1 weights.2
        | false => exact hrecency
      rw [heat_of_hot hnew]
      exact iff_of_true (heat_le_two _) (.inl hrecency)
    · have hvote := hybridScore_of_frequency weights.1 (not_le.mp hrecency)
      have hhot : ∀ last cnt, classifyHotPage (.hybrid hybrid) now last cnt =
          decide (hybrid.hotAccessCount ≤ cnt.toUInt64) := fun _ _ => hvote _ _
      have hcold : ∀ last cnt, classifyColdPage (.hybrid hybrid) now last cnt =
          decide (cnt.toUInt64 ≤ hybrid.coldAccessCount) := fun _ _ => hvote _ _
      have hcount := heat_of_count_iff hhot hcold m.lastAccessTimeMs (milliseconds now)
      rw [hcount]
      exact (or_iff_right hrecency).symm

/-- **An access leaves its page at least as hot**, exactly unless it wraps a count that the policy
sees. -/
theorem heat_accessed_iff (weights : policy.NonnegWeights) {m : PageMetadata}
    (past : m.lastAccessTimeMs ≤ milliseconds now) :
    heatAt policy now m ≤ heatAt policy now (m.accessed now) ↔
      m.accessCnt ≠ 4294967295 ∨ policy.BlindAtWrap := by
  by_cases hwrap : m.accessCnt = 4294967295
  · rw [grades_after_wrap_iff weights hwrap]
    exact ⟨.inr, fun h => h.resolve_left fun hne => hne hwrap⟩
  · refine iff_of_true ?_ (.inl hwrap)
    have hmore : m.accessCnt ≤ m.accessCnt + 1 := by
      have hne : m.accessCnt.toNat ≠ 4294967295 := fun h => hwrap (UInt32.toNat_inj.mp h)
      have hlt := m.accessCnt.toNat_lt
      rw [UInt32.le_iff_toNat_le, UInt32.toNat_add, UInt32.toNat_one]
      omega
    exact classifyPage_mono weights UInt64.le_rfl past hmore

end Access

end Scanner

/-! ## Runs -/

namespace PageTable

/-- No access of the run leaves its page cooler than it would have been at the time of the access. A
page whose stamp is in the future is left out. -/
def NeverCools (policy : PolicyVariant) (es : List (PageTable × Call)) : Prop :=
  ∀ s latency now p mode m s' m', (s, Call.accessPage latency now p mode) ∈ es →
    s.record? p = some m → m.lastAccessTimeMs ≤ milliseconds now →
    s.accessPage latency now p mode = .ok s' → s'.record? p = some m' →
    Scanner.heatAt policy now m ≤ Scanner.heatAt policy now m'

/-- No access of the run meets the largest count on such a page. -/
def NeverWraps (es : List (PageTable × Call)) : Prop :=
  ∀ s latency now p mode m, (s, Call.accessPage latency now p mode) ∈ es →
    s.record? p = some m → m.lastAccessTimeMs ≤ milliseconds now → m.accessCnt ≠ 4294967295

section Runs

variable {policy : PolicyVariant} {t₀ t t' : PageTable} {es : List (PageTable × Call)}
  {latency : SizeT → OperationType → UInt64} {now : Nat} {p : PageId} {mode : OperationType}
  {m : PageMetadata}

/-- What an access makes of the record of its page. -/
theorem Coherent.record?_accessPage (h : t.Coherent) (found : t.record? p = some m)
    (call : t.accessPage latency now p mode = .ok t') :
    t'.record? p = some (m.accessed now) := by
  cases h.effect (c := .accessPage latency now p mode) call with
  | absent missing =>
    rw [missing] at found
    cases found
  | accessed found' records =>
    rw [found] at found'
    cases found'
    rw [records, if_pos rfl]

/-- The table of a label of a run is coherent, and its call returned. -/
theorem Coherent.label (h : t₀.Coherent) (run : Trace Step t₀ es t) {s : PageTable} {c : Call}
    (hmem : (s, c) ∈ es) : s.Coherent ∧ ∃ s', c.apply s = .ok s' := by
  obtain ⟨before, after, rfl⟩ := List.append_of_mem hmem
  obtain ⟨s₁, hbefore, hrest⟩ := run.split
  cases hrest with
  | cons hstep _ =>
    obtain ⟨rfl, hcall⟩ := hstep
    exact ⟨(h.run hbefore).1, _, hcall⟩

/-- **No access of a run cools its page**, exactly if the policy does not see the wrap of the count,
or no access of the run makes it. -/
theorem never_cools_iff {config : AcceptedConfig} {ring : Bool} {alloc : Allocation}
    (weights : policy.NonnegWeights) (start : config.start ring alloc = .ok t₀)
    (run : Trace Step t₀ es t) :
    NeverCools policy es ↔ policy.BlindAtWrap ∨ NeverWraps es := by
  have hcoherent : t₀.Coherent := (AcceptedConfig.initial start).coherent
  constructor
  · intro hcools
    by_cases hblind : policy.BlindAtWrap
    · exact .inl hblind
    · right
      intro s latency now p mode m hmem found past
      obtain ⟨hs, s', hcall⟩ := hcoherent.label run hmem
      have hwarm := hcools s latency now p mode m s' _ hmem found past hcall
        (hs.record?_accessPage found hcall)
      exact ((Scanner.heat_accessed_iff weights past).mp hwarm).resolve_right hblind
  · intro h s latency now p mode m s' m' hmem found past hcall found'
    obtain ⟨hs, _⟩ := hcoherent.label run hmem
    rw [hs.record?_accessPage found hcall] at found'
    cases found'
    apply (Scanner.heat_accessed_iff weights past).mpr
    rcases h with hblind | hwraps
    · exact .inr hblind
    · exact .inl (hwraps s latency now p mode m hmem found past)

/-- Any number of accesses in a row. -/
theorem accesses_in_a_row (ringless : t₀.localCacheRing = none) (found : t₀.record? p = some m)
    (past : m.lastAccessTimeMs ≤ milliseconds now) (mode : OperationType) (n : Nat) :
    ∃ es t m', Trace Step t₀ es t ∧ t.localCacheRing = none ∧ t.record? p = some m' ∧
      m'.accessCnt = m.accessCnt + UInt32.ofNat n ∧ m'.lastAccessTimeMs ≤ milliseconds now := by
  induction n with
  | zero => exact ⟨[], t₀, m, .nil t₀, ringless, found, by simp, past⟩
  | succ n ih =>
    obtain ⟨es, t, m', run, hring, found', hcount, _⟩ := ih
    obtain ⟨t', hcall, hring', _⟩ :=
      apply_ringless hring (.accessPage (fun _ _ => 0) now p mode)
    have hreturns : t.accessPage (fun _ _ => 0) now p mode = .ok t' := hcall
    have hrecord := Coherent.record?_accessPage (.inl hring) found' hreturns
    have hmore : (m'.accessed now).accessCnt = m.accessCnt + UInt32.ofNat (n + 1) := by
      show m'.accessCnt + 1 = _
      rw [hcount, UInt32.add_assoc, UInt32.ofNat_add, UInt32.ofNat_one]
    have hrun := run.snoc (e := (t, .accessPage (fun _ _ => 0) now p mode)) ⟨rfl, hcall⟩
    exact ⟨_, t', _, hrun, hring', hrecord, hmore, UInt64.le_rfl⟩

/-- The default counts. -/
def defaultFrequency : PolicyVariant := .frequency ⟨10, 2⟩

/-- After four billion accesses the page is hot, and one more leaves it cold. -/
theorem last_access_cools : ∃ (t₀ t : PageTable) (es : List (PageTable × Call)),
    (smallConfig 1 1 (by decide)).start false plainAllocation = .ok t₀ ∧ Trace Step t₀ es t ∧
    ¬ NeverCools defaultFrequency es := by
  have hstart : ∃ (t₀ : PageTable) (m : PageMetadata),
      (smallConfig 1 1 (by decide)).start false plainAllocation = .ok t₀ ∧
      t₀.localCacheRing = none ∧ t₀.record? 0 = some m ∧ m.accessCnt = 0 ∧
      m.lastAccessTimeMs ≤ milliseconds 2000000000 :=
    ⟨_, _, rfl, rfl, rfl, rfl, by decide⟩
  obtain ⟨t₀, m₀, start, ringless, found₀, hzero, past₀⟩ := hstart
  obtain ⟨es, s, m, run, hring, found, hcount, past⟩ :=
    accesses_in_a_row ringless found₀ past₀ .read 4294967295
  have hmax : m.accessCnt = 4294967295 := by rw [hcount, hzero, UInt32.zero_add]; rfl
  obtain ⟨t, hcall, _⟩ := apply_ringless hring (.accessPage (fun _ _ => 0) 2000000000 0 .read)
  have hreturns : s.accessPage (fun _ _ => 0) 2000000000 0 .read = .ok t := hcall
  have hrecord := Coherent.record?_accessPage (.inl hring) found hreturns
  have hrun := run.snoc (e := (s, .accessPage (fun _ _ => 0) 2000000000 0 .read)) ⟨rfl, hcall⟩
  refine ⟨t₀, t, _, start, hrun, ?_⟩
  intro hcools
  have hwarm := hcools s _ 2000000000 0 .read m t _ (by simp) found past hreturns hrecord
  have weights : defaultFrequency.NonnegWeights := trivial
  have hblind := (Scanner.grades_after_wrap_iff weights hmax).mp hwarm
  rcases hblind with hzero | ⟨hover, _⟩
  · exact absurd hzero (by decide)
  · exact absurd hover (by decide)

/-- The first access of a page. -/
theorem first_access_warms : ∃ t₀ t : PageTable,
    (smallConfig 1 1 (by decide)).start false plainAllocation = .ok t₀ ∧
    NeverCools defaultFrequency [(t₀, .accessPage (fun _ _ => 0) 2000000000 0 .read)] ∧
    Trace Step t₀ [(t₀, .accessPage (fun _ _ => 0) 2000000000 0 .read)] t := by
  have hrun : ∃ (t₀ t : PageTable) (m : PageMetadata),
      (smallConfig 1 1 (by decide)).start false plainAllocation = .ok t₀ ∧
      Trace Step t₀ [(t₀, .accessPage (fun _ _ => 0) 2000000000 0 .read)] t ∧
      t₀.record? 0 = some m ∧ m.accessCnt = 0 :=
    ⟨_, _, _, rfl, Trace.single.mpr ⟨rfl, rfl⟩, rfl, rfl⟩
  obtain ⟨t₀, t, m, start, run, found, hzero⟩ := hrun
  have weights : defaultFrequency.NonnegWeights := trivial
  refine ⟨t₀, t, start, (never_cools_iff weights start run).mpr (.inr ?_), run⟩
  intro s latency now p mode m' hmem found' past
  rw [List.mem_singleton, Prod.mk.injEq] at hmem
  obtain ⟨rfl, hcall⟩ := hmem
  cases hcall
  rw [found] at found'
  cases found'
  rw [hzero]
  decide

end Runs

end PageTable

end MemoryTiering
