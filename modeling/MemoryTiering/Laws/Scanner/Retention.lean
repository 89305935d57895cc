import MemoryTiering.Laws.Scanner.Recency
import MemoryTiering.Laws.Scanner.Traffic

/-!
# The LRU policy moves pages by their age

What the LRU policy promises of a page that has been used, by an access or a migration, since it was
made: no round sends it down before the cold threshold has passed since then, and none brings it up
after both thresholds have. The stamp of such a page is the time of its last use, under every
interleaving of accesses and rounds (`UseStamped`), and the switch of the scanner sends down exactly
the pages it finds cold.
-/

set_option autoImplicit false

namespace MemoryTiering

open Transition

namespace PageTable

/-- What the clock showed when a page was last used: at its last access, or at its last completed
migration if that came later. -/
def lastUse (policy : PolicyVariant) (p : PageId) (es : List (PageTable × Activity)) :
    Option Nat :=
  es.foldl
    (fun use e =>
      match e.2 with
      | .access _ now q _ => if q = p then some now else use
      | .scan .. =>
        (((e.2.moves policy e.1).filter fun mv => mv.page = p).getLast?.map (·.now)).or use)
    none

section Uses

variable {policy : PolicyVariant} {t₀ t t' : PageTable} {es : List (PageTable × Activity)}
  {p : PageId}

theorem lastUse_snoc (policy : PolicyVariant) (p : PageId) (es : List (PageTable × Activity))
    (e : PageTable × Activity) :
    lastUse policy p (es ++ [e]) =
      match e.2 with
      | .access _ now q _ => if q = p then some now else lastUse policy p es
      | .scan .. =>
        (((e.2.moves policy e.1).filter fun mv => mv.page = p).getLast?.map (·.now)).or
          (lastUse policy p es) := by
  unfold lastUse
  rw [List.foldl_append]
  rfl

/-- The stamp of a page that has been used is the time of its last use, which the clock showed. -/
structure UseStamped (policy : PolicyVariant) (es : List (PageTable × Activity))
    (t : PageTable) : Prop where
  coherent : t.Coherent
  read : ∀ p used, lastUse policy p es = some used → used ∈ es.flatMap fun e => e.2.readings
  stamp : ∀ p used m, lastUse policy p es = some used → t.record? p = some m →
    m.lastAccessTimeMs = milliseconds used

/-- An access is a use of its page. -/
theorem UseStamped.access (h : UseStamped policy es t)
    {latency : SizeT → OperationType → UInt64} {now : Nat} {q : PageId} {mode : OperationType}
    (coherent : t'.Coherent) (done : t.accessPage latency now q mode = .ok t') :
    UseStamped policy (es ++ [(t, .access latency now q mode)]) t' := by
  have hrecord : ∀ r, t'.record? r =
      if r = q then (t.record? r).map (·.accessed now) else t.record? r := by
    intro r
    cases h.coherent.effect (c := .accessPage latency now q mode) done with
    | absent missing =>
      split
      next hr => rw [hr, missing, Option.map_none]
      next => rfl
    | accessed found records =>
      rw [records]
      split
      next hr => rw [hr, found, Option.map_some]
      next => rfl
  refine ⟨coherent, ?_, ?_⟩
  · intro p used hused
    rw [lastUse_snoc] at hused
    rw [List.flatMap_append, List.flatMap_singleton, List.mem_append]
    dsimp only at hused
    split at hused
    · cases hused
      exact .inr (List.mem_singleton_self _)
    · exact .inl (h.read p used hused)
  · intro p used m hused hm
    rw [lastUse_snoc] at hused
    rw [hrecord] at hm
    dsimp only at hused
    by_cases hp : q = p
    · subst hp
      rw [if_pos rfl] at hused hm
      obtain ⟨m', _, rfl⟩ := Option.map_eq_some_iff.mp hm
      cases hused
      rfl
    · rw [if_neg hp] at hused
      rw [if_neg (Ne.symm hp)] at hm
      exact h.stamp p used m hused hm

/-- So is a migration that a round completes. -/
theorem UseStamped.scan (h : UseStamped policy es t) {readings : Scanner.Readings}
    {evictNow now : Nat} (coherent : t'.Coherent)
    (done : Round policy t readings evictNow now t') :
    UseStamped policy (es ++ [(t, .scan readings evictNow now)]) t' := by
  cases done with
  | rested records moves refused =>
    have hsame : ∀ p, lastUse policy p (es ++ [(t, .scan readings evictNow now)]) =
        lastUse policy p es := by
      intro p
      rw [lastUse_snoc]
      dsimp only
      rw [moves]
      rfl
    refine ⟨coherent, ?_, ?_⟩
    · intro p used hused
      rw [hsame] at hused
      rw [List.flatMap_append]
      exact List.mem_append_left _ (h.read p used hused)
    · intro p used m hused hm
      rw [hsame] at hused
      rw [records] at hm
      exact h.stamp p used m hused hm
  | @moved m target found asked room records moves =>
    have huse : ∀ p, lastUse policy p (es ++ [(t, .scan readings evictNow now)]) =
        if p = t.scanIndex then some now else lastUse policy p es := by
      intro p
      rw [lastUse_snoc]
      dsimp only
      rw [moves]
      by_cases hp : p = t.scanIndex
      · simp [hp]
      · simp [hp, Ne.symm hp]
    refine ⟨coherent, ?_, ?_⟩
    · intro p used hused
      rw [huse] at hused
      rw [List.flatMap_append, List.flatMap_singleton, List.mem_append]
      split at hused
      · cases hused
        exact .inr (by simp [Activity.readings])
      · exact .inl (h.read p used hused)
    · intro p used m' hused hm
      rw [huse] at hused
      rw [records] at hm
      by_cases hp : p = t.scanIndex
      · rw [if_pos hp] at hused hm
        cases hused
        cases hm
        rfl
      · rw [if_neg hp] at hused hm
        exact h.stamp p used m' hused hm

/-- **The step lemma.** -/
theorem UseStamped.step {e : PageTable × Activity} (h : UseStamped policy es t)
    (hstep : Acts policy t e t') : UseStamped policy (es ++ [e]) t' := by
  have hcoherent := (h.coherent.acts hstep).1
  obtain ⟨t, e⟩ := e
  obtain ⟨rfl, hdone⟩ := hstep
  cases e with
  | access latency now q mode => exact h.access hcoherent hdone
  | scan readings evictNow now => exact h.scan hcoherent (h.coherent.round hdone)

/-- **The run lemma.** -/
theorem UseStamped.run (h : t₀.Coherent) (run : Trace (Acts policy) t₀ es t) :
    UseStamped policy es t := by
  have hstart : UseStamped policy [] t₀ := ⟨h, nofun, nofun⟩
  have hrun := run.invariant_with (fun _ _ _ _ h hstep => h.step hstep) hstart
  exact hrun

end Uses

/-! ## Moves by age -/

section Ages

variable {lru : LRUPolicyConfig} {m : PageMetadata} {target : PageLayer} {numTiers used : Nat}
  {readings : Scanner.Readings}

/-- The milliseconds that have passed, as the clock shows whole ones. -/
def elapsed (used now : Nat) : Nat := now / 1000000 - used / 1000000

/-- A page is cold when neither threshold keeps it. -/
theorem classifyPage_cold_iff (hhot : used ≤ readings.hot) (hcold : readings.hot ≤ readings.cold)
    (bounded : readings.cold < 2 ^ 63) (cnt : UInt32) :
    Scanner.classifyPage (.lru lru) readings (milliseconds used) cnt = .cold ↔
      lru.hotThresholdMs.toNat < elapsed used readings.hot ∧
        lru.coldThresholdMs.toNat ≤ elapsed used readings.cold := by
  unfold Scanner.classifyPage Scanner.classifyHotPage Scanner.classifyColdPage elapsed
  simp only [UInt64.le_iff_toNat_le, toNat_age hhot (hcold.trans_lt bounded),
    toNat_age (hhot.trans hcold) bounded]
  generalize readings.hot / 1000000 - used / 1000000 = hot
  generalize readings.cold / 1000000 - used / 1000000 = cold
  by_cases hrecent : hot ≤ lru.hotThresholdMs.toNat
  · simp [hrecent]
  · by_cases hwarm : lru.coldThresholdMs.toNat ≤ cold
    · simp [hrecent, hwarm, Nat.not_le.mp hrecent]
    · simp [hrecent, hwarm]

/-- **What the age of a page decides.** -/
theorem asks_by_age (stamp : m.lastAccessTimeMs = milliseconds used) (hhot : used ≤ readings.hot)
    (hcold : readings.hot ≤ readings.cold) (bounded : readings.cold < 2 ^ 63)
    (h : Scanner.asks (.lru lru) readings numTiers m = some target) :
    if target.depth < m.pageLayer.depth then
      elapsed used readings.hot ≤ lru.hotThresholdMs.toNat ∨
        elapsed used readings.cold < lru.coldThresholdMs.toNat
    else
      lru.hotThresholdMs.toNat < elapsed used readings.hot ∧
        lru.coldThresholdMs.toNat ≤ elapsed used readings.cold := by
  unfold Scanner.asks at h
  rw [stamp] at h
  have hiff : _ ↔ lru.hotThresholdMs.toNat < _ ∧ lru.coldThresholdMs.toNat ≤ _ :=
    classifyPage_cold_iff hhot hcold bounded m.accessCnt
  rcases Scanner.targetLayer_cases h with ⟨hstatus, hdown⟩ | ⟨hstatus, hup⟩
  · rw [if_neg hdown.le.not_gt]
    exact hiff.mp hstatus
  · rw [if_pos hup]
    have hkept := mt hiff.mpr hstatus
    omega

/-- **The LRU policy moves pages by their age.** In every run of accesses and rounds, under a clock
that does not go back and counts nanoseconds in 63 bits, a round that moves a page that has been
used sends it down only when both thresholds have passed since its last use, and brings it up only
when one of them has not. -/
theorem lru_moves_by_age {t₀ t s : PageTable} {es before after : List (PageTable × Activity)}
    {config : AcceptedConfig} {ring : Bool} {alloc : Allocation} {evictNow now : Nat} {p : PageId}
    {mv : Move} (start : config.start ring alloc = .ok t₀)
    (run : Trace (Acts (.lru lru)) t₀ es t)
    (steady : (es.flatMap fun e => e.2.readings).Pairwise (· ≤ ·))
    (bounded : ∀ now ∈ es.flatMap fun e => e.2.readings, now < 2 ^ 63)
    (split : es = before ++ (s, .scan readings evictNow now) :: after)
    (use : lastUse (.lru lru) p before = some used)
    (moved : mv ∈ (Activity.scan readings evictNow now).moves (.lru lru) s) (page : mv.page = p) :
    if mv.promotes then
      elapsed used readings.hot ≤ lru.hotThresholdMs.toNat ∨
        elapsed used readings.cold < lru.coldThresholdMs.toNat
    else
      lru.hotThresholdMs.toNat < elapsed used readings.hot ∧
        lru.coldThresholdMs.toNat ≤ elapsed used readings.cold := by
  rw [split] at run steady bounded
  obtain ⟨s₁, hbefore, hrest⟩ := run.split
  cases hrest with
  | cons hstep _ =>
    obtain ⟨rfl, hdone⟩ := hstep
    have h := UseStamped.run (AcceptedConfig.initial start).coherent hbefore
    rw [List.flatMap_append, List.flatMap_cons] at steady
    have hafter : used ≤ readings.hot :=
      (List.pairwise_append.mp steady).2.2 used (h.read p used use) readings.hot
        (List.mem_append_left _ List.mem_cons_self)
    have hwithin : readings.hot ≤ readings.cold :=
      (List.pairwise_cons.mp (List.pairwise_append.mp (List.pairwise_append.mp steady).2.1).1).1
        readings.cold List.mem_cons_self
    have hclock : readings.cold < 2 ^ 63 := bounded _ (by simp [Activity.readings])
    cases h.coherent.round hdone with
    | rested records moves refused =>
      rw [moves] at moved
      cases moved
    | @moved m target found asked room records moves =>
      rw [moves, List.mem_singleton] at moved
      subst moved
      obtain rfl : _ = p := page
      have hstamp := h.stamp _ used m use found
      have hage := asks_by_age hstamp hafter hwithin hclock asked
      simpa only [Move.promotes, decide_eq_true_eq] using hage

/-- The remote page goes down a second and a half after its access. -/
theorem aged_page_goes_down : ∃ t₀ t₁ t₂ t : PageTable,
    (smallConfig 1 1 (by decide)).start false plainAllocation = .ok t₀ ∧
    Trace (Acts (.lru defaultLru)) t₀
      [(t₀, .access (fun _ _ => 0) 1000000000 1 .read), (t₁, scanAt 1500000000),
        (t₂, scanAt 2500000000)] t ∧
    t.layer? 1 = some .pmem ∧ 100 < elapsed 1000000000 2500000000 ∧
    1000 ≤ elapsed 1000000000 2500000000 := by
  have hrun : ∃ t₀ t₁ t₂ t : PageTable,
      (smallConfig 1 1 (by decide)).start false plainAllocation = .ok t₀ ∧
      Trace (Acts (.lru defaultLru)) t₀
        [(t₀, .access (fun _ _ => 0) 1000000000 1 .read), (t₁, scanAt 1500000000),
          (t₂, scanAt 2500000000)] t ∧
      t.layer? 1 = some .pmem ∧
      lastUse (.lru defaultLru) 1
        [(t₀, .access (fun _ _ => 0) 1000000000 1 .read), (t₁, scanAt 1500000000)] =
          some 1000000000 ∧
      (scanAt 2500000000).moves (.lru defaultLru) t₂ = [⟨1, .numaRemote, .pmem, 2500000000⟩] :=
    ⟨_, _, _, _, rfl, .cons ⟨rfl, rfl⟩ (.cons ⟨rfl, rfl⟩ (Trace.single.mpr ⟨rfl, rfl⟩)), rfl, rfl,
      rfl⟩
  obtain ⟨t₀, t₁, t₂, t, start, run, hlayer, huse, hmoves⟩ := hrun
  have hsplit : [(t₀, .access (fun _ _ => 0) 1000000000 1 .read), (t₁, scanAt 1500000000),
      (t₂, scanAt 2500000000)] =
        [(t₀, .access (fun _ _ => 0) 1000000000 1 .read), (t₁, scanAt 1500000000)] ++
          (t₂, .scan ⟨2500000000, 2500000000, 2500000000⟩ 2500000000 2500000000) :: [] := rfl
  have hmoved : ⟨1, .numaRemote, .pmem, 2500000000⟩ ∈
      (scanAt 2500000000).moves (.lru defaultLru) t₂ := by
    rw [hmoves]
    exact List.mem_singleton_self _
  have hage := lru_moves_by_age start run (by simp [Activity.readings, scanAt])
    (by simp [Activity.readings, scanAt]) hsplit huse hmoved rfl
  exact ⟨t₀, t₁, t₂, t, start, run, hlayer, hage.1, hage.2⟩

end Ages

end PageTable

end MemoryTiering
