import MemoryTiering.Laws.PageTable.Stamps
import MemoryTiering.Laws.Scanner.Rounds

/-!
# The LRU policy and its own migrations

The LRU policy sees a page's layer and its stamp, and a migration writes the stamp an access would
write. So a page that was just demoted looks as if it had just been accessed, and the next rounds
send it back, unless they come late enough or find the faster tiers full. Without an access this is
the only way up, so a run keeps its idle pages down exactly when it never meets one that
`comesBack` (`lru_keeps_idle_iff`).
-/

set_option autoImplicit false

namespace MemoryTiering

open Pointer Transition

namespace PageTable

/-! ## Idle pages -/

/-- What the clock shows in an activity, in order. A reading that is not taken may be any between
its neighbours. -/
def Activity.readings : Activity → List Nat
  | .access _ now _ _ => [now]
  | .scan readings _ now => [readings.hot, readings.cold, readings.again, now]

/-- What the clock showed at a page's last completed migration, if no access came after it. -/
def idleSince (policy : PolicyVariant) (p : PageId) (es : List (PageTable × Activity)) :
    Option Nat :=
  es.foldl
    (fun idle e =>
      match e.2 with
      | .access _ _ q _ => if q = p then none else idle
      | .scan .. =>
        (((e.2.moves policy e.1).filter fun mv => mv.page = p).getLast?.map (·.now)).or idle)
    none

/-- No round of the run moves the page to a faster tier while it is idle. -/
def KeepsIdle (policy : PolicyVariant) (p : PageId) (es : List (PageTable × Activity)) : Prop :=
  ∀ before e after, es = before ++ e :: after → (idleSince policy p before).isSome = true →
    ∀ mv ∈ e.2.moves policy e.1, mv.page = p → mv.promotes = false

/-- The round looks at the page, and finds the time of its migration recent enough for a faster
tier. -/
def LooksRecent (lru : LRUPolicyConfig) (t : PageTable) (p : PageId) (moved : Nat)
    (readings : Scanner.Readings) (target : PageLayer) : Prop :=
  let age (now : Nat) : Nat := now / 1000000 - moved / 1000000
  t.scanIndex = p ∧
    match t.layer? p with
    | some .numaRemote => target = .numaLocal ∧ age readings.again ≤ lru.hotThresholdMs.toNat
    | some .pmem =>
      (target = .numaLocal ∧ age readings.hot ≤ lru.hotThresholdMs.toNat) ∨
        (target = (if t.serverConfig.numTiers = 2 then .numaLocal else .numaRemote) ∧
          lru.hotThresholdMs.toNat < age readings.hot ∧
          age readings.cold < lru.coldThresholdMs.toNat)
    | _ => False

/-- Some round meets the page idle, finds it recent, and finds room for it. -/
def ComesBack (lru : LRUPolicyConfig) (p : PageId) (es : List (PageTable × Activity)) : Prop :=
  ∃ before e after moved readings evictNow now target, es = before ++ e :: after ∧
    idleSince (.lru lru) p before = some moved ∧ e.2 = .scan readings evictNow now ∧
    LooksRecent lru e.1 p moved readings target ∧
    (e.1.serverConfig.layer target).isFull = false

/-! ## One round -/

section Round

variable {lru : LRUPolicyConfig} {t t' : PageTable} {p : PageId} {moved : Nat}
  {readings : Scanner.Readings} {evictNow now : Nat}

/-- The scanner's age of a page, from the clock's readings. -/
theorem toNat_age (h : moved ≤ now) (bounded : now < 2 ^ 63) :
    (Scanner.timeSinceLastAccess now (milliseconds moved)).toNat =
      now / 1000000 - moved / 1000000 := by
  obtain ⟨_, hage⟩ := age_of_stamp h bounded
  rw [toNat_milliseconds bounded, toNat_milliseconds (by omega)] at hage
  omega

/-- **What the policy asks for an idle page**, when it asks for a faster tier. -/
theorem asks_promotion_iff {m : PageMetadata} {target : PageLayer} {numTiers : Nat}
    (stamp : m.lastAccessTimeMs = milliseconds moved) (hhot : moved ≤ readings.hot)
    (hcold : readings.hot ≤ readings.cold) (hagain : readings.cold ≤ readings.again)
    (bounded : readings.again < 2 ^ 63) :
    (Scanner.asks (.lru lru) readings numTiers m = some target ∧
        target.depth < m.pageLayer.depth) ↔
      match m.pageLayer with
      | .numaRemote => target = .numaLocal ∧
          readings.again / 1000000 - moved / 1000000 ≤ lru.hotThresholdMs.toNat
      | .pmem =>
        (target = .numaLocal ∧
            readings.hot / 1000000 - moved / 1000000 ≤ lru.hotThresholdMs.toNat) ∨
          (target = (if numTiers = 2 then .numaLocal else .numaRemote) ∧
            lru.hotThresholdMs.toNat < readings.hot / 1000000 - moved / 1000000 ∧
            readings.cold / 1000000 - moved / 1000000 < lru.coldThresholdMs.toNat)
      | .numaLocal => False := by
  have hageHot := toNat_age hhot (by omega)
  have hageCold := toNat_age (hhot.trans hcold) (by omega)
  have hageAgain := toNat_age (hhot.trans (hcold.trans hagain)) bounded
  have hlater : readings.hot / 1000000 - moved / 1000000 ≤
      readings.again / 1000000 - moved / 1000000 :=
    Nat.sub_le_sub_right (Nat.div_le_div_right (hcold.trans hagain)) _
  unfold Scanner.asks Scanner.classifyPage Scanner.classifyHotPage Scanner.classifyColdPage
  simp only [stamp, UInt64.le_iff_toNat_le, hageHot, hageCold, hageAgain]
  generalize readings.hot / 1000000 - moved / 1000000 = hot at hlater ⊢
  generalize readings.cold / 1000000 - moved / 1000000 = cold
  generalize readings.again / 1000000 - moved / 1000000 = again at hlater ⊢
  cases m.pageLayer with
  | numaLocal => simp [PageLayer.depth]
  | numaRemote =>
    by_cases hrecent : again ≤ lru.hotThresholdMs.toNat
    · -- recent at the second test, so recent at the first
      have hfirst := hlater.trans hrecent
      cases target <;> simp [Scanner.targetLayer, PageLayer.depth, hrecent, hfirst]
    · cases target <;> simp [Scanner.targetLayer, PageLayer.depth, hrecent]
  | pmem =>
    by_cases hrecent : hot ≤ lru.hotThresholdMs.toNat
    · cases target <;> simp [Scanner.targetLayer, PageLayer.depth, hrecent]
    · by_cases hwarm : cold < lru.coldThresholdMs.toNat
      · have hlate := Nat.not_le.mp hrecent
        by_cases htwo : numTiers = 2
        · cases target <;> simp [Scanner.targetLayer, PageLayer.depth, hrecent, hlate, hwarm, htwo]
        · cases target <;> simp [Scanner.targetLayer, PageLayer.depth, hrecent, hlate, hwarm, htwo]
      · cases target <;> simp [Scanner.targetLayer, PageLayer.depth, hrecent, hwarm]

/-- The same, of the page the round looks at. -/
theorem looksRecent_iff {m : PageMetadata} {target : PageLayer} (found : t.record? p = some m)
    (stamp : m.lastAccessTimeMs = milliseconds moved) (hhot : moved ≤ readings.hot)
    (hcold : readings.hot ≤ readings.cold) (hagain : readings.cold ≤ readings.again)
    (bounded : readings.again < 2 ^ 63) :
    LooksRecent lru t p moved readings target ↔
      t.scanIndex = p ∧
        Scanner.asks (.lru lru) readings t.serverConfig.numTiers m = some target ∧
        target.depth < m.pageLayer.depth := by
  rw [asks_promotion_iff stamp hhot hcold hagain bounded]
  unfold LooksRecent
  rw [layer?_eq_record, found, Option.map_some]
  cases m.pageLayer <;> rfl

/-- **A round promotes an idle page** exactly when it finds it recent, and room for it. -/
theorem Round.promotes_iff {m : PageMetadata}
    (h : Round (.lru lru) t readings evictNow now t') (found : t.record? p = some m)
    (stamp : m.lastAccessTimeMs = milliseconds moved) (hhot : moved ≤ readings.hot)
    (hcold : readings.hot ≤ readings.cold) (hagain : readings.cold ≤ readings.again)
    (bounded : readings.again < 2 ^ 63) :
    (∃ mv ∈ (Activity.scan readings evictNow now).moves (.lru lru) t,
        mv.page = p ∧ mv.promotes = true) ↔
      ∃ target, LooksRecent lru t p moved readings target ∧
        (t.serverConfig.layer target).isFull = false := by
  simp only [looksRecent_iff found stamp hhot hcold hagain bounded]
  cases h with
  | rested records moves refused =>
    constructor
    · rintro ⟨mv, hmv, _⟩
      rw [moves] at hmv
      cases hmv
    · rintro ⟨target, ⟨rfl, hasks, _⟩, hroom⟩
      rw [refused m target found hasks] at hroom
      cases hroom
  | @moved m' target' found' asked room records moves =>
    simp only [moves, List.mem_singleton, exists_eq_left]
    constructor
    · rintro ⟨rfl, hup⟩
      obtain rfl : m = m' := Option.some.inj (found.symm.trans found')
      exact ⟨target', ⟨rfl, asked, of_decide_eq_true hup⟩, room⟩
    · rintro ⟨target, ⟨rfl, hasks, hup⟩, _⟩
      obtain rfl : m = m' := Option.some.inj (found.symm.trans found')
      obtain rfl : target' = target := Option.some.inj (asked.symm.trans hasks)
      exact ⟨rfl, decide_eq_true hup⟩

end Round

/-! ## Runs -/

section Runs

variable {policy : PolicyVariant} {lru : LRUPolicyConfig} {t₀ t t' : PageTable}
  {es : List (PageTable × Activity)} {p : PageId}

theorem idleSince_snoc (policy : PolicyVariant) (p : PageId) (es : List (PageTable × Activity))
    (e : PageTable × Activity) :
    idleSince policy p (es ++ [e]) =
      match e.2 with
      | .access _ _ q _ => if q = p then none else idleSince policy p es
      | .scan .. =>
        (((e.2.moves policy e.1).filter fun mv => mv.page = p).getLast?.map (·.now)).or
          (idleSince policy p es) := by
  unfold idleSince
  rw [List.foldl_append]
  rfl

/-- The stamp of an idle page is the time of its migration, which the clock showed. -/
structure IdleStamped (policy : PolicyVariant) (es : List (PageTable × Activity))
    (t : PageTable) : Prop where
  coherent : t.Coherent
  stamp : ∀ p moved, idleSince policy p es = some moved →
    moved ∈ es.flatMap (fun e => e.2.readings) ∧
      ∃ m, t.record? p = some m ∧ m.lastAccessTimeMs = milliseconds moved

/-- **The step lemma.** -/
theorem IdleStamped.step {e : PageTable × Activity} (h : IdleStamped policy es t)
    (hstep : Acts policy t e t') : IdleStamped policy (es ++ [e]) t' := by
  refine ⟨(h.coherent.acts hstep).1, ?_⟩
  obtain ⟨t, e⟩ := e
  obtain ⟨rfl, hdone⟩ := hstep
  intro p moved hidle
  rw [idleSince_snoc] at hidle
  rw [List.flatMap_append, List.flatMap_singleton, List.mem_append]
  cases e with
  | access latency now q mode =>
    obtain ⟨hne, hidle⟩ : q ≠ p ∧ idleSince policy p es = some moved := by
      dsimp only at hidle
      split at hidle
      · cases hidle
      next hne => exact ⟨hne, hidle⟩
    obtain ⟨hread, m, hm, hstamp⟩ := h.stamp p moved hidle
    refine ⟨.inl hread, m, ?_, hstamp⟩
    cases h.coherent.effect (c := .accessPage latency now q mode) hdone with
    | absent missing => exact hm
    | accessed found records =>
      rw [records, if_neg (Ne.symm hne)]
      exact hm
  | scan readings evictNow now =>
    dsimp only at hidle
    cases h.coherent.round hdone with
    | rested records moves refused =>
      rw [moves] at hidle
      obtain ⟨hread, m, hm, hstamp⟩ := h.stamp p moved hidle
      exact ⟨.inl hread, m, (records p).trans hm, hstamp⟩
    | @moved m target found asked room records moves =>
      rw [moves] at hidle
      by_cases hp : p = t.scanIndex
      · have hnow : now = moved := by simpa [hp] using hidle
        refine ⟨.inr (by simp [Activity.readings, hnow]), _, by rw [records, if_pos hp], ?_⟩
        rw [← hnow]
        rfl
      · have hbefore : idleSince policy p es = some moved := by simpa [Ne.symm hp] using hidle
        obtain ⟨hread, m, hm, hstamp⟩ := h.stamp p moved hbefore
        exact ⟨.inl hread, m, by rw [records, if_neg hp, hm], hstamp⟩

/-- **The run lemma.** -/
theorem IdleStamped.run (h : t₀.Coherent) (run : Trace (Acts policy) t₀ es t) :
    IdleStamped policy es t := by
  have hstart : IdleStamped policy [] t₀ := ⟨h, nofun⟩
  have hrun := run.invariant_with (fun _ _ _ _ h hstep => h.step hstep) hstart
  exact hrun

/-- What a round of a run promotes among the idle pages: the one it finds recent from its own
migration, and has room for above. -/
theorem promotes_idle_iff (ringless : t₀.localCacheRing = none)
    (run : Trace (Acts (.lru lru)) t₀ es t)
    (steady : (es.flatMap fun e => e.2.readings).Pairwise (· ≤ ·))
    (bounded : ∀ now ∈ es.flatMap fun e => e.2.readings, now < 2 ^ 63)
    {before after : List (PageTable × Activity)} {readings : Scanner.Readings}
    {evictNow now moved : Nat} {s : PageTable}
    (hsplit : es = before ++ (s, .scan readings evictNow now) :: after)
    (hidle : idleSince (.lru lru) p before = some moved) :
    (∃ mv ∈ (Activity.scan readings evictNow now).moves (.lru lru) s,
        mv.page = p ∧ mv.promotes = true) ↔
      ∃ target, LooksRecent lru s p moved readings target ∧
        (s.serverConfig.layer target).isFull = false := by
  rw [hsplit] at run steady bounded
  obtain ⟨s₁, hbefore, hrest⟩ := run.split
  cases hrest with
  | cons hstep _ =>
    obtain ⟨rfl, hdone⟩ := hstep
    have h := IdleStamped.run (.inl ringless) hbefore
    obtain ⟨hread, m, hm, hstamp⟩ := h.stamp p moved hidle
    rw [List.flatMap_append, List.flatMap_cons] at steady
    have hafter : ∀ r ∈ (Activity.scan readings evictNow now).readings, moved ≤ r := by
      intro r hr
      exact (List.pairwise_append.mp steady).2.2 moved hread r (List.mem_append_left _ hr)
    have hwithin : (Activity.scan readings evictNow now).readings.Pairwise (· ≤ ·) :=
      (List.pairwise_append.mp (List.pairwise_append.mp steady).2.1).1
    simp only [Activity.readings, List.pairwise_cons, List.mem_cons] at hwithin hafter
    refine (h.coherent.round hdone).promotes_iff hm hstamp (hafter _ (.inl rfl))
      (hwithin.1 _ (.inl rfl)) (hwithin.2.1 _ (.inl rfl)) (bounded _ ?_)
    simp [Activity.readings]

/-- **The LRU policy keeps idle pages down**, in every run of accesses and rounds under a clock that
does not go back and counts nanoseconds in 63 bits, exactly when no round finds one recent from its
own migration, and room for it above. -/
theorem lru_keeps_idle_iff (ringless : t₀.localCacheRing = none)
    (run : Trace (Acts (.lru lru)) t₀ es t)
    (steady : (es.flatMap fun e => e.2.readings).Pairwise (· ≤ ·))
    (bounded : ∀ now ∈ es.flatMap fun e => e.2.readings, now < 2 ^ 63) (p : PageId) :
    KeepsIdle (.lru lru) p es ↔ ¬ ComesBack lru p es := by
  constructor
  · rintro hkeeps ⟨before, ⟨s, e⟩, after, moved, readings, evictNow, now, target, hsplit, hidle,
      rfl, hlooks, hroom⟩
    obtain ⟨mv, hmv, hpage, hup⟩ :=
      (promotes_idle_iff ringless run steady bounded hsplit hidle).mpr ⟨target, hlooks, hroom⟩
    have hdown := hkeeps before _ after hsplit (by rw [hidle]; rfl) mv hmv hpage
    rw [hup] at hdown
    cases hdown
  · rintro hnot before ⟨s, e⟩ after hsplit hidle mv hmv hpage
    obtain ⟨moved, hidle⟩ := Option.isSome_iff_exists.mp hidle
    cases e with
    | access => cases hmv
    | scan readings evictNow now =>
      rw [← Bool.not_eq_true]
      intro hup
      obtain ⟨target, hlooks, hroom⟩ :=
        (promotes_idle_iff ringless run steady bounded hsplit hidle).mp ⟨mv, hmv, hpage, hup⟩
      exact hnot ⟨before, _, after, moved, readings, evictNow, now, target, hsplit, hidle, rfl,
        hlooks, hroom⟩

/-- The defaults: hot for a tenth of a second, cold after one. -/
def defaultLru : LRUPolicyConfig := ⟨100, 1000⟩

/-- A round in which the clock shows one time. -/
def scanAt (now : Nat) : Activity := .scan ⟨now, now, now⟩ now now

/-- Nobody accesses anything. The remote page goes down to PMEM, the local page to the remote tier,
and the next round finds the first one hot. -/
theorem demoted_page_comes_back : ∃ t₀ t₁ t₂ t₃ t : PageTable,
    (smallConfig 1 1 (by decide)).start false plainAllocation = .ok t₀ ∧
    Trace (Acts (.lru defaultLru)) t₀
      [(t₀, scanAt 2000000000), (t₁, scanAt 2000000000), (t₂, scanAt 2000000000),
        (t₃, scanAt 2000000000)] t ∧
    ¬ KeepsIdle (.lru defaultLru) 1
      [(t₀, scanAt 2000000000), (t₁, scanAt 2000000000), (t₂, scanAt 2000000000),
        (t₃, scanAt 2000000000)] := by
  have hrun : ∃ t₀ t₁ t₂ t₃ t : PageTable,
      (smallConfig 1 1 (by decide)).start false plainAllocation = .ok t₀ ∧
      Trace (Acts (.lru defaultLru)) t₀
        [(t₀, scanAt 2000000000), (t₁, scanAt 2000000000), (t₂, scanAt 2000000000),
          (t₃, scanAt 2000000000)] t ∧
      idleSince (.lru defaultLru) 1
        [(t₀, scanAt 2000000000), (t₁, scanAt 2000000000), (t₂, scanAt 2000000000)] =
          some 2000000000 ∧
      (scanAt 2000000000).moves (.lru defaultLru) t₃ = [⟨1, .pmem, .numaLocal, 2000000000⟩] :=
    ⟨_, _, _, _, _, rfl,
      .cons ⟨rfl, rfl⟩ (.cons ⟨rfl, rfl⟩ (.cons ⟨rfl, rfl⟩ (Trace.single.mpr ⟨rfl, rfl⟩))),
      rfl, rfl⟩
  obtain ⟨t₀, t₁, t₂, t₃, t, start, run, hidle, hmoves⟩ := hrun
  refine ⟨t₀, t₁, t₂, t₃, t, start, run, ?_⟩
  intro hkeeps
  have hdown := hkeeps [(t₀, _), (t₁, _), (t₂, _)] (t₃, _) [] rfl (by rw [hidle]; rfl)
    ⟨1, .pmem, .numaLocal, 2000000000⟩ (by rw [hmoves]; exact List.mem_singleton_self _) rfl
  cases hdown

/-- The page goes down, and the next round comes half a second later, when it is not hot. -/
theorem late_round_keeps_page_down : ∃ t₀ t₁ t : PageTable,
    loneConfig.start false plainAllocation = .ok t₀ ∧
    idleSince (.lru defaultLru) 0 [(t₀, scanAt 2000000000)] = some 2000000000 ∧
    Trace (Acts (.lru defaultLru)) t₀ [(t₀, scanAt 2000000000), (t₁, scanAt 2500000000)] t ∧
    KeepsIdle (.lru defaultLru) 0 [(t₀, scanAt 2000000000), (t₁, scanAt 2500000000)] := by
  have hrun : ∃ t₀ t₁ t : PageTable,
      loneConfig.start false plainAllocation = .ok t₀ ∧ t₀.localCacheRing = none ∧
      Trace (Acts (.lru defaultLru)) t₀ [(t₀, scanAt 2000000000), (t₁, scanAt 2500000000)] t ∧
      idleSince (.lru defaultLru) 0 [(t₀, scanAt 2000000000)] = some 2000000000 ∧
      t₁.layer? 0 = some .numaRemote :=
    ⟨_, _, _, rfl, rfl, .cons ⟨rfl, rfl⟩ (Trace.single.mpr ⟨rfl, rfl⟩), rfl, rfl⟩
  obtain ⟨t₀, t₁, t, start, ringless, run, hidle, hlayer⟩ := hrun
  refine ⟨t₀, t₁, t, start, hidle, run,
    (lru_keeps_idle_iff ringless run (by simp [Activity.readings, scanAt])
      (by simp [Activity.readings, scanAt]) 0).mpr ?_⟩
  rintro ⟨before, e, after, moved, readings, evictNow, now, target, hsplit, hbefore, hscan, hlooks,
    _⟩
  rcases before with _ | ⟨first, _ | ⟨second, rest⟩⟩
  · cases hbefore
  · simp only [List.cons_append, List.nil_append, List.cons.injEq] at hsplit
    obtain ⟨rfl, rfl, rfl⟩ := hsplit
    obtain rfl : 2000000000 = moved := Option.some.inj (hidle.symm.trans hbefore)
    cases hscan
    obtain ⟨_, hage⟩ := hlooks
    rw [hlayer] at hage
    exact absurd hage.2 (by decide)
  · simp at hsplit

end Runs

end PageTable

end MemoryTiering
