import MemoryTiering.Laws.PageTable.Coupling
import MemoryTiering.Scanner

/-!
# Promotions

What a promotion meets in a run of the manager and the scanner. The counter judges whether
NUMA-local memory is full, the ring whether it has a victim or a place, and the two differ. The ring
is smaller than the counter by the refused demotions, so an eviction has a candidate exactly while
there are fewer of them than NUMA-local pages (`eviction_has_candidate_iff`). And the ring's own
capacity is what the clients asked for, not what the tier can hold, so a promotion finds its place
in every run exactly when the two agree or no page starts below (`promotion_has_room_iff`).
-/

set_option autoImplicit false

namespace MemoryTiering

open Pointer Transition

/-- A policy that finds every page hot. -/
def Scanner.alwaysHot : Scanner.Classification := ⟨fun _ _ => .hot, fun _ _ => true⟩

/-- A policy that finds every page cold. -/
def Scanner.alwaysCold : Scanner.Classification := ⟨fun _ _ => .cold, fun _ _ => false⟩

namespace PageTable

/-! ## Driven runs -/

/-- What the two threads do: the manager accesses a page, the scanner makes a round. -/
inductive Event where
  | access (latency : SizeT → OperationType → UInt64) (now : Nat) (pageId : PageId)
      (mode : OperationType)
  | round (classification : Scanner.Classification) (evictNow now : Nat)

/-- The table after an event. -/
def Event.apply (t : PageTable) : Event → Except Fault PageTable
  | .access latency now pageId mode => t.accessPage latency now pageId mode
  | .round classification evictNow now => Scanner.round classification evictNow now t

/-- One completed event. -/
structure Drives (t : PageTable) (e : PageTable × Event) (t' : PageTable) : Prop where
  before : e.1 = t
  done : e.2.apply t = .ok t'

/-- What the event asks `migratePage` for. -/
def Event.request (t : PageTable) : Event → Option (PageId × PageLayer)
  | .access .. => none
  | .round classification _ _ => (Scanner.scan classification t).1

/-- The event sends a NUMA-local page to a full tier. -/
def Event.refusesDemotion (t : PageTable) (e : Event) : Bool :=
  (e.request t).any fun r => t.refusesDemotion r.1 r.2

/-- The event promotes a page while NUMA-local memory is full. -/
def Event.needsEviction (t : PageTable) (e : Event) : Bool :=
  (e.request t).any fun r => r.2 = .numaLocal && t.serverConfig.localNuma.isFull

section Driven

variable {t t' : PageTable} {classification : Scanner.Classification} {evictNow now : Nat}
  {p : PageId} {target : PageLayer}

theorem examine_eq (classification : Scanner.Classification) (t : PageTable) :
    Scanner.examine classification t =
      (t.scanIndex, (Scanner.examine classification t).2.1, t.scanNext.2) := rfl

/-- A visit that migrates. -/
theorem visit_migrates (h : (Scanner.examine classification t).2.1 = some target) :
    Scanner.visit classification evictNow now t =
      t.scanNext.2.migratePage evictNow now t.scanIndex target >>=
        fun answer => .ok (t.scanIndex, answer.2) := by
  unfold Scanner.visit
  rw [examine_eq, h]

/-- A visit that leaves its page alone. -/
theorem visit_rests (h : (Scanner.examine classification t).2.1 = none) :
    Scanner.visit classification evictNow now t = .ok (t.scanIndex, t.scanNext.2) := by
  unfold Scanner.visit
  rw [examine_eq, h]

/-- A round that migrates. -/
theorem round_migrates (h : (Scanner.scan classification t).1 = some (p, target)) :
    Scanner.round classification evictNow now t =
      t.scanNext.2.migratePage evictNow now p target >>= fun answer => .ok answer.2 := by
  obtain ⟨target', htarget, heq⟩ := Option.map_eq_some_iff.mp h
  obtain ⟨hpage, rfl⟩ := Prod.mk.inj heq
  obtain rfl : t.scanIndex = p := hpage
  unfold Scanner.round
  rw [visit_migrates htarget, bind_assoc]
  rfl

/-- A round that leaves its page alone. -/
theorem round_rests (h : (Scanner.scan classification t).1 = none) :
    Scanner.round classification evictNow now t = .ok t.scanNext.2 := by
  unfold Scanner.round
  rw [visit_rests (Option.map_eq_none_iff.mp h)]
  rfl

/-- Rounds that ask for the same do the same. -/
theorem round_congr {classification' : Scanner.Classification}
    (h : (Scanner.scan classification t).1 = (Scanner.scan classification' t).1) :
    Scanner.round classification evictNow now t = Scanner.round classification' evictNow now t := by
  cases hrequest : (Scanner.scan classification' t).1 with
  | none => rw [round_rests hrequest, round_rests (h.trans hrequest)]
  | some r => rw [round_migrates hrequest, round_migrates (h.trans hrequest)]

/-- The page a round examines is the one at the cursor. -/
theorem visit_eq_ok (h : Scanner.visit classification evictNow now t = .ok (p, t')) :
    p = t.scanIndex ∧ Scanner.round classification evictNow now t = .ok t' := by
  have hround : Scanner.round classification evictNow now t = .ok t' := by
    unfold Scanner.round
    rw [h]
    rfl
  refine ⟨?_, hround⟩
  cases hrequest : (Scanner.examine classification t).2.1 with
  | none =>
    rw [visit_rests hrequest] at h
    cases h
    rfl
  | some target =>
    rw [visit_migrates hrequest] at h
    obtain ⟨answer, _, h⟩ := Fallible.bind_eq_ok.mp h
    cases h
    rfl

theorem targetLayer_numaLocal (numTiers : Nat) (status : PageStatus) (hot : Bool) :
    Scanner.targetLayer numTiers .numaLocal status hot ≠ some .numaLocal := by
  unfold Scanner.targetLayer
  dsimp only
  split
  · split <;> decide
  · decide

/-- **Only pages of lower tiers are promoted.** -/
theorem scan_promotes (h : (Scanner.scan classification t).1 = some (p, .numaLocal)) :
    ∃ m, t.meta? p = some m ∧ m.pageLayer ≠ .numaLocal := by
  obtain ⟨target, htarget, heq⟩ := Option.map_eq_some_iff.mp h
  obtain ⟨rfl, rfl⟩ := Prod.mk.inj heq
  change Scanner.targetLayer _ (t.getPageMetaData t.scanIndex).1 _ _ = _ at htarget
  have hlower : (t.getPageMetaData t.scanIndex).1 ≠ .numaLocal := by
    intro hlocal
    rw [hlocal] at htarget
    exact targetLayer_numaLocal _ _ _ htarget
  unfold getPageMetaData at hlower
  cases hm : t.meta? t.scanIndex with
  | none =>
    rw [hm] at hlower
    exact (hlower rfl).elim
  | some m =>
    rw [hm] at hlower
    exact ⟨m, rfl, hlower⟩

/-- An event promotes only pages of lower tiers. -/
theorem request_lower {e : Event} (h : e.request t = some (p, .numaLocal)) :
    ∃ m, t.meta? p = some m ∧ m.pageLayer ≠ .numaLocal := by
  cases e with
  | access => cases h
  | round => exact scan_promotes h

/-- An event is one or two calls. -/
theorem Drives.is_run {e : PageTable × Event} (h : Drives t e t') :
    ∃ es, Trace Step t es t' ∧
      refusedDemotions es = if e.2.refusesDemotion e.1 then 1 else 0 := by
  obtain ⟨t, e⟩ := e
  obtain ⟨rfl, hdone⟩ := h
  cases e with
  | access latency now p mode =>
    exact ⟨[(t, .accessPage latency now p mode)], Trace.single.mpr ⟨rfl, hdone⟩, rfl⟩
  | round classification evictNow now =>
    have hscan : Step t (t, .scanNext) t.scanNext.2 := ⟨rfl, rfl⟩
    change Scanner.round classification evictNow now t = .ok t' at hdone
    show ∃ es, _ ∧ _ =
      if (Scanner.scan classification t).1.any fun r => t.refusesDemotion r.1 r.2 then 1 else 0
    cases hrequest : (Scanner.scan classification t).1 with
    | none =>
      rw [round_rests hrequest] at hdone
      cases hdone
      exact ⟨_, Trace.single.mpr hscan, rfl⟩
    | some r =>
      rw [round_migrates hrequest] at hdone
      have hmigrate : Step t.scanNext.2 (t.scanNext.2, .migratePage evictNow now r.1 r.2) t' :=
        ⟨rfl, hdone⟩
      have hcount : refusedDemotions [(t, .scanNext),
          (t.scanNext.2, .migratePage evictNow now r.1 r.2)] =
            if t.refusesDemotion r.1 r.2 then 1 else 0 := by
        unfold refusedDemotions
        rw [List.countP_cons, List.countP_cons, List.countP_nil, Nat.zero_add]
        rfl
      exact ⟨_, .cons hscan (Trace.single.mpr hmigrate), hcount⟩

/-- **What the manager and the scanner do is a run of calls.** -/
theorem Driven.is_run {es : List (PageTable × Event)} (h : Trace Drives t es t') :
    ∃ calls, Trace Step t calls t' ∧
      refusedDemotions calls = es.countP fun e => e.2.refusesDemotion e.1 := by
  induction h with
  | nil t => exact ⟨[], .nil t, rfl⟩
  | @cons t t₁ t₂ e es hstep _ ih =>
    obtain ⟨first, hfirst, hcount₁⟩ := hstep.is_run
    obtain ⟨rest, hrest, hcount₂⟩ := ih
    have hcount : refusedDemotions (first ++ rest) =
        (e :: es).countP fun e => e.2.refusesDemotion e.1 := by
      unfold refusedDemotions at hcount₁ hcount₂ ⊢
      rw [List.countP_append, hcount₁, hcount₂, List.countP_cons, Nat.add_comm]
    exact ⟨first ++ rest, hfirst.append hrest, hcount⟩

end Driven

/-! ## A promotion -/

section Promotion

variable {t : PageTable} {ring : ClockRing} {l : List Addr} {p : PageId} {m : PageMetadata}

/-- **Every way a promotion ends.** The page is not in the ring, which is as long without it. -/
theorem Held.promotion (h : t.Held ring l) (hm : t.meta? p = some m)
    (lower : m.pageLayer ≠ .numaLocal) (evictNow now : Nat) :
    ∃ rest : List Addr, rest.length = l.length ∧
      Ends t .numaLocal rest ring.capacity (t.migratePage evictNow now p .numaLocal) := by
  rcases h.outcome hm evictNow now .numaLocal with ⟨hlost, _⟩ | ⟨_, rest, _, hlength, hends⟩
  · simp [isLost, lower] at hlost
  · rw [if_neg lower, Nat.add_zero] at hlength
    exact ⟨rest, hlength, hends⟩

/-- Any other migration returns, or sends a page that is lost. -/
theorem Held.otherwise {target : PageLayer} (h : t.Held ring l) (p : PageId)
    (htarget : target ≠ .numaLocal) (evictNow now : Nat) :
    t.migratePage evictNow now p target = .error (.assertion .removeNullptr) ∨
      ∃ answer, t.migratePage evictNow now p target = .ok answer := by
  cases hm : t.meta? p with
  | none =>
    rw [migratePage_eq_body, migrateBody_notFound hm]
    exact .inr ⟨_, rfl⟩
  | some m =>
    rcases h.outcome hm evictNow now target with ⟨_, hcall⟩ | ⟨_, rest, _, _, hends⟩
    · exact .inl hcall
    · generalize t.migratePage evictNow now p target = result at hends ⊢
      cases hends with
      | noCandidate promotes => exact (htarget promotes).elim
      | freedNode promotes => exact (htarget promotes).elim
      | ringFull promotes => exact (htarget promotes).elim
      | returns _ answer => exact .inr ⟨answer, rfl⟩

/-- An access returns. -/
theorem Held.access (h : t.Held ring l) (latency : SizeT → OperationType → UInt64) (now : Nat)
    (p : PageId) (mode : OperationType) : ∃ t', t.accessPage latency now p mode = .ok t' := by
  unfold accessPage
  cases he : t.table.lookup p with
  | none => exact ⟨t, rfl⟩
  | some e =>
    have hm : t.meta? p = some e.metadata := by rw [meta?, he, Option.map_some]
    obtain ⟨ring', hmark, _⟩ := h.mark hm
    dsimp only
    rw [h.present]
    cases e.metadata.pageLayer with
    | numaLocal =>
      dsimp only
      rw [hmark]
      exact ⟨_, rfl⟩
    | numaRemote => exact ⟨_, rfl⟩
    | pmem => exact ⟨_, rfl⟩

/-- **How an event fails an assert of the ring.** -/
theorem Held.event (h : t.Held ring l) (e : Event) :
    (e.apply t = .error (.assertion .ringEmpty) ↔ e.needsEviction t = true ∧ l = []) ∧
      (e.apply t = .error (.assertion .migrateInsert) ↔
        (∃ p, e.request t = some (p, .numaLocal)) ∧
          t.serverConfig.localNuma.isFull = false ∧ l.length = ring.capacity.toNat) := by
  cases e with
  | access latency now p mode =>
    obtain ⟨t', hcall⟩ := h.access latency now p mode
    show (t.accessPage latency now p mode = _ ↔ false = true ∧ _) ∧
      (t.accessPage latency now p mode = _ ↔ (∃ p, none = some (p, _)) ∧ _)
    rw [hcall]
    simp
  | round classification evictNow now =>
    show (Scanner.round classification evictNow now t = _ ↔
        Option.any _ (Scanner.scan classification t).1 = true ∧ _) ∧
      (Scanner.round classification evictNow now t = _ ↔
        (∃ p, (Scanner.scan classification t).1 = some (p, _)) ∧ _)
    cases hrequest : (Scanner.scan classification t).1 with
    | none =>
      rw [round_rests hrequest]
      simp
    | some r =>
      obtain ⟨p, target⟩ := r
      have hheld : t.scanNext.2.Held ring l := h.congr rfl rfl
      have hconfig : t.scanNext.2.serverConfig = t.serverConfig := rfl
      rw [round_migrates hrequest]
      by_cases htarget : target = .numaLocal
      · subst htarget
        obtain ⟨m, hm, lower⟩ := scan_promotes hrequest
        obtain ⟨rest, hlength, hends⟩ := hheld.promotion hm lower evictNow now
        rw [← hlength, ← List.length_eq_zero_iff, ← hlength, ← hconfig]
        generalize t.scanNext.2.migratePage evictNow now p .numaLocal = result at hends ⊢
        cases hends with
        | noCandidate _ full empty => simp [full, empty, bind, Except.bind]
        | freedNode _ full nonempty a => simp [full, nonempty, bind, Except.bind]
        | ringFull _ room full => simp [room, full, bind, Except.bind]
        | returns room answer =>
          obtain ⟨hroom, hplaces⟩ := room rfl
          simp [hroom, hplaces.ne, bind, Except.bind]
      · rcases hheld.otherwise p htarget evictNow now with hcall | ⟨answer, hcall⟩
        · rw [hcall]
          simp [htarget, bind, Except.bind]
        · rw [hcall]
          simp [htarget, bind, Except.bind]

end Promotion

/-! ## Candidates -/

section Candidates

variable {config : AcceptedConfig} {alloc : Allocation} {t₀ t : PageTable}
  {es : List (PageTable × Event)}

/-- What a driven run reaches. -/
theorem driven_reached (start : config.start true alloc = .ok t₀) (run : Trace Drives t₀ es t) :
    ∃ ring l, Reached config t ring l (es.countP fun e => e.2.refusesDemotion e.1) := by
  obtain ⟨calls, hcalls, hcount⟩ := Driven.is_run run
  rw [← hcount]
  exact reached start hcalls

/-- The counter of NUMA-local memory is the ring and the lost pages. -/
theorem Reached.count_eq {ring : ClockRing} {l : List Addr} {refused : Nat}
    (h : Reached config t ring l refused) :
    t.serverConfig.localNuma.count.toNat = l.length + refused := by
  rw [← h.lost, ← h.held.local_eq]
  exact h.accounted.tallied .numaLocal

/-- **An eviction has a candidate**, in every state of every driven run, exactly when fewer
demotions have been refused so far than there are NUMA-local pages. -/
theorem eviction_has_candidate_iff (start : config.start true alloc = .ok t₀)
    (run : Trace Drives t₀ es t) (e : Event) :
    e.apply t ≠ .error (.assertion .ringEmpty) ↔
      (e.needsEviction t = true →
        (es.countP fun e => e.2.refusesDemotion e.1) < t.serverConfig.localNuma.count.toNat) := by
  obtain ⟨ring, l, h⟩ := driven_reached start run
  have hnil : l = [] ↔ ¬ (es.countP fun e => e.2.refusesDemotion e.1) <
      t.serverConfig.localNuma.count.toNat := by
    rw [h.count_eq, ← List.length_eq_zero_iff]
    omega
  rw [ne_eq, (h.held.event e).1, hnil, not_and, not_not]

/-- A cold page is sent to the full remote tier and a hot one to the full local tier: the counter
still says full, and the ring has nobody to evict. -/
theorem refused_demotion_empties_ring : ∃ t₀ t,
    (smallConfig 1 1 (by decide)).start true plainAllocation = .ok t₀ ∧
    Trace Drives t₀ [(t₀, .round Scanner.alwaysCold 0 0)] t ∧
    (Event.round Scanner.alwaysHot 0 0).apply t = .error (.assertion .ringEmpty) :=
  ⟨_, _, rfl, Trace.single.mpr ⟨rfl, rfl⟩, rfl⟩

theorem first_eviction_has_candidate : ∃ t₀ t,
    (smallConfig 1 1 (by decide)).start true plainAllocation = .ok t₀ ∧
    Trace Drives t₀ [(t₀, .round Scanner.alwaysHot 0 0)] t ∧
    (Event.round Scanner.alwaysHot 0 0).needsEviction t = true ∧
    (Event.round Scanner.alwaysHot 0 0).apply t ≠ .error (.assertion .ringEmpty) := by
  have hrun : ∃ t₀ t, (smallConfig 1 1 (by decide)).start true plainAllocation = .ok t₀ ∧
      Trace Drives t₀ [(t₀, .round Scanner.alwaysHot 0 0)] t ∧
      (Event.round Scanner.alwaysHot 0 0).needsEviction t = true ∧
      (Event.round Scanner.alwaysHot 0 0).refusesDemotion t₀ = false ∧
      t.serverConfig.localNuma.count.toNat = 1 :=
    ⟨_, _, rfl, Trace.single.mpr ⟨rfl, rfl⟩, rfl, rfl, rfl⟩
  obtain ⟨t₀, t, start, run, hneeds, hkept, hcount⟩ := hrun
  refine ⟨t₀, t, start, run, hneeds, (eviction_has_candidate_iff start run _).mpr ?_⟩
  intro _
  rw [hcount, List.countP_cons, List.countP_nil, hkept]
  decide

end Candidates

/-! ## Room -/

section Room

variable {config : AcceptedConfig} {alloc : Allocation} {t₀ t : PageTable}

/-- A page of a lower tier is not in NUMA-local memory. -/
theorem population_lt_of_lower {p : PageId}
    (h : ∃ m, t.meta? p = some m ∧ m.pageLayer ≠ .numaLocal) :
    t.population .numaLocal < t.table.size := by
  obtain ⟨m, hm, hlower⟩ := h
  have hpos := population_pos (layer?_eq hm)
  have hsum := t.population_sum
  cases hlayer : m.pageLayer with
  | numaLocal => exact (hlower hlayer).elim
  | numaRemote => rw [hlayer] at hpos; omega
  | pmem => rw [hlayer] at hpos; omega

/-- A hot round over a NUMA-local page leaves it alone. -/
theorem round_hot_local (h : t.layer? t.scanIndex = some .numaLocal) (evictNow now : Nat) :
    Scanner.round Scanner.alwaysHot evictNow now t = .ok t.scanNext.2 := by
  obtain ⟨m, hm, hlayer⟩ := Option.map_eq_some_iff.mp h
  apply round_rests
  show (Scanner.targetLayer _ (t.getPageMetaData t.scanIndex).1 .hot true).map _ = none
  unfold getPageMetaData
  rw [hm]
  dsimp only
  rw [hlayer]
  rfl

/-- A hot round over any other page asks for its promotion. -/
theorem request_hot_lower {m : PageMetadata} (hm : t.meta? t.scanIndex = some m)
    (lower : m.pageLayer ≠ .numaLocal) (evictNow now : Nat) :
    (Event.round Scanner.alwaysHot evictNow now).request t = some (t.scanIndex, .numaLocal) := by
  show (Scanner.targetLayer _ (t.getPageMetaData t.scanIndex).1 .hot true).map _ = _
  unfold getPageMetaData
  rw [hm]
  dsimp only
  cases hlayer : m.pageLayer with
  | numaLocal => exact (lower hlayer).elim
  | numaRemote => rfl
  | pmem => rfl

/-- The table with the scanner's index elsewhere. -/
def atIndex (t : PageTable) (j : Nat) : PageTable := { t with scanIndex := UInt64.ofNat j }

/-- The scanner moves on inside the table. -/
theorem scanNext_atIndex (small : t.table.size < 2 ^ 64) {j : Nat} (hj : j + 1 < t.table.size) :
    (t.atIndex j).scanNext.2 = t.atIndex (j + 1) := by
  have hnext : UInt64.ofNat j + 1 = UInt64.ofNat (j + 1) := (UInt64.ofNat_add j 1).symm
  have hmore : ¬ t.size ≤ UInt64.ofNat (j + 1) := by
    unfold size
    rw [UInt64.le_iff_toNat_le, SizeT.toNat_ofNat small, SizeT.toNat_ofNat (by omega)]
    omega
  show { t with scanIndex := if t.size ≤ UInt64.ofNat j + 1 then 0 else UInt64.ofNat j + 1 } = _
  rw [hnext, if_neg hmore]
  rfl

/-- Hot rounds carry the index over the NUMA-local pages at the front of the table. -/
theorem hot_rounds_reach (small : t.table.size < 2 ^ 64) (hindex : t.scanIndex = 0) {j : Nat}
    (hj : j < t.table.size) (front : ∀ i < j, t.layer? (UInt64.ofNat i) = some .numaLocal) :
    ∃ es, Trace Drives t es (t.atIndex j) := by
  induction j with
  | zero =>
    have hsame : t.atIndex 0 = t := by
      unfold atIndex
      rw [show UInt64.ofNat 0 = t.scanIndex from hindex.symm]
    rw [hsame]
    exact ⟨[], .nil t⟩
  | succ j ih =>
    obtain ⟨es, hes⟩ := ih (by omega) fun i hi => front i (by omega)
    have hround : (Event.round Scanner.alwaysHot 0 0).apply (t.atIndex j) =
        .ok (t.atIndex (j + 1)) := by
      rw [← scanNext_atIndex small hj]
      exact round_hot_local (front j (Nat.lt_succ_self j)) 0 0
    exact ⟨_, hes.snoc (e := (t.atIndex j, _)) ⟨rfl, hround⟩⟩

/-- The first page of a lower tier. -/
theorem exists_first_lower (numbered : t.Numbered)
    (lower : 0 < t.population .numaRemote + t.population .pmem) :
    ∃ j < t.table.size, (∃ m, t.meta? (UInt64.ofNat j) = some m ∧ m.pageLayer ≠ .numaLocal) ∧
      ∀ i < j, t.layer? (UInt64.ofNat i) = some .numaLocal := by
  have hpage : ∀ layer, layer ≠ .numaLocal → 0 < t.population layer →
      ∃ q m, t.meta? q = some m ∧ m.pageLayer ≠ .numaLocal := by
    intro layer hlayer hpos
    obtain ⟨q, m, hm, heq⟩ := exists_of_census_pos hpos
    exact ⟨q, m, hm, of_decide_eq_true heq ▸ hlayer⟩
  obtain ⟨q, hq⟩ : ∃ q m, t.meta? q = some m ∧ m.pageLayer ≠ .numaLocal := by
    rcases Nat.eq_zero_or_pos (t.population .numaRemote) with hzero | hpos
    · exact hpage .pmem (by decide) (by omega)
    · exact hpage .numaRemote (by decide) hpos
  have hexists : ∃ j, ∃ m, t.meta? (UInt64.ofNat j) = some m ∧ m.pageLayer ≠ .numaLocal :=
    ⟨q.toNat, by rw [UInt64.ofNat_toNat]; exact hq⟩
  classical
  have hfirst := Nat.find_spec hexists
  have hinside : ∀ j ≤ q.toNat, j < t.table.size := by
    obtain ⟨m, hm, _⟩ := hq
    have hlt := (numbered.pages q).mp (by rw [hm]; rfl)
    omega
  have hle : Nat.find hexists ≤ q.toNat :=
    Nat.find_min' hexists (by rw [UInt64.ofNat_toNat]; exact hq)
  refine ⟨Nat.find hexists, hinside _ hle, hfirst, ?_⟩
  intro i hi
  have hnot := Nat.find_min hexists hi
  have hpresent : (t.meta? (UInt64.ofNat i)).isSome = true := by
    have hi' := hinside i (by omega)
    rw [numbered.pages, SizeT.toNat_ofNat (hi'.trans numbered.small)]
    exact hi'
  obtain ⟨m, hm⟩ := Option.isSome_iff_exists.mp hpresent
  rw [layer?_eq hm]
  by_contra hlower
  apply hnot
  exact ⟨m, hm, fun heq => hlower (congrArg some heq)⟩

/-- **A promoted page finds room in the ring**, in every driven run, exactly when the clients fill
NUMA-local memory or ask for nothing else. -/
theorem promotion_has_room_iff (start : config.start true alloc = .ok t₀) :
    (∀ es t, Trace Drives t₀ es t → ∀ e : Event, e.apply t ≠ .error (.assertion .migrateInsert)) ↔
      demand config.server.numTiers config.clients .numaLocal =
          config.server.localNuma.capacity.toNat ∨
        demand config.server.numTiers config.clients .numaRemote +
          demand config.server.numTiers config.clients .pmem = 0 := by
  have hinit := AcceptedConfig.initial start
  constructor
  · intro hall
    by_contra hnot
    obtain ⟨hcapacity, hlower⟩ := not_or.mp hnot
    rw [← hinit.population, ← hinit.population] at hlower
    obtain ⟨j, hj, ⟨m, hm, hlayer⟩, front⟩ :=
      exists_first_lower hinit.numbered (Nat.pos_of_ne_zero hlower)
    obtain ⟨es, run⟩ := hot_rounds_reach hinit.numbered.small hinit.frame.scanIndex hj front
    obtain ⟨ring, l, h⟩ := driven_reached start (.nil t₀)
    have hheld : (t₀.atIndex j).Held ring l := h.held.congr rfl rfl
    have hcount : t₀.serverConfig.localNuma.count.toNat =
        demand config.server.numTiers config.clients .numaLocal :=
      (hinit.tallied .numaLocal).trans (hinit.population .numaLocal)
    have hfit := AcceptedConfig.demand_le start .numaLocal
    have hroom : t₀.serverConfig.localNuma.isFull = false := by
      rw [LayerInfo.isFull_eq_false_iff]
      show t₀.serverConfig.localNuma.count.toNat < (t₀.serverConfig.layer .numaLocal).capacity.toNat
      rw [hcount, h.accounted.capacity]
      exact Nat.lt_of_le_of_ne hfit hcapacity
    have hplaces : l.length = ring.capacity.toNat := by
      rw [h.capacity, ← hcount, h.count_eq]
      rfl
    apply hall es _ run (.round Scanner.alwaysHot 0 0)
    exact (hheld.event _).2.mpr ⟨⟨_, request_hot_lower hm hlayer 0 0⟩, hroom, hplaces⟩
  · intro hcond es t run e hfail
    obtain ⟨ring, l, h⟩ := driven_reached start run
    obtain ⟨⟨p, hrequest⟩, hroom, hplaces⟩ := (h.held.event e).2.mp hfail
    rw [LayerInfo.isFull_eq_false_iff, h.count_eq] at hroom
    rw [h.capacity] at hplaces
    rcases hcond with hcapacity | hnone
    · have hsame := h.accounted.capacity .numaLocal
      change t.serverConfig.localNuma.capacity = config.server.localNuma.capacity at hsame
      rw [hsame] at hroom
      omega
    · -- every page was NUMA-local at first, so the page to promote has left the ring
      have hlower := population_lt_of_lower (request_lower hrequest)
      have hpopulation := h.held.local_eq
      have hsize := h.size
      simp only [List.map_cons, List.map_nil, List.sum_cons, List.sum_nil] at hsize
      omega

/-- With a page of room in local memory and none in the ring, the first hot page below fails. -/
theorem first_promotion_fails : ∃ t₀ t,
    (smallConfig 2 0 (by decide)).start true plainAllocation = .ok t₀ ∧
    Trace Drives t₀ [(t₀, .round Scanner.alwaysHot 0 0)] t ∧
    (Event.round Scanner.alwaysHot 0 0).apply t = .error (.assertion .migrateInsert) :=
  ⟨_, _, rfl, Trace.single.mpr ⟨rfl, rfl⟩, rfl⟩

theorem full_ring_has_room : ∃ t₀,
    (smallConfig 1 1 (by decide)).start true plainAllocation = .ok t₀ ∧
    ∀ es t, Trace Drives t₀ es t → ∀ e : Event, e.apply t ≠ .error (.assertion .migrateInsert) := by
  have hstart : ∃ t₀, (smallConfig 1 1 (by decide)).start true plainAllocation = .ok t₀ := ⟨_, rfl⟩
  obtain ⟨t₀, start⟩ := hstart
  exact ⟨t₀, start, (promotion_has_room_iff start).mpr (.inl (by decide))⟩

end Room

end PageTable

end MemoryTiering
