import MemoryTiering.Laws.PageTable.Accounting

/-!
# What a call does to the coupling

A completed call keeps `Held`, and loses a node in one case only: a NUMA-local page is sent to a
full tier, and the call returns after `remove` (`Call.refusesDemotion`, `Held.apply`). A migration
that does not complete ends in one of the ways of `Ends`: the counter of NUMA-local memory chooses
the branch, and the ring decides how it goes (`Held.outcome`).
-/

set_option autoImplicit false

namespace MemoryTiering

open Fallible Pointer Transition

namespace PageTable

/-- The call sends a NUMA-local page to a full tier. -/
def refusesDemotion (t : PageTable) (p : PageId) (target : PageLayer) : Bool :=
  t.layer? p = some .numaLocal && target ≠ .numaLocal && (t.serverConfig.layer target).isFull

def Call.refusesDemotion (t : PageTable) : Call → Bool
  | .migratePage _ _ p target => t.refusesDemotion p target
  | _ => false

/-! ## The phases of a migration -/

section Phases

variable {t t' : PageTable} {ring : ClockRing} {l : List Addr} {p : PageId} {m : PageMetadata}

/-- A page that is not NUMA-local has no node. -/
theorem Held.no_node (h : t.Held ring l) (hm : t.meta? p = some m)
    (hlayer : m.pageLayer ≠ .numaLocal) : m.ringNodePtr = none := by
  cases hptr : m.ringNodePtr with
  | none => rfl
  | some a => exact (hlayer (h.points p m a hm hptr).1).elim

/-- What leaving the ring leaves, of a page that had a node or needs none. -/
structure Taken (t t₁ : PageTable) (l l₁ : List Addr) (p : PageId) (m m₁ : PageMetadata) :
    Prop where
  same : SameLayers t t₁
  found : t₁.meta? p = some m₁
  others : ∀ q, q ≠ p → t₁.meta? q = t.meta? q
  layer : m₁.pageLayer = m.pageLayer
  noNode : m₁.ringNodePtr = none
  length : l₁.length + (if m.pageLayer = .numaLocal then 1 else 0) = l.length
  lost : t₁.lost = t.lost + if m.pageLayer = .numaLocal then 1 else 0

/-- A page that has a node, or is elsewhere, leaves the ring. -/
theorem Held.take (h : t.Held ring l) (hm : t.meta? p = some m)
    (hnode : m.pageLayer = .numaLocal → m.ringNodePtr ≠ none) :
    ∃ t₁ ring₁ l₁ m₁, t.takeFromRing ClockRing.remove p m = .ok t₁ ∧ t₁.Held ring₁ l₁ ∧
      ring₁.capacity = ring.capacity ∧ Taken t t₁ l l₁ p m m₁ := by
  by_cases hlayer : m.pageLayer = .numaLocal
  · obtain ⟨a, hptr⟩ := Option.ne_none_iff_exists'.mp (hnode hlayer)
    obtain ⟨ring₁, hremove, hheld, hcap⟩ := h.release hm hptr
    have hcall : t.takeFromRing ClockRing.remove p m =
        .ok ((t.store p (.setRingNode none)).withRing ring₁) := by
      rw [takeFromRing_local h.present hlayer, hptr, hremove, ok_bind]
    refine ⟨_, ring₁, _, m.setRingNode none, hcall, hheld, hcap, ?_⟩
    constructor
    case same => exact sameLayers_takeFromRing hcall
    case found => exact t.meta?_store_self p (.setRingNode none) hm
    case others =>
      intro q hq
      exact t.meta?_store_ne p q (.setRingNode none) hq
    case layer => rfl
    case noNode => rfl
    case length =>
      have ha := h.live hm hptr
      have hpos := List.length_pos_of_mem ha
      rw [if_pos hlayer, List.length_erase_of_mem ha]
      omega
    case lost =>
      have hstore := t.census_store p (.setRingNode none) isLost hm
      have hbefore : isLost m = false := by simp [isLost, hptr]
      have hafter : isLost (m.setRingNode none) = true := by simp [isLost, hlayer]
      rw [hbefore, hafter] at hstore
      rw [if_pos hlayer]
      exact hstore
  · have hcall : t.takeFromRing ClockRing.remove p m = .ok t :=
      takeFromRing_skip _ _ _ (.inr hlayer)
    have hlength : l.length + (if m.pageLayer = .numaLocal then 1 else 0) = l.length := by
      rw [if_neg hlayer, Nat.add_zero]
    have hlost : t.lost = t.lost + if m.pageLayer = .numaLocal then 1 else 0 := by
      rw [if_neg hlayer, Nat.add_zero]
    exact ⟨t, ring, l, m, hcall, h, rfl, .refl t, hm, fun _ _ => rfl, rfl, h.no_node hm hlayer,
      hlength, hlost⟩

/-- A lost page fails the assert of `remove`. -/
theorem Held.take_lost (h : t.Held ring l) (hlost : isLost m = true) :
    t.takeFromRing ClockRing.remove p m = .error (.assertion .removeNullptr) := by
  simp only [isLost, Bool.and_eq_true, decide_eq_true_eq, Option.isNone_iff_eq_none] at hlost
  rw [takeFromRing_local h.present hlost.1, hlost.2]
  rfl

/-- **Moving a page without a node**: it gets one in NUMA-local memory, if the call returns. -/
theorem Held.finishMove {now : Nat} {current target : PageLayer} (h : t.Held ring l)
    (hm : t.meta? p = some m) (hptr : m.ringNodePtr = none)
    (hcall : t.finishMove now p current target = .ok t') :
    ∃ ring' l', t'.Held ring' l' ∧ ring'.capacity = ring.capacity ∧
      t'.lost + (if m.pageLayer = .numaLocal then 1 else 0) = t.lost := by
  obtain ⟨t₁, henter, hcall⟩ := bind_eq_ok.mp hcall
  have hstored : (t.store p (.setLayer target)).Held ring l := by
    apply h.store p (.setLayer target) fun _ => rfl
    intro m' hm' hne
    rw [hm] at hm'
    cases hm'
    exact (hne hptr).elim
  have hm₁ := t.meta?_store_self p (.setLayer target) hm
  have hlost₁ := t.census_store p (.setLayer target) isLost hm
  -- the stamp and the count at the end touch no node and no layer
  have hsettle : ∀ {ring₁ l₁}, t₁.Held ring₁ l₁ → (t₁.settle now p current target).Held ring₁ l₁ :=
    fun h₁ => (h₁.store p (.reset now) (fun _ => rfl) fun _ _ _ => rfl).congr rfl rfl
  have hstamp : (t₁.settle now p current target).lost = t₁.lost :=
    census_store_eq t₁ p (.reset now) isLost fun _ _ => rfl
  have hbefore : isLost m = decide (m.pageLayer = .numaLocal) := by simp [isLost, hptr]
  cases hcall
  rcases enterRing_cases henter with ⟨hskip, rfl⟩ | ⟨ring₀, a, ring', hring, rfl, hinsert, rfl⟩
  · have htarget : target ≠ .numaLocal := by
      apply hskip.resolve_left
      intro hnone
      rw [hstored.present] at hnone
      cases hnone
    refine ⟨ring, l, hsettle hstored, rfl, ?_⟩
    have hafter : isLost (m.setLayer target) = false := by
      simp [isLost, htarget]
    rw [hbefore, hafter] at hlost₁
    simp only [decide_eq_true_eq, Bool.false_eq_true, if_false] at hlost₁
    rw [hstamp]
    exact hlost₁
  · obtain rfl : ring = ring₀ := Option.some.inj (hstored.present.symm.trans hring)
    obtain ⟨hheld, hcap⟩ := hstored.enter hm₁ hptr rfl hinsert
    refine ⟨ring', _, hsettle hheld, hcap, ?_⟩
    have hlost₂ := ((t.store p (.setLayer .numaLocal)).withRing ring').census_store
      p (.setRingNode (some a)) isLost hm₁
    have hmiddle : isLost (m.setLayer .numaLocal) = true := by
      simp [isLost, hptr]
    have hafter : isLost ((m.setLayer .numaLocal).setRingNode (some a)) = false := by
      simp [isLost]
    rw [hmiddle, hafter, census_withRing] at hlost₂
    rw [hbefore, hmiddle] at hlost₁
    simp only [decide_eq_true_eq, if_true, Bool.false_eq_true, if_false] at hlost₁ hlost₂
    rw [hstamp]
    unfold lost
    omega

/-- **Moving a page without a node returns** unless its new ring is full. -/
theorem Held.finishMove_cases (h : t.Held ring l) (now : Nat) (p : PageId)
    (current target : PageLayer) :
    (target = .numaLocal ∧ l.length = ring.capacity.toNat ∧
        t.finishMove now p current target = .error (.assertion .migrateInsert)) ∨
      ((target = .numaLocal → l.length < ring.capacity.toNat) ∧
        ∃ t', t.finishMove now p current target = .ok t') := by
  by_cases htarget : target = .numaLocal
  · subst htarget
    have hring : (t.store p (.setLayer .numaLocal)).localCacheRing = some ring := h.present
    rcases h.insert_cases p with ⟨full, hinsert⟩ | ⟨room, a, ring', hinsert⟩
    · have hcall : t.finishMove now p current .numaLocal = .error (.assertion .migrateInsert) := by
        unfold PageTable.finishMove enterRing
        simp only [hring, hinsert, ok_bind]
        rfl
      exact .inl ⟨rfl, full, hcall⟩
    · exact .inr ⟨fun _ => room, finishMove_enter h.present hinsert now current⟩
  · exact .inr ⟨fun heq => (htarget heq).elim, _, finishMove_skip now t p current (.inr htarget)⟩

/-- Once a page has left the ring, what is left are the other pages' nodes. -/
theorem Held.ne_nil_iff {t₁ : PageTable} {ring₁ : ClockRing} {l₁ : List Addr} {m₁ : PageMetadata}
    (h₁ : t₁.Held ring₁ l₁) (taken : Taken t t₁ l l₁ p m m₁) :
    l₁ ≠ [] ↔ ∃ q m', q ≠ p ∧ t.meta? q = some m' ∧ m'.ringNodePtr ≠ none := by
  constructor
  · intro hne
    obtain ⟨a, ha⟩ := List.exists_mem_of_ne_nil l₁ hne
    obtain ⟨q, m', hm', hptr⟩ := h₁.owned a ha
    have hqp : q ≠ p := by
      rintro rfl
      rw [taken.found, Option.some.injEq] at hm'
      rw [← hm', taken.noNode] at hptr
      cases hptr
    exact ⟨q, m', hqp, taken.others q hqp ▸ hm', by rw [hptr]; exact Option.some_ne_none a⟩
  · rintro ⟨q, m', hqp, hm', hne⟩
    obtain ⟨a, hptr⟩ := Option.ne_none_iff_exists'.mp hne
    exact List.ne_nil_of_mem (h₁.live ((taken.others q hqp).trans hm') hptr)

end Phases

/-! ## A call -/

section Calls

variable {t t' : PageTable} {ring : ClockRing} {l : List Addr} {p : PageId} {target : PageLayer}
  {evictNow now : Nat}

/-- A promotion to the full tier never gets past its eviction. -/
theorem Held.checkCapacity_full (h : t.Held ring l) (evictNow : Nat)
    (full : t.serverConfig.localNuma.isFull = true) :
    (l = [] ∧ t.checkCapacity (migratePage evictNow evictNow) .numaLocal =
        .error (.assertion .ringEmpty)) ∨
      (l ≠ [] ∧ ∃ a, t.checkCapacity (migratePage evictNow evictNow) .numaLocal =
        .error (.useAfterFree a)) := by
  rw [checkCapacity_promotion h.present, if_pos full]
  by_cases hl : l = []
  · left
    subst hl
    rw [h.evict_empty]
    exact ⟨rfl, rfl⟩
  · right
    obtain ⟨a, _, hfault⟩ := h.evict_faults hl (PageTable.migratePage evictNow evictNow) evictNow
    rw [migratePage_eq_body, hfault]
    exact ⟨hl, a, rfl⟩

/-- Any other check is a comparison. -/
theorem Held.checkCapacity_plain (h : t.Held ring l)
    (hplain : target = .numaLocal → t.serverConfig.localNuma.isFull = false)
    (migrate : PageTable → PageId → PageLayer → Except Fault (Exit × PageTable)) :
    t.checkCapacity migrate target =
      .ok (if (t.serverConfig.layer target).isFull then none else some t) := by
  by_cases htarget : target = .numaLocal
  · subst htarget
    have hroom : (t.serverConfig.layer .numaLocal).isFull = false := hplain rfl
    rw [checkCapacity_promotion h.present, hplain rfl, hroom]
    rfl
  · exact PageTable.checkCapacity_plain migrate t (.inr htarget)

/-- **A check that returns** refused a demotion, or found room and changed nothing. -/
theorem Held.checkCapacity_cases {answer : Option PageTable} (h : t.Held ring l)
    (hcheck : t.checkCapacity (migratePage evictNow evictNow) target = .ok answer) :
    (target ≠ .numaLocal ∧ (t.serverConfig.layer target).isFull = true ∧ answer = none) ∨
      ((t.serverConfig.layer target).isFull = false ∧ answer = some t) := by
  by_cases hplain : target = .numaLocal → t.serverConfig.localNuma.isFull = false
  · rw [h.checkCapacity_plain hplain] at hcheck
    cases hfull : (t.serverConfig.layer target).isFull with
    | false =>
      rw [hfull] at hcheck
      exact .inr ⟨rfl, (Except.ok.inj hcheck).symm⟩
    | true =>
      rw [hfull] at hcheck
      have htarget : target ≠ .numaLocal := by
        rintro rfl
        exact Bool.noConfusion (hfull.symm.trans (hplain rfl))
      exact .inl ⟨htarget, rfl, (Except.ok.inj hcheck).symm⟩
  · obtain ⟨rfl, hfull⟩ := Classical.not_imp.mp hplain
    rcases h.checkCapacity_full evictNow (Bool.not_eq_false _ ▸ hfull) with ⟨_, herr⟩ | ⟨_, a, herr⟩
    · rw [hcheck] at herr
      cases herr
    · rw [hcheck] at herr
      cases herr

/-- What a completed call leaves, with how many nodes it lost. -/
structure Called (t t' : PageTable) (ring ring' : ClockRing) (l' : List Addr) (refused : Bool) :
    Prop where
  held : t'.Held ring' l'
  capacity : ring'.capacity = ring.capacity
  lost : t'.lost = t.lost + if refused then 1 else 0
  shifted : Shifted t t'

/-- **The step lemma** of a migration: the coupling stays, and a node is lost when a demotion is
refused. -/
theorem Held.migratePage {exit : Exit} (h : t.Held ring l)
    (hcall : t.migratePage evictNow now p target = .ok (exit, t')) :
    ∃ ring' l', Called t t' ring ring' l' (t.refusesDemotion p target) := by
  rw [migratePage_eq_body] at hcall
  rcases migrateBody_cases hcall with ⟨hm, _, rfl⟩ | ⟨m, t₁, hm, htake, hrest⟩
  · have hnone : t'.layer? p = none := by rw [layer?, hm, Option.map_none]
    have hno : t'.refusesDemotion p target = false := by simp [refusesDemotion, hnone]
    rw [hno]
    exact ⟨ring, l, h, rfl, rfl, .inl (.refl t')⟩
  · have hnode : m.pageLayer = .numaLocal → m.ringNodePtr ≠ none := by
      intro hlayer hptr
      rw [h.take_lost (by simp [isLost, hlayer, hptr])] at htake
      cases htake
    obtain ⟨t₁', ring₁, l₁, m₁, htake', h₁, hcap₁, taken⟩ := h.take hm hnode
    rw [htake] at htake'
    obtain rfl := Except.ok.inj htake'
    have hlayer := layer?_eq hm
    have hfull : (t.serverConfig.layer target).isFull = (t₁.serverConfig.layer target).isFull := by
      rw [taken.same.serverConfig]
    rcases hrest with ⟨hcheck, _, rfl⟩ | ⟨t₂, hcheck, _, hfinish⟩
    · rcases h₁.checkCapacity_cases hcheck with ⟨htarget, hisFull, _⟩ | ⟨_, hsome⟩
      · have hrefused : t.refusesDemotion p target = decide (m.pageLayer = .numaLocal) := by
          simp [refusesDemotion, hlayer, hfull, hisFull, htarget]
        have hlost : t'.lost = t.lost + if t.refusesDemotion p target then 1 else 0 := by
          rw [taken.lost, hrefused]
          simp only [decide_eq_true_eq]
        exact ⟨ring₁, l₁, h₁, hcap₁, hlost, .inl taken.same⟩
      · cases hsome
    · rcases h₁.checkCapacity_cases hcheck with ⟨_, _, hnone⟩ | ⟨hroom, hsome⟩
      · cases hnone
      · obtain rfl := Option.some.inj hsome
        obtain ⟨ring', l', h', hcap, hlost⟩ := h₁.finishMove taken.found taken.noNode hfinish
        have hmove := moved_of_finishMove ((layer?_eq taken.found).trans
          (congrArg some taken.layer)) hfinish
        rw [← hfull] at hroom
        have hno : t.refusesDemotion p target = false := by
          simp only [refusesDemotion, hroom, Bool.and_false]
        have hsame : t'.lost = t.lost := by
          rw [taken.lost, taken.layer] at hlost
          omega
        rw [hno]
        exact ⟨ring', l', h', hcap.trans hcap₁, hsame,
          .inr ⟨p, m.pageLayer, target, taken.same.moved hmove, hroom⟩⟩

/-- A page has a node besides `p`. -/
def OtherNode (t : PageTable) (p : PageId) : Prop :=
  ∃ q m, q ≠ p ∧ t.meta? q = some m ∧ m.ringNodePtr ≠ none

/-- How a migration of a page that is not lost ends, and what makes it end so. `rest` is the ring
without the page. -/
inductive Ends (t : PageTable) (target : PageLayer) (rest : List Addr) (capacity : SizeT) :
    Except Fault (Exit × PageTable) → Prop where
  /-- The counter says full, and the ring has nobody to evict. -/
  | noCandidate (promotes : target = .numaLocal) (full : t.serverConfig.localNuma.isFull = true)
      (empty : rest = []) : Ends t target rest capacity (.error (.assertion .ringEmpty))
  /-- The eviction follows its victim's freed node. -/
  | freedNode (promotes : target = .numaLocal) (full : t.serverConfig.localNuma.isFull = true)
      (nonempty : rest ≠ []) (a : Addr) : Ends t target rest capacity (.error (.useAfterFree a))
  /-- The counter says there is room, and the ring has none. -/
  | ringFull (promotes : target = .numaLocal) (room : t.serverConfig.localNuma.isFull = false)
      (full : rest.length = capacity.toNat) :
      Ends t target rest capacity (.error (.assertion .migrateInsert))
  | returns (room : target = .numaLocal →
        t.serverConfig.localNuma.isFull = false ∧ rest.length < capacity.toNat)
      (answer : Exit × PageTable) : Ends t target rest capacity (.ok answer)

/-- **Every way a migration of a page of the table ends.** A lost page fails the assert of
`remove`. -/
theorem Held.outcome {m : PageMetadata} (h : t.Held ring l) (hm : t.meta? p = some m)
    (evictNow now : Nat) (target : PageLayer) :
    (isLost m = true ∧
        t.migratePage evictNow now p target = .error (.assertion .removeNullptr)) ∨
      (isLost m = false ∧ ∃ rest : List Addr, (rest ≠ [] ↔ t.OtherNode p) ∧
        rest.length + (if m.pageLayer = .numaLocal then 1 else 0) = l.length ∧
        Ends t target rest ring.capacity (t.migratePage evictNow now p target)) := by
  rw [migratePage_eq_body, migrateBody_found hm]
  cases hlost : isLost m with
  | true =>
    left
    rw [h.take_lost hlost]
    exact ⟨rfl, rfl⟩
  | false =>
    right
    have hnode : m.pageLayer = .numaLocal → m.ringNodePtr ≠ none := by
      intro hlayer hptr
      simp [isLost, hlayer, hptr] at hlost
    obtain ⟨t₁, ring₁, l₁, m₁, htake, h₁, hcap, taken⟩ := h.take hm hnode
    refine ⟨rfl, l₁, h₁.ne_nil_iff taken, taken.length, ?_⟩
    have hconfig := taken.same.serverConfig
    rw [htake, ok_bind, ← hcap]
    by_cases hplain : target = .numaLocal → t₁.serverConfig.localNuma.isFull = false
    · rw [h₁.checkCapacity_plain hplain, ok_bind]
      cases hfull : (t₁.serverConfig.layer target).isFull with
      | true =>
        have htarget : target ≠ .numaLocal := by
          rintro rfl
          exact Bool.noConfusion (hfull.symm.trans (hplain rfl))
        exact .returns (fun heq => (htarget heq).elim) _
      | false =>
        simp only [Bool.false_eq_true, if_false]
        rw [hconfig] at hplain
        rcases h₁.finishMove_cases now p m.pageLayer target with
          ⟨htarget, hlength, hfinish⟩ | ⟨hlength, t', hfinish⟩
        · rw [hfinish]
          exact .ringFull htarget (hplain htarget) hlength
        · rw [hfinish]
          exact .returns (fun heq => ⟨hplain heq, hlength heq⟩) _
    · obtain ⟨rfl, hfull⟩ := Classical.not_imp.mp hplain
      rw [Bool.not_eq_false] at hfull
      rcases h₁.checkCapacity_full evictNow hfull with ⟨hl, herr⟩ | ⟨hl, a, herr⟩
      · rw [herr]
        exact .noCandidate rfl (hconfig ▸ hfull) hl
      · rw [herr]
        exact .freedNode rfl (hconfig ▸ hfull) hl a

/-- **The step lemma**, for every call. -/
theorem Held.apply {c : Call} (h : t.Held ring l) (hcall : c.apply t = .ok t') :
    ∃ ring' l', Called t t' ring ring' l' (c.refusesDemotion t) := by
  cases c with
  | accessPage latency now p mode =>
    have hsame := sameLayers_accessPage hcall
    have stamped : ∀ {t₁ : PageTable} {ring₁ : ClockRing} {metrics : Metrics}, t₁.Held ring₁ l →
        ring₁.capacity = ring.capacity → t₁.lost = t.lost →
        t' = { t₁.store p (.accessed now) with metrics } → Called t t' ring ring₁ l false := by
      rintro t₁ ring₁ metrics h₁ hcap hlost rfl
      have hstored := h₁.store p (.accessed now) (fun _ => rfl) fun _ _ _ => rfl
      have hkept := census_store_eq t₁ p (.accessed now) isLost fun _ _ => rfl
      exact ⟨hstored.congr rfl rfl, hcap, hkept.trans hlost, .inl hsame⟩
    rcases accessPage_cases hcall with ⟨_, rfl⟩ | ⟨e, t₁, he, ht', hmark⟩
    · exact ⟨ring, l, h, rfl, rfl, .inl hsame⟩
    · rcases hmark with ⟨_, rfl⟩ | ⟨ring₀, ring', hring, hmark, rfl⟩
      · exact ⟨ring, l, stamped h rfl rfl ht'⟩
      · obtain rfl : ring = ring₀ := Option.some.inj (h.present.symm.trans hring)
        have hm : t.meta? p = some e.metadata := by rw [meta?, he, Option.map_some]
        obtain ⟨ring₁, hmark', h₁, hcap⟩ := h.mark hm
        rw [hmark] at hmark'
        obtain rfl := Except.ok.inj hmark'
        exact ⟨_, l, stamped h₁ hcap rfl ht'⟩
  | migratePage evictNow now p target =>
    obtain ⟨exit, hcall⟩ := apply_migratePage hcall
    exact h.migratePage hcall
  | scanNext =>
    cases hcall
    exact ⟨ring, l, h.congr rfl rfl, rfl, rfl, .inl (sameLayers_scanNext t)⟩

end Calls

end PageTable

end MemoryTiering
