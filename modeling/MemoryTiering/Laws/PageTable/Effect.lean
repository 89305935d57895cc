import MemoryTiering.Laws.PageTable.Promotion
import MemoryTiering.Laws.PageTable.Layout

/-!
# What a completed call writes

A page's record is its metadata without the ring node. Every completed call leaves all records
alone, or writes one of them in one of two ways: an access stamps and counts, a migration moves and
resets (`Effect`). Every law about timestamps, access counts, layers and metrics over runs is a case
analysis of `Effect`. The migrations a call completes are its `moves`; those of a nested call count
too, though in a state the program can reach none is ever made (`Coherent.nestedCall?_eq_none`).
-/

set_option autoImplicit false

namespace MemoryTiering

open Fallible Pointer Transition

namespace PageTable

/-! ## Migrations -/

/-- A completed migration: which page, from where to where, and the clock that stamped it. -/
structure Move where
  page : PageId
  current : PageLayer
  target : PageLayer
  now : Nat
  deriving DecidableEq

/-- What a migration completes, besides what its nested call does. -/
def ownMove? (evictNow now : Nat) (t : PageTable) (p : PageId) (target : PageLayer) :
    Option Move :=
  match t.migratePage evictNow now p target with
  | .ok (.moved, _) => (t.layer? p).map fun current => ⟨p, current, target, now⟩
  | _ => none

/-- The table, the victim and the target of the nested call, when there is one. -/
def nestedCall? (t : PageTable) (p : PageId) (target : PageLayer) :
    Option (PageTable × PageId × PageLayer) := do
  let m ← t.meta? p
  let t ← (t.takeFromRing ClockRing.remove p m).toOption
  let ring ← t.localCacheRing
  if target = .numaLocal ∧ t.serverConfig.localNuma.isFull then
    let c ← ring.findEvictionCandidate.toOption
    some (t.withRing c.ring, c.victim, evictionTarget t.serverConfig)
  else none

/-- The migrations a call completes, in order. -/
def Call.moves (t : PageTable) : Call → List Move
  | .migratePage evictNow now p target =>
    ((t.nestedCall? p target).bind fun nested =>
        nested.1.ownMove? evictNow evictNow nested.2.1 nested.2.2).toList ++
      (t.ownMove? evictNow now p target).toList
  | _ => []

/-! ## Records -/

/-- A page's metadata, but for its ring node. -/
def record? (t : PageTable) (p : PageId) : Option PageMetadata :=
  (t.meta? p).map (·.setRingNode none)

section Records

variable {t t' : PageTable} {p : PageId}

theorem record?_eq_slot (t : PageTable) (p : PageId) :
    t.record? p = (t.slot? p).map (·.metadata) := by
  unfold record? slot? meta?
  rw [Option.map_map, Option.map_map]
  rfl

theorem record?_of_meta? {m : PageMetadata} (h : t.meta? p = some m) :
    t.record? p = some (m.setRingNode none) := by
  rw [record?, h, Option.map_some]

theorem layer?_eq_record (t : PageTable) (p : PageId) :
    t.layer? p = (t.record? p).map (·.pageLayer) := by
  unfold layer? record?
  rw [Option.map_map]
  rfl

/-- A store that leaves the node alone, on records. -/
theorem record?_store (t : PageTable) (p : PageId) {f : PageMetadata → PageMetadata}
    (hf : ∀ m, (f m).setRingNode none = f (m.setRingNode none)) (q : PageId) :
    (t.store p f).record? q = (t.record? q).map fun m => if q = p then f m else m := by
  unfold record?
  rw [meta?_store, Option.map_map, Option.map_map]
  congr 1
  funext m
  simp only [Function.comp_apply]
  split
  · exact hf m
  · rfl

/-- A store of a node changes no record. -/
theorem record?_store_setRingNode (t : PageTable) (p : PageId) (node : Option Addr) (q : PageId) :
    (t.store p (.setRingNode node)).record? q = t.record? q := by
  rw [record?_eq_slot, record?_eq_slot, slot?_store_setRingNode]

theorem record?_enterRing {assertion : Assertion} {layer : PageLayer}
    (h : t.enterRing assertion p layer = .ok t') (q : PageId) : t'.record? q = t.record? q := by
  rw [record?_eq_slot, record?_eq_slot, slot?_enterRing h]

theorem metrics_enterRing {assertion : Assertion} {layer : PageLayer}
    (h : t.enterRing assertion p layer = .ok t') : t'.metrics = t.metrics := by
  rcases enterRing_cases h with ⟨_, rfl⟩ | ⟨_, _, _, _, _, _, rfl⟩
  · rfl
  · rfl

theorem record?_takeFromRing {remove : Removal} {m : PageMetadata}
    (h : t.takeFromRing remove p m = .ok t') :
    (∀ q, t'.record? q = t.record? q) ∧ t'.metrics = t.metrics := by
  rcases takeFromRing_cases h with ⟨_, rfl⟩ | ⟨_, _, _, _, _, rfl⟩
  · exact ⟨fun _ => rfl, rfl⟩
  · exact ⟨record?_store_setRingNode t p none, rfl⟩

end Records

/-! ## Coherent tables -/

/-- There is no ring, or ring and table point at each other. -/
def Coherent (t : PageTable) : Prop := t.localCacheRing = none ∨ ∃ ring l, t.Held ring l

section Coherent

variable {t t' : PageTable} {p : PageId} {target : PageLayer} {evictNow now : Nat}

theorem Initial.coherent {clients : List ClientConfig} {server : ServerMemoryConfig} {ring : Bool}
    (h : Initial clients server ring t) : t.Coherent := by
  have hringed := h.ringed
  cases ring with
  | false => exact .inl hringed
  | true =>
    obtain ⟨⟨ring, l, h, _⟩, _⟩ := hringed
    exact .inr ⟨ring, l, h⟩

/-- A completed call keeps a table coherent. -/
theorem Coherent.call (h : t.Coherent) {c : Call} (hcall : c.apply t = .ok t') :
    t'.Coherent ∧ Shifted t t' := by
  rcases h with hring | ⟨ring, l, h⟩
  · obtain ⟨t₁, hcall₁, hring₁, hshift⟩ := apply_ringless hring c
    rw [hcall] at hcall₁
    cases hcall₁
    exact ⟨.inl hring₁, hshift⟩
  · obtain ⟨ring', l', called⟩ := h.apply hcall
    exact ⟨.inr ⟨ring', l', called.held⟩, called.shifted⟩

/-- A run keeps a table coherent, and its pages. -/
theorem Coherent.run {es : List (PageTable × Call)} (h : t.Coherent) (run : Trace Step t es t') :
    t'.Coherent ∧ ∀ q, (t'.meta? q).isSome = (t.meta? q).isSome := by
  apply run.invariant
    (P := fun t' => t'.Coherent ∧ ∀ q, (t'.meta? q).isSome = (t.meta? q).isSome)
  · rintro t₁ c t₂ ⟨hcoherent₁, hpages₁⟩ hstep
    obtain ⟨hcoherent, hshift⟩ := hcoherent₁.call hstep.call
    exact ⟨hcoherent, fun q => (hshift.isSome q).trans (hpages₁ q)⟩
  · exact ⟨h, fun _ => rfl⟩

/-- A removal that returns keeps a table coherent. -/
theorem Coherent.takeFromRing {m : PageMetadata} (h : t.Coherent) (hm : t.meta? p = some m)
    (call : t.takeFromRing ClockRing.remove p m = .ok t') : t'.Coherent := by
  rcases h with hring | ⟨ring, l, h⟩
  · rw [takeFromRing_skip _ _ _ (.inl hring)] at call
    cases call
    exact .inl hring
  · have hnode : m.pageLayer = .numaLocal → m.ringNodePtr ≠ none := by
      intro hlayer hptr
      rw [h.take_lost (by simp [isLost, hlayer, hptr])] at call
      cases call
    obtain ⟨t₁, ring₁, l₁, _, htake, h₁, _⟩ := h.take hm hnode
    rw [call] at htake
    cases htake
    exact .inr ⟨ring₁, l₁, h₁⟩

/-- **A check that returns evicted nobody.** -/
theorem Coherent.checkCapacity (h : t.Coherent) {answer : Option PageTable}
    (call : t.checkCapacity (migratePage evictNow evictNow) target = .ok answer) :
    ((t.localCacheRing = none ∨ target ≠ .numaLocal) ∧
        (t.serverConfig.layer target).isFull = true ∧ answer = none) ∨
      ((t.serverConfig.layer target).isFull = false ∧ answer = some t) := by
  rcases h with hring | ⟨ring, l, h⟩
  · rw [checkCapacity_plain _ _ (.inl hring)] at call
    cases hfull : (t.serverConfig.layer target).isFull with
    | true =>
      rw [hfull] at call
      exact .inl ⟨.inl hring, rfl, (Except.ok.inj call).symm⟩
    | false =>
      rw [hfull] at call
      exact .inr ⟨rfl, (Except.ok.inj call).symm⟩
  · rcases h.checkCapacity_cases call with ⟨htarget, hfull, hnone⟩ | hroom
    · exact .inl ⟨.inr htarget, hfull, hnone⟩
    · exact .inr hroom

/-- **No nested call is ever completed**: a call that makes one does not return. -/
theorem Coherent.nestedCall?_eq_none (h : t.Coherent) {answer : Exit × PageTable}
    (call : t.migratePage evictNow now p target = .ok answer) : t.nestedCall? p target = none := by
  obtain ⟨exit, t'⟩ := answer
  rw [migratePage_eq_body] at call
  unfold nestedCall?
  rcases migrateBody_cases call with ⟨hm, _⟩ | ⟨m, t₁, hm, htake, hrest⟩
  · rw [hm]
    rfl
  · have hcheck : (t₁.localCacheRing = none ∨ target ≠ .numaLocal) ∨
        (t₁.serverConfig.layer target).isFull = false := by
      have h₁ := h.takeFromRing hm htake
      rcases hrest with ⟨hcheck, _⟩ | ⟨t₂, hcheck, _⟩
      · exact (h₁.checkCapacity hcheck).imp (·.1) (·.1)
      · exact (h₁.checkCapacity hcheck).imp (·.1) (·.1)
    simp only [hm, htake, Option.bind_eq_bind, Option.bind_some, Except.toOption]
    cases hring : t₁.localCacheRing with
    | none => rfl
    | some ring =>
      rw [Option.bind_some, if_neg]
      rintro ⟨rfl, hfull⟩
      rcases hcheck with (hnone | hne) | hroom
      · rw [hring] at hnone
        cases hnone
      · exact hne rfl
      · exact Bool.noConfusion (hfull.symm.trans hroom)

end Coherent

/-! ## Effects -/

/-- **What a completed call writes**, to the records, the counters and the metrics. -/
inductive Effect (t : PageTable) : Call → PageTable → Prop where
  /-- An access to a page that is not there. -/
  | absent {latency : SizeT → OperationType → UInt64} {now : Nat} {p : PageId}
      {mode : OperationType} (missing : t.record? p = none) :
      Effect t (.accessPage latency now p mode) t
  /-- An access: the page's stamp and count. -/
  | accessed {latency : SizeT → OperationType → UInt64} {now : Nat} {p : PageId}
      {mode : OperationType} {t' : PageTable} {m : PageMetadata} (found : t.record? p = some m)
      (records : ∀ q, t'.record? q = if q = p then some (m.accessed now) else t.record? q)
      (counters : t'.serverConfig = t.serverConfig) (accessTime : UInt64)
      (metrics : t'.metrics =
        (t.metrics.recordAccessLatency accessTime).incrementAccess m.pageLayer) :
      Effect t (.accessPage latency now p mode) t'
  /-- A migration that is refused, or whose page is not there. -/
  | stayed {evictNow now : Nat} {p : PageId} {target : PageLayer} {t' : PageTable}
      (records : ∀ q, t'.record? q = t.record? q) (counters : t'.serverConfig = t.serverConfig)
      (metrics : t'.metrics = t.metrics)
      (moves : (Call.migratePage evictNow now p target).moves t = [])
      (refused : t.record? p = none ∨ (t.serverConfig.layer target).isFull = true) :
      Effect t (.migratePage evictNow now p target) t'
  /-- A migration: the page's layer, stamp and count, and both counters. -/
  | moved {evictNow now : Nat} {p : PageId} {target : PageLayer} {t' : PageTable}
      {m : PageMetadata} (found : t.record? p = some m)
      (records : ∀ q, t'.record? q = if q = p then some (m.moved target now) else t.record? q)
      (room : (t.serverConfig.layer target).isFull = false)
      (counters : t'.serverConfig = t.serverConfig.recount m.pageLayer target)
      (metrics : t'.metrics = t.metrics.incrementMigration m.pageLayer target)
      (moves : (Call.migratePage evictNow now p target).moves t =
        [⟨p, m.pageLayer, target, now⟩]) :
      Effect t (.migratePage evictNow now p target) t'
  | scanned : Effect t .scanNext t.scanNext.2

section Calls

variable {t t' : PageTable} {p : PageId} {target : PageLayer} {evictNow now : Nat}

/-- From `migrate_page` to the end, one record is written. -/
theorem records_finishMove {current : PageLayer} {m : PageMetadata}
    (hm : t.record? p = some m) (h : t.finishMove now p current target = .ok t') :
    (∀ q, t'.record? q = if q = p then some (m.moved target now) else t.record? q) ∧
      t'.serverConfig = t.serverConfig.recount current target ∧
      t'.metrics = t.metrics.incrementMigration current target := by
  obtain ⟨t₁, henter, h⟩ := bind_eq_ok.mp h
  have hrecord := record?_enterRing henter
  have hsame : t₁.serverConfig = t.serverConfig := (sameLayers_enterRing henter).serverConfig
  have hmetrics := (metrics_enterRing henter).trans (metrics_store _ _ _)
  cases h
  refine ⟨?_, by rw [← hsame]; rfl, by rw [← hmetrics]; rfl⟩
  intro q
  have hreset := record?_store t₁ p (f := .reset now) (fun _ => rfl) q
  have hset := record?_store t p (f := .setLayer target) (fun _ => rfl) q
  refine hreset.trans ?_
  rw [hrecord, hset, Option.map_map]
  by_cases hq : q = p
  · rw [if_pos hq, hq, hm]
    simp only [Option.map_some, Function.comp_apply, if_true]
    rfl
  · rw [if_neg hq]
    simp only [hq, if_false]
    exact Option.map_id'

/-- **The effect of a migration that returns.** -/
theorem Coherent.effect_migratePage {exit : Exit} (h : t.Coherent)
    (call : t.migratePage evictNow now p target = .ok (exit, t')) :
    Effect t (.migratePage evictNow now p target) t' := by
  have hnested := h.nestedCall?_eq_none call
  have hmoves : (Call.migratePage evictNow now p target).moves t =
      (t.ownMove? evictNow now p target).toList := by
    rw [Call.moves, hnested]
    rfl
  have hown : t.ownMove? evictNow now p target =
      if exit = .moved then (t.layer? p).map fun current => ⟨p, current, target, now⟩
      else none := by
    unfold ownMove?
    rw [call]
    cases exit <;> rfl
  rw [migratePage_eq_body] at call
  rcases migrateBody_cases call with ⟨hm, rfl, rfl⟩ | ⟨m, t₁, hm, htake, hrest⟩
  · refine .stayed (fun _ => rfl) rfl rfl ?_ (.inl (by rw [record?, hm, Option.map_none]))
    rw [hmoves, hown]
    rfl
  · have hsame := sameLayers_takeFromRing htake
    obtain ⟨hrecords, hmetrics⟩ := record?_takeFromRing htake
    have hfound := record?_of_meta? hm
    rcases hrest with ⟨hcheck, rfl, rfl⟩ | ⟨t₂, hcheck, rfl, hfinish⟩
    · rcases (h.takeFromRing hm htake).checkCapacity hcheck with ⟨_, hfull, _⟩ | ⟨_, hsome⟩
      · refine .stayed hrecords hsame.serverConfig hmetrics ?_ (.inr (hsame.serverConfig ▸ hfull))
        rw [hmoves, hown]
        rfl
      · cases hsome
    · rcases (h.takeFromRing hm htake).checkCapacity hcheck with ⟨_, _, hnone⟩ | ⟨hroom, hsome⟩
      · cases hnone
      · obtain rfl := Option.some.inj hsome
        obtain ⟨hwritten, hcounters, hmoved⟩ :=
          records_finishMove ((hrecords p).trans hfound) hfinish
        refine .moved hfound ?_ (hsame.serverConfig ▸ hroom) ?_ ?_ ?_
        · intro q
          rw [hwritten, hrecords]
        · rw [hcounters, hsame.serverConfig]
          rfl
        · rw [hmoved, hmetrics]
          rfl
        · rw [hmoves, hown, if_pos rfl, layer?_eq hm]
          rfl

/-- **The step lemma**: every completed call has an effect. -/
theorem Coherent.effect {c : Call} (h : t.Coherent) (call : c.apply t = .ok t') :
    Effect t c t' := by
  cases c with
  | accessPage latency now p mode =>
    rcases accessPage_cases call with ⟨hm, rfl⟩ | ⟨e, t₁, he, rfl, hring⟩
    · exact .absent (by rw [record?, hm, Option.map_none])
    · have hm : t.meta? p = some e.metadata := by rw [meta?, he, Option.map_some]
      have h₁ : (∀ q, t₁.record? q = t.record? q) ∧ t₁.serverConfig = t.serverConfig := by
        rcases hring with ⟨_, rfl⟩ | ⟨_, _, _, _, rfl⟩
        · exact ⟨fun _ => rfl, rfl⟩
        · exact ⟨fun _ => rfl, rfl⟩
      refine .accessed (record?_of_meta? hm) ?_ h₁.2 (latency e.pageAddress mode) rfl
      intro q
      refine (record?_store t₁ p (f := .accessed now) (fun _ => rfl) q).trans ?_
      rw [h₁.1]
      by_cases hq : q = p
      · rw [if_pos hq, hq, record?_of_meta? hm]
        simp only [Option.map_some, if_true]
      · simp only [hq, if_false]
        exact Option.map_id'
  | migratePage evictNow now p target =>
    obtain ⟨exit, call⟩ := apply_migratePage call
    exact h.effect_migratePage call
  | scanNext =>
    cases call
    exact .scanned

end Calls

end PageTable

end MemoryTiering
