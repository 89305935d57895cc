import MemoryTiering.Laws.PageTable.Effect
import MemoryTiering.Policy

/-!
# Rounds of the scanner

A round looks at one page, and the policy sees only that page's record and the clock. Either it
leaves every record alone, and then a migration the policy asked for met a full tier, or it
completes the one migration it asked for (`Coherent.round`). Every law about what a policy does over
runs starts from these two cases.
-/

set_option autoImplicit false

namespace MemoryTiering

open Pointer Transition

/-- How far below the processor a layer is. -/
def PageLayer.depth : PageLayer → Nat
  | .numaLocal => 0
  | .numaRemote => 1
  | .pmem => 2

/-- **The switch of the scanner**: a cold page goes down, and any other page up. -/
theorem Scanner.targetLayer_cases {numTiers : Nat} {layer target : PageLayer} {status : PageStatus}
    {hot : Bool} (h : targetLayer numTiers layer status hot = some target) :
    (status = .cold ∧ layer.depth < target.depth) ∨
      (status ≠ .cold ∧ target.depth < layer.depth) := by
  cases layer with
  | numaLocal =>
    obtain ⟨hcold, htarget⟩ := Option.ite_none_right_eq_some.mp h
    cases htarget
    left
    exact ⟨hcold, by split <;> decide⟩
  | numaRemote =>
    simp only [targetLayer] at h
    split at h
    next hcold =>
      cases h
      exact .inl ⟨hcold, by decide⟩
    next hcold =>
      obtain ⟨_, htarget⟩ := Option.ite_none_right_eq_some.mp h
      cases htarget
      exact .inr ⟨hcold, by decide⟩
  | pmem =>
    right
    cases status with
    | hot =>
      cases h
      exact ⟨by decide, by decide⟩
    | warm =>
      cases h
      exact ⟨by decide, by split <;> decide⟩
    | cold => cases h

/-- A migration leaves its tier. -/
theorem Scanner.targetLayer_ne {numTiers : Nat} {layer target : PageLayer} {status : PageStatus}
    {hot : Bool} (h : targetLayer numTiers layer status hot = some target) : target ≠ layer := by
  rintro rfl
  rcases targetLayer_cases h with ⟨_, hdown⟩ | ⟨_, hup⟩
  · exact absurd hdown (lt_irrefl _)
  · exact absurd hup (lt_irrefl _)

/-- What a round asks for when it looks at a page with this metadata. -/
def Scanner.asks (policy : PolicyVariant) (readings : Readings) (numTiers : Nat)
    (m : PageMetadata) : Option PageLayer :=
  targetLayer numTiers m.pageLayer
    (classifyPage policy readings m.lastAccessTimeMs m.accessCnt)
    (classifyHotPage policy readings.again m.lastAccessTimeMs m.accessCnt)

namespace PageTable

/-- A migration to a faster tier. -/
def Move.promotes (mv : Move) : Bool := mv.target.depth < mv.current.depth

/-- What the two threads do under a policy: the manager accesses a page, the scanner makes a round,
with what the clock shows while it classifies the page, and while it migrates it. -/
inductive Activity where
  | access (latency : SizeT → OperationType → UInt64) (now : Nat) (pageId : PageId)
      (mode : OperationType)
  | scan (readings : Scanner.Readings) (evictNow now : Nat)

def Activity.event (policy : PolicyVariant) : Activity → Event
  | .access latency now pageId mode => .access latency now pageId mode
  | .scan readings evictNow now =>
    .round (Scanner.classification policy readings) evictNow now

/-- One completed activity. -/
structure Acts (policy : PolicyVariant) (t : PageTable) (e : PageTable × Activity)
    (t' : PageTable) : Prop where
  before : e.1 = t
  done : (e.2.event policy).apply t = .ok t'

/-- The migrations an activity completes. -/
def Activity.moves (policy : PolicyVariant) (t : PageTable) : Activity → List Move
  | .access .. => []
  | .scan readings evictNow now =>
    match (Scanner.scan (Scanner.classification policy readings) t).1 with
    | none => []
    | some (pageId, target) => (Call.migratePage evictNow now pageId target).moves t.scanNext.2

def Activity.isScan : Activity → Bool
  | .access .. => false
  | .scan .. => true

/-- **What a round does**, to the records, the counters and the migrations completed. -/
inductive Round (policy : PolicyVariant) (t : PageTable) (readings : Scanner.Readings)
    (evictNow now : Nat) : PageTable → Prop where
  | rested {t' : PageTable} (records : ∀ q, t'.record? q = t.record? q)
      (moves : (Activity.scan readings evictNow now).moves policy t = [])
      (refused : ∀ m target, t.record? t.scanIndex = some m →
        Scanner.asks policy readings t.serverConfig.numTiers m = some target →
        (t.serverConfig.layer target).isFull = true) :
      Round policy t readings evictNow now t'
  | moved {t' : PageTable} {m : PageMetadata} {target : PageLayer}
      (found : t.record? t.scanIndex = some m)
      (asked : Scanner.asks policy readings t.serverConfig.numTiers m = some target)
      (room : (t.serverConfig.layer target).isFull = false)
      (records : ∀ q, t'.record? q =
        if q = t.scanIndex then some (m.moved target now) else t.record? q)
      (moves : (Activity.scan readings evictNow now).moves policy t =
        [⟨t.scanIndex, m.pageLayer, target, now⟩]) :
      Round policy t readings evictNow now t'

section Rounds

variable {policy : PolicyVariant} {t t' : PageTable} {readings : Scanner.Readings}
  {evictNow now : Nat}

/-- The record decides what a round asks for. -/
theorem scan_eq_asks {m : PageMetadata} (h : t.record? t.scanIndex = some m) :
    (Scanner.scan (Scanner.classification policy readings) t).1 =
      (Scanner.asks policy readings t.serverConfig.numTiers m).map fun target =>
        (t.scanIndex, target) := by
  obtain ⟨m', hm, rfl⟩ := Option.map_eq_some_iff.mp h
  have hdata : t.getPageMetaData t.scanIndex =
      (m'.pageLayer, m'.lastAccessTimeMs, m'.accessCnt) := by
    unfold getPageMetaData
    rw [hm]
  have hscan : (Scanner.scan (Scanner.classification policy readings) t).1 =
      (fun data : PageLayer × UInt64 × UInt32 =>
        (Scanner.targetLayer t.serverConfig.numTiers data.1
          (Scanner.classifyPage policy readings data.2.1 data.2.2)
          (Scanner.classifyHotPage policy readings.again data.2.1 data.2.2)).map
            fun target => (t.scanIndex, target)) (t.getPageMetaData t.scanIndex) := rfl
  rw [hscan, hdata]
  rfl

/-- A round asks about the page under the index. -/
theorem scan_page {p : PageId} {target : PageLayer} {classification : Scanner.Classification}
    (h : (Scanner.scan classification t).1 = some (p, target)) : p = t.scanIndex := by
  obtain ⟨_, _, heq⟩ := Option.map_eq_some_iff.mp h
  exact (Prod.mk.inj heq).1.symm

/-- **The round lemma.** -/
theorem Coherent.round (h : t.Coherent)
    (done : Scanner.round (Scanner.classification policy readings) evictNow now t = .ok t') :
    Round policy t readings evictNow now t' := by
  cases hrequest : (Scanner.scan (Scanner.classification policy readings) t).1 with
  | none =>
    rw [round_rests hrequest] at done
    cases done
    refine .rested (fun _ => rfl) (by rw [Activity.moves, hrequest]) ?_
    intro m target hm hasks
    rw [scan_eq_asks hm, hasks] at hrequest
    cases hrequest
  | some request =>
    obtain ⟨p, target⟩ := request
    obtain rfl := scan_page hrequest
    rw [round_migrates hrequest] at done
    have hmoves : (Activity.scan readings evictNow now).moves policy t =
        (Call.migratePage evictNow now t.scanIndex target).moves t.scanNext.2 := by
      rw [Activity.moves, hrequest]
    have hasked : ∀ m, t.record? t.scanIndex = some m →
        Scanner.asks policy readings t.serverConfig.numTiers m = some target := by
      intro m hm
      rw [scan_eq_asks hm] at hrequest
      obtain ⟨target', hasks, heq⟩ := Option.map_eq_some_iff.mp hrequest
      rw [hasks, (Prod.mk.inj heq).2]
    have hscanned : t.scanNext.2.Coherent := (h.call (c := .scanNext) rfl).1
    cases hscanned.effect (c := .migratePage evictNow now t.scanIndex target) done with
    | stayed records _ _ moves refused =>
      refine .rested records (hmoves.trans moves) ?_
      intro m target' hm hasks
      obtain rfl : target = target' := Option.some.inj ((hasked m hm).symm.trans hasks)
      rcases refused with hmissing | hfull
      · cases hm.symm.trans hmissing
      · exact hfull
    | moved found records room _ _ moves =>
      exact .moved found (hasked _ found) room records (hmoves.trans moves)

/-- An activity keeps a table coherent, and its pages. -/
theorem Coherent.acts {e : PageTable × Activity} (h : t.Coherent) (hstep : Acts policy t e t') :
    t'.Coherent ∧ ∀ q, (t'.meta? q).isSome = (t.meta? q).isSome := by
  have hdrives : Drives t (e.1, e.2.event policy) t' := ⟨hstep.before, hstep.done⟩
  obtain ⟨calls, hcalls, _⟩ := hdrives.is_run
  exact h.run hcalls

end Rounds

end PageTable

end MemoryTiering
