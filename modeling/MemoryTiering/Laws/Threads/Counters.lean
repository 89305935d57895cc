import MemoryTiering.Laws.Scanner.Rounds
import MemoryTiering.Laws.Threads.Atomicity

/-!
# The counters at every moment

The scanner stores a page's new layer first and moves the two counters after it, one at a time. So
whoever looks in between, as the periodical report does, finds a counter off by one: the old tier's
too high until it goes down, the new tier's too low until it goes up. Nothing else is ever off
(`counters_at_every_moment`), whatever the manager does meanwhile.
-/

set_option autoImplicit false

namespace MemoryTiering

open Fallible Pointer Transition PageTable

/-- The tier a page has left whose counter has still to go down. -/
def ScannerThread.leaving : ScannerThread → Option PageLayer
  | .placed _ current | .entered _ current | .stamped _ current | .cleared _ current =>
    some current
  | _ => none

/-- The tier a page has reached whose counter has still to go up. -/
def ScannerThread.arriving : ScannerThread → Option PageLayer
  | .placed move _ | .entered move _ | .stamped move _ | .cleared move _ | .left move _ =>
    some move.target
  | _ => none

/-- One counter went down, and the other has still to go up. -/
def ScannerThread.between : ScannerThread → Bool
  | .left .. => true
  | _ => false

/-- What is outstanding, over all tiers. -/
theorem ScannerThread.outstanding (s : ScannerThread) :
    (if s.arriving = some .numaLocal then 1 else 0) +
        (if s.arriving = some .numaRemote then 1 else 0) +
        (if s.arriving = some .pmem then 1 else 0) =
      (if s.leaving = some .numaLocal then 1 else 0) +
        (if s.leaving = some .numaRemote then 1 else 0) +
        (if s.leaving = some .pmem then 1 else 0) + if s.between then 1 else 0 := by
  have hone : ∀ layer : PageLayer, (if some layer = some .numaLocal then 1 else 0) +
      (if some layer = some .numaRemote then 1 else 0) +
      (if some layer = some PageLayer.pmem then 1 else 0) = 1 := by
    intro layer
    cases layer <;> rfl
  cases s with
  | placed move current | entered move current | stamped move current | cleared move current =>
    exact (hone move.target).trans (hone current).symm
  | left move current => exact hone move.target
  | _ => rfl

/-- Settling moves each counter by what is outstanding. -/
theorem ScannerThread.count_settles (s : ScannerThread) (config : ServerMemoryConfig)
    (layer : PageLayer) :
    ((s.settles config).layer layer).count =
      (config.layer layer).count - (if s.leaving = some layer then 1 else 0) +
        if s.arriving = some layer then 1 else 0 := by
  have hboth : ∀ current target, (((config.leave current).arrive target).layer layer).count =
      (config.layer layer).count - (if some current = some layer then 1 else 0) +
        if some target = some layer then 1 else 0 := by
    intro current target
    simp only [Option.some.injEq]
    exact congrArg LayerInfo.count (layer_recount config current target layer)
  cases s with
  | placed move current | entered move current | stamped move current | cleared move current =>
    exact hboth current move.target
  | left move current =>
    simp only [settles, leaving, arriving, ServerMemoryConfig.arrive,
      ServerMemoryConfig.layer_modify, Option.some.injEq, reduceCtorEq, if_false, UInt64.sub_zero]
    by_cases h : move.target = layer
    · rw [if_pos h.symm, if_pos h]
    · rw [if_neg (Ne.symm h), if_neg h, UInt64.add_zero]
  | _ => simp only [settles, leaving, arriving, reduceCtorEq, if_false, UInt64.sub_zero,
      UInt64.add_zero]

/-- Counting back from what a counter will be. -/
theorem SizeT.toNat_outstanding {count : SizeT} {down up : Prop} [Decidable down] [Decidable up]
    {n : Nat} (settled : (count - (if down then 1 else 0) + if up then 1 else 0).toNat = n)
    (below : down → n + 1 < 2 ^ 64) (above : up → 0 < n) :
    count.toNat + (if up then 1 else 0) = n + if down then 1 else 0 := by
  have hlt := count.toNat_lt
  rw [UInt64.toNat_add, UInt64.toNat_sub] at settled
  by_cases hdown : down <;> by_cases hup : up <;>
    simp only [hdown, hup, if_true, if_false, UInt64.toNat_one, UInt64.toNat_zero] at settled ⊢
  · have := below hdown
    have := above hup
    omega
  · have := below hdown
    omega
  · have := above hup
    omega
  · omega

namespace Threads

section Moments

variable {s : Threads} {t : PageTable} {server : ServerMemoryConfig}

/-- The page of an outstanding counter is in another tier already. -/
theorem Refines.leaving (h : Refines s t) {layer : PageLayer}
    (hleaving : s.scanner.leaving = some layer) :
    ∃ target, target ≠ layer ∧ 0 < s.pageTable.population target := by
  have hsound := h.sound
  generalize s.scanner = scanner at hleaving hsound
  cases scanner with
  | placed move current | entered move current | stamped move current | cleared move current =>
    cases hleaving
    obtain ⟨hplaced, _, _, hchosen⟩ := hsound
    exact ⟨move.target, Scanner.targetLayer_ne hchosen, population_pos hplaced⟩
  | _ => cases hleaving

theorem Refines.arriving (h : Refines s t) {layer : PageLayer}
    (harriving : s.scanner.arriving = some layer) : 0 < s.pageTable.population layer := by
  have hsound := h.sound
  generalize s.scanner = scanner at harriving hsound
  cases scanner with
  | placed move current | entered move current | stamped move current | cleared move current
  | left move current =>
    cases harriving
    exact population_pos hsound.1
  | _ => cases harriving

/-- Two tiers hold no more than the table. -/
theorem population_add_lt (table : PageTable) {layer target : PageLayer} (hne : target ≠ layer)
    (hpos : 0 < table.population target) : table.population layer + 1 ≤ table.table.size := by
  have hsum := table.population_sum
  cases layer <;> cases target <;> first | exact (hne rfl).elim | omega

/-- No call changes the size of the table. -/
theorem size_ringless {t' : PageTable} {es : List (PageTable × Call)}
    (hring : t.localCacheRing = none) (run : Trace PageTable.Step t es t') :
    t'.table.size = t.table.size := by
  have hkeeps : ∀ u (e : PageTable × Call) u',
      u.localCacheRing = none ∧ u.table.size = t.table.size → PageTable.Step u e u' →
        u'.localCacheRing = none ∧ u'.table.size = t.table.size := by
    rintro u e u' ⟨hring, hsize⟩ hstep
    obtain ⟨u₁, hcall, hring₁, hshift⟩ := apply_ringless hring e.2
    rw [hstep.call] at hcall
    cases hcall
    exact ⟨hring₁, hshift.size.trans hsize⟩
  exact (run.invariant (P := fun u => u.localCacheRing = none ∧ u.table.size = t.table.size)
    hkeeps ⟨hring, rfl⟩).2

/-- **A counter is its tier's pages**, but for the page under way. -/
theorem Refines.counter (h : Refines s t) (accounts : Accounted server t)
    (small : t.table.size < 2 ^ 64) (layer : PageLayer) :
    (s.pageTable.serverConfig.layer layer).count.toNat +
        (if s.scanner.arriving = some layer then 1 else 0) =
      s.pageTable.population layer + if s.scanner.leaving = some layer then 1 else 0 := by
  apply SizeT.toNat_outstanding
  · rw [← ScannerThread.count_settles, h.config, accounts.tallied, h.places.population]
  · intro hleaving
    obtain ⟨target, hne, hpos⟩ := h.leaving hleaving
    have hle := population_add_lt s.pageTable hne hpos
    have hsize := h.places.size
    omega
  · exact h.arriving

end Moments

/-- **The counters at every moment**, without a ring: whatever the two threads are in the middle of,
no tier has more pages than its capacity, a counter is the number of its tier's pages but for the
page under way, and the counters add up to the table, except between the decrement and the
increment of one migration, when one page is missing. -/
theorem counters_at_every_moment {clients : List ClientConfig} {server : ServerMemoryConfig}
    {alloc : Allocation} {t₀ : PageTable} {s : Threads} {effects : List (Option Call)}
    (tiers : server.numTiers = 2 ∨ server.numTiers = 3)
    (empty : ∀ layer, (server.layer layer).count = 0)
    (fits : ∀ layer, demand server.numTiers clients layer ≤ (server.layer layer).capacity.toNat)
    (start : (new clients server false).initPageTable alloc = .ok t₀)
    (run : Trace Step { pageTable := t₀ } effects s) :
    (∀ layer, s.pageTable.population layer ≤ (server.layer layer).capacity.toNat ∧
      (s.pageTable.serverConfig.layer layer).count.toNat +
          (if s.scanner.arriving = some layer then 1 else 0) =
        s.pageTable.population layer + if s.scanner.leaving = some layer then 1 else 0) ∧
    s.pageTable.serverConfig.localNuma.count.toNat +
        s.pageTable.serverConfig.remoteNuma.count.toNat +
        s.pageTable.serverConfig.pmem.count.toNat +
        (if s.scanner.between then 1 else 0) =
      s.pageTable.table.size := by
  have hinit := initPageTable_spec tiers empty start
  obtain ⟨t, es, hcalls, _, h⟩ := (Refines.start hinit.ringed).run run
  obtain ⟨_, accounts⟩ := (hinit.accounted fits).run_ringless hinit.ringed hcalls
  have hsize := size_ringless hinit.ringed hcalls
  have hcounter := h.counter accounts (hsize ▸ hinit.numbered.small)
  constructor
  · intro layer
    refine ⟨?_, hcounter layer⟩
    rw [h.places.population, ← accounts.capacity, ← accounts.tallied]
    exact accounts.bounded layer
  · have hsum := s.pageTable.population_sum
    have hlocal := hcounter .numaLocal
    have hremote := hcounter .numaRemote
    have hpmem := hcounter .pmem
    have hbalance := s.scanner.outstanding
    dsimp only [ServerMemoryConfig.layer] at hlocal hremote hpmem
    omega

/-- A demotion stopped between its two counters: no tier counts the page. -/
theorem demotion_between_counters : ∃ (t₀ : PageTable) (s : Threads)
    (effects : List (Option Call)), loneConfig.start false plainAllocation = .ok t₀ ∧
    Trace Step { pageTable := t₀ } effects s ∧
    s.pageTable.serverConfig.localNuma.count.toNat +
      s.pageTable.serverConfig.remoteNuma.count.toNat +
      s.pageTable.serverConfig.pmem.count.toNat + 1 = s.pageTable.table.size := by
  have hrun : ∃ (t₀ : PageTable) (s : Threads) (effects : List (Option Call)),
      loneConfig.start false plainAllocation = .ok t₀ ∧
      play (turnsOf (List.replicate 11 (some Scanner.alwaysCold))) { pageTable := t₀ } =
        .ok (effects, s) ∧
      s.scanner.between = true :=
    ⟨_, _, _, rfl, rfl, rfl⟩
  obtain ⟨t₀, s, effects, start, hplay, hbetween⟩ := hrun
  have run := trace_of_play steps_of_turnsOf hplay
  have hcounters := counters_at_every_moment (.inr rfl) (by intro layer; cases layer <;> rfl)
    (by intro layer; cases layer <;> decide) start run
  have hsum := hcounters.2
  rw [hbetween] at hsum
  exact ⟨t₀, s, effects, start, run, hsum⟩

end Threads

end MemoryTiering
