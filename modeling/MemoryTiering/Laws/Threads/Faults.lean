import MemoryTiering.Laws.Threads.Window

/-!
# Where the scanner can fail

With a ring, a step of the scanner fails in four places and in no other, whatever the manager does
meanwhile (`scan_faults_iff`): at `remove` of a page without a node, at `remove` of the evicted
page's freed node in a nested call, at the assert of an eviction from an empty ring, and at the
assert of a promotion into a full ring. Two of these are settled some steps before: a NUMA-local
page without a node was asked for, or a promotion found the tier full. From there the scanner never
gets out of its call, and it fails as soon as the manager leaves it alone. What the manager can fail
at is `access_faults_iff`.
-/

set_option autoImplicit false

namespace MemoryTiering

open Fallible Pointer Transition PageTable

/-- How many steps the scanner can make before one that fails, if nobody marks a node. -/
def ScannerThread.turnsLeft (ring : ClockRing) (l : List Addr) : ScannerThread → Nat
  | .called _ => 2
  | .located _ => 1
  | .taken .. => 2 * l.countP ring.refBit + 6
  | .sweeping .. => 2 * l.countP ring.refBit + 5
  | .referenced .. => 2 * l.tail.countP ring.refBit + 6
  | .condemned .. => 4
  | .evicted .. => 3
  | _ => 0

theorem ScannerThread.turnsLeft_le (scanner : ScannerThread) (ring : ClockRing) (l : List Addr) :
    turnsLeft ring l scanner ≤ 2 * l.length + 6 := by
  have hmarked := l.countP_le_length (p := ring.refBit)
  have htail := l.tail.countP_le_length (p := ring.refBit)
  rw [List.length_tail] at htail
  cases scanner <;> simp only [turnsLeft] <;> omega

namespace Threads

/-- The scanner's next step fails, and how. -/
def Trapped (fault : Fault) (s : Threads) : Prop :=
  match s.scanner with
  | .exchanged _ none => fault = .assertion .removeNullptr
  | .exchanged _ (some a) => s.callers ≠ [] ∧ fault = .useAfterFree a
  | .taken move _ => move.target = .numaLocal ∧ s.pageTable.serverConfig.localNuma.isFull = true ∧
      s.pageTable.census (·.ringNodePtr.isSome) = 0 ∧ fault = .assertion .ringEmpty
  | .placed move _ => move.target = .numaLocal ∧
      (∃ ring, s.pageTable.localCacheRing = some ring ∧
        s.pageTable.census (·.ringNodePtr.isSome) = ring.capacity.toNat) ∧
      fault = .assertion .migrateInsert
  | _ => False

/-- The scanner's call does not return: it was made for a NUMA-local page without a node, or it is a
promotion that found the tier full. -/
def Doomed (s : Threads) : Prop :=
  s.callers ≠ [] ∨
    match s.scanner with
    | .called move | .located move => ∃ m, s.pageTable.meta? move.pageId = some m ∧ isLost m = true
    | .exchanged _ node => node = none
    | .taken move _ => move.target = .numaLocal ∧ s.pageTable.serverConfig.localNuma.isFull = true
    | .sweeping .. | .referenced .. | .condemned .. | .evicted .. => True
    | _ => False

/-! ## The next step -/

section Traps

variable {table : PageTable} {manager : ManagerThread} {move : Migration} {current : PageLayer}
  {callers : List (Migration × PageLayer)} {ring : ClockRing} {l : List Addr}
  {classification : Scanner.Classification} {evictNow now : Nat} {fault : Fault}

/-- A step of the scanner in a sweep meets a node. -/
theorem Ringed.swept {s : Threads} (h : Ringed s ring l)
    (hscanner : s.scanner = .sweeping move current ∨ s.scanner = .referenced move current ∨
      s.scanner = .condemned move current) : s.callers = [] ∧ l ≠ [] := by
  have hstaged := h.staged
  unfold Staged at hstaged
  split at hstaged
  next hcallers =>
    rcases hscanner with hscanner | hscanner | hscanner
    all_goals
      rw [hscanner] at hstaged
      exact ⟨hcallers, hstaged⟩
  next =>
    rcases hscanner with hscanner | hscanner | hscanner
    all_goals
      rw [hscanner] at hstaged
      exact hstaged.elim
  next => exact hstaged.elim

/-- `remove` fails for a page without a node, and in a nested call. -/
theorem Ringed.exchanged_error_iff {node : Option Addr}
    (h : Ringed ⟨table, manager, .exchanged move node, callers⟩ ring l) :
    Threads.scan classification evictNow now ⟨table, manager, .exchanged move node, callers⟩ =
        .error fault ↔ Trapped fault ⟨table, manager, .exchanged move node, callers⟩ := by
  have hcache : table.cacheRing = .ok ring := h.cacheRing
  unfold Threads.scan
  simp only [hcache, ok_bind]
  cases node with
  | none =>
    exact ⟨fun herror => (Except.error.inj herror).symm,
      fun hfault => congrArg Except.error (Eq.symm hfault)⟩
  | some a =>
    match callers, h with
    | [], h =>
      obtain ⟨m, hm, _⟩ := h.staged
      have hheld : (table.store move.pageId (.setRingNode (some a))).Held ring l := h.held
      obtain ⟨ring', hremove, _⟩ :=
        hheld.release (table.meta?_store_self move.pageId (.setRingNode (some a)) hm) rfl
      rw [hremove]
      exact ⟨fun herror => (by cases herror), fun htrap => (htrap.1 rfl).elim⟩
    | [caller], h =>
      obtain ⟨b, hb, hgone⟩ := h.staged
      obtain rfl := Option.some.inj hb
      rw [ClockRing.remove_freed (h.held.reads.freed hgone)]
      exact ⟨fun herror => ⟨List.cons_ne_nil caller [], (Except.error.inj herror).symm⟩,
        fun htrap => congrArg Except.error htrap.2.symm⟩
    | _ :: _ :: _, h => exact h.staged.elim

/-- The check of the capacity fails when there is nobody to evict. -/
theorem Ringed.taken_error_iff (h : Ringed ⟨table, manager, .taken move current, callers⟩ ring l) :
    Threads.scan classification evictNow now ⟨table, manager, .taken move current, callers⟩ =
        .error fault ↔ Trapped fault ⟨table, manager, .taken move current, callers⟩ := by
  have hring : table.localCacheRing = some ring := h.present
  have hheld : table.Held ring l := h.held
  have hempty : ring.hand = none ↔ table.census (·.ringNodePtr.isSome) = 0 := by
    rw [← hheld.counted, List.length_eq_zero_iff, hheld.reads.hand, List.head?_eq_none_iff]
  unfold Threads.scan Trapped
  dsimp only
  rw [← hempty]
  by_cases htarget : move.target = .numaLocal
  · rw [htarget]
    cases hfull : table.serverConfig.localNuma.isFull with
    | false =>
      have hroom : (table.serverConfig.layer .numaLocal).isFull = false := hfull
      simp [hroom]
    | true =>
      have hfull' : (table.serverConfig.layer .numaLocal).isFull = true := hfull
      simp only [hfull', hring, if_true, true_and]
      cases ring.hand with
      | none =>
        exact ⟨fun herror => ⟨rfl, (Except.error.inj herror).symm⟩,
          fun htrap => congrArg Except.error htrap.2.symm⟩
      | some hand => exact ⟨fun herror => (by cases herror), fun htrap => by cases htrap.1⟩
  · refine ⟨fun herror => ?_, fun htrap => (htarget htrap.1).elim⟩
    split at herror
    next =>
      split at herror
      next hlocal => exact (htarget hlocal).elim
      next => cases herror
    next => cases herror

/-- A promoted page does not get into a full ring. -/
theorem Ringed.placed_error_iff
    (h : Ringed ⟨table, manager, .placed move current, callers⟩ ring l) :
    Threads.scan classification evictNow now ⟨table, manager, .placed move current, callers⟩ =
        .error fault ↔ Trapped fault ⟨table, manager, .placed move current, callers⟩ := by
  have hring : table.localCacheRing = some ring := h.present
  have hheld : table.Held ring l := h.held
  unfold Threads.scan Trapped
  dsimp only
  by_cases htarget : move.target = .numaLocal
  · rw [htarget, ← hheld.counted]
    rcases hheld.insert_cases move.pageId with ⟨full, hinsert⟩ | ⟨room, a, ring', hinsert⟩
    · have henter : table.enterRing .migrateInsert move.pageId .numaLocal =
          .error (.assertion .migrateInsert) := by
        unfold enterRing
        simp only [hring, hinsert, ok_bind]
      rw [henter]
      exact ⟨fun herror => ⟨rfl, ⟨ring, hring, full⟩, (Except.error.inj herror).symm⟩,
        fun htrap => congrArg Except.error htrap.2.2.symm⟩
    · rw [enterRing_enter .migrateInsert hring hinsert]
      refine ⟨fun herror => (by cases herror), ?_⟩
      rintro ⟨_, ⟨ring₁, hring₁, full⟩, _⟩
      obtain rfl : ring = ring₁ := Option.some.inj (hring.symm.trans hring₁)
      exact (Nat.ne_of_lt room full).elim
  · rw [enterRing_skip _ _ _ (.inr htarget)]
    exact ⟨fun herror => (by cases herror), fun htrap => (htarget htrap.1).elim⟩

/-- **When the scanner's next step fails.** -/
theorem Ringed.scan_error_iff {s : Threads} (h : Ringed s ring l) :
    s.scan classification evictNow now = .error fault ↔ s.Trapped fault := by
  obtain ⟨table, manager, scanner, callers⟩ := s
  have hcache : table.cacheRing = .ok ring := h.cacheRing
  cases scanner with
  | exchanged move node => exact h.exchanged_error_iff
  | taken move current => exact h.taken_error_iff
  | placed move current => exact h.placed_error_iff
  | readTime | called =>
    refine ⟨fun herror => ?_, False.elim⟩
    unfold Threads.scan at herror
    dsimp only at herror
    split at herror
    all_goals cases herror
  | sweeping move current =>
    refine ⟨fun herror => ?_, False.elim⟩
    obtain ⟨rfl, hne⟩ := h.swept (.inl rfl)
    obtain ⟨a, rest, rfl⟩ := List.exists_cons_of_ne_nil hne
    unfold Threads.scan at herror
    simp only [hcache, ok_bind, h.held.reads.handBit_eq] at herror
    split at herror
    all_goals cases herror
  | referenced move current =>
    refine ⟨fun herror => ?_, False.elim⟩
    obtain ⟨rfl, _⟩ := h.swept (.inr (.inl rfl))
    obtain ⟨_, _, ring', _, hpass, _⟩ := h.scan_referenced
    unfold Threads.scan at herror
    simp only [hcache, ok_bind, hpass] at herror
    cases herror
  | condemned move current =>
    refine ⟨fun herror => ?_, False.elim⟩
    obtain ⟨rfl, _⟩ := h.swept (.inr (.inr rfl))
    obtain ⟨_, ring', _, hevict, _⟩ := h.scan_condemned
    unfold Threads.scan at herror
    simp only [hcache, ok_bind, hevict] at herror
    cases herror
  | _ =>
    refine ⟨fun herror => ?_, False.elim⟩
    cases herror

end Traps

/-! ## The way there -/

section Doom

variable {s s' : Threads} {ring : ClockRing} {l : List Addr} {effect : Option Call}

/-- What no step of the manager changes. -/
theorem access_frame (step : s.access = .ok (effect, s')) :
    s'.scanner = s.scanner ∧ s'.callers = s.callers ∧
      s'.pageTable.serverConfig = s.pageTable.serverConfig ∧ s.pageTable.Steady s'.pageTable := by
  obtain ⟨table, manager, scanner, callers⟩ := s
  have hsame : table.Steady table := fun _ m hm => ⟨m, hm, rfl, rfl⟩
  unfold Threads.access at step
  cases manager with
  | marked v | stamped v =>
    cases step
    exact ⟨rfl, rfl, rfl, table.steady_store v.pageId (fun _ => rfl) fun _ => rfl⟩
  | loaded v node =>
    dsimp only at step
    split at step
    next =>
      cases step
      exact ⟨rfl, rfl, rfl, hsame⟩
    next =>
      obtain ⟨ring', _, step⟩ := bind_eq_ok.mp step
      cases step
      exact ⟨rfl, rfl, rfl, hsame⟩
  | measured v | recorded v =>
    dsimp only at step
    split at step
    all_goals
      cases step
      exact ⟨rfl, rfl, rfl, hsame⟩
  | _ =>
    cases step
    exact ⟨rfl, rfl, rfl, hsame⟩

/-- The manager does not save the scanner. -/
theorem Doomed.access (h : s.Doomed) (step : s.access = .ok (effect, s')) : s'.Doomed := by
  obtain ⟨hscanner, hcallers, hconfig, hsteady⟩ := access_frame step
  have lost : ∀ p, (∃ m, s.pageTable.meta? p = some m ∧ isLost m = true) →
      ∃ m, s'.pageTable.meta? p = some m ∧ isLost m = true := by
    rintro p ⟨m, hm, hlost⟩
    obtain ⟨m', hm', hptr, hlayer⟩ := hsteady p m hm
    exact ⟨m', hm', by rw [isLost, hptr, hlayer]; exact hlost⟩
  unfold Doomed at h ⊢
  rw [hscanner, hcallers, hconfig]
  refine h.imp_right fun h => ?_
  generalize s.scanner = scanner at h ⊢
  cases scanner with
  | called move | located move => exact lost _ h
  | _ => exact h

/-- The scanner fails, or makes one of the steps it has left. -/
def Struggles (turns : Nat) (call : Except Fault (Option Call × Threads)) : Prop :=
  (∃ fault, call = .error fault) ∨
    ∃ effect s' ring' l', call = .ok (effect, s') ∧ Ringed s' ring' l' ∧ s'.Doomed ∧
      ScannerThread.turnsLeft ring' l' s'.scanner < turns

theorem Struggles.of_step {turns : Nat} {call : Except Fault (Option Call × Threads)}
    (step : call = .ok (effect, s')) (ringed : Ringed s' ring l) (doomed : s'.Doomed)
    (fewer : ScannerThread.turnsLeft ring l s'.scanner < turns) : Struggles turns call :=
  .inr ⟨effect, s', ring, l, step, ringed, doomed, fewer⟩

section Struggle

variable {table : PageTable} {manager : ManagerThread} {scanner : ScannerThread}
  {caller : Migration × PageLayer}

/-- A nested call comes to the node that is gone. -/
theorem Ringed.struggles_nested (h : Ringed ⟨table, manager, scanner, [caller]⟩ ring l)
    (classification : Scanner.Classification) (evictNow now : Nat) :
    Struggles (scanner.turnsLeft ring l)
      (Threads.scan classification evictNow now ⟨table, manager, scanner, [caller]⟩) := by
  have hring : table.localCacheRing = some ring := h.present
  have hnested : ∀ table manager scanner,
      Doomed ⟨table, manager, scanner, [caller]⟩ :=
    fun _ _ _ => .inl (List.cons_ne_nil caller [])
  have hstaged : scanner.NestedStage table ring l := h.staged
  cases scanner with
  | called move =>
    obtain ⟨m, a, hm, hlocal, _⟩ := hstaged
    have hstep : Threads.scan classification evictNow now
        ⟨table, manager, .called move, [caller]⟩ =
        .ok (none, ⟨table, manager, .located move, [caller]⟩) := by
      unfold Threads.scan
      simp only [hring, layer?_eq hm, hlocal]
    exact .of_step hstep (h.scan_nested hstep) (hnested ..) Nat.one_lt_two
  | located move =>
    have hstep : Threads.scan classification evictNow now
        ⟨table, manager, .located move, [caller]⟩ =
        .ok (none, ⟨table.store move.pageId (.setRingNode none), manager,
          .exchanged move ((table.meta? move.pageId).bind (·.ringNodePtr)), [caller]⟩) := rfl
    exact .of_step hstep (h.scan_nested hstep) (hnested ..) Nat.one_pos
  | exchanged move node =>
    obtain ⟨a, rfl, _⟩ := hstaged
    exact .inl ⟨.useAfterFree a, h.exchanged_error_iff.mpr ⟨List.cons_ne_nil caller [], rfl⟩⟩
  | _ => exact hstaged.elim

/-- A NUMA-local page without a node comes to the assert of `remove`. -/
theorem Ringed.struggles_lost {move : Migration}
    (h : Ringed ⟨table, manager, scanner, []⟩ ring l)
    (hscanner : scanner = .called move ∨ scanner = .located move)
    (lost : ∃ m, table.meta? move.pageId = some m ∧ isLost m = true)
    (classification : Scanner.Classification) (evictNow now : Nat) :
    Struggles (scanner.turnsLeft ring l)
      (Threads.scan classification evictNow now ⟨table, manager, scanner, []⟩) := by
  have hring : table.localCacheRing = some ring := h.present
  obtain ⟨m, hm, hlost⟩ := lost
  have hlocal : m.pageLayer = .numaLocal ∧ m.ringNodePtr = none := by
    simpa only [isLost, Bool.and_eq_true, decide_eq_true_eq, Option.isNone_iff_eq_none] using hlost
  rcases hscanner with rfl | rfl
  · have hstep : Threads.scan classification evictNow now ⟨table, manager, .called move, []⟩ =
        .ok (none, ⟨table, manager, .located move, []⟩) := by
      unfold Threads.scan
      simp only [hring, layer?_eq hm, hlocal.1]
    have hringed : Ringed ⟨table, manager, .located move, []⟩ ring l :=
      ⟨h.held, h.window, (layer?_eq hm).trans (congrArg some hlocal.1)⟩
    exact .of_step hstep hringed (.inr ⟨m, hm, hlost⟩) Nat.one_lt_two
  · have hstep : Threads.scan classification evictNow now ⟨table, manager, .located move, []⟩ =
        .ok (none, ⟨table.store move.pageId (.setRingNode none), manager,
          .exchanged move none, []⟩) := by
      unfold Threads.scan
      simp only [hm, Option.bind_some, hlocal.2]
    have hringed := h.scan_located hm
    rw [hlocal.2] at hringed
    exact .of_step hstep hringed (.inr rfl) Nat.one_pos

/-- A promotion that found the tier full comes to a nested call. -/
theorem Ringed.struggles_evicting (h : Ringed ⟨table, manager, scanner, []⟩ ring l)
    (doomed : Doomed ⟨table, manager, scanner, []⟩) (classification : Scanner.Classification)
    (evictNow now : Nat) :
    Struggles (scanner.turnsLeft ring l)
      (Threads.scan classification evictNow now ⟨table, manager, scanner, []⟩) := by
  have hring : table.localCacheRing = some ring := h.present
  have hcache : table.cacheRing = .ok ring := h.cacheRing
  have hdoomed := doomed.resolve_left (fun hne => hne rfl)
  cases scanner with
  | called move => exact h.struggles_lost (.inl rfl) hdoomed classification evictNow now
  | located move => exact h.struggles_lost (.inr rfl) hdoomed classification evictNow now
  | exchanged move node =>
    obtain rfl : node = none := hdoomed
    exact .inl ⟨_, h.exchanged_error_iff.mpr rfl⟩
  | taken move current =>
    obtain ⟨htarget, full⟩ := hdoomed
    have hfull : (table.serverConfig.layer .numaLocal).isFull = true := full
    cases hhand : ring.hand with
    | none =>
      left
      unfold Threads.scan
      simp only [htarget, hfull, if_true, hring, hhand]
      exact ⟨_, rfl⟩
    | some hand =>
      have hstep : Threads.scan classification evictNow now
          ⟨table, manager, .taken move current, []⟩ =
          .ok (none, ⟨table, manager, .sweeping move current, []⟩) := by
        unfold Threads.scan
        simp only [htarget, hfull, if_true, hring, hhand]
      have hne : l ≠ [] := by
        rintro rfl
        rw [h.held.reads.hand] at hhand
        cases hhand
      exact .of_step hstep ⟨h.held, h.window, hne⟩ (.inr trivial) (Nat.lt_succ_self _)
  | sweeping move current =>
    obtain ⟨a, rest, rfl⟩ := List.exists_cons_of_ne_nil (h.swept (.inl rfl)).2
    have hbit := h.held.reads.handBit_eq
    cases hmarked : ring.refBit a with
    | true =>
      have hstep : Threads.scan classification evictNow now
          ⟨table, manager, .sweeping move current, []⟩ =
          .ok (none, ⟨table, manager, .referenced move current, []⟩) := by
        unfold Threads.scan
        simp only [hcache, ok_bind, hbit, hmarked]
      refine .of_step hstep ⟨h.held, h.window, h.staged⟩ (.inr trivial) ?_
      simp only [ScannerThread.turnsLeft, List.tail_cons, List.countP_cons, hmarked, if_true]
      omega
    | false =>
      have hstep : Threads.scan classification evictNow now
          ⟨table, manager, .sweeping move current, []⟩ =
          .ok (none, ⟨table, manager, .condemned move current, []⟩) := by
        unfold Threads.scan
        simp only [hcache, ok_bind, hbit, hmarked]
      refine .of_step hstep ⟨h.held, h.window, h.staged⟩ (.inr trivial) ?_
      simp only [ScannerThread.turnsLeft]
      omega
  | referenced move current =>
    obtain ⟨a, rest, ring', rfl, hpass, hbits, h'⟩ := h.scan_referenced
    have hstep : Threads.scan classification evictNow now
        ⟨table, manager, .referenced move current, []⟩ =
        .ok (none, ⟨table.withRing ring', manager, .sweeping move current, []⟩) := by
      unfold Threads.scan
      simp only [hcache, ok_bind, hpass]
    refine .of_step hstep h' (.inr trivial) ?_
    have hrest : rest.countP ring'.refBit ≤ rest.countP ring.refBit := by
      refine List.countP_mono_left fun b _ hb => ?_
      rw [hbits] at hb
      exact (Bool.and_eq_true_iff.mp hb).1
    have hpassed : ring'.refBit a = false := by simp [hbits]
    simp only [ScannerThread.turnsLeft, List.tail_cons, List.countP_append, List.countP_singleton,
      hpassed, Bool.false_eq_true, if_false]
    omega
  | condemned move current =>
    obtain ⟨victim, ring', l', hevict, h'⟩ := h.scan_condemned
    have hstep : Threads.scan classification evictNow now
        ⟨table, manager, .condemned move current, []⟩ =
        .ok (none, ⟨table.withRing ring', manager, .evicted move current victim, []⟩) := by
      unfold Threads.scan
      simp only [hcache, ok_bind, hevict]
    exact .of_step hstep h' (.inr trivial) (Nat.lt_succ_self 3)
  | evicted move current victim =>
    exact .of_step rfl ⟨h.held, h.window, h.staged⟩
      (.inl (List.cons_ne_nil (move, current) [])) (Nat.lt_succ_self 2)
  | _ => exact hdoomed.elim

end Struggle

/-- **The step lemma of the doomed**: the scanner has fewer steps left, or none. -/
theorem Ringed.struggles (h : Ringed s ring l) (doomed : s.Doomed)
    (classification : Scanner.Classification) (evictNow now : Nat) :
    Struggles (s.scanner.turnsLeft ring l) (s.scan classification evictNow now) := by
  obtain ⟨table, manager, scanner, callers⟩ := s
  match callers, h.staged with
  | [], _ => exact h.struggles_evicting doomed classification evictNow now
  | [_], _ => exact h.struggles_nested classification evictNow now

/-- Nobody saves the scanner. -/
theorem Ringed.doomed_step (h : Ringed s ring l) (doomed : s.Doomed) (hstep : Step s effect s') :
    s'.Doomed := by
  cases hstep with
  | begin visit idle found => exact doomed
  | notFound => exact doomed
  | access step => exact doomed.access step
  | @scan classification evictNow now _ _ _ step =>
    rcases h.struggles doomed classification evictNow now with
      ⟨fault, herror⟩ | ⟨_, _, _, _, hscan, _, hdoomed, _⟩
    · rw [herror] at step
      cases step
    · rw [hscan] at step
      cases step
      exact hdoomed

/-- **The run lemma of the doomed.** -/
theorem Ringed.doomed_run {effects : List (Option Call)} (h : Ringed s ring l) (doomed : s.Doomed)
    (run : Trace Step s effects s') : s'.Doomed := by
  have hkeeps : ∀ s effect s', (∃ ring l, Ringed s ring l) ∧ s.Doomed → Step s effect s' →
      (∃ ring l, Ringed s' ring l) ∧ s'.Doomed := by
    rintro s effect s' ⟨⟨ring, l, h⟩, doomed⟩ hstep
    exact ⟨h.step hstep, h.doomed_step doomed hstep⟩
  exact (run.invariant (P := fun s => (∃ ring l, Ringed s ring l) ∧ s.Doomed) hkeeps
    ⟨⟨ring, l, h⟩, doomed⟩).2

/-- Left alone, the doomed scanner fails when its steps are used up. -/
theorem Ringed.doomed_fails (classification : Scanner.Classification) (evictNow now : Nat)
    {turns : Nat} : ∀ {s : Threads} {ring : ClockRing} {l : List Addr}, Ringed s ring l → s.Doomed →
      s.scanner.turnsLeft ring l < turns →
      ∃ fault, play (List.replicate turns (Threads.scan classification evictNow now)) s =
        .error fault := by
  induction turns with
  | zero =>
    intro s ring l _ _ hturns
    exact (Nat.not_lt_zero _ hturns).elim
  | succ turns ih =>
    intro s ring l h doomed hturns
    rw [List.replicate_succ, play]
    rcases h.struggles doomed classification evictNow now with
      ⟨fault, herror⟩ | ⟨_, s', _, _, hscan, h', hdoomed, hfewer⟩
    · rw [herror]
      exact ⟨fault, rfl⟩
    · obtain ⟨fault, hrest⟩ := ih h' hdoomed (by omega)
      rw [hscan, ok_bind]
      dsimp only
      rw [hrest]
      exact ⟨fault, rfl⟩

/-- The ring has no more nodes than the table pages. -/
theorem Ringed.length_le (h : Ringed s ring l) : l.length ≤ s.pageTable.table.size := by
  rw [h.held.counted]
  refine (Table.census_le_size _ _).trans (le_of_eq ?_)
  unfold mended PageTable.mend
  split
  · exact Table.size_update ..
  · rfl

end Doom

/-- **Where the scanner fails**: with a ring, over every interleaving, its next step fails exactly
where it is trapped. Once its call is doomed no step of either thread changes that, so that the call
never returns; and the scanner's own steps lead to a failure, at the latest the seventh after two
for each page, if the manager makes none. -/
theorem scan_faults_iff {clients : List ClientConfig} {server : ServerMemoryConfig}
    {alloc : Allocation} {t₀ : PageTable} {s : Threads} {effects : List (Option Call)}
    (tiers : server.numTiers = 2 ∨ server.numTiers = 3)
    (empty : ∀ layer, (server.layer layer).count = 0)
    (start : (new clients server true).initPageTable alloc = .ok t₀)
    (run : Trace Step { pageTable := t₀ } effects s) (classification : Scanner.Classification)
    (evictNow now : Nat) :
    (∀ fault, s.scan classification evictNow now = .error fault ↔ s.Trapped fault) ∧
      (s.Doomed → (∀ later s', Trace Step s later s' → s'.Doomed) ∧
        ∃ fault, play (List.replicate (2 * s.pageTable.table.size + 7)
          (Threads.scan classification evictNow now)) s = .error fault) := by
  obtain ⟨ring₀, l₀, h₀⟩ := ringed_start tiers empty start
  obtain ⟨ring, l, h⟩ := h₀.run run
  refine ⟨fun fault => h.scan_error_iff, fun doomed => ⟨?_, ?_⟩⟩
  · intro later s' hlater
    exact h.doomed_run doomed hlater
  · have hlength := h.length_le
    have hturns := s.scanner.turnsLeft_le ring l
    exact Ringed.doomed_fails classification evictNow now h doomed (by omega)

/-- A refused demotion takes a page's node while an access to it is under way. The access goes on
without it, and the next cold round of the page fails, though not at once. -/
theorem refused_demotion_traps : ∃ (t₀ : PageTable) (s : Threads) (effects : List (Option Call)),
    (smallConfig 1 1 (by decide)).start true plainAllocation = .ok t₀ ∧
    Trace Step { pageTable := t₀ } effects s ∧ s.pageTable.metrics.localAccessCount = 1 ∧
    (∀ fault, s.scan Scanner.alwaysCold 0 0 ≠ .error fault) ∧
    ∃ fault, play (List.replicate (2 * s.pageTable.table.size + 7)
      (Threads.scan Scanner.alwaysCold 0 0)) s = .error fault := by
  have hrun : ∃ (t₀ : PageTable) (s : Threads) (effects : List (Option Call)),
      (smallConfig 1 1 (by decide)).start true plainAllocation = .ok t₀ ∧ 0 ∈ t₀.table ∧
      play (turnsOf (List.replicate 1 none ++ List.replicate 7 (some Scanner.alwaysCold) ++
          List.replicate 7 none ++ List.replicate 18 (some Scanner.alwaysCold)))
        { pageTable := t₀, manager := .measured ⟨0, .read, 5, 0⟩ } = .ok (effects, s) ∧
      s.pageTable.metrics.localAccessCount = 1 ∧
      ∃ move m, s.scanner = .called move ∧ s.pageTable.meta? move.pageId = some m ∧
        isLost m = true :=
    ⟨_, _, _, rfl, by decide, rfl, rfl, _, _, rfl, rfl, rfl⟩
  obtain ⟨t₀, s, effects, start, found, hplay, haccess, move, m, hscanner, hm, hlost⟩ := hrun
  have run := trace_of_visit found hplay
  obtain ⟨hfaults, hdoomed⟩ := scan_faults_iff (.inr rfl) (by intro layer; cases layer <;> rfl)
    start run Scanner.alwaysCold 0 0
  refine ⟨t₀, s, _, start, run, haccess, fun fault hfault => ?_, (hdoomed (.inr ?_)).2⟩
  · have htrapped := (hfaults fault).mp hfault
    unfold Trapped at htrapped
    rw [hscanner] at htrapped
    exact htrapped
  · rw [hscanner]
    exact ⟨m, hm, hlost⟩

end Threads

end MemoryTiering
