import MemoryTiering.Laws.Scanner.Traffic
import MemoryTiering.Laws.Threads.Ringless

/-!
# Accesses pay, wherever the threads cut into each other

Between the scanner's load of a page's count and its store of the new layer the manager may count
any number of accesses, and the store of `0` that follows takes these away too; the count may even
wrap. Still a page is promoted at most once for each `price` of accesses to it, at every moment and
in every order of the loads and stores (`promotions_are_paid`). What carries the proof are the
page's `funds`: its count, or the price where the scanner is about to promote the page, since it saw
that much, and less the price once it has and the count is not yet cleared.
-/

set_option autoImplicit false

namespace MemoryTiering

open Fallible Pointer Transition PageTable

/-! ## Funds -/

/-- The page, if it is to go to a faster layer than this one. -/
def Migration.promise (current : PageLayer) (move : Migration) : Option PageId :=
  if move.target.depth < current.depth then some move.pageId else none

theorem Migration.promise_eq_some {current : PageLayer} {move : Migration} {p : PageId} :
    move.promise current = some p ↔ move.target.depth < current.depth ∧ move.pageId = p := by
  unfold promise
  rw [Option.ite_none_right_eq_some, Option.some_inj]

/-- The page the scanner is to promote, before the layer is stored. -/
def ScannerThread.holds (t : PageTable) : ScannerThread → Option PageId
  | .called move => move.promise (t.getPageMetaData move.pageId).1
  | .taken move current | .admitted move current => move.promise current
  | _ => none

/-- The page it has promoted, between that store and the one that clears the count. -/
def ScannerThread.spent : ScannerThread → Option PageId
  | .placed move current | .entered move current | .stamped move current => move.promise current
  | _ => none

/-- What a page can still pay. -/
def ScannerThread.funds (price : Nat) (t : PageTable) (p : PageId) (s : ScannerThread) : Nat :=
  if s.holds t = some p then max price (t.countAt p)
  else if s.spent = some p then max price (t.countAt p) - price
  else t.countAt p

section Funds

variable {s : ScannerThread} {t t' : PageTable} {p : PageId} {move : Migration}

theorem ScannerThread.holds_congr (s : ScannerThread) (h : ∀ q, t'.layer? q = t.layer? q) :
    s.holds t' = s.holds t := by
  cases s with
  | called move =>
    show move.promise (t'.getPageMetaData move.pageId).1 =
      move.promise (t.getPageMetaData move.pageId).1
    rw [getPageMetaData_layer, getPageMetaData_layer, h]
  | _ => rfl

/-- A page that is not to be promoted, and was not, can pay its count. -/
theorem ScannerThread.funds_free (holds : s.holds t ≠ some p) (spent : s.spent ≠ some p)
    (price : Nat) : s.funds price t p = t.countAt p := by
  rw [funds, if_neg holds, if_neg spent]

theorem ScannerThread.le_funds (spent : s.spent ≠ some p) (price : Nat) :
    t.countAt p ≤ s.funds price t p := by
  unfold funds
  rw [if_neg spent]
  split
  · exact Nat.le_max_right _ _
  · exact Nat.le_refl _

/-- A call to promote a page that shows the price leaves the funds what they were. -/
theorem ScannerThread.funds_called {price : Nat}
    (h : move.target.depth < (t.getPageMetaData move.pageId).1.depth → move.pageId = p →
      price ≤ t.countAt p) : (called move).funds price t p ≤ t.countAt p := by
  by_cases hpromise : (called move).holds t = some p
  · obtain ⟨hup, hp⟩ := Migration.promise_eq_some.mp hpromise
    rw [funds, if_pos hpromise]
    exact Nat.max_le.mpr ⟨h hup hp, Nat.le_refl _⟩
  · exact (funds_free hpromise (Option.some_ne_none p).symm price).le

/-- The layer is read again, and is the same. -/
theorem ScannerThread.funds_taken {current : PageLayer} (h : t.layer? move.pageId = some current)
    (price : Nat) (p : PageId) :
    (taken move current).funds price t p = (called move).funds price t p := by
  have hholds : (called move).holds t = (taken move current).holds t := by
    show move.promise (t.getPageMetaData move.pageId).1 = move.promise current
    rw [getPageMetaData_layer, h, Option.getD_some]
  unfold funds
  rw [hholds]
  rfl

/-- No more is added to the funds than to the count. -/
theorem ScannerThread.funds_le (price : Nat) (s : ScannerThread) {k : Nat}
    (layers : ∀ q, t'.layer? q = t.layer? q) (h : t'.countAt p ≤ t.countAt p + k) :
    s.funds price t' p ≤ s.funds price t p + k := by
  unfold funds
  rw [s.holds_congr layers]
  split
  · omega
  · split <;> omega

end Funds

namespace PageTable

section Stores

variable {t t' : PageTable} {weight : PageMetadata → Nat} {f : PageMetadata → PageMetadata}

theorem left_congr (h : ∀ q, t'.record? q = t.record? q) (p : PageId) :
    t'.left weight p = t.left weight p := by
  unfold left
  rw [h]

theorem left_store (t : PageTable) (q : PageId)
    (hf : ∀ m, (f m).setRingNode none = f (m.setRingNode none)) (p : PageId) :
    (t.store q f).left weight p =
      if p = q then t.left (weight ∘ f) p else t.left weight p := by
  unfold left
  rw [record?_store t q hf, Option.map_map]
  by_cases hp : p = q
  · simp only [hp, if_true, Function.comp_def]
  · simp only [hp, if_false, Function.comp_def]

/-- A store that keeps the weight. -/
theorem left_store_eq (t : PageTable) (q : PageId)
    (hf : ∀ m, (f m).setRingNode none = f (m.setRingNode none))
    (h : ∀ m, weight (f m) = weight m) (p : PageId) :
    (t.store q f).left weight p = t.left weight p := by
  rw [left_store t q hf, show weight ∘ f = weight from funext h, ite_self]

/-- A store that keeps the count. -/
theorem countAt_store_eq (t : PageTable) (q : PageId)
    (hf : ∀ m, (f m).setRingNode none = f (m.setRingNode none))
    (h : ∀ m, (f m).accessCnt = m.accessCnt) (p : PageId) :
    (t.store q f).countAt p = t.countAt p :=
  left_store_eq t q hf (fun m => congrArg UInt32.toNat (h m)) p

/-- One more, or none after the largest. -/
theorem countAt_store_count (t : PageTable) (q p : PageId) :
    (t.store q .count).countAt p ≤ t.countAt p + if q = p then 1 else 0 := by
  unfold countAt
  rw [left_store (f := .count) t q fun _ => rfl]
  by_cases hp : p = q
  · rw [if_pos hp, if_pos hp.symm]
    unfold left
    cases t.record? p with
    | none => exact Nat.zero_le _
    | some m => exact toNat_accessCnt_accessed m 0
  · rw [if_neg hp]
    exact Nat.le_add_right _ _

theorem countAt_store_clearCount (t : PageTable) (q p : PageId) :
    (t.store q .clearCount).countAt p = if p = q then 0 else t.countAt p := by
  unfold countAt
  rw [left_store (f := .clearCount) t q fun _ => rfl]
  congr 1
  unfold left
  cases t.record? p <;> rfl

/-- The scanner reads the count. -/
theorem countAt_eq_data (t : PageTable) (p : PageId) :
    t.countAt p = (t.getPageMetaData p).2.2.toNat := by
  rw [getPageMetaData_eq_record, countAt, left]
  cases t.record? p <;> rfl

end Stores

end PageTable

namespace Threads

/-! ## Motions -/

/-- Which thread moves, and where the manager starts a call. -/
inductive Motion where
  | call
  | access
  | scan
  deriving DecidableEq

/-- One step under a policy, with where it was made. -/
inductive Moves (policy : PolicyVariant) (s : Threads) : Threads × Motion → Threads → Prop where
  | begin (visit : Visit) (idle : s.manager = .idle) (found : visit.pageId ∈ s.pageTable.table) :
      Moves policy s (s, .call) { s with manager := .measured visit }
  | notFound (visit : Visit) (idle : s.manager = .idle)
      (missing : visit.pageId ∉ s.pageTable.table) : Moves policy s (s, .call) s
  | access {effect : Option Call} {s' : Threads} (step : s.access = .ok (effect, s')) :
      Moves policy s (s, .access) s'
  | scan {readings : Scanner.Readings} {evictNow now : Nat} {effect : Option Call} {s' : Threads}
      (step : s.scan (Scanner.classification policy readings) evictNow now = .ok (effect, s')) :
      Moves policy s (s, .scan) s'

theorem Moves.step {policy : PolicyVariant} {s s' : Threads} {e : Threads × Motion}
    (h : Moves policy s e s') : ∃ effect, Step s effect s' := by
  cases h with
  | begin visit idle found => exact ⟨_, .begin visit idle found⟩
  | notFound visit idle missing => exact ⟨_, .notFound visit idle missing⟩
  | access step => exact ⟨_, .access step⟩
  | scan step => exact ⟨_, .scan trivial step⟩

/-- The manager counts an access to the page. -/
def counts (p : PageId) (e : Threads × Motion) : Bool :=
  match e.2, e.1.manager with
  | .access, .stamped v => v.pageId = p
  | _, _ => false

/-- The scanner stores another layer for the page. -/
def migrates (p : PageId) (e : Threads × Motion) : Bool :=
  match e.2, e.1.scanner with
  | .scan, .admitted move _ => move.pageId = p
  | _, _ => false

/-- The layer the scanner is to store is a faster one. -/
def climbs (s : Threads) : Bool :=
  match s.scanner with
  | .admitted move current => move.target.depth < current.depth
  | _ => false

/-- The scanner stores a faster layer for the page. -/
def promotes (p : PageId) (e : Threads × Motion) : Bool := migrates p e && climbs e.1

/-! ## Schedules -/

/-- A motion, with every call about the same access and the scanner's clock at zero. -/
def move? (policy : PolicyVariant) (visit : Visit) (s : Threads) : Motion → Option Threads
  | .call =>
    if s.manager = .idle ∧ visit.pageId ∈ s.pageTable.table then
      some { s with manager := .measured visit }
    else none
  | .access =>
    match s.access with
    | .ok (_, s') => some s'
    | .error _ => none
  | .scan =>
    match s.scan (Scanner.classification policy ⟨0, 0, 0⟩) 0 0 with
    | .ok (_, s') => some s'
    | .error _ => none

def moves? (policy : PolicyVariant) (visit : Visit) :
    List Motion → Threads → Option (List (Threads × Motion) × Threads)
  | [], s => some ([], s)
  | motion :: motions, s => do
    let s' ← s.move? policy visit motion
    let (es, s'') ← moves? policy visit motions s'
    some ((s, motion) :: es, s'')

theorem moves_of_move? {policy : PolicyVariant} {visit : Visit} {s s' : Threads} {motion : Motion}
    (h : s.move? policy visit motion = some s') : Moves policy s (s, motion) s' := by
  cases motion with
  | call =>
    obtain ⟨⟨idle, found⟩, h⟩ := Option.ite_none_right_eq_some.mp h
    cases h
    exact .begin visit idle found
  | access =>
    unfold move? at h
    dsimp only at h
    split at h
    next hstep =>
      cases h
      exact .access hstep
    next => cases h
  | scan =>
    unfold move? at h
    dsimp only at h
    split at h
    next hstep =>
      cases h
      exact .scan hstep
    next => cases h

theorem trace_of_moves? {policy : PolicyVariant} {visit : Visit} {motions : List Motion}
    {s s' : Threads} {es : List (Threads × Motion)}
    (h : moves? policy visit motions s = some (es, s')) : Trace (Moves policy) s es s' := by
  induction motions generalizing s es with
  | nil =>
    cases h
    exact .nil _
  | cons motion motions ih =>
    obtain ⟨s₁, hmove, h⟩ := Option.bind_eq_some_iff.mp h
    obtain ⟨⟨rest, s₂⟩, hrest, h⟩ := Option.bind_eq_some_iff.mp h
    cases h
    exact .cons (moves_of_move? hmove) (ih hrest)

/-! ## Steps -/

/-- What a page can still pay. -/
def funds (price : Nat) (s : Threads) (p : PageId) : Nat :=
  (s.scanner.unringed s.callers).funds price s.pageTable p

/-- The levels a page can still go down. -/
def levels (s : Threads) (p : PageId) : Nat :=
  s.pageTable.left (fun m => PageLayer.pmem.depth - m.pageLayer.depth) p

section Steps

variable {price : Nat} {freq : FrequencyPolicyConfig} {s s' : Threads} {effect : Option Call}

/-- The manager's stores only ever add to the funds, and keep the layers. -/
theorem funds_of_count {k : Nat} {p : PageId} (scanner : s'.scanner = s.scanner)
    (callers : s'.callers = s.callers)
    (layers : ∀ q, s'.pageTable.layer? q = s.pageTable.layer? q)
    (count : s'.pageTable.countAt p ≤ s.pageTable.countAt p + k) :
    s'.funds price p ≤ s.funds price p + k := by
  unfold funds
  rw [scanner, callers]
  exact ScannerThread.funds_le price _ layers count

/-- **The manager's step lemma.** It brings in what it counts. -/
theorem access_funds (price : Nat) (step : s.access = .ok (effect, s')) (p : PageId) :
    s'.funds price p ≤ s.funds price p + (if counts p (s, .access) then 1 else 0) ∧
      s'.levels p = s.levels p := by
  obtain ⟨table, manager, scanner, callers⟩ := s
  have stays : ∀ s' : Threads, s'.scanner = scanner → s'.callers = callers →
      (∀ q, s'.pageTable.record? q = table.record? q) →
        s'.funds price p ≤ funds price ⟨table, manager, scanner, callers⟩ p +
          (if counts p (⟨table, manager, scanner, callers⟩, .access) then 1 else 0) ∧
            s'.levels p = levels ⟨table, manager, scanner, callers⟩ p := by
    intro s' hscanner hcallers hrecord
    have hlayers : ∀ q, s'.pageTable.layer? q = table.layer? q := by
      intro q
      rw [layer?_eq_record, layer?_eq_record, hrecord]
    refine ⟨funds_of_count hscanner hcallers hlayers ?_, left_congr hrecord p⟩
    exact (left_congr hrecord p).le.trans (Nat.le_add_right _ _)
  unfold Threads.access at step
  cases manager with
  | marked v =>
    cases step
    have hlayers := (sameLayers_store table v.pageId (f := .stamp v.now) fun _ => rfl).layer
    have hcount := table.countAt_store_eq (f := .stamp v.now) v.pageId (fun _ => rfl)
      (fun _ => rfl) p
    exact ⟨funds_of_count rfl rfl hlayers (hcount.le.trans (Nat.le_add_right _ _)),
      table.left_store_eq (f := .stamp v.now) v.pageId (fun _ => rfl) (fun _ => rfl) p⟩
  | stamped v =>
    cases step
    have hlayers := (sameLayers_store table v.pageId (f := .count) fun _ => rfl).layer
    refine ⟨funds_of_count rfl rfl hlayers ?_,
      table.left_store_eq (f := .count) v.pageId (fun _ => rfl) (fun _ => rfl) p⟩
    simpa only [counts, decide_eq_true_eq] using table.countAt_store_count v.pageId p
  | loaded v node =>
    dsimp only at step
    split at step
    next =>
      cases step
      exact stays _ rfl rfl fun _ => rfl
    next =>
      obtain ⟨ring', _, step⟩ := bind_eq_ok.mp step
      cases step
      exact stays _ rfl rfl fun _ => rfl
  | measured | recorded =>
    dsimp only at step
    split at step
    all_goals
      cases step
      exact stays _ rfl rfl fun _ => rfl
  | idle | tested | counted | switched =>
    cases step
    exact stays _ rfl rfl fun _ => rfl

/-- What a step of the scanner takes from a page. -/
inductive Takes (price : Nat) (p : PageId) (s s' : Threads) : Prop where
  | stayed (rests : migrates p (s, .scan) = false) (funds : s'.funds price p ≤ s.funds price p)
      (levels : s'.levels p = s.levels p)
  | demoted (moves : migrates p (s, .scan) = true) (down : promotes p (s, .scan) = false)
      (funds : s'.funds price p ≤ s.funds price p) (levels : s'.levels p < s.levels p)
  | promoted (moves : migrates p (s, .scan) = true) (up : promotes p (s, .scan) = true)
      (funds : price + s'.funds price p ≤ s.funds price p)

/-- A step that leaves the records alone. -/
theorem Takes.of_scanner {p : PageId} (rests : migrates p (s, .scan) = false)
    (record : ∀ q, s'.pageTable.record? q = s.pageTable.record? q)
    (funds : (s'.scanner.unringed s'.callers).funds price s.pageTable p ≤ s.funds price p) :
    Takes price p s s' := by
  refine .stayed rests ?_ (left_congr record p)
  have hlayers : ∀ q, s'.pageTable.layer? q = s.pageTable.layer? q := by
    intro q
    rw [layer?_eq_record, layer?_eq_record, record]
  have hcount : s'.pageTable.countAt p ≤ s.pageTable.countAt p := (left_congr record p).le
  exact (ScannerThread.funds_le price _ (k := 0) hlayers hcount).trans funds

/-- A verdict that promotes was reached with the price. -/
theorem price_le_of_classifyPage {readings : Scanner.Readings} {last : UInt64} {cnt : UInt32}
    (h : Scanner.classifyPage (.frequency freq) readings last cnt ≠ .cold) :
    freq.price ≤ cnt.toNat := by
  unfold Scanner.classifyPage at h
  split at h
  next hhot => exact price_le_of_hot hhot
  next =>
    split at h
    next hcold => exact price_le_of_not_cold (by simpa using hcold)
    next => exact (h rfl).elim

section Placed

variable {table : PageTable} {manager : ManagerThread} {move : Migration} {current : PageLayer}

/-- The store of a layer leaves the funds of a page alone that is not promoted. -/
theorem funds_placed {p : PageId} (other : move.promise current ≠ some p) :
    funds price ⟨table.store move.pageId (.setLayer move.target), manager, .placed move current, []⟩
        p = funds price ⟨table, manager, .admitted move current, []⟩ p := by
  have hcount := table.countAt_store_eq (f := .setLayer move.target) move.pageId (fun _ => rfl)
    (fun _ => rfl) p
  have hplaced := ScannerThread.funds_free (s := .placed move current) (p := p)
    (t := table.store move.pageId (.setLayer move.target)) (Option.some_ne_none p).symm other price
  have hadmitted := ScannerThread.funds_free (s := .admitted move current) (t := table) other
    (Option.some_ne_none p).symm price
  exact hplaced.trans (hcount.trans hadmitted.symm)

/-- It takes the price from one that is. -/
theorem funds_promoted {p : PageId} (promised : move.promise current = some p) :
    price + funds price
        ⟨table.store move.pageId (.setLayer move.target), manager, .placed move current, []⟩ p =
      funds price ⟨table, manager, .admitted move current, []⟩ p := by
  have hcount := table.countAt_store_eq (f := .setLayer move.target) move.pageId (fun _ => rfl)
    (fun _ => rfl) p
  have hplaced : (ScannerThread.placed move current).funds price
      (table.store move.pageId (.setLayer move.target)) p =
        max price (table.countAt p) - price := by
    have hholds : (ScannerThread.placed move current).holds
        (table.store move.pageId (.setLayer move.target)) ≠ some p := (Option.some_ne_none p).symm
    have hspent : (ScannerThread.placed move current).spent = some p := promised
    rw [ScannerThread.funds, if_neg hholds, if_pos hspent, hcount]
  have hadmitted : (ScannerThread.admitted move current).funds price table p =
      max price (table.countAt p) := by
    have hholds : (ScannerThread.admitted move current).holds table = some p := promised
    rw [ScannerThread.funds, if_pos hholds]
  show price + (ScannerThread.placed move current).funds price _ p =
    (ScannerThread.admitted move current).funds price table p
  rw [hplaced, hadmitted]
  exact Nat.add_sub_cancel' (Nat.le_max_left _ _)

/-- The levels a page has left where it goes. -/
theorem levels_placed (manager : ManagerThread)
    (hlayer : table.layer? move.pageId = some current) :
    levels ⟨table, manager, .admitted move current, []⟩ move.pageId =
        PageLayer.pmem.depth - current.depth ∧
      levels ⟨table.store move.pageId (.setLayer move.target), manager, .placed move current, []⟩
          move.pageId = PageLayer.pmem.depth - move.target.depth := by
  obtain ⟨m, hm, rfl⟩ := Option.map_eq_some_iff.mp hlayer
  have hrecord := record?_of_meta? hm
  constructor
  · unfold levels left
    rw [hrecord]
    rfl
  · unfold levels left
    rw [record?_store (f := .setLayer move.target) table move.pageId (fun _ => rfl), hrecord,
      Option.map_some, if_pos rfl]
    rfl

/-- **The store of its layer** takes a level or the price from a page. -/
theorem placed_takes (hlayer : table.layer? move.pageId = some current)
    (hchosen : move.Chosen table.serverConfig.numTiers current) :
    Takes price move.pageId ⟨table, manager, .admitted move current, []⟩
      ⟨table.store move.pageId (.setLayer move.target), manager, .placed move current, []⟩ := by
  have hplaced :
      migrates move.pageId (⟨table, manager, .admitted move current, []⟩, .scan) = true :=
    decide_eq_true rfl
  obtain ⟨hbefore, hafter⟩ := levels_placed manager hlayer
  obtain ⟨status, hot, hchosen⟩ := hchosen
  rcases Scanner.targetLayer_cases hchosen with ⟨_, hdown⟩ | ⟨_, hup⟩
  · have hpromise : move.promise current ≠ some move.pageId :=
      fun h => (Migration.promise_eq_some.mp h).1.not_gt hdown
    refine .demoted hplaced ?_ (funds_placed hpromise).le ?_
    · exact Bool.and_eq_false_iff.mpr (.inr (decide_eq_false hdown.le.not_gt))
    · have hbottom := PageLayer.depth_le move.target
      rw [hbefore, hafter]
      omega
  · refine .promoted hplaced ?_ (funds_promoted (Migration.promise_eq_some.mpr ⟨hup, rfl⟩)).le
    exact Bool.and_eq_true_iff.mpr ⟨decide_eq_true rfl, decide_eq_true hup⟩

end Placed

section Scan

variable {table : PageTable} {manager : ManagerThread} {scanner : ScannerThread}
  {readings : Scanner.Readings} {evictNow now : Nat}

/-- A nested call takes nothing. -/
theorem nested_takes {caller : Migration × PageLayer} {ring : ClockRing} {l : List Addr}
    {classification : Scanner.Classification}
    (ringed : Ringed ⟨table, manager, scanner, [caller]⟩ ring l)
    (step : Threads.scan classification evictNow now ⟨table, manager, scanner, [caller]⟩ =
      .ok (effect, s')) (p : PageId) : Takes price p ⟨table, manager, scanner, [caller]⟩ s' := by
  have hstaged : scanner.NestedStage table ring l := ringed.staged
  obtain ⟨t', scanner', _, rfl, htable⟩ := ringed.nested_frame step
  apply Takes.of_scanner
  case rests =>
    cases scanner with
    | admitted move current => exact hstaged.elim
    | _ => rfl
  case record =>
    intro q
    rcases htable with rfl | ⟨r, rfl⟩
    · rfl
    · exact record?_store_setRingNode table r none q
  case funds => exact Nat.le_refl _

/-- **The scanner's step lemma**, outside of nested calls. -/
theorem outermost_takes (stands : Stands ⟨table, manager, scanner, []⟩)
    (step : Threads.scan (Scanner.classification (.frequency freq) readings) evictNow now
      ⟨table, manager, scanner, []⟩ = .ok (effect, s')) (p : PageId) :
    Takes freq.price p ⟨table, manager, scanner, []⟩ s' := by
  have hsound : (scanner.unringed []).Sound table := stands.sound
  unfold Threads.scan at step
  cases scanner with
  | idle | advanced | readLayer | evicted | cleared | left | arrived =>
    cases step
    exact .of_scanner rfl (fun _ => rfl) (Nat.le_refl _)
  | readTime q layer time =>
    have hlayer : (table.getPageMetaData q).1 = layer := hsound
    dsimp only at step
    split at step
    next hrest =>
      cases step
      exact .of_scanner rfl (fun _ => rfl) (Nat.le_refl _)
    next target hchosen =>
      cases step
      refine .of_scanner rfl (fun _ => rfl) (ScannerThread.funds_called fun hup hq => ?_)
      obtain rfl : q = p := hq
      rw [← hlayer] at hchosen
      rcases Scanner.targetLayer_cases hchosen with ⟨_, hdown⟩ | ⟨hstatus, _⟩
      · exact (hup.not_gt hdown).elim
      · rw [countAt_eq_data]
        exact price_le_of_classifyPage hstatus
  | called move =>
    dsimp only at step
    split at step
    next hnone =>
      cases step
      exact .of_scanner rfl (fun _ => rfl)
        (ScannerThread.le_funds (s := .called move) (Option.some_ne_none p).symm _)
    next =>
      cases step
      exact .of_scanner rfl (fun _ => rfl) (Nat.le_refl _)
    next current hsome _ =>
      cases step
      exact .of_scanner rfl (fun _ => rfl) (ScannerThread.funds_taken hsome _ p).le
  | located move =>
    cases step
    exact .of_scanner rfl (record?_store_setRingNode table move.pageId none) (Nat.le_refl _)
  | exchanged move node =>
    have hlocal := stands.exchanged
    obtain ⟨ring₀, _, step⟩ := bind_eq_ok.mp step
    obtain ⟨ring', _, step⟩ := bind_eq_ok.mp step
    cases step
    exact .of_scanner rfl (fun _ => rfl) (ScannerThread.funds_taken hlocal _ p).le
  | taken move current =>
    have hrefused := ScannerThread.le_funds (s := .taken move current) (t := table)
      (Option.some_ne_none p).symm freq.price
    dsimp only at step
    split at step
    next =>
      split at step
      next =>
        split at step
        next => cases step
        next =>
          cases step
          exact .of_scanner rfl (fun _ => rfl) (Nat.le_refl _)
      next =>
        cases step
        exact .of_scanner rfl (fun _ => rfl) hrefused
    next =>
      cases step
      exact .of_scanner rfl (fun _ => rfl) (Nat.le_refl _)
  | sweeping move current =>
    obtain ⟨ring₀, _, step⟩ := bind_eq_ok.mp step
    obtain ⟨bit, _, step⟩ := bind_eq_ok.mp step
    cases bit with
    | true =>
      cases step
      exact .of_scanner rfl (fun _ => rfl) (Nat.le_refl _)
    | false =>
      cases step
      exact .of_scanner rfl (fun _ => rfl) (Nat.le_refl _)
  | referenced move current =>
    obtain ⟨ring₀, _, step⟩ := bind_eq_ok.mp step
    obtain ⟨ring', _, step⟩ := bind_eq_ok.mp step
    cases step
    exact .of_scanner rfl (fun _ => rfl) (Nat.le_refl _)
  | condemned move current =>
    obtain ⟨ring₀, _, step⟩ := bind_eq_ok.mp step
    obtain ⟨⟨victim, ring'⟩, _, step⟩ := bind_eq_ok.mp step
    cases step
    exact .of_scanner rfl (fun _ => rfl) (Nat.le_refl _)
  | admitted move current =>
    cases step
    obtain ⟨hlayer, hchosen, _⟩ := hsound
    by_cases hp : move.pageId = p
    · subst hp
      exact placed_takes hlayer hchosen
    · have hlevels : levels ⟨table.store move.pageId (.setLayer move.target), manager,
          .placed move current, []⟩ p = levels ⟨table, manager, .admitted move current, []⟩ p :=
        (table.left_store (f := .setLayer move.target) move.pageId (fun _ => rfl) p).trans
          (if_neg (Ne.symm hp))
      refine .stayed (decide_eq_false hp) ?_ hlevels
      exact (funds_placed fun h => hp (Migration.promise_eq_some.mp h).2).le
  | placed move current =>
    obtain ⟨t', henter, step⟩ := bind_eq_ok.mp step
    cases step
    exact .of_scanner rfl (record?_enterRing henter) (Nat.le_refl _)
  | entered move current =>
    cases step
    have hcount := table.countAt_store_eq (f := .stamp move.now) move.pageId (fun _ => rfl)
      (fun _ => rfl) p
    have hlayers := (sameLayers_store table move.pageId (f := .stamp move.now) fun _ => rfl).layer
    exact .stayed rfl (ScannerThread.funds_le _ (.entered move current) (k := 0) hlayers hcount.le)
      (table.left_store_eq (f := .stamp move.now) move.pageId (fun _ => rfl) (fun _ => rfl) p)
  | stamped move current =>
    cases step
    refine .stayed rfl ?_
      (table.left_store_eq (f := .clearCount) move.pageId (fun _ => rfl) (fun _ => rfl) p)
    show (table.store move.pageId .clearCount).countAt p ≤ _
    rw [countAt_store_clearCount]
    split
    next => exact Nat.zero_le _
    next hp =>
      have hother : move.promise current ≠ some p :=
        fun h => hp (Migration.promise_eq_some.mp h).2.symm
      exact ScannerThread.le_funds (s := .stamped move current) hother _

end Scan

/-- **The scanner's step lemma.** -/
theorem scan_takes {readings : Scanner.Readings} {evictNow now : Nat} (stands : Stands s)
    (step : s.scan (Scanner.classification (.frequency freq) readings) evictNow now =
      .ok (effect, s')) (p : PageId) : Takes freq.price p s s' := by
  obtain ⟨table, manager, scanner, callers⟩ := s
  rcases stands.callers with hcallers | ⟨caller, ring, l, hcallers, ringed⟩
  · obtain rfl : callers = [] := hcallers
    exact outermost_takes stands step p
  · obtain rfl : callers = [caller] := hcallers
    exact nested_takes ringed step p

/-- **The step lemma of the promotions**: each takes the price from the funds. -/
theorem Moves.pays_promotion {e : Threads × Motion} (h : Moves (.frequency freq) s e s')
    (stands : Stands s) (p : PageId) :
    freq.price * (if promotes p e then 1 else 0) + s'.funds freq.price p ≤
      s.funds freq.price p + if counts p e then 1 else 0 := by
  cases h with
  | begin visit idle found => simp [promotes, migrates, funds]
  | notFound visit idle missing => simp [promotes, migrates]
  | access step =>
    have haccess := (access_funds freq.price step p).1
    simpa [promotes, migrates] using haccess
  | scan step =>
    have hcounts : counts p (s, .scan) = false := rfl
    rw [hcounts]
    cases scan_takes stands step p with
    | stayed rests hfunds hlevels => simpa [promotes, rests] using hfunds
    | demoted moves down hfunds hlevels => simpa [down] using hfunds
    | promoted moves up hfunds => simpa [up] using hfunds

/-- What a page can pay for migrations: the price for each level it can still go down, and three of
the price for each promotion its funds allow. -/
def reserve (price : Nat) (s : Threads) (p : PageId) : Nat :=
  price * s.levels p + 3 * s.funds price p

/-- **The step lemma of the migrations**: each takes the price from the reserve. -/
theorem Moves.pays_migration {e : Threads × Motion} (h : Moves (.frequency freq) s e s')
    (stands : Stands s) (p : PageId) :
    freq.price * (if migrates p e then 1 else 0) + s'.reserve freq.price p ≤
      s.reserve freq.price p + 3 * if counts p e then 1 else 0 := by
  unfold reserve
  cases h with
  | begin visit idle found => simp [migrates, funds, levels]
  | notFound visit idle missing => simp [migrates]
  | access step =>
    obtain ⟨hfunds, hlevels⟩ := access_funds freq.price step p
    have hmigrates : migrates p (s, .access) = false := rfl
    rw [hmigrates, hlevels]
    simp only [Bool.false_eq_true, if_false, Nat.mul_zero]
    omega
  | scan step =>
    have hcounts : counts p (s, .scan) = false := rfl
    rw [hcounts]
    simp only [Bool.false_eq_true, if_false, Nat.mul_zero]
    cases scan_takes stands step p with
    | stayed rests hfunds hlevels =>
      rw [rests, hlevels]
      simp only [Bool.false_eq_true, if_false, Nat.mul_zero]
      omega
    | demoted moves down hfunds hlevels =>
      have hpaid : freq.price * (s'.levels p + 1) ≤ freq.price * s.levels p :=
        Nat.mul_le_mul_left _ hlevels
      rw [moves, if_pos rfl]
      rw [Nat.mul_succ] at hpaid
      omega
    | promoted moves up hfunds =>
      have hlevels : freq.price * s'.levels p ≤ freq.price * 2 :=
        Nat.mul_le_mul_left _ (left_le (fun m => Nat.sub_le _ _) _ p)
      rw [moves, if_pos rfl]
      omega

end Steps

/-! ## Runs -/

/-- **Accesses pay for promotions, wherever the threads cut into each other.** Under the frequency
policy, at every moment of every interleaving of the loads and stores of the manager and the
scanner, with the cache ring or without: the layers stored for a page that were faster, times the
price, come to no more than the accesses counted on it and what its count showed at the start; and
all the layers stored for it, but for two, to no more than three times that. -/
theorem promotions_are_paid {config : AcceptedConfig} {ring : Bool} {alloc : Allocation}
    {freq : FrequencyPolicyConfig} {t₀ : PageTable} {s : Threads} {es : List (Threads × Motion)}
    (start : config.start ring alloc = .ok t₀)
    (run : Trace (Moves (.frequency freq)) { pageTable := t₀ } es s) (p : PageId) :
    freq.price * es.countP (promotes p) ≤ t₀.countAt p + es.countP (counts p) ∧
      freq.price * es.countP (migrates p) ≤
        2 * freq.price + 3 * (t₀.countAt p + es.countP (counts p)) := by
  have keeps : ∀ s e s', Stands s → Moves (.frequency freq) s e s' → Stands s' := by
    intro s e s' stands hmoves
    obtain ⟨effect, hstep⟩ := hmoves.step
    exact stands.step hstep
  constructor
  · have hpaid := run.financed (f := fun s => s.funds freq.price p)
      (fun s e s' stands hmoves => ⟨keeps s e s' stands hmoves, hmoves.pays_promotion stands p⟩)
      (stands_start start)
    rw [List.sum_map_mul_left, sum_map_ite_eq_countP, sum_map_ite_eq_countP] at hpaid
    exact (Nat.le_add_right _ _).trans hpaid
  · have hpaid := run.financed (f := fun s => s.reserve freq.price p)
      (fun s e s' stands hmoves => ⟨keeps s e s' stands hmoves, hmoves.pays_migration stands p⟩)
      (stands_start start)
    rw [List.sum_map_mul_left, List.sum_map_mul_left, sum_map_ite_eq_countP,
      sum_map_ite_eq_countP] at hpaid
    have hlevels : freq.price * levels { pageTable := t₀ } p ≤ freq.price * 2 :=
      Nat.mul_le_mul_left _ (left_le (fun m => Nat.sub_le _ _) _ p)
    have hfunds : funds freq.price { pageTable := t₀ } p = t₀.countAt p := rfl
    unfold reserve at hpaid
    omega

/-- A second access is counted between the scanner's load of the count and its store of `0`. It is
lost, but the promotion was paid for by the first. -/
theorem access_lost_to_promotion : ∃ (t₀ : PageTable) (s : Threads) (es : List (Threads × Motion)),
    (smallConfig 2 1 (by decide)).start false plainAllocation = .ok t₀ ∧
    Trace (Moves (.frequency ⟨1, 0⟩)) { pageTable := t₀ } es s ∧
    es.countP (promotes 1) = 1 ∧ es.countP (counts 1) = 2 ∧ s.pageTable.countAt 1 = 0 ∧
    1 * es.countP (promotes 1) ≤ t₀.countAt 1 + es.countP (counts 1) := by
  have hrun : ∃ (t₀ : PageTable) (s : Threads) (es : List (Threads × Motion)),
      (smallConfig 2 1 (by decide)).start false plainAllocation = .ok t₀ ∧
      moves? (.frequency ⟨1, 0⟩) ⟨1, .read, 5, 0⟩
        (.call :: List.replicate 6 .access ++ List.replicate 10 .scan ++ .call ::
          List.replicate 2 .access ++ List.replicate 4 .scan ++ List.replicate 1 .access ++
          List.replicate 5 .scan) { pageTable := t₀ } = some (es, s) ∧
      es.countP (promotes 1) = 1 ∧ es.countP (counts 1) = 2 ∧ s.pageTable.countAt 1 = 0 :=
    ⟨_, _, _, rfl, rfl, rfl, rfl, rfl⟩
  obtain ⟨t₀, s, es, start, hmoves, hpromotes, hcounts, hcount⟩ := hrun
  have run := trace_of_moves? hmoves
  exact ⟨t₀, s, es, start, run, hpromotes, hcounts, hcount, (promotions_are_paid start run 1).1⟩

end Threads

end MemoryTiering
