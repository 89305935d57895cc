import MemoryTiering.Laws.PageTable.Effect
import MemoryTiering.Policy

/-!
# What timestamps and access counts mean

An access and a migration write a page's stamp in milliseconds, and its constructor in microseconds;
an access counts on from what the last migration left, and from what the allocation held when there
was none. So a page's age is its real age exactly when something has happened to it since it was
made (`age_iff`), and its count is the number of its accesses exactly when it has been migrated, or
the allocation happened to hold a zero (`access_count_iff`).
-/

set_option autoImplicit false

namespace MemoryTiering

open Pointer Transition

namespace PageTable

/-! ## The history of a page -/

/-- The clock when a call accesses a page, or completes a migration of it. -/
def Call.touch? (t : PageTable) (p : PageId) : Call → Option Nat
  | .accessPage _ now q _ => if q = p then some now else none
  | c => ((c.moves t).filter fun mv => mv.page = p).getLast?.map (·.now)

/-- The clock whenever a run accessed a page or completed a migration of it. -/
def touches (p : PageId) (es : List (PageTable × Call)) : List Nat :=
  es.filterMap fun e => e.2.touch? e.1 p

/-- The clock at the latest of a page's creation, its last access and its last completed
migration. -/
def lastTouched (alloc : Allocation) (p : PageId) (es : List (PageTable × Call)) : Nat :=
  (touches p es).getLast?.getD (alloc.now p)

/-- The run completed a migration of the page. -/
def hasMoved (p : PageId) (es : List (PageTable × Call)) : Bool :=
  es.any fun e => (e.2.moves e.1).any fun mv => mv.page = p

/-- The `accessPage` calls on a page since its creation, or since its last completed migration. -/
def accessesSince (p : PageId) (es : List (PageTable × Call)) : Nat :=
  es.foldl
    (fun accesses e =>
      if (e.2.moves e.1).any fun mv => mv.page = p then 0
      else
        match e.2 with
        | .accessPage _ _ q _ => if q = p then accesses + 1 else accesses
        | _ => accesses)
    0

/-- What the clock shows in a call. -/
def Call.readings : Call → List Nat
  | .accessPage _ now _ _ => [now]
  | .migratePage evictNow now _ _ => [evictNow, now]
  | .scanNext => []

/-- What the clock shows from the making of the first page on. -/
def readings (alloc : Allocation) (pages : Nat) (es : List (PageTable × Call)) : List Nat :=
  (List.range pages).map (fun k => alloc.now (UInt64.ofNat k)) ++ es.flatMap fun e => e.2.readings

section History

variable (p : PageId) (es : List (PageTable × Call)) (t : PageTable) (c : Call)

theorem touches_snoc : touches p (es ++ [(t, c)]) = touches p es ++ (c.touch? t p).toList := by
  unfold touches
  rw [List.filterMap_append]
  cases h : c.touch? t p with
  | none => simp [h]
  | some now => simp [h]

theorem hasMoved_snoc : hasMoved p (es ++ [(t, c)]) =
    (hasMoved p es || (c.moves t).any fun mv => mv.page = p) := by
  unfold hasMoved
  rw [List.any_append, List.any_cons, List.any_nil, Bool.or_false]

theorem accessesSince_snoc : accessesSince p (es ++ [(t, c)]) =
    if (c.moves t).any fun mv => mv.page = p then 0
    else
      match c with
      | .accessPage _ _ q _ => if q = p then accessesSince p es + 1 else accessesSince p es
      | _ => accessesSince p es := by
  unfold accessesSince
  rw [List.foldl_append]
  rfl

/-- A page is touched at a reading of the clock. -/
theorem Call.touch?_mem {now : Nat} (h : c.touch? t p = some now) : now ∈ c.readings := by
  cases c with
  | accessPage =>
    simp only [Call.touch?] at h
    split at h
    · cases h
      exact List.mem_singleton_self _
    · cases h
  | migratePage evictNow now' q target =>
    simp only [Call.touch?, Option.map_eq_some_iff] at h
    obtain ⟨mv, hlast, rfl⟩ := h
    have hmem := (List.mem_filter.mp (List.mem_of_getLast? hlast)).1
    have hown : ∀ {e n : Nat} {s : PageTable} {q : PageId} {target : PageLayer},
        s.ownMove? e n q target = some mv → mv.now = n := by
      intro e n s q target h
      unfold ownMove? at h
      split at h
      · obtain ⟨_, _, rfl⟩ := Option.map_eq_some_iff.mp h
        rfl
      · cases h
    simp only [Call.moves, List.mem_append, Option.mem_toList, Option.bind_eq_some_iff] at hmem
    rcases hmem with ⟨nested, _, hnested⟩ | hmem
    · rw [hown hnested]
      exact List.mem_cons_self
    · rw [hown hmem]
      exact List.mem_cons_of_mem _ (List.mem_singleton_self _)
  | scanNext => cases h

end History

/-! ## Records over runs -/

/-- What a run has made of every page's stamp and count. -/
structure Stamped (alloc : Allocation) (es : List (PageTable × Call)) (t : PageTable) : Prop where
  coherent : t.Coherent
  stamp : ∀ p m, t.record? p = some m → m.lastAccessTimeMs =
    if touches p es = [] then microseconds (alloc.now p)
    else milliseconds (lastTouched alloc p es)
  count : ∀ p m, t.record? p = some m → m.accessCnt =
    UInt32.ofNat (accessesSince p es) + if hasMoved p es then 0 else alloc.rawAccessCnt p

section Runs

variable {alloc : Allocation} {es : List (PageTable × Call)} {t t' : PageTable} {c : Call}

/-- A call that touches no page changes nothing. -/
theorem Stamped.still (h : Stamped alloc es t) (hcoherent : t'.Coherent)
    (records : ∀ q, t'.record? q = t.record? q) (moves : c.moves t = [])
    (access : ∀ latency now p mode, c = .accessPage latency now p mode → t.record? p = none) :
    Stamped alloc (es ++ [(t, c)]) t' := by
  have hother : ∀ q m, t.record? q = some m → touches q (es ++ [(t, c)]) = touches q es ∧
      accessesSince q (es ++ [(t, c)]) = accessesSince q es ∧
      hasMoved q (es ++ [(t, c)]) = hasMoved q es := by
    intro q m hm
    rw [touches_snoc, accessesSince_snoc, hasMoved_snoc, moves]
    cases c with
    | accessPage latency now p mode =>
      have hne : p ≠ q := by
        rintro rfl
        rw [access latency now p mode rfl] at hm
        cases hm
      simp [Call.touch?, hne]
    | migratePage => simp [Call.touch?, moves]
    | scanNext => simp [Call.touch?, moves]
  constructor
  case coherent => exact hcoherent
  case stamp =>
    intro q m hm
    rw [records] at hm
    obtain ⟨htouches, _, _⟩ := hother q m hm
    unfold lastTouched
    rw [htouches]
    exact h.stamp q m hm
  case count =>
    intro q m hm
    rw [records] at hm
    obtain ⟨_, haccesses, hmoved⟩ := hother q m hm
    rw [haccesses, hmoved]
    exact h.count q m hm

/-- An access stamps and counts. -/
theorem Stamped.access (h : Stamped alloc es t) (hcoherent : t'.Coherent)
    {latency : SizeT → OperationType → UInt64} {now : Nat} {p : PageId} {mode : OperationType}
    {m : PageMetadata} (found : t.record? p = some m)
    (records : ∀ q, t'.record? q = if q = p then some (m.accessed now) else t.record? q) :
    Stamped alloc (es ++ [(t, .accessPage latency now p mode)]) t' := by
  constructor
  case coherent => exact hcoherent
  case stamp =>
    intro q m' hm'
    unfold lastTouched
    rw [records] at hm'
    rw [touches_snoc]
    by_cases hq : q = p
    · rw [if_pos hq] at hm'
      cases hm'
      simp [Call.touch?, hq, PageMetadata.accessed]
    · rw [if_neg hq] at hm'
      have hstamp := h.stamp q m' hm'
      unfold lastTouched at hstamp
      simpa [Call.touch?, Ne.symm hq] using hstamp
  case count =>
    intro q m' hm'
    rw [records] at hm'
    rw [accessesSince_snoc, hasMoved_snoc]
    by_cases hq : q = p
    · rw [if_pos hq] at hm'
      cases hm'
      have hcount := h.count p m found
      simp only [Call.moves, List.any_nil, Bool.or_false, Bool.false_eq_true, if_false, hq,
        if_true, PageMetadata.accessed, UInt32.ofNat_add, hcount]
      exact add_right_comm ..
    · rw [if_neg hq] at hm'
      have hcount := h.count q m' hm'
      simpa [Call.moves, Ne.symm hq] using hcount

/-- A migration stamps and resets. -/
theorem Stamped.move (h : Stamped alloc es t) (hcoherent : t'.Coherent) {evictNow now : Nat}
    {p : PageId} {target : PageLayer} {m : PageMetadata}
    (records : ∀ q, t'.record? q = if q = p then some (m.moved target now) else t.record? q)
    (moves : (Call.migratePage evictNow now p target).moves t =
      [⟨p, m.pageLayer, target, now⟩]) :
    Stamped alloc (es ++ [(t, .migratePage evictNow now p target)]) t' := by
  constructor
  case coherent => exact hcoherent
  case stamp =>
    intro q m' hm'
    unfold lastTouched
    rw [records] at hm'
    have htouch : (Call.migratePage evictNow now p target).touch? t q =
        if p = q then some now else none := by
      show ((Call.moves t (.migratePage evictNow now p target)).filter _).getLast?.map _ = _
      rw [moves, List.filter_singleton]
      by_cases hq : p = q
      · simp [hq]
      · simp [hq]
    rw [touches_snoc, htouch]
    by_cases hq : q = p
    · rw [if_pos hq] at hm'
      cases hm'
      simp [hq, PageMetadata.moved]
    · rw [if_neg hq] at hm'
      have hstamp := h.stamp q m' hm'
      unfold lastTouched at hstamp
      simpa [Ne.symm hq] using hstamp
  case count =>
    intro q m' hm'
    rw [records] at hm'
    rw [accessesSince_snoc, hasMoved_snoc, moves]
    by_cases hq : q = p
    · rw [if_pos hq] at hm'
      cases hm'
      simp [hq, PageMetadata.moved]
    · rw [if_neg hq] at hm'
      have hcount := h.count q m' hm'
      simpa [Ne.symm hq] using hcount

/-- **The step lemma.** -/
theorem Stamped.step (h : Stamped alloc es t) (call : c.apply t = .ok t') :
    Stamped alloc (es ++ [(t, c)]) t' := by
  obtain ⟨hcoherent, _⟩ := h.coherent.call call
  cases h.coherent.effect call with
  | absent missing =>
    refine h.still hcoherent (fun _ => rfl) rfl ?_
    intro latency now p mode hcall
    cases hcall
    exact missing
  | accessed found records => exact h.access hcoherent found records
  | stayed records _ _ moves => exact h.still hcoherent records moves nofun
  | moved _ records _ _ _ moves => exact h.move hcoherent records moves
  | scanned => exact h.still hcoherent (fun _ => rfl) rfl nofun

/-- A page as it is made. -/
theorem Laid.stamped {clients : List ClientConfig} {numTiers : Nat}
    (h : Laid clients numTiers alloc t) (hcoherent : t.Coherent) : Stamped alloc [] t := by
  have hmade : ∀ p m, t.record? p = some m → m.lastAccessTimeMs = microseconds (alloc.now p) ∧
      m.accessCnt = alloc.rawAccessCnt p := by
    intro p m hm
    rw [record?_eq_slot, h.entry, Allocation.entry, Option.map_map] at hm
    obtain ⟨layer, _, rfl⟩ := Option.map_eq_some_iff.mp hm
    exact ⟨rfl, rfl⟩
  constructor
  case coherent => exact hcoherent
  case stamp => exact fun p m hm => (hmade p m hm).1
  case count =>
    intro p m hm
    rw [(hmade p m hm).2]
    exact (UInt32.zero_add _).symm

/-- **The run lemma.** -/
theorem Stamped.run {t₀ : PageTable} (h : Stamped alloc [] t₀) (run : Trace Step t₀ es t) :
    Stamped alloc es t := by
  have hrun := run.invariant_with (P := Stamped alloc) ?_ h
  · exact hrun
  · rintro es s ⟨s₀, c⟩ s' h ⟨rfl, call⟩
    exact h.step call

end Runs

/-! ## Counts -/

section Counts

variable {clients : List ClientConfig} {server : ServerMemoryConfig} {ring : Bool}
  {alloc : Allocation} {t₀ t : PageTable} {es : List (PageTable × Call)} {p : PageId}
  {m : PageMetadata}

/-- What every run from the start reaches. -/
theorem stamped (tiers : server.numTiers = 2 ∨ server.numTiers = 3)
    (empty : ∀ layer, (server.layer layer).count = 0)
    (start : (new clients server ring).initPageTable alloc = .ok t₀)
    (run : Trace Step t₀ es t) : Stamped alloc es t :=
  ((initPageTable_layout tiers empty start).stamped
    (initPageTable_spec tiers empty start).coherent).run run

/-- **A page's access count is the number of its accesses** since its creation or its last
migration, modulo `2 ^ 32`, exactly when it has been migrated, or the allocation held a zero. -/
theorem access_count_iff (tiers : server.numTiers = 2 ∨ server.numTiers = 3)
    (empty : ∀ layer, (server.layer layer).count = 0)
    (start : (new clients server ring).initPageTable alloc = .ok t₀)
    (run : Trace Step t₀ es t) (found : t.meta? p = some m) :
    m.accessCnt = UInt32.ofNat (accessesSince p es) ↔
      hasMoved p es = true ∨ alloc.rawAccessCnt p = 0 := by
  have hcount : m.accessCnt = _ :=
    (stamped tiers empty start run).count p (m.setRingNode none) (record?_of_meta? found)
  rw [hcount, add_eq_left]
  cases hasMoved p es <;> simp

/-- Bytes that were there before: a page no one has accessed has a count of seven. -/
theorem stale_access_count : ∃ (t₀ : PageTable) (m : PageMetadata),
    (smallConfig 1 1 (by decide)).start false ⟨fun _ => 0, fun _ => 0, fun _ => 7⟩ = .ok t₀ ∧
    t₀.meta? 0 = some m ∧ accessesSince 0 ([] : List (PageTable × Call)) = 0 ∧
    m.accessCnt ≠ UInt32.ofNat (accessesSince 0 ([] : List (PageTable × Call))) :=
  ⟨_, _, rfl, rfl, rfl, by decide⟩

/-- A migration, and an access after it. -/
theorem access_count_after_migration : ∃ (t₀ t₁ t : PageTable) (m : PageMetadata),
    (smallConfig 1 1 (by decide)).start false ⟨fun _ => 0, fun _ => 0, fun _ => 7⟩ = .ok t₀ ∧
    t.meta? 1 = some m ∧
    m.accessCnt = UInt32.ofNat (accessesSince 1
      [(t₀, .migratePage 0 0 1 .pmem), (t₁, .accessPage (fun _ _ => 0) 0 1 .read)]) := by
  have hrun : ∃ (t₀ t₁ t : PageTable) (m : PageMetadata),
      (smallConfig 1 1 (by decide)).start false ⟨fun _ => 0, fun _ => 0, fun _ => 7⟩ = .ok t₀ ∧
      Trace Step t₀
        [(t₀, .migratePage 0 0 1 .pmem), (t₁, .accessPage (fun _ _ => 0) 0 1 .read)] t ∧
      t.meta? 1 = some m ∧
      hasMoved 1
        [(t₀, .migratePage 0 0 1 .pmem), (t₁, .accessPage (fun _ _ => 0) 0 1 .read)] = true :=
    ⟨_, _, _, _, rfl, .cons ⟨rfl, rfl⟩ (Trace.single.mpr ⟨rfl, rfl⟩), rfl, rfl⟩
  obtain ⟨t₀, t₁, t, m, start, run, found, hmoved⟩ := hrun
  have hcount := access_count_iff (.inr rfl) (smallConfig 1 1 (by decide)).server_eq.2 start run
    found
  exact ⟨t₀, t₁, t, m, start, found, hcount.mpr (.inl hmoved)⟩

end Counts

/-! ## Ages -/

section Ages

variable {clients : List ClientConfig} {server : ServerMemoryConfig} {ring : Bool}
  {alloc : Allocation} {t₀ t : PageTable} {es : List (PageTable × Call)} {p : PageId}
  {m : PageMetadata} {now : Nat}

/-- Under a clock that never goes back, no page was touched after now. -/
theorem lastTouched_le (made : p.toNat < t₀.table.size)
    (steady : (readings alloc t₀.table.size es ++ [now]).Pairwise (· ≤ ·)) :
    lastTouched alloc p es ≤ now := by
  have hle : ∀ r ∈ readings alloc t₀.table.size es, r ≤ now := by
    intro r hr
    exact (List.pairwise_append.mp steady).2.2 r hr now (List.mem_singleton_self now)
  apply hle
  unfold readings lastTouched
  cases hlast : (touches p es).getLast? with
  | none =>
    apply List.mem_append_left
    rw [Option.getD_none, List.mem_map]
    exact ⟨p.toNat, List.mem_range.mpr made, by rw [UInt64.ofNat_toNat]⟩
  | some r =>
    apply List.mem_append_right
    obtain ⟨e, he, htouch⟩ := List.mem_filterMap.mp (List.mem_of_getLast? hlast)
    exact List.mem_flatMap.mpr ⟨e, he, e.2.touch?_mem p e.1 htouch⟩

theorem toNat_milliseconds {now : Nat} (h : now < 2 ^ 63) :
    (milliseconds now).toNat = now / 1000000 :=
  SizeT.toNat_ofNat (by omega)

theorem toNat_microseconds {now : Nat} (h : now < 2 ^ 63) :
    (microseconds now).toNat = now / 1000 :=
  SizeT.toNat_ofNat (by omega)

/-- A stamp in milliseconds makes the difference an age. -/
theorem age_of_stamp {last now : Nat} (h : last ≤ now) (bounded : now < 2 ^ 63) :
    milliseconds last ≤ milliseconds now ∧
      (milliseconds last).toNat + (Scanner.timeSinceLastAccess now (milliseconds last)).toNat =
        (milliseconds now).toNat := by
  have hle : milliseconds last ≤ milliseconds now := by
    rw [UInt64.le_iff_toNat_le, toNat_milliseconds (by omega), toNat_milliseconds bounded]
    exact Nat.div_le_div_right h
  refine ⟨hle, ?_⟩
  rw [Scanner.timeSinceLastAccess, UInt64.toNat_sub_of_le _ _ hle]
  rw [UInt64.le_iff_toNat_le] at hle
  omega

/-- **A page's age is its real age**, to every classification after every run, exactly when it has
been accessed or migrated since it was made, or was made in the clock's first microsecond. The
clock never goes back, and counts nanoseconds in 63 bits. -/
theorem age_iff (tiers : server.numTiers = 2 ∨ server.numTiers = 3)
    (empty : ∀ layer, (server.layer layer).count = 0)
    (start : (new clients server ring).initPageTable alloc = .ok t₀)
    (run : Trace Step t₀ es t) (found : t.meta? p = some m)
    (steady : (readings alloc t₀.table.size es ++ [now]).Pairwise (· ≤ ·))
    (bounded : now < 2 ^ 63) :
    (m.lastAccessTimeMs ≤ milliseconds now ∧
        (milliseconds (lastTouched alloc p es)).toNat +
            (Scanner.timeSinceLastAccess now m.lastAccessTimeMs).toNat =
          (milliseconds now).toNat) ↔
      touches p es ≠ [] ∨ alloc.now p < 1000 := by
  have hstamp : m.lastAccessTimeMs = _ :=
    (stamped tiers empty start run).stamp p (m.setRingNode none) (record?_of_meta? found)
  have hinit := initPageTable_spec tiers empty start
  have made : p.toNat < t₀.table.size := by
    rw [← hinit.numbered.pages, ← (hinit.coherent.run run).2, found]
    rfl
  have hlast := lastTouched_le made steady
  by_cases htouched : touches p es = []
  · have hmade : lastTouched alloc p es = alloc.now p := by rw [lastTouched, htouched]; rfl
    rw [hmade] at hlast ⊢
    rw [if_pos htouched] at hstamp
    have hms : (milliseconds (alloc.now p)).toNat = _ := toNat_milliseconds (by omega)
    have hus : (microseconds (alloc.now p)).toNat = _ := toNat_microseconds (by omega)
    constructor
    · rintro ⟨hle, hage⟩
      right
      rw [hstamp] at hle hage
      rw [Scanner.timeSinceLastAccess, UInt64.toNat_sub_of_le _ _ hle] at hage
      rw [UInt64.le_iff_toNat_le] at hle
      omega
    · intro hcond
      have hfirst : alloc.now p < 1000 := hcond.resolve_left (not_not.mpr htouched)
      have hsame : microseconds (alloc.now p) = milliseconds (alloc.now p) := by
        rw [← UInt64.toNat_inj]
        omega
      rw [hstamp, hsame]
      exact age_of_stamp hlast bounded
  · rw [if_neg htouched] at hstamp
    rw [hstamp]
    exact iff_of_true (age_of_stamp hlast bounded) (.inl htouched)

/-- Memory mapped at zero, and a clock that shows one second while the pages are made. -/
def secondAllocation : Allocation := ⟨fun _ => 0, fun _ => 1000000000, fun _ => 0⟩

/-- A page made at one second has a stamp of a million, and at two seconds the difference wraps. -/
theorem new_page_age_wraps : ∃ (t₀ : PageTable) (m : PageMetadata),
    (smallConfig 1 1 (by decide)).start false secondAllocation = .ok t₀ ∧ t₀.meta? 0 = some m ∧
    (readings secondAllocation t₀.table.size [] ++ [2000000000]).Pairwise (· ≤ ·) ∧
    milliseconds 2000000000 < m.lastAccessTimeMs ∧
    (milliseconds (lastTouched secondAllocation 0 [])).toNat +
        (Scanner.timeSinceLastAccess 2000000000 m.lastAccessTimeMs).toNat ≠
      (milliseconds 2000000000).toNat :=
  ⟨_, _, rfl, rfl, by decide, by decide, by decide⟩

/-- The same page after an access. -/
theorem age_after_access : ∃ (t₀ t : PageTable) (m : PageMetadata),
    (smallConfig 1 1 (by decide)).start false secondAllocation = .ok t₀ ∧ t.meta? 0 = some m ∧
    m.lastAccessTimeMs ≤ milliseconds 2000000000 ∧
    (milliseconds (lastTouched secondAllocation 0
        [(t₀, .accessPage (fun _ _ => 0) 1500000000 0 .read)])).toNat +
        (Scanner.timeSinceLastAccess 2000000000 m.lastAccessTimeMs).toNat =
      (milliseconds 2000000000).toNat := by
  have hrun : ∃ (t₀ t : PageTable) (m : PageMetadata),
      (smallConfig 1 1 (by decide)).start false secondAllocation = .ok t₀ ∧
      Trace Step t₀ [(t₀, .accessPage (fun _ _ => 0) 1500000000 0 .read)] t ∧
      t.meta? 0 = some m ∧
      (readings secondAllocation t₀.table.size
          [(t₀, .accessPage (fun _ _ => 0) 1500000000 0 .read)] ++ [2000000000]).Pairwise (· ≤ ·) ∧
      touches 0 [(t₀, .accessPage (fun _ _ => 0) 1500000000 0 .read)] ≠ [] :=
    ⟨_, _, _, rfl, Trace.single.mpr ⟨rfl, rfl⟩, rfl, by decide, by decide⟩
  obtain ⟨t₀, t, m, start, run, found, steady, htouched⟩ := hrun
  have hage := age_iff (.inr rfl) (smallConfig 1 1 (by decide)).server_eq.2 start run found steady
    (by decide : 2000000000 < 2 ^ 63)
  exact ⟨t₀, t, m, start, found, hage.mpr (.inl htouched)⟩

end Ages

end PageTable

end MemoryTiering
