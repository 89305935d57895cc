import MemoryTiering.Laws.PageTable.Conservation
import MemoryTiering.Laws.Machine.Placement

/-!
# Pages and their records

A migration asks the kernel to move the page, and then writes the record, both counters and a
metric, whatever the kernel reports about the page. On the table it is the table's own migration
(`migratePage_refines`). Records, counters and metrics tell where the pages are, over a run from a
state where they do, exactly when no call of the run fails silently (`moves_truthful_iff`).
-/

set_option autoImplicit false

namespace MemoryTiering

open Fallible Pointer Transition

namespace Machine

/-! ## The table's part -/

section Refinement

variable {m m' : Machine} {p : PageId} {target : PageLayer} {exit : PageTable.Exit}
  {migrate : Machine → PageId → PageLayer → Except Stop (PageTable.Exit × Machine)}
  {migrateTable : PageTable → PageId → PageLayer → Except Fault (PageTable.Exit × PageTable)}

theorem orFault_eq_ok {α : Type} {x : Except Fault α} {a : α} :
    orFault x = .ok a ↔ x = .ok a := by
  cases x with
  | error fault => exact ⟨nofun, nofun⟩
  | ok b =>
    constructor <;>
      · rintro ⟨⟩
        rfl

/-- What the first function completes on a machine, the second completes on its table. -/
def Projects (migrate : Machine → PageId → PageLayer → Except Stop (PageTable.Exit × Machine))
    (migrateTable : PageTable → PageId → PageLayer → Except Fault (PageTable.Exit × PageTable)) :
    Prop :=
  ∀ m p target exit m', migrate m p target = .ok (exit, m') →
    migrateTable m.pageTable p target = .ok (exit, m'.pageTable)

theorem Projects.evict (h : Projects migrate migrateTable) {ring : ClockRing}
    (call : m.evict migrate ring = .ok m') :
    m.pageTable.evict migrateTable ring = .ok m'.pageTable := by
  obtain ⟨c, hcandidate, call⟩ := bind_eq_ok.mp call
  obtain ⟨⟨exit, m₁⟩, hmigrate, call⟩ := bind_eq_ok.mp call
  cases call
  refine bind_eq_ok.mpr ⟨c, orFault_eq_ok.mp hcandidate, ?_⟩
  exact bind_eq_ok.mpr ⟨(exit, m₁.pageTable), h _ _ _ _ _ hmigrate, rfl⟩

theorem checkCapacity_plain (m : Machine)
    (h : m.pageTable.localCacheRing = none ∨ target ≠ .numaLocal) :
    m.checkCapacity migrate target =
      .ok (if (m.pageTable.serverConfig.layer target).isFull then none else some m) := by
  unfold Machine.checkCapacity
  split
  next hring =>
    rcases h with h | h
    · rw [h] at hring
      cases hring
    · exact (h rfl).elim
  next => split <;> rfl

theorem checkCapacity_promotion {ring : ClockRing}
    (hring : m.pageTable.localCacheRing = some ring) :
    m.checkCapacity migrate .numaLocal =
      if m.pageTable.serverConfig.localNuma.isFull then
        m.evict migrate ring >>= fun m => .ok (some m)
      else .ok (some m) := by
  unfold Machine.checkCapacity
  rw [hring]
  rfl

theorem Projects.checkCapacity (h : Projects migrate migrateTable) {answer : Option Machine}
    (call : m.checkCapacity migrate target = .ok answer) :
    m.pageTable.checkCapacity migrateTable target = .ok (answer.map (·.pageTable)) := by
  by_cases hplain : m.pageTable.localCacheRing = none ∨ target ≠ .numaLocal
  · rw [checkCapacity_plain m hplain] at call
    rw [PageTable.checkCapacity_plain _ _ hplain, ← Except.ok.inj call]
    split <;> rfl
  · obtain ⟨hring, htarget⟩ := not_or.mp hplain
    obtain ⟨ring, hring⟩ := Option.ne_none_iff_exists'.mp hring
    obtain rfl := not_not.mp htarget
    rw [checkCapacity_promotion hring] at call
    rw [PageTable.checkCapacity_promotion hring]
    split at call
    next hfull =>
      obtain ⟨m₁, hevict, call⟩ := bind_eq_ok.mp call
      cases call
      rw [if_pos hfull]
      exact bind_eq_ok.mpr ⟨m₁.pageTable, h.evict hevict, rfl⟩
    next hroom =>
      cases call
      rw [if_neg hroom]
      rfl

/-- **Every call that returns** took one of three ways out. -/
theorem migrateBody_cases {report : MoveReport} {now : Nat}
    (call : migrateBody migrate report now m p target = .ok (exit, m')) :
    (m.pageTable.table.lookup p = none ∧ exit = .notFound ∧ m' = m) ∨
      ∃ e t₁, m.pageTable.table.lookup p = some e ∧
        m.pageTable.takeFromRing ClockRing.remove p e.metadata = .ok t₁ ∧
        ((Machine.checkCapacity migrate { m with pageTable := t₁ } target = .ok none ∧
            exit = .targetFull ∧ m' = { m with pageTable := t₁ }) ∨
          ∃ m₂, Machine.checkCapacity migrate { m with pageTable := t₁ } target = .ok (some m₂) ∧
            exit = .moved ∧ m₂.memory.migratePage e.pageAddress target report = .ok m'.memory ∧
            m₂.pageTable.finishMove now p e.metadata.pageLayer target = .ok m'.pageTable) := by
  unfold migrateBody at call
  cases he : m.pageTable.table.lookup p with
  | none =>
    rw [he] at call
    cases call
    exact .inl ⟨rfl, rfl, rfl⟩
  | some e =>
    rw [he] at call
    obtain ⟨t₁, htake, call⟩ := bind_eq_ok.mp call
    obtain ⟨room, hcheck, call⟩ := bind_eq_ok.mp call
    right
    refine ⟨e, t₁, rfl, orFault_eq_ok.mp htake, ?_⟩
    cases room with
    | none =>
      cases call
      exact .inl ⟨hcheck, rfl, rfl⟩
    | some m₂ =>
      obtain ⟨memory, hmove, call⟩ := bind_eq_ok.mp call
      obtain ⟨t', hfinish, call⟩ := bind_eq_ok.mp call
      cases call
      exact .inr ⟨m₂, hcheck, rfl, hmove, orFault_eq_ok.mp hfinish⟩

theorem Projects.migrateBody (h : Projects migrate migrateTable) (report : MoveReport) (now : Nat) :
    Projects (migrateBody migrate report now)
      (PageTable.migrateBody ClockRing.remove migrateTable now) := by
  intro m p target exit m' call
  rcases migrateBody_cases call with ⟨he, rfl, rfl⟩ | ⟨e, t₁, he, htake, hrest⟩
  · exact PageTable.migrateBody_notFound (by rw [PageTable.meta?, he, Option.map_none])
  · have hm : m.pageTable.meta? p = some e.metadata := by
      rw [PageTable.meta?, he, Option.map_some]
    rw [PageTable.migrateBody_found hm]
    refine bind_eq_ok.mpr ⟨t₁, htake, ?_⟩
    rcases hrest with ⟨hcheck, rfl, rfl⟩ | ⟨m₂, hcheck, rfl, _, hfinish⟩
    · exact bind_eq_ok.mpr ⟨none, h.checkCapacity hcheck, rfl⟩
    · refine bind_eq_ok.mpr ⟨some m₂.pageTable, h.checkCapacity hcheck, ?_⟩
      exact bind_eq_ok.mpr ⟨m'.pageTable, hfinish, rfl⟩

/-- **A call of the machine is a call of its table**, with a ring or without. -/
theorem migratePage_refines {inputs : MoveInputs}
    (call : m.migratePage inputs p target = .ok (exit, m')) :
    m.pageTable.migratePage inputs.evictNow inputs.now p target = .ok (exit, m'.pageTable) := by
  have hstop : Projects (fun _ _ _ => .error (.fault .outOfFuel))
      fun _ _ _ => .error .outOfFuel := by
    rintro m p target exit m' ⟨⟩
  exact (hstop.migrateBody _ _).migrateBody _ _ _ _ _ _ _ call

end Refinement

/-! ## Records that tell where the pages are -/

/-- How many pages of the table reside on a layer's node. -/
def residents (m : Machine) (layer : PageLayer) : Nat :=
  m.pageTable.table.census fun e => m.memory.node (pageNumber e.pageAddress) = some layer.node

/-- The records tell where the pages are, and the counters how many are where. -/
structure Truthful (m : Machine) : Prop where
  placed : m.Placed
  counted : ∀ layer, (m.pageTable.serverConfig.layer layer).count.toNat = m.residents layer

/-- A call of `migratePage`, with what it reads from outside. -/
structure MoveCall where
  inputs : MoveInputs
  pageIndex : PageId
  target : PageLayer
  deriving DecidableEq

def MoveCall.apply (m : Machine) (c : MoveCall) : Except Stop (PageTable.Exit × Machine) :=
  m.migratePage c.inputs c.pageIndex c.target

/-- One call that returns. -/
structure Step (m : Machine) (e : Machine × MoveCall) (m' : Machine) : Prop where
  before : e.1 = m
  call : ∃ exit, e.2.apply m = .ok (exit, m')

/-- The kernel is asked to move a page to another tier, and reports that the page has not moved. -/
def MoveCall.failsSilently (m : Machine) (c : MoveCall) : Bool :=
  match m.pageTable.layer? c.pageIndex with
  | none => false
  | some current =>
    c.inputs.report = .error ∧ current ≠ c.target ∧
      (m.pageTable.serverConfig.layer c.target).isFull = false

/-- How many pages of the table go from one tier's node to another's. -/
def carried (m m' : Machine) (current target : PageLayer) : Nat :=
  m.pageTable.table.census fun e =>
    m.memory.node (pageNumber e.pageAddress) = some current.node ∧
      m'.memory.node (pageNumber e.pageAddress) = some target.node

/-- How many pages a call carries. -/
def MoveCall.carries (m : Machine) (c : MoveCall) (current target : PageLayer) : Nat :=
  match c.apply m with
  | .ok (_, m') => m.carried m' current target
  | .error _ => 0

/-- The metrics count the pages that a run carried. -/
def Metered (m₀ : Machine) (es : List (Machine × MoveCall)) (m : Machine) : Prop :=
  ∀ current target, current ≠ target →
    m.pageTable.metrics.migrations current target =
      m₀.pageTable.metrics.migrations current target +
        UInt64.ofNat (es.map fun e => e.2.carries e.1 current target).sum

section Records

variable {m m' : Machine}

/-- Where the records are right, the census of pages is the census of records. -/
theorem Placed.residents_eq (h : m.Placed) (layer : PageLayer) :
    m.residents layer = m.pageTable.population layer := by
  unfold residents PageTable.population PageTable.census
  apply Table.census_congr
  intro p e he
  rw [decide_eq_decide, h p e he, Option.some.injEq, PageLayer.node_injective.eq_iff]

theorem truthful_iff : m.Truthful ↔ m.Placed ∧ m.pageTable.Tallied := by
  constructor
  · intro h
    refine ⟨h.placed, ?_⟩
    intro layer
    rw [h.counted, h.placed.residents_eq]
  · rintro ⟨placed, tallied⟩
    refine ⟨placed, ?_⟩
    intro layer
    rw [tallied, placed.residents_eq]

end Records

/-! ## One call -/

section Calls

variable {m m' : Machine} {p : PageId} {target : PageLayer} {exit : PageTable.Exit}
  {inputs : MoveInputs}

/-- Without a ring, a call changes nothing or completes the move of its page. -/
theorem migratePage_ringless (hring : m.pageTable.localCacheRing = none)
    (call : m.migratePage inputs p target = .ok (exit, m')) :
    (m' = m ∧ (m.pageTable.table.lookup p = none ∨
        (m.pageTable.serverConfig.layer target).isFull = true)) ∨
      ∃ e, m.pageTable.table.lookup p = some e ∧
      (m.pageTable.serverConfig.layer target).isFull = false ∧
      m.memory.migratePage e.pageAddress target inputs.report = .ok m'.memory ∧
      m'.pageTable = { m.pageTable.store p (.moved target inputs.now) with
        serverConfig := m.pageTable.serverConfig.recount e.metadata.pageLayer target
        metrics := m.pageTable.metrics.incrementMigration e.metadata.pageLayer target } := by
  rcases migrateBody_cases call with ⟨he, _, rfl⟩ | ⟨e, t₁, he, htake, hrest⟩
  · exact .inl ⟨rfl, .inl he⟩
  · rw [PageTable.takeFromRing_skip _ _ _ (.inl hring)] at htake
    cases htake
    rw [checkCapacity_plain _ (.inl hring)] at hrest
    cases hfull : (m.pageTable.serverConfig.layer target).isFull with
    | true =>
      rcases hrest with ⟨_, _, rfl⟩ | ⟨m₂, hcheck, _⟩
      · exact .inl ⟨rfl, .inr rfl⟩
      · rw [if_pos hfull] at hcheck
        cases hcheck
    | false =>
      rcases hrest with ⟨hcheck, _⟩ | ⟨m₂, hcheck, _, hmove, hfinish⟩
      · rw [if_neg (Bool.eq_false_iff.mp hfull)] at hcheck
        cases hcheck
      · rw [if_neg (Bool.eq_false_iff.mp hfull)] at hcheck
        cases hcheck
        rw [PageTable.finishMove_skip _ _ _ _ (.inl hring)] at hfinish
        exact .inr ⟨e, he, rfl, hmove, (Except.ok.inj hfinish).symm⟩

/-- What the kernel's report says of the page, when the process does not exit. -/
theorem node_migratePage {memory memory' : Memory} {addr : SizeT} {report : MoveReport}
    (h : memory.migratePage addr target report = .ok memory') :
    (report = .placed ∧ ∀ page, memory'.node page =
        if page = pageNumber addr then some target.node else memory.node page) ∨
      (report = .error ∧ memory' = memory) := by
  cases report with
  | failed => cases h
  | placed =>
    cases h
    exact .inl ⟨rfl, fun _ => rfl⟩
  | error =>
    cases h
    exact .inr ⟨rfl, rfl⟩

/-- A completed move, when the page went along: records and pages, but for this one, are the
same. -/
structure Relocated (m m' : Machine) (p : PageId) (e : PageTableEntry) (target : PageLayer)
    (now : Nat) : Prop where
  found : m.pageTable.table.lookup p = some e
  entries : ∀ q, m'.pageTable.table.lookup q = (m.pageTable.table.lookup q).map fun f =>
    if q = p then { f with metadata := f.metadata.moved target now } else f
  node : ∀ page, m'.memory.node page =
    if page = pageNumber e.pageAddress then some target.node else m.memory.node page
  metrics : m'.pageTable.metrics =
    m.pageTable.metrics.incrementMigration e.metadata.pageLayer target

section Relocated

variable {e : PageTableEntry} {now : Nat}

/-- The other entries are the same, and lie in other pages of memory. -/
theorem Relocated.other (h : Relocated m m' p e target now) (apart : m.Apart) {q : PageId}
    {f : PageTableEntry} (hf : m.pageTable.table.lookup q = some f) (hne : q ≠ p) :
    m'.pageTable.table.lookup q = some f ∧
      m'.memory.node (pageNumber f.pageAddress) = m.memory.node (pageNumber f.pageAddress) := by
  constructor
  · rw [h.entries, hf, Option.map_some, if_neg hne]
  · rw [h.node, if_neg]
    intro hsame
    exact hne (apart q p f e hf h.found hsame)

theorem Relocated.self (h : Relocated m m' p e target now) :
    m'.pageTable.table.lookup p = some { e with metadata := e.metadata.moved target now } ∧
      m'.memory.node (pageNumber e.pageAddress) = some target.node := by
  constructor
  · rw [h.entries, h.found, Option.map_some, if_pos rfl]
  · rw [h.node, if_pos rfl]

/-- No move changes an address. -/
theorem Relocated.apart (h : Relocated m m' p e target now) (apart : m.Apart) : m'.Apart := by
  intro q r f g hf hg hsame
  rw [h.entries] at hf hg
  obtain ⟨f₀, hf₀, rfl⟩ := Option.map_eq_some_iff.mp hf
  obtain ⟨g₀, hg₀, rfl⟩ := Option.map_eq_some_iff.mp hg
  apply apart q r f₀ g₀ hf₀ hg₀
  split at hsame <;> split at hsame <;> exact hsame

theorem Relocated.placed (h : Relocated m m' p e target now) (apart : m.Apart)
    (placed : m.Placed) : m'.Placed := by
  intro q f hf
  by_cases hq : q = p
  · subst hq
    rw [h.self.1] at hf
    cases hf
    exact h.self.2
  · have hf₀ : m.pageTable.table.lookup q = some f := by
      rw [h.entries] at hf
      obtain ⟨f₀, hf₀, rfl⟩ := Option.map_eq_some_iff.mp hf
      rw [if_neg hq]
      exact hf₀
    rw [(h.other apart hf₀ hq).2]
    exact placed q f hf₀

/-- One page is carried. -/
theorem Relocated.carried (h : Relocated m m' p e target now) (apart : m.Apart)
    (placed : m.Placed) {l l' : PageLayer} (hne : l ≠ l') :
    m.carried m' l l' = if e.metadata.pageLayer = l ∧ target = l' then 1 else 0 := by
  unfold Machine.carried
  rw [Table.census_eq_of_unique h.found]
  · simp only [placed p e h.found, h.self.2, Option.some.injEq, PageLayer.node_injective.eq_iff,
      decide_eq_true_eq]
  · intro q f hf hq
    rw [decide_eq_false_iff_not, (h.other apart hf hq).2]
    rintro ⟨hbefore, hafter⟩
    rw [hbefore, Option.some.injEq] at hafter
    exact hne (PageLayer.node_injective hafter)

end Relocated

/-- Where nothing changed, nothing was carried. -/
theorem carried_self (m : Machine) {l l' : PageLayer} (hne : l ≠ l') : m.carried m l l' = 0 := by
  unfold carried
  rw [Table.census, List.countP_eq_zero]
  intro f _
  rw [decide_eq_true_eq]
  rintro ⟨hbefore, hafter⟩
  rw [hbefore, Option.some.injEq] at hafter
  exact hne (PageLayer.node_injective hafter)

/-- A page's record, read off its entry. -/
theorem layer?_of_lookup {t : PageTable} {e : PageTableEntry} (he : t.table.lookup p = some e) :
    t.layer? p = some e.metadata.pageLayer := by
  unfold PageTable.layer? PageTable.meta?
  rw [he]
  rfl

/-- A silent failure asks for a move between tiers that has room. -/
theorem failsSilently_iff {c : MoveCall} {e : PageTableEntry}
    (he : m.pageTable.table.lookup c.pageIndex = some e) :
    c.failsSilently m = true ↔ c.inputs.report = .error ∧ e.metadata.pageLayer ≠ c.target ∧
      (m.pageTable.serverConfig.layer c.target).isFull = false := by
  unfold MoveCall.failsSilently
  rw [layer?_of_lookup he]
  exact decide_eq_true_iff

/-- **A call that does not fail silently** changes nothing, or takes its page along: a page that the
kernel did not move was where it should go. -/
theorem relocated_of_call {c : MoveCall} (placed : m.Placed)
    (hring : m.pageTable.localCacheRing = none) (call : c.apply m = .ok (exit, m'))
    (loud : c.failsSilently m = false) :
    m' = m ∨ ∃ e, Relocated m m' c.pageIndex e c.target c.inputs.now := by
  rcases migratePage_ringless hring call with ⟨hsame, _⟩ | ⟨e, he, room, hmemory, htable⟩
  · exact .inl hsame
  · refine .inr ⟨e, ?_⟩
    constructor
    case found => exact he
    case entries =>
      intro q
      rw [htable]
      refine (Table.lookup_update _ _ _ _).trans ?_
      rfl
    case node =>
      rcases node_migratePage hmemory with ⟨_, hnode⟩ | ⟨hreport, hsame⟩
      · exact hnode
      · have hstay : e.metadata.pageLayer = c.target := by
          by_contra hne
          have hsilent := (failsSilently_iff he).mpr ⟨hreport, hne, room⟩
          rw [loud] at hsilent
          cases hsilent
        intro page
        rw [hsame]
        split
        next hpage => rw [hpage, placed _ e he, hstay]
        next => rfl
    case metrics => rw [htable]

/-- What a call does to the table, by the table's own law: it makes no ring, and keeps the
counters in step with the census. -/
theorem table_call {c : MoveCall} (hring : m.pageTable.localCacheRing = none)
    (call : c.apply m = .ok (exit, m')) :
    m'.pageTable.localCacheRing = none ∧ (m.pageTable.Tallied → m'.pageTable.Tallied) := by
  obtain ⟨_, _, htable, hring', hcases⟩ := PageTable.migratePage_ringless hring c.inputs.evictNow
    c.inputs.now c.pageIndex c.target
  rw [migratePage_refines call] at htable
  cases htable
  refine ⟨hring', ?_⟩
  intro tallied
  rcases hcases with ⟨_, hsame⟩ | ⟨_, room, _, hmove⟩
  · rw [hsame]
    exact tallied
  · exact tallied.move hmove room

/-- **The step lemma**: a call that does not fail silently keeps records, counters and metrics
true. -/
theorem Truthful.call {c : MoveCall} (h : m.Truthful) (hring : m.pageTable.localCacheRing = none)
    (apart : m.Apart) (call : c.apply m = .ok (exit, m')) (loud : c.failsSilently m = false) :
    m'.Truthful ∧ m'.pageTable.localCacheRing = none ∧ m'.Apart ∧
      ∀ l l', l ≠ l' → m'.pageTable.metrics.migrations l l' =
        m.pageTable.metrics.migrations l l' + UInt64.ofNat (c.carries m l l') := by
  have hcarries : ∀ l l', c.carries m l l' = m.carried m' l l' := by
    intro l l'
    unfold MoveCall.carries
    rw [call]
  obtain ⟨placed, tallied⟩ := truthful_iff.mp h
  obtain ⟨hring', htally⟩ := table_call hring call
  rcases relocated_of_call placed hring call loud with rfl | ⟨e, hmoved⟩
  · refine ⟨h, hring, apart, ?_⟩
    intro l l' hne
    rw [hcarries, carried_self m' hne]
    exact (UInt64.add_zero _).symm
  · refine ⟨truthful_iff.mpr ⟨hmoved.placed apart placed, htally tallied⟩, hring',
      hmoved.apart apart, ?_⟩
    intro l l' hne
    rw [hcarries, hmoved.carried apart placed hne, hmoved.metrics,
      Metrics.migrations_incrementMigration _ hne]
    split <;> rfl

/-- A silent failure leaves a record that is not true. -/
theorem Placed.silent {c : MoveCall} (placed : m.Placed) (hring : m.pageTable.localCacheRing = none)
    (call : c.apply m = .ok (exit, m')) (silent : c.failsSilently m = true) : ¬ m'.Placed := by
  obtain ⟨e, he⟩ : ∃ e, m.pageTable.table.lookup c.pageIndex = some e := by
    rw [← Option.ne_none_iff_exists']
    intro hnone
    unfold MoveCall.failsSilently PageTable.layer? PageTable.meta? at silent
    rw [hnone] at silent
    cases silent
  obtain ⟨hreport, hne, room⟩ := (failsSilently_iff he).mp silent
  rcases migratePage_ringless hring call with ⟨_, hnone | hfull⟩ | ⟨e', he', _, hmemory, htable⟩
  · rw [he] at hnone
    cases hnone
  · rw [room] at hfull
    cases hfull
  · rw [he] at he'
    cases he'
    rcases node_migratePage hmemory with ⟨hplaced, _⟩ | ⟨_, hsame⟩
    · rw [hreport] at hplaced
      cases hplaced
    · intro placed'
      have hentry : m'.pageTable.table.lookup c.pageIndex =
          some { e with metadata := e.metadata.moved c.target c.inputs.now } := by
        rw [htable]
        refine (Table.lookup_update _ _ _ _).trans ?_
        rw [he, Option.map_some, if_pos rfl]
      have hnode := placed' _ _ hentry
      rw [hsame] at hnode
      have hbefore := placed _ e he
      exact hne (PageLayer.node_injective (Option.some.inj (hbefore.symm.trans hnode)))

end Calls

/-! ## Runs -/

section Runs

variable {m m' : Machine} {es : List (Machine × MoveCall)}

/-- No call makes a ring. -/
theorem run_ringless (ringless : m.pageTable.localCacheRing = none) (run : Trace Step m es m') :
    m'.pageTable.localCacheRing = none := by
  apply run.invariant (P := fun m => m.pageTable.localCacheRing = none) _ ringless
  rintro m ⟨m₀, c⟩ m' hring ⟨rfl, exit, call⟩
  exact (table_call hring call).1

/-- What a run whose calls do not fail silently keeps. -/
structure Kept (m₀ : Machine) (es : List (Machine × MoveCall)) (m : Machine) : Prop where
  ringless : m.pageTable.localCacheRing = none
  apart : m.Apart
  truthful : m.Truthful
  metered : Metered m₀ es m

/-- **The run lemma.** -/
theorem Truthful.run (h : m.Truthful) (ringless : m.pageTable.localCacheRing = none)
    (apart : m.Apart) (run : Trace Step m es m')
    (loud : ∀ e ∈ es, e.2.failsSilently e.1 = false) : Kept m es m' := by
  have hstart : Kept m [] m := by
    refine ⟨ringless, apart, h, ?_⟩
    intro current target _
    exact (UInt64.add_zero _).symm
  have hrun := run.invariant_with
    (P := fun es m' => (∀ e ∈ es, e.2.failsSilently e.1 = false) → Kept m es m') ?_
    fun _ => hstart
  · exact hrun loud
  · rintro es s ⟨s₀, c⟩ s' hkept ⟨rfl, exit, call⟩ loud
    have hbefore := hkept fun e he => loud e (List.mem_append_left _ he)
    have hcall := loud (s₀, c) (List.mem_append_right _ (List.mem_singleton_self _))
    obtain ⟨truthful, ringless, apart, metrics⟩ :=
      hbefore.truthful.call hbefore.ringless hbefore.apart call hcall
    refine ⟨ringless, apart, truthful, ?_⟩
    intro current target hne
    rw [metrics current target hne, hbefore.metered current target hne, List.map_append,
      List.sum_append, UInt64.ofNat_add, UInt64.add_assoc]
    rfl

/-- The state the server starts in, where the demands let every page be placed. -/
theorem Started.truthful {clients : List ClientConfig} {server : ServerMemoryConfig} {ring : Bool}
    {alloc : PageTable.Allocation} (h : m.Started clients server ring alloc)
    (small : (layout 3 clients).length < 2 ^ 64) (mapped : Mapped clients alloc)
    (few : demand 3 clients .numaLocal * 4096 < 2 ^ 64 ∧ demand 3 clients .numaRemote ≤ 1 ∧
      demand 3 clients .pmem ≤ 1) : m.Truthful ∧ m.Apart :=
  ⟨truthful_iff.mpr ⟨(h.placed_iff_demand small mapped).mpr few, h.initial.tallied⟩,
    h.apart mapped (demand_whole few)⟩

end Runs

end Machine

/-- **Recorded layers follow the physical pages**, without a ring: from a state whose records and
counters are true, in a run of calls that return, every state reached is true to its pages and its
metrics count the pages that were carried, if and only if no call fails silently. -/
theorem moves_truthful_iff {m m' : Machine} {es : List (Machine × Machine.MoveCall)}
    (ringless : m.pageTable.localCacheRing = none) (truthful : m.Truthful) (apart : m.Apart)
    (run : Trace Machine.Step m es m') :
    (∀ es₁ m₁, es₁ <+: es → Trace Machine.Step m es₁ m₁ →
        m₁.Truthful ∧ Machine.Metered m es₁ m₁) ↔
      ∀ e ∈ es, e.2.failsSilently e.1 = false := by
  constructor
  · intro hall e he
    by_contra hsilent
    rw [Bool.not_eq_false] at hsilent
    obtain ⟨es₁, es₂, rfl⟩ := List.append_of_mem he
    obtain ⟨m₁, run₁, hrest⟩ := run.split es₁
    cases hrest with
    | cons hstep _ =>
      have hbefore := (hall es₁ m₁ (List.prefix_append _ _) run₁).1
      have hafter := (hall (es₁ ++ [e]) _ ⟨es₂, List.append_assoc ..⟩ (run₁.snoc hstep)).1
      obtain ⟨rfl, exit, call⟩ := hstep
      exact hbefore.placed.silent (Machine.run_ringless ringless run₁) call hsilent hafter.placed
  · intro loud es₁ m₁ hpre run₁
    have hkept := truthful.run ringless apart run₁ fun e he => loud e (hpre.subset he)
    exact ⟨hkept.truthful, hkept.metered⟩

/-! ## A small machine -/

/-- Room for two pages in each of three tiers. -/
def twoPageServer : ServerMemoryConfig where
  numTiers := 3
  localNuma := { capacity := 2 }
  remoteNuma := { capacity := 2 }
  pmem := { capacity := 2 }

/-- A machine with one page in each tier. -/
theorem onePageEach_starts : ∃ m,
    Machine.initPageTable ⟨PageTable.new [⟨.uniform, [1, 1, 1]⟩] twoPageServer false, {}⟩
      spreadAllocation = .ok m ∧
    m.pageTable.localCacheRing = none ∧ m.Truthful ∧ m.Apart := by
  have hmapped : Mapped [⟨.uniform, [1, 1, 1]⟩] spreadAllocation :=
    mapped_spreadAllocation fun layer => by cases layer <;> decide
  obtain ⟨m, start, started⟩ := @Machine.initPageTable_spec [⟨.uniform, [1, 1, 1]⟩] twoPageServer
    rfl (by intro layer; cases layer <;> rfl) (by decide) false spreadAllocation
  obtain ⟨truthful, apart⟩ := started.truthful (by decide) hmapped (by decide)
  exact ⟨m, start, started.initial.ringed, truthful, apart⟩

/-- The remote page goes to PMEM, and the kernel moves it. -/
theorem placed_move_told : ∃ m m' : Machine,
    Machine.initPageTable ⟨PageTable.new [⟨.uniform, [1, 1, 1]⟩] twoPageServer false, {}⟩
      spreadAllocation = .ok m ∧
    m.migratePage ⟨0, .placed, 0, .placed⟩ 1 .pmem = .ok (.moved, m') ∧ m'.Truthful := by
  obtain ⟨m, start, ringless, truthful, apart⟩ := onePageEach_starts
  have hcall : ∃ m', m.migratePage ⟨0, .placed, 0, .placed⟩ 1 .pmem = .ok (.moved, m') := by
    cases start
    exact ⟨_, rfl⟩
  obtain ⟨m', call⟩ := hcall
  have run : Trace Machine.Step m [(m, ⟨⟨0, .placed, 0, .placed⟩, 1, .pmem⟩)] m' :=
    Trace.single.mpr ⟨rfl, .moved, call⟩
  have hloud := (moves_truthful_iff ringless truthful apart run).mpr (by
    intro e he
    obtain rfl := List.mem_singleton.mp he
    cases start
    rfl)
  exact ⟨m, m', start, call, (hloud _ m' (List.prefix_refl _) run).1⟩

/-- The kernel reports that the remote page has not moved. The table says it is in PMEM, and the
metrics count a migration; the page resides on node 1. -/
theorem failed_move_counted : ∃ m m' : Machine,
    m.pageTable.localCacheRing = none ∧ m.Truthful ∧ m.Apart ∧
    m.migratePage ⟨0, .placed, 0, .error⟩ 1 .pmem = .ok (.moved, m') ∧
    m'.pageTable.layer? 1 = some .pmem ∧
    m'.pageTable.metrics.remoteToPmemCount = 1 ∧
    m'.memory.node (pageNumber 8589934592) = some 1 ∧ ¬ m'.Truthful := by
  obtain ⟨m, start, ringless, truthful, apart⟩ := onePageEach_starts
  have hcall : ∃ m' e, m.migratePage ⟨0, .placed, 0, .error⟩ 1 .pmem = .ok (.moved, m') ∧
      m'.pageTable.layer? 1 = some .pmem ∧ m'.pageTable.metrics.remoteToPmemCount = 1 ∧
      m'.memory.node (pageNumber 8589934592) = some 1 ∧
      m'.pageTable.table.lookup 1 = some e ∧ e.pageAddress = 8589934592 ∧
      e.metadata.pageLayer = .pmem := by
    cases start
    exact ⟨_, _, rfl, rfl, rfl, rfl, rfl, rfl, rfl⟩
  obtain ⟨m', e, call, hlayer, hmetric, hnode, he, haddress, hrecord⟩ := hcall
  refine ⟨m, m', ringless, truthful, apart, call, hlayer, hmetric, hnode, ?_⟩
  intro truthful'
  have hplaced := truthful'.placed 1 e he
  rw [haddress, hnode, hrecord] at hplaced
  exact absurd hplaced (by decide)

end MemoryTiering
