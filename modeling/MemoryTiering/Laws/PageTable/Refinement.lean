import MemoryTiering.Laws.PageTable.Conservation
import MemoryTiering.Laws.PageTable.Regions
import MemoryTiering.Lib.Refinement
import MemoryTiering.Tiering

/-!
# The page table refines the tiering

The page table reads as a tiering: the ring as the queue of its pages, in clock order, the tiers'
counters as numbers, and nine of the metrics by the tiers they are about (`PageTable.tiering`). Each
phase of a migration agrees with the phase of the tiering that stands for it, so each call does, and
each run from the table an accepted configuration starts with (`runs_refine_tiering`). Heap,
pointers and the tiers' 64-bit counters add no behaviour, and a run of the server stops where the
tiering's stops, for the same reason.
-/

set_option autoImplicit false

namespace MemoryTiering

open Fallible Pointer Refinement

/-! ## The ring as a queue of pages -/

namespace ClockRing

/-- A node's page and its mark. -/
def slot (r : ClockRing) (a : Addr) : SecondChance.Slot PageId := ⟨r.pageOf a, r.refBit a⟩

/-- The ring's pages and their marks, in clock order from the hand. -/
def pageQueue (r : ClockRing) : SecondChance.Queue PageId := r.nodes.map r.slot

@[simp] theorem keys_pageQueue (r : ClockRing) : SecondChance.keys r.pageQueue = r.pages := by
  rw [SecondChance.keys, pageQueue, List.map_map]
  rfl

section Queue

variable {r r' : ClockRing} {l : List Addr} {p : PageId} {x : Addr}

theorem Reads.pageQueue_eq (h : r.Reads l) : r.pageQueue = l.map r.slot := by
  rw [pageQueue, h.nodes_eq]

/-- The page and the mark of a node are its data. -/
theorem slot_congr {a : Addr} (h : r'.data a = r.data a) : r'.slot a = r.slot a := by
  rw [slot, slot, pageOf, pageOf, refBit, refBit, h]

/-- `insert` puts the page behind the others. -/
theorem Reads.pageQueue_insert (h : r.Reads l) (call : r.insert p = .ok (some x, r')) :
    r'.pageQueue = SecondChance.enqueue r.pageQueue p := by
  have room : l.length < r.capacity.toNat := by
    rcases Nat.lt_or_eq_of_le h.bounded with room | full
    · exact room
    · rw [h.insert_full p full] at call
      cases call
  obtain ⟨r₁, hcall, hreads, hdata, _⟩ := h.insert_room p room
  rw [call] at hcall
  cases hcall
  have hold : ∀ a ∈ l, r'.data a = r.data a := by
    intro a ha
    rw [hdata, if_neg]
    rintro rfl
    rw [h.live, Heap.read?_allocated] at ha
    exact Bool.false_ne_true ha
  have hnew : r'.slot r.heap.allocated = ⟨p, false⟩ := by
    rw [slot, pageOf, refBit, hdata, if_pos rfl]
    rfl
  rw [hreads.pageQueue_eq, h.pageQueue_eq, SecondChance.enqueue, List.map_append,
    List.map_singleton, hnew]
  congr 1
  exact List.map_congr_left fun a ha => slot_congr (hold a ha)

/-- `remove` takes the node's page out, if no other node carries it. -/
theorem Reads.pageQueue_remove (h : r.Reads l) (once : r.pages.Nodup) (hx : x ∈ l)
    (hp : r.pageOf x = p) (call : r.remove (some x) = .ok r') :
    r'.pageQueue = SecondChance.remove r.pageQueue p := by
  obtain ⟨r₁, hcall, hreads, hdata, _⟩ := h.remove_eq hx
  rw [call] at hcall
  cases hcall
  rw [pages, h.nodes_eq] at once
  have hinj := List.inj_on_of_nodup_map once
  rw [hreads.pageQueue_eq, h.pageQueue_eq, SecondChance.remove, List.filter_map,
    h.nodup.erase_eq_filter]
  have hkeep : l.filter (· != x) = l.filter (fun a => decide ((r.slot a).key ≠ p)) := by
    apply List.filter_congr
    intro a ha
    by_cases hax : a = x
    · simp [slot, hax, hp]
    · have hne : r.pageOf a ≠ p := fun heq => hax (hinj ha hx (heq.trans hp.symm))
      simp [slot, hax, hne]
  refine Eq.trans ?_ (congrArg (List.map r.slot) hkeep)
  apply List.map_congr_left
  intro a ha
  rw [List.mem_filter, bne_iff_ne] at ha
  exact slot_congr (by rw [hdata, if_neg ha.2])

/-- `markAccessed` marks the node's page, if no other node carries it. -/
theorem Reads.pageQueue_mark (h : r.Reads l) (once : r.pages.Nodup) (hx : x ∈ l)
    (hp : r.pageOf x = p) (call : r.markAccessed (some x) = .ok r') :
    r'.pageQueue = SecondChance.mark r.pageQueue p := by
  obtain ⟨r₁, hcall, hreads, hdata, _⟩ := h.markAccessed_eq hx
  rw [call] at hcall
  cases hcall
  rw [pages, h.nodes_eq] at once
  have hinj := List.inj_on_of_nodup_map once
  rw [hreads.pageQueue_eq, h.pageQueue_eq, SecondChance.mark, List.map_map]
  apply List.map_congr_left
  intro a ha
  rw [Function.comp_apply]
  by_cases hax : a = x
  · subst hax
    obtain ⟨d, hd⟩ := Option.isSome_iff_exists.mp ((h.mem_iff_data a).mp ha)
    rw [if_pos (show (r.slot a).key = p from hp)]
    simp only [slot, pageOf, refBit, hdata, if_true, hd, Option.map_some, Option.getD_some]
  · have hne : (r.slot a).key ≠ p := fun heq => hax (hinj ha hx (heq.trans hp.symm))
    rw [if_neg hne]
    exact slot_congr (by rw [hdata, if_neg hax])

end Queue

end ClockRing

/-! ## The metrics by tiers -/

namespace Metrics

/-- The counter the switch at the end of `accessPage` chooses. -/
def accessCount (m : Metrics) : PageLayer → UInt64
  | .numaLocal => m.localAccessCount
  | .numaRemote => m.remoteAccessCount
  | .pmem => m.pmemAccessCount

section Counts

variable (m : Metrics) (layer current target l l' : PageLayer)

theorem accessCount_incrementAccess (accessTime : UInt64) :
    ((m.recordAccessLatency accessTime).incrementAccess layer).accessCount l =
      m.accessCount l + if layer = l then 1 else 0 := by
  cases layer <;> cases l <;> first | rfl | exact (UInt64.add_zero _).symm

theorem accessCount_incrementMigration :
    (m.incrementMigration current target).accessCount l = m.accessCount l := by
  cases current <;> cases target <;> cases l <;> rfl

/-- A move within a layer counts nowhere. -/
theorem migrations_moved :
    (m.incrementMigration current target).migrations l l' =
      m.migrations l l' + if current = l ∧ target = l' ∧ l ≠ l' then 1 else 0 := by
  by_cases h : l = l'
  · subst h
    rw [if_neg fun hmoved => hmoved.2.2 rfl]
    cases l <;> rfl
  · rw [migrations_incrementMigration m h]
    simp only [ne_eq, h, not_false_eq_true, and_true]

end Counts

end Metrics

/-! ## The page table as a tiering -/

/-- What a fault of the server is to the tiering. -/
def Fault.crash : Fault → Option Tiering.Crash
  | .assertion .removeNullptr => some .lostPage
  | .assertion .ringEmpty => some .nobodyToEvict
  | .useAfterFree _ => some .victimFreed
  | .assertion .migrateInsert => some .queueFull
  | _ => none

/-- The bounds of a server's tiers, over a queue of given length. -/
def ServerMemoryConfig.bounds (server : ServerMemoryConfig) (queue : Nat) : Tiering.Bounds where
  capacity layer := (server.layer layer).capacity.toNat
  queue

namespace PageTable

/-- **The abstraction.** -/
def tiering (t : PageTable) : Tiering where
  layer := t.layer?
  count layer := (t.serverConfig.layer layer).count.toNat
  queue := t.localCacheRing.map ClockRing.pageQueue
  accesses := t.metrics.accessCount
  migrations := t.metrics.migrations

/-- Neither clock nor latency is part of a request. -/
def Call.request : Call → Tiering.Request
  | .accessPage _ _ p _ => .access p
  | .migratePage _ _ p target => .migrate p target
  | .scanNext => .scan

/-- What every completed call keeps: the accounts are right, and there is no ring, or one of a given
capacity whose nodes and pages point at each other. -/
structure Within (server : ServerMemoryConfig) (queue : Nat) (t : PageTable) : Prop where
  accounted : Accounted server t
  ring : t.localCacheRing = none ∨ ∃ ring l, t.Held ring l ∧ ring.capacity.toNat = queue

section Agreement

variable {server : ServerMemoryConfig} {queue : Nat} {t t' : PageTable} {p : PageId}
  {m : PageMetadata} {current target : PageLayer} {ring : ClockRing} {l : List Addr}

theorem tiering_queue_none (hring : t.localCacheRing = none) : t.tiering.queue = none := by
  rw [tiering, hring, Option.map_none]

theorem Held.tiering_queue (h : t.Held ring l) : t.tiering.queue = some ring.pageQueue := by
  rw [tiering, h.present, Option.map_some]

/-- A page is queued when it has a node. -/
theorem Held.mem_queue (h : t.Held ring l) (hm : t.meta? p = some m) :
    p ∈ SecondChance.keys ring.pageQueue ↔ m.ringNodePtr ≠ none := by
  rw [ClockRing.keys_pageQueue, h.mem_pages, hm]
  simp only [Option.some.injEq, exists_eq_left']

/-- A table with the same layers, counters and metrics differs in its queue at most. -/
theorem SameLayers.tiering_eq (h : SameLayers t t') (metrics : t'.metrics = t.metrics) :
    t'.tiering = { t.tiering with queue := t'.tiering.queue } := by
  have hlayer : t'.layer? = t.layer? := funext h.layer
  unfold tiering
  rw [hlayer, h.serverConfig, metrics]

/-- Room is room in the tiering. -/
theorem Within.isFull_iff (h : t.Within server queue) (target : PageLayer) :
    (t.serverConfig.layer target).isFull = true ↔
      (server.bounds queue).capacity target ≤ t.tiering.count target := by
  rw [LayerInfo.isFull_iff, h.accounted.capacity]
  rfl

/-- A page that moves into a tier with room moves in the tiering. -/
theorem Moved.tiering_eq (h : Moved t t' p current target) (tallied : t.Tallied)
    (room : (t.serverConfig.layer target).isFull = false)
    (metrics : t'.metrics = t.metrics.incrementMigration current target) :
    t'.tiering = { t.tiering.move p current target with queue := t'.tiering.queue } := by
  have hlayer : t'.tiering.layer = (t.tiering.move p current target).layer := funext h.layer
  have hcount : t'.tiering.count = (t.tiering.move p current target).count := by
    funext l
    have hcounters := toNat_recount tallied h.before room l
    have hpos : (if current = l then 1 else 0) ≤ (t.serverConfig.layer l).count.toNat := by
      split
      next hl =>
        rw [tallied, ← hl]
        exact population_pos h.before
      next => exact Nat.zero_le _
    rw [← h.counters] at hcounters
    show (t'.serverConfig.layer l).count.toNat = (t.serverConfig.layer l).count.toNat -
      (if current = l then 1 else 0) + if target = l then 1 else 0
    omega
  have haccesses : t'.tiering.accesses = (t.tiering.move p current target).accesses := by
    funext l
    exact (congrArg (·.accessCount l) metrics).trans
      (t.metrics.accessCount_incrementMigration current target l)
  have hmigrations : t'.tiering.migrations = (t.tiering.move p current target).migrations := by
    funext l l'
    exact (congrArg (·.migrations l l') metrics).trans
      (t.metrics.migrations_moved current target l l')
  exact Tiering.ext hlayer hcount rfl haccesses hmigrations

/-! ## The phases agree -/

/-- **Leaving the ring is leaving the queue.** -/
theorem Within.leave_agrees (h : t.Within server queue) (hm : t.meta? p = some m) :
    Agrees tiering Fault.crash (t.takeFromRing ClockRing.remove p m)
      (t.tiering.leave p m.pageLayer) := by
  rcases h.ring with hring | ⟨ring, l, held, _⟩
  · rw [takeFromRing_skip _ _ _ (.inl hring), Tiering.leave_skip (.inl (tiering_queue_none hring))]
    exact .ok t
  · by_cases hlayer : m.pageLayer = .numaLocal
    · rw [hlayer, Tiering.leave_queued held.tiering_queue]
      cases hptr : m.ringNodePtr with
      | none =>
        rw [held.take_lost (by simp [isLost, hlayer, hptr]), if_neg]
        · exact .error rfl
        · rw [held.mem_queue hm, hptr]
          exact not_not.mpr rfl
      | some a =>
        obtain ⟨ring', hremove, held', _⟩ := held.release hm hptr
        have htake : t.takeFromRing ClockRing.remove p m =
            .ok ((t.store p (.setRingNode none)).withRing ring') := by
          rw [takeFromRing_local held.present hlayer, hptr, hremove, ok_bind]
        have hqueue : ring'.pageQueue = SecondChance.remove ring.pageQueue p :=
          held.reads.pageQueue_remove held.pages_nodup (held.live hm hptr)
            (held.pageOf_eq hm hptr) hremove
        rw [htake, if_pos ((held.mem_queue hm).mpr (by rw [hptr]; exact Option.some_ne_none a)),
          ← hqueue, ← held'.tiering_queue,
          ← (sameLayers_takeFromRing htake).tiering_eq (record?_takeFromRing htake).2]
        exact .ok _
    · rw [takeFromRing_skip _ _ _ (.inr hlayer), Tiering.leave_skip (.inr hlayer)]
      exact .ok t

/-- **The capacity check agrees**: it changes nothing if it returns. -/
theorem Within.admits_agrees (h : t.Within server queue) (evictNow : Nat) (target : PageLayer) :
    Agrees Option.isSome Fault.crash (t.checkCapacity (migratePage evictNow evictNow) target)
      (t.tiering.admits (server.bounds queue) target) := by
  have plain : (t.localCacheRing = none ∨ target ≠ .numaLocal) →
      (t.tiering.queue = none ∨ target ≠ .numaLocal) →
      Agrees Option.isSome Fault.crash (t.checkCapacity (migratePage evictNow evictNow) target)
        (t.tiering.admits (server.bounds queue) target) := by
    intro hring hqueue
    rw [checkCapacity_plain _ _ hring]
    by_cases hfull : (t.serverConfig.layer target).isFull = true
    · rw [if_pos hfull, Tiering.admits_refuses ((h.isFull_iff target).mp hfull) hqueue]
      exact .ok none
    · rw [if_neg hfull, Tiering.admits_room (Nat.lt_of_not_le (mt (h.isFull_iff target).mpr hfull))]
      exact .ok (some t)
  rcases h.ring with hring | ⟨ring, l, held, _⟩
  · exact plain (.inl hring) (.inl (tiering_queue_none hring))
  · by_cases htarget : target = .numaLocal
    · subst htarget
      by_cases hfull : t.serverConfig.localNuma.isFull = true
      · rw [Tiering.admits_crashes ((h.isFull_iff .numaLocal).mp hfull) held.tiering_queue]
        have hnil : ring.pageQueue = [] ↔ l = [] := by
          rw [held.reads.pageQueue_eq, List.map_eq_nil_iff]
        rcases held.checkCapacity_full evictNow hfull with ⟨hl, hcall⟩ | ⟨hl, a, hcall⟩
        · rw [hcall, if_pos (hnil.mpr hl)]
          exact .error rfl
        · rw [hcall, if_neg (mt hnil.mp hl)]
          exact .error rfl
      · rw [Tiering.admits_room (Nat.lt_of_not_le (mt (h.isFull_iff .numaLocal).mpr hfull)),
          checkCapacity_promotion held.present, if_neg hfull]
        exact .ok (some t)
    · exact plain (.inr htarget) (.inr htarget)

/-- The queue after a move into NUMA-local memory. -/
theorem Held.queue_finishMove {now : Nat} (h : t.Held ring l)
    (call : t.finishMove now p current .numaLocal = .ok t') :
    t'.tiering.queue = some (SecondChance.enqueue ring.pageQueue p) := by
  obtain ⟨t₁, henter, call⟩ := bind_eq_ok.mp call
  cases call
  have hring : (t.store p (.setLayer .numaLocal)).localCacheRing = some ring := h.present
  rcases enterRing_cases henter with ⟨hskip, _⟩ | ⟨ring₀, a, ring', hring₀, _, hinsert, rfl⟩
  · rcases hskip with hnone | hne
    · rw [hring] at hnone
      cases hnone
    · exact (hne rfl).elim
  · obtain rfl : ring = ring₀ := Option.some.inj (hring.symm.trans hring₀)
    rw [← h.reads.pageQueue_insert hinsert]
    rfl

/-- **Moving agrees**, into a tier with room. -/
theorem Within.move_agrees (h : t.Within server queue) (now : Nat)
    (before : t.layer? p = some current) (room : (t.serverConfig.layer target).isFull = false) :
    Agrees tiering Fault.crash (t.finishMove now p current target)
      ((t.tiering.move p current target).enter (server.bounds queue) p target) := by
  have tallied := h.accounted.tallied
  obtain ⟨m, hm, _⟩ := Option.map_eq_some_iff.mp before
  have metrics : ∀ {t'}, t.finishMove now p current target = .ok t' →
      t'.metrics = t.metrics.incrementMigration current target :=
    fun call => (records_finishMove (record?_of_meta? hm) call).2.2
  have plain : (t.localCacheRing = none ∨ target ≠ .numaLocal) →
      ((t.tiering.move p current target).queue = none ∨ target ≠ .numaLocal) →
      Agrees tiering Fault.crash (t.finishMove now p current target)
        ((t.tiering.move p current target).enter (server.bounds queue) p target) := by
    intro hring hqueue
    have hcall := finishMove_skip now t p current hring
    have heq := (moved_of_finishMove before hcall).tiering_eq tallied room (metrics hcall)
    rw [Tiering.enter_skip hqueue, hcall]
    exact .of_eq heq
  rcases h.ring with hring | ⟨ring, l, held, hcapacity⟩
  · exact plain (.inl hring) (.inl (tiering_queue_none hring))
  · by_cases htarget : target = .numaLocal
    · subst htarget
      have hqueue : (t.tiering.move p current .numaLocal).queue = some ring.pageQueue :=
        held.tiering_queue
      have hlength : ring.pageQueue.length = l.length := by
        rw [held.reads.pageQueue_eq, List.length_map]
      rw [Tiering.enter_queued hqueue, hlength]
      show Agrees _ _ _ (if l.length < queue then _ else _)
      rw [← hcapacity]
      rcases held.finishMove_cases now p current .numaLocal with
        ⟨_, hfull, hcall⟩ | ⟨hroom, t', hcall⟩
      · rw [hcall, if_neg (Nat.not_lt.mpr (Nat.le_of_eq hfull.symm))]
        exact .error rfl
      · have heq := (moved_of_finishMove before hcall).tiering_eq tallied room (metrics hcall)
        rw [held.queue_finishMove hcall] at heq
        rw [hcall, if_pos (hroom rfl), ← heq]
        exact .ok t'
    · exact plain (.inr htarget) (.inr htarget)

/-! ## The calls agree -/

/-- Leaving the ring stays within the bounds. -/
theorem Within.leave {t₁ : PageTable} (h : t.Within server queue) (hm : t.meta? p = some m)
    (call : t.takeFromRing ClockRing.remove p m = .ok t₁) : t₁.Within server queue := by
  refine ⟨h.accounted.shift (.inl (sameLayers_takeFromRing call)), ?_⟩
  rcases h.ring with hring | ⟨ring, l, held, hcapacity⟩
  · rw [takeFromRing_skip _ _ _ (.inl hring)] at call
    cases call
    exact .inl hring
  · have hnode : m.pageLayer = .numaLocal → m.ringNodePtr ≠ none := by
      intro hlayer hptr
      rw [held.take_lost (by simp [isLost, hlayer, hptr])] at call
      cases call
    obtain ⟨t₂, ring₁, l₁, _, hcall, held₁, hcap, _⟩ := held.take hm hnode
    rw [call] at hcall
    cases hcall
    exact .inr ⟨ring₁, l₁, held₁, by rw [hcap, hcapacity]⟩

/-- A completed call stays within the bounds. -/
theorem Within.call (h : t.Within server queue) {c : Call} (call : c.apply t = .ok t') :
    t'.Within server queue := by
  rcases h.ring with hring | ⟨ring, l, held, hcapacity⟩
  · obtain ⟨t₁, hcall, hring₁, hshift⟩ := apply_ringless hring c
    rw [call] at hcall
    cases hcall
    exact ⟨h.accounted.shift hshift, .inl hring₁⟩
  · obtain ⟨ring', l', called⟩ := held.apply call
    exact ⟨h.accounted.shift called.shifted,
      .inr ⟨ring', l', called.held, by rw [called.capacity, hcapacity]⟩⟩

/-- A check that returns found the table as it leaves it. -/
theorem Within.checked {evictNow : Nat} {t₂ : PageTable} (h : t.Within server queue)
    (call : t.checkCapacity (PageTable.migratePage evictNow evictNow) target = .ok (some t₂)) :
    t₂ = t ∧ (t.serverConfig.layer target).isFull = false := by
  have hcoherent : t.Coherent := h.ring.imp_right fun ⟨ring, l, held, _⟩ => ⟨ring, l, held⟩
  rcases hcoherent.checkCapacity call with ⟨_, _, hnone⟩ | ⟨room, hsome⟩
  · cases hnone
  · exact ⟨Option.some.inj hsome, room⟩

/-- **Migrations agree**, phase by phase. -/
theorem Within.migrate_agrees (h : t.Within server queue) (evictNow now : Nat) (p : PageId)
    (target : PageLayer) :
    Agrees (fun answer => answer.2.tiering) Fault.crash (t.migratePage evictNow now p target)
      (t.tiering.migrate (server.bounds queue) p target) := by
  rw [migratePage_eq_body]
  have hlayer : t.tiering.layer p = (t.meta? p).map (·.pageLayer) := rfl
  unfold Tiering.migrate
  cases hm : t.meta? p with
  | none =>
    rw [migrateBody_notFound hm, hlayer, hm]
    exact .ok (Exit.notFound, t)
  | some m =>
    rw [migrateBody_found hm, hlayer, hm]
    refine (h.leave_agrees hm).bind fun t₁ htake => ?_
    have h₁ := h.leave hm htake
    refine (h₁.admits_agrees evictNow target).bind fun answer hcheck => ?_
    cases answer with
    | none => exact .ok (Exit.targetFull, t₁)
    | some t₂ =>
      obtain ⟨rfl, room⟩ := h₁.checked hcheck
      have before := ((sameLayers_takeFromRing htake).layer p).trans (layer?_eq hm)
      exact (h₁.move_agrees now before room).returns fun _ => rfl

/-- What an access leaves of the queue: the page is marked, if it is in it. -/
theorem Within.queue_accessPage {latency : SizeT → OperationType → UInt64} {now : Nat}
    {mode : OperationType} (h : t.Within server queue)
    (call : t.accessPage latency now p mode = .ok t') :
    t'.tiering.queue = t.tiering.queue.map fun q => SecondChance.mark q p := by
  rcases h.ring with hring | ⟨ring, l, held, _⟩
  · obtain ⟨t₁, hcall, hring₁, _⟩ := apply_ringless hring (.accessPage latency now p mode)
    rw [show Call.apply t (.accessPage latency now p mode) = .ok t' from call] at hcall
    cases hcall
    rw [tiering_queue_none hring, tiering_queue_none hring₁, Option.map_none]
  · have absent : (∀ m, t.meta? p = some m → m.ringNodePtr = none) →
        some ring.pageQueue =
          (some ring.pageQueue).map fun q => SecondChance.mark q p := by
      intro hnone
      rw [Option.map_some, SecondChance.mark_of_notMem]
      rw [ClockRing.keys_pageQueue, held.mem_pages]
      rintro ⟨m, hm, hne⟩
      exact hne (hnone m hm)
    rw [held.tiering_queue]
    rcases accessPage_cases call with ⟨hm, rfl⟩ | ⟨e, t₁, he, rfl, hmark⟩
    · rw [held.tiering_queue]
      apply absent
      intro m hsome
      rw [hm] at hsome
      cases hsome
    · have hm : t.meta? p = some e.metadata := by rw [meta?, he, Option.map_some]
      rcases hmark with ⟨hskip, rfl⟩ | ⟨ring₀, ring', hring, hmark, rfl⟩
      · have hlower : e.metadata.pageLayer ≠ .numaLocal := by
          apply hskip.resolve_left
          rw [held.present]
          exact Option.some_ne_none ring
        refine held.tiering_queue.trans (absent ?_)
        intro m hsome
        obtain rfl := Option.some.inj (hm.symm.trans hsome)
        exact held.no_node hm hlower
      · obtain rfl : ring = ring₀ := Option.some.inj (held.present.symm.trans hring)
        show some ring'.pageQueue = _
        cases hptr : e.metadata.ringNodePtr with
        | none =>
          rw [hptr] at hmark
          obtain rfl := Except.ok.inj hmark
          apply absent
          intro m hsome
          obtain rfl := Option.some.inj (hm.symm.trans hsome)
          exact hptr
        | some a =>
          rw [hptr] at hmark
          rw [held.reads.pageQueue_mark held.pages_nodup (held.live hm hptr)
            (held.pageOf_eq hm hptr) hmark, Option.map_some]

/-- What it leaves of the metrics: it counts where the page is. -/
theorem counts_accessPage {latency : SizeT → OperationType → UInt64} {now : Nat}
    {mode : OperationType} (call : t.accessPage latency now p mode = .ok t') :
    t'.tiering.accesses = (t.tiering.access p).accesses ∧
      t'.tiering.migrations = t.tiering.migrations := by
  have counted : ∀ l, (t.tiering.access p).accesses l =
      t.metrics.accessCount l + if t.layer? p = some l then 1 else 0 := fun _ => rfl
  rcases accessPage_cases call with ⟨hm, rfl⟩ | ⟨e, t₁, he, rfl, _⟩
  · refine ⟨funext fun l => ?_, rfl⟩
    rw [counted, layer?, hm]
    exact (UInt64.add_zero _).symm
  · have hm : t.meta? p = some e.metadata := by rw [meta?, he, Option.map_some]
    constructor
    · funext l
      rw [counted, layer?_eq hm]
      simp only [Option.some_inj]
      exact t.metrics.accessCount_incrementAccess e.metadata.pageLayer l _
    · funext l l'
      exact t.metrics.migrations_incrementAccess e.metadata.pageLayer l l' _

/-- **Accesses agree.** -/
theorem Within.access_agrees (h : t.Within server queue)
    (latency : SizeT → OperationType → UInt64) (now : Nat) (p : PageId) (mode : OperationType) :
    Agrees tiering Fault.crash (t.accessPage latency now p mode) (.ok (t.tiering.access p)) := by
  have hreturns : ∃ t', t.accessPage latency now p mode = .ok t' := by
    rcases h.ring with hring | ⟨ring, l, held, _⟩
    · obtain ⟨t', hcall, _⟩ := apply_ringless hring (.accessPage latency now p mode)
      exact ⟨t', hcall⟩
    · exact held.access latency now p mode
  obtain ⟨t', hcall⟩ := hreturns
  have hsame := sameLayers_accessPage hcall
  obtain ⟨haccesses, hmigrations⟩ := counts_accessPage hcall
  have hcount : t'.tiering.count = t.tiering.count := by
    unfold tiering
    rw [hsame.serverConfig]
  rw [hcall]
  exact .of_eq (Tiering.ext (funext hsame.layer) hcount (h.queue_accessPage hcall) haccesses
    hmigrations)

/-- **The step lemma**: every call agrees with its request. -/
theorem Within.apply_agrees (h : t.Within server queue) (c : Call) :
    Agrees tiering Fault.crash (c.apply t) (t.tiering.apply (server.bounds queue) c.request) := by
  cases c with
  | accessPage latency now p mode => exact h.access_agrees latency now p mode
  | migratePage evictNow now p target =>
    exact (h.migrate_agrees evictNow now p target).returns fun _ => rfl
  | scanNext => exact .of_eq ((sameLayers_scanNext t).tiering_eq rfl)

end Agreement

/-! ## The start -/

section Start

/-- No page of the ring is marked. -/
def Unmarked (t : PageTable) : Prop :=
  ∀ ring, t.localCacheRing = some ring → (∃ l, ring.Reads l) ∧ ∀ a, ring.refBit a = false

/-- A page enters the ring unmarked. -/
theorem Unmarked.fillPage {alloc : Allocation} {layer : PageLayer} {s s' : Filling}
    (h : s.pageTable.Unmarked) (call : s.fillPage alloc layer = .ok s') :
    s'.pageTable.Unmarked := by
  unfold Filling.fillPage at call
  dsimp only at call
  split at call
  · cases call
  · obtain ⟨t, henter, call⟩ := bind_eq_ok.mp call
    cases call
    intro ring hring
    rcases enterRing_cases henter with ⟨_, rfl⟩ | ⟨ring₀, a, ring', hring₀, _, hinsert, rfl⟩
    · exact h ring hring
    · obtain rfl : ring' = ring := Option.some.inj hring
      obtain ⟨⟨l, hreads⟩, hbits⟩ := h ring₀ hring₀
      have room : l.length < ring₀.capacity.toNat := by
        rcases Nat.lt_or_eq_of_le hreads.bounded with room | full
        · exact room
        · rw [hreads.insert_full s.currentIndex full] at hinsert
          cases hinsert
      obtain ⟨r, hcall, hreads', hdata, _⟩ := hreads.insert_room s.currentIndex room
      rw [hinsert] at hcall
      cases hcall
      refine ⟨⟨_, hreads'⟩, fun b => ?_⟩
      rw [ClockRing.refBit, hdata]
      split
      · rfl
      · exact hbits b

variable {config : AcceptedConfig} {alloc : Allocation} {t t₀ : PageTable}

theorem unmarked_start {ring : Bool} (start : config.start ring alloc = .ok t) : t.Unmarked := by
  obtain ⟨s, hfold, call⟩ := bind_eq_ok.mp start
  cases call
  refine Filling.invariant (P := Unmarked) (fun h => h.fillPage) (fun _ _ h => h) ?_ hfold
  intro r hr
  cases ring with
  | false => cases hr
  | true =>
    cases hr
    exact ⟨⟨[], ClockRing.reads_new _⟩, fun _ => rfl⟩

end Start

end PageTable

/-- The tiering an accepted configuration starts with: the clients' pages one client after the
other, the NUMA-local ones in the queue, unmarked and in order, and nothing counted. -/
def AcceptedConfig.tiering (config : AcceptedConfig) (enableCacheRing : Bool) : Tiering where
  layer p := (layout config.server.numTiers config.clients)[p.toNat]?
  count := demand config.server.numTiers config.clients
  queue :=
    if enableCacheRing then
      some ((localIds (layout config.server.numTiers config.clients)).map fun p => ⟨p, false⟩)
    else none
  accesses _ := 0
  migrations _ _ := 0

/-- The capacities, and a queue as long as NUMA-local memory was at the start. -/
def AcceptedConfig.bounds (config : AcceptedConfig) : Tiering.Bounds :=
  config.server.bounds (demand config.server.numTiers config.clients .numaLocal)

namespace PageTable

section Runs

variable {config : AcceptedConfig} {ring : Bool} {alloc : Allocation} {t₀ : PageTable}

theorem within_start (start : config.start ring alloc = .ok t₀) :
    t₀.Within config.server (demand config.server.numTiers config.clients .numaLocal) := by
  have hinit := AcceptedConfig.initial start
  refine ⟨hinit.accounted (AcceptedConfig.demand_le start), ?_⟩
  have hringed := hinit.ringed
  cases ring with
  | false => exact .inl hringed
  | true =>
    obtain ⟨⟨ring, l, held, hcapacity⟩, _⟩ := hringed
    refine .inr ⟨ring, l, held, ?_⟩
    rw [hcapacity]
    exact toNat_localPageLoad true config.server_tiers
      (hinit.demand_lt .numaLocal)

/-- The table the server starts with is the tiering the configuration starts with. -/
theorem tiering_start (start : config.start ring alloc = .ok t₀) :
    t₀.tiering = config.tiering ring := by
  have hinit := AcceptedConfig.initial start
  have hlaid := initPageTable_layout config.server_tiers
    config.server_eq.2 start
  have hlayer : t₀.layer? = (config.tiering ring).layer := funext hlaid.layer?_eq
  have hcount : t₀.tiering.count = (config.tiering ring).count := by
    funext l
    exact (hinit.tallied l).trans (hinit.population l)
  have hqueue : t₀.tiering.queue = (config.tiering ring).queue := by
    have hringed := hinit.ringed
    cases ring with
    | false => exact tiering_queue_none hringed
    | true =>
      obtain ⟨⟨ring, l, held, _⟩, _⟩ := hringed
      have hpages := hlaid.ring ring held.present
      have hbits := (unmarked_start start ring held.present).2
      rw [held.tiering_queue, ClockRing.pageQueue, AcceptedConfig.tiering, if_pos rfl, ← hpages,
        ClockRing.pages, List.map_map]
      congr 1
      apply List.map_congr_left
      intro a _
      rw [ClockRing.slot, hbits]
      rfl
  have hmetrics : t₀.metrics = {} := hinit.frame.metrics
  have haccesses : t₀.tiering.accesses = (config.tiering ring).accesses := by
    funext l
    show t₀.metrics.accessCount l = 0
    rw [hmetrics]
    cases l <;> rfl
  have hmigrations : t₀.tiering.migrations = (config.tiering ring).migrations := by
    funext l l'
    show t₀.metrics.migrations l l' = 0
    rw [hmetrics]
    cases l <;> cases l' <;> rfl
  exact Tiering.ext hlayer hcount hqueue haccesses hmigrations

/-- **The page table refines the tiering**, with a ring or without: from the start, any calls take
the page table where their requests take the tiering, and fail when and why these do. -/
theorem runs_refine_tiering (start : config.start ring alloc = .ok t₀) (calls : List Call) :
    Agrees tiering Fault.crash (calls.foldlM Call.apply t₀)
      ((calls.map Call.request).foldlM (Tiering.apply config.bounds) (config.tiering ring)) := by
  rw [← tiering_start start]
  exact Agrees.run (fun t c h => Within.apply_agrees h c) (fun t c t' h call => Within.call h call)
    calls (within_start start)

/-- A promotion of the remote page to the full tier, after an access to the local one. -/
theorem promotion_crashes_in_tiering : ∃ t₀,
    (smallConfig 1 1 (by decide)).start true plainAllocation = .ok t₀ ∧
    Agrees tiering Fault.crash
      ([.accessPage (fun _ _ => 0) 0 0 .read, .migratePage 0 0 1 .numaLocal].foldlM Call.apply t₀)
      (.error .victimFreed) := by
  have hstart : ∃ t₀, (smallConfig 1 1 (by decide)).start true plainAllocation = .ok t₀ := ⟨_, rfl⟩
  obtain ⟨t₀, start⟩ := hstart
  exact ⟨t₀, start, runs_refine_tiering start _⟩

end Runs

end PageTable

end MemoryTiering
