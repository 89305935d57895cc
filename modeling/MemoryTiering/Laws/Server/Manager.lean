import MemoryTiering.Server
import MemoryTiering.Laws.PageTable.Effect

/-!
# What the manager does to the server

The manager and the scanner share the page table. Neither takes a page out of it, no round of the
scanner counts an access, and an access returns in every state the two can reach
(`PageTable.Coherent`). What the server has become after it handled some messages is `Serves`: which
clients are done, whether all are, and how many accesses were counted.
-/

set_option autoImplicit false

namespace MemoryTiering

open Fallible Pointer Transition

namespace PageTable

/-! ## The shared table -/

section Table

variable {t t' : PageTable} {p : PageId}

theorem coherent_of_start {config : AcceptedConfig} {ring : Bool} {alloc : Allocation}
    (start : config.start ring alloc = .ok t) : t.Coherent :=
  (AcceptedConfig.initial start).coherent

/-- An access of a coherent table returns. -/
theorem Coherent.access (h : t.Coherent) (latency : SizeT → OperationType → UInt64) (now : Nat)
    (p : PageId) (mode : OperationType) : ∃ t', t.accessPage latency now p mode = .ok t' := by
  rcases h with hring | ⟨ring, l, h⟩
  · obtain ⟨t', hcall, _⟩ := apply_ringless hring (.accessPage latency now p mode)
    exact ⟨t', hcall⟩
  · exact h.access latency now p mode

/-- What an event keeps. -/
theorem Coherent.event (h : t.Coherent) {e : Event} (he : e.apply t = .ok t') :
    t'.Coherent ∧ ∀ p, (t'.meta? p).isSome = (t.meta? p).isSome := by
  obtain ⟨calls, hcalls, _⟩ := Drives.is_run (e := (t, e)) ⟨rfl, he⟩
  exact h.run hcalls

/-- An access counts if its page is there. -/
theorem accesses_accessPage {latency : SizeT → OperationType → UInt64} {now : Nat}
    {mode : OperationType} (h : t.accessPage latency now p mode = .ok t') :
    t'.metrics.accesses = t.metrics.accesses + if (t.meta? p).isSome then 1 else 0 := by
  rcases accessPage_cases h with ⟨hnone, rfl⟩ | ⟨e, t₁, he, rfl, _⟩
  · rw [hnone]
    exact (UInt64.add_zero _).symm
  · have hm : t.meta? p = some e.metadata := by rw [meta?, he, Option.map_some]
    rw [hm]
    exact Metrics.accesses_incrementAccess _ _

/-- **No migration counts an access.** -/
theorem framed_accesses : Framed fun t t' => t'.metrics.accesses = t.metrics.accesses where
  refl _ := rfl
  trans h k := k.trans h
  store _ _ _ := rfl
  withRing _ _ := rfl
  settle _ _ _ _ _ := Metrics.accesses_incrementMigration _ _ _

theorem accesses_round {classification : Scanner.Classification} {evictNow now : Nat}
    (h : Scanner.round classification evictNow now t = .ok t') :
    t'.metrics.accesses = t.metrics.accesses := by
  cases hrequest : (Scanner.scan classification t).1 with
  | none =>
    rw [round_rests hrequest] at h
    cases h
    rfl
  | some r =>
    rw [round_migrates hrequest] at h
    obtain ⟨⟨exit, t₁⟩, hcall, h⟩ := bind_eq_ok.mp h
    cases h
    have haccesses := framed_accesses.migratePage hcall
    exact haccesses

end Table

end PageTable

/-! ## One message -/

namespace Server

/-- The access the message asks for counts. -/
def counts (s : Server) (msg : ClientMessage) : Bool :=
  msg.opType ≠ .endOp && (s.pageTable.meta? (s.pageIndex msg)).isSome

/-- What a server has become after it handled some messages. -/
structure Serves (s₀ : Server) (handled : List ClientMessage) (s : Server) : Prop where
  coherent : s.pageTable.Coherent
  pages : ∀ p, (s.pageTable.meta? p).isSome = (s₀.pageTable.meta? p).isSome
  bases : s.basePageId = s₀.basePageId
  clients : s.clientDoneFlags.length = s₀.clientDoneFlags.length
  done : ∀ i < s₀.clientDoneFlags.length, s.clientDoneFlags[i]? = some true ↔
    ∃ msg ∈ handled, msg.clientId = i ∧ msg.opType = .endOp
  shutdown : s.managerShutdownFlag = s.clientDoneFlags.all id
  counted : s.pageTable.metrics.accesses = s₀.pageTable.metrics.accesses +
    UInt64.ofNat (handled.countP s₀.counts)

section Messages

variable {s₀ s s' : Server} {handled : List ClientMessage} {msg : ClientMessage}
  {latency : SizeT → OperationType → UInt64} {now : Nat}

/-- A server that has just been made. -/
theorem serves_start {config : AcceptedConfig} {ring : Bool} {alloc : PageTable.Allocation}
    (start : Server.new config.clients config.server ring alloc = .ok s)
    (nonempty : config.clients ≠ []) :
    s.clientDoneFlags.length = config.clients.length ∧ s.pageTable.metrics.accesses = 0 ∧
      Serves s [] s := by
  obtain ⟨t, htable, hnew⟩ := bind_eq_ok.mp start
  cases hnew
  have hmetrics := (AcceptedConfig.initial htable).frame.metrics
  refine ⟨List.length_replicate, congrArg Metrics.accesses hmetrics, ?_⟩
  constructor
  case coherent => exact PageTable.coherent_of_start htable
  case pages => exact fun _ => rfl
  case bases => rfl
  case clients => rfl
  case done =>
    intro i _
    simp [List.getElem?_replicate]
  case shutdown =>
    cases hclients : config.clients with
    | nil => exact (nonempty hclients).elim
    | cons client clients => rfl
  case counted => exact (UInt64.add_zero _).symm

theorem Serves.counts_eq (h : Serves s₀ handled s) (msg : ClientMessage) :
    s.counts msg = s₀.counts msg := by
  unfold counts pageIndex
  rw [h.pages, h.bases]

/-- Every message is handled. -/
theorem Serves.returns (h : Serves s₀ handled s) (latency : SizeT → OperationType → UInt64)
    (now : Nat) (msg : ClientMessage) : ∃ s', s.handleClientMessage latency now msg = .ok s' := by
  unfold handleClientMessage
  split
  · exact ⟨_, rfl⟩
  · obtain ⟨t', hcall⟩ := h.coherent.access latency now (s.pageIndex msg) msg.opType
    exact ⟨{ s with pageTable := t' }, by rw [hcall]; rfl⟩

/-- A flag that is set leaves all flags set if they were. -/
theorem all_set_true {flags : List Bool} (i : Nat) (h : flags.all id = true) :
    (flags.set i true).all id = true := by
  rw [List.all_eq_true] at h ⊢
  intro flag hflag
  rcases List.mem_or_eq_of_mem_set hflag with hold | rfl
  · exact h flag hold
  · rfl

/-- The shutdown flag after a client's last message. -/
theorem Serves.handleClientMessage_end (h : Serves s₀ handled s) (hend : msg.opType = .endOp)
    (latency : SizeT → OperationType → UInt64) (now : Nat) :
    s.handleClientMessage latency now msg = .ok
      { s with
        clientDoneFlags := s.clientDoneFlags.set msg.clientId true
        managerShutdownFlag := (s.clientDoneFlags.set msg.clientId true).all id } := by
  unfold handleClientMessage signalShutdown
  rw [if_pos hend]
  dsimp only
  cases hall : (s.clientDoneFlags.set msg.clientId true).all id with
  | true => rfl
  | false =>
    have hflag : s.managerShutdownFlag = false := by
      rw [h.shutdown, Bool.eq_false_iff]
      intro hbefore
      rw [all_set_true _ hbefore] at hall
      cases hall
    rw [if_neg Bool.false_ne_true, hflag]

/-- A client's last message sets its flag, and the shutdown flag when it is the last of all. -/
theorem Serves.handle_end (h : Serves s₀ handled s) (hend : msg.opType = .endOp)
    (hcall : s.handleClientMessage latency now msg = .ok s') : Serves s₀ (handled ++ [msg]) s' := by
  rw [h.handleClientMessage_end hend] at hcall
  cases hcall
  constructor
  case coherent => exact h.coherent
  case pages => exact h.pages
  case bases => exact h.bases
  case clients =>
    rw [List.length_set]
    exact h.clients
  case done =>
    intro i hi
    have hdone := h.done i hi
    rw [← h.clients] at hi
    rw [List.getElem?_set]
    by_cases hid : msg.clientId = i
    · rw [if_pos hid, hid, if_pos hi]
      exact iff_of_true rfl ⟨msg, List.mem_append_right _ (List.mem_singleton_self msg), hid, hend⟩
    · rw [if_neg hid, hdone]
      simp [hid]
  case shutdown => rfl
  case counted =>
    have hno : s₀.counts msg = false := by simp [counts, hend]
    rw [List.countP_append, List.countP_singleton, hno]
    exact h.counted

/-- Any other message counts an access. -/
theorem Serves.handle_access (h : Serves s₀ handled s) (haccess : msg.opType ≠ .endOp)
    (hcall : s.handleClientMessage latency now msg = .ok s') : Serves s₀ (handled ++ [msg]) s' := by
  unfold handleClientMessage at hcall
  rw [if_neg haccess] at hcall
  obtain ⟨t', htable, hcall⟩ := bind_eq_ok.mp hcall
  cases hcall
  obtain ⟨hcoherent, hpages⟩ :=
    h.coherent.event (e := .access latency now (s.pageIndex msg) msg.opType) htable
  constructor
  case coherent => exact hcoherent
  case pages => exact fun p => (hpages p).trans (h.pages p)
  case bases => exact h.bases
  case clients => exact h.clients
  case done =>
    intro i hi
    rw [h.done i hi]
    simp [haccess]
  case shutdown => exact h.shutdown
  case counted =>
    have hcounts : s₀.counts msg = (s.pageTable.meta? (s.pageIndex msg)).isSome := by
      rw [← h.counts_eq]
      simp [counts, haccess]
    show t'.metrics.accesses = _
    rw [PageTable.accesses_accessPage htable, h.counted, List.countP_append, List.countP_singleton,
      hcounts, UInt64.ofNat_add, UInt64.add_assoc]
    split <;> rfl

/-- **The step lemma**: a message handled. -/
theorem Serves.handle (h : Serves s₀ handled s)
    (hcall : s.handleClientMessage latency now msg = .ok s') : Serves s₀ (handled ++ [msg]) s' := by
  by_cases hend : msg.opType = .endOp
  · exact h.handle_end hend hcall
  · exact h.handle_access hend hcall

/-- A round of the scanner changes nothing here. -/
theorem Serves.scan (h : Serves s₀ handled s) {classification : Scanner.Classification}
    {evictNow now : Nat} {t' : PageTable}
    (hround : Scanner.round classification evictNow now s.pageTable = .ok t') :
    Serves s₀ handled { s with pageTable := t' } := by
  obtain ⟨hcoherent, hpages⟩ := h.coherent.event (e := .round classification evictNow now) hround
  have hcounted := (PageTable.accesses_round hround).trans h.counted
  exact ⟨hcoherent, fun p => (hpages p).trans (h.pages p), h.bases, h.clients, h.done, h.shutdown,
    hcounted⟩

end Messages

end Server

end MemoryTiering
