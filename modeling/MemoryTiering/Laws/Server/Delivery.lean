import MemoryTiering.Laws.Server.Manager
import MemoryTiering.Lib.Delivery
import Mathlib.Algebra.BigOperators.Fin

/-!
# Delivery

The clients, the buffer and the manager are a network of producers around a bounded queue
(`Step.simulates`), so every client's messages arrive in order. A client's flag is set by its last
message (`Server.Serves`); once all are set nothing is on the way any more, and until then something
is. From these two the manager stops after the last message, and no earlier and no later
(`every_message_is_delivered`).
-/

set_option autoImplicit false

namespace MemoryTiering

open Transition

namespace RingBuffer

variable {α : Type} {b b' : RingBuffer α} {item : α}

theorem push_true (h : b.push item = (true, b')) :
    b.buf.length < b.capacity.toNat ∧ b'.capacity = b.capacity ∧ b'.buf = b.buf ++ [item] := by
  unfold push at h
  split at h
  next room => cases h; exact ⟨room, rfl, rfl⟩
  next => cases h

theorem push_false (h : b.push item = (false, b')) : b' = b := by
  unfold push at h
  split at h
  next => cases h
  next => cases h; rfl

theorem exists_push (h : b.buf.length < b.capacity.toNat) (item : α) :
    ∃ b', b.push item = (true, b') := by
  unfold push
  rw [dif_pos h]
  exact ⟨_, rfl⟩

theorem pop_some (h : b.pop = (some item, b')) :
    b'.capacity = b.capacity ∧ b.buf = item :: b'.buf := by
  unfold pop at h
  split at h
  next => cases h
  next hbuf => cases h; exact ⟨rfl, hbuf⟩

theorem pop_none (h : b.pop = (none, b')) : b' = b := by
  unfold pop at h
  split at h
  next => cases h; rfl
  next => cases h

theorem exists_pop {rest : List α} (h : b.buf = item :: rest) : ∃ b', b.pop = (some item, b') := by
  unfold pop
  split
  next hnil => rw [h] at hnil; cases hnil
  next hcons => rw [h] at hcons; cases hcons; exact ⟨_, rfl⟩

end RingBuffer

namespace System

/-! ## The network -/

/-- The messages the server handled, in order. -/
def handled (es : List Event) : List ClientMessage :=
  es.filterMap fun
    | .handled msg => some msg
    | _ => none

/-- The messages a client pushed, in order. -/
def pushed (i : Nat) (es : List Event) : List ClientMessage :=
  es.filterMap fun
    | .pushed j msg => if j = i then some msg else none
    | _ => none

/-- The clients around the buffer. -/
def network (s : System) : Delivery.Network Nat ClientMessage where
  unsent i := s.unsent[i]?.getD []
  queue := s.clientBuffer.buf

/-- What an event is to the network. -/
def Event.onNetwork : Event → List (Delivery.Event Nat ClientMessage)
  | .pushed i msg => [.send i msg]
  | .handled msg => [.receive msg]
  | .full _ => []
  | .idle => []
  | .scanned => []

section Network

variable {s s' : System} {e : Event} {es : List Event} {capacity : SizeT}

theorem received_onNetwork (es : List Event) :
    Delivery.received (es.flatMap Event.onNetwork) = handled es := by
  induction es with
  | nil => rfl
  | cons e es ih =>
    rw [List.flatMap_cons, Delivery.received, List.filterMap_append]
    cases e <;> exact congrArg _ ih

theorem sent_onNetwork (i : Nat) (es : List Event) :
    Delivery.sent i (es.flatMap Event.onNetwork) = pushed i es := by
  induction es with
  | nil => rfl
  | cons e es ih =>
    have hsplit : pushed i (e :: es) = pushed i [e] ++ pushed i es :=
      List.filterMap_append (l := [e])
    rw [List.flatMap_cons, Delivery.sent, List.filterMap_append, hsplit, ← ih]
    cases e <;> rfl

theorem unsent_set {i : Nat} {msg : ClientMessage} {rest : List ClientMessage}
    (next : s.unsent[i]? = some (msg :: rest)) :
    (fun j => (s.unsent.set i rest)[j]?.getD []) =
      Function.update (fun j => s.unsent[j]?.getD []) i rest := by
  funext j
  have hi : i < s.unsent.length := (List.getElem?_eq_some_iff.mp next).1
  rw [List.getElem?_set]
  by_cases hj : i = j
  · subst hj
    rw [if_pos rfl, if_pos hi, Function.update_self, Option.getD_some]
  · rw [if_neg hj, Function.update_of_ne (Ne.symm hj)]

/-- **Each step is a step of the network**, or does not touch it. -/
theorem Step.simulates (h : Step s e s') (hcapacity : s.clientBuffer.capacity = capacity) :
    Trace (Delivery.Step capacity.toNat) s.network e.onNetwork s'.network ∧
      s'.clientBuffer.capacity = capacity := by
  subst hcapacity
  cases h with
  | @pushed i msg rest buffer next push =>
    obtain ⟨room, hcap, hbuf⟩ := RingBuffer.push_true push
    have hsend : Delivery.Step s.clientBuffer.capacity.toNat s.network (.send i msg)
        ⟨Function.update s.network.unsent i rest, s.network.queue ++ [msg]⟩ :=
      .send (congrArg (·.getD []) next) room
    have hafter : network ⟨buffer, s.server, s.unsent.set i rest⟩ =
        ⟨Function.update s.network.unsent i rest, s.network.queue ++ [msg]⟩ := by
      unfold network
      rw [unsent_set next, hbuf]
    rw [hafter]
    exact ⟨Trace.single.mpr hsend, hcap⟩
  | full next push =>
    rw [RingBuffer.push_false push]
    exact ⟨.nil _, rfl⟩
  | @handled latency now msg buffer server running pop handle =>
    obtain ⟨hcap, hbuf⟩ := RingBuffer.pop_some pop
    exact ⟨Trace.single.mpr (.receive hbuf), hcap⟩
  | idle running pop =>
    rw [RingBuffer.pop_none pop]
    exact ⟨.nil _, rfl⟩
  | scanned round => exact ⟨.nil _, rfl⟩

/-- A run on the network. -/
theorem run_on_network (run : Trace Step s es s') (hcapacity : s.clientBuffer.capacity = capacity) :
    Trace (Delivery.Step capacity.toNat) s.network (es.flatMap Event.onNetwork) s'.network ∧
      s'.clientBuffer.capacity = capacity := by
  obtain ⟨n, hrun, hnetwork, hcap⟩ := run.simulate
    (R := fun s n => s.network = n ∧ s.clientBuffer.capacity = capacity) Event.onNetwork
    (fun s e s' n hR hstep => by
      obtain ⟨rfl, hcap⟩ := hR
      obtain ⟨htrace, hcap'⟩ := hstep.simulates hcap
      exact ⟨_, htrace, rfl, hcap'⟩) ⟨rfl, hcapacity⟩
  subst hnetwork
  exact ⟨hrun, hcap⟩

/-- The server along a run. -/
theorem serves_of_run {server : Server} (run : Trace Step s es s')
    (start : server.Serves [] s.server) : server.Serves (handled es) s'.server := by
  have hstart : server.Serves (handled []) s.server := start
  apply run.invariant_with (P := fun es s => server.Serves (handled es) s.server) _ hstart
  intro es s e s' h hstep
  have hsplit : handled (es ++ [e]) = handled es ++ handled [e] := List.filterMap_append
  rw [hsplit]
  cases hstep with
  | pushed next push => exact (List.append_nil _).symm ▸ h
  | full next push => exact (List.append_nil _).symm ▸ h
  | handled running pop handle => exact h.handle handle
  | idle running pop => exact (List.append_nil _).symm ▸ h
  | scanned round => exact (List.append_nil _).symm ▸ h.scan round

end Network

/-! ## Streams -/

section Streams

variable {server : Server} {bufferSize : SizeT} {requests : List (List Request)} {es : List Event}
  {s : System} {i : Nat} {rs : List Request} {msg : ClientMessage}

theorem clientId_of_mem_messages (h : msg ∈ Client.messages i rs) : msg.clientId = i := by
  rcases List.mem_append.mp h with hmap | hend
  · obtain ⟨request, _, rfl⟩ := List.mem_map.mp hmap
    rfl
  · rw [List.mem_singleton.mp hend]
    rfl

/-- A client's last message is the only one that says `END`. -/
theorem end_of_mem_messages (h : msg ∈ Client.messages i rs) (hend : msg.opType = .endOp) :
    msg = Client.endMessage i := by
  rcases List.mem_append.mp h with hmap | hlast
  · obtain ⟨request, _, rfl⟩ := List.mem_map.mp hmap
    exact (request.access hend).elim
  · exact List.mem_singleton.mp hlast

theorem endMessage_fresh (i : Nat) (rs : List Request) :
    Client.endMessage i ∉ rs.map (Client.message i) := by
  intro hmem
  obtain ⟨request, _, heq⟩ := List.mem_map.mp hmem
  exact request.access (congrArg ClientMessage.opType heq)

theorem countP_messages (i : Nat) (rs : List Request) :
    (Client.messages i rs).countP (fun msg => msg.opType ≠ .endOp) = rs.length := by
  have hrequests : (rs.map (Client.message i)).countP (fun msg => msg.opType ≠ .endOp) =
      (rs.map (Client.message i)).length := by
    apply List.countP_eq_length.mpr
    intro msg hmsg
    obtain ⟨request, _, rfl⟩ := List.mem_map.mp hmsg
    exact decide_eq_true request.access
  rw [Client.messages, List.countP_append, hrequests, List.length_map]
  rfl

/-- What is on the way before the first step: everything. -/
theorem stream_start (server : Server) (bufferSize : SizeT) (requests : List (List Request))
    (i : Nat) :
    Delivery.stream ClientMessage.clientId (start server bufferSize requests).network i =
      (requests[i]?.map (Client.messages i)).getD [] := by
  show [] ++ (requests.mapIdx Client.messages)[i]?.getD [] = _
  rw [List.nil_append, List.getElem?_mapIdx]

theorem signed_start (server : Server) (bufferSize : SizeT) (requests : List (List Request)) :
    Delivery.Signed ClientMessage.clientId (start server bufferSize requests).network := by
  intro i msg hmsg
  change msg ∈ (requests.mapIdx Client.messages)[i]?.getD [] at hmsg
  rw [List.getElem?_mapIdx] at hmsg
  cases hrs : requests[i]? with
  | none =>
    rw [hrs] at hmsg
    cases hmsg
  | some rs =>
    rw [hrs] at hmsg
    exact clientId_of_mem_messages hmsg

/-- **In order, none lost, none twice**: a client's messages are the ones handled and then the ones
on the way. -/
theorem messages_eq (run : Trace Step (start server bufferSize requests) es s) (i : Nat) :
    (requests[i]?.map (Client.messages i)).getD [] =
      (handled es).filter (fun msg => msg.clientId = i) ++
        Delivery.stream ClientMessage.clientId s.network i := by
  obtain ⟨hrun, _⟩ := run_on_network run rfl
  rw [← stream_start server bufferSize, ← received_onNetwork]
  exact Delivery.stream_of_run hrun (signed_start server bufferSize requests) i

theorem pushed_eq (run : Trace Step (start server bufferSize requests) es s) (i : Nat) :
    (requests[i]?.map (Client.messages i)).getD [] = pushed i es ++ s.network.unsent i := by
  obtain ⟨hrun, _⟩ := run_on_network run rfl
  rw [← stream_start server bufferSize, ← sent_onNetwork]
  exact Delivery.unsent_of_run hrun i

/-- An `END` that was handled is its client's last message. -/
theorem endMessage_of_handled (run : Trace Step (start server bufferSize requests) es s)
    (h : ∃ msg ∈ handled es, msg.clientId = i ∧ msg.opType = .endOp) :
    Client.endMessage i ∈ handled es := by
  obtain ⟨msg, hmsg, rfl, hend⟩ := h
  have hmem : msg ∈ (requests[msg.clientId]?.map (Client.messages msg.clientId)).getD [] := by
    rw [messages_eq run]
    exact List.mem_append_left _ (List.mem_filter.mpr ⟨hmsg, by simp⟩)
  cases hrs : requests[msg.clientId]? with
  | none =>
    rw [hrs] at hmem
    cases hmem
  | some rs =>
    rw [hrs] at hmem
    rw [← end_of_mem_messages hmem hend]
    exact hmsg

/-- A client whose last message was handled has nothing on the way. -/
theorem stream_eq_nil (run : Trace Step (start server bufferSize requests) es s)
    (hrs : requests[i]? = some rs) (hend : Client.endMessage i ∈ handled es) :
    Delivery.stream ClientMessage.clientId s.network i = [] := by
  obtain ⟨hrun, _⟩ := run_on_network run rfl
  have hstream := stream_start server bufferSize requests i
  rw [hrs] at hstream
  rw [← received_onNetwork] at hend
  exact (Delivery.closed_of_run hrun (signed_start server bufferSize requests) hstream
    (endMessage_fresh i rs) rfl hend).1

/-- A client that was never there has nothing on the way. -/
theorem stream_eq_nil_of_none (run : Trace Step (start server bufferSize requests) es s)
    (hrs : requests[i]? = none) : Delivery.stream ClientMessage.clientId s.network i = [] := by
  have hall := messages_eq run i
  rw [hrs] at hall
  exact (List.append_eq_nil_iff.mp hall.symm).2

end Streams

/-! ## The law -/

/-- What a run delivers. -/
structure Delivers (server : Server) (requests : List (List Request)) (es : List Event)
    (s : System) : Prop where
  /-- The manager stops after every client's last message. -/
  not_early : s.server.managerShutdownFlag = true →
    ∀ i < requests.length, Client.endMessage i ∈ handled es
  /-- Until it does, a push succeeds or a message is popped and handled. -/
  not_stuck : s.server.managerShutdownFlag = false →
    (∃ i msg s', Step s (.pushed i msg) s') ∨ ∃ msg s', Step s (.handled msg) s'
  /-- When it has, the buffer is empty, and what it handled of each client is what that client
  pushed, which is all it had to push. -/
  complete : s.server.managerShutdownFlag = true → s.clientBuffer.buf = [] ∧
    ∀ i, (handled es).filter (fun msg => msg.clientId = i) = pushed i es ∧
      pushed i es = (requests[i]?.map (Client.messages i)).getD []
  /-- Then every request has counted as an access, if its page is in the table. -/
  counted : s.server.managerShutdownFlag = true →
    (∀ msg ∈ handled es, msg.opType ≠ .endOp →
      (server.pageTable.meta? (server.pageIndex msg)).isSome = true) →
    s.server.pageTable.metrics.accesses = UInt64.ofNat (requests.map List.length).sum

section Law

variable {server : Server} {bufferSize : SizeT} {requests : List (List Request)} {es : List Event}
  {s : System}

/-- The shutdown flag says that every client is done. -/
theorem ended_of_shutdown (serves : server.Serves (handled es) s.server)
    (clients : server.clientDoneFlags.length = requests.length)
    (run : Trace Step (start server bufferSize requests) es s)
    (h : s.server.managerShutdownFlag = true) {i : Nat} (hi : i < requests.length) :
    Client.endMessage i ∈ handled es := by
  rw [serves.shutdown, List.all_eq_true] at h
  rw [← clients] at hi
  have hflag : i < s.server.clientDoneFlags.length := by rw [serves.clients]; exact hi
  apply endMessage_of_handled run
  rw [← serves.done i hi, List.getElem?_eq_getElem hflag, Option.some.injEq]
  exact h _ (List.getElem_mem hflag)

/-- A client that is not done has something on the way. -/
theorem exists_stream_of_running (serves : server.Serves (handled es) s.server)
    (clients : server.clientDoneFlags.length = requests.length)
    (run : Trace Step (start server bufferSize requests) es s)
    (h : s.server.managerShutdownFlag = false) :
    ∃ i, Delivery.stream ClientMessage.clientId s.network i ≠ [] := by
  rw [serves.shutdown, List.all_eq_false] at h
  obtain ⟨flag, hmem, hflag⟩ := h
  obtain ⟨i, hi, rfl⟩ := List.getElem_of_mem hmem
  have hi₀ : i < server.clientDoneFlags.length := by rw [← serves.clients]; exact hi
  exists i
  intro hnil
  apply hflag
  have hrs : requests[i]? = some requests[i] :=
    List.getElem?_eq_getElem (by rw [← clients]; exact hi₀)
  have hall := messages_eq run i
  rw [hrs, hnil, List.append_nil] at hall
  have hend : Client.endMessage i ∈ (handled es).filter fun msg => msg.clientId = i := by
    rw [← hall]
    exact List.mem_append_right _ (List.mem_singleton_self _)
  have hdone := (serves.done i hi₀).mpr ⟨_, (List.mem_filter.mp hend).1, rfl, rfl⟩
  rw [List.getElem?_eq_getElem hi, Option.some.injEq] at hdone
  exact hdone

/-- A step of the network is a push or a message handled. -/
theorem exists_event (serves : server.Serves (handled es) s.server)
    (running : s.server.managerShutdownFlag = false) {e : Delivery.Event Nat ClientMessage}
    {n : Delivery.Network Nat ClientMessage}
    (h : Delivery.Step s.clientBuffer.capacity.toNat s.network e n) :
    (∃ i msg s', Step s (.pushed i msg) s') ∨ ∃ msg s', Step s (.handled msg) s' := by
  cases h with
  | @send i msg rest next room =>
    obtain ⟨buffer, hpush⟩ := RingBuffer.exists_push room msg
    have hnext : s.unsent[i]? = some (msg :: rest) := by
      change s.unsent[i]?.getD [] = msg :: rest at next
      cases hunsent : s.unsent[i]? with
      | none => rw [hunsent] at next; cases next
      | some l => rw [hunsent] at next; exact congrArg some next
    exact .inl ⟨i, msg, _, .pushed hnext hpush⟩
  | @receive msg rest front =>
    obtain ⟨buffer, hpop⟩ := RingBuffer.exists_pop front
    obtain ⟨server', hhandle⟩ := serves.returns (fun _ _ => 0) 0 msg
    exact .inr ⟨msg, _, .handled running hpop hhandle⟩

/-- What was handled asks for as many accesses as the clients made requests. -/
theorem countP_handled (run : Trace Step (start server bufferSize requests) es s)
    (h : ∀ i, Delivery.stream ClientMessage.clientId s.network i = []) :
    (handled es).countP (fun msg => msg.opType ≠ .endOp) = (requests.map List.length).sum := by
  have hall : ∀ i, (handled es).filter (fun msg => msg.clientId = i) =
      (requests[i]?.map (Client.messages i)).getD [] := by
    intro i
    rw [messages_eq run, h, List.append_nil]
  have hclients : ∀ msg ∈ handled es, msg.clientId ∈ Finset.range requests.length := by
    intro msg hmsg
    have hmem : msg ∈ (handled es).filter fun msg' => msg'.clientId = msg.clientId :=
      List.mem_filter.mpr ⟨hmsg, by simp⟩
    rw [Finset.mem_range]
    by_contra hout
    rw [hall, List.getElem?_eq_none (Nat.le_of_not_lt hout)] at hmem
    cases hmem
  rw [Delivery.countP_eq_sum ClientMessage.clientId _ _ hclients, Finset.sum_range,
    ← Fin.sum_univ_fun_getElem]
  apply Finset.sum_congr rfl
  intro i _
  rw [hall, List.getElem?_eq_getElem i.isLt]
  exact countP_messages _ _

/-- **Delivery**, over every interleaving of the clients, the manager and the scanner. -/
theorem every_message_is_delivered {config : AcceptedConfig} {useCacheRing : Bool}
    {alloc : PageTable.Allocation}
    (made : Server.new config.clients config.server useCacheRing alloc = .ok server)
    (clients : requests.length = config.clients.length) (nonempty : config.clients ≠ [])
    (room : bufferSize ≠ 0) (run : Trace Step (start server bufferSize requests) es s) :
    Delivers server requests es s := by
  obtain ⟨hflags, hzero, hserves⟩ := Server.serves_start made nonempty
  have hlength : server.clientDoneFlags.length = requests.length := hflags.trans clients.symm
  have serves := serves_of_run run hserves
  have hempty : s.server.managerShutdownFlag = true →
      ∀ i, Delivery.stream ClientMessage.clientId s.network i = [] := by
    intro hdown i
    cases hrs : requests[i]? with
    | none => exact stream_eq_nil_of_none run hrs
    | some rs =>
      have hi := (List.getElem?_eq_some_iff.mp hrs).1
      exact stream_eq_nil run hrs (ended_of_shutdown serves hlength run hdown hi)
  constructor
  case not_early =>
    intro hdown i hi
    exact ended_of_shutdown serves hlength run hdown hi
  case not_stuck =>
    intro hrunning
    obtain ⟨i, hi⟩ := exists_stream_of_running serves hlength run hrunning
    have hcapacity := (run_on_network run rfl).2
    have hroom : 0 < s.clientBuffer.capacity.toNat := by
      rw [hcapacity]
      exact Nat.pos_of_ne_zero fun hzero => room (UInt64.toNat_inj.mp hzero)
    obtain ⟨e, n, hstep⟩ := Delivery.exists_step hroom hi
    exact exists_event serves hrunning hstep
  case complete =>
    intro hdown
    refine ⟨Delivery.queue_eq_nil (hempty hdown), ?_⟩
    intro i
    have hunsent : s.network.unsent i = [] := (List.append_eq_nil_iff.mp (hempty hdown i)).2
    have hpushed := pushed_eq run i
    have hhandled := messages_eq run i
    rw [hunsent, List.append_nil] at hpushed
    rw [hempty hdown i, List.append_nil] at hhandled
    exact ⟨hhandled.symm.trans hpushed, hpushed.symm⟩
  case counted =>
    intro hdown hpages
    rw [serves.counted, hzero, UInt64.zero_add, ← countP_handled run (hempty hdown)]
    congr 1
    apply List.countP_congr
    intro msg hmsg
    simp only [Server.counts, Bool.and_eq_true, decide_eq_true_eq]
    constructor
    · exact And.left
    · intro haccess
      exact ⟨haccess, hpages msg hmsg haccess⟩

/-- A client that reads one page through a buffer for one message, and the manager stopping. -/
theorem small_delivery : ∃ server s,
    Server.new (smallConfig 1 1 (by decide)).clients (smallConfig 1 1 (by decide)).server true
      plainAllocation = .ok server ∧
    s.server.managerShutdownFlag = true ∧ s.server.pageTable.metrics.accesses = 1 ∧
    Delivers server [[⟨0, .read, by decide⟩]] [.idle, .pushed 0 ⟨0, 0, 0, .read⟩, .full 0,
      .handled ⟨0, 0, 0, .read⟩, .pushed 0 (Client.endMessage 0), .handled (Client.endMessage 0)]
      s := by
  have hrun : ∃ server s, Server.new (smallConfig 1 1 (by decide)).clients
      (smallConfig 1 1 (by decide)).server true plainAllocation = .ok server ∧
      Trace Step (start server 1 [[⟨0, .read, by decide⟩]]) [.idle, .pushed 0 ⟨0, 0, 0, .read⟩,
        .full 0, .handled ⟨0, 0, 0, .read⟩, .pushed 0 (Client.endMessage 0),
        .handled (Client.endMessage 0)] s ∧
      s.server.managerShutdownFlag = true ∧ s.server.pageTable.metrics.accesses = 1 :=
    ⟨_, _, rfl, .cons (.idle rfl rfl) (.cons (.pushed rfl rfl) (.cons (.full rfl rfl)
      (.cons (@Step.handled _ (fun _ _ => 0) 0 _ _ _ rfl rfl rfl)
        (.cons (.pushed rfl rfl) (.cons (@Step.handled _ (fun _ _ => 0) 0 _ _ _ rfl rfl rfl)
          (.nil _)))))), rfl, rfl⟩
  obtain ⟨server, s, made, run, hdown, haccesses⟩ := hrun
  exact ⟨server, s, made, hdown, haccesses,
    every_message_is_delivered made rfl nofun (by decide) run⟩

end Law

end System

end MemoryTiering
