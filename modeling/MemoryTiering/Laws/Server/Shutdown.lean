import MemoryTiering.Laws.Server.Delivery
import MemoryTiering.Shutdown

/-!
# The server stops

What the loops do to the clients and the server is a run of the system (`Service.Step.settles`), in
which the manager's flag goes up when the last `END` is handled. A loop that looks at its flag after
that stops, and one that is in its work looks at it next: five steps are left at most, and where no
step is left every thread has stopped (`server_shuts_down`).
-/

set_option autoImplicit false

namespace MemoryTiering

open Fallible Transition

/-- Without a ring a round returns. -/
theorem PageTable.round_ringless {t : PageTable} (hring : t.localCacheRing = none)
    (classification : Scanner.Classification) (evictNow now : Nat) :
    ∃ t', Scanner.round classification evictNow now t = .ok t' ∧ t'.localCacheRing = none := by
  have hscanned : t.scanNext.2.localCacheRing = none := hring
  cases hrequest : (Scanner.scan classification t).1 with
  | none => exact ⟨_, round_rests hrequest, hscanned⟩
  | some request =>
    obtain ⟨exit, t', hcall, hring', _⟩ :=
      migratePage_ringless hscanned evictNow now request.1 request.2
    exact ⟨t', by rw [round_migrates hrequest, hcall, ok_bind], hring'⟩

/-- No event gives a server without a ring one. -/
theorem System.ringless_of_run {s s' : System} {es : List System.Event}
    (hring : s.server.pageTable.localCacheRing = none) (run : Trace System.Step s es s') :
    s'.server.pageTable.localCacheRing = none := by
  apply run.invariant (P := fun s => s.server.pageTable.localCacheRing = none) _ hring
  intro s e s' hring hstep
  cases hstep with
  | pushed | full | idle => exact hring
  | @handled latency now msg buffer server running pop handle =>
    unfold Server.handleClientMessage at handle
    split at handle
    · cases handle
      split <;> exact hring
    · obtain ⟨t', htable, handle⟩ := bind_eq_ok.mp handle
      cases handle
      obtain ⟨t₁, hcall, hring₁, _⟩ := PageTable.apply_ringless hring
        (.accessPage latency now (s.server.pageIndex msg) msg.opType)
      have heq : t' = t₁ := Except.ok.inj (htable.symm.trans hcall)
      exact heq ▸ hring₁
  | @scanned classification evictNow now t' round =>
    obtain ⟨t₁, hround, hring₁⟩ := PageTable.round_ringless hring classification evictNow now
    have heq : t' = t₁ := Except.ok.inj (round.symm.trans hround)
    exact heq ▸ hring₁

/-- A client tried to push. -/
def System.Event.ofClient : System.Event → Bool
  | .pushed .. | .full _ => true
  | .handled _ | .idle | .scanned => false

namespace Service

/-- The system as it is once a signal that was begun is complete. -/
def settled (s : Service) : System :=
  if s.manager = .signals then { s.system with server := s.system.server.signalShutdown }
  else s.system

/-- What the loops keep of the flags. -/
structure Signalled (s : Service) : Prop where
  works : s.manager = .works → s.shouldShutdown = false
  signals : s.manager = .signals → s.shouldShutdown = false ∧ s.scannerShutdownFlag = true
  stopped : s.manager = .stopped → s.shouldShutdown = true
  scanner : s.scannerShutdownFlag = true ↔ s.manager = .signals ∨ s.shouldShutdown = true
  scannerStopped : s.scanner = .stopped → s.scannerShutdownFlag = true
  reportStopped : s.report = .stopped → s.shouldShutdown = true

section Steps

variable {s s' : Service} {e : Option System.Event}

/-- A client's step does not look at the server. -/
theorem client_step {system system' : System} {event : System.Event} (server : Server)
    (client : event.ofClient = true) (h : System.Step system event system') :
    System.Step { system with server } event { system' with server } ∧
      system'.server = system.server := by
  cases h with
  | pushed next push => exact ⟨.pushed next push, rfl⟩
  | full next push => exact ⟨.full next push, rfl⟩
  | handled => cases client
  | idle => cases client
  | scanned => cases client

theorem settled_eq (h : s.manager ≠ .signals) : s.settled = s.system := if_neg h

theorem settled_signals (h : s.manager = .signals) :
    s.settled = { s.system with server := s.system.server.signalShutdown } := if_pos h

/-- What no flag and no loop sees. -/
theorem Signalled.congr (h : Signalled s) (down : s'.shouldShutdown = s.shouldShutdown)
    (flag : s'.scannerShutdownFlag = s.scannerShutdownFlag) (manager : s'.manager = s.manager)
    (scanner : s'.scanner = s.scanner) (report : s'.report = s.report) : Signalled s' := by
  constructor
  case works => simpa only [manager, down] using h.works
  case signals => simpa only [manager, down, flag] using h.signals
  case stopped => simpa only [manager, down] using h.stopped
  case scanner => simpa only [manager, down, flag] using h.scanner
  case scannerStopped => simpa only [scanner, flag] using h.scannerStopped
  case reportStopped => simpa only [report, down] using h.reportStopped

/-- While the manager works, no flag is up. -/
theorem Signalled.flag_of_works (h : Signalled s) (works : s.manager = .works) :
    s.scannerShutdownFlag = false := by
  rw [Bool.eq_false_iff]
  intro hup
  rcases h.scanner.mp hup with hsignals | hflag
  · rw [works] at hsignals
    cases hsignals
  · rw [h.works works] at hflag
    cases hflag

/-- The manager looks at its flag again, which is still down. -/
theorem Signalled.checksAgain (h : Signalled s) (works : s.manager = .works)
    (down : s'.shouldShutdown = s.shouldShutdown)
    (flag : s'.scannerShutdownFlag = s.scannerShutdownFlag) (manager : s'.manager = .checks)
    (scanner : s'.scanner = s.scanner) (report : s'.report = s.report) : Signalled s' := by
  have hdown : s'.shouldShutdown = false := down.trans (h.works works)
  have hflag : s'.scannerShutdownFlag = false := flag.trans (h.flag_of_works works)
  constructor
  case works => exact fun _ => hdown
  case signals => simp [manager]
  case stopped => simp [manager]
  case scanner => simp [manager, hdown, hflag]
  case scannerStopped =>
    rw [scanner, flag]
    exact h.scannerStopped
  case reportStopped =>
    rw [report, down]
    exact h.reportStopped

/-- **A message handled**: the scanner's flag goes up when it is the last `END`. -/
theorem Signalled.handle {latency : SizeT → OperationType → UInt64} {now : Nat}
    {msg : ClientMessage} (h : Signalled s) (works : s.manager = .works)
    (call : handleClientMessage latency now s msg = .ok s') :
    (∃ server, s.system.server.handleClientMessage latency now msg = .ok server ∧
      s'.settled = { s.system with server }) ∧ Signalled s' := by
  have hdown : s.shouldShutdown = false := h.works works
  unfold handleClientMessage at call
  unfold Server.handleClientMessage
  by_cases hend : msg.opType = .endOp
  · rw [if_pos hend] at call ⊢
    dsimp only at call ⊢
    cases hall : (s.system.server.clientDoneFlags.set msg.clientId true).all id with
    | true =>
      rw [hall] at call
      cases call
      refine ⟨⟨_, rfl, rfl⟩, nofun, fun _ => ⟨hdown, rfl⟩, nofun, iff_of_true rfl (.inl rfl),
        fun _ => rfl, fun hstopped => ?_⟩
      exact (Bool.false_ne_true (hdown.symm.trans (h.reportStopped hstopped))).elim
    | false =>
      rw [hall] at call
      cases call
      exact ⟨⟨_, rfl, rfl⟩, h.checksAgain works rfl rfl rfl rfl rfl⟩
  · rw [if_neg hend] at call ⊢
    obtain ⟨t', htable, call⟩ := bind_eq_ok.mp call
    cases call
    exact ⟨⟨_, by rw [htable]; rfl, rfl⟩, h.checksAgain works rfl rfl rfl rfl rfl⟩

/-- A client's step does not see the signal under way. -/
theorem settled_client {event : System.Event} {system : System} (client : event.ofClient = true)
    (step : System.Step s.system event system) :
    System.Step s.settled event (settled { s with system }) ∧
      system.server = s.system.server := by
  obtain ⟨h, hserver⟩ := client_step s.system.server.signalShutdown client step
  refine ⟨?_, hserver⟩
  by_cases hsignals : s.manager = .signals
  · have hafter : settled { s with system } =
        { system with server := system.server.signalShutdown } := settled_signals hsignals
    rw [settled_signals hsignals, hafter, hserver]
    exact h
  · have hafter : settled { s with system } = system := settled_eq hsignals
    rw [settled_eq hsignals, hafter]
    exact step

/-- Nor does the scanner. -/
theorem settled_scan {classification : Scanner.Classification} {evictNow now : Nat}
    {pageTable : PageTable}
    (round : Scanner.round classification evictNow now s.system.server.pageTable = .ok pageTable) :
    System.Step s.settled .scanned (s.withPageTable pageTable).settled := by
  by_cases hsignals : s.manager = .signals
  · have hsignals' : (s.withPageTable pageTable).manager = .signals := hsignals
    rw [settled_signals hsignals, settled_signals hsignals']
    exact .scanned round
  · have hplain : (s.withPageTable pageTable).manager ≠ .signals := hsignals
    rw [settled_eq hsignals, settled_eq hplain]
    exact .scanned round

/-- **The step lemma**: a step is a step of the system, or nothing to it. -/
theorem Signalled.step (h : Signalled s) (hstep : Step s e s') :
    Trace System.Step s.settled e.toList s'.settled ∧ Signalled s' := by
  cases hstep with
  | pushed push =>
    obtain ⟨hsystem, hserver⟩ := settled_client rfl push
    exact ⟨Trace.single.mpr hsystem,
      h.congr (congrArg Server.managerShutdownFlag hserver) rfl rfl rfl rfl⟩
  | full push =>
    obtain ⟨hsystem, hserver⟩ := settled_client rfl push
    exact ⟨Trace.single.mpr hsystem,
      h.congr (congrArg Server.managerShutdownFlag hserver) rfl rfl rfl rfl⟩
  | managerStops checks flag =>
    have hscanner : s.scannerShutdownFlag = true := h.scanner.mpr (.inr flag)
    rw [settled_eq (by simp [checks]), settled_eq (by simp)]
    exact ⟨.nil _, nofun, nofun, fun _ => flag, iff_of_true hscanner (.inr flag),
      h.scannerStopped, h.reportStopped⟩
  | managerGoesOn checks flag =>
    have hscanner : ¬ s.scannerShutdownFlag = true := by
      intro hup
      rcases h.scanner.mp hup with hsignals | hdown
      · rw [checks] at hsignals
        cases hsignals
      · rw [flag] at hdown
        cases hdown
    rw [settled_eq (by simp [checks]), settled_eq (by simp)]
    refine ⟨.nil _, fun _ => flag, nofun, nofun, iff_of_false hscanner ?_, h.scannerStopped,
      h.reportStopped⟩
    rintro (hsignals | hdown)
    · cases hsignals
    · exact Bool.false_ne_true (flag.symm.trans hdown)
  | managerIdles works pop =>
    rw [settled_eq (by simp [works]), settled_eq (by simp)]
    exact ⟨Trace.single.mpr (.idle (h.works works) pop), h.checksAgain works rfl rfl rfl rfl rfl⟩
  | @managerHandles latency now msg buffer s' works pop handle =>
    have hpopped : Signalled { s with system := { s.system with clientBuffer := buffer } } :=
      h.congr rfl rfl rfl rfl rfl
    obtain ⟨⟨server, hserver, hsettled⟩, hs'⟩ := hpopped.handle works handle
    rw [settled_eq (by simp [works]), hsettled]
    exact ⟨Trace.single.mpr (.handled (h.works works) pop hserver), hs'⟩
  | managerSignals signals =>
    rw [settled_signals signals, settled_eq (by simp)]
    exact ⟨.nil _, nofun, nofun, nofun, iff_of_true (h.signals signals).2 (.inr rfl),
      h.scannerStopped, fun _ => rfl⟩
  | scannerStops checks flag =>
    exact ⟨.nil _, h.works, h.signals, h.stopped, h.scanner, fun _ => flag, h.reportStopped⟩
  | scannerGoesOn checks flag =>
    exact ⟨.nil _, h.works, h.signals, h.stopped, h.scanner, nofun, h.reportStopped⟩
  | scans works round =>
    exact ⟨Trace.single.mpr (settled_scan round), h.works, h.signals, h.stopped, h.scanner, nofun,
      h.reportStopped⟩
  | reportStops checks flag =>
    exact ⟨.nil _, h.works, h.signals, h.stopped, h.scanner, h.scannerStopped, fun _ => flag⟩
  | reportGoesOn checks flag =>
    exact ⟨.nil _, h.works, h.signals, h.stopped, h.scanner, h.scannerStopped, nofun⟩
  | reports works =>
    exact ⟨.nil _, h.works, h.signals, h.stopped, h.scanner, h.scannerStopped, nofun⟩

/-- **The run lemma.** -/
theorem Signalled.run {es : List (Option System.Event)} (h : Signalled s)
    (run : Trace Step s es s') :
    Trace System.Step s.settled (es.flatMap Option.toList) s'.settled ∧ Signalled s' := by
  obtain ⟨system, hsystem, rfl, hs'⟩ := run.simulate
    (R := fun s system => s.settled = system ∧ Signalled s) Option.toList
    (fun s e s' system hR hstep => by
      obtain ⟨rfl, h⟩ := hR
      obtain ⟨hsystem, hs'⟩ := h.step hstep
      exact ⟨_, hsystem, rfl, hs'⟩) ⟨rfl, h⟩
  exact ⟨hsystem, hs'⟩

/-- A signal that was begun counts as given. -/
theorem Signalled.settled_flag (h : Signalled s) :
    s.settled.server.managerShutdownFlag = s.scannerShutdownFlag := by
  rw [Bool.eq_iff_iff, h.scanner]
  by_cases hsignals : s.manager = .signals
  · rw [settled_signals hsignals]
    exact iff_of_true rfl (.inl hsignals)
  · rw [settled_eq hsignals]
    exact ⟨.inr, fun hor => hor.resolve_left hsignals⟩

/-! ## The steps that are left -/

end Steps

end Service

/-- The steps a loop has left when its flag is up. -/
def ManagerLoop.left : ManagerLoop → Nat
  | .checks => 1
  | .works | .signals => 2
  | .stopped => 0

def Loop.left : Loop → Nat
  | .checks => 1
  | .works => 2
  | .stopped => 0

theorem Loop.left_le (loop : Loop) : loop.left ≤ 2 := by
  cases loop <;> decide

namespace Service

/-- The steps the three loops have left. -/
def left (s : Service) : Nat := s.manager.left + s.scanner.left + s.report.left

section Left

variable {s s' : Service} {e : Option System.Event}

/-- The signal was given, and the clients have nothing to push. -/
structure Closing (s : Service) : Prop where
  signalled : Signalled s
  down : s.shouldShutdown = true
  unsent : ∀ i : Nat, s.system.unsent[i]?.getD [] = []

theorem Closing.left_le (h : Closing s) : s.left ≤ 5 := by
  have hmanager : s.manager.left ≤ 1 := by
    cases hloop : s.manager with
    | checks => exact Nat.le_refl _
    | works =>
      have := h.signalled.works hloop
      rw [h.down] at this
      cases this
    | signals =>
      have := (h.signalled.signals hloop).1
      rw [h.down] at this
      cases this
    | stopped => exact Nat.zero_le _
  have hscanner := s.scanner.left_le
  have hreport := s.report.left_le
  unfold left
  omega

/-- **Each step is one of those that are left.** -/
theorem Closing.step (h : Closing s) (hstep : Step s e s') : Closing s' ∧ 1 + s'.left ≤ s.left := by
  have hsignalled := (h.signalled.step hstep).2
  have hdown := h.down
  have hflag : s.scannerShutdownFlag = true := h.signalled.scanner.mpr (.inr hdown)
  have client : ∀ {i : Nat} {msg rest}, s.system.unsent[i]? = some (msg :: rest) → False := by
    intro i msg rest next
    have hnil := h.unsent i
    rw [next] at hnil
    cases hnil
  cases hstep with
  | pushed push =>
    cases push with
    | pushed next => exact (client next).elim
  | full push =>
    cases push with
    | full next => exact (client next).elim
  | managerStops checks flag =>
    refine ⟨⟨hsignalled, hdown, h.unsent⟩, ?_⟩
    simp only [left, checks, ManagerLoop.left]
    omega
  | managerGoesOn checks flag =>
    rw [hdown] at flag
    cases flag
  | managerIdles works =>
    rw [h.signalled.works works] at hdown
    cases hdown
  | managerHandles works =>
    rw [h.signalled.works works] at hdown
    cases hdown
  | managerSignals signals =>
    rw [(h.signalled.signals signals).1] at hdown
    cases hdown
  | scannerStops checks flag =>
    refine ⟨⟨hsignalled, hdown, h.unsent⟩, ?_⟩
    simp only [left, checks, Loop.left]
    omega
  | scannerGoesOn checks flag =>
    rw [hflag] at flag
    cases flag
  | scans works round =>
    refine ⟨⟨hsignalled, hdown, h.unsent⟩, ?_⟩
    simp only [left, works, Loop.left, withPageTable]
    omega
  | reportStops checks flag =>
    refine ⟨⟨hsignalled, hdown, h.unsent⟩, ?_⟩
    simp only [left, checks, Loop.left]
    omega
  | reportGoesOn checks flag =>
    rw [hdown] at flag
    cases flag
  | reports works =>
    refine ⟨⟨hsignalled, hdown, h.unsent⟩, ?_⟩
    simp only [left, works, Loop.left]
    omega

/-- A run after the signal is short. -/
theorem Closing.length_le (h : Closing s) {es : List (Option System.Event)}
    (run : Trace Step s es s') : es.length ≤ 5 := by
  have hpaid : (es.map fun _ => 1).sum + s'.left ≤ s.left :=
    run.potential (f := left) (fun s e _ s' hs hstep => hs.step hstep) h
  rw [List.map_const', List.sum_replicate_nat, Nat.mul_one] at hpaid
  have hle := h.left_le
  omega

/-- **Where nothing is left every thread has stopped.** -/
theorem Closing.stopped (h : Closing s) (hring : s.system.server.pageTable.localCacheRing = none)
    (stuck : ∀ e s', ¬ Step s e s') :
    s.manager = .stopped ∧ s.scanner = .stopped ∧ s.report = .stopped := by
  have hflag : s.scannerShutdownFlag = true := h.signalled.scanner.mpr (.inr h.down)
  refine ⟨?_, ?_, ?_⟩
  · cases hloop : s.manager with
    | checks => exact (stuck _ _ (.managerStops hloop h.down)).elim
    | works =>
      have := h.signalled.works hloop
      rw [h.down] at this
      cases this
    | signals => exact (stuck _ _ (.managerSignals hloop)).elim
    | stopped => rfl
  · cases hloop : s.scanner with
    | checks => exact (stuck _ _ (.scannerStops hloop hflag)).elim
    | works =>
      obtain ⟨t', hround, _⟩ := PageTable.round_ringless hring Scanner.alwaysCold 0 0
      exact (stuck _ _ (.scans hloop hround)).elim
    | stopped => rfl
  · cases hloop : s.report with
    | checks => exact (stuck _ _ (.reportStops hloop h.down)).elim
    | works => exact (stuck _ _ (.reports hloop)).elim
    | stopped => rfl

end Left

/-! ## The law -/

/-- How the server stops. -/
structure ShutsDown (requests : List (List Request)) (es : List (Option System.Event))
    (s : Service) : Prop where
  /-- Once the manager's flag is up, five steps are left at most: the report and the scanner finish
  what they are in and look at their flags, and the manager looks at its own. -/
  bounded : s.shouldShutdown = true → ∀ fs s', Trace Step s fs s' → fs.length ≤ 5
  /-- When none is left, every thread has stopped. -/
  finishes : s.shouldShutdown = true → (∀ e s', ¬ Step s e s') →
    s.manager = .stopped ∧ s.scanner = .stopped ∧ s.report = .stopped
  /-- No thread stops before every message of every client was handled, in order. -/
  complete : s.manager = .stopped ∨ s.scanner = .stopped ∨ s.report = .stopped →
    s.system.clientBuffer.buf = [] ∧
    ∀ i, (System.handled (es.flatMap Option.toList)).filter (fun msg => msg.clientId = i) =
      (requests[i]?.map (Client.messages i)).getD []

section Law

variable {server : Server} {bufferSize : SizeT} {requests : List (List Request)}
  {es : List (Option System.Event)} {s : Service}

theorem network_settled (s : Service) : s.settled.network = s.system.network := by
  unfold settled
  split <;> rfl

theorem pageTable_settled (s : Service) :
    s.settled.server.pageTable = s.system.server.pageTable := by
  unfold settled
  split <;> rfl

/-- **The server shuts down**, without a ring and over every interleaving of the clients and the
three threads. -/
theorem server_shuts_down {config : AcceptedConfig} {alloc : PageTable.Allocation}
    (made : Server.new config.clients config.server false alloc = .ok server)
    (clients : requests.length = config.clients.length) (nonempty : config.clients ≠ [])
    (run : Trace Step (start server bufferSize requests) es s) : ShutsDown requests es s := by
  obtain ⟨hflags, _, hserves⟩ := Server.serves_start made nonempty
  have hlength : server.clientDoneFlags.length = requests.length := hflags.trans clients.symm
  obtain ⟨t, htable, hnew⟩ := bind_eq_ok.mp made
  have hring : server.pageTable.localCacheRing = none := by
    cases hnew
    exact (AcceptedConfig.initial htable).ringed
  have hrunning : server.managerShutdownFlag = false := by
    cases hnew
    rfl
  have hstart : Signalled (start server bufferSize requests) := by
    refine ⟨nofun, nofun, nofun, iff_of_false nofun ?_, nofun, nofun⟩
    rintro (hsignals | hdown)
    · cases hsignals
    · exact Bool.false_ne_true (hrunning.symm.trans hdown)
  obtain ⟨hsystem, hsignalled⟩ := hstart.run run
  rw [settled_eq (by simp [start])] at hsystem
  have serves := System.serves_of_run hsystem hserves
  have hnil : s.scannerShutdownFlag = true →
      ∀ i, Delivery.stream ClientMessage.clientId s.system.network i = [] := by
    intro hflag i
    rw [← network_settled]
    cases hrs : requests[i]? with
    | none => exact System.stream_eq_nil_of_none hsystem hrs
    | some rs =>
      have hi := (List.getElem?_eq_some_iff.mp hrs).1
      exact System.stream_eq_nil hsystem hrs (System.ended_of_shutdown serves hlength hsystem
        (hsignalled.settled_flag.trans hflag) hi)
  have hclosing : s.shouldShutdown = true → Closing s := fun hdown =>
    ⟨hsignalled, hdown, fun i =>
      (List.append_eq_nil_iff.mp (hnil (hsignalled.scanner.mpr (.inr hdown)) i)).2⟩
  have hring' : s.system.server.pageTable.localCacheRing = none := by
    rw [← pageTable_settled]
    exact System.ringless_of_run hring hsystem
  constructor
  case bounded =>
    intro hdown fs s' hrest
    exact (hclosing hdown).length_le hrest
  case finishes =>
    intro hdown hstuck
    exact (hclosing hdown).stopped hring' hstuck
  case complete =>
    intro hstopped
    have hflag : s.scannerShutdownFlag = true := by
      rcases hstopped with hmanager | hscanner | hreport
      · exact hsignalled.scanner.mpr (.inr (hsignalled.stopped hmanager))
      · exact hsignalled.scannerStopped hscanner
      · exact hsignalled.scanner.mpr (.inr (hsignalled.reportStopped hreport))
    refine ⟨Delivery.queue_eq_nil (hnil hflag), ?_⟩
    intro i
    have hall := System.messages_eq hsystem i
    rw [network_settled, hnil hflag, List.append_nil] at hall
    exact hall.symm

/-- A client without a request: the report is still at work when the scanner has stopped. -/
theorem report_outlasts_scanner : ∃ server s,
    Server.new (smallConfig 1 1 (by decide)).clients (smallConfig 1 1 (by decide)).server false
      plainAllocation = .ok server ∧
    s.report = .works ∧ s.scanner = .stopped ∧
    ShutsDown [[]] [none, some (.pushed 0 (Client.endMessage 0)), none,
      some (.handled (Client.endMessage 0)), none] s := by
  have hrun : ∃ server s, Server.new (smallConfig 1 1 (by decide)).clients
      (smallConfig 1 1 (by decide)).server false plainAllocation = .ok server ∧
      Trace Step (start server 1 [[]]) [none, some (.pushed 0 (Client.endMessage 0)), none,
        some (.handled (Client.endMessage 0)), none] s ∧
      s.report = .works ∧ s.scanner = .stopped :=
    ⟨_, _, rfl, .cons (.reportGoesOn rfl rfl) (.cons (.pushed (.pushed rfl rfl))
      (.cons (.managerGoesOn rfl rfl)
        (.cons (@Step.managerHandles _ (fun _ _ => 0) 0 _ _ _ rfl rfl rfl)
          (.cons (.scannerStops rfl rfl) (.nil _))))), rfl, rfl⟩
  obtain ⟨server, s, made, run, hreport, hscanner⟩ := hrun
  exact ⟨server, s, made, hreport, hscanner, server_shuts_down made rfl nofun run⟩

end Law

end Service

end MemoryTiering
