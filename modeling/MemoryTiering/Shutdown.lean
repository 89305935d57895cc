import MemoryTiering.Server

/-!
# The loops of the server and their flags

`Server::start`: the manager, the scanner and the periodical report, each a loop that looks at a
flag, does its work, and looks again. The manager signals the shutdown, and sets the scanner's flag
first and its own after it, so for a moment only one of the two is up. A flag is read and written
under its mutex, at once; a loop's work is one step, and its sleep is part of it. What a report
writes is `PeriodicalMetrics.periodicalMetrics`, and nobody here reads it.
-/

set_option autoImplicit false

namespace MemoryTiering

/-- `_runManagerThread`. -/
inductive ManagerLoop where
  | checks
  | works
  /-- `signalShutdown` has set the scanner's flag, and not yet the manager's. -/
  | signals
  | stopped
  deriving DecidableEq

/-- `runScanner`, and `_runPeriodicalMetricsThread`. -/
inductive Loop where
  | checks
  | works
  | stopped
  deriving DecidableEq

/-- The clients and the server, and where the server's three threads are. -/
structure Service where
  system : System
  scannerShutdownFlag : Bool := false
  manager : ManagerLoop := .checks
  scanner : Loop := .checks
  report : Loop := .checks

namespace Service

/-- `_shouldShutdown` of the server, which the manager and the report ask. -/
def shouldShutdown (s : Service) : Bool := s.system.server.managerShutdownFlag

/-- All threads before their first step. -/
def start (server : Server) (bufferSize : SizeT) (requests : List (List Request)) : Service where
  system := .start server bufferSize requests

/-- `handleClientMessage`, up to the first of the two flags. -/
def handleClientMessage (latency : SizeT → OperationType → UInt64) (now : Nat) (s : Service)
    (msg : ClientMessage) : Except Fault Service :=
  let server := s.system.server
  if msg.opType = .endOp then
    let server := { server with clientDoneFlags := server.clientDoneFlags.set msg.clientId true }
    let s := { s with system := { s.system with server } }
    .ok (if server.clientDoneFlags.all id then
        { s with scannerShutdownFlag := true, manager := .signals }
      else { s with manager := .checks })
  else do
    let pageTable ← server.pageTable.accessPage latency now (server.pageIndex msg) msg.opType
    .ok
      { s with
        system := { s.system with server := { server with pageTable } }
        manager := .checks }

/-- The scanner's table after a round. -/
def withPageTable (s : Service) (pageTable : PageTable) : Service :=
  { s with system := { s.system with server := { s.system.server with pageTable } } }

/-- One step of one thread, with what it is to the clients and the server. -/
inductive Step (s : Service) : Option System.Event → Service → Prop where
  | pushed {i : Nat} {msg : ClientMessage} {system : System}
      (push : System.Step s.system (.pushed i msg) system) :
      Step s (some (.pushed i msg)) { s with system }
  | full {i : Nat} {system : System} (push : System.Step s.system (.full i) system) :
      Step s (some (.full i)) { s with system }
  | managerStops (checks : s.manager = .checks) (flag : s.shouldShutdown = true) :
      Step s none { s with manager := .stopped }
  | managerGoesOn (checks : s.manager = .checks) (flag : s.shouldShutdown = false) :
      Step s none { s with manager := .works }
  | managerIdles {buffer : RingBuffer ClientMessage} (works : s.manager = .works)
      (pop : s.system.clientBuffer.pop = (none, buffer)) :
      Step s (some .idle)
        { s with system := { s.system with clientBuffer := buffer }, manager := .checks }
  | managerHandles {latency : SizeT → OperationType → UInt64} {now : Nat} {msg : ClientMessage}
      {buffer : RingBuffer ClientMessage} {s' : Service} (works : s.manager = .works)
      (pop : s.system.clientBuffer.pop = (some msg, buffer))
      (handle : handleClientMessage latency now
        { s with system := { s.system with clientBuffer := buffer } } msg = .ok s') :
      Step s (some (.handled msg)) s'
  | managerSignals (signals : s.manager = .signals) :
      Step s none
        { s with
          system := { s.system with server := s.system.server.signalShutdown }
          manager := .checks }
  | scannerStops (checks : s.scanner = .checks) (flag : s.scannerShutdownFlag = true) :
      Step s none { s with scanner := .stopped }
  | scannerGoesOn (checks : s.scanner = .checks) (flag : s.scannerShutdownFlag = false) :
      Step s none { s with scanner := .works }
  | scans {classification : Scanner.Classification} {evictNow now : Nat} {pageTable : PageTable}
      (works : s.scanner = .works)
      (round : Scanner.round classification evictNow now s.system.server.pageTable =
        .ok pageTable) :
      Step s (some .scanned) { s.withPageTable pageTable with scanner := .checks }
  | reportStops (checks : s.report = .checks) (flag : s.shouldShutdown = true) :
      Step s none { s with report := .stopped }
  | reportGoesOn (checks : s.report = .checks) (flag : s.shouldShutdown = false) :
      Step s none { s with report := .works }
  | reports (works : s.report = .works) : Step s none { s with report := .checks }

end Service

end MemoryTiering
