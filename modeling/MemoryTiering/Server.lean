import MemoryTiering.ConfigParser
import MemoryTiering.Scanner

/-!
# Clients and server

The message buffer of `include/common/RingBuffer.hpp`, `src/client/Client.cpp` and
`src/server/Server.cpp`. The threads share the buffer and the page table. A push, and an iteration
of the manager's loop, each happen at once: the buffer works under its mutex, and of the rest of an
iteration no other thread but the scanner sees anything.
-/

set_option autoImplicit false

namespace MemoryTiering

/-! ## The buffer -/

/-- `boost::circular_buffer`, of which only `push_back` on a buffer that is not full, `front` and
`pop_front` are used: a queue of bounded length. -/
structure RingBuffer (α : Type) where
  capacity : SizeT
  buf : List α
  bounded : buf.length ≤ capacity.toNat

namespace RingBuffer

variable {α : Type}

def new (capacity : SizeT) : RingBuffer α := ⟨capacity, [], Nat.zero_le _⟩

def push (b : RingBuffer α) (item : α) : Bool × RingBuffer α :=
  if h : b.buf.length < b.capacity.toNat then
    (true, ⟨b.capacity, b.buf ++ [item], by rw [List.length_append]; exact h⟩)
  else (false, b)

/-- `none` is the return value `false`, which leaves `item` alone. -/
def pop (b : RingBuffer α) : Option α × RingBuffer α :=
  match h : b.buf with
  | [] => (none, b)
  | item :: rest =>
    (some item, ⟨b.capacity, rest, by
      have hbounded := b.bounded
      rw [h, List.length_cons] at hbounded
      exact Nat.le_of_succ_le hbounded⟩)

end RingBuffer

/-! ## Clients -/

/-- What the generator chooses: a page and what to do there, which is never `END`. -/
structure Request where
  pid : SizeT
  opType : OperationType
  access : opType ≠ .endOp

/-- `clientPageSize` of `main`: the pages of one client, added up over whatever tiers it names. -/
def clientPageSize (client : ClientConfig) : SizeT :=
  client.tierSizes.foldl (fun clientPageSize tierSize => clientPageSize + tierSize) 0

namespace Client

def message (clientId : Nat) (request : Request) : ClientMessage where
  clientId
  pid := request.pid
  pOffset := 0
  opType := request.opType

def endMessage (clientId : Nat) : ClientMessage where
  clientId
  pid := 0
  pOffset := 0
  opType := .endOp

/-- `run`: the messages it pushes, in order. How many requests there are is up to the clock. -/
def messages (clientId : Nat) (requests : List Request) : List ClientMessage :=
  requests.map (message clientId) ++ [endMessage clientId]

end Client

/-! ## The server -/

structure Server where
  pageTable : PageTable
  basePageId : List SizeT
  clientDoneFlags : List Bool
  managerShutdownFlag : Bool := false

namespace Server

/-- The pages of one client, as the constructor adds them up. -/
def clientPages (numTiers : Nat) (client : ClientConfig) : SizeT :=
  if numTiers = 2 then client.tier 0 + client.tier 1
  else client.tier 0 + client.tier 1 + client.tier 2

/-- `base_page_id_`, from the running `client_total_page` on. -/
def basePageIds (numTiers : Nat) : SizeT → List ClientConfig → List SizeT
  | _, [] => []
  | clientTotalPage, client :: clients =>
    clientTotalPage :: basePageIds numTiers (clientTotalPage + clientPages numTiers client) clients

/-- The constructor. -/
def new (clientConfigs : List ClientConfig) (serverConfig : ServerMemoryConfig)
    (useCacheRing : Bool) (alloc : PageTable.Allocation) : Except Fault Server := do
  let pageTable ← (PageTable.new clientConfigs serverConfig useCacheRing).initPageTable alloc
  .ok
    { pageTable
      basePageId :=
        if serverConfig.numTiers = 2 ∨ serverConfig.numTiers = 3 then
          basePageIds serverConfig.numTiers 0 clientConfigs
        else []
      clientDoneFlags := List.replicate clientConfigs.length false }

/-- The scanner's own flag belongs to `Service`: here a round may end after the shutdown. -/
def signalShutdown (s : Server) : Server := { s with managerShutdownFlag := true }

/-- `base_page_id_[msg.client_id] + msg.pid`. Clients are numbered as they are configured, so the
index is never out of range, here and in `client_done_flags_`. -/
def pageIndex (s : Server) (msg : ClientMessage) : PageId :=
  s.basePageId.getD msg.clientId 0 + msg.pid

def handleClientMessage (latency : SizeT → OperationType → UInt64) (now : Nat) (s : Server)
    (msg : ClientMessage) : Except Fault Server :=
  if msg.opType = .endOp then
    let s := { s with clientDoneFlags := s.clientDoneFlags.set msg.clientId true }
    .ok (if s.clientDoneFlags.all id then s.signalShutdown else s)
  else do
    let pageTable ← s.pageTable.accessPage latency now (s.pageIndex msg) msg.opType
    .ok { s with pageTable }

end Server

/-! ## The threads -/

/-- The buffer, the server, and the messages each client has still to push. -/
structure System where
  clientBuffer : RingBuffer ClientMessage
  server : Server
  unsent : List (List ClientMessage)

namespace System

/-- What a thread has done. -/
inductive Event where
  /-- `push` returned true. -/
  | pushed (clientId : Nat) (msg : ClientMessage)
  /-- `push` returned false, and the client sleeps before it tries again. -/
  | full (clientId : Nat)
  /-- An iteration of the manager's loop popped a message and handled it. -/
  | handled (msg : ClientMessage)
  /-- An iteration popped nothing, and the manager sleeps. -/
  | idle
  /-- A round of the scanner. -/
  | scanned
  deriving DecidableEq

/-- All threads before their first step. -/
def start (server : Server) (bufferSize : SizeT) (requests : List (List Request)) : System where
  clientBuffer := .new bufferSize
  server
  unsent := requests.mapIdx Client.messages

/-- One step of one thread. The manager's loop stops when it finds the shutdown flag set. -/
inductive Step (s : System) : Event → System → Prop where
  | pushed {i : Nat} {msg : ClientMessage} {rest : List ClientMessage}
      {buffer : RingBuffer ClientMessage} (next : s.unsent[i]? = some (msg :: rest))
      (push : s.clientBuffer.push msg = (true, buffer)) :
      Step s (.pushed i msg) ⟨buffer, s.server, s.unsent.set i rest⟩
  | full {i : Nat} {msg : ClientMessage} {rest : List ClientMessage}
      {buffer : RingBuffer ClientMessage} (next : s.unsent[i]? = some (msg :: rest))
      (push : s.clientBuffer.push msg = (false, buffer)) :
      Step s (.full i) ⟨buffer, s.server, s.unsent⟩
  | handled {latency : SizeT → OperationType → UInt64} {now : Nat} {msg : ClientMessage}
      {buffer : RingBuffer ClientMessage} {server : Server}
      (running : s.server.managerShutdownFlag = false)
      (pop : s.clientBuffer.pop = (some msg, buffer))
      (handle : s.server.handleClientMessage latency now msg = .ok server) :
      Step s (.handled msg) ⟨buffer, server, s.unsent⟩
  | idle {buffer : RingBuffer ClientMessage} (running : s.server.managerShutdownFlag = false)
      (pop : s.clientBuffer.pop = (none, buffer)) :
      Step s .idle ⟨buffer, s.server, s.unsent⟩
  | scanned {classification : Scanner.Classification} {evictNow now : Nat} {pageTable : PageTable}
      (round : Scanner.round classification evictNow now s.server.pageTable = .ok pageTable) :
      Step s .scanned ⟨s.clientBuffer, { s.server with pageTable }, s.unsent⟩

end System

end MemoryTiering
