import MemoryTiering.PageTable

/-!
# The scanner

One round of `Scanner::runScanner`: the next page is classified, and migrated where the table of
cases says so. How a page is classified depends on the policy and the clock; a round takes both
answers as an argument, so what holds for every round holds under every policy. An iteration of the
loop is a round and, after the last page, the promotion of the regions to huge pages.
-/

set_option autoImplicit false

namespace MemoryTiering

inductive PageStatus where
  | hot
  | warm
  | cold
  deriving DecidableEq, Repr

namespace Scanner

/-- What `classifyPage` and, for a remote page, the second `classifyHotPage` answer in one round. -/
structure Classification where
  classifyPage : UInt64 → UInt32 → PageStatus
  classifyHotPage : UInt64 → UInt32 → Bool

/-- The switch of `runScanner`: the layer `migratePage` is called with, if it is called. -/
def targetLayer (numTiers : Nat) (pageLayer : PageLayer) (status : PageStatus) (hot : Bool) :
    Option PageLayer :=
  match pageLayer with
  | .numaLocal =>
    if status = .cold then some (if numTiers = 2 then .pmem else .numaRemote) else none
  | .numaRemote =>
    if status = .cold then some .pmem
    else if hot then some .numaLocal
    else none
  | .pmem =>
    match status with
    | .hot => some .numaLocal
    | .warm => some (if numTiers = 2 then .numaLocal else .numaRemote)
    | .cold => none

/-- A round of the loop, up to the switch: the page, the layer it is to go to, if it is to go, and
the table after `scanNext`. -/
def examine (classification : Classification) (t : PageTable) :
    PageId × Option PageLayer × PageTable :=
  let (pageId, t) := t.scanNext
  let (pageLayer, lastAccessTime, accessCnt) := t.getPageMetaData pageId
  let status := classification.classifyPage lastAccessTime accessCnt
  let hot := classification.classifyHotPage lastAccessTime accessCnt
  (pageId, targetLayer t.serverConfig.numTiers pageLayer status hot, t)

/-- What a round of the loop asks `migratePage` for, and the table after `scanNext`. -/
def scan (classification : Classification) (t : PageTable) :
    Option (PageId × PageLayer) × PageTable :=
  let (pageId, target, t) := examine classification t
  (target.map fun target => (pageId, target), t)

/-- One round of the loop, with the page it examined. -/
def visit (classification : Classification) (evictNow now : Nat) (t : PageTable) :
    Except Fault (PageId × PageTable) :=
  match examine classification t with
  | (pageId, none, t) => .ok (pageId, t)
  | (pageId, some target, t) => do
    let (_, t) ← PageTable.migratePage evictNow now t pageId target
    .ok (pageId, t)

/-- One round of the loop. -/
def round (classification : Classification) (evictNow now : Nat) (t : PageTable) :
    Except Fault PageTable := do
  let (_, t) ← visit classification evictNow now t
  .ok t

/-- What an iteration tells: the page it examined and, after the last page, the `madvise` calls. -/
structure Iteration where
  pageId : PageId
  endOfRound : Option (List PageTable.Advice)
  deriving DecidableEq, Repr

/-- An iteration of the loop of `runScanner`. It compares the page it examined with the table as the
round left it; the sleep is left out. -/
def iterate (base : PageLayer → SizeT) (classification : Classification) (evictNow now : Nat)
    (t : PageTable) : Except Fault (Iteration × PageTable) := do
  let (pageId, t) ← visit classification evictNow now t
  let endOfRound := if pageId = t.size - 1 then some (t.promoteToHugePage base) else none
  .ok ({ pageId, endOfRound }, t)

end Scanner

end MemoryTiering
