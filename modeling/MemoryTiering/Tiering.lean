import MemoryTiering.Common
import MemoryTiering.Lib.SecondChance

/-!
# What the page table is for

The page table without its entries, nodes and pointers: which tier a page is in, how many pages each
tier holds, the queue of NUMA-local pages in clock order, if there is one, and the metrics. These
say how often each tier was accessed and how often a page went from one to another, as far as 64
bits count. What a request does depends on neither the clock nor the latency of an access, and the
total of the latencies is left out. A promotion to the full tier would replace the queue's victim;
the server does not survive it, so a tiering that goes on has evicted nobody.
-/

set_option autoImplicit false

namespace MemoryTiering

@[ext]
structure Tiering where
  layer : PageId → Option PageLayer
  count : PageLayer → Nat
  queue : Option (SecondChance.Queue PageId)
  accesses : PageLayer → UInt64
  migrations : PageLayer → PageLayer → UInt64

namespace Tiering

/-- What the manager and the scanner ask for. -/
inductive Request where
  | access (pageId : PageId)
  | migrate (pageId : PageId) (target : PageLayer)
  | scan
  deriving DecidableEq

/-- How many pages each tier may hold, and the queue. -/
structure Bounds where
  capacity : PageLayer → Nat
  queue : Nat

/-- Why the server does not survive a request. -/
inductive Crash where
  /-- A NUMA-local page is asked to go, and it is not in the queue. -/
  | lostPage
  /-- The tier is full, and the queue is empty. -/
  | nobodyToEvict
  /-- The tier is full, and the queue's victim is removed twice. -/
  | victimFreed
  /-- The tier has room, and the queue has none. -/
  | queueFull
  deriving DecidableEq

/-- An access moves nothing: it marks the page, if it is in the queue, and counts where it is. -/
def access (s : Tiering) (p : PageId) : Tiering :=
  { s with
    queue := s.queue.map fun q => SecondChance.mark q p
    accesses := fun l => s.accesses l + if s.layer p = some l then 1 else 0 }

/-- A NUMA-local page leaves the queue. -/
def leave (s : Tiering) (p : PageId) (current : PageLayer) : Except Crash Tiering :=
  match s.queue, current with
  | some q, .numaLocal =>
    if p ∈ SecondChance.keys q then .ok { s with queue := some (SecondChance.remove q p) }
    else .error .lostPage
  | _, _ => .ok s

/-- Whether a tier takes one page more. -/
def admits (bounds : Bounds) (s : Tiering) (target : PageLayer) : Except Crash Bool :=
  if s.count target < bounds.capacity target then .ok true
  else
    match s.queue, target with
    | some [], .numaLocal => .error .nobodyToEvict
    | some (_ :: _), .numaLocal => .error .victimFreed
    | _, _ => .ok false

/-- A page goes from one tier to another. Within its own it goes nowhere, and that does not
count. -/
def move (s : Tiering) (p : PageId) (current target : PageLayer) : Tiering :=
  { s with
    layer := fun q => if q = p then some target else s.layer q
    count := fun l =>
      s.count l - (if current = l then 1 else 0) + if target = l then 1 else 0
    migrations := fun l l' =>
      s.migrations l l' + if current = l ∧ target = l' ∧ l ≠ l' then 1 else 0 }

/-- A page in NUMA-local memory enters the queue, behind the others. -/
def enter (bounds : Bounds) (s : Tiering) (p : PageId) (target : PageLayer) :
    Except Crash Tiering :=
  match s.queue, target with
  | some q, .numaLocal =>
    if q.length < bounds.queue then .ok { s with queue := some (SecondChance.enqueue q p) }
    else .error .queueFull
  | _, _ => .ok s

/-- The page leaves the queue before the tier is asked, so a page that is refused is not in the
queue any more. -/
def migrate (bounds : Bounds) (s : Tiering) (p : PageId) (target : PageLayer) :
    Except Crash Tiering :=
  match s.layer p with
  | none => .ok s
  | some current => do
    let s ← s.leave p current
    if ← s.admits bounds target then (s.move p current target).enter bounds p target
    else .ok s

def apply (bounds : Bounds) (s : Tiering) : Request → Except Crash Tiering
  | .access p => .ok (s.access p)
  | .migrate p target => s.migrate bounds p target
  | .scan => .ok s

/-! ## Phases -/

section Phases

variable {bounds : Bounds} {s : Tiering} {p : PageId} {current target : PageLayer}
  {q : SecondChance.Queue PageId}

/-- A page elsewhere has no place in the queue to leave. -/
theorem leave_skip (h : s.queue = none ∨ current ≠ .numaLocal) : s.leave p current = .ok s := by
  unfold leave
  split
  next hqueue =>
    rcases h with h | h
    · rw [h] at hqueue
      cases hqueue
    · exact (h rfl).elim
  next => rfl

theorem leave_queued (hqueue : s.queue = some q) : s.leave p .numaLocal =
    if p ∈ SecondChance.keys q then .ok { s with queue := some (SecondChance.remove q p) }
    else .error .lostPage := by
  unfold leave
  rw [hqueue]

theorem admits_room (room : s.count target < bounds.capacity target) :
    s.admits bounds target = .ok true := if_pos room

/-- A full tier refuses, unless somebody may have to make room. -/
theorem admits_refuses (full : bounds.capacity target ≤ s.count target)
    (h : s.queue = none ∨ target ≠ .numaLocal) : s.admits bounds target = .ok false := by
  unfold admits
  rw [if_neg (Nat.not_lt.mpr full)]
  cases hqueue : s.queue with
  | none => rfl
  | some q =>
    have htarget := h.resolve_left (by rw [hqueue]; exact Option.some_ne_none q)
    cases target with
    | numaLocal => exact (htarget rfl).elim
    | numaRemote => cases q <;> rfl
    | pmem => cases q <;> rfl

theorem admits_crashes (full : bounds.capacity .numaLocal ≤ s.count .numaLocal)
    (hqueue : s.queue = some q) : s.admits bounds .numaLocal =
      .error (if q = [] then .nobodyToEvict else .victimFreed) := by
  unfold admits
  rw [if_neg (Nat.not_lt.mpr full), hqueue]
  cases q <;> rfl

theorem enter_skip (h : s.queue = none ∨ target ≠ .numaLocal) :
    s.enter bounds p target = .ok s := by
  unfold enter
  split
  next hqueue =>
    rcases h with h | h
    · rw [h] at hqueue
      cases hqueue
    · exact (h rfl).elim
  next => rfl

theorem enter_queued (hqueue : s.queue = some q) : s.enter bounds p .numaLocal =
    if q.length < bounds.queue then .ok { s with queue := some (SecondChance.enqueue q p) }
    else .error .queueFull := by
  unfold enter
  rw [hqueue]

end Phases

end Tiering

end MemoryTiering
