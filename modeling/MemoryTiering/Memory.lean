import MemoryTiering.PageTable

/-!
# Memory

The calls of `include/server/Utils.hpp` that place pages, over what the kernel keeps: for each page
of the address space, the NUMA node it is bound to and the one it resides on. A mapping takes the
address the kernel chooses, and `move_pages` what it reports. Beyond that the calls succeed, except
that `mmap` refuses a length of zero.
-/

set_option autoImplicit false

namespace MemoryTiering

/-- Why the process does not return from a call. -/
inductive Stop where
  | fault (fault : Fault)
  /-- `exit(EXIT_FAILURE)` -/
  | exit
  deriving DecidableEq, Repr

/-- The page of the address space an address lies in. -/
def pageNumber (addr : SizeT) : SizeT := addr / pageSize

/-- The page has bytes in `[addr, addr + len)`. -/
def overlaps (addr len page : SizeT) : Bool :=
  0 < len.toNat ∧ addr.toNat < (page.toNat + 1) * pageSize.toNat ∧
    page.toNat * pageSize.toNat < addr.toNat + len.toNat

/-- What the kernel keeps of the pages. -/
structure Memory where
  bound : SizeT → Option Nat := fun _ => none
  node : SizeT → Option Nat := fun _ => none

/-- What `move_pages` answers for one page. -/
inductive MoveReport where
  /-- It returned other than zero. -/
  | failed
  /-- It returned zero, and `status[0]` is the target node. -/
  | placed
  /-- It returned zero, and `status[0]` is negative: the page has not moved. -/
  | error
  deriving DecidableEq, Repr

namespace Memory

/-- A new mapping: its pages are neither bound nor resident. -/
def mmap (mem : Memory) (addr len : SizeT) : Memory where
  bound page := if overlaps addr len page then none else mem.bound page
  node page := if overlaps addr len page then none else mem.node page

/-- `munmap`. It refuses a length of zero, and then the range has no pages. -/
def munmap (mem : Memory) (addr len : SizeT) : Memory where
  bound page := if overlaps addr len page then none else mem.bound page
  node page := if overlaps addr len page then none else mem.node page

/-- The pages of the range are bound. They were just mapped: `MPOL_MF_MOVE` finds none to move. -/
def mbind (mem : Memory) (addr len : SizeT) (numaNode : Nat) : Memory :=
  { mem with bound := fun page =>
      if overlaps addr len page then some numaNode else mem.bound page }

/-- Writes to every byte of the range. The first touch places a page on the node it is bound to, or
on that of the thread, which is zero. -/
def touch (mem : Memory) (addr len : SizeT) : Memory :=
  { mem with node := fun page =>
      if overlaps addr len page ∧ mem.node page = none then some ((mem.bound page).getD 0)
      else mem.node page }

/-- `allocate_pages`, which populates the mapping. -/
def allocatePages (mem : Memory) (addr size number : SizeT) : Except Stop Memory :=
  if size * number = 0 then .error .exit
  else .ok ((mem.mmap addr (size * number)).touch addr (size * number))

/-- `allocate_and_bind_to_numa`, with the pointer it returns. -/
def allocateAndBindToNuma (mem : Memory) (addr size number : SizeT) (numaNode : Nat) :
    SizeT × Memory :=
  if size * number = 0 then (0, mem)
  else
    let mem := mem.mmap addr (size * number)
    let mem := mem.mbind addr size numaNode
    (addr, mem.touch addr (size * number))

/-- `move_page_to_node`. The status of the page is not looked at. -/
def movePageToNode (mem : Memory) (addr : SizeT) (targetNode : Nat) (report : MoveReport) :
    Except Stop Memory :=
  match report with
  | .failed => .error .exit
  | .placed =>
    .ok { mem with node := fun page =>
      if page = pageNumber addr then some targetNode else mem.node page }
  | .error => .ok mem

end Memory

/-- `target_node` -/
def PageLayer.node : PageLayer → Nat
  | .numaLocal => 0
  | .numaRemote => 1
  | .pmem => 2

/-- `migrate_page`, which never reads the tier the page is in. -/
def Memory.migratePage (mem : Memory) (addr : SizeT) (targetTier : PageLayer)
    (report : MoveReport) : Except Stop Memory :=
  mem.movePageToNode addr targetTier.node report

end MemoryTiering
