import MemoryTiering.Laws.Client.Isolation
import MemoryTiering.Laws.Machine.Placement
import MemoryTiering.Laws.PageTable.Regions

/-!
# Clients share no memory

The server touches the memory at the address of the page a message names. A page keeps its address
whatever the manager and the scanner do, and no two pages overlap. So at any two moments of a run
two messages touch the same memory only if they name the same page of the same client
(`clients_share_no_memory`).
-/

set_option autoImplicit false

namespace MemoryTiering

open Fallible Transition

/-- Where the access of a message goes, if its page is there. -/
def Server.touched? (s : Server) (msg : ClientMessage) : Option SizeT :=
  s.pageTable.address? (s.pageIndex msg)

/-- The pages at two addresses have bytes in common. -/
def Overlapping (a b : SizeT) : Prop :=
  a.toNat < b.toNat + pageSize.toNat ∧ b.toNat < a.toNat + pageSize.toNat

/-- What `mmap` promises of the regions that have pages: each lies inside the address space, and
they lie apart. -/
structure MappedApart (numTiers : Nat) (clients : List ClientConfig)
    (alloc : PageTable.Allocation) : Prop where
  fits : ∀ layer, 0 < demand numTiers clients layer →
    (alloc.base layer).toNat + demand numTiers clients layer * pageSize.toNat ≤ 2 ^ 64
  apart : ∀ layer layer', layer ≠ layer' → 0 < demand numTiers clients layer →
    0 < demand numTiers clients layer' →
    (alloc.base layer).toNat + demand numTiers clients layer * pageSize.toNat ≤
        (alloc.base layer').toNat ∨
      (alloc.base layer').toNat + demand numTiers clients layer' * pageSize.toNat ≤
        (alloc.base layer).toNat

/-- The whole page lies in one of the regions. -/
def MappedPage (numTiers : Nat) (clients : List ClientConfig) (alloc : PageTable.Allocation)
    (a : SizeT) : Prop :=
  ∃ layer, (alloc.base layer).toNat ≤ a.toNat ∧ a.toNat + pageSize.toNat ≤
    (alloc.base layer).toNat + demand numTiers clients layer * pageSize.toNat

/-- Every client that asks has pages, and asks for those its generator may choose. -/
def Asked (config : AcceptedConfig) (requests : List (List Request)) : Prop :=
  ∀ (c : Nat) rs, requests[c]? = some rs → ∃ client, config.clients[c]? = some client ∧
    0 < (clientPageSize client).toNat ∧ Client.Requests client (rs.map (·.pid))

/-! ## Pages -/

namespace PageTable

section Pages

variable {clients : List ClientConfig} {numTiers : Nat} {alloc : Allocation} {t : PageTable}
  {p q : PageId} {a b : SizeT}

/-- **Pages lie in the regions.** -/
theorem Laid.mappedPage (h : Laid clients numTiers alloc t)
    (mapped : MappedApart numTiers clients alloc) (ha : t.address? p = some a) :
    MappedPage numTiers clients alloc a := by
  have hpage : pageSize.toNat = 4096 := rfl
  obtain ⟨layer, _, hlt, haddress⟩ := h.place mapped.fits ha
  refine ⟨layer, ?_⟩
  rw [haddress, hpage]
  omega

/-- **No two pages overlap.** -/
theorem Laid.overlapping_iff (h : Laid clients numTiers alloc t)
    (mapped : MappedApart numTiers clients alloc) (ha : t.address? p = some a)
    (hb : t.address? q = some b) : Overlapping a b ↔ p = q := by
  have hpage : pageSize.toNat = 4096 := rfl
  constructor
  · intro hoverlap
    obtain ⟨layer, hp, hlt, haddress⟩ := h.place mapped.fits ha
    obtain ⟨layer', hq, hlt', haddress'⟩ := h.place mapped.fits hb
    unfold Overlapping at hoverlap
    rw [haddress, haddress', hpage] at hoverlap
    by_cases hlayer : layer = layer'
    · subst hlayer
      have hsame : Segments.rank (layout numTiers clients) layer p.toNat =
          Segments.rank (layout numTiers clients) layer q.toNat := by omega
      exact UInt64.toNat_inj.mp
        ((Segments.bijOn_rank (layout numTiers clients) layer).injOn hp hq hsame)
    · have hapart := mapped.apart layer layer' hlayer (Nat.zero_lt_of_lt hlt)
        (Nat.zero_lt_of_lt hlt')
      rw [hpage] at hapart
      omega
  · rintro rfl
    obtain rfl : a = b := Option.some.inj (ha.symm.trans hb)
    exact ⟨Nat.lt_add_of_pos_right (by decide), Nat.lt_add_of_pos_right (by decide)⟩

end Pages

end PageTable

/-! ## Runs -/

namespace System

section Runs

variable {s s' : System} {e : Event} {es : List Event}

/-- No thread changes an address. -/
theorem Step.sameRegions (h : Step s e s') :
    PageTable.SameRegions s.server.pageTable s'.server.pageTable := by
  cases h with
  | pushed | full | idle => exact PageTable.framed_sameRegions.refl _
  | @handled latency now msg buffer server running pop handle =>
    unfold Server.handleClientMessage at handle
    split at handle
    · cases handle
      dsimp only
      split <;> exact PageTable.framed_sameRegions.refl _
    · obtain ⟨t, hcall, hdone⟩ := bind_eq_ok.mp handle
      cases hdone
      exact PageTable.sameRegions_accessPage hcall
  | scanned round => exact PageTable.sameRegions_round round

theorem sameRegions_of_run (run : Trace Step s es s') :
    PageTable.SameRegions s.server.pageTable s'.server.pageTable := by
  apply run.invariant (P := fun s' =>
    PageTable.SameRegions s.server.pageTable s'.server.pageTable)
  · intro s₁ e s₂ h hstep
    exact PageTable.framed_sameRegions.trans h hstep.sameRegions
  · exact PageTable.framed_sameRegions.refl _

end Runs

end System

section Sharing

variable {config : AcceptedConfig} {useCacheRing : Bool} {alloc : PageTable.Allocation}
  {server : Server} {bufferSize : SizeT} {requests : List (List Request)}
  {es es' : List System.Event} {s s₁ s' s'' : System} {msg msg' : ClientMessage}

/-- A message names a page of its client. -/
theorem mem_clientPages_of_handled (asked : Asked config requests)
    (run : Trace System.Step (System.start server bufferSize requests) es s)
    (step : System.Step s (.handled msg) s') (access : msg.opType ≠ .endOp) :
    (msg.clientId, msg.pid) ∈ clientPages config.clients := by
  obtain ⟨rs, hrs, hpid⟩ := exists_request run step access
  obtain ⟨client, hclient, hpages, shuffled, hperm, hgenerates⟩ := asked _ _ hrs
  exact ⟨client, hclient, hgenerates.lt hperm hpages msg.pid hpid⟩

/-- The message goes where the page was put at the start. -/
theorem touched?_of_run (start : server.Serves [] server)
    (run : Trace System.Step (System.start server bufferSize requests) es s) :
    s.server.touched? msg = server.touched? msg := by
  have hserves := System.serves_of_run run start
  have hsame := System.sameRegions_of_run run
  unfold Server.touched? Server.pageIndex
  rw [hserves.bases]
  exact hsame.address _

/-- **Clients share no memory.** Whenever in a run two messages are handled, with whatever accesses
and migrations before and between them, each touches a page that is mapped, and the two pages have
bytes in common only if they are the same page of the same client. -/
theorem clients_share_no_memory
    (start : Server.new config.clients config.server useCacheRing alloc = .ok server)
    (mapped : MappedApart config.server.numTiers config.clients alloc)
    (asked : Asked config requests)
    (run : Trace System.Step (System.start server bufferSize requests) es s)
    (step : System.Step s (.handled msg) s₁) (access : msg.opType ≠ .endOp)
    (rest : Trace System.Step s₁ es' s') (step' : System.Step s' (.handled msg') s'')
    (access' : msg'.opType ≠ .endOp) :
    ∃ a a', s.server.touched? msg = some a ∧ s'.server.touched? msg' = some a' ∧
      MappedPage config.server.numTiers config.clients alloc a ∧
      MappedPage config.server.numTiers config.clients alloc a' ∧
      (Overlapping a a' ↔ msg.clientId = msg'.clientId ∧ msg.pid = msg'.pid) := by
  have tiers := config.server_tiers
  have sizes : ∀ client ∈ config.clients, client.tierSizes.length = config.server.numTiers := by
    rw [config.server_eq.1]
    exact config.sizes
  obtain ⟨laid, init, bases⟩ := Server.new_spec tiers config.server_eq.2 start
  have small : (layout config.server.numTiers config.clients).length < 2 ^ 64 :=
    laid.size ▸ init.numbered.small
  have hpages := bijOn_clientPage tiers sizes small laid bases
  have run' : Trace System.Step (System.start server bufferSize requests)
      (es ++ .handled msg :: es') s' := run.append (.cons step rest)
  have hmem := mem_clientPages_of_handled asked run step access
  have hmem' := mem_clientPages_of_handled asked run' step' access'
  have nonempty : config.clients ≠ [] := by
    obtain ⟨client, hclient, _⟩ := hmem
    exact List.ne_nil_of_mem (List.mem_of_getElem? hclient)
  have hserves := (Server.serves_start start nonempty).2.2
  have hfound : ∀ {m : ClientMessage}, (m.clientId, m.pid) ∈ clientPages config.clients →
      ∃ a, server.touched? m = some a := by
    intro m hm
    obtain ⟨entry, hentry⟩ := Option.isSome_iff_exists.mp
      (AList.lookup_isSome.mpr (hpages.mapsTo hm))
    exact ⟨entry.pageAddress, congrArg (Option.map PageTableEntry.pageAddress) hentry⟩
  obtain ⟨a, ha⟩ := hfound hmem
  obtain ⟨a', ha'⟩ := hfound hmem'
  refine ⟨a, a', (touched?_of_run hserves run).trans ha, (touched?_of_run hserves run').trans ha',
    laid.mappedPage mapped ha, laid.mappedPage mapped ha', ?_⟩
  rw [laid.overlapping_iff mapped ha ha', Server.pageIndex_eq, Server.pageIndex_eq,
    hpages.injOn.eq_iff hmem hmem', Prod.mk.injEq]

/-- Two clients with a page each, one in NUMA-local and one in remote memory. -/
def twoClientConfig : AcceptedConfig :=
  { emptyClientConfig with
    clients := [⟨.uniform, [1, 0, 0]⟩, ⟨.uniform, [0, 1, 0]⟩]
    sizes := List.forall_mem_cons.mpr ⟨rfl, List.forall_mem_singleton.mpr rfl⟩
    valid := rfl }

/-- Both clients read their page zero, and touch different memory. -/
theorem page_zero_twice : ∃ server s s₁ s' s'' a a',
    Server.new twoClientConfig.clients twoClientConfig.server false spreadAllocation =
      .ok server ∧
    Trace System.Step (System.start server 2
        [[⟨0, .read, by decide⟩], [⟨0, .read, by decide⟩]])
      [.pushed 0 ⟨0, 0, 0, .read⟩, .pushed 1 ⟨1, 0, 0, .read⟩] s ∧
    System.Step s (.handled ⟨0, 0, 0, .read⟩) s₁ ∧ Trace System.Step s₁ [] s' ∧
    System.Step s' (.handled ⟨1, 0, 0, .read⟩) s'' ∧
    s.server.touched? ⟨0, 0, 0, .read⟩ = some a ∧
    s'.server.touched? ⟨1, 0, 0, .read⟩ = some a' ∧ ¬ Overlapping a a' := by
  have hrun : ∃ server s s₁ s'',
      Server.new twoClientConfig.clients twoClientConfig.server false spreadAllocation =
        .ok server ∧
      Trace System.Step (System.start server 2
          [[⟨0, .read, by decide⟩], [⟨0, .read, by decide⟩]])
        [.pushed 0 ⟨0, 0, 0, .read⟩, .pushed 1 ⟨1, 0, 0, .read⟩] s ∧
      System.Step s (.handled ⟨0, 0, 0, .read⟩) s₁ ∧
      System.Step s₁ (.handled ⟨1, 0, 0, .read⟩) s'' :=
    ⟨_, _, _, _, rfl, .cons (.pushed rfl rfl) (Trace.single.mpr (.pushed rfl rfl)),
      @System.Step.handled _ (fun _ _ => 0) 0 _ _ _ rfl rfl rfl,
      @System.Step.handled _ (fun _ _ => 0) 0 _ _ _ rfl rfl rfl⟩
  obtain ⟨server, s, s₁, s'', start, run, step, step'⟩ := hrun
  have mapped : MappedApart twoClientConfig.server.numTiers twoClientConfig.clients
      spreadAllocation := by
    constructor
    · intro layer _
      cases layer <;> decide
    · intro layer layer' _ _ _
      cases layer <;> cases layer' <;> first
        | contradiction
        | decide
  have hdraw : (MemoryAccessGenerator.new .uniform 1 (MemoryAccessGenerator.allPages 1)).Draws 0 :=
    ⟨by decide, by decide⟩
  have asked : Asked twoClientConfig
      [[⟨0, .read, by decide⟩], [⟨0, .read, by decide⟩]] := by
    intro c rs hrs
    match c with
    | 0 =>
      cases hrs
      exact ⟨_, rfl, by decide, _, .refl _, .cons hdraw (.nil _)⟩
    | 1 =>
      cases hrs
      exact ⟨_, rfl, by decide, _, .refl _, .cons hdraw (.nil _)⟩
    | c + 2 => cases hrs
  obtain ⟨a, a', ha, ha', _, _, hoverlap⟩ := clients_share_no_memory start mapped asked run step
    (by decide) (.nil s₁) step' (by decide)
  refine ⟨server, s, s₁, s₁, s'', a, a', start, run, step, .nil s₁, step', ha, ha', ?_⟩
  rw [hoverlap]
  exact fun hsame => absurd hsame.1 (by decide)

end Sharing

end MemoryTiering
