import Mathlib.Data.List.GetD
import MemoryTiering.Generator
import MemoryTiering.Laws.Server.Delivery
import MemoryTiering.Laws.Server.Numbering

/-!
# Clients keep to their pages

The server adds what a client names to the client's base, and checks nothing. So a client keeps to
its pages exactly when its generator stays below the client's total. It does, under every pattern,
unless that total is zero: then the uniform range wraps to all of `size_t`, and the two others name
page zero, which is the next client's (`access_isolated_iff`).
-/

set_option autoImplicit false

namespace MemoryTiering

open Transition

/-! ## The generator -/

namespace MemoryAccessGenerator

section Generator

variable {pattern : AccessPattern} {n : SizeT} {shuffled : List SizeT}

/-- What the ceiling makes of the size, before it becomes a `size_t` again. -/
theorem hotCount_bounds (n : Nat) :
    (Rounding.round 53 (Rounding.round 53 n * fifth) + (2 ^ 55 - 1)) / 2 ^ 55 ≤ n ∧
      (0 < n →
        0 < (Rounding.round 53 (Rounding.round 53 n * fifth) + (2 ^ 55 - 1)) / 2 ^ 55) := by
  have hsize := Rounding.round_le n (by decide : 0 < 53)
  have hproduct := Rounding.round_le (Rounding.round 53 n * fifth) (by decide : 0 < 53)
  have hfifth : fifth = 7205759403792794 := rfl
  constructor
  · rw [hfifth] at hproduct ⊢
    omega
  · intro hn
    have hpos := Rounding.round_pos (by decide : 0 < 53)
      (Nat.mul_pos (Rounding.round_pos (by decide : 0 < 53) hn) (by decide : 0 < fifth))
    omega

/-- **There are no more hot pages than pages.** -/
theorem hotCount_le (n : SizeT) : (hotCount n).toNat ≤ n.toNat := by
  have hle := (hotCount_bounds n.toNat).1
  have hlt := n.toNat_lt
  rw [hotCount, SizeT.toNat_ofNat (by omega)]
  exact hle

/-- **There is one**, where there are pages. -/
theorem hotCount_pos (h : 0 < n.toNat) : 0 < (hotCount n).toNat := by
  have hle := (hotCount_bounds n.toNat).1
  have hlt := n.toNat_lt
  rw [hotCount, SizeT.toNat_ofNat (by omega)]
  exact (hotCount_bounds n.toNat).2 h

/-- The hot pages are the first of the shuffled ones. -/
theorem lookup_hotPagesOf (shuffled : List SizeT) {count i : Nat} (hi : i < count)
    (hcount : count < 2 ^ 64) :
    (hotPagesOf shuffled count).lookup (UInt64.ofNat i) = some (shuffled.getD i 0) := by
  induction count with
  | zero => exact (Nat.not_lt_zero i hi).elim
  | succ count ih =>
    rw [hotPagesOf]
    rcases Nat.lt_succ_iff_lt_or_eq.mp hi with hlt | rfl
    · have hne : UInt64.ofNat i ≠ UInt64.ofNat count := by
        intro heq
        have hnat := congrArg UInt64.toNat heq
        rw [SizeT.toNat_ofNat (by omega), SizeT.toNat_ofNat (by omega)] at hnat
        omega
      rw [AList.lookup_insert_ne hne]
      exact ih hlt (by omega)
    · exact AList.lookup_insert _

/-- A shuffled page is a page. -/
theorem getD_lt_of_perm (h : shuffled.Perm (allPages n)) {i : Nat} (hi : i < n.toNat) :
    (shuffled.getD i 0).toNat < n.toNat := by
  have hlength : i < shuffled.length := by
    rw [h.length_eq, allPages, List.length_map, List.length_range]
    exact hi
  have hmem : shuffled.getD i 0 ∈ allPages n := by
    rw [List.getD_eq_getElem _ _ hlength]
    exact h.mem_iff.mp (List.getElem_mem hlength)
  obtain ⟨k, hk, heq⟩ := List.mem_map.mp hmem
  have hk' := List.mem_range.mp hk
  rw [← heq, SizeT.toNat_ofNat (hk'.trans n.toNat_lt)]
  exact hk'

/-- A draw that is a key of the hot pages. -/
theorem generatePid_hot {g : MemoryAccessGenerator} {draw pid : SizeT} (h : g.pattern = .hot)
    (found : g.hotPages.lookup draw = some pid) : g.generatePid draw = (pid, g) := by
  unfold generatePid
  rw [h]
  dsimp only
  rw [found]

/-- **A generator stays below its size**, and as it is. -/
theorem generatePid_lt (h : shuffled.Perm (allPages n)) (hn : 0 < n.toNat) {draw : SizeT}
    (drawn : (new pattern n shuffled).Draws draw) :
    ((new pattern n shuffled).generatePid draw).1.toNat < n.toNat ∧
      ((new pattern n shuffled).generatePid draw).2 = new pattern n shuffled := by
  have hone : ∀ {m : SizeT}, 0 < m.toNat → draw ≤ m - 1 → draw.toNat < m.toNat := by
    intro m hm hle
    rw [UInt64.le_iff_toNat_le, SizeT.toNat_pred hm] at hle
    omega
  cases pattern with
  | uniform => exact ⟨hone hn drawn.2, rfl⟩
  | hot =>
    have hdraw := hone (hotCount_pos hn) drawn.2
    have hlookup := lookup_hotPagesOf shuffled hdraw (hotCount n).toNat_lt
    rw [UInt64.ofNat_toNat] at hlookup
    rw [generatePid_hot rfl hlookup]
    exact ⟨getD_lt_of_perm h (Nat.lt_of_lt_of_le hdraw (hotCount_le n)), rfl⟩
  | zipfian =>
    rcases drawn with hlt | ⟨hnone, _⟩
    · exact ⟨hlt, rfl⟩
    · exact absurd hnone hn.ne'

/-- **The run lemma**: so does every page it ever chooses. -/
theorem Generates.lt (h : shuffled.Perm (allPages n)) (hn : 0 < n.toNat) {pids : List SizeT}
    (generates : (new pattern n shuffled).Generates pids) : ∀ pid ∈ pids, pid.toNat < n.toNat := by
  generalize hg : new pattern n shuffled = g at generates
  induction generates with
  | nil g => exact nofun
  | @cons g draw pids drawn _ ih =>
    subst hg
    obtain ⟨hlt, hsame⟩ := generatePid_lt h hn drawn
    intro pid hpid
    rcases List.mem_cons.mp hpid with rfl | hrest
    · exact hlt
    · exact ih hsame.symm pid hrest

end Generator

end MemoryAccessGenerator

/-! ## The messages of a client -/

section Isolation

variable {config : AcceptedConfig} {useCacheRing : Bool} {alloc : PageTable.Allocation}
  {server : Server} {bufferSize : SizeT} {requests : List (List Request)} {es : List System.Event}
  {s s' : System} {msg : ClientMessage} {client : ClientConfig}

/-- A read or write that is handled was asked for. -/
theorem exists_request (run : Trace System.Step (System.start server bufferSize requests) es s)
    (step : System.Step s (.handled msg) s') (access : msg.opType ≠ .endOp) :
    ∃ rs, requests[msg.clientId]? = some rs ∧ msg.pid ∈ rs.map (·.pid) := by
  have hmessages := System.messages_eq (run.snoc step) msg.clientId
  have hmem : msg ∈ (requests[msg.clientId]?.map (Client.messages msg.clientId)).getD [] := by
    rw [hmessages, List.mem_append]
    left
    rw [List.mem_filter]
    refine ⟨?_, decide_eq_true rfl⟩
    have hsplit : System.handled (es ++ [.handled msg]) =
        System.handled es ++ System.handled [.handled msg] := List.filterMap_append
    rw [hsplit]
    exact List.mem_append_right _ (List.mem_singleton_self msg)
  cases hrs : requests[msg.clientId]? with
  | none =>
    rw [hrs] at hmem
    cases hmem
  | some rs =>
    rw [hrs] at hmem
    refine ⟨rs, rfl, ?_⟩
    rcases List.mem_append.mp hmem with hmap | hend
    · obtain ⟨request, hrequest, hmsg⟩ := List.mem_map.mp hmap
      rw [← hmsg]
      exact List.mem_map_of_mem hrequest
    · rw [List.mem_singleton.mp hend] at access
      exact (access rfl).elim

/-- **A client keeps to its pages**, whatever its pattern, its shuffle and its draws, exactly when
it has any. -/
theorem access_isolated_iff
    (start : Server.new config.clients config.server useCacheRing alloc = .ok server)
    (requested : ∀ (c : Nat) client rs, config.clients[c]? = some client → requests[c]? = some rs →
      Client.Requests client (rs.map (·.pid)))
    (run : Trace System.Step (System.start server bufferSize requests) es s)
    (step : System.Step s (.handled msg) s') (access : msg.opType ≠ .endOp)
    (hclient : config.clients[msg.clientId]? = some client) :
    ((s.server.basePageId.getD msg.clientId 0).toNat ≤ (s.server.pageIndex msg).toNat ∧
        (s.server.pageIndex msg).toNat < (s.server.basePageId.getD msg.clientId 0).toNat +
          (client.tierSizes.map UInt64.toNat).sum) ↔
      (client.tierSizes.map UInt64.toNat).sum ≠ 0 := by
  have tiers : config.server.numTiers = 2 ∨ config.server.numTiers = 3 := by
    rw [config.server_eq.1]
    exact config.tiers
  have sizes : ∀ client ∈ config.clients, client.tierSizes.length = config.server.numTiers := by
    rw [config.server_eq.1]
    exact config.sizes
  have hmem := List.mem_of_getElem? hclient
  obtain ⟨laid, init, bases⟩ := Server.new_spec tiers config.server_eq.2 start
  have small : (layout config.server.numTiers config.clients).length < 2 ^ 64 := by
    rw [← laid.size]
    exact init.numbered.small
  have hserves := System.serves_of_run run
    (Server.serves_start start (List.ne_nil_of_mem hmem)).2.2
  rw [← hserves.bases] at bases
  have htotal := toNat_clientPageSize tiers sizes small hmem
  have hbase := toNat_base tiers bases small hclient
  rw [← length_layers_eq_sum tiers (sizes client hmem), Server.pageIndex_eq]
  constructor
  · omega
  · intro hpages
    obtain ⟨rs, hrs, hpid⟩ := exists_request run step access
    obtain ⟨shuffled, hperm, hgenerates⟩ := requested _ _ _ hclient hrs
    have hlt := hgenerates.lt hperm (by omega) msg.pid hpid
    rw [htotal] at hlt
    have hpage := toNat_clientPage tiers bases small hclient hlt
    omega

/-- The hot page of a client with no pages is page zero, which belongs to the other client. -/
theorem empty_client_reaches_next : ∃ server s s',
    Server.new emptyClientConfig.clients emptyClientConfig.server false plainAllocation =
      .ok server ∧
    Client.Requests ⟨.hot, [0, 0, 0]⟩ [0] ∧
    Trace System.Step (System.start server 1 [[⟨0, .read, by decide⟩]])
      [.pushed 0 ⟨0, 0, 0, .read⟩] s ∧
    System.Step s (.handled ⟨0, 0, 0, .read⟩) s' ∧
    ¬ ((s.server.basePageId.getD 0 0).toNat ≤ (s.server.pageIndex ⟨0, 0, 0, .read⟩).toNat ∧
        (s.server.pageIndex ⟨0, 0, 0, .read⟩).toNat <
          (s.server.basePageId.getD 0 0).toNat + ([0, 0, 0].map UInt64.toNat).sum) ∧
    s.server.pageIndex ⟨0, 0, 0, .read⟩ = s.server.clientPage (1, 0) := by
  have hrun : ∃ server s s',
      Server.new emptyClientConfig.clients emptyClientConfig.server false plainAllocation =
        .ok server ∧
      Trace System.Step (System.start server 1 [[⟨0, .read, by decide⟩]])
        [.pushed 0 ⟨0, 0, 0, .read⟩] s ∧
      System.Step s (.handled ⟨0, 0, 0, .read⟩) s' ∧ s.server.basePageId = [0, 0] :=
    ⟨_, _, _, rfl, Trace.single.mpr (.pushed rfl rfl),
      @System.Step.handled _ (fun _ _ => 0) 0 _ _ _ rfl rfl rfl, rfl⟩
  obtain ⟨server, s, s', start, run, step, hbases⟩ := hrun
  have hzero : MemoryAccessGenerator.hotCount 0 = 0 := by
    rw [← UInt64.toNat_inj]
    exact Nat.le_zero.mp (MemoryAccessGenerator.hotCount_le 0)
  have hnew : MemoryAccessGenerator.new .hot 0 [] =
      { pattern := .hot, memorySpaceSize := 0, hotDist := { min := 0, max := 0 - 1 } } := by
    unfold MemoryAccessGenerator.new
    dsimp only
    rw [hzero]
    rfl
  have hrequests : Client.Requests ⟨.hot, [0, 0, 0]⟩ [0] := by
    refine ⟨[], .refl _, ?_⟩
    show (MemoryAccessGenerator.new .hot 0 []).Generates [0]
    rw [hnew]
    have drawn : MemoryAccessGenerator.Draws
        { pattern := .hot, memorySpaceSize := 0, hotDist := { min := 0, max := 0 - 1 } } 0 :=
      ⟨by decide, by decide⟩
    exact .cons drawn (.nil _)
  refine ⟨server, s, s', start, hrequests, run, step, ?_, ?_⟩
  · unfold Server.pageIndex
    rw [hbases]
    decide
  · unfold Server.pageIndex Server.clientPage
    rw [hbases]
    decide

/-- A client of two pages reads its second one. -/
theorem client_reads_own_page : ∃ server s s',
    Server.new (smallConfig 1 1 (by decide)).clients (smallConfig 1 1 (by decide)).server false
      plainAllocation = .ok server ∧
    Trace System.Step (System.start server 1 [[⟨1, .read, by decide⟩]])
      [.pushed 0 ⟨0, 1, 0, .read⟩] s ∧
    System.Step s (.handled ⟨0, 1, 0, .read⟩) s' ∧
    (s.server.pageIndex ⟨0, 1, 0, .read⟩).toNat < (s.server.basePageId.getD 0 0).toNat + 2 := by
  have hrun : ∃ server s s',
      Server.new (smallConfig 1 1 (by decide)).clients (smallConfig 1 1 (by decide)).server false
        plainAllocation = .ok server ∧
      Trace System.Step (System.start server 1 [[⟨1, .read, by decide⟩]])
        [.pushed 0 ⟨0, 1, 0, .read⟩] s ∧
      System.Step s (.handled ⟨0, 1, 0, .read⟩) s' :=
    ⟨_, _, _, rfl, Trace.single.mpr (.pushed rfl rfl),
      @System.Step.handled _ (fun _ _ => 0) 0 _ _ _ rfl rfl rfl⟩
  obtain ⟨server, s, s', start, run, step⟩ := hrun
  have hrequests : Client.Requests ⟨.uniform, [1, 1, 0]⟩ [1] := by
    refine ⟨_, .refl _, ?_⟩
    have drawn : (MemoryAccessGenerator.new .uniform 2
        (MemoryAccessGenerator.allPages 2)).Draws 1 := ⟨by decide, by decide⟩
    exact .cons drawn (.nil _)
  refine ⟨server, s, s', start, run, step, ?_⟩
  have hisolated := access_isolated_iff start ?_ run step (by decide) rfl
  · exact (hisolated.mpr (by decide)).2
  · intro c client rs hclient hrs
    cases c with
    | zero => cases hclient; cases hrs; exact hrequests
    | succ c => cases hclient

end Isolation

end MemoryTiering
