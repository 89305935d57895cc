import MemoryTiering.Laws.Scanner.Coverage
import MemoryTiering.Laws.Server.Numbering

/-!
# What no call changes

The pages have their addresses and the regions their sizes from the start, and no access or
migration writes them: a migration changes the node behind an address, never the address. So what a
filled table was laid out as stays true of it over every run (`SameRegions.run`).
-/

set_option autoImplicit false

namespace MemoryTiering

open Fallible Transition

namespace PageTable

/-- Where a page is: its layer, and its rank among the pages of the layer. -/
theorem Laid.place {clients : List ClientConfig} {numTiers : Nat} {alloc : Allocation}
    {t : PageTable} {p : PageId} {a : SizeT} (h : Laid clients numTiers alloc t)
    (fits : ∀ layer, 0 < demand numTiers clients layer →
      (alloc.base layer).toNat + demand numTiers clients layer * pageSize.toNat ≤ 2 ^ 64)
    (ha : t.address? p = some a) : ∃ layer,
      p.toNat ∈ {i | (layout numTiers clients)[i]? = some layer} ∧
      Segments.rank (layout numTiers clients) layer p.toNat < demand numTiers clients layer ∧
      a.toNat = (alloc.base layer).toNat +
        Segments.rank (layout numTiers clients) layer p.toNat * pageSize.toNat := by
  rw [h.address?_eq] at ha
  obtain ⟨layer, hlayer, rfl⟩ := Option.map_eq_some_iff.mp ha
  have hrank := (Segments.bijOn_rank (layout numTiers clients) layer).mapsTo hlayer
  rw [count_layout] at hrank
  have hlt : _ < demand numTiers clients layer := hrank
  exact ⟨layer, hlayer, hlt, toNat_page_add hlt (fits layer (Nat.zero_lt_of_lt hlt))⟩

/-- The same addresses and regions. -/
structure SameRegions (t t' : PageTable) : Prop where
  address : ∀ p, t'.address? p = t.address? p
  localPageLoad : t'.localPageLoad = t.localPageLoad
  remotePageLoad : t'.remotePageLoad = t.remotePageLoad
  pmemPageLoad : t'.pmemPageLoad = t.pmemPageLoad
  numTiers : t'.serverConfig.numTiers = t.serverConfig.numTiers

theorem SameRegions.symm {t t' : PageTable} (h : SameRegions t t') : SameRegions t' t :=
  ⟨fun p => (h.address p).symm, h.localPageLoad.symm, h.remotePageLoad.symm, h.pmemPageLoad.symm,
    h.numTiers.symm⟩

section Calls

variable {t t' : PageTable} {p : PageId}

theorem sameRegions_store (t : PageTable) (p : PageId) (f : PageMetadata → PageMetadata) :
    SameRegions t (t.store p f) where
  address q := by
    unfold address? store
    rw [Table.lookup_update, Option.map_map]
    congr 1
    funext e
    rw [Function.comp_apply]
    split <;> rfl
  localPageLoad := rfl
  remotePageLoad := rfl
  pmemPageLoad := rfl
  numTiers := rfl

theorem framed_sameRegions : Framed SameRegions where
  refl _ := ⟨fun _ => rfl, rfl, rfl, rfl, rfl⟩
  trans h k := ⟨fun p => (k.address p).trans (h.address p), k.localPageLoad.trans h.localPageLoad,
    k.remotePageLoad.trans h.remotePageLoad, k.pmemPageLoad.trans h.pmemPageLoad,
    k.numTiers.trans h.numTiers⟩
  store := sameRegions_store
  withRing _ _ := ⟨fun _ => rfl, rfl, rfl, rfl, rfl⟩
  settle now t p current target := by
    have h := sameRegions_store t p (.reset now)
    refine ⟨h.address, h.localPageLoad, h.remotePageLoad, h.pmemPageLoad, ?_⟩
    show (t.serverConfig.recount current target).numTiers = t.serverConfig.numTiers
    unfold ServerMemoryConfig.recount
    rw [ServerMemoryConfig.numTiers_modify, ServerMemoryConfig.numTiers_modify]

theorem sameRegions_accessPage {latency : SizeT → OperationType → UInt64} {now : Nat}
    {mode : OperationType} (h : t.accessPage latency now p mode = .ok t') : SameRegions t t' := by
  rcases accessPage_cases h with ⟨_, rfl⟩ | ⟨e, t₁, _, rfl, hring⟩
  · exact framed_sameRegions.refl _
  · have h₁ : SameRegions t t₁ := by
      rcases hring with ⟨_, rfl⟩ | ⟨_, ring', _, _, rfl⟩
      · exact framed_sameRegions.refl _
      · exact framed_sameRegions.withRing t ring'
    have h₂ := framed_sameRegions.trans h₁ (sameRegions_store t₁ p (.accessed now))
    exact ⟨h₂.address, h₂.localPageLoad, h₂.remotePageLoad, h₂.pmemPageLoad, h₂.numTiers⟩

theorem sameRegions_round {classification : Scanner.Classification} {evictNow now : Nat}
    (h : Scanner.round classification evictNow now t = .ok t') : SameRegions t t' := by
  have hscan : SameRegions t t.scanNext.2 := ⟨fun _ => rfl, rfl, rfl, rfl, rfl⟩
  cases hrequest : (Scanner.scan classification t).1 with
  | none =>
    rw [round_rests hrequest] at h
    cases h
    exact hscan
  | some r =>
    rw [round_migrates hrequest] at h
    obtain ⟨⟨exit, t₁⟩, hcall, h⟩ := bind_eq_ok.mp h
    cases h
    exact framed_sameRegions.trans hscan (framed_sameRegions.migratePage hcall)

/-- No completed call changes them. -/
theorem sameRegions_call {c : Call} (h : c.apply t = .ok t') : SameRegions t t' := by
  cases c with
  | accessPage latency now p mode => exact sameRegions_accessPage h
  | migratePage evictNow now p target =>
    obtain ⟨exit, hcall⟩ := apply_migratePage h
    exact framed_sameRegions.migratePage hcall
  | scanNext =>
    cases h
    exact ⟨fun _ => rfl, rfl, rfl, rfl, rfl⟩

/-- **No run changes them.** -/
theorem SameRegions.run {es : List (PageTable × Call)} (run : Trace Step t es t') :
    SameRegions t t' := by
  refine run.invariant (P := SameRegions t) ?_ (framed_sameRegions.refl t)
  intro t₁ e t₂ h hstep
  exact framed_sameRegions.trans h (sameRegions_call hstep.call)

end Calls

/-! ## Filling -/

section Filling

variable {alloc : Allocation}

/-- What filling a page keeps, and counting it does not touch, holds of the table that is filled. -/
theorem Filling.invariant {P : PageTable → Prop}
    (page : ∀ {layer s s'}, P s.pageTable → Filling.fillPage alloc layer s = .ok s' →
      P s'.pageTable)
    (counted : ∀ t config, P t → P { t with serverConfig := config })
    {clients : List ClientConfig} {s s' : Filling} (start : P s.pageTable)
    (call : clients.foldlM (Filling.fillClient alloc) s = .ok s') : P s'.pageTable := by
  have pages : ∀ {count layer s s'}, P s.pageTable →
      Filling.fillPages alloc layer count s = .ok s' → P s'.pageTable := by
    intro count layer
    induction count with
    | zero =>
      intro s s' h call
      cases call
      exact h
    | succ count ih =>
      intro s s' h call
      obtain ⟨s₁, hpage, call⟩ := bind_eq_ok.mp call
      exact ih (page h hpage) call
  have layers : ∀ {layer count s s'}, P s.pageTable →
      Filling.fillLayer alloc layer count s = .ok s' → P s'.pageTable := by
    intro layer count s s' h call
    obtain ⟨s₁, hpages, call⟩ := bind_eq_ok.mp call
    cases call
    exact counted _ _ (pages h hpages)
  induction clients generalizing s with
  | nil =>
    cases call
    exact start
  | cons client clients ih =>
    rw [List.foldlM_cons] at call
    obtain ⟨s₁, hclient, call⟩ := bind_eq_ok.mp call
    refine ih ?_ call
    unfold Filling.fillClient at hclient
    split_ifs at hclient
    · obtain ⟨s₂, hlocal, hpmem⟩ := bind_eq_ok.mp hclient
      exact layers (layers start hlocal) hpmem
    · obtain ⟨s₂, hlocal, hclient⟩ := bind_eq_ok.mp hclient
      obtain ⟨s₃, hremote, hpmem⟩ := bind_eq_ok.mp hclient
      exact layers (layers (layers start hlocal) hremote) hpmem
    · cases hclient
      exact start

/-- The regions' sizes are the constructor's. -/
theorem loads_initPageTable {t t' : PageTable} (call : t.initPageTable alloc = .ok t') :
    t'.localPageLoad = t.localPageLoad ∧ t'.remotePageLoad = t.remotePageLoad ∧
      t'.pmemPageLoad = t.pmemPageLoad := by
  obtain ⟨s, hfold, call⟩ := bind_eq_ok.mp call
  cases call
  refine Filling.invariant
    (P := fun u => u.localPageLoad = t.localPageLoad ∧ u.remotePageLoad = t.remotePageLoad ∧
      u.pmemPageLoad = t.pmemPageLoad) ?_ (fun _ _ h => h) ⟨rfl, rfl, rfl⟩ hfold
  intro layer s s' h call
  unfold Filling.fillPage at call
  dsimp only at call
  split at call
  · cases call
  · obtain ⟨u, henter, call⟩ := bind_eq_ok.mp call
    cases call
    rcases enterRing_cases henter with ⟨_, rfl⟩ | ⟨_, _, _, _, _, _, rfl⟩
    · exact h
    · exact h

end Filling

end PageTable

end MemoryTiering
