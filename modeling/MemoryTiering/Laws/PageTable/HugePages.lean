import MemoryTiering.Laws.PageTable.Regions
import MemoryTiering.Lib.Alignment

/-!
# Huge pages

After every round the scanner asks the kernel for huge pages under the three regions. It rounds the
start of a region down to a huge page and its end up, in 64-bit arithmetic with masks. Over every
run, and on two tiers as on three, the ranges it asks for are whole huge pages, and they are the
huge pages that hold a page of the table, no more and no fewer (`rounds_advise_the_table`). What the
kernel promises of a mapping suffices: it is not at null, on a page boundary, and not in the last
huge page of the address space.
-/

set_option autoImplicit false

namespace MemoryTiering

open Fallible Transition

namespace PageTable

/-- The byte is in the range of the call. -/
def Advice.Covers (advice : Advice) (x : Nat) : Prop :=
  advice.address.toNat ≤ x ∧ x < advice.address.toNat + advice.length.toNat

/-- The call is for whole huge pages. -/
structure Advice.Whole (advice : Advice) : Prop where
  address : hugePageSize.toNat ∣ advice.address.toNat
  length : hugePageSize.toNat ∣ advice.length.toNat

/-- Two bytes are in one huge page. -/
def SameHugePage (x y : Nat) : Prop := x / hugePageSize.toNat = y / hugePageSize.toNat

/-- What a mapping of `numPages` pages is promised to be, with a huge page to spare behind it below
`2 ^ 64`: the kernel maps nothing up there. -/
structure HugelyMapped (base : SizeT) (numPages : Nat) : Prop where
  nonnull : base ≠ 0
  aligned : pageSize.toNat ∣ base.toNat
  fits : base.toNat + numPages * pageSize.toNat + hugePageSize.toNat ≤ 2 ^ 64

/-- Regions of which two lie in one huge page. -/
def neighbours : Allocation where
  base
    | .numaLocal => 0x201000
    | .numaRemote => 0x3ff000
    | .pmem => 0x800000
  now _ := 0
  rawAccessCnt _ := 0

/-! ## One region -/

section Region

variable {base numPages : SizeT}

/-- **The advice for a region** starts at the huge page of its first byte and ends behind that of
its last. -/
theorem promoteRegion_spec (mapped : HugelyMapped base numPages.toNat) (some : numPages ≠ 0) :
    ∃ advice, promoteRegion base numPages = .some advice ∧ advice.Whole ∧
      ∀ x, advice.Covers x ↔ base.toNat / hugePageSize.toNat ≤ x / hugePageSize.toNat ∧
        x / hugePageSize.toNat ≤
          (base.toNat + (numPages.toNat * pageSize.toNat - 1)) / hugePageSize.toNat := by
  have hhuge : hugePageSize = UInt64.ofNat (2 ^ 21) := rfl
  have hhugeNat : hugePageSize.toNat = 2 ^ 21 := rfl
  have hpage : pageSize.toNat = 4096 := rfl
  have hpos : 0 < numPages.toNat := Nat.pos_of_ne_zero fun h => some (UInt64.toNat_inj.mp h)
  have hfits := mapped.fits
  rw [hhugeNat, hpage] at hfits
  unfold promoteRegion
  rw [if_neg (not_or.mpr ⟨mapped.nonnull, some⟩)]
  have haddress : (base &&& ~~~(hugePageSize - 1)).toNat = base.toNat / 2 ^ 21 * 2 ^ 21 := by
    rw [hhuge, Alignment.toNat_maskDown (by decide)]
  have hoffset : (base - (base &&& ~~~(hugePageSize - 1))).toNat = base.toNat % 2 ^ 21 := by
    rw [UInt64.toNat_sub_of_le, haddress]
    · omega
    · rw [UInt64.le_iff_toNat_le, haddress]
      omega
  have hproduct : (numPages * pageSize).toNat = numPages.toNat * 4096 := by
    rw [UInt64.toNat_mul, hpage, Nat.mod_eq_of_lt (by omega)]
  have hsize : (numPages * pageSize + (base - (base &&& ~~~(hugePageSize - 1)))).toNat =
      numPages.toNat * 4096 + base.toNat % 2 ^ 21 := by
    rw [SizeT.toNat_add, hproduct, hoffset]
    rw [hproduct, hoffset]
    omega
  have hlength : (numPages * pageSize + (base - (base &&& ~~~(hugePageSize - 1))) +
      hugePageSize - 1 &&& ~~~(hugePageSize - 1)).toNat =
        (numPages.toNat * 4096 + base.toNat % 2 ^ 21 + (2 ^ 21 - 1)) / 2 ^ 21 * 2 ^ 21 := by
    rw [← hsize, hhuge, Alignment.toNat_maskUp (by decide)]
    rw [← hhuge, hsize]
    omega
  refine ⟨_, rfl, ⟨?_, ?_⟩, fun x => ?_⟩
  · rw [hhugeNat, haddress]
    exact Nat.dvd_mul_left ..
  · rw [hhugeNat, hlength]
    exact Nat.dvd_mul_left ..
  · unfold Advice.Covers
    dsimp only
    rw [haddress, hlength, hhugeNat, hpage]
    omega

/-- **The advice for a region is for the huge pages under its pages.** -/
theorem promoteRegion_covers_iff {n : Nat} (mapped : 0 < n → HugelyMapped base n)
    (pages : numPages.toNat = n) (x : Nat) :
    (∃ advice ∈ promoteRegion base numPages, advice.Covers x) ↔
      ∃ k < n, SameHugePage x (base.toNat + k * pageSize.toNat) := by
  subst pages
  rcases Nat.eq_zero_or_pos numPages.toNat with hzero | hpos
  · have hnone : promoteRegion base numPages = none :=
      if_pos (.inr (UInt64.toNat_inj.mp hzero))
    rw [hnone, hzero]
    exact iff_of_false nofun nofun
  · obtain ⟨advice, hadvice, _, hcovers⟩ := promoteRegion_spec (mapped hpos)
      (fun h => by rw [h] at hpos; exact Nat.lt_irrefl 0 hpos)
    have hunits := Alignment.exists_unit_iff (b := x / hugePageSize.toNat)
      (show 0 < pageSize.toNat by decide) (show pageSize.toNat ∣ hugePageSize.toNat by decide)
      (mapped hpos).aligned hpos
    rw [hadvice]
    simp only [Option.mem_def, Option.some.injEq, exists_eq_left', hcovers, ← hunits, SameHugePage]
    exact exists_congr fun k => and_congr_right fun _ => eq_comm

end Region

/-! ## The table -/

section Table

variable {clients : List ClientConfig} {server : ServerMemoryConfig} {ring : Bool}
  {alloc : Allocation} {t t' t₀ : PageTable}

/-- The load of a layer's region. -/
def load (t : PageTable) : PageLayer → SizeT
  | .numaLocal => t.localPageLoad
  | .numaRemote => t.remotePageLoad
  | .pmem => t.pmemPageLoad

/-- A load that does not wrap is the layer's demand, and none where the server has no such layer. -/
theorem toNat_load (tiers : server.numTiers = 2 ∨ server.numTiers = 3)
    (start : (new clients server ring).initPageTable alloc = .ok t₀)
    (initial : Initial clients server ring t₀) (layer : PageLayer) :
    (t₀.load layer).toNat = demand server.numTiers clients layer := by
  have hload : ∀ {i layer}, tierIndex server.numTiers layer = some i →
      (pageLoad clients i).toNat = demand server.numTiers clients layer := by
    intro i layer hi
    rw [pageLoad, toNat_foldl_add, UInt64.toNat_zero, Nat.zero_add, ← demand_eq hi,
      Nat.mod_eq_of_lt (initial.demand_lt layer)]
  obtain ⟨hlocal, hremote, hpmem⟩ := loads_initPageTable start
  cases layer with
  | numaLocal =>
    show t₀.localPageLoad.toNat = _
    rw [hlocal]
    show (if server.numTiers = 2 ∨ server.numTiers = 3 then _ else 0 : SizeT).toNat = _
    rw [if_pos tiers]
    exact hload rfl
  | numaRemote =>
    show t₀.remotePageLoad.toNat = _
    rw [hremote]
    show (if server.numTiers = 3 then _ else 0 : SizeT).toNat = _
    split
    next hthree => exact hload (if_pos hthree)
    next hthree =>
      have hnone : tierIndex server.numTiers .numaRemote = none := if_neg hthree
      rw [demand_eq_zero hnone, UInt64.toNat_zero]
  | pmem =>
    show t₀.pmemPageLoad.toNat = _
    rw [hpmem]
    show (if server.numTiers = 2 then _ else if server.numTiers = 3 then _ else 0 : SizeT).toNat = _
    rcases tiers with htwo | hthree
    · rw [if_pos htwo]
      exact hload (by rw [htwo]; rfl)
    · rw [if_neg (by omega), if_pos hthree]
      exact hload (by rw [hthree]; rfl)

/-- What `promoteToHugePage` asks for, layer by layer: a region the server does not have has no
pages. -/
theorem mem_promoteToHugePage (base : PageLayer → SizeT)
    (tiers : t.serverConfig.numTiers = 3 ∨ t.remotePageLoad = 0) (advice : Advice) :
    advice ∈ t.promoteToHugePage base ↔
      ∃ layer, advice ∈ promoteRegion (base layer) (t.load layer) := by
  have hremote : advice ∈ (if t.serverConfig.numTiers = 3 then
      (promoteRegion (base .numaRemote) t.remotePageLoad).toList else []) ↔
      advice ∈ promoteRegion (base .numaRemote) t.remotePageLoad := by
    split
    next => exact Option.mem_toList
    next htwo =>
      have hnone : promoteRegion (base .numaRemote) t.remotePageLoad = none :=
        if_pos (.inr (tiers.resolve_left htwo))
      rw [hnone]
      exact iff_of_false nofun nofun
  unfold promoteToHugePage
  rw [List.mem_append, List.mem_append, hremote, Option.mem_toList, Option.mem_toList]
  constructor
  · rintro ((h | h) | h)
    · exact ⟨.numaLocal, h⟩
    · exact ⟨.numaRemote, h⟩
    · exact ⟨.pmem, h⟩
  · rintro ⟨layer, h⟩
    cases layer with
    | numaLocal => exact .inl (.inl h)
    | numaRemote => exact .inl (.inr h)
    | pmem => exact .inr h

/-- The pages of a filled table, by the ranks of their layers. -/
theorem exists_address_iff (laid : Laid clients server.numTiers alloc t₀)
    (small : (layout server.numTiers clients).length < 2 ^ 64)
    (fits : ∀ layer, 0 < demand server.numTiers clients layer →
      (alloc.base layer).toNat + demand server.numTiers clients layer * pageSize.toNat ≤ 2 ^ 64)
    (P : Nat → Prop) : (∃ p a, t₀.address? p = some a ∧ P a.toNat) ↔
      ∃ layer, ∃ k < demand server.numTiers clients layer,
        P ((alloc.base layer).toNat + k * pageSize.toNat) := by
  constructor
  · rintro ⟨p, a, ha, hP⟩
    obtain ⟨layer, _, hlt, haddress⟩ := laid.place fits ha
    exact ⟨layer, _, hlt, haddress ▸ hP⟩
  · rintro ⟨layer, k, hk, hP⟩
    have hfits := fits layer (Nat.zero_lt_of_lt hk)
    have hat := toNat_page_add hk hfits
    have hrank : Option.map UInt64.toNat (some (alloc.base layer + UInt64.ofNat k * pageSize)) =
        some ((alloc.base layer).toNat + k * pageSize.toNat) := congrArg some hat
    obtain ⟨p, _, hp⟩ := (laid.addresses small hfits).surjOn ⟨k, hk, hrank⟩
    exact ⟨p, _, hp, hat ▸ hP⟩

/-- **The advice for a filled table** is for whole huge pages, and for those under its pages. -/
theorem advice_covers_iff (tiers : server.numTiers = 2 ∨ server.numTiers = 3)
    (empty : ∀ layer, (server.layer layer).count = 0)
    (start : (new clients server ring).initPageTable alloc = .ok t₀)
    (mapped : ∀ layer, 0 < demand server.numTiers clients layer →
      HugelyMapped (alloc.base layer) (demand server.numTiers clients layer)) :
    (∀ advice ∈ t₀.promoteToHugePage alloc.base, advice.Whole) ∧
      ∀ x, (∃ advice ∈ t₀.promoteToHugePage alloc.base, advice.Covers x) ↔
        ∃ p a, t₀.address? p = some a ∧ SameHugePage x a.toNat := by
  have laid := initPageTable_layout tiers empty start
  have initial := initPageTable_spec tiers empty start
  have hload := toNat_load tiers start initial
  have hlayers : t₀.serverConfig.numTiers = 3 ∨ t₀.remotePageLoad = 0 := by
    rw [show t₀.serverConfig.numTiers = server.numTiers from initial.frame.numTiers]
    rcases tiers with htwo | hthree
    · right
      have hremote := hload .numaRemote
      rw [demand_eq_zero (by rw [htwo]; rfl)] at hremote
      exact UInt64.toNat_inj.mp hremote
    · exact .inl hthree
  have small : (layout server.numTiers clients).length < 2 ^ 64 :=
    laid.size ▸ initial.numbered.small
  have fits : ∀ layer, 0 < demand server.numTiers clients layer →
      (alloc.base layer).toNat + demand server.numTiers clients layer * pageSize.toNat ≤
        2 ^ 64 := fun layer hpos => (Nat.le_add_right ..).trans (mapped layer hpos).fits
  constructor
  · intro advice hadvice
    obtain ⟨layer, hregion⟩ := (mem_promoteToHugePage alloc.base hlayers advice).mp hadvice
    have hsome : t₀.load layer ≠ 0 := by
      intro hzero
      rw [hzero, promoteRegion, if_pos (.inr rfl)] at hregion
      cases hregion
    have hpos : 0 < demand server.numTiers clients layer := by
      rw [← hload]
      exact Nat.pos_of_ne_zero fun h => hsome (UInt64.toNat_inj.mp h)
    obtain ⟨_, hregion', hwhole, _⟩ :=
      promoteRegion_spec ((hload layer).symm ▸ mapped layer hpos) hsome
    rw [hregion', Option.mem_some_iff] at hregion
    exact hregion ▸ hwhole
  · intro x
    rw [exists_address_iff laid small fits]
    simp only [← promoteRegion_covers_iff (mapped _) (hload _),
      mem_promoteToHugePage alloc.base hlayers]
    constructor
    · rintro ⟨advice, ⟨layer, hregion⟩, hcovers⟩
      exact ⟨layer, advice, hregion, hcovers⟩
    · rintro ⟨layer, advice, hregion, hcovers⟩
      exact ⟨advice, ⟨layer, hregion⟩, hcovers⟩

/-! ## Runs -/

/-- What is asked for goes by the regions alone. -/
theorem SameRegions.promoteToHugePage (h : SameRegions t t') (base : PageLayer → SizeT) :
    t'.promoteToHugePage base = t.promoteToHugePage base := by
  unfold PageTable.promoteToHugePage
  rw [h.localPageLoad, h.remotePageLoad, h.pmemPageLoad, h.numTiers]

/-- A step keeps the regions, and asks for huge pages under them if it ends a round. -/
theorem Scans.sameRegions {base : PageLayer → SizeT} {e : Option Scanner.Iteration}
    (h : Scans base t e t') : SameRegions t t' ∧
      ∀ i, e = some i → ∀ advices, i.endOfRound = some advices →
        advices = t'.promoteToHugePage base := by
  cases h with
  | access call => exact ⟨sameRegions_accessPage call, nofun⟩
  | iterate call =>
    obtain ⟨⟨p, t₁⟩, hvisit, call⟩ := bind_eq_ok.mp call
    cases call
    constructor
    · exact sameRegions_round (visit_eq_ok hvisit).2
    · rintro i hi advices hend
      cases hi
      dsimp only at hend
      split at hend
      · exact (Option.some.inj hend).symm
      · cases hend

/-- **The run lemma**: every round of a run ends in the same advice. -/
theorem Scans.advices_eq {base : PageLayer → SizeT} {es : List (Option Scanner.Iteration)}
    (run : Trace (Scans base) t es t') : SameRegions t t' ∧
      ∀ i, some i ∈ es → ∀ advices, i.endOfRound = some advices →
        advices = t'.promoteToHugePage base := by
  induction run with
  | nil t => exact ⟨framed_sameRegions.refl t, nofun⟩
  | cons hstep _ ih =>
    obtain ⟨hfirst, hnow⟩ := Scans.sameRegions hstep
    obtain ⟨hrest, hlater⟩ := ih
    refine ⟨framed_sameRegions.trans hfirst hrest, ?_⟩
    intro i hi advices hend
    rcases List.mem_cons.mp hi with heq | hi
    · rw [hrest.promoteToHugePage]
      exact hnow i heq.symm advices hend
    · exact hlater i hi advices hend

/-- **Every round advises huge pages for the table**: over any run of accesses and iterations from a
filled table, on two tiers or three, an iteration that ends a round asks for whole huge pages, and a
byte is in one of them exactly if a page of the table is in the same huge page. -/
theorem rounds_advise_the_table (tiers : server.numTiers = 2 ∨ server.numTiers = 3)
    (empty : ∀ layer, (server.layer layer).count = 0)
    (start : (new clients server ring).initPageTable alloc = .ok t₀)
    (mapped : ∀ layer, 0 < demand server.numTiers clients layer →
      HugelyMapped (alloc.base layer) (demand server.numTiers clients layer))
    {es : List (Option Scanner.Iteration)} (run : Trace (Scans alloc.base) t₀ es t)
    {i : Scanner.Iteration} (hi : some i ∈ es) {advices : List Advice}
    (ends : i.endOfRound = some advices) :
    (∀ advice ∈ advices, advice.Whole) ∧
      ∀ x, (∃ advice ∈ advices, advice.Covers x) ↔
        ∃ p a, t.address? p = some a ∧ SameHugePage x a.toNat := by
  obtain ⟨same, hadvices⟩ := Scans.advices_eq run
  rw [hadvices i hi advices ends, same.promoteToHugePage]
  simp only [same.address]
  exact advice_covers_iff tiers empty start mapped

/-- A local page and a remote one in the same huge page, which is asked for twice. -/
theorem neighbours_advised : ∃ t₀ t i advices,
    (smallConfig 1 1 (by decide)).start false neighbours = .ok t₀ ∧
    Trace (Scans neighbours.base) t₀ [some ⟨0, none⟩, some i] t ∧
    i.endOfRound = some advices ∧ (∀ advice ∈ advices, advice.Whole) ∧
    ∃ advice ∈ advices, advice.Covers 0x200000 := by
  have hrun : ∃ t₀ t₁ t i advices, (smallConfig 1 1 (by decide)).start false neighbours = .ok t₀ ∧
      Scanner.iterate neighbours.base Scanner.alwaysCold 0 0 t₀ = .ok (⟨0, none⟩, t₁) ∧
      Scanner.iterate neighbours.base Scanner.alwaysCold 0 0 t₁ = .ok (i, t) ∧
      i.endOfRound = some advices ∧ t.address? 0 = some 0x201000 :=
    ⟨_, _, _, _, _, rfl, rfl, rfl, rfl, rfl⟩
  obtain ⟨t₀, t₁, t, i, advices, start, hfirst, hsecond, ends, haddress⟩ := hrun
  have run : Trace (Scans neighbours.base) t₀ [some ⟨0, none⟩, some i] t :=
    .cons (.iterate hfirst) (.cons (.iterate hsecond) (.nil t))
  obtain ⟨whole, covers⟩ := rounds_advise_the_table (.inr rfl)
    (by intro layer; cases layer <;> rfl) start
    (by
      intro layer _
      cases layer <;> exact ⟨by decide, by decide, by decide⟩)
    run (by simp) ends
  exact ⟨t₀, t, i, advices, start, run, ends, whole,
    (covers 0x200000).mpr ⟨0, 0x201000, haddress, rfl⟩⟩

end Table

end PageTable

end MemoryTiering
