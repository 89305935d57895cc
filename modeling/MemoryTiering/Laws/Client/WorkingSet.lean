import MemoryTiering.Laws.Client.Isolation
import Mathlib.Data.Finset.Card

/-!
# The working set of a client

What a client with pages may ask for is told by its pages alone. Under the uniform and the Zipf
pattern it is any of them in any order. Under the hot pattern it is any, so long as no more than a
fifth of the client's pages, rounded up, are ever named (`requests_iff`): the shuffle decides which
fifth. The ceiling of a product of doubles is that of the exact fifth up to `2 ^ 53` pages
(`hotCount_eq`), where the product is always nearer to the right integer than half a step.
-/

set_option autoImplicit false

namespace MemoryTiering

namespace MemoryAccessGenerator

/-! ## The size of the fifth -/

/-- The step of the doubles around a product. -/
theorem productStep_le {m : Nat} (h : m ≤ 2 ^ 53) : Nat.log 2 (m * fifth) + 1 - 53 ≤ 53 := by
  have hlt : m * fifth < 2 ^ 106 := by
    have hmul := Nat.mul_le_mul_right fifth h
    have hfifth : 2 ^ 53 * fifth < 2 ^ 106 := by decide
    exact Nat.lt_of_le_of_lt hmul hfifth
  have hlog := Nat.log_lt_of_lt_pow' (by decide) hlt
  omega

/-- The product is not rounded past the fifth, rounded up. -/
theorem round_product_le {m : Nat} (h : m ≤ 2 ^ 53) :
    Rounding.round 53 (m * fifth) ≤ (m + 4) / 5 * 2 ^ 55 := by
  have hstep := productStep_le h
  have hlt := Nat.lt_pow_succ_log_self Nat.one_lt_two (m * fifth)
  have hproduct : m * fifth = m * 7205759403792794 := rfl
  unfold Rounding.round
  generalize hk : Nat.log 2 (m * fifth) + 1 - 53 = k at hstep ⊢
  -- An integer is a multiple of the step.
  have hsplit : (m + 4) / 5 * 2 ^ 55 = (m + 4) / 5 * 2 ^ (55 - k) * 2 ^ k := by
    rw [Nat.mul_assoc, ← Nat.pow_add, Nat.sub_add_cancel (by omega)]
  rw [hsplit]
  apply Rounding.nearest_le_of_lt
  rw [← hsplit]
  have hpos := Nat.two_pow_pos k
  by_cases hover : m * fifth ≤ (m + 4) / 5 * 2 ^ 55
  · omega
  · -- The double above a fifth makes too much by two units for each integer, half a step at most.
    have hlarge : (m + 4) / 5 * 2 ^ 55 < 2 ^ k * 2 ^ 53 := by
      have hlog : k + 53 = Nat.log 2 (m * fifth) + 1 := by
        have hbig : 2 ^ 53 ≤ m * fifth := by omega
        have hle := Nat.le_log_of_pow_le Nat.one_lt_two hbig
        omega
      rw [← Nat.pow_add, hlog]
      omega
    omega

/-- It is rounded past the integer below. -/
theorem lt_round_product {m : Nat} (h : m ≤ 2 ^ 53) (hm : 0 < m) :
    ((m + 4) / 5 - 1) * 2 ^ 55 < Rounding.round 53 (m * fifth) := by
  have hstep := productStep_le h
  have hproduct : m * fifth = m * 7205759403792794 := rfl
  unfold Rounding.round
  generalize Nat.log 2 (m * fifth) + 1 - 53 = k at hstep ⊢
  have hsplit : ((m + 4) / 5 - 1) * 2 ^ 55 = ((m + 4) / 5 - 1) * 2 ^ (55 - k) * 2 ^ k := by
    rw [Nat.mul_assoc, ← Nat.pow_add, Nat.sub_add_cancel (by omega)]
  rw [hsplit]
  apply Rounding.lt_nearest_of_lt
  rw [← hsplit]
  have hpow : 2 ^ k ≤ 2 ^ 53 := Nat.pow_le_pow_right (by decide) hstep
  omega

/-- **A fifth of the pages is hot**, rounded up. -/
theorem hotCount_eq {n : SizeT} (h : n.toNat ≤ 2 ^ 53) :
    (hotCount n).toNat = (n.toNat + 4) / 5 := by
  have hle := round_product_le h
  have hlt := lt_round_product h
  have hsize := n.toNat_lt
  unfold hotCount
  dsimp only
  rw [Rounding.round_eq_self (by decide) h]
  rcases Nat.eq_zero_or_pos n.toNat with hzero | hpos
  · rw [hzero] at hle ⊢
    rw [SizeT.toNat_ofNat (by omega)]
    omega
  · have hlt := hlt hpos
    rw [SizeT.toNat_ofNat (by omega)]
    omega

/-! ## What a generator makes -/

section Generator

variable {n : SizeT} {shuffled pids : List SizeT}

/-- A generator that stays as it is makes any list of what a single call may make. -/
theorem generates_iff {g : MemoryAccessGenerator}
    (stays : ∀ draw, g.Draws draw → (g.generatePid draw).2 = g) :
    g.Generates pids ↔ ∀ pid ∈ pids, ∃ draw, g.Draws draw ∧ (g.generatePid draw).1 = pid := by
  constructor
  · intro generates
    induction pids with
    | nil => exact nofun
    | cons head pids ih =>
      cases generates with
      | cons drawn rest =>
        rw [stays _ drawn] at rest
        intro pid hpid
        rcases List.mem_cons.mp hpid with rfl | hrest
        · exact ⟨_, drawn, rfl⟩
        · exact ih rest pid hrest
  · intro all
    induction pids with
    | nil => exact .nil g
    | cons pid pids ih =>
      obtain ⟨draw, drawn, rfl⟩ := all _ List.mem_cons_self
      refine .cons drawn ?_
      rw [stays draw drawn]
      exact ih fun pid hpid => all pid (List.mem_cons_of_mem _ hpid)

/-- The pages in order are all below their number, each once. -/
theorem mem_allPages {pid : SizeT} : pid ∈ allPages n ↔ pid.toNat < n.toNat := by
  unfold allPages
  rw [List.mem_map]
  constructor
  · rintro ⟨i, hi, rfl⟩
    have hlt := List.mem_range.mp hi
    rw [SizeT.toNat_ofNat (hlt.trans n.toNat_lt)]
    exact hlt
  · intro hlt
    exact ⟨pid.toNat, List.mem_range.mpr hlt, UInt64.ofNat_toNat⟩

theorem nodup_allPages : (allPages n).Nodup := by
  refine List.Nodup.map_on ?_ List.nodup_range
  intro i hi j hj heq
  have hnat := congrArg UInt64.toNat heq
  rwa [SizeT.toNat_ofNat ((List.mem_range.mp hi).trans n.toNat_lt),
    SizeT.toNat_ofNat ((List.mem_range.mp hj).trans n.toNat_lt)] at hnat

/-- Draws below a positive bound. -/
theorem draws_pred_iff {m draw : SizeT} (hm : 0 < m.toNat) :
    (UniformIntDistribution.mk 0 (m - 1)).Draws draw ↔ draw.toNat < m.toNat := by
  have hpred := SizeT.toNat_pred hm
  unfold UniformIntDistribution.Draws
  dsimp only
  rw [UInt64.le_iff_toNat_le, UInt64.le_iff_toNat_le, hpred, UInt64.toNat_zero]
  omega

/-- A uniform generator makes any pages. -/
theorem uniform_generates_iff (hn : 0 < n.toNat) :
    (new .uniform n shuffled).Generates pids ↔ ∀ pid ∈ pids, pid.toNat < n.toNat := by
  rw [generates_iff fun _ _ => rfl]
  refine forall₂_congr fun pid _ => ?_
  constructor
  · rintro ⟨draw, drawn, rfl⟩
    exact (draws_pred_iff hn).mp drawn
  · exact fun hlt => ⟨pid, (draws_pred_iff hn).mpr hlt, rfl⟩

/-- So does a Zipf generator. -/
theorem zipfian_generates_iff (hn : 0 < n.toNat) :
    (new .zipfian n shuffled).Generates pids ↔ ∀ pid ∈ pids, pid.toNat < n.toNat := by
  rw [generates_iff fun _ _ => rfl]
  refine forall₂_congr fun pid _ => ?_
  constructor
  · rintro ⟨draw, hlt | ⟨hnone, -⟩, rfl⟩
    · exact hlt
    · exact absurd hnone hn.ne'
  · exact fun hlt => ⟨pid, .inl hlt, rfl⟩

/-- A hot generator makes the first pages of its shuffle. -/
theorem hot_generates_iff (h : shuffled.Perm (allPages n)) (hn : 0 < n.toNat) :
    (new .hot n shuffled).Generates pids ↔
      ∀ pid ∈ pids, pid ∈ shuffled.take (hotCount n).toNat := by
  have hlength : shuffled.length = n.toNat := by
    rw [h.length_eq, allPages, List.length_map, List.length_range]
  have hcount := hotCount_le n
  have hdraws : ∀ {draw : SizeT}, (new .hot n shuffled).Draws draw ↔
      draw.toNat < (hotCount n).toNat := draws_pred_iff (hotCount_pos hn)
  have hmade : ∀ {draw : SizeT}, draw.toNat < (hotCount n).toNat →
      (new .hot n shuffled).generatePid draw =
        (shuffled.getD draw.toNat 0, new .hot n shuffled) := by
    intro draw hdraw
    have hlookup := lookup_hotPagesOf shuffled hdraw (hotCount n).toNat_lt
    rw [UInt64.ofNat_toNat] at hlookup
    exact generatePid_hot rfl hlookup
  rw [generates_iff fun draw drawn => by rw [hmade (hdraws.mp drawn)]]
  refine forall₂_congr fun pid _ => ?_
  rw [List.mem_take_iff_getElem]
  constructor
  · rintro ⟨draw, drawn, rfl⟩
    have hdraw := hdraws.mp drawn
    refine ⟨draw.toNat, by omega, ?_⟩
    rw [hmade hdraw, List.getD_eq_getElem _ _ (by omega)]
  · rintro ⟨i, hi, rfl⟩
    have hnat : (UInt64.ofNat i).toNat = i := SizeT.toNat_ofNat (by have := n.toNat_lt; omega)
    have hdraw : (UInt64.ofNat i).toNat < (hotCount n).toNat := by omega
    refine ⟨UInt64.ofNat i, hdraws.mpr hdraw, ?_⟩
    rw [hmade hdraw, hnat, List.getD_eq_getElem]

end Generator

/-- Pages that are few enough are the first of some shuffle. -/
theorem exists_shuffle {n : SizeT} {pids : List SizeT} (below : ∀ pid ∈ pids, pid.toNat < n.toNat)
    {count : Nat} (few : pids.toFinset.card ≤ count) :
    ∃ shuffled : List SizeT, shuffled.Perm (allPages n) ∧
      ∀ pid ∈ pids, pid ∈ shuffled.take count := by
  refine ⟨(allPages n).filter (fun pid => decide (pid ∈ pids)) ++
    (allPages n).filter (fun pid => !decide (pid ∈ pids)),
    List.filter_append_perm _ _, ?_⟩
  have hlength : ((allPages n).filter (fun pid => decide (pid ∈ pids))).length ≤ count := by
    rw [← List.toFinset_card_of_nodup (nodup_allPages.filter _)]
    refine (Finset.card_le_card fun pid hpid => ?_).trans few
    have hmem := (List.mem_filter.mp (List.mem_toFinset.mp hpid)).2
    exact List.mem_toFinset.mpr (of_decide_eq_true hmem)
  intro pid hpid
  rw [List.take_append, List.take_of_length_le hlength]
  refine List.mem_append_left _ (List.mem_filter.mpr ⟨mem_allPages.mpr (below pid hpid), ?_⟩)
  exact decide_eq_true hpid

end MemoryAccessGenerator

section Requests

open MemoryAccessGenerator

variable {client : ClientConfig} {pids : List SizeT}

/-- **What a client may ask for**: its own pages, and under the hot pattern a fifth of them. -/
theorem requests_iff (pages : 0 < (clientPageSize client).toNat)
    (exact : (clientPageSize client).toNat ≤ 2 ^ 53) :
    Client.Requests client pids ↔
      (∀ pid ∈ pids, pid.toNat < (clientPageSize client).toNat) ∧
      (client.pattern = .hot →
        pids.toFinset.card ≤ ((clientPageSize client).toNat + 4) / 5) := by
  rw [← hotCount_eq exact]
  constructor
  · rintro ⟨shuffled, hperm, generates⟩
    refine ⟨generates.lt hperm pages, fun hot => ?_⟩
    rw [hot, hot_generates_iff hperm pages] at generates
    calc pids.toFinset.card
        ≤ (shuffled.take (hotCount (clientPageSize client)).toNat).toFinset.card :=
          Finset.card_le_card fun pid hpid =>
            List.mem_toFinset.mpr (generates pid (List.mem_toFinset.mp hpid))
      _ ≤ (shuffled.take (hotCount (clientPageSize client)).toNat).length :=
          List.toFinset_card_le _
      _ ≤ (hotCount (clientPageSize client)).toNat := List.length_take_le _ _
  · rintro ⟨below, few⟩
    unfold Client.Requests
    cases hpattern : client.pattern with
    | uniform => exact ⟨_, .refl _, (uniform_generates_iff pages).mpr below⟩
    | zipfian => exact ⟨_, .refl _, (zipfian_generates_iff pages).mpr below⟩
    | hot =>
      obtain ⟨shuffled, hperm, hfirst⟩ := exists_shuffle below (few hpattern)
      exact ⟨shuffled, hperm, (hot_generates_iff hperm pages).mpr hfirst⟩

/-- Of six pages, two are hot: the third is never asked for. -/
theorem three_of_six_not_hot :
    ¬ Client.Requests ⟨.hot, [3, 3]⟩ [0, 1, 5] ∧ Client.Requests ⟨.hot, [3, 3]⟩ [5, 1] := by
  rw [requests_iff (by decide) (by decide), requests_iff (by decide) (by decide)]
  refine ⟨fun h => absurd (h.2 rfl) (by decide), ?_, fun _ => by decide⟩
  rw [List.forall_mem_cons, List.forall_mem_singleton]
  exact ⟨by decide, by decide⟩

end Requests

end MemoryTiering
