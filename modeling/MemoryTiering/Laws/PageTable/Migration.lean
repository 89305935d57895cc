import MemoryTiering.PageTable
import MemoryTiering.Lib.Fallible
import Mathlib.Tactic.Common

/-!
# What a migration does

The inversion lemmas of `migratePage`, phase by phase: what each phase answers and which state it
leaves. Later modules take a call apart with these and unfold nothing. That the two unrolled levels
are the source's recursion is `migratePage_eq_body`: the definition solves the source's equation.
What every write of a migration keeps, a migration keeps (`Framed.migratePage`).
-/

set_option autoImplicit false

namespace MemoryTiering

open Fallible Pointer

/-- What the stores of a move leave of a page. -/
def PageMetadata.moved (target : PageLayer) (now : Nat) (m : PageMetadata) : PageMetadata :=
  { m with pageLayer := target, lastAccessTimeMs := milliseconds now, accessCnt := 0 }

namespace PageTable

/-! ## Stores -/

section Stores

variable (t : PageTable) (p q : PageId) (f g : PageMetadata → PageMetadata)

@[simp] theorem serverConfig_store : (t.store p f).serverConfig = t.serverConfig := rfl

@[simp] theorem metrics_store : (t.store p f).metrics = t.metrics := rfl

@[simp] theorem meta?_withRing (ring : ClockRing) : (t.withRing ring).meta? q = t.meta? q := rfl

@[simp] theorem serverConfig_withRing (ring : ClockRing) :
    (t.withRing ring).serverConfig = t.serverConfig := rfl

theorem meta?_store :
    (t.store p f).meta? q = (t.meta? q).map fun m => if q = p then f m else m := by
  unfold meta? store
  rw [Table.lookup_update, Option.map_map, Option.map_map]
  congr 1
  funext e
  simp only [Function.comp_apply]
  split <;> rfl

theorem meta?_store_self {m : PageMetadata} (h : t.meta? p = some m) :
    (t.store p f).meta? p = some (f m) := by
  rw [meta?_store, h, Option.map_some, if_pos rfl]

theorem meta?_store_ne (h : q ≠ p) : (t.store p f).meta? q = t.meta? q := by
  rw [meta?_store]
  simp only [if_neg h, Option.map_id']

/-- Two stores to one page are one store. -/
theorem store_store : (t.store p f).store p g = t.store p (g ∘ f) := by
  unfold store
  rw [Table.update_update]
  rfl

variable {f g} in
/-- Stores that commute may change places, on any pages. -/
theorem store_comm (h : ∀ m, f (g m) = g (f m)) :
    (t.store p f).store q g = (t.store q g).store p f := by
  have hcomm := t.table.update_comm p q (f := fun e => { e with metadata := f e.metadata })
    (g := fun e => { e with metadata := g e.metadata }) fun e => by simp only [h]
  unfold store
  simp only [hcomm]

variable {t p f} in
/-- A store that keeps its page's metadata changes nothing. -/
theorem store_eq_self (h : ∀ m, t.meta? p = some m → f m = m) : t.store p f = t := by
  have hsame : t.table.update p (fun e => { e with metadata := f e.metadata }) = t.table := by
    apply Table.update_eq_self
    intro e he
    rw [h e.metadata (by rw [meta?, he, Option.map_some])]
  unfold store
  rw [hsame]

/-- How many pages have a property. -/
def census (property : PageMetadata → Bool) : Nat :=
  t.table.census fun e => property e.metadata

@[simp] theorem census_withRing (ring : ClockRing) (property : PageMetadata → Bool) :
    (t.withRing ring).census property = t.census property := rfl

/-- A store moves a census by what its page gained and lost. -/
theorem census_store (property : PageMetadata → Bool) {m : PageMetadata} (h : t.meta? p = some m) :
    (t.store p f).census property + (if property m then 1 else 0) =
      t.census property + if property (f m) then 1 else 0 := by
  obtain ⟨e, he, rfl⟩ := Option.map_eq_some_iff.mp h
  exact Table.census_update (fun e => property e.metadata) _ he

/-- A store that keeps a property keeps its census. -/
theorem census_store_eq (property : PageMetadata → Bool)
    (h : ∀ m, t.meta? p = some m → property (f m) = property m) :
    (t.store p f).census property = t.census property := by
  cases hm : t.meta? p with
  | none =>
    have hnone : t.table.lookup p = none := by simpa only [meta?, Option.map_eq_none_iff] using hm
    unfold census store
    rw [Table.update_of_lookup_none _ hnone]
  | some m =>
    have hcensus := t.census_store p f property hm
    rw [h m hm] at hcensus
    omega

theorem census_congr {t t' : PageTable} (h : t'.table = t.table) (property : PageMetadata → Bool) :
    t'.census property = t.census property := by
  unfold census
  rw [h]

theorem census_pos {t : PageTable} {p : PageId} {m : PageMetadata} (h : t.meta? p = some m)
    {property : PageMetadata → Bool} (hm : property m = true) : 0 < t.census property := by
  obtain ⟨e, he, rfl⟩ := Option.map_eq_some_iff.mp h
  exact Table.census_pos he hm

theorem exists_of_census_pos {t : PageTable} {property : PageMetadata → Bool}
    (h : 0 < t.census property) : ∃ p m, t.meta? p = some m ∧ property m = true := by
  obtain ⟨p, e, he, hp⟩ := Table.exists_of_census_pos h
  exact ⟨p, e.metadata, by rw [meta?, he, Option.map_some], hp⟩

theorem layer?_eq {t : PageTable} {p : PageId} {m : PageMetadata} (h : t.meta? p = some m) :
    t.layer? p = some m.pageLayer := by
  rw [layer?, h, Option.map_some]

end Stores

/-! ## Layers -/

/-- The pages of a layer. -/
def population (t : PageTable) (layer : PageLayer) : Nat := t.census (·.pageLayer = layer)

/-- The layers share out the table. -/
theorem population_sum (t : PageTable) :
    t.population .numaLocal + t.population .numaRemote + t.population .pmem = t.table.size := by
  unfold population census Table.census Table.size
  induction t.table.entries with
  | nil => rfl
  | cons e l ih =>
    simp only [List.countP_cons, List.length_cons]
    dsimp only at ih
    cases e.2.metadata.pageLayer <;> simp <;> omega

theorem population_le (t : PageTable) (layer : PageLayer) : t.population layer ≤ t.table.size := by
  unfold population census
  exact Table.census_le_size _ _

/-- The same pages in the same layers, and the same counters. -/
structure SameLayers (t t' : PageTable) : Prop where
  serverConfig : t'.serverConfig = t.serverConfig
  layer : ∀ q, t'.layer? q = t.layer? q
  population : ∀ layer, t'.population layer = t.population layer
  size : t'.table.size = t.table.size

theorem SameLayers.refl (t : PageTable) : SameLayers t t :=
  ⟨rfl, fun _ => rfl, fun _ => rfl, rfl⟩

theorem SameLayers.trans {t t' t'' : PageTable} (h : SameLayers t t') (k : SameLayers t' t'') :
    SameLayers t t'' :=
  ⟨k.serverConfig.trans h.serverConfig, fun q => (k.layer q).trans (h.layer q),
    fun layer => (k.population layer).trans (h.population layer), k.size.trans h.size⟩

/-- A store that keeps its page's layer. -/
theorem sameLayers_store (t : PageTable) (p : PageId) {f : PageMetadata → PageMetadata}
    (h : ∀ m, (f m).pageLayer = m.pageLayer) : SameLayers t (t.store p f) := by
  constructor
  case serverConfig => rfl
  case layer =>
    intro q
    unfold layer?
    rw [meta?_store, Option.map_map]
    congr 1
    funext m
    simp only [Function.comp_apply]
    split
    · exact h m
    · rfl
  case population =>
    intro layer
    apply census_store_eq
    intro m _
    rw [h]
  case size => exact Table.size_update ..

/-- Another ring. -/
theorem sameLayers_withRing (t : PageTable) (ring : ClockRing) : SameLayers t (t.withRing ring) :=
  ⟨rfl, fun _ => rfl, fun _ => rfl, rfl⟩

/-! ## The phases -/

section Phases

variable {remove : Removal} {t t' : PageTable} {p : PageId} {m : PageMetadata} {target : PageLayer}
  {migrate : PageTable → PageId → PageLayer → Except Fault (Exit × PageTable)}

/-- The page stays out of the ring's business: it is elsewhere, or there is no ring. -/
theorem takeFromRing_skip (remove : Removal) (t : PageTable) (p : PageId) {m : PageMetadata}
    (h : t.localCacheRing = none ∨ m.pageLayer ≠ .numaLocal) :
    t.takeFromRing remove p m = .ok t := by
  unfold takeFromRing
  split
  next hring hlayer =>
    rcases h with h | h
    · rw [h] at hring
      cases hring
    · exact (h hlayer).elim
  next => rfl

/-- A NUMA-local page leaves the ring, if `remove` returns. -/
theorem takeFromRing_local {ring : ClockRing} (hring : t.localCacheRing = some ring)
    (hlayer : m.pageLayer = .numaLocal) :
    t.takeFromRing remove p m = remove ring m.ringNodePtr >>= fun ring =>
      .ok ((t.store p (.setRingNode none)).withRing ring) := by
  unfold takeFromRing
  rw [hring, hlayer]

/-- What a removal that returns leaves: the table it found, or one without the page's node. -/
theorem takeFromRing_cases (h : t.takeFromRing remove p m = .ok t') :
    ((t.localCacheRing = none ∨ m.pageLayer ≠ .numaLocal) ∧ t' = t) ∨
      ∃ ring ring', t.localCacheRing = some ring ∧ m.pageLayer = .numaLocal ∧
        remove ring m.ringNodePtr = .ok ring' ∧
        t' = (t.store p (.setRingNode none)).withRing ring' := by
  by_cases hskip : t.localCacheRing = none ∨ m.pageLayer ≠ .numaLocal
  · rw [takeFromRing_skip _ _ _ hskip] at h
    cases h
    exact .inl ⟨hskip, rfl⟩
  · obtain ⟨hring, hlayer⟩ := not_or.mp hskip
    obtain ⟨ring, hring⟩ := Option.ne_none_iff_exists'.mp hring
    have hlocal := not_not.mp hlayer
    rw [takeFromRing_local hring hlocal] at h
    obtain ⟨ring', hremove, h⟩ := bind_eq_ok.mp h
    cases h
    exact .inr ⟨ring, ring', hring, hlocal, hremove, rfl⟩

/-- Without eviction the check refuses a full tier and changes nothing. -/
theorem checkCapacity_plain
    (migrate : PageTable → PageId → PageLayer → Except Fault (Exit × PageTable))
    (t : PageTable) {target : PageLayer} (h : t.localCacheRing = none ∨ target ≠ .numaLocal) :
    t.checkCapacity migrate target =
      .ok (if (t.serverConfig.layer target).isFull then none else some t) := by
  unfold checkCapacity
  split
  next hring =>
    rcases h with h | h
    · rw [h] at hring
      cases hring
    · exact (h rfl).elim
  next => split <;> rfl

/-- A promotion with a ring finds room or evicts. -/
theorem checkCapacity_promotion {ring : ClockRing} (hring : t.localCacheRing = some ring) :
    t.checkCapacity migrate .numaLocal =
      if t.serverConfig.localNuma.isFull then t.evict migrate ring >>= fun t => .ok (some t)
      else .ok (some t) := by
  unfold checkCapacity
  rw [hring]
  rfl

/-- Only NUMA-local pages enter a ring. -/
theorem enterRing_skip (assertion : Assertion) (t : PageTable) (p : PageId) {layer : PageLayer}
    (h : t.localCacheRing = none ∨ layer ≠ .numaLocal) :
    t.enterRing assertion p layer = .ok t := by
  unfold enterRing
  split
  next hring =>
    rcases h with h | h
    · rw [h] at hring
      cases hring
    · exact (h rfl).elim
  next => rfl

/-- A page enters the ring when the ring takes it. -/
theorem enterRing_enter {ring ring' : ClockRing} {a : Addr} (assertion : Assertion)
    (hring : t.localCacheRing = some ring) (hinsert : ring.insert p = .ok (some a, ring')) :
    t.enterRing assertion p .numaLocal =
      .ok ((t.withRing ring').store p (.setRingNode (some a))) := by
  unfold enterRing
  simp only [hring, hinsert, bind, Except.bind]

/-- Entering the ring, when it returns: nothing, or one insertion and one store. -/
theorem enterRing_cases {assertion : Assertion} {layer : PageLayer}
    (h : t.enterRing assertion p layer = .ok t') :
    ((t.localCacheRing = none ∨ layer ≠ .numaLocal) ∧ t' = t) ∨
      ∃ ring a ring', t.localCacheRing = some ring ∧ layer = .numaLocal ∧
        ring.insert p = .ok (some a, ring') ∧
        t' = (t.withRing ring').store p (.setRingNode (some a)) := by
  by_cases hskip : t.localCacheRing = none ∨ layer ≠ .numaLocal
  · rw [enterRing_skip _ _ _ hskip] at h
    cases h
    exact .inl ⟨hskip, rfl⟩
  · obtain ⟨hring, hlayer⟩ := not_or.mp hskip
    obtain ⟨ring, hring⟩ := Option.ne_none_iff_exists'.mp hring
    obtain rfl : layer = .numaLocal := not_not.mp hlayer
    unfold enterRing at h
    rw [hring] at h
    obtain ⟨⟨node, ring'⟩, hinsert, h⟩ := bind_eq_ok.mp h
    cases node with
    | none => cases h
    | some a =>
      cases h
      exact .inr ⟨ring, a, ring', hring, rfl, hinsert, rfl⟩

/-- Entering the ring moves no page between layers. -/
theorem sameLayers_enterRing {assertion : Assertion} {layer : PageLayer}
    (h : t.enterRing assertion p layer = .ok t') : SameLayers t t' := by
  rcases enterRing_cases h with ⟨_, rfl⟩ | ⟨_, _, ring', _, _, _, rfl⟩
  · exact .refl _
  · exact (sameLayers_withRing t ring').trans (sameLayers_store _ _ fun _ => rfl)

/-- Leaving the ring moves no page between layers. -/
theorem sameLayers_takeFromRing (h : t.takeFromRing remove p m = .ok t') : SameLayers t t' := by
  rcases takeFromRing_cases h with ⟨_, rfl⟩ | ⟨_, ring', _, _, _, rfl⟩
  · exact .refl _
  · apply SameLayers.trans _ (sameLayers_withRing _ ring')
    exact sameLayers_store t p fun _ => rfl

/-- A move into the ring returns when the ring takes the page. -/
theorem finishMove_enter {ring ring' : ClockRing} {a : Addr} (hring : t.localCacheRing = some ring)
    (hinsert : ring.insert p = .ok (some a, ring')) (now : Nat) (current : PageLayer) :
    ∃ t', t.finishMove now p current .numaLocal = .ok t' := by
  have hring' : (t.store p (.setLayer .numaLocal)).localCacheRing = some ring := hring
  unfold finishMove
  dsimp only
  rw [enterRing_enter .migrateInsert hring' hinsert]
  exact ⟨_, rfl⟩

/-- A move that enters no ring. -/
theorem finishMove_skip (now : Nat) (t : PageTable) (p : PageId) (current : PageLayer)
    {target : PageLayer} (h : t.localCacheRing = none ∨ target ≠ .numaLocal) :
    t.finishMove now p current target = .ok
      { t.store p (PageMetadata.moved target now) with
        serverConfig := t.serverConfig.recount current target
        metrics := t.metrics.incrementMigration current target } := by
  unfold finishMove
  dsimp only
  rw [enterRing_skip _ (t.store p _) p h]
  simp only [bind, Except.bind, settle, store_store, serverConfig_store, metrics_store]
  rfl

end Phases

/-! ## The call -/

section Calls

variable {remove : Removal}
  {migrate : PageTable → PageId → PageLayer → Except Fault (Exit × PageTable)}
  {t t' : PageTable} {p : PageId} {m : PageMetadata} {target : PageLayer} {exit : Exit} {now : Nat}

/-- A page that is not in the table. -/
theorem migrateBody_notFound (h : t.meta? p = none) :
    migrateBody remove migrate now t p target = .ok (.notFound, t) := by
  unfold migrateBody
  rw [h]

/-- A page of the table: its phases in order. -/
theorem migrateBody_found (h : t.meta? p = some m) :
    migrateBody remove migrate now t p target =
      t.takeFromRing remove p m >>= fun t₁ => t₁.checkCapacity migrate target >>= fun
        | none => .ok (.targetFull, t₁)
        | some t₂ => t₂.finishMove now p m.pageLayer target >>= fun t' => .ok (.moved, t') := by
  unfold migrateBody
  generalize t.meta? p = found at h
  subst h
  rfl

/-- **Every call that returns** took one of three ways out. -/
theorem migrateBody_cases (h : migrateBody remove migrate now t p target = .ok (exit, t')) :
    (t.meta? p = none ∧ exit = .notFound ∧ t' = t) ∨
      ∃ m t₁, t.meta? p = some m ∧ t.takeFromRing remove p m = .ok t₁ ∧
        ((t₁.checkCapacity migrate target = .ok none ∧ exit = .targetFull ∧ t' = t₁) ∨
          ∃ t₂, t₁.checkCapacity migrate target = .ok (some t₂) ∧ exit = .moved ∧
            t₂.finishMove now p m.pageLayer target = .ok t') := by
  cases hm : t.meta? p with
  | none =>
    rw [migrateBody_notFound hm] at h
    cases h
    exact .inl ⟨rfl, rfl, rfl⟩
  | some m =>
    rw [migrateBody_found hm] at h
    obtain ⟨t₁, htake, h⟩ := bind_eq_ok.mp h
    obtain ⟨room, hcheck, h⟩ := bind_eq_ok.mp h
    right
    exists m, t₁, rfl, htake
    cases room with
    | none =>
      cases h
      exact .inl ⟨hcheck, rfl, rfl⟩
    | some t₂ =>
      obtain ⟨t₃, hfinish, h⟩ := bind_eq_ok.mp h
      cases h
      exact .inr ⟨t₂, hcheck, rfl, hfinish⟩

/-- A call whose target is not NUMA-local makes no nested call. -/
theorem migrateBody_congr (remove : Removal)
    (migrate migrate' : PageTable → PageId → PageLayer → Except Fault (Exit × PageTable))
    (now : Nat) (t : PageTable) (p : PageId) {target : PageLayer} (h : target ≠ .numaLocal) :
    migrateBody remove migrate now t p target = migrateBody remove migrate' now t p target := by
  cases hm : t.meta? p with
  | none => rw [migrateBody_notFound hm, migrateBody_notFound hm]
  | some m =>
    rw [migrateBody_found hm, migrateBody_found hm]
    congr 1
    funext t₁
    rw [checkCapacity_plain migrate t₁ (.inr h), checkCapacity_plain migrate' t₁ (.inr h)]

theorem evictionTarget_ne_local (config : ServerMemoryConfig) :
    evictionTarget config ≠ .numaLocal := by
  unfold evictionTarget
  split <;> decide

/-- **The source's recursion**: the unrolled definition solves its equation. -/
theorem migrateWith_eq_body (remove : Removal) (evictNow now : Nat) :
    migrateWith remove evictNow now =
      migrateBody remove (migrateWith remove evictNow evictNow) now := by
  funext t p target
  have evict_eq : ∀ (ring : ClockRing) (t : PageTable),
      t.evict (migrateBody remove (fun _ _ _ => .error .outOfFuel) evictNow) ring =
        t.evict (migrateWith remove evictNow evictNow) ring := by
    intro ring t
    unfold evict migrateWith
    congr 1
    funext c
    simp only [migrateBody_congr remove (fun _ _ _ => .error .outOfFuel)
      (migrateBody remove (fun _ _ _ => .error .outOfFuel) evictNow) _ _ _
      (evictionTarget_ne_local _)]
  cases hm : t.meta? p with
  | none => rw [migrateWith, migrateBody_notFound hm, migrateBody_notFound hm]
  | some m =>
    rw [migrateWith, migrateBody_found hm, migrateBody_found hm]
    congr 1
    funext t₁
    unfold checkCapacity
    simp only [evict_eq]

theorem migratePage_eq_body (evictNow now : Nat) :
    migratePage evictNow now = migrateBody ClockRing.remove (migratePage evictNow evictNow) now :=
  migrateWith_eq_body _ _ _

end Calls

/-! ## Frames -/

/-- A relation that holds between a table and what each write of a migration leaves of it. -/
structure Framed (R : PageTable → PageTable → Prop) : Prop where
  refl : ∀ t, R t t
  trans : ∀ {t t' t''}, R t t' → R t' t'' → R t t''
  store : ∀ t p f, R t (t.store p f)
  withRing : ∀ t ring, R t (t.withRing ring)
  settle : ∀ now t p current target, R t (t.settle now p current target)

namespace Framed

variable {R : PageTable → PageTable → Prop} {remove : Removal}
  {migrate : PageTable → PageId → PageLayer → Except Fault (Exit × PageTable)}
  {t t' : PageTable} {p : PageId} {m : PageMetadata} {current target : PageLayer} {exit : Exit}
  {evictNow now : Nat}

theorem takeFromRing (h : Framed R) (call : t.takeFromRing remove p m = .ok t') : R t t' := by
  rcases takeFromRing_cases call with ⟨_, rfl⟩ | ⟨_, ring', _, _, _, rfl⟩
  · exact h.refl _
  · exact h.trans (h.store ..) (h.withRing ..)

theorem enterRing (h : Framed R) {assertion : Assertion}
    (call : t.enterRing assertion p target = .ok t') : R t t' := by
  rcases enterRing_cases call with ⟨_, rfl⟩ | ⟨_, _, ring', _, _, _, rfl⟩
  · exact h.refl _
  · exact h.trans (h.withRing ..) (h.store ..)

theorem finishMove (h : Framed R) (call : t.finishMove now p current target = .ok t') :
    R t t' := by
  obtain ⟨t₁, henter, call⟩ := bind_eq_ok.mp call
  cases call
  exact h.trans (h.store ..) (h.trans (h.enterRing henter) (h.settle ..))

/-- The eviction, if its nested call stays in the frame. -/
theorem evict (h : Framed R)
    (nested : ∀ t p target exit t', migrate t p target = .ok (exit, t') → R t t')
    {ring : ClockRing} (call : t.evict migrate ring = .ok t') : R t t' := by
  obtain ⟨c, _, call⟩ := bind_eq_ok.mp call
  obtain ⟨⟨exit, t₁⟩, hmigrate, call⟩ := bind_eq_ok.mp call
  cases call
  exact h.trans (h.withRing ..) (nested _ _ _ _ _ hmigrate)

theorem checkCapacity (h : Framed R)
    (nested : ∀ t p target exit t', migrate t p target = .ok (exit, t') → R t t')
    (call : t.checkCapacity migrate target = .ok (some t')) : R t t' := by
  by_cases hplain : t.localCacheRing = none ∨ target ≠ .numaLocal
  · rw [checkCapacity_plain _ _ hplain] at call
    split at call
    · cases call
    · cases call
      exact h.refl _
  · obtain ⟨hring, htarget⟩ := not_or.mp hplain
    obtain ⟨ring, hring⟩ := Option.ne_none_iff_exists'.mp hring
    rw [not_not.mp htarget, checkCapacity_promotion hring] at call
    split at call
    · obtain ⟨t₁, hevict, call⟩ := bind_eq_ok.mp call
      cases call
      exact h.evict nested hevict
    · cases call
      exact h.refl _

theorem migrateBody (h : Framed R)
    (nested : ∀ t p target exit t', migrate t p target = .ok (exit, t') → R t t')
    (call : migrateBody remove migrate now t p target = .ok (exit, t')) : R t t' := by
  rcases migrateBody_cases call with ⟨_, _, rfl⟩ | ⟨m, t₁, _, htake, hrest⟩
  · exact h.refl _
  · have htaken := h.takeFromRing htake
    rcases hrest with ⟨_, _, rfl⟩ | ⟨t₂, hcheck, _, hfinish⟩
    · exact htaken
    · exact h.trans htaken (h.trans (h.checkCapacity nested hcheck) (h.finishMove hfinish))

/-- **A migration that returns stays in the frame**, wherever it returned and whomever it
evicted. -/
theorem migratePage (h : Framed R) (call : t.migratePage evictNow now p target = .ok (exit, t')) :
    R t t' := by
  apply h.migrateBody _ call
  intro t p target exit t' hnested
  apply h.migrateBody _ hnested
  intro t p target exit t' hnever
  cases hnever

end Framed

end PageTable

end MemoryTiering
