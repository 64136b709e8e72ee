import Desiros.Library.Runs
import Desiros.Mem.SlabAlloc
import Mathlib.Algebra.Order.BigOperators.Group.List

/-!
# Runs of the slab allocator

Callers create caches with valid parameters, allocate objects and free objects they hold, in any order. From
the state after `kvmm_cache_setup_prepare` on, the invariant of the allocator holds with the objects the
callers hold, and every cache has its minimum of free objects between two calls.
-/

namespace Desiros.Mem

open Desiros.Library KslabCache SlabSystem

variable {s s' : SlabSystem} {held held' : List Nat} {spare : List PageRange} {ca a : Nat} {depth : Nat}
  {S : RangeSource}

/-! ## The invariant between two calls -/

structure SlabGood (s : SlabSystem) (objs : List Nat) : Prop where
  inv : SlabInv s objs []
  stocked : ∀ ca ∈ s.cacheList, (s.cache ca).Stocked
  caches : s.cacheOfStructKslabCache ∈ s.cacheList

theorem SlabInv.perm (h : SlabInv s held spare) (hp : held.Perm held') : SlabInv s held' spare :=
  ⟨h.nodup, h.ok, h.range, h.apart, h.known, h.spare_pos, h.spare_known, h.spare_apart, h.spare_pairwise,
    h.kslab, h.kslab_on, h.kslab_min, hp.nodup_iff.mp h.held_nodup,
    fun a ha => h.held_live a (hp.mem_iff.mpr ha), h.cache_live,
    fun ca hca hm => h.cache_held ca hca (hp.mem_iff.mpr hm), h.struct_live,
    fun a r ha => ⟨fun hm => (h.struct_held a r ha).1 (hp.mem_iff.mpr hm), (h.struct_held a r ha).2⟩,
    h.struct_inj⟩

/-- A call for one cache keeps the minimum of all the others. -/
theorem stocked_of_touches (h : SlabInv s' held spare) (ht : Touches (s.Scope ca) s s')
    (hst : ∀ x ∈ s.cacheList, x ≠ ca → (s.cache x).Stocked) :
    ∀ x ∈ s'.cacheList, x ≠ ca → (s'.cache x).Stocked := by
  intro x hx hne
  by_cases hk : x = s'.cacheOfStructKslab
  · unfold Stocked
    rw [hk, h.kslab_min]
    exact Nat.zero_le _
  · rw [ht.other x ?_]
    · exact hst x (ht.cacheList ▸ hx) hne
    · rintro (h1 | ⟨_, h2⟩)
      · exact hne h1
      · exact hk (h2.trans ht.kslab.symm)

theorem slabGood_of_touches (hst : ∀ x ∈ s.cacheList, x ≠ ca → (s.cache x).Stocked)
    (hcaches : s.cacheOfStructKslabCache ∈ s.cacheList) (hinv : SlabInv s' held' [])
    (ht : Touches (s.Scope ca) s s') (hca : (s'.cache ca).Stocked) : SlabGood s' held' := by
  refine ⟨hinv, fun x hx => ?_, by rwa [ht.kslabCache, ht.cacheList]⟩
  by_cases he : x = ca
  · rwa [he]
  · exact stocked_of_touches hinv ht hst x hx he

theorem SlabGood.of_touches (h : SlabGood s held) (hinv : SlabInv s' held' []) (ht : Touches (s.Scope ca) s s')
    (hca : (s'.cache ca).Stocked) : SlabGood s' held' :=
  slabGood_of_touches (fun x hx _ => h.stocked x hx) h.caches hinv ht hca

theorem SlabGood.alloc (h : SlabGood s held) (hca : ca ∈ s.cacheList)
    (hd : (s.cache ca).onSlab = true ∨ 0 < depth) :
    (∀ s', kvmmCacheAlloc depth S s ca = (none, s') → SlabGood s' held ∧ ∀ b, s'.Live b ↔ s.Live b) ∧
      ∀ a s', kvmmCacheAlloc depth S s ca = (some a, s') → SlabGood s' (a :: held) ∧ (s'.cache ca).Allocated a := by
  have hpost : AllocPost s held [] ca (kvmmCacheAlloc depth S s ca) :=
    kvmmCacheAlloc_spec h.inv hca (h.stocked ca hca) hd
  constructor
  · intro s' hr
    rw [hr] at hpost
    obtain ⟨hinv, hlive⟩ := hpost.null rfl
    exact ⟨h.of_touches hinv hpost.touches hpost.stocked, hlive⟩
  · intro a s' hr
    rw [hr] at hpost
    obtain ⟨hinv, hobj, _⟩ := hpost.object a rfl
    exact ⟨h.of_touches hinv hpost.touches hpost.stocked, hobj⟩

theorem SlabGood.free (h : SlabGood s (a :: held)) (hca : ca ∈ s.cacheList) (ha : (s.cache ca).Allocated a)
    (hd : (s.cache ca).onSlab = true ∨ 0 < depth) : SlabGood (kvmmCacheFree depth s a).2 held := by
  have hpost : FreePost s held [] ca a (kvmmCacheFree depth s a) := kvmmCacheFree_spec h.inv hca ha hd
  exact h.of_touches hpost.inv hpost.touches (hpost.stocked (h.stocked ca hca))

/-! ## kvmm_cache_create -/

section Create

variable {objSize pagesPerSlab minFreeObjs cacheFlags : UInt32} {newCache : Nat}

/-- The part of `kvmm_cache_create` after `init_cache`: the new cache has its minimum or goes again. -/
theorem SlabGood.growNew (h : SlabGood s (newCache :: held)) {c : KslabCache PageRange} (hok : c.Ok)
    (hc : c.slabList = []) (hzero : c.nbFreeObj = 0) (hmin : c.minFreeObj ≤ c.nbObjPerSlab) (hd : 0 < depth)
    (s₁ : SlabSystem)
    (hs₁ : s₁ = { s.setCache newCache c with cacheList := s.cacheList ++ [newCache] }) :
    (∀ s', cacheGrowAt depth S s₁ newCache = (true, s') → SlabGood s' held) ∧
      ∀ s', cacheGrowAt depth S s₁ newCache = (false, s') →
        SlabGood (kvmmCacheDestroy depth s' newCache).2 held := by
  have h₁ : SlabInv s₁ held [] := hs₁ ▸ h.inv.create hok hc
  have hself : s₁.cache newCache = c := by
    rw [hs₁]
    exact Function.update_self ..
  have hlist : s₁.cacheList = s.cacheList ++ [newCache] := by rw [hs₁]
  have hnew : newCache ∉ s.cacheList := fun hm => h.inv.cache_held newCache hm List.mem_cons_self
  have hmem : newCache ∈ s₁.cacheList := by
    rw [hlist]
    exact List.mem_append_right _ (List.mem_singleton_self _)
  have hother : ∀ x ∈ s.cacheList, s₁.cache x = s.cache x := by
    intro x hx
    have hne : x ≠ newCache := fun he => hnew (he ▸ hx)
    rw [hs₁]
    exact Function.update_of_ne hne ..
  have hpost : GrowPost s₁ held [] newCache (cacheGrowAt depth S s₁ newCache) :=
    cacheGrow_spec h₁ hmem fun _ => allocatesStruct_kvmmCacheAlloc depth S
  have hst₁ : ∀ x ∈ s₁.cacheList, x ≠ newCache → (s₁.cache x).Stocked := by
    intro x hx hne
    rw [hlist, List.mem_append, List.mem_singleton] at hx
    have hx' := hx.resolve_right hne
    rw [hother x hx']
    exact h.stocked x hx'
  have hk₁ : s₁.cacheOfStructKslab = s.cacheOfStructKslab := by
    rw [hs₁]
    rfl
  have hc₁ : s₁.cacheOfStructKslabCache = s.cacheOfStructKslabCache := by
    rw [hs₁]
    rfl
  have hcaches : s₁.cacheOfStructKslabCache ∈ s₁.cacheList := by
    rw [hc₁, hlist]
    exact List.mem_append_left _ h.caches
  constructor
  · intro s' hr
    rw [hr] at hpost
    have hgrown : (s'.cache newCache).nbFreeObj = _ := hpost.grown rfl
    refine slabGood_of_touches hst₁ hcaches hpost.inv hpost.touches ?_
    unfold Stocked
    rw [hgrown, (hpost.touches.params newCache).minFreeObj, hself, hzero, Nat.zero_add]
    exact hmin
  · intro s' hr
    rw [hr] at hpost
    have hcache : s'.cache newCache = c := (hpost.failed rfl).1.trans hself
    have hslabs : (s'.cache newCache).slabList = [] := by rw [hcache, hc]
    have hmem' : newCache ∈ s'.cacheList := by
      rw [hpost.touches.cacheList]
      exact hmem
    have hnek : newCache ≠ s'.cacheOfStructKslab := by
      rw [hpost.touches.kslab, hk₁]
      exact fun he => hnew (he ▸ h.inv.kslab)
    have hnec : s'.cacheOfStructKslabCache ≠ newCache := by
      rw [hpost.touches.kslabCache, hc₁]
      exact fun he => hnew (he ▸ h.caches)
    have h₂ : SlabGood { s' with cacheList := s'.cacheList.erase newCache } (newCache :: held) := by
      refine ⟨hpost.inv.dropCache hmem' hnek hslabs, fun x hx => ?_, ?_⟩
      · obtain ⟨hne, hx⟩ := hpost.inv.nodup.mem_erase_iff.mp hx
        exact stocked_of_touches hpost.inv hpost.touches hst₁ x hx hne
      · refine hpost.inv.nodup.mem_erase_iff.mpr ⟨hnec, ?_⟩
        rw [hpost.touches.kslabCache, hpost.touches.cacheList]
        exact hcaches
    unfold kvmmCacheDestroy
    rw [hslabs, List.any_nil, if_neg Bool.false_ne_true, List.foldl_nil]
    obtain ⟨ca, hca, ha⟩ := h₂.inv.held_live newCache List.mem_cons_self
    exact h₂.free hca ha (.inr hd)

/-- A cache without a minimum needs no slab yet. -/
theorem SlabGood.addNew (h : SlabGood s (newCache :: held)) {c : KslabCache PageRange} (hok : c.Ok)
    (hc : c.slabList = []) (hmin : c.minFreeObj = 0) :
    SlabGood { s.setCache newCache c with cacheList := s.cacheList ++ [newCache] } held := by
  refine ⟨h.inv.create hok hc, fun x hx => ?_, List.mem_append_left _ h.caches⟩
  show ((s.setCache newCache c).cache x).Stocked
  rw [List.mem_append, List.mem_singleton] at hx
  by_cases he : x = newCache
  · subst he
    simp only [setCache, Function.update_self, Stocked, hmin]
    exact Nat.zero_le _
  · simp only [setCache, Function.update_of_ne he]
    exact h.stocked x (hx.resolve_right he)

/-- **kvmm_cache_create** keeps what holds between two calls. -/
theorem SlabGood.create (h : SlabGood s held) (hvalid : ValidParams objSize cacheFlags) (hd : 0 < depth) :
    SlabGood (kvmmCacheCreate depth S s objSize pagesPerSlab minFreeObjs cacheFlags).2 held := by
  obtain ⟨hnull, hobj⟩ := h.alloc (S := S) h.caches (Or.inr hd)
  unfold kvmmCacheCreate
  cases hr : kvmmCacheAlloc depth S s s.cacheOfStructKslabCache with
  | mk o s₁ =>
    cases o with
    | none => exact (hnull s₁ hr).1
    | some newCache =>
      obtain ⟨h₁, hnew⟩ := hobj newCache s₁ hr
      simp only
      cases hi : initCache PageRange objSize pagesPerSlab minFreeObjs cacheFlags with
      | error e =>
        obtain ⟨ca, hca, ha⟩ := h₁.inv.held_live newCache List.mem_cons_self
        exact h₁.free hca ha (.inr hd)
      | ok c =>
        obtain ⟨hok, hc, hzero, hmin, hle⟩ := initCache_ok hvalid hi
        simp only
        split
        · rename_i hz
          rw [hz] at hmin
          exact h₁.addNew hok hc hmin
        · obtain ⟨hgrown, hfailed⟩ := h₁.growNew (S := S) hok hc hzero hle hd _ rfl
          split
          · rename_i s₂ hg
            exact hgrown s₂ hg
          · rename_i s₂ hg
            exact hfailed s₂ hg

end Create

/-! ## kvmm_cache_setup_prepare -/

section Setup

variable {base : Nat}

/-- The cache of caches before its first slab. -/
def fakeCacheOfCaches : KslabCache PageRange where
  originalObjSize := 44
  allocObjSize := 44
  nbObjPerSlab := 92
  nbPagesPerSlab := 1
  minFreeObj := 0
  flags := kslabCreateMap ||| onSlabFlag
  onSlab := true
  nbFreeObj := 0
  slabList := []

theorem initCache_fakeCacheOfCaches :
    initCache PageRange (UInt32.ofNat sizeofKslabCache) 1 0 (kslabCreateMap ||| onSlabFlag) =
      .ok fakeCacheOfCaches := by
  rfl

theorem fakeCacheOfCaches_ok : fakeCacheOfCaches.Ok :=
  ok_of_no_slabs ⟨by decide, by decide, by decide⟩ rfl rfl

/-- The cache of caches with its first slab. -/
theorem firstSlab_ok (base : Nat) :
    (cacheAddSlab fakeCacheOfCaches base (base + fakeCacheOfCaches.slabBytes - sizeofKslab)
      (⟨base, 1⟩ : PageRange)).Ok := by
  refine (fakeCacheOfCaches_ok.add (fun slab hs => by cases hs) fun _ => ?_).1
  have hbytes : fakeCacheOfCaches.slabBytes = 4096 := rfl
  have hk : sizeofKslab = 28 := rfl
  omega

/-- A single cache, whose slab structures are on the slab and one of whose objects is its own structure. -/
theorem slabInv_single {c : KslabCache PageRange} {real addr : Nat} (hok : c.Ok)
    (hon : c.onSlab = true) (hmin : c.minFreeObj = 0) (hpages : c.nbPagesPerSlab = 1)
    (hkeys : ∀ k ∈ c.keys, k = (addr, base, ⟨base, 1⟩)) (hreal : c.Allocated real) :
    SlabInv ⟨[real], fun _ => c, [⟨base, 1⟩], 0, real, real⟩ [] [] := by
  have hlive : Live ⟨[real], fun _ => c, [⟨base, 1⟩], 0, real, real⟩ real :=
    ⟨real, List.mem_singleton_self _, hreal⟩
  have hstruct : ∀ a r, ¬ StructAt ⟨[real], fun _ => c, [⟨base, 1⟩], 0, real, real⟩ a r := by
    rintro a r ⟨_, _, hoff, _⟩
    exact Bool.noConfusion (hon.symm.trans hoff)
  refine ⟨List.nodup_singleton _, fun _ _ => hok, fun ca _ k hk => ?_, fun ca hca ca' hca' hne => ?_,
    fun ca _ k hk => ?_, fun r hr => absurd hr List.not_mem_nil, fun r hr => absurd hr List.not_mem_nil,
    fun r hr => absurd hr List.not_mem_nil, List.Pairwise.nil, List.mem_singleton_self _, hon, hmin,
    List.nodup_nil, fun a ha => absurd ha List.not_mem_nil, fun ca hca => ?_,
    fun ca _ hm => absurd hm List.not_mem_nil, fun a r ha => (hstruct a r ha).elim,
    fun a r ha => (hstruct a r ha).elim, fun a r r' ha => (hstruct a r ha).elim⟩
  · show k.2.2 = ⟨k.2.1, c.nbPagesPerSlab⟩
    rw [hkeys k hk, hpages]
  · exact absurd ((List.mem_singleton.mp hca).trans (List.mem_singleton.mp hca').symm) hne
  · rw [hkeys k hk]
    exact List.mem_singleton_self _
  · rw [List.mem_singleton.mp hca]
    exact hlive

theorem slabGood_createCacheOfCaches (base : Nat) :
    SlabGood (createCacheOfCaches base) [] ∧
      (∀ ca ∈ (createCacheOfCaches base).cacheList, ((createCacheOfCaches base).cache ca).onSlab = true) := by
  have hok := firstSlab_ok base
  obtain ⟨real, c, ht⟩ := exists_cacheTakeObject (hok.not_needsSlab (show 0 < 0 + 92 by decide))
  obtain ⟨hok', hparams, hkeys, _, _, hall⟩ := hok.take ht
  have hon : c.onSlab = true := hparams.onSlab
  have hmin : c.minFreeObj = 0 := hparams.minFreeObj
  have hinv := slabInv_single hok' hon hmin hparams.nbPagesPerSlab
    (fun k hk => List.mem_singleton.mp (hkeys.mem_iff.mp hk)) ((hall real).mpr (.inr rfl))
  have hstate : createCacheOfCaches base = ⟨[real], fun _ => c, [⟨base, 1⟩], 0, real, real⟩ := by
    unfold createCacheOfCaches
    rw [initCache_fakeCacheOfCaches]
    simp only [ht]
  rw [hstate]
  refine ⟨⟨hinv, fun _ _ => ?_, List.mem_singleton_self _⟩, fun _ _ => hon⟩
  show c.minFreeObj ≤ c.nbFreeObj
  rw [hmin]
  exact Nat.zero_le _

/-- The cache of slab structures, before its first slab. -/
def slabStructCache : KslabCache PageRange where
  originalObjSize := 28
  allocObjSize := 28
  nbObjPerSlab := 145
  nbPagesPerSlab := 1
  minFreeObj := 0
  flags := kslabCreateMap
  onSlab := true
  nbFreeObj := 0
  slabList := []

theorem initCache_slabStructCache :
    initCache PageRange (UInt32.ofNat sizeofKslab) 1 0 kslabCreateMap = .ok slabStructCache := by
  rfl

/-- While all slab structures are on their slabs, any such cache can become that of the structures. -/
theorem SlabGood.setKslab (h : SlabGood s held) (hon : ∀ ca ∈ s.cacheList, (s.cache ca).onSlab = true)
    (hca : ca ∈ s.cacheList) (hmin : (s.cache ca).minFreeObj = 0) :
    SlabGood { s with cacheOfStructKslab := ca } held := by
  have hstruct : ∀ a r, ¬ StructAt { s with cacheOfStructKslab := ca } a r := by
    rintro a r ⟨ca', hca', hoff, _⟩
    exact Bool.noConfusion ((hon ca' hca').symm.trans hoff)
  have hi := h.inv
  exact ⟨⟨hi.nodup, hi.ok, hi.range, hi.apart, hi.known, hi.spare_pos, hi.spare_known, hi.spare_apart,
    hi.spare_pairwise, hca, hon ca hca, hmin, hi.held_nodup, hi.held_live, hi.cache_live, hi.cache_held,
    fun a r ha => (hstruct a r ha).elim, fun a r ha => (hstruct a r ha).elim,
    fun a r r' ha => (hstruct a r ha).elim⟩, h.stocked, h.caches⟩

theorem slabGood_kvmmCacheSetupPrepare (S : RangeSource) (base : Nat) :
    SlabGood (kvmmCacheSetupPrepare S base) [] := by
  obtain ⟨h, hon⟩ := slabGood_createCacheOfCaches base
  unfold kvmmCacheSetupPrepare
  generalize createCacheOfCaches base = s at h hon
  have hc := hon _ h.caches
  have hpost : AllocPost s [] [] s.cacheOfStructKslabCache (kvmmCacheAlloc 0 S s s.cacheOfStructKslabCache) :=
    kvmmCacheAlloc_spec h.inv h.caches (h.stocked _ h.caches) (.inl hc)
  unfold kvmmCacheCreate
  dsimp only
  generalize kvmmCacheAlloc 0 S s s.cacheOfStructKslabCache = r at hpost ⊢
  obtain ⟨o, s₁⟩ := r
  cases o with
  | none => exact h.of_touches (hpost.null rfl).1 hpost.touches hpost.stocked
  | some newCache =>
    have h₁ : SlabGood s₁ [newCache] := h.of_touches (hpost.object _ rfl).1 hpost.touches hpost.stocked
    have h₂ := h₁.addNew (ok_of_no_slabs ⟨by decide, by decide, by decide⟩ rfl rfl)
      (show slabStructCache.slabList = [] from rfl) rfl
    have hself : (s₁.setCache newCache slabStructCache).cache newCache = slabStructCache :=
      Function.update_self ..
    simp only [initCache_slabStructCache, if_true]
    refine h₂.setKslab (fun ca hca => ?_) (List.mem_append_right _ (List.mem_singleton_self _)) ?_
    · show ((s₁.setCache newCache slabStructCache).cache ca).onSlab = true
      rw [List.mem_append, List.mem_singleton] at hca
      by_cases he : ca = newCache
      · rw [he, hself]
        rfl
      · simp only [setCache, Function.update_of_ne he]
        rw [(hpost.touches.params ca).onSlab]
        exact hon ca (hpost.touches.cacheList ▸ hca.resolve_right he)
    · show ((s₁.setCache newCache slabStructCache).cache newCache).minFreeObj = 0
      rw [hself]
      rfl

end Setup

/-! ## Runs -/

inductive SlabOp where
  | create (objSize pagesPerSlab minFreeObjs cacheFlags : UInt32)
  | alloc (ca : Nat)
  | free (a : Nat)

/-- The allocator and the objects its callers hold. -/
structure SlabWorld where
  sys : SlabSystem
  objs : List Nat

def slabStep (depth : Nat) (S : RangeSource) (w : SlabWorld) : SlabOp → SlabWorld
  | .create objSize pagesPerSlab minFreeObjs cacheFlags =>
    { w with sys := (kvmmCacheCreate depth S w.sys objSize pagesPerSlab minFreeObjs cacheFlags).2 }
  | .alloc ca =>
    match kvmmCacheAlloc depth S w.sys ca with
    | (none, s) => { w with sys := s }
    | (some a, s) => ⟨s, a :: w.objs⟩
  | .free a => ⟨(kvmmCacheFree depth w.sys a).2, w.objs.erase a⟩

/-- Callers pass valid parameters, caches that exist, and objects they hold. -/
def SlabGuard (w : SlabWorld) : SlabOp → Prop
  | .create objSize _ _ cacheFlags => ValidParams objSize cacheFlags
  | .alloc ca => ca ∈ w.sys.cacheList
  | .free a => a ∈ w.objs

instance (w : SlabWorld) (op : SlabOp) : Decidable (SlabGuard w op) := by
  unfold SlabGuard
  cases op <;> infer_instance

def slabStart (S : RangeSource) (base : Nat) : SlabWorld := ⟨kvmmCacheSetupPrepare S base, []⟩

/-- One call keeps the invariant. -/
theorem slabGood_step {w : SlabWorld} {op : SlabOp} (hd : 0 < depth) (h : SlabGood w.sys w.objs)
    (hg : SlabGuard w op) : SlabGood (slabStep depth S w op).sys (slabStep depth S w op).objs := by
  cases op with
  | create objSize pagesPerSlab minFreeObjs cacheFlags => exact h.create hg hd
  | alloc ca =>
    obtain ⟨hnull, hobj⟩ := h.alloc (S := S) hg (Or.inr hd)
    simp only [slabStep]
    cases hr : kvmmCacheAlloc depth S w.sys ca with
    | mk o s =>
      cases o with
      | none => exact (hnull s hr).1
      | some a => exact (hobj a s hr).1
  | free a =>
    have hperm : w.objs.Perm (a :: w.objs.erase a) := List.perm_cons_erase hg
    have h' : SlabGood w.sys (a :: w.objs.erase a) := ⟨h.inv.perm hperm, h.stocked, h.caches⟩
    obtain ⟨ca, hca, ha⟩ := h'.inv.held_live a List.mem_cons_self
    exact h'.free hca ha (.inr hd)

/-- What callers may rely on. -/
structure SlabSafe (s : SlabSystem) : Prop where
  /-- No byte belongs to two objects in use. -/
  objects : ∀ ca ∈ s.cacheList, ∀ ca' ∈ s.cacheList, ∀ a b, (s.cache ca).Allocated a →
    (s.cache ca').Allocated b → (ca ≠ ca' ∨ a ≠ b) →
    a + (s.cache ca).allocObjSize ≤ b ∨ b + (s.cache ca').allocObjSize ≤ a
  /-- No byte of an object in use belongs to a slab structure. -/
  structs : ∀ ca ∈ s.cacheList, ∀ ca' ∈ s.cacheList, ∀ a, (s.cache ca).Allocated a →
    (s.cache ca').onSlab = true → ∀ slab ∈ (s.cache ca').slabList,
    a + (s.cache ca).allocObjSize ≤ slab.addr ∨ slab.addr + sizeofKslab ≤ a
  free : ∀ ca ∈ s.cacheList, ∀ ca' ∈ s.cacheList, ∀ a, (s.cache ca).Allocated a →
    ∀ slab ∈ (s.cache ca').slabList, a ∉ slab.free
  nbFree : ∀ ca ∈ s.cacheList, ∀ slab ∈ (s.cache ca).slabList, slab.nbFree = slab.free.length
  nbFreeObj : ∀ ca ∈ s.cacheList, (s.cache ca).nbFreeObj = ((s.cache ca).slabList.map (·.nbFree)).sum
  ordered : ∀ ca ∈ s.cacheList, (s.cache ca).slabList.Pairwise fun slab slab' =>
    slab.free = [] → slab'.free = []
  head : ∀ ca ∈ s.cacheList, (s.cache ca).needsSlab = true → ∀ slab ∈ (s.cache ca).slabList, slab.free = []

/-- Different objects in use lie in different slots. -/
theorem SlabInv.disjoint (h : SlabInv s held spare) {ca' b : Nat} (hca : ca ∈ s.cacheList)
    (hca' : ca' ∈ s.cacheList) (ha : (s.cache ca).Allocated a) (hb : (s.cache ca').Allocated b)
    (hne : ca ≠ ca' ∨ a ≠ b) :
    a + (s.cache ca).allocObjSize ≤ b ∨ b + (s.cache ca').allocObjSize ≤ a := by
  obtain ⟨slab, hs, hslot, _⟩ := ha
  obtain ⟨slab', hs', hslot', _⟩ := hb
  have hend := hslot.end_le (h.ok ca hca).shape
  have hend' := hslot'.end_le (h.ok ca' hca').shape
  by_cases he : ca = ca'
  · subst he
    by_cases hss : slab = slab'
    · subst hss
      exact hslot.disjoint hslot' (hne.resolve_left (fun hf => hf rfl))
    · have hap := (h.ok ca hca).apart.forall hs hs' hss
      unfold KslabCache.Apart at hap
      omega
  · have hap := h.apart ca hca ca' hca' he _ (mem_keys.mpr ⟨slab, hs, rfl⟩) _ (mem_keys.mpr ⟨slab', hs', rfl⟩)
    rw [h.range_of_mem hca hs, h.range_of_mem hca' hs'] at hap
    simp only [PageRange.Apart] at hap
    unfold slabBytes at hend hend'
    omega

/-- A structure on its slab lies behind the objects of the slab. -/
theorem SlabInv.disjoint_struct (h : SlabInv s held spare) {ca' : Nat} {slab' : Kslab PageRange}
    (hca : ca ∈ s.cacheList) (hca' : ca' ∈ s.cacheList) (ha : (s.cache ca).Allocated a)
    (hon : (s.cache ca').onSlab = true) (hs' : slab' ∈ (s.cache ca').slabList) :
    a + (s.cache ca).allocObjSize ≤ slab'.addr ∨ slab'.addr + sizeofKslab ≤ a := by
  obtain ⟨slab, hs, hslot, _⟩ := ha
  have hend := hslot.end_le (h.ok ca hca).shape
  have haddr := ((h.ok ca' hca').slabs slab' hs').addr hon
  have hfits := (h.ok ca' hca').shape.fits
  rw [if_pos hon] at hfits
  by_cases he : ca = ca'
  · subst he
    rw [if_pos hon] at hend
    by_cases hss : slab = slab'
    · subst hss
      omega
    · have hap := (h.ok ca hca).apart.forall hs hs' hss
      unfold KslabCache.Apart at hap
      omega
  · have hap := h.apart ca hca ca' hca' he _ (mem_keys.mpr ⟨slab, hs, rfl⟩) _ (mem_keys.mpr ⟨slab', hs', rfl⟩)
    rw [h.range_of_mem hca hs, h.range_of_mem hca' hs'] at hap
    simp only [PageRange.Apart] at hap
    unfold slabBytes at hend haddr hfits
    omega

theorem SlabInv.safe (h : SlabInv s held spare) : SlabSafe s where
  objects _ hca _ hca' _ _ ha hb hne := h.disjoint hca hca' ha hb hne
  structs _ hca _ hca' _ ha hon _ hs := h.disjoint_struct hca hca' ha hon hs
  free ca hca ca' hca' a ha slab hs := by
    intro hmem
    have hcov := (((h.ok ca' hca').slabs slab hs).slots a hmem).covers (h.ok ca' hca').shape
    exact (h.ok ca' hca').not_free (h.allocated_of_live hca' hs hcov ⟨ca, hca, ha⟩) hs hmem
  nbFree ca hca slab hs := ((h.ok ca hca).slabs slab hs).nbFree
  nbFreeObj ca hca := (h.ok ca hca).count
  ordered ca hca := (h.ok ca hca).ordered
  head ca hca hneeds slab hs := by
    by_contra hne
    have hpos : 0 < slab.nbFree := by
      rw [((h.ok ca hca).slabs slab hs).nbFree]
      exact List.length_pos_iff.mpr hne
    have hsum : slab.nbFree ≤ (s.cache ca).nbFreeObj := by
      rw [(h.ok ca hca).count]
      exact List.le_sum_of_mem (List.mem_map_of_mem hs)
    rw [(h.ok ca hca).not_needsSlab (Nat.lt_of_lt_of_le hpos hsum)] at hneeds
    cases hneeds

/-- **Safety of the slab allocator over whole runs.** Whatever caches are created and objects allocated and
freed, the objects in use are disjoint from each other, from the free objects and from the slab structures,
the counters and the order of the slabs are right, and an allocation that fails changes nothing of what is
in use. -/
theorem slab_runs_safe (S : RangeSource) (base depth : Nat) (ops : List SlabOp)
    (hops : Guarded (slabStep (depth + 1) S) SlabGuard (slabStart S base) ops) :
    SlabSafe (run (slabStep (depth + 1) S) (slabStart S base) ops).sys ∧
      (run (slabStep (depth + 1) S) (slabStart S base) ops).objs.Nodup ∧
      (∀ a ∈ (run (slabStep (depth + 1) S) (slabStart S base) ops).objs,
        (run (slabStep (depth + 1) S) (slabStart S base) ops).sys.Live a) ∧
      ∀ ca ∈ (run (slabStep (depth + 1) S) (slabStart S base) ops).sys.cacheList, ∀ s,
        kvmmCacheAlloc (depth + 1) S (run (slabStep (depth + 1) S) (slabStart S base) ops).sys ca = (none, s) →
        ∀ a, s.Live a ↔ (run (slabStep (depth + 1) S) (slabStart S base) ops).sys.Live a := by
  have hinv : ∀ (w : SlabWorld) op, SlabGood w.sys w.objs → SlabGuard w op →
      SlabGood (slabStep (depth + 1) S w op).sys (slabStep (depth + 1) S w op).objs :=
    fun w op h hg => slabGood_step (Nat.succ_pos depth) h hg
  have h := invariant_run hinv ops (slabStart S base) (slabGood_kvmmCacheSetupPrepare S base) hops
  exact ⟨h.inv.safe, h.inv.held_nodup, h.inv.held_live, fun ca hca s hr =>
    ((h.alloc hca (.inr (Nat.succ_pos depth))).1 s hr).2⟩

/-! ## A source of ranges -/

/-- The first address behind all the ranges. -/
def topOfRanges (ranges : List PageRange) : Nat :=
  ranges.foldr (fun r top => max top (r.base + r.nbPages * nbBytesPerPage)) 0x4000

theorem le_topOfRanges (ranges : List PageRange) : 0x4000 ≤ topOfRanges ranges := by
  induction ranges with
  | nil => exact Nat.le_refl _
  | cons r ranges ih => exact ih.trans (Nat.le_max_left _ _)

theorem end_le_topOfRanges {ranges : List PageRange} {r : PageRange} (hr : r ∈ ranges) :
    r.base + r.nbPages * nbBytesPerPage ≤ topOfRanges ranges := by
  induction ranges with
  | nil => cases hr
  | cons r' ranges ih =>
    rcases List.mem_cons.mp hr with rfl | hr
    · exact Nat.le_max_right _ _
    · exact (ih hr).trans (Nat.le_max_left _ _)

/-- Ranges one after the other, below the top of kernel space. -/
def bumpSource : RangeSource where
  newRange _ ranges nbPages :=
    if topOfRanges ranges + nbPages * nbBytesPerPage ≤ 0x40000000 then some (topOfRanges ranges) else none
  pos _ ranges nbPages base h := by
    split at h
    · obtain rfl := Option.some.inj h
      exact Nat.lt_of_lt_of_le (by decide) (le_topOfRanges ranges)
    · cases h
  apart _ ranges nbPages base h r hr := by
    split at h
    · obtain rfl := Option.some.inj h
      exact .inr (end_le_topOfRanges hr)
    · cases h

/-- A cache with a minimum, two objects of it, and one of them back. -/
def twoObjects : List SlabOp :=
  [.create 64 1 1 kslabCreateMap, .alloc 0x200058, .alloc 0x200058, .free 0x201000]

theorem slab_runs_safe_two_objects :
    SlabSafe (run (slabStep 1 bumpSource) (slabStart bumpSource 0x200000) twoObjects).sys :=
  (slab_runs_safe bumpSource 0x200000 0 twoObjects ⟨by decide +kernel, by decide +kernel, by decide +kernel,
    by decide +kernel, trivial⟩).1

end Desiros.Mem
