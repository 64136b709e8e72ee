import Desiros.Library.CircularList
import Desiros.Mem.KmallocSetup

/-!
# The list of the slab caches

`kvmm_cache_create` adds the structure of a new cache to `kslab_cache_list`, whose links are in the structures, and
`kvmm_cache_destroy` gives the structure back without taking it off the list. So the list holds the caches that exist as
long as no cache is destroyed, neither by a caller nor by `kvmm_cache_create` itself, which destroys the cache it has
just linked when it cannot allocate the slab that was asked for.
-/

namespace Desiros.Mem

open Desiros.Library KslabCache SlabSystem

/-! ## Creating and destroying with the list -/

/-- `init_cache` gets to its `memset` of the structure. -/
def initCacheClears (objSize pagesPerSlab : UInt32) : Bool :=
  !(decide (objSize ≤ 0) || decide (allocObjSizeOf objSize > pagesPerSlab * 4096) ||
    decide (pagesPerSlab > maxPagesPerSlab))

/-- What `kvmm_cache_create` does to the links of the caches; `kvmm_cache_free` and `kvmm_cache_destroy` leave them
alone. -/
def kvmmCacheCreateLinks (depth : Nat) (S : RangeSource) (s : SlabSystem)
    (objSize pagesPerSlab minFreeObjs cacheFlags : UInt32) (kslabCacheList : CircularList Nat) : CircularList Nat :=
  match kvmmCacheAlloc depth S s s.cacheOfStructKslabCache with
  | (none, _) => kslabCacheList
  | (some newCache, _) =>
    match initCache PageRange objSize pagesPerSlab minFreeObjs cacheFlags with
    | .error _ => if initCacheClears objSize pagesPerSlab then kslabCacheList.clear newCache else kslabCacheList
    | .ok _ => (kslabCacheList.clear newCache).addTail newCache

/-- The allocator, what its callers hold, and the list of the caches. The range cache has its slabs elsewhere; its
structure is an object of the cache of caches. -/
structure CacheWorld where
  sys : SlabSystem
  objs : List Nat
  rangeCache : Nat
  kslabCacheList : CircularList Nat

inductive CacheOp where
  | create (objSize pagesPerSlab minFreeObjs cacheFlags : UInt32)
  | destroy (ca : Nat)
  | alloc (ca : Nat)
  | free (a : Nat)

def cacheStep (depth : Nat) (S : RangeSource) (w : CacheWorld) : CacheOp → CacheWorld
  | .create objSize pagesPerSlab minFreeObjs cacheFlags =>
    { w with
      sys := (kvmmCacheCreate depth S w.sys objSize pagesPerSlab minFreeObjs cacheFlags).2
      kslabCacheList :=
        kvmmCacheCreateLinks depth S w.sys objSize pagesPerSlab minFreeObjs cacheFlags w.kslabCacheList }
  | .destroy ca => { w with sys := (kvmmCacheDestroy depth w.sys ca).2 }
  | .alloc ca =>
    match kvmmCacheAlloc depth S w.sys ca with
    | (none, s) => { w with sys := s }
    | (some a, s) => { w with
      sys := s
      objs := a :: w.objs }
  | .free a => { w with
    sys := (kvmmCacheFree depth w.sys a).2
    objs := w.objs.erase a }

/-- Callers pass valid parameters, caches that exist, and objects they hold. -/
def CacheGuard (w : CacheWorld) : CacheOp → Prop
  | .create objSize _ _ cacheFlags => ValidParams objSize cacheFlags
  | .destroy ca => ca ∈ w.sys.cacheList
  | .alloc ca => ca ∈ w.sys.cacheList
  | .free a => a ∈ w.objs

instance (w : CacheWorld) (op : CacheOp) : Decidable (CacheGuard w op) := by
  unfold CacheGuard
  cases op <;> infer_instance

/-- The links are those of a list of the existing caches, each once, and of nothing else. -/
def CacheListRight (w : CacheWorld) : Prop :=
  ∃ l, w.kslabCacheList.Ring l ∧ l.Nodup ∧ ∀ ca, ca ∈ l ↔ ca ∈ w.sys.cacheList ∨ ca = w.rangeCache

/-! ## The condition -/

/-- Some object of the cache is in use. -/
def SlabSystem.HasObjects (s : SlabSystem) (ca : Nat) : Prop :=
  ∃ slab ∈ (s.cache ca).slabList, slab.nbFree ≠ (s.cache ca).nbObjPerSlab

/-- The new cache is linked, and then there is no memory for its first slab. -/
def CreateRunsOut (depth : Nat) (S : RangeSource) (s : SlabSystem)
    (objSize pagesPerSlab minFreeObjs cacheFlags : UInt32) : Prop :=
  ∃ newCache s' c, kvmmCacheAlloc depth S s s.cacheOfStructKslabCache = (some newCache, s') ∧
    initCache PageRange objSize pagesPerSlab minFreeObjs cacheFlags = .ok c ∧ minFreeObjs ≠ 0 ∧
    (cacheGrowAt depth S { s'.setCache newCache c with cacheList := s'.cacheList ++ [newCache] } newCache).1 = false

/-- No cache is destroyed: callers destroy none whose objects are all free, and the memory lasts for the slab that is
allocated ahead. -/
def DestroysNone (depth : Nat) (S : RangeSource) (w : CacheWorld) : CacheOp → Prop
  | .create objSize pagesPerSlab minFreeObjs cacheFlags =>
    ¬ CreateRunsOut depth S w.sys objSize pagesPerSlab minFreeObjs cacheFlags
  | .destroy ca => w.sys.HasObjects ca
  | .alloc _ => True
  | .free _ => True

/-! ## The list of caches over the calls -/

section Calls

variable {s s' : SlabSystem} {held : List Nat} {ca a depth : Nat} {slab : Kslab PageRange} {S : RangeSource}
  {freeStruct : SlabSystem → Nat → SlabSystem}

theorem freeObject_cacheList {empty : Option (Nat × Kslab PageRange)} (h : freeObject s a = some (s', empty)) :
    s'.cacheList = s.cacheList := by
  unfold freeObject at h
  split at h
  · cases h
  · split at h
    · cases h
    · cases h
      rfl

theorem cacheReleaseSlab_cacheList (hfree : ∀ s a, (freeStruct s a).cacheList = s.cacheList) :
    (cacheReleaseSlab freeStruct s ca slab).cacheList = s.cacheList := by
  unfold cacheReleaseSlab
  dsimp only
  split
  · rfl
  · exact hfree _ _

theorem cacheFreeWith_cacheList (hfree : ∀ s a, (freeStruct s a).cacheList = s.cacheList) :
    (cacheFreeWith freeStruct s a).2.cacheList = s.cacheList := by
  unfold cacheFreeWith
  split
  · rfl
  · rename_i hobj
    exact freeObject_cacheList hobj
  · rename_i hobj
    exact (cacheReleaseSlab_cacheList hfree).trans (freeObject_cacheList hobj)

theorem kvmmCacheFree_cacheList : ∀ (depth : Nat) (s : SlabSystem) (a : Nat),
    (kvmmCacheFree depth s a).2.cacheList = s.cacheList := by
  intro depth
  induction depth with
  | zero => exact fun s a => cacheFreeWith_cacheList fun _ _ => rfl
  | succ depth ih => exact fun s a => cacheFreeWith_cacheList ih

/-- A cache with objects in use is not destroyed; any other is gone afterwards. -/
theorem kvmmCacheDestroy_cases : (s.HasObjects ca ∧ kvmmCacheDestroy depth s ca = (-4, s)) ∨
    (¬ s.HasObjects ca ∧ (kvmmCacheDestroy depth s ca).2.cacheList = s.cacheList.erase ca) := by
  have hany : ((s.cache ca).slabList.any fun slab => slab.nbFree ≠ (s.cache ca).nbObjPerSlab) = true ↔
      s.HasObjects ca := by
    rw [List.any_eq_true]
    simp only [decide_eq_true_eq]
    rfl
  have hfold : ∀ (l : List (Kslab PageRange)) (s : SlabSystem),
      (l.foldl (fun s slab => cacheReleaseSlab (fun s slab => (kvmmCacheFree depth s slab).2) s ca slab) s).cacheList =
        s.cacheList := by
    intro l
    induction l with
    | nil => exact fun _ => rfl
    | cons slab l ih =>
      intro s
      rw [List.foldl_cons, ih]
      exact cacheReleaseSlab_cacheList (kvmmCacheFree_cacheList depth)
  unfold kvmmCacheDestroy
  by_cases hobjects : s.HasObjects ca
  · exact .inl ⟨hobjects, if_pos (hany.mpr hobjects)⟩
  · refine .inr ⟨hobjects, ?_⟩
    rw [if_neg fun hf => hobjects (hany.mp hf)]
    dsimp only
    rw [kvmmCacheFree_cacheList]
    exact congrArg (List.erase · ca) (hfold _ s)

variable {objSize pagesPerSlab minFreeObjs cacheFlags : UInt32}

/-- What `kvmm_cache_create` does to the caches and to their list, by whether the new cache is linked and stays. -/
theorem kvmmCacheCreate_cases (h : SlabGood s held) (hvalid : ValidParams objSize cacheFlags) (hd : 0 < depth)
    (m : CircularList Nat) :
    (¬ CreateRunsOut depth S s objSize pagesPerSlab minFreeObjs cacheFlags ∧
      (kvmmCacheCreate depth S s objSize pagesPerSlab minFreeObjs cacheFlags).2.cacheList = s.cacheList ∧
      ∃ x, x ∉ s.cacheList ∧ x ∉ held ∧
        (kvmmCacheCreateLinks depth S s objSize pagesPerSlab minFreeObjs cacheFlags m = m ∨
          kvmmCacheCreateLinks depth S s objSize pagesPerSlab minFreeObjs cacheFlags m = m.clear x)) ∨
    ∃ x, x ∉ s.cacheList ∧ x ∉ held ∧
      kvmmCacheCreateLinks depth S s objSize pagesPerSlab minFreeObjs cacheFlags m = (m.clear x).addTail x ∧
      ((¬ CreateRunsOut depth S s objSize pagesPerSlab minFreeObjs cacheFlags ∧
          (kvmmCacheCreate depth S s objSize pagesPerSlab minFreeObjs cacheFlags).2.cacheList = s.cacheList ++ [x]) ∨
        (CreateRunsOut depth S s objSize pagesPerSlab minFreeObjs cacheFlags ∧
          x ∉ (kvmmCacheCreate depth S s objSize pagesPerSlab minFreeObjs cacheFlags).2.cacheList)) := by
  have hpost : AllocPost s held [] s.cacheOfStructKslabCache
      (kvmmCacheAlloc depth S s s.cacheOfStructKslabCache) :=
    kvmmCacheAlloc_spec h.inv h.caches (h.stocked _ h.caches) (.inr hd)
  obtain ⟨fresh, hfresh⟩ := Infinite.exists_notMem_finset (s.cacheList ++ held).toFinset
  rw [List.mem_toFinset, List.mem_append, not_or] at hfresh
  unfold kvmmCacheCreate kvmmCacheCreateLinks CreateRunsOut
  cases hr : kvmmCacheAlloc depth S s s.cacheOfStructKslabCache with
  | mk o s₁ =>
    rw [hr] at hpost
    have hlist : s₁.cacheList = s.cacheList := hpost.touches.cacheList
    cases o with
    | none =>
      refine .inl ⟨?_, hlist, fresh, hfresh.1, hfresh.2, .inl rfl⟩
      rintro ⟨newCache, s', c, heq, -⟩
      cases heq
    | some newCache =>
      obtain ⟨hinv, -, hnot, -⟩ := hpost.object newCache rfl
      have hnew : newCache ∉ s.cacheList := fun hm => hnot (h.inv.cache_live newCache hm)
      have hheld : newCache ∉ held := fun hm => hnot (h.inv.held_live newCache hm)
      dsimp only
      cases hi : initCache PageRange objSize pagesPerSlab minFreeObjs cacheFlags with
      | error err =>
        refine .inl ⟨?_, (kvmmCacheFree_cacheList depth s₁ newCache).trans hlist, newCache, hnew, hheld, ?_⟩
        · rintro ⟨_, _, _, -, heq, -⟩
          cases heq
        · dsimp only
          split
          · exact .inr rfl
          · exact .inl rfl
      | ok c =>
        obtain ⟨hok, hc, -, -, -⟩ := initCache_ok hvalid hi
        have h₁ : SlabInv { s₁.setCache newCache c with cacheList := s₁.cacheList ++ [newCache] } held [] :=
          hinv.create hok hc
        have hmem : newCache ∈ s₁.cacheList ++ [newCache] :=
          List.mem_append_right _ (List.mem_singleton_self newCache)
        have hgrow : GrowPost _ held [] newCache (cacheGrowAt depth S
            { s₁.setCache newCache c with cacheList := s₁.cacheList ++ [newCache] } newCache) :=
          cacheGrow_spec h₁ hmem fun _ => allocatesStruct_kvmmCacheAlloc depth S
        refine .inr ⟨newCache, hnew, hheld, rfl, ?_⟩
        dsimp only
        by_cases hzero : minFreeObjs = 0
        · rw [if_pos hzero]
          refine .inl ⟨?_, congrArg (· ++ [newCache]) hlist⟩
          rintro ⟨_, _, _, -, -, hne, -⟩
          exact hne hzero
        · rw [if_neg hzero]
          cases hg : cacheGrowAt depth S
              { s₁.setCache newCache c with cacheList := s₁.cacheList ++ [newCache] } newCache with
          | mk grown s₂ =>
            rw [hg] at hgrow
            have hlist₂ : s₂.cacheList = s₁.cacheList ++ [newCache] := hgrow.touches.cacheList
            cases grown with
            | true =>
              refine .inl ⟨?_, hlist₂.trans (congrArg (· ++ [newCache]) hlist)⟩
              rintro ⟨x, s', c', heq, hc', -, hfalse⟩
              cases heq
              cases hc'
              rw [hg] at hfalse
              cases hfalse
            | false =>
              refine .inr ⟨⟨newCache, s₁, c, rfl, rfl, hzero, by rw [hg]⟩, ?_⟩
              have hempty : (s₂.cache newCache).slabList = [] := by
                have hcache : s₂.cache newCache = c := (hgrow.failed rfl).1.trans (Function.update_self ..)
                rw [hcache, hc]
              rcases @kvmmCacheDestroy_cases s₂ newCache depth with ⟨⟨slab, hs, -⟩, -⟩ | ⟨-, hgone⟩
              · rw [hempty] at hs
                cases hs
              · dsimp only
                rw [hgone]
                exact fun hm => (hgrow.inv.nodup.mem_erase_iff.mp hm).1 rfl

end Calls

/-! ## Runs -/

/-- The allocator between two calls, and the links of a list of the caches, in some order. -/
structure CacheListInv (w : CacheWorld) : Prop where
  good : SlabGood w.sys (w.rangeCache :: w.objs)
  ring : ∃ l, w.kslabCacheList.Ring l ∧ l.Perm (w.rangeCache :: w.sys.cacheList)

section Step

variable {w : CacheWorld} {op : CacheOp} {depth : Nat} {S : RangeSource}

theorem CacheListInv.right (h : CacheListInv w) : CacheListRight w := by
  obtain ⟨l, hring, hperm⟩ := h.ring
  have hnot : w.rangeCache ∉ w.sys.cacheList := fun hm => h.good.inv.cache_held _ hm List.mem_cons_self
  refine ⟨l, hring, hperm.nodup_iff.mpr (List.nodup_cons.mpr ⟨hnot, h.good.inv.nodup⟩), fun ca => ?_⟩
  rw [hperm.mem_iff, List.mem_cons, or_comm]

/-- The list is not right where it holds a structure that is no cache's. -/
theorem not_cacheListRight {l : List Nat} {x : Nat} (hring : w.kslabCacheList.Ring l) (hx : x ∈ l)
    (hlist : x ∉ w.sys.cacheList) (hne : x ≠ w.rangeCache) : ¬ CacheListRight w := by
  rintro ⟨l', hring', -, hmem⟩
  exact ((hmem x).mp (hring.subset hring' x hx)).elim hlist hne

/-- A call that destroys no cache keeps the list. -/
theorem cacheListInv_step (hd : 0 < depth) (h : CacheListInv w) (hg : CacheGuard w op) (hkeep : DestroysNone depth S w op) :
    CacheListInv (cacheStep depth S w op) := by
  obtain ⟨l, hring, hperm⟩ := h.ring
  cases op with
  | create objSize pagesPerSlab minFreeObjs cacheFlags =>
    have hgood := @SlabGood.create w.sys (w.rangeCache :: w.objs) depth S objSize pagesPerSlab minFreeObjs cacheFlags
      h.good hg hd
    have hnodup := hperm.nodup_iff.mpr (List.nodup_cons.mpr
      ⟨fun hm => h.good.inv.cache_held _ hm List.mem_cons_self, h.good.inv.nodup⟩)
    have hfresh : ∀ x, x ∉ w.sys.cacheList → x ∉ w.rangeCache :: w.objs → x ∉ l := by
      intro x hlist hheld hx
      rcases List.mem_cons.mp (hperm.mem_iff.mp hx) with he | hin
      · exact hheld (he ▸ List.mem_cons_self)
      · exact hlist hin
    rcases @kvmmCacheCreate_cases w.sys (w.rangeCache :: w.objs) depth S objSize pagesPerSlab minFreeObjs
      cacheFlags h.good hg hd
      w.kslabCacheList with ⟨-, hsame, x, hlist, hheld, hlinks⟩ | ⟨x, hlist, hheld, hlinks, ⟨-, hmore⟩ | ⟨hout, -⟩⟩
    · refine ⟨hgood, l, ?_, ?_⟩
      · show (kvmmCacheCreateLinks _ _ _ _ _ _ _ _).Ring l
        rcases hlinks with hlinks | hlinks
        · rwa [hlinks]
        · rw [hlinks]
          exact hring.clear (hfresh x hlist hheld)
      · show l.Perm (w.rangeCache :: (kvmmCacheCreate _ _ _ _ _ _ _).2.cacheList)
        rwa [hsame]
    · refine ⟨hgood, l ++ [x], ?_, ?_⟩
      · show (kvmmCacheCreateLinks _ _ _ _ _ _ _ _).Ring (l ++ [x])
        rw [hlinks]
        exact (hring.clear (hfresh x hlist hheld)).addTail hnodup (hfresh x hlist hheld)
      · show (l ++ [x]).Perm (w.rangeCache :: (kvmmCacheCreate _ _ _ _ _ _ _).2.cacheList)
        rw [hmore]
        exact hperm.append_right [x]
    · exact absurd hout hkeep
  | destroy ca =>
    rcases @kvmmCacheDestroy_cases w.sys ca depth with ⟨-, heq⟩ | ⟨hnot, -⟩
    · have hstep : cacheStep depth S w (.destroy ca) = w := by
        unfold cacheStep
        dsimp only
        rw [heq]
      rw [hstep]
      exact h
    · exact absurd hkeep hnot
  | alloc ca =>
    have hpost : AllocPost w.sys (w.rangeCache :: w.objs) [] ca (kvmmCacheAlloc depth S w.sys ca) :=
      kvmmCacheAlloc_spec h.good.inv hg (h.good.stocked _ hg) (.inr hd)
    obtain ⟨hnull, hobj⟩ := h.good.alloc (S := S) hg (.inr hd)
    unfold cacheStep
    dsimp only
    cases hr : kvmmCacheAlloc depth S w.sys ca with
    | mk o s =>
      rw [hr] at hpost
      have hlist : s.cacheList = w.sys.cacheList := hpost.touches.cacheList
      cases o with
      | none =>
        refine ⟨(hnull s hr).1, l, hring, ?_⟩
        dsimp only
        rwa [hlist]
      | some a =>
        have hgood := (hobj a s hr).1
        refine ⟨⟨hgood.inv.perm (List.Perm.swap _ _ _), hgood.stocked, hgood.caches⟩, l, hring, ?_⟩
        dsimp only
        rwa [hlist]
  | free a =>
    have hswap : (w.rangeCache :: w.objs).Perm (a :: w.rangeCache :: w.objs.erase a) :=
      ((List.perm_cons_erase hg).cons _).trans (List.Perm.swap _ _ _)
    have h' : SlabGood w.sys (a :: w.rangeCache :: w.objs.erase a) :=
      ⟨h.good.inv.perm hswap, h.good.stocked, h.good.caches⟩
    obtain ⟨ca, hca, ha⟩ := h'.inv.held_live a List.mem_cons_self
    refine ⟨h'.free hca ha (.inr hd), l, hring, ?_⟩
    show l.Perm (w.rangeCache :: (kvmmCacheFree depth w.sys a).2.cacheList)
    rwa [kvmmCacheFree_cacheList]

/-- A call that destroys a cache leaves its structure on the list. -/
theorem not_cacheListRight_step (hd : 0 < depth) (h : CacheListInv w) (hg : CacheGuard w op)
    (hdestroys : ¬ DestroysNone depth S w op) : ¬ CacheListRight (cacheStep depth S w op) := by
  obtain ⟨l, hring, hperm⟩ := h.ring
  have hnodup := hperm.nodup_iff.mpr (List.nodup_cons.mpr
    ⟨fun hm => h.good.inv.cache_held _ hm List.mem_cons_self, h.good.inv.nodup⟩)
  cases op with
  | create objSize pagesPerSlab minFreeObjs cacheFlags =>
    have hout := not_not.mp hdestroys
    rcases @kvmmCacheCreate_cases w.sys (w.rangeCache :: w.objs) depth S objSize pagesPerSlab minFreeObjs
      cacheFlags h.good hg hd
      w.kslabCacheList with ⟨hnot, -⟩ | ⟨x, hlist, hheld, hlinks, ⟨hnot, -⟩ | ⟨-, hgone⟩⟩
    · exact absurd hout hnot
    · exact absurd hout hnot
    · have hfresh : x ∉ l := by
        intro hx
        rcases List.mem_cons.mp (hperm.mem_iff.mp hx) with he | hin
        · exact hheld (he ▸ List.mem_cons_self)
        · exact hlist hin
      apply @not_cacheListRight _ (l ++ [x]) x
      · show (kvmmCacheCreateLinks _ _ _ _ _ _ _ _).Ring (l ++ [x])
        rw [hlinks]
        exact (hring.clear hfresh).addTail hnodup hfresh
      · exact List.mem_append_right _ (List.mem_singleton_self x)
      · exact hgone
      · exact fun he => hheld (he ▸ List.mem_cons_self)
  | destroy ca =>
    rcases @kvmmCacheDestroy_cases w.sys ca depth with ⟨hobjects, -⟩ | ⟨-, hgone⟩
    · exact absurd hobjects hdestroys
    · apply @not_cacheListRight (cacheStep depth S w (.destroy ca)) l ca hring
      · exact hperm.mem_iff.mpr (List.mem_cons_of_mem _ hg)
      · show ca ∉ (kvmmCacheDestroy depth w.sys ca).2.cacheList
        rw [hgone]
        exact fun hm => (h.good.inv.nodup.mem_erase_iff.mp hm).1 rfl
      · exact fun he => h.good.inv.cache_held ca hg (he ▸ List.mem_cons_self)
  | alloc ca => exact absurd trivial hdestroys
  | free a => exact absurd trivial hdestroys

end Step

/-! ## Setup -/

/-- `kvmm_cache_setup_prepare` adds the caches of caches, of slab structures and of ranges to the empty list. -/
def cacheListSetup (S : RangeSource) (base : Nat) : Option CacheWorld :=
  let s := kvmmCacheSetupPrepare S base
  match kvmmCacheAlloc 0 S s s.cacheOfStructKslabCache with
  | (none, _) => none
  | (some cacheOfRanges, s') => some ⟨s', [], cacheOfRanges,
    (s.cacheList ++ [cacheOfRanges]).foldl (fun m ca => (m.clear ca).addTail ca) ⟨none, fun _ => none, fun _ => none⟩⟩

theorem ring_foldl_addTail : ∀ (rest l : List Nat) (m : CircularList Nat), (l ++ rest).Nodup → m.Ring l →
    (rest.foldl (fun m ca => (m.clear ca).addTail ca) m).Ring (l ++ rest) := by
  intro rest
  induction rest with
  | nil =>
    intro l m _ h
    rwa [List.append_nil]
  | cons ca rest ih =>
    intro l m hnodup h
    have hassoc : l ++ ca :: rest = l ++ [ca] ++ rest := by
      rw [List.append_assoc, List.singleton_append]
    have hca : ca ∉ l := fun hm => (List.nodup_append.mp hnodup).2.2 ca hm ca List.mem_cons_self rfl
    rw [hassoc] at hnodup ⊢
    exact ih (l ++ [ca]) _ hnodup ((h.clear hca).addTail (List.nodup_append.mp hnodup).1.of_append_left hca)

/-- At the start the list holds the three caches. -/
theorem cacheListInv_setup (S : RangeSource) (base : Nat) : ∃ w, cacheListSetup S base = some w ∧ CacheListInv w := by
  obtain ⟨hprep, -, -⟩ := slabSetup_prepare (S := S) base
  unfold cacheListSetup
  generalize kvmmCacheSetupPrepare S base = s at hprep
  obtain ⟨a, s', halloc, hsetup, -, hnew, hlist, -⟩ := hprep.take (S := S)
  dsimp only
  rw [halloc]
  refine ⟨_, rfl, hsetup.good, s.cacheList ++ [a], ?_, ?_⟩
  · apply ring_foldl_addTail _ []
    · rw [List.nil_append]
      exact (List.perm_append_singleton a s.cacheList).nodup_iff.mpr
        (List.nodup_cons.mpr ⟨hnew, hprep.good.inv.nodup⟩)
    · rfl
  · dsimp only
    rw [hlist]
    exact List.perm_append_singleton a s.cacheList

/-- **The list of the caches over whole runs** is right exactly as long as no cache is destroyed. -/
theorem cacheList_runs_iff (S : RangeSource) (base depth : Nat) : ∃ w, cacheListSetup S base = some w ∧
    ∀ ops, Guarded (cacheStep (depth + 1) S) CacheGuard w ops →
      (Always (cacheStep (depth + 1) S) CacheListRight w ops ↔
        Guarded (cacheStep (depth + 1) S) (DestroysNone (depth + 1) S) w ops) := by
  obtain ⟨w, heq, hw⟩ := cacheListInv_setup S base
  refine ⟨w, heq, fun ops hops => ?_⟩
  have hd : 0 < depth + 1 := Nat.succ_pos depth
  exact @always_iff_guarded _ _ (cacheStep (depth + 1) S) CacheGuard (DestroysNone (depth + 1) S) CacheListInv _
    (fun _ h => h.right) (fun _ _ h hg hk => cacheListInv_step hd h hg hk)
    (fun _ _ h hg hk => not_cacheListRight_step hd h hg hk) ops w hw hops

/-- A cache is created, an object of it allocated, and the cache is not destroyed. -/
theorem cacheList_runs_iff_refused : ∃ w, cacheListSetup bumpSource 0x200000 = some w ∧
    (Always (cacheStep 1 bumpSource) CacheListRight w
        [.create 64 1 0 kslabCreateMap, .alloc 0x200084, .destroy 0x200084] ↔
      Guarded (cacheStep 1 bumpSource) (DestroysNone 1 bumpSource) w
        [.create 64 1 0 kslabCreateMap, .alloc 0x200084, .destroy 0x200084]) := by
  obtain ⟨w, heq, hruns⟩ := cacheList_runs_iff bumpSource 0x200000 0
  have hguards : ((cacheListSetup bumpSource 0x200000).all fun w =>
      decide (CacheGuard (cacheStep 1 bumpSource w (.create 64 1 0 kslabCreateMap)) (.alloc 0x200084)) &&
      decide (CacheGuard (run (cacheStep 1 bumpSource) w [.create 64 1 0 kslabCreateMap, .alloc 0x200084])
        (.destroy 0x200084))) = true := by
    decide +kernel
  rw [heq, Option.all_some, Bool.and_eq_true, decide_eq_true_eq, decide_eq_true_eq] at hguards
  have hcreate : CacheGuard w (.create 64 1 0 kslabCreateMap) :=
    show ValidParams 64 kslabCreateMap by decide
  exact ⟨w, heq, hruns _ ⟨hcreate, hguards.1, hguards.2, trivial⟩⟩

/-- A cache that is created and destroyed stays on the list. -/
theorem cacheList_keeps_destroyed : ¬ ∀ (S : RangeSource) (base depth : Nat) (w : CacheWorld),
    cacheListSetup S base = some w → ∀ ops, Guarded (cacheStep (depth + 1) S) CacheGuard w ops →
      CacheListRight (run (cacheStep (depth + 1) S) w ops) := by
  intro hright
  obtain ⟨w, heq, hw⟩ := cacheListInv_setup bumpSource 0x200000
  have hcreate : CacheGuard w (.create 64 1 0 kslabCreateMap) :=
    show ValidParams 64 kslabCreateMap by decide
  have hfacts : ((cacheListSetup bumpSource 0x200000).all fun w =>
      decide (CacheGuard (cacheStep 1 bumpSource w (.create 64 1 0 kslabCreateMap)) (.destroy 0x200084)) &&
      ((cacheStep 1 bumpSource w (.create 64 1 0 kslabCreateMap)).sys.cache 0x200084).slabList.isEmpty) = true := by
    decide +kernel
  rw [heq, Option.all_some, Bool.and_eq_true, decide_eq_true_eq, List.isEmpty_iff] at hfacts
  obtain ⟨hdestroy, hempty⟩ := hfacts
  have hkeep : DestroysNone 1 bumpSource w (.create 64 1 0 kslabCreateMap) := by
    rintro ⟨_, _, _, -, -, hne, -⟩
    exact hne rfl
  have hw₁ := cacheListInv_step Nat.one_pos hw hcreate hkeep
  apply not_cacheListRight_step Nat.one_pos hw₁ hdestroy (S := bumpSource)
  · rintro ⟨slab, hs, -⟩
    rw [hempty] at hs
    cases hs
  · exact hright bumpSource 0x200000 0 w heq [.create 64 1 0 kslabCreateMap, .destroy 0x200084]
      ⟨hcreate, hdestroy, trivial⟩

end Desiros.Mem
