import Desiros.Mem.KmallocRuns
import Desiros.Mem.KvmmRuns

/-!
# The kernel heap after kvmm_setup and kmalloc_setup

The caches that `kvmm_cache_setup_prepare` sets up take all they need from the first slab of the cache of caches, and
so do those of `kmalloc_setup`. The ranges of `kvmm_setup` ascend, and are disjoint but for the last pages of the
kernel, which are said to reach over the first slab of caches.
-/

namespace Desiros.Mem

open Desiros.Library KslabCache SlabSystem Kvmm

/-! ## The caches -/

/-- The caches at the start, all with their slab structures on the slab, and `n` free objects of the cache of
caches. -/
structure SlabSetup (s : SlabSystem) (held : List Nat) (base n : Nat) : Prop where
  good : SlabGood s held
  on : ∀ ca ∈ s.cacheList, (s.cache ca).onSlab = true
  minFree : ∀ ca ∈ s.cacheList, (s.cache ca).minFreeObj = 0
  ranges : s.ranges = [⟨base, 1⟩]
  cacheSize : (s.cache s.cacheOfStructKslabCache).allocObjSize = sizeofKslabCache
  objSize : ∀ ca ∈ s.cacheList, sizeofKslabFreeObj ≤ (s.cache ca).allocObjSize
  cache_allocated : ∀ ca ∈ s.cacheList, (s.cache s.cacheOfStructKslabCache).Allocated ca
  count : n ≤ (s.cache s.cacheOfStructKslabCache).nbFreeObj

variable {s : SlabSystem} {held : List Nat} {base n : Nat} {S : RangeSource}

theorem slabSetup_createCacheOfCaches (base : Nat) : SlabSetup (createCacheOfCaches base) [] base 91 := by
  have hok := firstSlab_ok base
  obtain ⟨real, c, ht⟩ := exists_cacheTakeObject (hok.not_needsSlab (show 0 < 0 + 92 by decide))
  obtain ⟨-, hparams, -, hcount, -, hall⟩ := hok.take ht
  have hstate : createCacheOfCaches base = ⟨[real], fun _ => c, [⟨base, 1⟩], 0, real, real⟩ := by
    unfold createCacheOfCaches
    rw [initCache_fakeCacheOfCaches]
    simp only [ht]
  have hgood := slabGood_createCacheOfCaches base
  rw [hstate] at hgood ⊢
  have hsize : c.allocObjSize = sizeofKslabCache := hparams.allocObjSize
  refine ⟨hgood.1, hgood.2, fun _ _ => hparams.minFreeObj, rfl, hsize, fun _ _ => ?_, fun ca hca => ?_, ?_⟩
  · show sizeofKslabFreeObj ≤ c.allocObjSize
    rw [hsize]
    decide
  · rw [List.mem_singleton.mp hca]
    exact (hall real).mpr (.inr rfl)
  · have hfirst : c.nbFreeObj + 1 = 0 + 92 := hcount
    show 91 ≤ c.nbFreeObj
    omega

/-- A cache without a minimum hands out a free object, whatever the source of ranges. -/
theorem kvmmCacheAlloc_plain (S : RangeSource) (depth : Nat) {ca : Nat} (hok : (s.cache ca).Ok)
    (hpos : 0 < (s.cache ca).nbFreeObj) (hmin : (s.cache ca).minFreeObj = 0) : ∃ obj c, cacheTakeObject (s.cache ca) = some (obj, c) ∧
      kvmmCacheAlloc depth S s ca = (some obj, s.setCache ca c) := by
  have hneeds := hok.not_needsSlab hpos
  obtain ⟨obj, c, ht⟩ := exists_cacheTakeObject hneeds
  obtain ⟨-, hparams, -⟩ := hok.take ht
  have hself : (s.setCache ca c).cache ca = c := Function.update_self ..
  have hplain : ∀ allocStruct free, cacheAllocWith allocStruct free S s ca = (some obj, s.setCache ca c) := by
    intro allocStruct free
    have hnot : ¬ (c.minFreeObj > 0 ∧ c.nbFreeObj = c.minFreeObj - 1) := by
      rw [hparams.minFreeObj, hmin]
      exact fun hf => Nat.lt_irrefl 0 hf.1
    unfold cacheAllocWith
    rw [hneeds, if_neg Bool.false_ne_true]
    unfold cacheTakeEnsureMin
    rw [ht]
    dsimp only
    unfold cacheEnsureMin
    rw [hself, if_neg hnot]
  refine ⟨obj, c, ht, ?_⟩
  cases depth with
  | zero => exact hplain _ _
  | succ depth => exact hplain _ _

/-- The structure of a new cache comes from the first slab. -/
theorem SlabSetup.take (h : SlabSetup s held base (n + 1)) : ∃ a s',
    kvmmCacheAlloc 0 S s s.cacheOfStructKslabCache = (some a, s') ∧ SlabSetup s' (a :: held) base n ∧
      (s'.cache s.cacheOfStructKslabCache).Allocated a ∧ a ∉ s.cacheList ∧ s'.cacheList = s.cacheList ∧
      s'.cacheOfStructKslabCache = s.cacheOfStructKslabCache ∧ s'.cacheOfStructKslab = s.cacheOfStructKslab ∧
      ∀ ca, ca ≠ s.cacheOfStructKslabCache → s'.cache ca = s.cache ca := by
  have hi := h.good.inv
  have hok := hi.ok _ h.good.caches
  obtain ⟨a, c, ht, heq⟩ := kvmmCacheAlloc_plain S 0 hok (Nat.lt_of_lt_of_le (Nat.succ_pos n) h.count)
    (h.minFree _ h.good.caches)
  obtain ⟨-, hparams, -, hcount, -, hall⟩ := hok.take ht
  have hgood := (@SlabGood.alloc _ _ _ 0 S h.good h.good.caches (.inl (h.on _ h.good.caches))).2 a _ heq
  have hself : (s.setCache s.cacheOfStructKslabCache c).cache s.cacheOfStructKslabCache = c := Function.update_self ..
  have hsame := sameParams_setCache hparams
  refine ⟨a, _, heq, ⟨hgood.1, fun ca hca => ?_, fun ca hca => ?_, h.ranges, ?_, fun ca hca => ?_, fun ca hca => ?_,
    ?_⟩, hgood.2, fun hm => hgood.1.inv.cache_held a hm List.mem_cons_self, rfl, rfl, rfl,
    fun ca hne => Function.update_of_ne hne ..⟩
  · exact (hsame ca).onSlab.trans (h.on ca hca)
  · exact (hsame ca).minFreeObj.trans (h.minFree ca hca)
  · exact (hsame _).allocObjSize.trans h.cacheSize
  · rw [(hsame ca).allocObjSize]
    exact h.objSize ca hca
  · show ((s.setCache s.cacheOfStructKslabCache c).cache s.cacheOfStructKslabCache).Allocated ca
    rw [hself]
    exact (hall ca).mpr (.inl (h.cache_allocated ca hca))
  · show n ≤ ((s.setCache s.cacheOfStructKslabCache c).cache s.cacheOfStructKslabCache).nbFreeObj
    rw [hself]
    have := h.count
    omega

/-- The caches of caches and of slab structures. -/
theorem slabSetup_prepare (base : Nat) : SlabSetup (kvmmCacheSetupPrepare S base) [] base 90 ∧
    (kvmmCacheSetupPrepare S base).cacheOfStructKslabCache ≠ (kvmmCacheSetupPrepare S base).cacheOfStructKslab ∧
    ((kvmmCacheSetupPrepare S base).cache (kvmmCacheSetupPrepare S base).cacheOfStructKslab).allocObjSize =
      sizeofKslab := by
  have h := slabSetup_createCacheOfCaches base
  have hgood := slabGood_kvmmCacheSetupPrepare S base
  unfold kvmmCacheSetupPrepare at hgood ⊢
  generalize createCacheOfCaches base = s at h hgood ⊢
  obtain ⟨a, s', halloc, h', ha, hnew, hlist, hcaches, -, -⟩ := h.take (S := S)
  have hne : s.cacheOfStructKslabCache ≠ a := fun he => hnew (he ▸ h.good.caches)
  have hself : (s'.setCache a slabStructCache).cache a = slabStructCache := Function.update_self ..
  have hother : ∀ ca, ca ≠ a → (s'.setCache a slabStructCache).cache ca = s'.cache ca :=
    fun ca hca => Function.update_of_ne hca ..
  have hcreate : kvmmCacheCreate 0 S s (UInt32.ofNat sizeofKslab) 1 0 kslabCreateMap =
      (some a, { s'.setCache a slabStructCache with cacheList := s'.cacheList ++ [a] }) := by
    unfold kvmmCacheCreate
    rw [halloc]
    simp only [initCache_slabStructCache, if_true]
  rw [← hcaches] at hne ha
  dsimp only at hgood ⊢
  rw [hcreate] at hgood ⊢
  have hsplit : ∀ {P : Nat → Prop}, P a → (∀ ca ∈ s'.cacheList, ca ≠ a → P ca) → ∀ ca ∈ s'.cacheList ++ [a], P ca := by
    intro P hpa hrest ca hca
    rw [List.mem_append, List.mem_singleton] at hca
    by_cases he : ca = a
    · exact he ▸ hpa
    · exact hrest ca (hca.resolve_right he) he
  have hreal := hother _ hne
  refine ⟨⟨hgood, hsplit ?_ fun ca hca he => ?_, hsplit ?_ fun ca hca he => ?_, h'.ranges, ?_,
    hsplit ?_ fun ca hca he => ?_, hsplit ?_ fun ca hca he => ?_, ?_⟩, hne, ?_⟩
  · exact congrArg KslabCache.onSlab hself
  · exact (congrArg KslabCache.onSlab (hother ca he)).trans (h'.on ca hca)
  · exact congrArg KslabCache.minFreeObj hself
  · exact (congrArg KslabCache.minFreeObj (hother ca he)).trans (h'.minFree ca hca)
  · exact (congrArg KslabCache.allocObjSize hreal).trans h'.cacheSize
  · show sizeofKslabFreeObj ≤ ((s'.setCache a slabStructCache).cache a).allocObjSize
    rw [hself]
    decide
  · show sizeofKslabFreeObj ≤ ((s'.setCache a slabStructCache).cache ca).allocObjSize
    rw [hother ca he]
    exact h'.objSize ca hca
  · show ((s'.setCache a slabStructCache).cache s'.cacheOfStructKslabCache).Allocated a
    rw [hreal]
    exact ha
  · show ((s'.setCache a slabStructCache).cache s'.cacheOfStructKslabCache).Allocated ca
    rw [hreal]
    exact h'.cache_allocated ca hca
  · show 90 ≤ ((s'.setCache a slabStructCache).cache s'.cacheOfStructKslabCache).nbFreeObj
    rw [hreal]
    exact h'.count
  · exact congrArg KslabCache.allocObjSize hself

/-! ## The ranges -/

/-- The range cache before its first slab. -/
def fakeCacheOfRanges : KslabCache (Option Nat) where
  originalObjSize := 20
  allocObjSize := 20
  nbObjPerSlab := 203
  nbPagesPerSlab := 1
  minFreeObj := 2
  flags := kslabCreateMap ||| onSlabFlag
  onSlab := true
  nbFreeObj := 0
  slabList := []

theorem createCacheOfRanges_eq (base : Nat) : createCacheOfRanges base =
    .ok (cacheAddSlab fakeCacheOfRanges base (base + nbBytesPerPage - sizeofKslab) none) := by
  have hinit : initCache (Option Nat) (UInt32.ofNat sizeofKvmmRange) 1 2 (kslabCreateMap ||| onSlabFlag) =
      .ok fakeCacheOfRanges := by rfl
  unfold createCacheOfRanges
  rw [hinit]
  rfl

/-- The arguments of `kvmm_create_range`, of which it makes a range. -/
structure RangeFor (a : Bool × Nat × Nat × Option Nat) (r : KvmmRange) : Prop where
  base : r.base = a.2.1
  nbPages : r.nbPages = (a.2.2.1 - a.2.1) / nbBytesPerPage

def LargeEnough (a : Bool × Nat × Nat × Option Nat) : Bool := decide (nbBytesPerPage ≤ a.2.2.1 - a.2.1)

/-- The ranges that the calls of `kvmm_create_range` so far have made, with structures from the first slab of
ranges. -/
structure RangesSetup {W : Type} (base : Nat) (args : List (Bool × Nat × Nat × Option Nat)) (s : Kvmm W) : Prop where
  cache : RangeCacheOk s.rangeCache
  size : s.rangeCache.allocObjSize = sizeofKvmmRange
  keys : ∀ k ∈ s.rangeCache.keys, k = (base + nbBytesPerPage - sizeofKslab, base, none)
  count : 203 ≤ s.rangeCache.nbFreeObj + args.length
  nodup : ((s.freeList ++ s.usedList).map (·.addr)).Nodup
  allocated : ∀ a ∈ (s.freeList ++ s.usedList).map (·.addr), s.rangeCache.Allocated a
  free : List.Forall₂ RangeFor (args.filter fun a => a.1 && LargeEnough a) s.freeList
  used : List.Forall₂ (fun a r => RangeFor a r ∧ s.slabOf r.addr = a.2.2.2)
    (args.filter fun a => !a.1 && LargeEnough a) s.usedList

variable {W : Type} {E : PageMap W} {args : List (Bool × Nat × Nat × Option Nat)} {k : Kvmm W}

theorem rangesSetup_nil (base : Nat) (world : W) : RangesSetup base [] (⟨[], [], fun _ => none,
    cacheAddSlab fakeCacheOfRanges base (base + nbBytesPerPage - sizeofKslab) none, world⟩ : Kvmm W) := by
  have hempty : fakeCacheOfRanges.Ok := ok_of_no_slabs ⟨by decide, by decide, by decide⟩ rfl rfl
  have hok := (@KslabCache.Ok.add _ _ hempty base (base + nbBytesPerPage - sizeofKslab) none
    (fun slab hs => by cases hs) fun _ => by
      have hbytes : fakeCacheOfRanges.slabBytes = 4096 := rfl
      have hpage : nbBytesPerPage = 4096 := rfl
      have hk : sizeofKslab = 28 := rfl
      omega).1
  have hobjs : 2 ≤ fakeCacheOfRanges.nbObjPerSlab := by decide
  refine ⟨⟨hok, rfl, rfl, rfl, hobjs⟩, rfl, fun k hk => List.mem_singleton.mp hk, ?_, List.nodup_nil,
    fun a ha => absurd ha List.not_mem_nil, .nil, .nil⟩
  show 203 ≤ 0 + 203 + 0
  omega

theorem filter_append_singleton {α : Type} (p : α → Bool) (l : List α) (a : α) :
    (l ++ [a]).filter p = if p a then l.filter p ++ [a] else l.filter p := by
  rw [List.filter_append, List.filter_singleton]
  cases p a with
  | true => rfl
  | false => exact List.append_nil _

/-- One call of `kvmm_create_range`. -/
theorem RangesSetup.create (h : RangesSetup base args k) (hlen : args.length ≤ 200)
    (a : Bool × Nat × Nat × Option Nat) :
    RangesSetup base (args ++ [a]) (kvmmCreateRange E k a.1 a.2.1 a.2.2.1 a.2.2.2) := by
  obtain ⟨isFree, b, t, o⟩ := a
  have hcount := h.count
  unfold kvmmCreateRange
  by_cases hlarge : t - b < nbBytesPerPage
  · have hnot : LargeEnough (isFree, b, t, o) = false := by simpa [LargeEnough] using hlarge
    rw [if_pos hlarge]
    refine ⟨h.cache, h.size, h.keys, by rw [List.length_append]; omega, h.nodup, h.allocated, ?_, ?_⟩
    · rw [filter_append_singleton, if_neg (by simp [hnot])]
      exact h.free
    · rw [filter_append_singleton, if_neg (by simp [hnot])]
      exact h.used
  · have hyes : LargeEnough (isFree, b, t, o) = true := by simpa [LargeEnough] using hlarge
    obtain ⟨addr, c, ht, heq⟩ := @cacheAllocWith_plain W k E (kvmmNewRange E 1) h.cache (by omega) (by omega)
    obtain ⟨hok, hparams, hkeys, hnb, hfree, hall⟩ := h.cache.ok.take ht
    have hnew : addr ∉ (k.freeList ++ k.usedList).map (·.addr) := fun hm => hfree (h.allocated _ hm)
    have hcache : RangeCacheOk c := h.cache.of_params hok hparams
    have hsize : c.allocObjSize = sizeofKvmmRange := hparams.allocObjSize.trans h.size
    have hckeys : ∀ k' ∈ c.keys, k' = (base + nbBytesPerPage - sizeofKslab, base, none) :=
      fun k' hk => h.keys k' (hkeys.mem_iff.mp hk)
    have hccount : 203 ≤ c.nbFreeObj + (args ++ [(isFree, b, t, o)]).length := by
      rw [List.length_append, List.length_singleton]
      omega
    have hrange : RangeFor (isFree, b, t, o) ⟨addr, b, (t - b) / nbBytesPerPage⟩ := ⟨rfl, rfl⟩
    have haddr : (⟨addr, b, (t - b) / nbBytesPerPage⟩ : KvmmRange).addr = addr := rfl
    have hallocated : ∀ x, x = addr ∨ x ∈ (k.freeList ++ k.usedList).map (·.addr) → c.Allocated x := by
      intro x hx
      cases hx with
      | inl he => exact (hall x).mpr (.inr he)
      | inr hin => exact (hall x).mpr (.inl (h.allocated x hin))
    rw [if_neg hlarge, heq]
    dsimp only
    generalize (⟨addr, b, (t - b) / nbBytesPerPage⟩ : KvmmRange) = range at hrange haddr ⊢
    cases isFree with
    | true =>
      have hperm : ((k.freeList ++ [range] ++ k.usedList).map KvmmRange.addr).Perm
          (addr :: (k.freeList ++ k.usedList).map KvmmRange.addr) := by
        rw [List.append_assoc, List.singleton_append, ← haddr]
        exact List.perm_middle.map KvmmRange.addr
      simp only [if_true]
      refine ⟨hcache, hsize, hckeys, hccount, hperm.nodup_iff.mpr (List.nodup_cons.mpr ⟨hnew, h.nodup⟩),
        fun x hx => hallocated x (List.mem_cons.mp (hperm.mem_iff.mp hx)), ?_, ?_⟩
      · rw [filter_append_singleton, if_pos (by simp [hyes])]
        exact forall₂_append h.free (.cons hrange .nil)
      · rw [filter_append_singleton, if_neg (by simp)]
        exact h.used
    | false =>
      have hperm : ((k.freeList ++ (k.usedList ++ [range])).map KvmmRange.addr).Perm
          (addr :: (k.freeList ++ k.usedList).map KvmmRange.addr) := by
        rw [← List.append_assoc, ← haddr]
        exact (List.perm_append_singleton _ _).map KvmmRange.addr
      simp only [Bool.false_eq_true, if_false]
      refine ⟨hcache, hsize, hckeys, hccount, hperm.nodup_iff.mpr (List.nodup_cons.mpr ⟨hnew, h.nodup⟩),
        fun x hx => hallocated x (List.mem_cons.mp (hperm.mem_iff.mp hx)), ?_, ?_⟩
      · rw [filter_append_singleton, if_neg (by simp)]
        exact h.free
      · rw [filter_append_singleton, if_pos (by simp [hyes])]
        refine forall₂_append ?_ (.cons ⟨hrange, ?_⟩ .nil)
        · -- the ranges before have other structures
          refine forall₂_imp_of_mem h.used fun x r hr hx => ⟨hx.1, ?_⟩
          have hne : r.addr ≠ addr := fun he => hnew (he ▸ List.mem_map_of_mem (List.mem_append_right _ hr))
          exact (Function.update_of_ne hne ..).trans hx.2
        · rw [haddr]
          exact Function.update_self ..

theorem RangesSetup.createAll : ∀ (rest args : List (Bool × Nat × Nat × Option Nat)) (k : Kvmm W),
    RangesSetup base args k → args.length + rest.length ≤ 200 → RangesSetup base (args ++ rest)
      (rest.foldl (fun s a => kvmmCreateRange E s a.1 a.2.1 a.2.2.1 a.2.2.2) k) := by
  intro rest
  induction rest with
  | nil =>
    intro args k h _
    rwa [List.append_nil]
  | cons a rest ih =>
    intro args k h hlen
    rw [List.length_cons] at hlen
    have := ih (args ++ [a]) _ (h.create (E := E) (by omega) a) (by rw [List.length_append, List.length_singleton]; omega)
    rwa [List.append_assoc, List.singleton_append] at this

namespace KernelLayout

/-- The kernel lies between the video memory and the first slab of caches, its stack below its top, and there is space
behind for the first slabs. -/
structure Ok (l : KernelLayout) : Prop where
  core : biosNVideoEnd ≤ l.kernelCoreBase
  bottom : l.kernelCoreBase ≤ l.stackBottom
  stack : l.stackBottom ≤ l.stackTop
  top : l.stackTop < l.kernelCoreTop
  space : l.firstSlabOfRanges + nbBytesPerPage ≤ kvmmTop

variable {l : KernelLayout}

theorem Ok.lt_firstSlab (h : l.Ok) : l.stackTop < l.firstSlabOfCaches := by
  have htop := h.top
  unfold firstSlabOfCaches
  have hpage : nbBytesPerPage = 4096 := rfl
  rw [hpage]
  omega

/-- The calls are for ascending addresses, but for the pages of the kernel behind the stack. -/
theorem Ok.ordered (h : l.Ok) : l.createRanges.Pairwise fun a a' => a.2.2.1 ≤ a'.2.1 ∨
    (a.1 = false ∧ a'.1 = false ∧ a.2.1 = l.stackTop ∧ a'.2.1 = l.firstSlabOfCaches) := by
  have hfirst := h.lt_firstSlab
  obtain ⟨hcore, hbottom, hstack, -, -⟩ := h
  have hpage : nbBytesPerPage = 4096 := rfl
  have hstart : biosNVideoStart = 655360 := rfl
  have hend : biosNVideoEnd = 1048576 := rfl
  rw [hend] at hcore
  simp only [createRanges, firstSlabOfRanges, hpage, hstart, hend, List.pairwise_cons, List.mem_cons,
    List.not_mem_nil, or_false, forall_eq_or_imp, forall_eq, List.Pairwise.nil, and_true, true_and,
    Bool.true_eq_false, false_and, IsEmpty.forall_iff, implies_true, or_true]
  omega

/-- Two free ranges do not touch. -/
theorem Ok.free_ordered (h : l.Ok) :
    l.createRanges.Pairwise fun a a' => a.1 = true → a'.1 = true → a.2.2.1 < a'.2.1 := by
  have hfirst := h.lt_firstSlab
  obtain ⟨hcore, hbottom, hstack, -, -⟩ := h
  have hpage : nbBytesPerPage = 4096 := rfl
  have hstart : biosNVideoStart = 655360 := rfl
  have hend : biosNVideoEnd = 1048576 := rfl
  rw [hend] at hcore
  simp only [createRanges, firstSlabOfRanges, hpage, hstart, hend, List.pairwise_cons, List.mem_cons,
    List.not_mem_nil, or_false, forall_eq_or_imp, forall_eq, List.Pairwise.nil, and_true, true_and,
    Bool.false_eq_true, IsEmpty.forall_iff, implies_true, forall_const]
  omega

theorem Ok.bounds (h : l.Ok) : ∀ a ∈ l.createRanges, kvmmBase ≤ a.2.1 ∧ a.2.2.1 ≤ kvmmTop := by
  have hfirst := h.lt_firstSlab
  obtain ⟨hcore, hbottom, hstack, -, hspace⟩ := h
  have hpage : nbBytesPerPage = 4096 := rfl
  have hstart : biosNVideoStart = 655360 := rfl
  have hend : biosNVideoEnd = 1048576 := rfl
  have hbase : kvmmBase = 16384 := rfl
  have htop : kvmmTop = 1073741824 := rfl
  rw [hend] at hcore
  rw [firstSlabOfRanges, hpage, htop] at hspace
  simp only [createRanges, firstSlabOfRanges, hpage, hstart, hend, hbase, htop, List.mem_cons, List.not_mem_nil,
    or_false, forall_eq_or_imp, forall_eq]
  omega

end KernelLayout

/-! ## The heap after kvmm_setup -/

theorem RangeFor.top_le {a : Bool × Nat × Nat × Option Nat} {r : KvmmRange} (h : RangeFor a r)
    (hlarge : LargeEnough a = true) : r.top ≤ a.2.2.1 ∧ a.2.1 < r.top ∧ 0 < r.nbPages := by
  have hle : nbBytesPerPage ≤ a.2.2.1 - a.2.1 := of_decide_eq_true hlarge
  have hpage : 0 < nbBytesPerPage := by decide
  have hdiv := Nat.div_mul_le_self (a.2.2.1 - a.2.1) nbBytesPerPage
  have hpos : 0 < (a.2.2.1 - a.2.1) / nbBytesPerPage := Nat.div_pos hle hpage
  have hmul := Nat.mul_pos hpos hpage
  unfold KvmmRange.top
  rw [h.base, h.nbPages]
  omega

/-- The ranges that may overlap: the end of the kernel and the first slab of caches. -/
def KernelLayout.slack (l : KernelLayout) (s : Kvmm W) : Slack :=
  ⟨True, fun r => r ∈ s.usedList ∧ (r.base = l.stackTop ∨ r.base = l.firstSlabOfCaches), sizeofKvmmRange⟩

section Ranges

variable {l : KernelLayout} (hl : l.Ok) (h : RangesSetup l.firstSlabOfRanges l.createRanges k)

include h

theorem RangesSetup.of_free {r : KvmmRange} (hr : r ∈ k.freeList) :
    ∃ a ∈ l.createRanges, a.1 = true ∧ LargeEnough a = true ∧ RangeFor a r := by
  obtain ⟨a, ha, hfor⟩ := exists_left_of_forall₂ h.free hr
  obtain ⟨hmem, hp⟩ := List.mem_filter.mp ha
  rw [Bool.and_eq_true] at hp
  exact ⟨a, hmem, hp.1, hp.2, hfor⟩

theorem RangesSetup.of_used {r : KvmmRange} (hr : r ∈ k.usedList) :
    ∃ a ∈ l.createRanges, a.1 = false ∧ LargeEnough a = true ∧ RangeFor a r := by
  obtain ⟨a, ha, hfor⟩ := exists_left_of_forall₂ h.used hr
  obtain ⟨hmem, hp⟩ := List.mem_filter.mp ha
  rw [Bool.and_eq_true, Bool.not_eq_true'] at hp
  exact ⟨a, hmem, hp.1, hp.2, hfor.1⟩

theorem RangesSetup.used_of_mem {a : Bool × Nat × Nat × Option Nat} (ha : a ∈ l.createRanges) (hused : a.1 = false)
    (hlarge : LargeEnough a = true) : ∃ r ∈ k.usedList, RangeFor a r ∧ k.slabOf r.addr = a.2.2.2 :=
  exists_right_of_forall₂ h.used (List.mem_filter.mpr ⟨ha, by simp [hused, hlarge]⟩)

/-- The used range of the first slab of caches, and that of the first slab of ranges. -/
theorem RangesSetup.first_slabs : (∃ r ∈ k.usedList, r.base = l.firstSlabOfCaches ∧ r.nbPages = 1 ∧
      k.slabOf r.addr = some (l.firstSlabOfCaches + nbBytesPerPage - sizeofKslab)) ∧
    ∃ r ∈ k.usedList, r.base = l.firstSlabOfRanges ∧ r.nbPages = 1 ∧
      k.slabOf r.addr = some (l.firstSlabOfRanges + nbBytesPerPage - sizeofKslab) := by
  have hone : ∀ base : Nat, (base + nbBytesPerPage - base) / nbBytesPerPage = 1 := by
    intro base
    rw [Nat.add_sub_cancel_left]
    decide
  have hlarge : ∀ base o, LargeEnough (false, base, base + nbBytesPerPage, o) = true := by
    intro base o
    simp [LargeEnough]
  constructor
  · obtain ⟨r, hr, hfor, hslab⟩ := h.used_of_mem (a := (false, l.firstSlabOfCaches,
      l.firstSlabOfCaches + nbBytesPerPage, some (l.firstSlabOfCaches + nbBytesPerPage - sizeofKslab)))
      (by simp [KernelLayout.createRanges]) rfl (hlarge _ _)
    exact ⟨r, hr, hfor.base, hfor.nbPages.trans (hone _), hslab⟩
  · obtain ⟨r, hr, hfor, hslab⟩ := h.used_of_mem (a := (false, l.firstSlabOfRanges,
      l.firstSlabOfRanges + nbBytesPerPage, some (l.firstSlabOfRanges + nbBytesPerPage - sizeofKslab)))
      (by simp [KernelLayout.createRanges]) rfl (hlarge _ _)
    exact ⟨r, hr, hfor.base, hfor.nbPages.trans (hone _), hslab⟩

include hl

/-- The lists of ranges after `kvmm_setup`. -/
theorem RangesSetup.inv : DelInvWith (l.slack k) k [] [] := by
  have hfirst := hl.lt_firstSlab
  have hpage : nbBytesPerPage = 4096 := rfl
  have hkeys : ∀ slab ∈ k.rangeCache.slabList, slab.addr = l.firstSlabOfRanges + nbBytesPerPage - sizeofKslab ∧
      slab.firstObj = l.firstSlabOfRanges ∧ slab.range = none := by
    intro slab hs
    have := h.keys _ (List.mem_map_of_mem hs)
    rwa [Prod.mk.injEq, Prod.mk.injEq] at this
  -- a range of the one list is apart from one of the other
  have hcross : ∀ f ∈ k.freeList, ∀ u ∈ k.usedList, f.Apart u := by
    intro f hf u hu
    obtain ⟨a, ha, hfree, hlarge, hfor⟩ := h.of_free hf
    obtain ⟨a', ha', hused, hlarge', hfor'⟩ := h.of_used hu
    have hne : a ≠ a' := by
      rintro rfl
      rw [hfree] at hused
      cases hused
    have hpair : l.createRanges.Pairwise fun a a' => (a.1 = true ∨ a'.1 = true) →
        a.2.2.1 ≤ a'.2.1 ∨ a'.2.2.1 ≤ a.2.1 := by
      refine hl.ordered.imp fun {x y} hxy hor => ?_
      rcases hxy with hle | ⟨hx, hy, -⟩
      · exact .inl hle
      · rw [hx, hy] at hor
        simp at hor
    have hsep := @List.Pairwise.forall _ _ _ ⟨fun _ _ hs hor => (hs hor.symm).symm⟩ hpair _ ha _ ha' hne (.inl hfree)
    obtain ⟨htop, -⟩ := hfor.top_le hlarge
    obtain ⟨htop', -⟩ := hfor'.top_le hlarge'
    unfold KvmmRange.Apart
    rw [hfor.base, hfor'.base]
    omega
  have hfree : k.freeList.Pairwise fun r r' => r.top < r'.base := by
    refine pairwise_of_forall₂ h.free (hl.free_ordered.filter _) fun a a' r r' ha ha' hfor hfor' hlt => ?_
    have hp := (List.mem_filter.mp ha).2
    have hp' := (List.mem_filter.mp ha').2
    rw [Bool.and_eq_true] at hp hp'
    obtain ⟨htop, -⟩ := hfor.top_le hp.2
    have := hlt hp.1 hp'.1
    rw [hfor'.base]
    omega
  have hused : k.usedList.Pairwise fun r r' => r.base < r'.base ∧ (l.slack k).Apart r r' := by
    have hin : k.usedList.Pairwise fun r r' => r.base < r'.base ∧ (r.Apart r' ∨ r.base = l.stackTop ∧
        r'.base = l.firstSlabOfCaches) := by
      refine pairwise_of_forall₂ h.used (hl.ordered.filter _) fun a a' r r' ha ha' hfor hfor' hord => ?_
      have hp := (List.mem_filter.mp ha).2
      have hp' := (List.mem_filter.mp ha').2
      rw [Bool.and_eq_true] at hp hp'
      obtain ⟨htop, hlt, -⟩ := hfor.1.top_le hp.2
      rw [hfor.1.base, hfor'.1.base]
      unfold KvmmRange.Apart
      rw [hfor'.1.base]
      rcases hord with hle | ⟨-, -, hbase, hbase'⟩
      · exact ⟨by omega, .inl (.inl (by omega))⟩
      · exact ⟨by omega, .inr ⟨hbase, hbase'⟩⟩
    refine hin.imp_of_mem fun {r r'} hr hr' hrr => ⟨hrr.1, ?_⟩
    exact hrr.2.imp id fun hb => ⟨⟨hr, .inl hb.1⟩, ⟨hr', .inr hb.2⟩⟩
  have hall : k.all [] = k.freeList ++ k.usedList := List.append_nil _
  refine ⟨⟨?_, fun r hr => ?_, fun he => absurd trivial he, hfree.imp fun {r r'} hlt => ?_, hused.imp And.left, ?_, ?_,
    h.cache, fun slab hs => ?_, fun r hr => hr.1, fun r hr slab hs => ?_, ?_⟩, hfree⟩
  · rw [hall]
    refine List.pairwise_append.mpr ⟨hfree.imp fun {r r'} hlt => .inl (.inl (Nat.le_of_lt hlt)), hused.imp And.right,
      fun f hf u hu => .inl (hcross f hf u hu)⟩
  · rw [List.append_nil] at hr
    obtain ⟨a, -, -, hlarge, hfor⟩ := h.of_used hr
    exact (hfor.top_le hlarge).2.2
  · have := KvmmRange.base_le_top r
    omega
  · rw [hall, List.append_nil]
    exact h.nodup
  · rw [hall, List.append_nil]
    exact h.allocated
  · obtain ⟨haddr, hobj, hrange⟩ := hkeys slab hs
    obtain ⟨r, hr, hbase, hpages, hslab⟩ := h.first_slabs.2
    exact ⟨r, hr, hbase.trans hobj.symm, hpages, hslab.trans (congrArg some haddr.symm), .inl hrange⟩
  · obtain ⟨-, hobj, -⟩ := hkeys slab hs
    have hfirst' : l.firstSlabOfRanges = l.firstSlabOfCaches + nbBytesPerPage := rfl
    rcases hr.2 with hbase | hbase
    · omega
    · omega
  · rw [h.size]
    exact Nat.le_refl _

theorem RangesSetup.bounds (x : Nat) (hx : k.Covered [] x) : kvmmBase ≤ x ∧ x < kvmmTop := by
  obtain ⟨r, hr, hcov⟩ := hx
  have harg : ∃ a ∈ l.createRanges, LargeEnough a = true ∧ RangeFor a r := by
    rcases mem_all.mp hr with hfree | hused | hpending
    · obtain ⟨a, ha, -, hlarge, hfor⟩ := h.of_free hfree
      exact ⟨a, ha, hlarge, hfor⟩
    · obtain ⟨a, ha, -, hlarge, hfor⟩ := h.of_used hused
      exact ⟨a, ha, hlarge, hfor⟩
    · cases hpending
  obtain ⟨a, ha, hlarge, hfor⟩ := harg
  obtain ⟨hbase, htop⟩ := hl.bounds a ha
  obtain ⟨htop', -⟩ := hfor.top_le hlarge
  have := hfor.base
  unfold KvmmRange.Covers at hcov
  omega

end Ranges

theorem SlabSetup.keys (h : SlabSetup s held base n) {ca : Nat} (hca : ca ∈ s.cacheList)
    {key : Nat × Nat × PageRange} (hk : key ∈ (s.cache ca).keys) :
    key = (base + nbBytesPerPage - sizeofKslab, base, ⟨base, 1⟩) := by
  have hi := h.good.inv
  have hknown := hi.known ca hca key hk
  have hrange := hi.range ca hca key hk
  rw [h.ranges, List.mem_singleton] at hknown
  obtain ⟨slab, hs, rfl⟩ := mem_keys.mp hk
  dsimp only at hknown hrange
  rw [hknown, PageRange.mk.injEq] at hrange
  have haddr := ((hi.ok ca hca).slabs slab hs).addr (h.on ca hca)
  have hsize : sizeofKslab = 28 := rfl
  have hpage : nbBytesPerPage = 4096 := rfl
  rw [slabBytes, ← hrange.2] at haddr
  rw [hknown, ← hrange.1, Prod.mk.injEq]
  exact ⟨by omega, rfl⟩

/-- **kvmm_setup**: the slabs and the ranges that exist from the start agree. -/
theorem heapInv_kvmmSetup (E : PageMap W) {l : KernelLayout} (hl : l.Ok) (world : W) :
    ∃ h, kvmmSetup E l world = some h ∧ HeapInv (l.slack h.kvmm) h [h.kvmmRangeCache] [] [] ∧ KmallocReady [] h ∧
      89 ≤ (h.slabs.cache h.slabs.cacheOfStructKslabCache).nbFreeObj := by
  obtain ⟨hprep, hne, hkslab⟩ := slabSetup_prepare (S := noRanges) l.firstSlabOfCaches
  unfold kvmmSetup
  rw [createCacheOfRanges_eq]
  generalize kvmmCacheSetupPrepare noRanges l.firstSlabOfCaches = s at hprep hne hkslab
  obtain ⟨a, s', halloc, h, ha, -, hlist, hcaches, hstruct, hother⟩ := hprep.take (S := noRanges)
  rw [halloc]
  dsimp only
  have hk := RangesSetup.createAll (E := E) l.createRanges [] _ (rangesSetup_nil l.firstSlabOfRanges world)
    (show 0 + l.createRanges.length ≤ 200 from by simp [KernelLayout.createRanges])
  rw [List.nil_append] at hk
  generalize l.createRanges.foldl _ _ = k at hk
  have hdel := hk.inv hl
  have hfirst := hl.lt_firstSlab
  have hfixed : ∀ x, (l.slack k).fixed x → x.base ≤ l.firstSlabOfCaches := by
    intro x hx
    rcases hx.2 with hbase | hbase
    · omega
    · exact Nat.le_of_eq hbase
  obtain ⟨r, hr, hbase, hpages, hslab⟩ := hk.first_slabs.1
  have hbacks : Backs (l.slack k) k ⟨l.firstSlabOfCaches, 1⟩ r := by
    refine ⟨⟨hr, fun slab hs he => ?_⟩, hbase, hpages, fun _ x hx => ?_⟩
    · have hkey := hk.keys _ (List.mem_map_of_mem hs)
      rw [Prod.mk.injEq, Prod.mk.injEq] at hkey
      have hnext : l.firstSlabOfRanges = l.firstSlabOfCaches + nbBytesPerPage := rfl
      have hpage : nbBytesPerPage = 4096 := rfl
      omega
    · have := hfixed x hx
      omega
  have hrange : ∀ p ∈ s'.ranges, p = ⟨l.firstSlabOfCaches, 1⟩ := by
    intro p hp
    rwa [h.ranges, List.mem_singleton] at hp
  have hcached := h.good.caches
  rw [hcaches] at hcached
  refine ⟨_, rfl, ⟨h.good.inv, hdel, trivial, ?_, fun x hx => hk.bounds hl x hx, fun p hp => ?_, ?_,
    fun ca hca key hkey => ?_, fun p hp => absurd hp List.not_mem_nil, fun p hp => absurd hp List.not_mem_nil,
    fun p hp => absurd hp List.not_mem_nil, h.minFree, fun p hp => absurd hp List.not_mem_nil,
    fun p hp _ _ _ => ⟨s'.cacheOfStructKslabCache, h.good.caches, ?_⟩⟩,
    ⟨h.good.caches, by rw [hcaches, hstruct]; exact hne, h.cacheSize, ?_, h.objSize, h.cache_allocated,
      by rw [hcaches]; exact ha, .nil⟩, h.count⟩
  · have hcount := hk.count
    have hlen : l.createRanges.length = 9 := rfl
    show 2 ≤ k.rangeCache.nbFreeObj
    omega
  · rw [hrange p hp]
    exact ⟨r, hbacks⟩
  · show (s'.ranges.map (·.base)).Nodup
    rw [h.ranges]
    exact List.nodup_singleton _
  · rw [h.keys hca hkey]
    exact ⟨r, hbacks, hslab⟩
  · -- the cache of caches has its own structure in its slab
    obtain ⟨slab, hs, hslot, -⟩ := h.cache_allocated _ h.good.caches
    have hi := h.good.inv
    have hcov := (hi.covers_iff h.good.caches hs).mpr (hslot.covers (hi.ok _ h.good.caches).shape)
    rwa [hrange p hp, ← hrange _ (hi.range_known h.good.caches hs)]
  · show (s'.cache s'.cacheOfStructKslab).allocObjSize = sizeofKslab
    rw [hstruct, hother _ hne.symm]
    exact hkslab

/-! ## kvmm_cache_create -/

/-- A new cache without slabs, and the others as they were. -/
structure HeapCreated (e : Slack) (rows : List (UInt32 × UInt32)) (held : List Nat) (spare : List PageRange) (h : Heap W)
    (newCache : Nat) (c : KslabCache PageRange) (h' : Heap W) : Prop where
  inv : HeapInv e h' held spare []
  ready : KmallocReady rows h'
  fresh : newCache ∉ h.slabs.cacheList
  cacheList : h'.slabs.cacheList = h.slabs.cacheList ++ [newCache]
  cache : h'.slabs.cache newCache = c
  other : ∀ ca ∈ h.slabs.cacheList, ca ≠ h.slabs.cacheOfStructKslabCache → ca ≠ h.slabs.cacheOfStructKslab →
    h'.slabs.cache ca = h.slabs.cache ca
  kslabCache : h'.slabs.cacheOfStructKslabCache = h.slabs.cacheOfStructKslabCache
  kslab : h'.slabs.cacheOfStructKslab = h.slabs.cacheOfStructKslab
  kvmmRangeCache : h'.kvmmRangeCache = h.kvmmRangeCache
  kmallocCache : h'.kmallocCache = h.kmallocCache
  count : (h'.slabs.cache h'.slabs.cacheOfStructKslabCache).nbFreeObj + 1 =
    (h.slabs.cache h.slabs.cacheOfStructKslabCache).nbFreeObj

/-- **kvmm_cache_create** succeeds while the cache of caches has a free object. -/
theorem heapCacheCreate_spec {e : Slack} {rows : List (UInt32 × UInt32)} {h : Heap W} {spare : List PageRange}
    {objSize pagesPerSlab cacheFlags : UInt32} {c : KslabCache PageRange} (hi : HeapInv e h held spare [])
    (hr : KmallocReady rows h) (hvalid : ValidParams objSize cacheFlags)
    (hinit : initCache PageRange objSize pagesPerSlab 0 cacheFlags = .ok c)
    (hsize : sizeofKslabFreeObj ≤ c.allocObjSize)
    (hfree : 0 < (h.slabs.cache h.slabs.cacheOfStructKslabCache).nbFreeObj) :
    ∃ newCache h', h.kvmmCacheCreate E objSize pagesPerSlab cacheFlags = (some newCache, h') ∧
      HeapCreated e rows held spare h newCache c h' := by
  obtain ⟨hok, hempty, -, hmin, -⟩ := initCache_ok hvalid hinit
  obtain ⟨hpost, hcount⟩ := heapCacheAlloc_spec (E := E) hi hr.caches
  obtain ⟨hsome, hcount⟩ := hcount hfree
  unfold Heap.kvmmCacheCreate
  generalize h.kvmmCacheAlloc E 1 h.slabs.cacheOfStructKslabCache = res at hpost hsome hcount
  obtain ⟨o, h₁⟩ := res
  obtain ⟨newCache, rfl⟩ := Option.ne_none_iff_exists'.mp hsome
  dsimp only at hcount ⊢
  rw [hinit]
  have ht : HeapTouches (h.slabs.Scope h.slabs.cacheOfStructKslabCache) h h₁ := hpost.touches
  have hinv : HeapInv e h₁ (newCache :: held) spare [] := (hpost.object newCache rfl).1
  have hlist := ht.slabs.cacheList
  have hcaches := ht.slabs.kslabCache
  have hnew : newCache ∉ h₁.slabs.cacheList := fun hm => hinv.slabs.cache_held newCache hm List.mem_cons_self
  have hself : (h₁.slabs.setCache newCache c).cache newCache = c := Function.update_self ..
  have hother : ∀ ca ∈ h₁.slabs.cacheList, (h₁.slabs.setCache newCache c).cache ca = h₁.slabs.cache ca :=
    fun ca hca => Function.update_of_ne (fun he : ca = newCache => hnew (he ▸ hca)) ..
  have hsplit : ∀ {P : Nat → Prop}, P newCache → (∀ ca ∈ h₁.slabs.cacheList, P ca) →
      ∀ ca ∈ h₁.slabs.cacheList ++ [newCache], P ca := by
    intro P hnew hold ca hca
    rw [List.mem_append, List.mem_singleton] at hca
    cases hca with
    | inl hin => exact hold ca hin
    | inr he => exact he ▸ hnew
  have hallocated : ∀ b, (h.slabs.cache h.slabs.cacheOfStructKslabCache).Allocated b →
      (h₁.slabs.cache h.slabs.cacheOfStructKslabCache).Allocated b := fun b hb => (hpost.allocated b).mpr (.inl hb)
  have hobjSize : ∀ ca, (h₁.slabs.cache ca).allocObjSize = (h.slabs.cache ca).allocObjSize :=
    fun ca => (ht.slabs.params ca).allocObjSize
  have hcc : h.slabs.cacheOfStructKslabCache ∈ h₁.slabs.cacheList := hlist ▸ hr.caches
  have hkslab : h₁.slabs.cacheOfStructKslab ∈ h₁.slabs.cacheList := hinv.slabs.kslab
  have hin : ∀ b, (h₁.slabs.cache h.slabs.cacheOfStructKslabCache).Allocated b →
      ((h₁.slabs.setCache newCache c).cache h₁.slabs.cacheOfStructKslabCache).Allocated b := by
    intro b hb
    rwa [hcaches, hother _ hcc]
  refine ⟨newCache, _, rfl, ⟨?_, ?_, fun hm => hnew (hlist ▸ hm), congrArg (· ++ [newCache]) hlist, hself, ?_,
    hcaches, ht.slabs.kslab, ht.kvmmRangeCache, ht.kmallocCache, ?_⟩⟩
  · refine hinv.withSlabs (hinv.slabs.create hok hempty) rfl (fun ca hca => List.mem_append_left _ hca)
      (hsplit (fun key hk => ?_) fun ca hca key hk => ?_) (hsplit ?_ fun ca hca => ?_)
      (fun p hp hl => ⟨hp, hl⟩) (fun p hp => absurd hp List.not_mem_nil) (fun p hp => absurd hp List.not_mem_nil)
      hinv.fixed_spare
    · change key ∈ ((h₁.slabs.setCache newCache c).cache newCache).keys at hk
      rw [hself, keys, hempty] at hk
      cases hk
    · change key ∈ ((h₁.slabs.setCache newCache c).cache ca).keys at hk
      rw [hother ca hca] at hk
      exact ⟨hca, hk⟩
    · exact (congrArg KslabCache.minFreeObj hself).trans hmin
    · exact (congrArg KslabCache.minFreeObj (hother ca hca)).trans (hinv.minFree ca hca)
  · refine ⟨?_, ?_, ?_, ?_, ?_, ?_, ?_, ?_⟩
    · exact List.mem_append_left _ (hcaches ▸ hcc)
    · show h₁.slabs.cacheOfStructKslabCache ≠ h₁.slabs.cacheOfStructKslab
      rw [hcaches, ht.slabs.kslab]
      exact hr.ne
    · show ((h₁.slabs.setCache newCache c).cache h₁.slabs.cacheOfStructKslabCache).allocObjSize = sizeofKslabCache
      rw [hcaches, hother _ hcc, hobjSize]
      exact hr.cacheSize
    · show ((h₁.slabs.setCache newCache c).cache h₁.slabs.cacheOfStructKslab).allocObjSize = sizeofKslab
      rw [hother _ hkslab, ht.slabs.kslab, hobjSize]
      exact hr.kslabSize
    · refine hsplit ?_ fun ca hca => ?_
      · show sizeofKslabFreeObj ≤ ((h₁.slabs.setCache newCache c).cache newCache).allocObjSize
        rw [hself]
        exact hsize
      · show sizeofKslabFreeObj ≤ ((h₁.slabs.setCache newCache c).cache ca).allocObjSize
        rw [hother ca hca, hobjSize]
        exact hr.objSize ca (hlist ▸ hca)
    · refine hsplit (hin newCache ((hpost.allocated newCache).mpr (.inr rfl))) fun ca hca => hin ca ?_
      exact hallocated ca (hr.cache_allocated ca (hlist ▸ hca))
    · refine hin h₁.kvmmRangeCache ?_
      rw [ht.kvmmRangeCache]
      exact hallocated _ hr.range_allocated
    · show List.Forall₂ _ rows h₁.kmallocCache
      rw [ht.kmallocCache]
      refine forall₂_imp_of_mem hr.table fun x ca hca hx => ?_
      have hca' : ca ∈ h₁.slabs.cacheList := hlist ▸ hx.1
      refine ⟨List.mem_append_left _ hca', ?_, hcaches.symm ▸ hx.2.2.1, ht.slabs.kslab.symm ▸ hx.2.2.2⟩
      exact (congrArg KslabCache.allocObjSize (hother ca hca')).trans ((hobjSize ca).trans hx.2.1)
  · intro ca hca hne hne'
    exact (hother ca (hlist ▸ hca)).trans (ht.slabs.other ca fun hs => hs.elim hne fun hs => hne' hs.2)
  · show ((h₁.slabs.setCache newCache c).cache h₁.slabs.cacheOfStructKslabCache).nbFreeObj + 1 = _
    rw [hcaches, hother _ hcc, hcount]

/-! ## The heap after kmalloc_setup -/

/-- The caches of `kmalloc` for the rows are there, and there are `n` free objects of the cache of caches. -/
structure KmallocSetup (e : Slack) (rows : List (UInt32 × UInt32)) (n : Nat) (h : Heap W) : Prop where
  inv : HeapInv e h [h.kvmmRangeCache] [] []
  ready : KmallocReady rows h
  count : n ≤ (h.slabs.cache h.slabs.cacheOfStructKslabCache).nbFreeObj

theorem HeapInv.withKmallocCache {e : Slack} {h : Heap W} {spare limbo : List PageRange}
    (hi : HeapInv e h held spare limbo) (caches : List Nat) :
    HeapInv e { h with kmallocCache := caches } held spare limbo :=
  ⟨hi.slabs, hi.ranges, hi.empty, hi.low, hi.bounds, hi.known, hi.bases, hi.slab_tied, hi.spare_tied, hi.limbo_spare,
    hi.limbo_tied, hi.minFree, hi.fixed_spare, hi.fixed_slab⟩

/-- `init_cache` accepts every row of the table. -/
theorem initCache_row : ∀ row ∈ Heap.kmallocTable, ValidParams row.1 kslabCreateMap ∧
    sizeofKslabFreeObj ≤ row.1.toNat ∧
    ∃ c, initCache PageRange row.1 row.2 0 kslabCreateMap = .ok c ∧ c.allocObjSize = row.1.toNat := by
  have hall : (Heap.kmallocTable.all fun row => decide (ValidParams row.1 kslabCreateMap ∧
      sizeofKslabFreeObj ≤ row.1.toNat ∧
      ((initCache PageRange row.1 row.2 0 kslabCreateMap).toOption.map KslabCache.allocObjSize) =
        some row.1.toNat)) = true := by
    decide +kernel
  intro row hrow
  obtain ⟨hvalid, hsize, hinit⟩ := of_decide_eq_true (List.all_eq_true.mp hall row hrow)
  refine ⟨hvalid, hsize, ?_⟩
  cases hc : initCache PageRange row.1 row.2 0 kslabCreateMap with
  | error code =>
    rw [hc] at hinit
    cases hinit
  | ok c =>
    rw [hc] at hinit
    exact ⟨c, rfl, Option.some.inj hinit⟩

/-- One cache of the table. -/
theorem KmallocSetup.step {e : Slack} {rows : List (UInt32 × UInt32)} {h : Heap W} {row : UInt32 × UInt32}
    (hs : KmallocSetup e rows (n + 1) h) (hrow : row ∈ Heap.kmallocTable) :
    KmallocSetup e (rows ++ [row]) n (h.kmallocSetupStep E row) := by
  obtain ⟨hvalid, hsize, c, hinit, hobj⟩ := initCache_row row hrow
  have hfree := Nat.lt_of_lt_of_le (Nat.succ_pos n) hs.count
  obtain ⟨newCache, h', heq, hnew⟩ := heapCacheCreate_spec (E := E) hs.inv hs.ready hvalid hinit (hobj ▸ hsize) hfree
  unfold Heap.kmallocSetupStep
  rw [heq]
  have hr := hnew.ready
  have hcaches : h.slabs.cacheOfStructKslabCache ∈ h.slabs.cacheList := hs.ready.caches
  have hkslab : h.slabs.cacheOfStructKslab ∈ h.slabs.cacheList := hs.inv.slabs.kslab
  refine ⟨?_, ⟨hr.caches, hr.ne, hr.cacheSize, hr.kslabSize, hr.objSize, hr.cache_allocated, hr.range_allocated, ?_⟩, ?_⟩
  · have hinv := hnew.inv.withKmallocCache (h'.kmallocCache ++ [newCache])
    rw [← hnew.kvmmRangeCache] at hinv
    exact hinv
  · refine forall₂_append hr.table (.cons ⟨?_, ?_, ?_, ?_⟩ .nil)
    · show newCache ∈ h'.slabs.cacheList
      rw [hnew.cacheList]
      exact List.mem_append_right _ (List.mem_singleton_self _)
    · exact (congrArg KslabCache.allocObjSize hnew.cache).trans hobj
    · intro he
      have he' : newCache = h.slabs.cacheOfStructKslabCache := he.trans hnew.kslabCache
      exact hnew.fresh (he' ▸ hcaches)
    · intro he
      have he' : newCache = h.slabs.cacheOfStructKslab := he.trans hnew.kslab
      exact hnew.fresh (he' ▸ hkslab)
  · have hcount := hnew.count
    have := hs.count
    show n ≤ (h'.slabs.cache h'.slabs.cacheOfStructKslabCache).nbFreeObj
    omega

theorem KmallocSetup.steps {e : Slack} : ∀ (rest rows : List (UInt32 × UInt32)) (h : Heap W),
    (∀ row ∈ rest, row ∈ Heap.kmallocTable) → KmallocSetup e rows (rest.length + n) h →
      KmallocSetup e (rows ++ rest) n (rest.foldl (Heap.kmallocSetupStep E) h) := by
  intro rest
  induction rest with
  | nil =>
    intro rows h _ hs
    rw [List.length_nil, Nat.zero_add] at hs
    rwa [List.append_nil]
  | cons row rest ih =>
    intro rows h hrest hs
    rw [List.length_cons, Nat.add_right_comm] at hs
    have := ih (rows ++ [row]) _ (fun r hr => hrest r (List.mem_cons_of_mem _ hr))
      (hs.step (E := E) (hrest row List.mem_cons_self))
    rwa [List.append_assoc, List.singleton_append] at this

/-- The state before the first call of `kmalloc`. -/
def kmallocStart (E : PageMap W) (l : KernelLayout) (world : W) : Option (KmallocWorld W) :=
  (kvmmSetup E l world).map fun h => ⟨h.kmallocSetup E, []⟩

/-- All caches of the table are created. -/
theorem kmallocSetup_done (E : PageMap W) {l : KernelLayout} (hl : l.Ok) (world : W) :
    ∃ h, kvmmSetup E l world = some h ∧
      KmallocSetup (l.slack h.kvmm) Heap.kmallocTable 78 (h.kmallocSetup E) := by
  obtain ⟨h, heq, hinv, hready, hcount⟩ := heapInv_kvmmSetup E hl world
  have hsetup : KmallocSetup (l.slack h.kvmm) [] (Heap.kmallocTable.length + 78) h := ⟨hinv, hready, hcount⟩
  have hdone := KmallocSetup.steps (E := E) Heap.kmallocTable [] h (fun _ hr => hr) hsetup
  rw [List.nil_append] at hdone
  exact ⟨h, heq, hdone⟩

theorem kmallocGood_start (E : PageMap W) {l : KernelLayout} (hl : l.Ok) (world : W) :
    ∃ w, kmallocStart E l world = some w ∧ ∃ e, KmallocGood e w := by
  obtain ⟨h, heq, hdone⟩ := kmallocSetup_done E hl world
  unfold kmallocStart
  rw [heq]
  exact ⟨_, rfl, _, _, _, hdone.inv, hdone.ready, rfl, List.nodup_nil, fun b hb => absurd hb List.not_mem_nil⟩

/-- **Runs of kmalloc and kfree**, from the start of the kernel: every block is large enough and apart from all the
others and the structures of the allocators, and `kfree` releases it and nothing else. -/
theorem kmalloc_runs_safe (E : PageMap W) (l : KernelLayout) (hl : l.Ok) (world : W) :
    ∃ w, kmallocStart E l world = some w ∧
      ∀ ops, Guarded (kmallocStep E) KmallocGuard w ops → KmallocSafe E (run (kmallocStep E) w ops) := by
  obtain ⟨w, heq, e, hgood⟩ := kmallocGood_start E hl world
  refine ⟨w, heq, fun ops hops => ?_⟩
  have hrun := @invariant_run _ _ _ _ (KmallocGood e) (fun _ _ hw hg => kmallocGood_step hw hg) ops w hgood hops
  exact hrun.safe E

/-- An object, pages, a size that wraps, and the object is freed. -/
theorem kmalloc_three_sizes : ∃ w, kmallocStart alwaysMaps ⟨0x200000, 0x240000, 0x210000, 0x214000⟩ () = some w ∧
    KmallocSafe alwaysMaps (run (kmallocStep alwaysMaps) w
      [.kmalloc 100, .kmalloc 20000, .kmalloc 0xffffffff, .kfree 0x4000]) := by
  obtain ⟨w, heq, hsafe⟩ := kmalloc_runs_safe alwaysMaps ⟨0x200000, 0x240000, 0x210000, 0x214000⟩
    ⟨by decide, by decide, by decide, by decide, by decide⟩ ()
  have hlive : ((kmallocStart alwaysMaps ⟨0x200000, 0x240000, 0x210000, 0x214000⟩ ()).all fun w =>
      decide (KmallocGuard (run (kmallocStep alwaysMaps) w [.kmalloc 100, .kmalloc 20000, .kmalloc 0xffffffff])
        (.kfree 0x4000))) = true := by
    decide +kernel
  rw [heq, Option.all_some, decide_eq_true_eq] at hlive
  exact ⟨w, heq, hsafe _ ⟨trivial, trivial, trivial, hlive, trivial⟩⟩

end Desiros.Mem
