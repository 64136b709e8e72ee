import Desiros.Library.Nesting
import Desiros.Mem.KmallocSetup

/-!
# The recursion of the slab allocator

`kvmm_cache_alloc` grows a cache with `cache_grow`, which needs a range from `kvmm_new_range`, which needs a structure
from the range cache, which may have to grow. `Calls` is the relation between a call and the calls it makes, each with
the state it is made in. The range cache has two free objects between two calls, so the call inside that makes it grow
finds the last one, and a cache whose slab structures are on the slab needs no structure: calls nest nine deep at most.
-/

namespace Desiros.Mem

open Desiros.Library KslabCache SlabSystem Kvmm

variable {W : Type}

/-! ## Which call makes which -/

/-- A call of the mutual recursion, with the state it is made in. Those for the range cache are apart. -/
inductive AllocCall (W : Type)
  | cacheAlloc (h : Heap W) (ca : Nat)
  | cacheGrow (h : Heap W) (ca : Nat)
  | newRange (s : Kvmm W) (nbPages : Nat) (map : Bool)
  | rangeCacheAlloc (s : Kvmm W)
  | rangeCacheGrow (s : Kvmm W)

/-- `kvmm_cache_alloc` gets over its first test with the state `h'`, where the cache did not have to grow or did. -/
def Heap.Supplied (E : PageMap W) (h : Heap W) (ca : Nat) (h' : Heap W) : Prop :=
  if (h.slabs.cache ca).needsSlab then
    h.cacheGrow (fun h => h.kvmmCacheAlloc E 0 h.slabs.cacheOfStructKslab) E ca = (true, h')
  else h' = h

/-- The same for the range cache. -/
def Kvmm.Supplied (E : PageMap W) (s s' : Kvmm W) : Prop :=
  if s.rangeCache.needsSlab then Kvmm.cacheGrow (kvmmNewRange E 1) s = (true, s') else s' = s

/-- A call makes another one. -/
inductive Calls (E : PageMap W) : AllocCall W → AllocCall W → Prop
  | cacheAlloc_needsSlab {h ca} (hneeds : (h.slabs.cache ca).needsSlab = true) :
    Calls E (.cacheAlloc h ca) (.cacheGrow h ca)
  | cacheAlloc_minimum {h h' ca obj c} (hsupplied : Heap.Supplied E h ca h')
      (htake : cacheTakeObject (h'.slabs.cache ca) = some (obj, c))
      (hmin : c.minFreeObj > 0 ∧ c.nbFreeObj = c.minFreeObj - 1) :
    Calls E (.cacheAlloc h ca) (.cacheGrow { h' with slabs := h'.slabs.setCache ca c } ca)
  | cacheGrow_newRange {h ca} :
    Calls E (.cacheGrow h ca) (.newRange h.kvmm (h.slabs.cache ca).nbPagesPerSlab
      ((h.slabs.cache ca).flags &&& (kslabCreateMap ||| kslabCreateZero) != 0))
  | cacheGrow_struct {h h' ca range}
      (hrange : h.newRange E (h.slabs.cache ca).nbPagesPerSlab
        ((h.slabs.cache ca).flags &&& (kslabCreateMap ||| kslabCreateZero) != 0) = (some range, h'))
      (hoff : (h'.slabs.cache ca).onSlab = false) :
    Calls E (.cacheGrow h ca) (.cacheAlloc h' h'.slabs.cacheOfStructKslab)
  | newRange_struct {s nbPages map freeRange} (hpages : nbPages ≠ 0)
      (hfind : (s.freeList.find? fun r => r.nbPages ≥ nbPages) = some freeRange) (hne : freeRange.nbPages ≠ nbPages) :
    Calls E (.newRange s nbPages map) (.rangeCacheAlloc s)
  | rangeCacheAlloc_needsSlab {s} (hneeds : s.rangeCache.needsSlab = true) :
    Calls E (.rangeCacheAlloc s) (.rangeCacheGrow s)
  | rangeCacheAlloc_minimum {s s' obj c} (hsupplied : Kvmm.Supplied E s s')
      (htake : cacheTakeObject s'.rangeCache = some (obj, c))
      (hmin : c.minFreeObj > 0 ∧ c.nbFreeObj = c.minFreeObj - 1) :
    Calls E (.rangeCacheAlloc s) (.rangeCacheGrow { s' with rangeCache := c })
  | rangeCacheGrow_newRange {s} :
    Calls E (.rangeCacheGrow s) (.newRange s s.rangeCache.nbPagesPerSlab
      (s.rangeCache.flags &&& (kslabCreateMap ||| kslabCreateZero) != 0))

/-! ## The range cache -/

section RangeCache

variable {e : Slack} {s : Kvmm W} {held : List Nat} {E : PageMap W} {n : Nat}

theorem depth_newRange (h : DepthAtMost (Calls E) n (.rangeCacheAlloc s)) (k : Nat) (map : Bool) :
    DepthAtMost (Calls E) (n + 1) (.newRange s k map) := by
  intro call hcall
  cases hcall with
  | newRange_struct => exact h

theorem depth_rangeCacheGrow
    (h : ∀ k map, DepthAtMost (Calls E) n (.newRange s k map)) : DepthAtMost (Calls E) (n + 1) (.rangeCacheGrow s) := by
  intro call hcall
  cases hcall with
  | rangeCacheGrow_newRange => exact h _ _

/-- A range cache with a free object takes it at once, and may then be at its minimum. -/
theorem calls_rangeCacheAlloc (h : DelInvWith e s held []) (hpos : 0 < s.rangeCache.nbFreeObj) {call : AllocCall W}
    (hcall : Calls E (.rangeCacheAlloc s) call) : ∃ obj c, call = .rangeCacheGrow { s with rangeCache := c } ∧
      DelInvWith e { s with rangeCache := c } (obj :: held) [] ∧ c.nbFreeObj = 1 ∧ s.rangeCache.nbFreeObj = 2 := by
  have hneeds := h.inv.cache.ok.not_needsSlab hpos
  cases hcall with
  | rangeCacheAlloc_needsSlab hn =>
    rw [hneeds] at hn
    cases hn
  | rangeCacheAlloc_minimum hsupplied htake hmin =>
    rw [Kvmm.Supplied, hneeds, if_neg Bool.false_ne_true] at hsupplied
    subst hsupplied
    obtain ⟨-, hparams, -, hcount, -⟩ := h.inv.cache.ok.take htake
    have := hparams.minFreeObj.trans h.inv.cache.minFree
    exact ⟨_, _, rfl, ⟨h.inv.take htake, h.gaps⟩, by omega, by omega⟩

/-- The call that makes the range cache grow leaves one free object, which the call inside takes. -/
theorem depth_newRange_one (h : DelInvWith e s held []) (hone : s.rangeCache.nbFreeObj = 1) (k : Nat) (map : Bool) :
    DepthAtMost (Calls E) 1 (.newRange s k map) := by
  apply depth_newRange
  intro call hcall
  obtain ⟨-, -, -, -, -, htwo⟩ := calls_rangeCacheAlloc h (by omega) hcall
  omega

theorem depth_rangeCacheAlloc (h : DelInvWith e s held []) (hlow : 2 ≤ s.rangeCache.nbFreeObj) :
    DepthAtMost (Calls E) 3 (.rangeCacheAlloc s) := by
  intro call hcall
  obtain ⟨obj, c, rfl, hinv, hone, -⟩ := calls_rangeCacheAlloc h (by omega) hcall
  exact depth_rangeCacheGrow fun k map => depth_newRange_one hinv hone k map

end RangeCache

/-! ## The other caches -/

section Caches

variable {e : Slack} {h h' : Heap W} {held : List Nat} {spare : List PageRange} {ca : Nat} {E : PageMap W} {n : Nat}

theorem HeapInv.depth_newRange (hi : HeapInv e h held spare []) (k : Nat) (map : Bool) :
    DepthAtMost (Calls E) 4 (.newRange h.kvmm k map) :=
  Mem.depth_newRange (depth_rangeCacheAlloc hi.ranges hi.low) k map

/-- `cache_grow` asks for a range, and for a structure only if that is not on the slab. -/
theorem HeapInv.depth_cacheGrow (hi : HeapInv e h held spare []) (hn : 4 ≤ n)
    (hstruct : (h.slabs.cache ca).onSlab = false → ∀ h' held' spare', HeapInv e h' held' spare' [] →
      DepthAtMost (Calls E) n (.cacheAlloc h' h'.slabs.cacheOfStructKslab)) :
    DepthAtMost (Calls E) (n + 1) (.cacheGrow h ca) := by
  intro call hcall
  cases hcall with
  | cacheGrow_newRange => exact (hi.depth_newRange _ _).mono hn
  | @cacheGrow_struct _ h₁ _ range hrange hoff =>
    have hnew := hi.newRange (E := E) (h.slabs.cache ca).nbPagesPerSlab
      ((h.slabs.cache ca).flags &&& (kslabCreateMap ||| kslabCreateZero) != 0)
    rw [hrange] at hnew
    have hsame : h₁.slabs.cache ca = h.slabs.cache ca := (hnew.touches fun _ => False).slabs.other ca id
    exact hstruct (hsame ▸ hoff) h₁ _ _ (hnew.range range rfl).2.1

/-- No cache but that of the ranges has a minimum, so `kvmm_cache_alloc` grows it at most at the start. -/
theorem HeapInv.depth_cacheAlloc (hi : HeapInv e h held spare []) (hca : ca ∈ h.slabs.cacheList)
    (hgrow : DepthAtMost (Calls E) n (.cacheGrow h ca)) : DepthAtMost (Calls E) (n + 1) (.cacheAlloc h ca) := by
  intro call hcall
  cases hcall with
  | cacheAlloc_needsSlab => exact hgrow
  | @cacheAlloc_minimum _ h₁ _ obj c hsupplied htake hmin =>
    have hi₁ : HeapInv e h₁ held spare [] ∧ ca ∈ h₁.slabs.cacheList := by
      unfold Heap.Supplied at hsupplied
      split at hsupplied
      · have hpost := heapGrow_spec (E := E) hi hca fun _ => allocatesHeapStruct_kvmmCacheAlloc (e := e) (E := E)
        rw [hsupplied] at hpost
        have hlist : h₁.slabs.cacheList = h.slabs.cacheList := hpost.touches.slabs.cacheList
        exact ⟨hpost.inv, hlist ▸ hca⟩
      · rw [hsupplied]
        exact ⟨hi, hca⟩
    obtain ⟨-, hparams, -⟩ := (hi₁.1.slabs.ok ca hi₁.2).take htake
    have := hparams.minFreeObj.trans (hi₁.1.minFree ca hi₁.2)
    omega

theorem HeapInv.depth_structAlloc (hi : HeapInv e h held spare []) :
    DepthAtMost (Calls E) 6 (.cacheAlloc h h.slabs.cacheOfStructKslab) := by
  apply hi.depth_cacheAlloc hi.slabs.kslab
  apply hi.depth_cacheGrow (Nat.le_refl 4)
  intro hoff
  rw [hi.slabs.kslab_on] at hoff
  cases hoff

theorem HeapInv.depth_alloc (hi : HeapInv e h held spare []) (hca : ca ∈ h.slabs.cacheList) :
    DepthAtMost (Calls E) 8 (.cacheAlloc h ca) := by
  apply hi.depth_cacheAlloc hca
  apply hi.depth_cacheGrow (by omega)
  exact fun _ h' held' spare' hi' => hi'.depth_structAlloc

end Caches

/-! ## Runs -/

/-- The heap, and the objects and ranges the callers hold. -/
structure HeapWorld (W : Type) where
  heap : Heap W
  objs : List Nat
  ranges : List KvmmRange

inductive HeapOp where
  | cacheAlloc (ca : Nat)
  | cacheFree (vaddr : Nat)
  | newRange (nbPages : Nat) (map : Bool)
  | delRange (range : KvmmRange)

def heapStep (E : PageMap W) (w : HeapWorld W) : HeapOp → HeapWorld W
  | .cacheAlloc ca =>
    match w.heap.kvmmCacheAlloc E 1 ca with
    | (none, h) => { w with heap := h }
    | (some a, h) => ⟨h, a :: w.objs, w.ranges⟩
  | .cacheFree vaddr => ⟨(w.heap.kvmmCacheFree E 1 vaddr).2, w.objs.erase vaddr, w.ranges⟩
  | .newRange nbPages map =>
    match w.heap.newRange E nbPages map with
    | (none, h) => { w with heap := h }
    | (some range, h) => ⟨h, w.objs, range :: w.ranges⟩
  | .delRange range => ⟨w.heap.delRange E range, w.objs, w.ranges.erase range⟩

/-- Callers name caches that exist, and give back what they hold. -/
def HeapGuard (w : HeapWorld W) : HeapOp → Prop
  | .cacheAlloc ca => ca ∈ w.heap.slabs.cacheList
  | .cacheFree vaddr => vaddr ∈ w.objs
  | .newRange _ _ => True
  | .delRange range => range ∈ w.ranges

instance (w : HeapWorld W) (op : HeapOp) : Decidable (HeapGuard w op) := by
  unfold HeapGuard
  cases op <;> infer_instance

/-- The pages of a range. -/
def KvmmRange.pages (r : KvmmRange) : PageRange := ⟨r.base, r.nbPages⟩

structure HeapGood (e : Slack) (w : HeapWorld W) : Prop where
  inv : HeapInv e w.heap (w.heap.kvmmRangeCache :: w.objs) (w.ranges.map KvmmRange.pages) []
  backs : ∀ r ∈ w.ranges, Backs e w.heap.kvmm r.pages r

section Step

variable {e : Slack} {w : HeapWorld W} {E : PageMap W} {r x : KvmmRange}

/-- The ranges the callers hold are no slab's. -/
theorem HeapGood.deletable (hw : HeapGood e w) (hr : r ∈ w.ranges) : Deletable w.heap.kvmm r :=
  ⟨(hw.backs r hr).foreign.1,
    (hw.inv.spare_tied _ (List.mem_map_of_mem hr) List.not_mem_nil).slabOf hw.inv (hw.backs r hr)⟩

theorem HeapGood.base_ne (hw : HeapGood e w) (hr : r ∈ w.ranges) (hx : x ∈ w.ranges.erase r) : x.base ≠ r.base := by
  have hperm := (List.perm_cons_erase hr).map KvmmRange.pages
  have hpair := (hperm.pairwise_iff fun hap => PageRange.Apart.symm hap).mp hw.inv.slabs.spare_pairwise
  have hap := (List.pairwise_cons.mp hpair).1 x.pages (List.mem_map_of_mem hx)
  have hxpos := hw.inv.slabs.spare_pos x.pages (List.mem_map_of_mem (List.mem_of_mem_erase hx))
  exact (hap.base_ne (hw.inv.slabs.spare_pos r.pages (List.mem_map_of_mem hr)) hxpos).symm

/-- One call keeps the invariant. -/
theorem heapGood_step {op : HeapOp} (hw : HeapGood e w) (hg : HeapGuard w op) : HeapGood e (heapStep E w op) := by
  cases op with
  | cacheAlloc ca =>
    obtain ⟨hpost, -⟩ := heapCacheAlloc_spec (E := E) hw.inv hg
    unfold heapStep
    dsimp only
    generalize w.heap.kvmmCacheAlloc E 1 ca = res at hpost
    obtain ⟨o, h⟩ := res
    have hsame : h.kvmmRangeCache = w.heap.kvmmRangeCache := hpost.touches.kvmmRangeCache
    have hbacks : ∀ r ∈ w.ranges, Backs e h.kvmm r.pages r :=
      fun r hr => hpost.keeps _ (List.mem_map_of_mem hr) r (hw.backs r hr)
    cases o with
    | none =>
      refine ⟨?_, hbacks⟩
      dsimp only
      rw [hsame]
      exact hpost.null rfl
    | some a =>
      refine ⟨?_, hbacks⟩
      dsimp only
      rw [hsame]
      exact (hpost.object a rfl).1.perm (List.Perm.swap _ _ _) (List.Perm.refl _)
  | cacheFree vaddr =>
    have hperm : (w.heap.kvmmRangeCache :: w.objs).Perm (vaddr :: w.heap.kvmmRangeCache :: w.objs.erase vaddr) :=
      ((List.perm_cons_erase hg).cons _).trans (List.Perm.swap _ _ _)
    have hi := hw.inv.perm hperm (List.Perm.refl _)
    obtain ⟨ca, hca, ha⟩ := hi.slabs.held_live vaddr List.mem_cons_self
    have hpost := heapCacheFree_spec (E := E) hi hca ha
    refine ⟨?_, fun r hr => ?_⟩
    · show HeapInv e _ ((w.heap.kvmmCacheFree E 1 vaddr).2.kvmmRangeCache :: _) _ []
      rw [hpost.touches.kvmmRangeCache]
      exact hpost.inv
    · have hdel := (hpost.deletable r).mpr (hw.deletable hr)
      have hb := hw.backs r hr
      exact ⟨hdel.foreign hpost.inv.ranges.inv, hb.base, hb.nbPages, hb.last⟩
  | newRange nbPages map =>
    have hnew := hw.inv.newRange (E := E) nbPages map
    unfold heapStep
    dsimp only
    generalize w.heap.newRange E nbPages map = res at hnew
    obtain ⟨o, h⟩ := res
    have hsame : h.kvmmRangeCache = w.heap.kvmmRangeCache := (hnew.touches fun _ => False).kvmmRangeCache
    have hbacks : ∀ r ∈ w.ranges, Backs e h.kvmm r.pages r := fun r hr => hnew.keeps _ r (hw.backs r hr)
    cases o with
    | none =>
      refine ⟨?_, hbacks⟩
      dsimp only
      rw [hsame]
      exact hnew.null rfl
    | some r =>
      obtain ⟨rfl, hinv, hb⟩ := hnew.range r rfl
      refine ⟨?_, fun x hx => ?_⟩
      · dsimp only
        rw [hsame]
        exact hinv
      · cases List.mem_cons.mp hx with
        | inl he =>
          subst he
          exact hb
        | inr hin => exact hbacks x hin
  | delRange range =>
    have hi := hw.inv.perm (List.Perm.refl _) ((List.perm_cons_erase hg).map KvmmRange.pages)
    obtain ⟨hinv, hkeeps, -⟩ := hi.delRange (E := E) List.not_mem_nil (hw.backs range hg)
    exact ⟨hinv, fun x hx => hkeeps _ x (hw.base_ne hg hx) (hw.backs x (List.mem_of_mem_erase hx))⟩

end Step

/-- Between two calls the range cache has its reserve, and no call nests deeper than nine calls, wherever the recursion
is entered. -/
structure RecursionBounded (E : PageMap W) (h : Heap W) : Prop where
  minFree : h.kvmm.rangeCache.minFreeObj = 2
  reserve : h.kvmm.rangeCache.minFreeObj ≤ h.kvmm.rangeCache.nbFreeObj
  cacheAlloc : ∀ ca ∈ h.slabs.cacheList, ∀ calls, (AllocCall.cacheAlloc h ca :: calls).IsChain (Calls E) →
    calls.length ≤ 8
  rangeCacheAlloc : ∀ calls, (AllocCall.rangeCacheAlloc h.kvmm :: calls).IsChain (Calls E) → calls.length ≤ 8
  newRange : ∀ nbPages map calls, (AllocCall.newRange h.kvmm nbPages map :: calls).IsChain (Calls E) →
    calls.length ≤ 8

theorem HeapGood.bounded {e : Slack} {w : HeapWorld W} (hw : HeapGood e w) (E : PageMap W) :
    RecursionBounded E w.heap where
  minFree := hw.inv.ranges.inv.cache.minFree
  reserve := by
    rw [hw.inv.ranges.inv.cache.minFree]
    exact hw.inv.low
  cacheAlloc ca hca calls := (hw.inv.depth_alloc hca).length_le
  rangeCacheAlloc calls := ((depth_rangeCacheAlloc hw.inv.ranges hw.inv.low).mono (by omega)).length_le
  newRange nbPages map calls := ((hw.inv.depth_newRange nbPages map).mono (by omega)).length_le

end Desiros.Mem
