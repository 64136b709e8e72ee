import Desiros.Mem.Slab
import Mathlib.Logic.Function.Basic

/-!
# The slab allocator (`mem/kvmm_slab.c`)

All caches together: growing and shrinking a cache takes and returns page ranges, and the structures of
slabs that are not on their slab come from a cache of their own. Page ranges come from a `RangeSource`,
which answers as it likes as long as the ranges handed out are disjoint, and `kvmm_resolve_slab` looks for
the slab whose range covers an address.

`kvmm_cache_alloc` and `kvmm_cache_free` call themselves for those structures; `depth` bounds the nesting.
The structures of the slabs of `cache_of_struct_kslab` are on the slab, so it never passes 1.
-/

namespace Desiros.Mem

open Desiros.Library

structure PageRange where
  base : Nat
  nbPages : Nat
deriving DecidableEq

def PageRange.Covers (r : PageRange) (a : Nat) : Prop :=
  r.base ≤ a ∧ a < r.base + r.nbPages * nbBytesPerPage

instance (r : PageRange) (a : Nat) : Decidable (r.Covers a) := inferInstanceAs (Decidable (_ ∧ _))

def PageRange.Apart (r r' : PageRange) : Prop :=
  r.base + r.nbPages * nbBytesPerPage ≤ r'.base ∨ r'.base + r'.nbPages * nbBytesPerPage ≤ r.base

/-- `kvmm_new_range`: the base of a range of the given size, or `NULL`; the answer may depend on the ranges
handed out and on the number of calls so far. -/
structure RangeSource where
  newRange : Nat → List PageRange → Nat → Option Nat
  pos : ∀ time ranges nbPages base, newRange time ranges nbPages = some base → 0 < base
  apart : ∀ time ranges nbPages base, newRange time ranges nbPages = some base →
    ∀ r ∈ ranges, PageRange.Apart ⟨base, nbPages⟩ r

/-- The caches that exist, by the address of their structure, and the ranges handed out. -/
structure SlabSystem where
  cacheList : List Nat
  cache : Nat → KslabCache PageRange
  ranges : List PageRange
  time : Nat
  cacheOfStructKslabCache : Nat
  cacheOfStructKslab : Nat

namespace SlabSystem

def newRange (S : RangeSource) (s : SlabSystem) (nbPages : Nat) : Option PageRange × SlabSystem :=
  match S.newRange s.time s.ranges nbPages with
  | none => (none, { s with time := s.time + 1 })
  | some base => (some ⟨base, nbPages⟩, { s with
      time := s.time + 1
      ranges := ⟨base, nbPages⟩ :: s.ranges })

def delRange (s : SlabSystem) (range : PageRange) : SlabSystem :=
  { s with ranges := s.ranges.erase range }

def setCache (s : SlabSystem) (ca : Nat) (c : KslabCache PageRange) : SlabSystem :=
  { s with cache := Function.update s.cache ca c }

end SlabSystem

/-- The slab whose range covers the address, with the address of its cache. -/
def kvmmResolveSlab (s : SlabSystem) (vaddr : Nat) : Option (Nat × Kslab PageRange) :=
  s.cacheList.findSome? fun ca =>
    ((s.cache ca).slabList.find? fun slab => decide (slab.range.Covers vaddr)).map fun slab => (ca, slab)

/-- `free_object`: `none` for an error, else the slab to release, if any. -/
def freeObject (s : SlabSystem) (vaddr : Nat) : Option (SlabSystem × Option (Nat × Kslab PageRange)) :=
  match kvmmResolveSlab s vaddr with
  | none => none
  | some (ca, slab) =>
    if !(s.cache ca).isObject slab vaddr then none
    else
      let c := cacheGiveObject (s.cache ca) slab vaddr
      some (s.setCache ca c,
        if c.canRelease (slab.give vaddr) then some (ca, slab.give vaddr) else none)

/-- `cache_release_slab`; `freeStruct` gives back a structure that is not on its slab. -/
def cacheReleaseSlab (freeStruct : SlabSystem → Nat → SlabSystem) (s : SlabSystem) (ca : Nat)
    (slab : Kslab PageRange) : SlabSystem :=
  let s' := s.setCache ca (cacheRemoveSlab (s.cache ca) slab)
  let s' := if (s.cache ca).onSlab then s' else freeStruct s' slab.addr
  s'.delRange slab.range

def cacheFreeWith (freeStruct : SlabSystem → Nat → SlabSystem) (s : SlabSystem) (vaddr : Nat) :
    Int × SlabSystem :=
  match freeObject s vaddr with
  | none => (-3, s)
  | some (s, none) => (0, s)
  | some (s, some (ca, slab)) => (0, cacheReleaseSlab freeStruct s ca slab)

def kvmmCacheFree : Nat → SlabSystem → Nat → Int × SlabSystem
  | 0 => cacheFreeWith fun s _ => s
  | depth + 1 => cacheFreeWith fun s slab => (kvmmCacheFree depth s slab).2

/-- `cache_grow`; `allocStruct` allocates a structure that is not on its slab. Returns success. -/
def cacheGrow (allocStruct : SlabSystem → Option Nat × SlabSystem) (S : RangeSource) (s : SlabSystem)
    (ca : Nat) : Bool × SlabSystem :=
  match s.newRange S (s.cache ca).nbPagesPerSlab with
  | (none, s) => (false, s)
  | (some range, s) =>
    if (s.cache ca).onSlab then
      let slabVaddr := range.base + (s.cache ca).slabBytes - sizeofKslab
      (true, s.setCache ca (cacheAddSlab (s.cache ca) range.base slabVaddr range))
    else
      match allocStruct s with
      | (none, s) => (false, s.delRange range)
      | (some slabVaddr, s) =>
        (true, s.setCache ca (cacheAddSlab (s.cache ca) range.base slabVaddr range))

/-- The end of `kvmm_cache_alloc`: a cache that falls just below its minimum of free objects grows, or the
allocation is undone. -/
def cacheEnsureMin (allocStruct : SlabSystem → Option Nat × SlabSystem) (free : SlabSystem → Nat → SlabSystem)
    (S : RangeSource) (s : SlabSystem) (ca obj : Nat) : Option Nat × SlabSystem :=
  if (s.cache ca).minFreeObj > 0 ∧ (s.cache ca).nbFreeObj = (s.cache ca).minFreeObj - 1 then
    match cacheGrow allocStruct S s ca with
    | (true, s) => (some obj, s)
    | (false, s) => (none, free s obj)
  else (some obj, s)

/-- Taking the object and the rest of `kvmm_cache_alloc`. -/
def cacheTakeEnsureMin (allocStruct : SlabSystem → Option Nat × SlabSystem)
    (free : SlabSystem → Nat → SlabSystem) (S : RangeSource) (s : SlabSystem) (ca : Nat) :
    Option Nat × SlabSystem :=
  match cacheTakeObject (s.cache ca) with
  | none => (none, s)
  | some (obj, c) => cacheEnsureMin allocStruct free S (s.setCache ca c) ca obj

def cacheAllocWith (allocStruct : SlabSystem → Option Nat × SlabSystem)
    (free : SlabSystem → Nat → SlabSystem) (S : RangeSource) (s : SlabSystem) (ca : Nat) :
    Option Nat × SlabSystem :=
  if (s.cache ca).needsSlab then
    match cacheGrow allocStruct S s ca with
    | (false, s) => (none, s)
    | (true, s) => cacheTakeEnsureMin allocStruct free S s ca
  else cacheTakeEnsureMin allocStruct free S s ca

/-- The address of an object, `none` for `NULL`. -/
def kvmmCacheAlloc : Nat → RangeSource → SlabSystem → Nat → Option Nat × SlabSystem
  | 0 => cacheAllocWith (fun s => (none, s)) fun s obj => (kvmmCacheFree 0 s obj).2
  | depth + 1 => fun S => cacheAllocWith (fun s => kvmmCacheAlloc depth S s s.cacheOfStructKslab)
      (fun s obj => (kvmmCacheFree (depth + 1) s obj).2) S

/-- `cache_grow` as `kvmm_cache_create` calls it. -/
def cacheGrowAt (depth : Nat) (S : RangeSource) (s : SlabSystem) (ca : Nat) : Bool × SlabSystem :=
  cacheGrow (fun s => kvmmCacheAlloc depth S s s.cacheOfStructKslab) S s ca

def kvmmCacheDestroy (depth : Nat) (s : SlabSystem) (ca : Nat) : Int × SlabSystem :=
  if (s.cache ca).slabList.any fun slab => slab.nbFree ≠ (s.cache ca).nbObjPerSlab then (-4, s)
  else
    let s := (s.cache ca).slabList.foldl
      (fun s slab => cacheReleaseSlab (fun s slab => (kvmmCacheFree depth s slab).2) s ca slab) s
    kvmmCacheFree depth { s with cacheList := s.cacheList.erase ca } ca

/-- The address of the new cache, `none` for `NULL`. -/
def kvmmCacheCreate (depth : Nat) (S : RangeSource) (s : SlabSystem)
    (objSize pagesPerSlab minFreeObjs cacheFlags : UInt32) : Option Nat × SlabSystem :=
  match kvmmCacheAlloc depth S s s.cacheOfStructKslabCache with
  | (none, s) => (none, s)
  | (some newCache, s) =>
    match initCache PageRange objSize pagesPerSlab minFreeObjs cacheFlags with
    | .error _ => (none, (kvmmCacheFree depth s newCache).2)
    | .ok c =>
      let s := { s.setCache newCache c with cacheList := s.cacheList ++ [newCache] }
      if minFreeObjs = 0 then (some newCache, s)
      else match cacheGrowAt depth S s newCache with
        | (true, s) => (some newCache, s)
        | (false, s) => (none, (kvmmCacheDestroy depth s newCache).2)

/-! ## Setup -/

/-- `create_cache_of_caches` with its first slab, of one page, at `base`: the first object of the cache is
the structure of the cache itself. -/
def createCacheOfCaches (base : Nat) : SlabSystem :=
  match initCache PageRange (UInt32.ofNat sizeofKslabCache) 1 0 (kslabCreateMap ||| onSlabFlag) with
  | .error _ => ⟨[], fun _ => ⟨0, 0, 0, 0, 0, 0, false, 0, []⟩, [], 0, 0, 0⟩
  | .ok fake =>
    let fake := cacheAddSlab fake base (base + fake.slabBytes - sizeofKslab) ⟨base, 1⟩
    match cacheTakeObject fake with
    | none => ⟨[], fun _ => fake, [], 0, 0, 0⟩
    | some (real, c) => ⟨[real], fun _ => c, [⟨base, 1⟩], 0, real, real⟩

/-- The part of `kvmm_cache_setup_prepare` that concerns the caches: the cache of caches and the cache of
slab structures. -/
def kvmmCacheSetupPrepare (S : RangeSource) (base : Nat) : SlabSystem :=
  let s := createCacheOfCaches base
  match kvmmCacheCreate 0 S s (UInt32.ofNat sizeofKslab) 1 0 kslabCreateMap with
  | (none, s) => s
  | (some ca, s) => { s with cacheOfStructKslab := ca }

end Desiros.Mem
