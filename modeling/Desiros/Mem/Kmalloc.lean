import Desiros.Mem.Kvmm
import Desiros.Mem.SlabSystem
import Desiros.Mem.Arena

/-!
# The kernel heap (`mem/kmalloc.c`, over `mem/kvmm_slab.c` and `mem/kvmm.c`)

The slab caches over the kernel ranges: the caches other than that of the ranges are a `SlabSystem` whose pages
are ranges of a `Kvmm`, and a range knows its slab by the address of the `struct kslab`. `kmalloc` picks the first
cache of its table whose objects are large enough, or whole pages; `kfree` asks both allocators in turn.

A slab names its range by its pages, and the list `ranges` of the `SlabSystem` holds the ranges that were handed
out. `kvmm_new_range` calls itself twice at most, whatever the depth. `kvmm_new_range` does not look at the flag
for atomic allocations, which is left out.
-/

namespace Desiros.Mem

open Desiros.Library

/-- The caches, their ranges, the address of the structure of the range cache, and `kmalloc_cache[i].cache`. -/
structure Heap (W : Type) where
  slabs : SlabSystem
  kvmm : Kvmm W
  kvmmRangeCache : Nat
  kmallocCache : List Nat

/-- A slab of the range cache, or of the cache with the address. -/
inductive SlabRef
  | range (slab : Kslab (Option Nat))
  | cache (ca : Nat) (slab : Kslab PageRange)

namespace Heap

variable {W : Type}

/-! ## Ranges -/

def newRange (E : PageMap W) (h : Heap W) (nbPages : Nat) (map : Bool) : Option KvmmRange × Heap W :=
  match Kvmm.kvmmNewRange E 2 h.kvmm nbPages map with
  | (none, k) => (none, { h with kvmm := k })
  | (some range, k) =>
    (some range, { h with
      slabs := { h.slabs with ranges := ⟨range.base, range.nbPages⟩ :: h.slabs.ranges }
      kvmm := k })

/-- `kvmm_set_slab` -/
def setSlab (h : Heap W) (range : KvmmRange) (slab : Option Nat) : Heap W :=
  { h with kvmm := { h.kvmm with slabOf := Function.update h.kvmm.slabOf range.addr slab } }

/-- `kvmm_del_range` -/
def delRange (E : PageMap W) (h : Heap W) (range : KvmmRange) : Heap W :=
  { h with
    slabs := h.slabs.delRange ⟨range.base, range.nbPages⟩
    kvmm := (Kvmm.kvmmDelRange E h.kvmm range).getD h.kvmm }

/-- The range of a slab. -/
def rangeAt (h : Heap W) (r : PageRange) : Option KvmmRange := h.kvmm.usedList.find? fun x => x.base = r.base

/-- What a pointer to a `struct kslab` points to. -/
def slabAt (h : Heap W) (addr : Nat) : Option SlabRef :=
  match h.kvmm.rangeCache.slabList.find? fun slab => slab.addr = addr with
  | some slab => some (.range slab)
  | none => h.slabs.cacheList.findSome? fun ca =>
      ((h.slabs.cache ca).slabList.find? fun slab => slab.addr = addr).map (SlabRef.cache ca)

def kvmmResolveSlab (h : Heap W) (vaddr : Nat) : Option SlabRef :=
  match h.kvmm.lookupRange vaddr with
  | none => none
  | some range => (h.kvmm.slabOf range.addr).bind h.slabAt

def kvmmAlloc (E : PageMap W) (h : Heap W) (nbPages : Nat) (map : Bool) : Option Nat × Heap W :=
  match h.newRange E nbPages map with
  | (none, h) => (none, h)
  | (some range, h) => (some range.base, h)

def kvmmFree (E : PageMap W) (h : Heap W) (vaddr : Nat) : Int × Heap W :=
  match h.kvmm.lookupRange vaddr with
  | none => (-1, h)
  | some range =>
    if range.base ≠ vaddr then (-1, h)
    else if h.kvmm.slabOf range.addr ≠ none then (-4, h)
    else (0, h.delRange E range)

/-! ## kvmm_cache_free -/

/-- `cache_release_slab`; `freeStruct` gives back a structure that is not on its slab. -/
def cacheReleaseSlab (freeStruct : Heap W → Nat → Heap W) (E : PageMap W) (h : Heap W) (ca : Nat)
    (slab : Kslab PageRange) : Heap W :=
  let h' := { h with slabs := h.slabs.setCache ca (cacheRemoveSlab (h.slabs.cache ca) slab) }
  let h' := if (h.slabs.cache ca).onSlab then h' else freeStruct h' slab.addr
  match h'.rangeAt slab.range with
  | none => h'
  | some range => (h'.setSlab range none).delRange E range

/-- `kvmm_cache_free`, with its `free_object`. -/
def cacheFreeWith (freeStruct : Heap W → Nat → Heap W) (E : PageMap W) (h : Heap W) (vaddr : Nat) : Int × Heap W :=
  match h.kvmmResolveSlab vaddr with
  | none => (-3, h)
  | some (.range slab) =>
    if !h.kvmm.rangeCache.isObject slab vaddr then (-3, h)
    else (0, { h with kvmm := Kvmm.kvmmCacheFree E h.kvmm vaddr })
  | some (.cache ca slab) =>
    if !(h.slabs.cache ca).isObject slab vaddr then (-3, h)
    else
      let c := cacheGiveObject (h.slabs.cache ca) slab vaddr
      let h' := { h with slabs := h.slabs.setCache ca c }
      (0, if c.canRelease (slab.give vaddr) then cacheReleaseSlab freeStruct E h' ca (slab.give vaddr) else h')

/-- `depth` bounds the calls for structures of slabs. -/
def kvmmCacheFree (E : PageMap W) : Nat → Heap W → Nat → Int × Heap W
  | 0 => cacheFreeWith (fun h _ => h) E
  | depth + 1 => cacheFreeWith (fun h slab => (kvmmCacheFree E depth h slab).2) E

/-! ## kvmm_cache_alloc -/

/-- The end of `cache_grow`: the slab over the new range. -/
def addSlab (h : Heap W) (ca slabVaddr : Nat) (range : KvmmRange) : Heap W :=
  { h with
    slabs := h.slabs.setCache ca
      (cacheAddSlab (h.slabs.cache ca) range.base slabVaddr ⟨range.base, range.nbPages⟩) }.setSlab range slabVaddr

/-- `cache_grow`; `allocStruct` allocates a structure that is not on its slab. Returns success. -/
def cacheGrow (allocStruct : Heap W → Option Nat × Heap W) (E : PageMap W) (h : Heap W) (ca : Nat) : Bool × Heap W :=
  match h.newRange E (h.slabs.cache ca).nbPagesPerSlab
      ((h.slabs.cache ca).flags &&& (kslabCreateMap ||| kslabCreateZero) != 0) with
  | (none, h) => (false, h)
  | (some range, h) =>
    if (h.slabs.cache ca).onSlab then
      (true, h.addSlab ca (range.base + (h.slabs.cache ca).slabBytes - sizeofKslab) range)
    else
      match allocStruct h with
      | (none, h) => (false, h.delRange E range)
      | (some slabVaddr, h) => (true, h.addSlab ca slabVaddr range)

/-- The end of `kvmm_cache_alloc`: a cache that falls just below its minimum of free objects grows, or the
allocation is undone. -/
def cacheEnsureMin (allocStruct : Heap W → Option Nat × Heap W) (free : Heap W → Nat → Heap W) (E : PageMap W)
    (h : Heap W) (ca obj : Nat) : Option Nat × Heap W :=
  if (h.slabs.cache ca).minFreeObj > 0 ∧ (h.slabs.cache ca).nbFreeObj = (h.slabs.cache ca).minFreeObj - 1 then
    match cacheGrow allocStruct E h ca with
    | (true, h) => (some obj, h)
    | (false, h) => (none, free h obj)
  else (some obj, h)

def cacheTakeEnsureMin (allocStruct : Heap W → Option Nat × Heap W) (free : Heap W → Nat → Heap W) (E : PageMap W)
    (h : Heap W) (ca : Nat) : Option Nat × Heap W :=
  match cacheTakeObject (h.slabs.cache ca) with
  | none => (none, h)
  | some (obj, c) => cacheEnsureMin allocStruct free E { h with slabs := h.slabs.setCache ca c } ca obj

def cacheAllocWith (allocStruct : Heap W → Option Nat × Heap W) (free : Heap W → Nat → Heap W) (E : PageMap W)
    (h : Heap W) (ca : Nat) : Option Nat × Heap W :=
  if (h.slabs.cache ca).needsSlab then
    match cacheGrow allocStruct E h ca with
    | (false, h) => (none, h)
    | (true, h) => cacheTakeEnsureMin allocStruct free E h ca
  else cacheTakeEnsureMin allocStruct free E h ca

def kvmmCacheAlloc (E : PageMap W) : Nat → Heap W → Nat → Option Nat × Heap W
  | 0 => cacheAllocWith (fun h => (none, h)) (fun h obj => (kvmmCacheFree E 0 h obj).2) E
  | depth + 1 => cacheAllocWith (fun h => kvmmCacheAlloc E depth h h.slabs.cacheOfStructKslab)
      (fun h obj => (kvmmCacheFree E (depth + 1) h obj).2) E

/-- `kvmm_cache_create` with `min_free_objs` 0: no slab is allocated ahead. -/
def kvmmCacheCreate (E : PageMap W) (h : Heap W) (objSize pagesPerSlab cacheFlags : UInt32) : Option Nat × Heap W :=
  match kvmmCacheAlloc E 1 h h.slabs.cacheOfStructKslabCache with
  | (none, h) => (none, h)
  | (some newCache, h) =>
    match initCache PageRange objSize pagesPerSlab 0 cacheFlags with
    | .error _ => (none, (kvmmCacheFree E 1 h newCache).2)
    | .ok c =>
      (some newCache, { h with
        slabs := { h.slabs.setCache newCache c with cacheList := h.slabs.cacheList ++ [newCache] } })

/-! ## kmalloc -/

/-- `object_size` and `pages_per_slab` of `kmalloc_cache`. -/
def kmallocTable : List (UInt32 × UInt32) :=
  [(8, 1), (16, 1), (32, 1), (64, 1), (128, 1), (256, 2), (1024, 2), (2048, 3), (4096, 4), (8192, 8), (16384, 12)]

/-- One iteration of `kmalloc_setup`; a cache that could not be created is `NULL`. -/
def kmallocSetupStep (E : PageMap W) (h : Heap W) (row : UInt32 × UInt32) : Heap W :=
  match h.kvmmCacheCreate E row.1 row.2 kslabCreateMap with
  | (newCache, h) => { h with kmallocCache := h.kmallocCache ++ [newCache.getD 0] }

def kmallocSetup (E : PageMap W) (h : Heap W) : Heap W := kmallocTable.foldl (kmallocSetupStep E) h

/-- The address of a block, `none` for `NULL`. -/
def kmalloc (E : PageMap W) (h : Heap W) (size : UInt32) : Option Nat × Heap W :=
  match (kmallocTable.zip h.kmallocCache).find? fun row => row.1.1 ≥ size with
  | some row => h.kvmmCacheAlloc E 1 row.2
  | none => h.kvmmAlloc E (pageAlignSup size / pageSize).toNat true

def kfree (E : PageMap W) (h : Heap W) (vaddr : Nat) : Int × Heap W :=
  match h.kvmmCacheFree E 1 vaddr with
  | (0, h) => (0, h)
  | (_, h) => h.kvmmFree E vaddr

end Heap

/-! ## kvmm_setup -/

def kvmmBase : Nat := 0x4000
def kvmmTop : Nat := 0x40000000

/-- `sizeof(struct kvmm_range)` -/
def sizeofKvmmRange : Nat := 20

/-- What the boot loader left, page-aligned: the kernel and in it the bootstrap stack. -/
structure KernelLayout where
  kernelCoreBase : Nat
  kernelCoreTop : Nat
  stackBottom : Nat
  stackTop : Nat

namespace KernelLayout

def biosNVideoStart : Nat := 0xa0000
def biosNVideoEnd : Nat := 0x100000

def firstSlabOfCaches (l : KernelLayout) : Nat :=
  (l.kernelCoreTop + (nbBytesPerPage - 1)) / nbBytesPerPage * nbBytesPerPage

def firstSlabOfRanges (l : KernelLayout) : Nat := l.firstSlabOfCaches + nbBytesPerPage

/-- The arguments of the calls of `kvmm_create_range`. -/
def createRanges (l : KernelLayout) : List (Bool × Nat × Nat × Option Nat) :=
  [(true, kvmmBase, biosNVideoStart, none),
   (false, biosNVideoStart, biosNVideoEnd, none),
   (true, biosNVideoEnd, l.kernelCoreBase, none),
   (false, l.kernelCoreBase, l.stackBottom, none),
   (false, l.stackBottom, l.stackTop, none),
   (false, l.stackTop, l.firstSlabOfRanges, none),
   (false, l.firstSlabOfCaches, l.firstSlabOfCaches + nbBytesPerPage,
     some (l.firstSlabOfCaches + nbBytesPerPage - sizeofKslab)),
   (false, l.firstSlabOfRanges, l.firstSlabOfRanges + nbBytesPerPage,
     some (l.firstSlabOfRanges + nbBytesPerPage - sizeofKslab)),
   (true, l.firstSlabOfRanges + nbBytesPerPage, kvmmTop, none)]

end KernelLayout

section Setup

variable {W : Type}

/-- The physical pages of a used range record it. -/
def recordPages (E : PageMap W) (range base : Nat) : Nat → Nat → W → W
  | _, 0, w => w
  | i, n + 1, w => recordPages E range base (i + 1) n (E.setKvmmRange w (base + i * nbBytesPerPage) range)

/-- `kvmm_create_range`, without the range when it cannot be created; the addresses of the kernel ascend. -/
def kvmmCreateRange (E : PageMap W) (s : Kvmm W) (isFree : Bool) (baseVaddr topVaddr : Nat)
    (associatedSlab : Option Nat) : Kvmm W :=
  if topVaddr - baseVaddr < nbBytesPerPage then s
  else
    match Kvmm.cacheAllocWith (Kvmm.kvmmNewRange E 1) E s with
    | (none, s) => s
    | (some addr, s) =>
      let range : KvmmRange := ⟨addr, baseVaddr, (topVaddr - baseVaddr) / nbBytesPerPage⟩
      if isFree then { s with freeList := s.freeList ++ [range] }
      else { s with
        usedList := s.usedList ++ [range]
        slabOf := Function.update s.slabOf addr associatedSlab
        world := recordPages E addr baseVaddr 0 ((topVaddr - baseVaddr + (nbBytesPerPage - 1)) / nbBytesPerPage)
          s.world }

/-- Before the first range there is none to hand out. -/
def noRanges : RangeSource where
  newRange _ _ _ := none
  pos _ _ _ _ h := by cases h
  apart _ _ _ _ h := by cases h

/-- `create_cache_of_ranges` -/
def createCacheOfRanges (base : Nat) : Except Int (KslabCache (Option Nat)) :=
  (initCache (Option Nat) (UInt32.ofNat sizeofKvmmRange) 1 2 (kslabCreateMap ||| onSlabFlag)).map fun c =>
    cacheAddSlab c base (base + c.slabBytes - sizeofKslab) none

/-- `kvmm_setup`: the caches of caches, of slab structures and of ranges, and the ranges that exist from the
start. The last is the address of the structure of the range cache. -/
def kvmmSetup (E : PageMap W) (l : KernelLayout) (world : W) : Option (Heap W) :=
  match kvmmCacheAlloc 0 noRanges (kvmmCacheSetupPrepare noRanges l.firstSlabOfCaches)
      (kvmmCacheSetupPrepare noRanges l.firstSlabOfCaches).cacheOfStructKslabCache,
    createCacheOfRanges l.firstSlabOfRanges with
  | (some rangeCacheAddr, slabs), .ok c =>
    some ⟨slabs, l.createRanges.foldl (fun s a => kvmmCreateRange E s a.1 a.2.1 a.2.2.1 a.2.2.2)
      ⟨[], [], fun _ => none, c, world⟩, rangeCacheAddr, []⟩
  | _, _ => none

end Setup

end Desiros.Mem
