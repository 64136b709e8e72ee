import Desiros.Mem.Slab
import Mathlib.Logic.Function.Basic

/-!
# Kernel virtual memory ranges (`mem/kvmm.c`)

The free and the used ranges of kernel space, each a list in ascending order, and the slab cache that holds
the `struct kvmm_range` of all of them. `kvmm_new_range` splits the first free range that is large enough,
for which it allocates a structure; the cache may grow for that, and grows by calling `kvmm_new_range`.
`kvmm_del_range` merges a range with its free neighbours and gives back the structures this saves.

A range is known by the address of its structure. The field `slab` of the structures is a map of its own.
What mapping and unmapping a page does, and the range a physical page records, is left to a `PageMap`: mapping may
fail. The page of a range
structure is mapped, and the range its physical page belongs to is the used range that covers it, so
`lookup_range` is the search of the used list.
-/

namespace Desiros.Mem

/-- `struct kvmm_range`, with its own address. -/
structure KvmmRange where
  addr : Nat
  base : Nat
  nbPages : Nat
deriving DecidableEq

/-- The first address behind the range. -/
def KvmmRange.top (r : KvmmRange) : Nat := r.base + r.nbPages * nbBytesPerPage

/-- Mapping a new physical page at a virtual page (`physmem_ref_physpage_new`, `paging_unmap`,
`paging_map`), and `paging_unmap` alone. `setKvmmRange` writes the address of a range to the physical page at a
virtual page (`physmem_set_kvmm_range`). -/
structure PageMap (W : Type) where
  mapPage : W → Nat → Bool × W
  unmapPage : W → Nat → W
  setKvmmRange : W → Nat → Nat → W

/-- The slabs of the range cache know their range by the address of its structure; the first slab has
`NULL` there. -/
structure Kvmm (W : Type) where
  freeList : List KvmmRange
  usedList : List KvmmRange
  slabOf : Nat → Option Nat
  rangeCache : KslabCache (Option Nat)
  world : W

/-! ## Lists of ranges -/

def getClosestPrecedingLoop (vaddr : Nat) : Option KvmmRange → List KvmmRange → Option KvmmRange
  | retRange, [] => retRange
  | retRange, r :: l => if vaddr < r.base then retRange else getClosestPrecedingLoop vaddr (some r) l

def getClosestPrecedingKvmmRange (l : List KvmmRange) (vaddr : Nat) : Option KvmmRange :=
  getClosestPrecedingLoop vaddr none l

/-- `list_insert_after` -/
def insertAfter (l : List KvmmRange) (prec a : KvmmRange) : List KvmmRange :=
  match l with
  | [] => []
  | r :: l => if r.addr = prec.addr then r :: a :: l else r :: insertAfter l prec a

def insertRange (l : List KvmmRange) (a : KvmmRange) : List KvmmRange :=
  match getClosestPrecedingKvmmRange l a.base with
  | some precUsed => insertAfter l precUsed a
  | none => a :: l

/-- `range->prev` and `range->next` in the circular list. -/
def listPrev (l : List KvmmRange) (r : KvmmRange) : Option KvmmRange :=
  match (l.takeWhile fun x => x.addr != r.addr).getLast? with
  | some p => some p
  | none => l.getLast?

def listNext (l : List KvmmRange) (r : KvmmRange) : Option KvmmRange :=
  match (l.dropWhile fun x => x.addr != r.addr).tail with
  | q :: _ => some q
  | [] => l.head?

/-- `list_delete` -/
def deleteRange (l : List KvmmRange) (addr : Nat) : List KvmmRange := l.filter fun r => r.addr != addr

/-- Writing to the structure at an address. -/
def writeRange (l : List KvmmRange) (addr : Nat) (f : KvmmRange → KvmmRange) : List KvmmRange :=
  l.map fun r => if r.addr = addr then f r else r

def findRange (l : List KvmmRange) (addr : Nat) : Option KvmmRange := l.find? fun r => r.addr = addr

namespace Kvmm

variable {W : Type}

/-! ## The range cache -/

/-- `lookup_range` -/
def lookupRange (s : Kvmm W) (vaddr : Nat) : Option KvmmRange :=
  match getClosestPrecedingKvmmRange s.usedList vaddr with
  | none => none
  | some range => if vaddr < range.base ∨ vaddr ≥ range.top then none else some range

def kvmmResolveSlab (s : Kvmm W) (vaddr : Nat) : Option (Kslab (Option Nat)) :=
  match lookupRange s vaddr with
  | none => none
  | some range =>
    match s.slabOf range.addr with
    | none => none
    | some addr => s.rangeCache.slabList.find? fun slab => slab.addr = addr

/-- `free_object`: `none` for an error, else the slab to release, if any. -/
def freeObject (s : Kvmm W) (vaddr : Nat) : Option (Kvmm W × Option (Kslab (Option Nat))) :=
  match kvmmResolveSlab s vaddr with
  | none => none
  | some slab =>
    if !s.rangeCache.isObject slab vaddr then none
    else
      let c := cacheGiveObject s.rangeCache slab vaddr
      some ({ s with rangeCache := c }, if c.canRelease (slab.give vaddr) then some (slab.give vaddr) else none)

/-- `cache_release_slab` up to `kvmm_del_range`; the slabs of ranges are on-slab. -/
def cacheReleaseSlab (s : Kvmm W) (slab : Kslab (Option Nat)) : Kvmm W :=
  { s with
    rangeCache := cacheRemoveSlab s.rangeCache slab
    slabOf := match slab.range with
      | some range => Function.update s.slabOf range none
      | none => s.slabOf }

/-- `kvmm_cache_release_struct_range`: the range of the slab it releases, if it releases one. -/
def kvmmCacheReleaseStructRange (s : Kvmm W) (theRange : Nat) : Option Nat × Kvmm W :=
  match freeObject s theRange with
  | none => (none, s)
  | some (s, none) => (none, s)
  | some (s, some emptySlab) => (emptySlab.range, cacheReleaseSlab s emptySlab)

/-! ## kvmm_del_range -/

/-- The pages of the range whose structure is at `range`. -/
def mapPages (E : PageMap W) (range base : Nat) : Nat → Nat → W → Bool × W
  | _, 0, w => (true, w)
  | i, n + 1, w =>
    match E.mapPage w (base + i * nbBytesPerPage) with
    | (false, w) => (false, w)
    | (true, w) => mapPages E range base (i + 1) n (E.setKvmmRange w (base + i * nbBytesPerPage) range)

def unmapPages (E : PageMap W) (base : Nat) : Nat → Nat → W → W
  | _, 0, w => w
  | i, n + 1, w => unmapPages E base (i + 1) n (E.unmapPage w (base + i * nbBytesPerPage))

/-- What both merges do with the structure they save: when that empties a slab, the range of the slab goes
from the used list to the ranges to free. -/
def freeStructRange (s : Kvmm W) (addr : Nat) (rangesToFree : List KvmmRange) : Kvmm W × List KvmmRange :=
  match kvmmCacheReleaseStructRange s addr with
  | (none, s) => (s, rangesToFree)
  | (some empty, s) =>
    ({ s with usedList := deleteRange s.usedList empty }, rangesToFree ++ (findRange s.usedList empty).toList)

/-- The merge with the preceding free range. Returns the state, the range and the ranges to free. -/
def mergePrev (s : Kvmm W) (range : KvmmRange) (rangesToFree : List KvmmRange) :
    Kvmm W × KvmmRange × List KvmmRange :=
  match listPrev s.freeList range with
  | none => (s, range, rangesToFree)
  | some precFree =>
    if precFree.top = range.base then
      let merge := fun r : KvmmRange => { r with nbPages := r.nbPages + range.nbPages }
      let (s, rangesToFree) := freeStructRange
        { s with freeList := deleteRange (writeRange s.freeList precFree.addr merge) range.addr }
        range.addr rangesToFree
      (s, merge precFree, rangesToFree)
    else (s, range, rangesToFree)

/-- The merge with the next free range. -/
def mergeNext (s : Kvmm W) (range : KvmmRange) (rangesToFree : List KvmmRange) : Kvmm W × List KvmmRange :=
  match listNext s.freeList range with
  | none => (s, rangesToFree)
  | some nextRange =>
    if range.top = nextRange.base then
      let merge := fun r : KvmmRange => { r with nbPages := r.nbPages + nextRange.nbPages }
      freeStructRange
        { s with freeList := deleteRange (writeRange s.freeList range.addr merge) nextRange.addr }
        nextRange.addr rangesToFree
    else (s, rangesToFree)

/-- One iteration of the `do..while` loop. -/
def delRangeStep (E : PageMap W) (s : Kvmm W) (range : KvmmRange) (rangesToFree : List KvmmRange) :
    Kvmm W × List KvmmRange :=
  let s := { s with
    freeList := insertRange s.freeList range
    world := unmapPages E range.base 0 range.nbPages s.world }
  let (s, range, rangesToFree) := mergePrev s range rangesToFree
  mergeNext s range rangesToFree

/-- The loop, for at most `fuel` iterations. -/
def delRangeLoop (E : PageMap W) : Nat → Kvmm W → KvmmRange → List KvmmRange → Option (Kvmm W)
  | 0, _, _, _ => none
  | fuel + 1, s, range, rangesToFree =>
    match delRangeStep E s range rangesToFree with
    | (s, []) => some s
    | (s, range :: rangesToFree) => delRangeLoop E fuel s range rangesToFree

/-- `kvmm_del_range`: each iteration but the first frees the range of a slab, so there is one more iteration
than slabs at most. -/
def kvmmDelRange (E : PageMap W) (s : Kvmm W) (range : KvmmRange) : Option (Kvmm W) :=
  delRangeLoop E (s.rangeCache.slabList.length + 1) { s with usedList := deleteRange s.usedList range.addr }
    range []

/-! ## kvmm_new_range -/

/-- The end of `kvmm_new_range`: the physical pages of the new range. -/
def mapNewRange (E : PageMap W) (s : Kvmm W) (newRange : KvmmRange) (map : Bool) :
    Option KvmmRange × Kvmm W :=
  if map then
    match mapPages E newRange.addr newRange.base 0 newRange.nbPages s.world with
    | (true, w) => (some newRange, { s with world := w })
    | (false, w) => (none, (kvmmDelRange E { s with world := w } newRange).getD s)
  else (some newRange, s)

/-- `kvmm_new_range`; `cacheAlloc` allocates a structure. -/
def newRangeWith (cacheAlloc : Kvmm W → Option Nat × Kvmm W) (E : PageMap W) (s : Kvmm W) (nbPages : Nat)
    (map : Bool) : Option KvmmRange × Kvmm W :=
  if nbPages = 0 then (none, s)
  else
    match s.freeList.find? fun r => r.nbPages ≥ nbPages with
    | none => (none, s)
    | some freeRange =>
      if freeRange.nbPages = nbPages then
        mapNewRange E { s with
          freeList := deleteRange s.freeList freeRange.addr
          usedList := insertRange s.usedList freeRange
          slabOf := Function.update s.slabOf freeRange.addr none } freeRange map
      else
        match cacheAlloc s with
        | (none, s) => (none, s)
        | (some addr, s) =>
          -- the allocation may have changed the free range
          match findRange s.freeList freeRange.addr with
          | none => (none, s)
          | some freeRange =>
            let newRange : KvmmRange := ⟨addr, freeRange.base, nbPages⟩
            mapNewRange E { s with
              freeList := writeRange s.freeList freeRange.addr fun r =>
                { r with
                  base := r.base + nbPages * nbBytesPerPage
                  nbPages := r.nbPages - nbPages }
              usedList := insertRange s.usedList newRange
              slabOf := Function.update s.slabOf addr none } newRange map

/-- `cache_grow` for the range cache; its slabs are on-slab. -/
def cacheGrow (newRange : Kvmm W → Nat → Bool → Option KvmmRange × Kvmm W) (s : Kvmm W) : Bool × Kvmm W :=
  match newRange s s.rangeCache.nbPagesPerSlab
      (s.rangeCache.flags &&& (kslabCreateMap ||| kslabCreateZero) != 0) with
  | (none, s) => (false, s)
  | (some range, s) =>
    let slabVaddr := range.base + s.rangeCache.slabBytes - sizeofKslab
    (true, { s with
      rangeCache := cacheAddSlab s.rangeCache range.base slabVaddr (some range.addr)
      slabOf := Function.update s.slabOf range.addr (some slabVaddr) })

/-- `kvmm_cache_free`, with the `kvmm_del_range` of a slab that is released. -/
def kvmmCacheFree (E : PageMap W) (s : Kvmm W) (vaddr : Nat) : Kvmm W :=
  match kvmmCacheReleaseStructRange s vaddr with
  | (none, s) => s
  | (some empty, s) =>
    match findRange s.usedList empty with
    | none => s
    | some range => (kvmmDelRange E s range).getD s

/-- The end of `kvmm_cache_alloc`: a cache that falls just below its minimum of free objects grows, or the
allocation is undone. -/
def cacheEnsureMin (newRange : Kvmm W → Nat → Bool → Option KvmmRange × Kvmm W) (E : PageMap W) (s : Kvmm W)
    (obj : Nat) : Option Nat × Kvmm W :=
  if s.rangeCache.minFreeObj > 0 ∧ s.rangeCache.nbFreeObj = s.rangeCache.minFreeObj - 1 then
    match cacheGrow newRange s with
    | (true, s) => (some obj, s)
    | (false, s) => (none, kvmmCacheFree E s obj)
  else (some obj, s)

def cacheTakeEnsureMin (newRange : Kvmm W → Nat → Bool → Option KvmmRange × Kvmm W) (E : PageMap W)
    (s : Kvmm W) : Option Nat × Kvmm W :=
  match cacheTakeObject s.rangeCache with
  | none => (none, s)
  | some (obj, c) => cacheEnsureMin newRange E { s with rangeCache := c } obj

/-- `kvmm_cache_alloc` for the range cache. -/
def cacheAllocWith (newRange : Kvmm W → Nat → Bool → Option KvmmRange × Kvmm W) (E : PageMap W) (s : Kvmm W) :
    Option Nat × Kvmm W :=
  if s.rangeCache.needsSlab then
    match cacheGrow newRange s with
    | (false, s) => (none, s)
    | (true, s) => cacheTakeEnsureMin newRange E s
  else cacheTakeEnsureMin newRange E s

/-- `depth` bounds the calls of `kvmm_new_range` in `kvmm_new_range`. -/
def kvmmNewRange (E : PageMap W) : Nat → Kvmm W → Nat → Bool → Option KvmmRange × Kvmm W
  | 0 => newRangeWith (fun s => (none, s)) E
  | depth + 1 => newRangeWith (cacheAllocWith (kvmmNewRange E depth) E) E

end Kvmm

end Desiros.Mem
