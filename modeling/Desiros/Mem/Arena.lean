import Desiros.Library.Words

/-!
# User address spaces: data and lookups (`mem/uvmm.c`)

An address space (`struct uvmm_as`) owns a circular list of arenas sorted by address. The list is a
`List UvmmArena` read from the head `as->list_arena`; the successor of its last element is its head.
A pointer to an arena is its `id`: the serial number of the allocation that produced the structure.
No structure is ever reused, because the arenas come from a slab cache and `kvmm_free` refuses slab
objects.

Addresses, sizes and flags are the 32-bit words of the source, offsets in a resource its 64-bit ones.
-/

namespace Desiros.Mem

open Desiros.Library

/-! ## Constants (`include/mm.h`, `include/physmem.h`, `include/uvmm.h`) -/

def pageSize : UInt32 := 4096
def userOffset : UInt32 := 0x40000000
def pagingTopUserAddress : UInt32 := 0xFFFFFFFF
def pagingUserSpaceSize : UInt32 := 0xC0000000

def pRead : UInt32 := 1
def pWrite : UInt32 := 2
def pUser : UInt32 := 4

def arenaMapShared : UInt32 := 1
def arenaMapFixed : UInt32 := 0x80000000
def arenaRemapMaymove : UInt32 := 0x40000000
def mappedResourceAnonymous : UInt32 := 1

/-- `uvmm_map` flag set by `uvmm_resize` only. -/
def internalMapCalledFromMremap : UInt32 := 0x100

def pageAlignInf (v : UInt32) : UInt32 := alignInf v pageSize
def pageAlignSup (v : UInt32) : UInt32 := alignSup v pageSize
def isPageAligned (v : UInt32) : Bool := isAligned v pageSize

/-- `PAGING_IS_USER_AREA`. -/
def pagingIsUserArea (baseAddr length : UInt32) : Bool :=
  decide (userOffset ≤ baseAddr) && decide (length ≤ pagingUserSpaceSize)

/-- A flag of a word is set. -/
def hasFlag (word flag : UInt32) : Bool := word &&& flag != 0

/-! ## Data -/

/-- `struct uvmm_mapped_resource`: its own address, and what `uvmm_map` reads of it. -/
structure UvmmMappedResource where
  addr : Nat
  allowedAccessRights : UInt32
  flags : UInt32
  /-- Address of the `mmap` callback, if any. -/
  mmap : Option Nat
deriving DecidableEq, Repr

/-- `struct uvmm_arena`. -/
structure UvmmArena where
  id : Nat
  start : UInt32
  size : UInt32
  accessRights : UInt32
  flags : UInt32
  /-- Address of the callback table, `none` for `NULL`. -/
  ops : Option Nat
  mappedResource : UvmmMappedResource
  offsetInResource : UInt64
deriving DecidableEq, Repr

/-- `struct vm_usage`. -/
structure VmUsage where
  overall : UInt32 := 0
  ro : UInt32 := 0
  rw : UInt32 := 0
  code : UInt32 := 0
deriving DecidableEq, Repr

/-- `struct uvmm_as`; the defaults are the zeroed object of the slab cache. -/
structure UvmmAs where
  listArena : List UvmmArena := []
  heapStart : UInt32 := 0
  heapSize : UInt32 := 0
  physTotal : UInt32 := 0
  vmTotal : VmUsage := {}
  vmShrd : VmUsage := {}
  pgfltPageIn : UInt32 := 0
  pgfltInvalid : UInt32 := 0
deriving DecidableEq, Repr

/-! ## The circular list of arenas -/

/-- `list_delete_named(as->list_arena, item, ..)`. -/
def listDelete (id : Nat) (l : List UvmmArena) : List UvmmArena := l.filter (·.id ≠ id)

/-- `list_insert_after_named(as->list_arena, after_this, item, ..)`. -/
def listInsertAfter (after : Nat) (item : UvmmArena) (l : List UvmmArena) : List UvmmArena :=
  l.flatMap fun a => if a.id = after then [a, item] else [a]

/-- Assignment to fields of the arena at `id`. -/
def modifyArena (id : Nat) (f : UvmmArena → UvmmArena) (l : List UvmmArena) : List UvmmArena :=
  l.map fun a => if a.id = id then f a else a

/-- `arena->prev_in_as`: the element before, the tail for the head. -/
def prevInAs (l : List UvmmArena) (id : Nat) : Option UvmmArena :=
  (l.takeWhile (·.id ≠ id)).getLast?.or l.getLast?

/-! ## Lookups -/

/-- `uaddr <= arena->start + (arena->size - 1)`. -/
def UvmmArena.reaches (uaddr : UInt32) (arena : UvmmArena) : Bool :=
  decide (uaddr ≤ arena.start + (arena.size - 1))

/-- The arena that contains `uaddr` or else the next one. -/
def findEnclosingOrNextArena (l : List UvmmArena) (uaddr : UInt32) : Option UvmmArena :=
  if uaddr > pagingTopUserAddress then none else l.find? (·.reaches uaddr)

/-- The source looks up the first arena at or after the interval, whatever its size. -/
def findFirstIntersectingArena (l : List UvmmArena) (startUaddr _size : UInt32) :
    Option UvmmArena :=
  findEnclosingOrNextArena l startUaddr

/-- The arenas before the one `findEnclosingOrNextArena` returns. -/
def arenasBefore (l : List UvmmArena) (uaddr : UInt32) : List UvmmArena :=
  l.takeWhile (!·.reaches uaddr)

/-- The arena `findEnclosingOrNextArena` returns and the ones up to the tail. -/
def arenasFrom (l : List UvmmArena) (uaddr : UInt32) : List UvmmArena :=
  l.dropWhile (!·.reaches uaddr)

/-- The `do .. while` loop of `find_first_free_interval`: the arenas left of one turn around the list
that started at `initial`, whose last one is followed by `initial` again. -/
def freeIntervalScan (size : UInt32) (initial : UvmmArena) : UInt32 → List UvmmArena → UInt32
  | _, [] => 0
  | hint, arena :: rest =>
    if hint + size ≤ arena.start then hint
    else if (rest.headD initial).start ≥ hint then
      freeIntervalScan size initial (arena.start + arena.size) rest
    else if hint ≤ pagingTopUserAddress - size then hint
    else freeIntervalScan size initial userOffset rest

def findFirstFreeInterval (l : List UvmmArena) (hintUaddr size : UInt32) : UInt32 :=
  let hint := if hintUaddr < userOffset then userOffset else hintUaddr
  if hint > pagingTopUserAddress - size + 1 then 0
  else match arenasFrom l hint with
    | [] => hint
    | initial :: rest =>
      freeIntervalScan size initial hint (initial :: rest ++ arenasBefore l hint)

/-! ## Memory statistics -/

inductive VmField | overall | ro | rw | code

/-- `_UPDATE_VMSTAT`. -/
def VmUsage.update (u : VmUsage) (field : VmField) (increment : Bool) (size : UInt32) : VmUsage :=
  let upd (v : UInt32) := if increment then v + size else v - size
  match field with
  | .overall => { u with overall := upd u.overall }
  | .ro => { u with ro := upd u.ro }
  | .rw => { u with rw := upd u.rw }
  | .code => { u with code := upd u.code }

/-- `UPDATE_VMSTAT`. -/
def UvmmAs.updateVmstat (as : UvmmAs) (isShared : Bool) (size : UInt32) (field : VmField)
    (increment : Bool) : UvmmAs :=
  { as with
    vmShrd := if isShared then as.vmShrd.update field increment size else as.vmShrd
    vmTotal := as.vmTotal.update field increment size }

def asAccountChangeOfArenaProt (as : UvmmAs) (isShared : Bool) (size prev new : UInt32) : UvmmAs :=
  if prev = new then as
  else
    let as :=
      if hasFlag new pWrite && !hasFlag prev pWrite then
        let as := as.updateVmstat isShared size .rw true
        if hasFlag prev pRead then as.updateVmstat isShared size .ro false else as
      else if !hasFlag new pWrite && hasFlag prev pWrite then
        let as := if hasFlag new pRead then as.updateVmstat isShared size .ro true else as
        as.updateVmstat isShared size .rw false
      else if hasFlag new pRead then as.updateVmstat isShared size .ro true
      else as.updateVmstat isShared size .ro false
    let as :=
      if hasFlag new pUser && !hasFlag prev pUser then as.updateVmstat isShared size .code true
      else if !hasFlag new pUser && hasFlag prev pUser then
        as.updateVmstat isShared size .code false
      else as
    if new ≠ 0 ∧ prev = 0 then as.updateVmstat isShared size .overall true
    else if new = 0 ∧ prev ≠ 0 then as.updateVmstat isShared size .overall false
    else as

@[simp] theorem updateVmstat_listArena (as : UvmmAs) (isShared : Bool) (size : UInt32)
    (field : VmField) (increment : Bool) :
    (as.updateVmstat isShared size field increment).listArena = as.listArena := rfl

@[simp] theorem asAccountChangeOfArenaProt_listArena (as : UvmmAs) (isShared : Bool)
    (size prev new : UInt32) :
    (asAccountChangeOfArenaProt as isShared size prev new).listArena = as.listArena := by
  unfold asAccountChangeOfArenaProt
  split_ifs <;> rfl

end Desiros.Mem
