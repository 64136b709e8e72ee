import Desiros.Mem.Arena

/-!
# User address spaces: operations (`mem/uvmm.c`)

`uvmmUnmap`, `uvmmMap`, `uvmmResize`, `uvmmBrk` and `uvmmLazyLoading` follow the source statement by
statement. What they call outside `uvmm.c` is a `UvmmEnv W`: the arena cache, `kmalloc`, the paging
functions and the callbacks of the mapped resources, all acting on a world `W` that these functions do
not look into. A resource or a callback table is the address of a C object; a callback that is `NULL`
in the table leaves the world as it is.
-/

namespace Desiros.Mem

open Desiros.Library

/-- What `uvmm.c` calls. -/
structure UvmmEnv (W : Type) where
  /-- `kvmm_cache_alloc(cache_of_arena, 0)` succeeds. -/
  allocArena : W → Bool × W
  /-- `kvmm_free((__u32) arena)`. -/
  freeArena : UvmmArena → W → W
  /-- `kmalloc(sizeof(*zero_resource), 0)` in `dev_zero_map`. -/
  kmallocZeroResource : W → Option Nat × W
  kfreeZeroResource : Nat → W → W
  /-- Address of `zero_mmap`. -/
  zeroMmap : Nat
  /-- `resource->mmap(arena)`: the return value and the `ops` it set, if any. -/
  mmap : Nat → UvmmArena → W → UInt32 × Option Nat × W
  /-- `arena->ops->ref(arena)`, `unref` and `unmap`. -/
  ref : Nat → UvmmArena → W → W
  unref : Nat → UvmmArena → W → W
  unmap : Nat → UvmmArena → UInt32 → UInt32 → W → W
  /-- `arena->ops->no_page(arena, uaddr, write_access)`. -/
  noPage : Nat → UvmmArena → UInt32 → Bool → W → Int × W
  /-- `list_add_tail_named` and `list_delete_named` on `mapped_resource->list_arena`. -/
  resourceAddTail : UvmmArena → W → W
  resourceDelete : UvmmArena → W → W
  pagingUnmapInterval : UInt32 → UInt32 → W → UInt32 × W
  pagingVirtualToPhysical : UInt32 → W → UInt32
  pagingMap : UInt32 → UInt32 → Bool → W → UInt32 × W

/-- The address space, the arena structures taken off its list (`kvmm_free` leaves them as they were),
the number of arena structures allocated so far, and the world. -/
structure UvmmState (W : Type) where
  addressSpace : UvmmAs
  freed : List UvmmArena
  nextId : Nat
  world : W

variable {W : Type}

/-- Run an optional callback of an arena's `ops`. -/
def callOps (ops : Option Nat) (f : Nat → W → W) (w : W) : W :=
  match ops with
  | none => w
  | some o => f o w

/-- `kvmm_cache_alloc(cache_of_arena, 0)`: success, and the state with the structure accounted for. -/
def UvmmState.allocArena (E : UvmmEnv W) (s : UvmmState W) : Bool × UvmmState W :=
  let (ok, w) := E.allocArena s.world
  (ok, { s with world := w, nextId := s.nextId + 1 })

/-- `kvmm_free((__u32) preallocated_arena)` for a structure that stayed unused. -/
def UvmmState.freePreallocated (E : UvmmEnv W) (s : UvmmState W) (preId : Nat) : UvmmState W :=
  { s with world := E.freeArena ⟨preId, 0, 0, 0, 0, none, ⟨0, 0, 0, none⟩, 0⟩ s.world }

def UvmmState.setList (s : UvmmState W) (l : List UvmmArena) : UvmmState W :=
  { s with addressSpace := { s.addressSpace with listArena := l } }

/-- `uvmm_create_empty_as` in a given world. -/
def uvmmCreateEmptyAs (w : W) : UvmmState W :=
  { addressSpace := {}, freed := [], nextId := 0, world := w }

/-! ## `uvmm_unmap` -/

/-- The state of the `while` loop of `uvmm_unmap` beside the list it walks. -/
structure UnmapWalk (W : Type) where
  state : UvmmState W
  usedPreallocatedArena : Bool

/-- `as_account_change_of_arena_prot(as, arena->flags & ARENA_MAP_SHARED, size, rights, 0)`. -/
def UvmmState.accountUnmapped (s : UvmmState W) (arena : UvmmArena) (size : UInt32) :
    UvmmState W :=
  { s with
    addressSpace := asAccountChangeOfArenaProt s.addressSpace (hasFlag arena.flags arenaMapShared)
      size arena.accessRights 0 }

/-- The arena lies in the unmapped region: it leaves both lists and is freed. -/
def UvmmState.removeArena (E : UvmmEnv W) (s : UvmmState W) (arena : UvmmArena) : UvmmState W :=
  let w := callOps arena.ops (fun o => E.unmap o arena arena.start arena.size) s.world
  let w := callOps arena.ops (fun o => E.unref o arena) (E.resourceDelete arena w)
  let s := ({ s with world := w } : UvmmState W).accountUnmapped arena arena.size
  { s with world := E.freeArena arena s.world, freed := arena :: s.freed }

/-- The unmapped region cuts `arena` in two: the part kept in `arena`, and the part given to the
preallocated structure `preId`. -/
def splitLeft (uaddr : UInt32) (arena : UvmmArena) : UvmmArena :=
  { arena with size := uaddr - arena.start }

def splitRight (uaddr size : UInt32) (preId : Nat) (arena : UvmmArena) : UvmmArena :=
  { arena with
    id := preId
    start := uaddr + size
    size := arena.start + arena.size - (uaddr + size)
    offsetInResource := arena.offsetInResource + (uaddr + size - arena.start).toUInt64 }

/-- Only the start of the arena is unmapped. -/
def shiftStart (uaddr size : UInt32) (arena : UvmmArena) : UvmmArena :=
  let translation := uaddr + size - arena.start
  { arena with
    size := arena.size - translation
    offsetInResource := arena.offsetInResource + translation.toUInt64
    start := arena.start + translation }

/-- The loop of `uvmm_unmap` from an arena to the tail of the list. Behind the tail it meets the head
again: an arena before the first intersecting one, or one it cut at `uaddr`. Both end at or below
`uaddr`, so the first test stops the loop there. -/
def unmapWalk (E : UvmmEnv W) (uaddr size : UInt32) (preId : Nat) :
    List UvmmArena → UnmapWalk W → List UvmmArena × UnmapWalk W
  | [], k => ([], k)
  | arena :: rest, k =>
    if arena.start + arena.size ≤ uaddr then (arena :: rest, k)
    else if uaddr + size ≤ arena.start then (arena :: rest, k)
    else if uaddr ≤ arena.start ∧ arena.start + arena.size ≤ uaddr + size then
      unmapWalk E uaddr size preId rest { k with state := k.state.removeArena E arena }
    else if arena.start < uaddr ∧ uaddr + size < arena.start + arena.size then
      let left := splitLeft uaddr arena
      let right := splitRight uaddr size preId arena
      let w := E.resourceAddTail right k.state.world
      let w := callOps left.ops (fun o => E.unmap o left uaddr size) w
      let w := callOps right.ops (fun o => E.ref o right) w
      (left :: right :: rest,
        { state := ({ k.state with world := w } : UvmmState W).accountUnmapped left size
          usedPreallocatedArena := true })
    else if uaddr ≤ arena.start then
      let translation := uaddr + size - arena.start
      let shifted := shiftStart uaddr size arena
      let w := callOps shifted.ops (fun o => E.unmap o shifted (uaddr + size) translation)
        k.state.world
      (shifted :: rest,
        { k with
          state := ({ k.state with world := w } : UvmmState W).accountUnmapped shifted translation })
    else
      -- the last test of the source, `uaddr + size >= arena->start + arena->size`, holds here
      let unmappedSize := arena.start + arena.size - uaddr
      let left := splitLeft uaddr arena
      let w := callOps left.ops (fun o => E.unmap o left uaddr unmappedSize) k.state.world
      let (rest', k') := unmapWalk E uaddr size preId rest
        { k with
          state := ({ k.state with world := w } : UvmmState W).accountUnmapped left unmappedSize }
      (left :: rest', k')

/-- `uvmm_unmap` once the structure `preId` is preallocated. -/
def unmapRegion (E : UvmmEnv W) (s : UvmmState W) (uaddr size : UInt32) (preId : Nat) :
    UvmmState W :=
  let (rest, k) := unmapWalk E uaddr size preId (arenasFrom s.addressSpace.listArena uaddr)
    { state := s, usedPreallocatedArena := false }
  let s := k.state.setList (arenasBefore s.addressSpace.listArena uaddr ++ rest)
  let (szUnmapped, w) := E.pagingUnmapInterval uaddr size s.world
  let s := { s with
    addressSpace := { s.addressSpace with physTotal := s.addressSpace.physTotal - szUnmapped }
    world := w }
  if k.usedPreallocatedArena then s else s.freePreallocated E preId

def uvmmUnmap (E : UvmmEnv W) (s : UvmmState W) (uaddr size : UInt32) : Int × UvmmState W :=
  if !isPageAligned uaddr then (-1, s)
  else if size ≤ 0 then (-1, s)
  else if uaddr < userOffset then (-1, s)
  else if uaddr > pagingTopUserAddress - pageAlignSup size then (-1, s)
  else if !(s.allocArena E).1 then (-3, (s.allocArena E).2)
  else (0, unmapRegion E (s.allocArena E).2 uaddr (pageAlignSup size) s.nextId)

/-! ## `uvmm_map` -/

/-- The checks of `uvmm_map` before the arena structure is allocated: the error code, or the resource. -/
def uvmmMapCheck (hintUaddr size accessRights flags : UInt32)
    (resource : Option UvmmMappedResource) (offsetInResource : UInt64) :
    Except Int UvmmMappedResource :=
  match resource with
  | none => .error (-1)
  | some resource =>
    if resource.mmap.isNone then .error (-6)
    else if !isPageAligned hintUaddr then .error (-1)
    else if size ≤ 0 then .error (-1)
    else if hasFlag flags arenaMapShared &&
        ((hasFlag accessRights pRead && !hasFlag resource.allowedAccessRights pRead) ||
         (hasFlag accessRights pWrite && !hasFlag resource.allowedAccessRights pWrite) ||
         (hasFlag accessRights pUser && !hasFlag resource.allowedAccessRights pUser)) then
      .error (-6)
    else if !hasFlag flags internalMapCalledFromMremap &&
        hasFlag resource.flags mappedResourceAnonymous then .ok resource
    else if offsetInResource + (pageAlignSup size).toUInt64 ≤ offsetInResource then .error (-1)
    else .ok resource

/-- The mapping to insert: where, what, and the structure preallocated for it. -/
structure NewMapping where
  uaddr : UInt32
  size : UInt32
  accessRights : UInt32
  flags : UInt32
  resource : UvmmMappedResource
  offsetInResource : UInt64
  preId : Nat
deriving DecidableEq, Repr

/-- The arena of a mapping that is not merged, before its `mmap` callback ran. -/
def NewMapping.arena (m : NewMapping) : UvmmArena :=
  { id := m.preId, start := m.uaddr, size := m.size, accessRights := m.accessRights,
    flags := m.flags, ops := none, mappedResource := m.resource,
    offsetInResource := m.offsetInResource }

/-- `next_arena` and `prev_arena` of `uvmm_map`. -/
def mapNeighbours (l : List UvmmArena) (uaddr : UInt32) : Option UvmmArena × Option UvmmArena :=
  match findEnclosingOrNextArena l uaddr with
  | some next =>
    let prev := (arenasBefore l uaddr).getLast?.or l.getLast?
    (prev.filter fun a => !decide (a.start > uaddr), some next)
  | none => (l.getLast?, none)

/-- `merge_with_preceding`. -/
def mergeWithPreceding (m : NewMapping) (prev : UvmmArena) : Bool :=
  prev.mappedResource.addr == m.resource.addr &&
  prev.offsetInResource + prev.size.toUInt64 == m.offsetInResource &&
  prev.start + prev.size == m.uaddr &&
  prev.flags == m.flags && prev.accessRights == m.accessRights

/-- `merge_with_next`. -/
def mergeWithNext (m : NewMapping) (next : UvmmArena) : Bool :=
  next.mappedResource.addr == m.resource.addr &&
  m.offsetInResource + m.size.toUInt64 == next.offsetInResource &&
  m.uaddr + m.size == next.start &&
  next.flags == m.flags && next.accessRights == m.accessRights

/-- The end of `uvmm_map` after `arena` was widened or inserted. -/
def UvmmState.mapDone (E : UvmmEnv W) (s : UvmmState W) (m : NewMapping) (arena : UvmmArena)
    (usedPreallocatedArena : Bool) : Int × UInt32 × UvmmState W :=
  let s := { s with
    addressSpace := asAccountChangeOfArenaProt s.addressSpace (hasFlag arena.flags arenaMapShared)
      m.size 0 arena.accessRights }
  (0, m.uaddr, if usedPreallocatedArena then s else s.freePreallocated E m.preId)

/-- Insert a new arena in the address space. -/
def linkArena (prev : Option UvmmArena) (arena : UvmmArena) (l : List UvmmArena) : List UvmmArena :=
  match prev with
  | some prev => listInsertAfter prev.id arena l
  | none => arena :: l

/-- Insert a new arena after `prev` and call the resource's `mmap`. -/
def uvmmMapNew (E : UvmmEnv W) (s : UvmmState W) (m : NewMapping) (prev : Option UvmmArena) :
    Int × UInt32 × UvmmState W :=
  let arena := m.arena
  let l := linkArena prev arena s.addressSpace.listArena
  let (retval, ops, w) :=
    E.mmap (m.resource.mmap.getD 0) arena (E.resourceAddTail arena s.world)
  let arena := { arena with ops := ops }
  let s := { s.setList (modifyArena m.preId (fun a => { a with ops := ops }) l) with world := w }
  if retval ≠ 0 then
    let (retval, s) := uvmmUnmap E s arena.start arena.size
    (retval, 0, s)
  else
    { s with world := callOps arena.ops (fun o => E.ref o arena) s.world }.mapDone E m arena true

/-- `uvmm_map` once the address is chosen: merge with the neighbours or insert a new arena. Returns
the return value, `*uaddr` and the state. -/
def uvmmMapInsert (E : UvmmEnv W) (s : UvmmState W) (m : NewMapping) :
    Int × UInt32 × UvmmState W :=
  let l := s.addressSpace.listArena
  let (prev, next) := mapNeighbours l m.uaddr
  match prev.filter (mergeWithPreceding m), next.filter (mergeWithNext m) with
  | some prev, some next =>
    let l := modifyArena prev.id (fun a => { a with size := a.size + (m.size + next.size) }) l
    let w := callOps next.ops (fun o => E.unref o next) (E.resourceDelete next s.world)
    { s.setList (listDelete next.id l) with
      world := E.freeArena next w
      freed := next :: s.freed }.mapDone E m prev false
  | some prev, none =>
    (s.setList (modifyArena prev.id (fun a => { a with size := a.size + m.size }) l)).mapDone
      E m prev false
  | none, some next =>
    (s.setList (modifyArena next.id
      (fun a => { a with start := a.start - m.size, size := a.size + m.size }) l)).mapDone
      E m next false
  | none, none => uvmmMapNew E s m prev

/-- The mapping `uvmm_map` is asked for, at an address: sizes are rounded up, unsupported rights and flags
filtered out, and an anonymous resource is given the address as offset. -/
def askedMapping (uaddr size accessRights flags : UInt32) (resource : UvmmMappedResource)
    (offsetInResource : UInt64) (preId : Nat) : NewMapping where
  uaddr := uaddr
  size := pageAlignSup size
  accessRights := accessRights &&& (pRead ||| pWrite ||| pUser)
  flags := flags &&& (arenaMapShared ||| arenaMapFixed)
  resource := resource
  offsetInResource :=
    if !hasFlag flags internalMapCalledFromMremap && hasFlag resource.flags mappedResourceAnonymous
    then uaddr.toUInt64 else offsetInResource
  preId := preId

/-- `uvmm_map` after the structure of the mapping is preallocated: choose the address and insert the
mapping there. -/
def uvmmMapPlace (E : UvmmEnv W) (s : UvmmState W) (hintUaddr : UInt32)
    (mapping : UInt32 → NewMapping) : Int × UInt32 × UvmmState W :=
  let m := mapping hintUaddr
  if hasFlag m.flags arenaMapFixed then
    if hintUaddr < userOffset then (-1, 0, s.freePreallocated E m.preId)
    else if hintUaddr > pagingTopUserAddress - m.size then (-1, 0, s.freePreallocated E m.preId)
    else if (uvmmUnmap E s hintUaddr m.size).1 ≠ 0 then
      ((uvmmUnmap E s hintUaddr m.size).1, 0,
        (uvmmUnmap E s hintUaddr m.size).2.freePreallocated E m.preId)
    else uvmmMapInsert E (uvmmUnmap E s hintUaddr m.size).2 m
  else
    let uaddr := findFirstFreeInterval s.addressSpace.listArena hintUaddr m.size
    if uaddr = 0 then (-3, 0, s.freePreallocated E m.preId)
    else uvmmMapInsert E s (mapping uaddr)

def uvmmMap (E : UvmmEnv W) (s : UvmmState W) (hintUaddr size accessRights flags : UInt32)
    (resource : Option UvmmMappedResource) (offsetInResource : UInt64) :
    Int × UInt32 × UvmmState W :=
  match uvmmMapCheck hintUaddr size accessRights flags resource offsetInResource with
  | .error err => (err, 0, s)
  | .ok resource =>
    if !(s.allocArena E).1 then (-3, 0, (s.allocArena E).2)
    else
      uvmmMapPlace E (s.allocArena E).2 hintUaddr fun uaddr =>
        askedMapping uaddr size accessRights flags resource offsetInResource s.nextId

/-! ## `uvmm_resize` -/

/-- What `uvmm_resize` computes before it changes anything. -/
structure ResizePlan where
  arena : UvmmArena
  newSize : UInt32
  newOffsetInResource : UInt64
  mustMoveArena : Bool

/-- Other arenas would be affected by the resize, or it leaves user space. -/
def mustMoveArena (l : List UvmmArena) (arena : UvmmArena) (newUaddr newSize : UInt32) : Bool :=
  let prevArena := (prevInAs l arena.id).filter fun a => !decide (a.start ≥ arena.start)
  -- the source reads `arena->prev_in_as` here as well
  let nextArena := (prevInAs l arena.id).filter fun a => !decide (a.start ≤ arena.start)
  prevArena.any (fun a => decide (a.start + a.size > newUaddr)) ||
    nextArena.any (fun a => decide (a.start < newUaddr + newSize)) ||
    !pagingIsUserArea newUaddr newSize

/-- The offset of the resized arena. -/
def resizeOffset (arena : UvmmArena) (newUaddr : UInt32) : UInt64 :=
  if arena.start > newUaddr then arena.offsetInResource - (arena.start - newUaddr).toUInt64
  else arena.offsetInResource + (newUaddr - arena.start).toUInt64

def uvmmResizePlan (l : List UvmmArena) (oldUaddr oldSize newUaddr newSize flags : UInt32) :
    Except Int ResizePlan :=
  if !pagingIsUserArea newUaddr newSize then .error (-1)
  else if !isPageAligned newUaddr then .error (-1)
  else if newSize ≤ 0 then .error (-1)
  else match findFirstIntersectingArena l (pageAlignInf oldUaddr) (pageAlignSup oldSize) with
  | none => .error (-1)
  | some arena =>
    if arena.start > pageAlignInf oldUaddr ∨
        arena.start + arena.size < pageAlignInf oldUaddr + pageAlignSup oldSize then .error (-1)
    else if newUaddr < arena.start ∧
        (arena.start - newUaddr).toUInt64 > arena.offsetInResource then .error (-1)
    else if mustMoveArena l arena newUaddr (pageAlignSup newSize) &&
        !hasFlag flags arenaRemapMaymove then .error (-1)
    else .ok
      { arena := arena
        newSize := pageAlignSup newSize
        newOffsetInResource := resizeOffset arena newUaddr
        mustMoveArena := mustMoveArena l arena newUaddr (pageAlignSup newSize) }

/-- The arena structure at `id`, on the list or freed. -/
def UvmmState.arenaAt (s : UvmmState W) (id : Nat) : Option UvmmArena :=
  (s.addressSpace.listArena ++ s.freed).find? (·.id = id)

/-- Assignment through a pointer to an arena structure. -/
def UvmmState.modifyAt (s : UvmmState W) (id : Nat) (f : UvmmArena → UvmmArena) : UvmmState W :=
  { s.setList (modifyArena id f s.addressSpace.listArena) with freed := modifyArena id f s.freed }

/-- The loop that maps the pages of `arena` at their new addresses, `fuel` pages at most. Returns the
first error of `paging_map`. -/
def remapPages (E : UvmmEnv W) (arena : UvmmArena) (newUaddr newSize resultUaddr : UInt32) :
    Nat → UInt32 → W → UInt32 × W
  | 0, _, w => (0, w)
  | fuel + 1, uaddr, w =>
    if ¬ uaddr < arena.start + arena.size then (0, w)
    else if uaddr < newUaddr ∨ uaddr > newUaddr + newSize then
      remapPages E arena newUaddr newSize resultUaddr fuel (uaddr + pageSize) w
    else
      let vaddr := if arena.start ≥ newUaddr then
          resultUaddr + (uaddr - arena.start) + (arena.start - newUaddr)
        else resultUaddr + (uaddr - arena.start) - (newUaddr - arena.start)
      let paddr := E.pagingVirtualToPhysical uaddr w
      if paddr = 0 then
        remapPages E arena newUaddr newSize resultUaddr fuel (uaddr + pageSize) w
      else
        let (retval, w) := E.pagingMap vaddr paddr true w
        if retval ≠ 0 then (retval, w)
        else remapPages E arena newUaddr newSize resultUaddr fuel (uaddr + pageSize) w

/-- The arena must be moved: map the resource elsewhere and unmap the current arena. -/
def uvmmResizeMove (E : UvmmEnv W) (s : UvmmState W) (newUaddr : UInt32) (p : ResizePlan) :
    Int × UInt32 × UvmmState W :=
  let (retval, resultUaddr, s) := uvmmMap E s newUaddr p.newSize p.arena.accessRights
    (p.arena.flags ||| internalMapCalledFromMremap) (some p.arena.mappedResource)
    p.newOffsetInResource
  if retval ≠ 0 then (retval, newUaddr, s)
  else
    let arena := (s.arenaAt p.arena.id).getD p.arena
    let (err, w) := remapPages E arena newUaddr p.newSize resultUaddr
      ((arena.size.toNat + 4095) / 4096) arena.start s.world
    let s := { s with world := w }
    if err ≠ 0 then
      (err.toInt32.toInt, newUaddr, (uvmmUnmap E s resultUaddr p.newSize).2)
    else
      let (retval, s) := uvmmUnmap E s arena.start arena.size
      if retval ≠ 0 then (retval, newUaddr, (uvmmUnmap E s resultUaddr p.newSize).2)
      else (0, resultUaddr, s)

/-- The first half of an in-place resize: the end of the arena. -/
def uvmmResizeEnd (E : UvmmEnv W) (s : UvmmState W) (newUaddr : UInt32) (p : ResizePlan) :
    UvmmState W :=
  let arenaEnd := p.arena.start + p.arena.size
  let newEnd := newUaddr + p.newSize
  if newEnd < arenaEnd then (uvmmUnmap E s newEnd (arenaEnd - newEnd)).2
  else
    let s := { s with
      addressSpace := asAccountChangeOfArenaProt s.addressSpace
        (hasFlag p.arena.flags arenaMapShared) (newEnd - arenaEnd) 0 p.arena.accessRights }
    s.modifyAt p.arena.id fun a => { a with size := a.size + (newEnd - (a.start + a.size)) }

/-- The second half: the start of the arena. -/
def uvmmResizeStart (E : UvmmEnv W) (s : UvmmState W) (newUaddr : UInt32) (p : ResizePlan) :
    UvmmState W :=
  let arena := (s.arenaAt p.arena.id).getD p.arena
  if newUaddr > arena.start then (uvmmUnmap E s arena.start (newUaddr - arena.start)).2
  else
    let s := { s with
      addressSpace := asAccountChangeOfArenaProt s.addressSpace
        (hasFlag arena.flags arenaMapShared) (arena.start - newUaddr) 0 arena.accessRights }
    s.modifyAt p.arena.id fun a => { a with
      size := a.size + (a.start - newUaddr)
      start := newUaddr
      offsetInResource := p.newOffsetInResource }

/-- Returns the return value, `*new_uaddr` and the state. -/
def uvmmResize (E : UvmmEnv W) (s : UvmmState W) (oldUaddr oldSize newUaddr newSize flags : UInt32) :
    Int × UInt32 × UvmmState W :=
  match uvmmResizePlan s.addressSpace.listArena oldUaddr oldSize newUaddr newSize flags with
  | .error err => (err, newUaddr, s)
  | .ok p =>
    if p.mustMoveArena then uvmmResizeMove E s newUaddr p
    else (0, newUaddr, uvmmResizeStart E (uvmmResizeEnd E s newUaddr p) newUaddr p)

/-! ## `uvmm_brk` -/

/-- `dev_zero_map` (`drivers/zero.c`). -/
def devZeroMap (E : UvmmEnv W) (s : UvmmState W) (uaddr size accessRights flags : UInt32) :
    Int × UInt32 × UvmmState W :=
  match E.kmallocZeroResource s.world with
  | (none, w) => (-3, uaddr, { s with world := w })
  | (some addr, w) =>
    let resource : UvmmMappedResource :=
      ⟨addr, pRead ||| pWrite ||| pUser, mappedResourceAnonymous, some E.zeroMmap⟩
    let (retval, uaddr, s) :=
      uvmmMap E { s with world := w } uaddr size accessRights flags (some resource) 0
    if retval ≠ 0 then (retval, uaddr, { s with world := E.kfreeZeroResource addr s.world })
    else (0, uaddr, s)

def UvmmState.setHeap (s : UvmmState W) (heapStart heapSize : UInt32) : UvmmState W :=
  { s with addressSpace := { s.addressSpace with heapStart := heapStart, heapSize := heapSize } }

/-- Returns the new top, or `0`. -/
def uvmmBrk (E : UvmmEnv W) (s : UvmmState W) (newTopUaddr : UInt32) : UInt32 × UvmmState W :=
  let heapStart := s.addressSpace.heapStart
  let heapSize := s.addressSpace.heapSize
  if newTopUaddr = 0 then (heapStart + heapSize, s)
  else if newTopUaddr = heapStart + heapSize then (heapStart + heapSize, s)
  else if newTopUaddr < heapStart then (0, s)
  else
    let newTopUaddr := pageAlignSup newTopUaddr
    let newSize := newTopUaddr - heapStart
    if heapSize = 0 then
      -- `dev_zero_map` writes the address it maps at, or `0`, to `as->heap_start`
      let (retval, uaddr, s) := devZeroMap E s heapStart newSize (pRead ||| pWrite) 0
      let s := s.setHeap uaddr s.addressSpace.heapSize
      if retval ≠ 0 then (0, s)
      else (uaddr + newSize, s.setHeap uaddr newSize)
    else if newSize ≤ 0 then
      let (retval, s) := uvmmUnmap E s heapStart heapSize
      if retval ≠ 0 then (0, s)
      else (newTopUaddr, s.setHeap s.addressSpace.heapStart newSize)
    else
      let (retval, _, s) := uvmmResize E s heapStart heapSize heapStart newSize 0
      if retval ≠ 0 then (0, s)
      else (newTopUaddr, s.setHeap s.addressSpace.heapStart newSize)

/-! ## A concrete environment -/

/-- Every allocation and callback succeeds and changes nothing. -/
def quietEnv : UvmmEnv Unit where
  allocArena := fun _ => (true, ())
  freeArena := fun _ _ => ()
  kmallocZeroResource := fun _ => (some 1, ())
  kfreeZeroResource := fun _ _ => ()
  zeroMmap := 1
  mmap := fun _ _ _ => (0, some 1, ())
  ref := fun _ _ _ => ()
  unref := fun _ _ _ => ()
  unmap := fun _ _ _ _ _ => ()
  noPage := fun _ _ _ _ _ => (0, ())
  resourceAddTail := fun _ _ => ()
  resourceDelete := fun _ _ => ()
  pagingUnmapInterval := fun _ size _ => (size, ())
  pagingVirtualToPhysical := fun _ _ => 0
  pagingMap := fun _ _ _ _ => (0, ())

/-- A resource of `/dev/zero`, and one of a file. -/
def zeroResource : UvmmMappedResource := ⟨1, 7, mappedResourceAnonymous, some 1⟩

def fileResource : UvmmMappedResource := ⟨2, 7, 0, some 1⟩

end Desiros.Mem
