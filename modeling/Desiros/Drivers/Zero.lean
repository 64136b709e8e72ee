import Desiros.Mem.Paging
import Desiros.Mem.PageFault

/-!
# The `/dev/zero` resource (`drivers/zero.c`)

`zeroNoPage` resolves the page faults of anonymous memory: a write fault gets a new page of zeros, a read
fault the page `zero_page` that everybody shares, and in a shared arena both get the page listed for their
page id, if there is one. `userAccess` is one access of a user program: the processor goes through the
page table, and to `uvmm_lazy_loading` when the entry does not permit the access.
-/

namespace Desiros.Drivers

open Desiros.Library Desiros.Mem

/-- `struct zero_mapped_page`. -/
structure ZeroMappedPage where
  pageId : UInt32
  ppagePaddr : UInt32
deriving DecidableEq, Repr

/-- Physical memory, the page tables of all processes, and the `/dev/zero` resources. -/
structure ZeroWorld where
  physmem : Physmem
  /-- The bytes of a physical page. -/
  mem : UInt32 → UInt32 → UInt8
  zeroPage : UInt32
  pageTables : Nat → UInt32 → Pte
  /-- `current`. -/
  current : Nat
  /-- `list_mapped_pages` of the resource at an address. -/
  listMappedPages : Nat → List ZeroMappedPage
  /-- Whether `kvmm_cache_alloc(cache_of_zero_mapped_pages, 0)` succeeds. -/
  cacheAllocOk : Bool

def ZeroWorld.paging (w : ZeroWorld) : Paging := ⟨w.physmem, w.pageTables w.current⟩

def ZeroWorld.setPaging (w : ZeroWorld) (g : Paging) : ZeroWorld :=
  { w with
    physmem := g.physmem
    pageTables := Function.update w.pageTables w.current g.pte }

/-- `paging_map` in the current process. -/
def ZeroWorld.pagingMap (w : ZeroWorld) (virt physical : UInt32) (user : Bool) : UInt32 × ZeroWorld :=
  ((Mem.pagingMap w.paging virt physical user).1,
    w.setPaging (Mem.pagingMap w.paging virt physical user).2)

/-- `memset((void*) virt, 0x0, PAGE_SIZE)` in the current process. -/
def ZeroWorld.memsetPage (w : ZeroWorld) (virt : UInt32) : ZeroWorld :=
  { w with mem := Function.update w.mem (w.pageTables w.current virt).paddr fun _ => 0 }

def ZeroWorld.unrefPhyspage (w : ZeroWorld) (ppagePaddr : UInt32) : ZeroWorld :=
  { w with physmem := (physmemUnrefPhyspage w.physmem ppagePaddr).2 }

def insertAnonymousPhyspage (w : ZeroWorld) (mr : Nat) (ppagePaddr pageId : UInt32) : Int × ZeroWorld :=
  if !w.cacheAllocOk then (-3, w)
  else
    (0, { w with
      listMappedPages := Function.update w.listMappedPages mr
        (⟨pageId, ppagePaddr⟩ :: w.listMappedPages mr)
      physmem := (physmemRefPhyspageAt w.physmem ppagePaddr).2 })

/-- Returns `0` when no page is listed for the id. -/
def lookupAnonymousPhyspage (w : ZeroWorld) (mr : Nat) (pageId : UInt32) : UInt32 :=
  match (w.listMappedPages mr).find? (·.pageId == pageId) with
  | some zmp => zmp.ppagePaddr
  | none => 0

/-- `required_page_id`. -/
def requiredPageId (arena : UvmmArena) (uaddr : UInt32) : UInt32 :=
  (((pageAlignInf uaddr - arena.start).toUInt64 + arena.offsetInResource)).toUInt32

def isShared (arena : UvmmArena) : Bool := hasFlag arena.flags arenaMapShared

/-- A write access gets a page of its own. -/
def zeroNewPage (arena : UvmmArena) (uaddr : UInt32) (w : ZeroWorld) : Int × ZeroWorld :=
  let ppagePaddr := (physmemRefPhyspageNew w.physmem).1
  let w := { w with physmem := (physmemRefPhyspageNew w.physmem).2 }
  if ppagePaddr = 0 then (-3, w)
  else
    let (retval, w) := w.pagingMap (pageAlignInf uaddr) ppagePaddr true
    if retval ≠ 0 then (retval.toInt32.toInt, w.unrefPhyspage ppagePaddr)
    else
      let w := w.memsetPage (pageAlignInf uaddr)
      let w := if isShared arena then
          (insertAnonymousPhyspage w arena.mappedResource.addr ppagePaddr
            (requiredPageId arena uaddr)).2
        else w
      (0, w.unrefPhyspage ppagePaddr)

/-- `paging_map` of a page that exists. -/
def zeroMapPage (uaddr ppagePaddr : UInt32) (w : ZeroWorld) : Int × ZeroWorld :=
  let (retval, w) := w.pagingMap (pageAlignInf uaddr) ppagePaddr true
  (retval.toInt32.toInt, w)

/-- The page listed for an address of a shared arena, `0` if there is none. -/
def sharedPage (arena : UvmmArena) (uaddr : UInt32) (w : ZeroWorld) : UInt32 :=
  if isShared arena then
    lookupAnonymousPhyspage w arena.mappedResource.addr (requiredPageId arena uaddr)
  else 0

def zeroNoPage (arena : UvmmArena) (uaddr : UInt32) (writeAccess : Bool) (w : ZeroWorld) :
    Int × ZeroWorld :=
  if sharedPage arena uaddr w ≠ 0 then zeroMapPage uaddr (sharedPage arena uaddr w) w
  else if writeAccess then zeroNewPage arena uaddr w
  else zeroMapPage uaddr w.zeroPage w

/-! ## Accesses of user programs -/

/-- An access to a byte; `written` is the byte of a write. -/
structure Access where
  process : Nat
  uaddr : UInt32
  written : Option UInt8
  /-- What `kvmm_cache_alloc` answers if the access calls it. -/
  cacheAllocOk : Bool := true

def Access.isWrite (x : Access) : Bool := x.written.isSome

structure ZeroSystem where
  addressSpaces : Nat → Option UvmmAs
  world : ZeroWorld

/-- The page-table entry of an address. -/
def ZeroWorld.entry (w : ZeroWorld) (process : Nat) (uaddr : UInt32) : Pte :=
  w.pageTables process (pageAlignInf uaddr)

/-- A user access is permitted. -/
def Pte.allows (e : Pte) (isWrite : Bool) : Bool := e.present && e.user && (!isWrite || e.writable)

/-- The access itself: the byte read or written, and the memory. -/
def Access.perform (x : Access) (paddr : UInt32) (w : ZeroWorld) : UInt8 × ZeroWorld :=
  match x.written with
  | none => (w.mem paddr (vaddrPgOffset x.uaddr), w)
  | some v => (v, { w with
      mem := Function.update w.mem paddr
        (Function.update (w.mem paddr) (vaddrPgOffset x.uaddr) v) })

/-- `uvmm_lazy_loading` when all arenas are of `/dev/zero`. -/
def zeroEnv (E : UvmmEnv ZeroWorld) : UvmmEnv ZeroWorld := { E with noPage := fun _ => zeroNoPage }

/-- The page fault of an access. -/
def ZeroSystem.fault (E : UvmmEnv ZeroWorld) (s : ZeroSystem) (x : Access) : FaultResult ZeroWorld :=
  uvmmLazyLoading (zeroEnv E)
    { current := some (s.addressSpaces x.process)
      world := { s.world with current := x.process, cacheAllocOk := x.cacheAllocOk } }
    x.uaddr x.isWrite true

/-- The system after a page fault. -/
def ZeroSystem.afterFault (s : ZeroSystem) (x : Access) (r : FaultResult ZeroWorld) : ZeroSystem :=
  { addressSpaces := Function.update s.addressSpaces x.process r.state.current.join
    world := r.state.world }

/-- The byte read or written, `none` if the access cannot be completed. -/
def userAccess (E : UvmmEnv ZeroWorld) (s : ZeroSystem) (x : Access) : Option UInt8 × ZeroSystem :=
  if Pte.allows (s.world.entry x.process x.uaddr) x.isWrite then
    let (v, w) := x.perform (s.world.entry x.process x.uaddr).paddr s.world
    (some v, { s with world := w })
  else
    let r := s.fault E x
    let s := s.afterFault x r
    if r.retval = 0 ∧ Pte.allows (s.world.entry x.process x.uaddr) x.isWrite then
      let (v, w) := x.perform (s.world.entry x.process x.uaddr).paddr s.world
      (some v, { s with world := w })
    else (none, s)

/-- What happens in the system: a user access, or another part of the kernel takes a physical page. -/
inductive ZeroOp
  | access (x : Access)
  | takePage

/-- A completed access: `written` tells the writes, `value` is the byte read or written. -/
structure Event where
  process : Nat
  uaddr : UInt32
  isWrite : Bool
  value : UInt8
deriving DecidableEq, Repr

/-- The system and the completed accesses, the latest first. -/
structure ZeroRun where
  system : ZeroSystem
  events : List Event

def zeroStep (E : UvmmEnv ZeroWorld) (t : ZeroRun) : ZeroOp → ZeroRun
  | .access x =>
    let (v, s) := userAccess E t.system x
    { system := s
      events := match v with
        | some v => ⟨x.process, x.uaddr, x.isWrite, v⟩ :: t.events
        | none => t.events }
  | .takePage =>
    { t with system := { t.system with world := { t.system.world with
        physmem := (physmemRefPhyspageNew t.system.world.physmem).2 } } }

end Desiros.Drivers
