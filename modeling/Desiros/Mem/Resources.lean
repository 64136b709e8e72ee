import Desiros.Library.RefCount
import Desiros.Mem.Uvmm

/-!
# Mapped resources (`drivers/zero.c`, `elf32.c`, `uvmm_delete_as`)

The two kinds of resources that user space maps, `/dev/zero` and a program, count the arenas that refer to them in
`ref_cnt` and free themselves with the last one; `uvmm.c` keeps these arenas on the `list_arena` of the resource.
`resourceEnv` is what `uvmm.c` calls in address space `k` when all resources are of these kinds; everything but the
resources is left to an environment for the rest of the kernel.
-/

namespace Desiros.Mem

open Desiros.Library

variable {V W : Type}

/-- An arena structure: its address space, and its `id` there. -/
structure ArenaPtr where
  space : Nat
  id : Nat
deriving DecidableEq, Repr

/-- The resources, by their addresses, and the rest of the kernel. -/
structure ResourceWorld (V : Type) where
  resource : Nat → Counter ArenaPtr
  /-- The physical pages on the `list_mapped_pages` of a `/dev/zero` resource. -/
  listMappedPages : Nat → List UInt32
  rest : V

/-- The addresses of the callbacks, and what they and `uvmm_delete_as` call. -/
structure ResourceCalls (V : Type) where
  zeroMmap : Nat
  zeroOps : Nat
  elf32progMmap : Nat
  elf32progOps : Nat
  physmemUnrefPhyspage : UInt32 → V → V
  /-- `kvmm_cache_free((__u32) arena)` and `kvmm_cache_free((__u32) as)`. -/
  kvmmCacheFreeArena : UvmmArena → V → V
  kvmmCacheFreeAs : V → V

/-! ## Callbacks -/

namespace ResourceWorld

def update (w : ResourceWorld V) (r : Nat) (f : Counter ArenaPtr → Counter ArenaPtr) : ResourceWorld V :=
  { w with resource := updateCounter w.resource r f }

def setRest (w : ResourceWorld V) (v : V) : ResourceWorld V := { w with rest := v }

/-- `ref_cnt ++` of the resource of an arena. -/
def ref (arena : UvmmArena) (w : ResourceWorld V) : ResourceWorld V := w.update arena.mappedResource.addr (·.ref)

/-- `ref_cnt --`, and `kfree` of a resource that becomes unused. -/
def unref (arena : UvmmArena) (w : ResourceWorld V) : ResourceWorld V := w.update arena.mappedResource.addr (·.unref)

end ResourceWorld

def zeroRef (arena : UvmmArena) (w : ResourceWorld V) : ResourceWorld V := w.ref arena

def elf32progRef (arena : UvmmArena) (w : ResourceWorld V) : ResourceWorld V := w.ref arena

def elf32progUnref (arena : UvmmArena) (w : ResourceWorld V) : ResourceWorld V := w.unref arena

/-- A resource that becomes unused gives its pages back. -/
def zeroUnref (C : ResourceCalls V) (arena : UvmmArena) (w : ResourceWorld V) : ResourceWorld V :=
  let r := arena.mappedResource.addr
  let w := w.unref arena
  if (w.resource r).refCnt = 0 then
    { w with
      listMappedPages := Function.update w.listMappedPages r []
      rest := (w.listMappedPages r).foldl (fun v ppagePaddr => C.physmemUnrefPhyspage ppagePaddr v) w.rest }
  else w

/-- `list_add_tail_named` and `list_delete_named` on the `list_arena` of the resource. -/
def resourceAddTail (k : Nat) (arena : UvmmArena) (w : ResourceWorld V) : ResourceWorld V :=
  w.update arena.mappedResource.addr (·.addHolder ⟨k, arena.id⟩)

def resourceDelete (k : Nat) (arena : UvmmArena) (w : ResourceWorld V) : ResourceWorld V :=
  w.update arena.mappedResource.addr (·.deleteHolder ⟨k, arena.id⟩)

/-- What `uvmm.c` calls in address space `k`; the tables of both kinds have no `unmap`. -/
def resourceEnv (B : UvmmEnv V) (C : ResourceCalls V) (k : Nat) : UvmmEnv (ResourceWorld V) where
  allocArena w := ((B.allocArena w.rest).1, w.setRest (B.allocArena w.rest).2)
  freeArena arena w := w.setRest (B.freeArena arena w.rest)
  kmallocZeroResource w := ((B.kmallocZeroResource w.rest).1, w.setRest (B.kmallocZeroResource w.rest).2)
  kfreeZeroResource r w := w.setRest (B.kfreeZeroResource r w.rest)
  zeroMmap := C.zeroMmap
  mmap m _ w := (0, some (if m = C.zeroMmap then C.zeroOps else C.elf32progOps), w)
  ref o arena w := if o = C.zeroOps then zeroRef arena w else elf32progRef arena w
  unref o arena w := if o = C.zeroOps then zeroUnref C arena w else elf32progUnref arena w
  unmap _ _ _ _ w := w
  noPage o arena uaddr writeAccess w :=
    ((B.noPage o arena uaddr writeAccess w.rest).1, w.setRest (B.noPage o arena uaddr writeAccess w.rest).2)
  resourceAddTail := resourceAddTail k
  resourceDelete := resourceDelete k
  pagingUnmapInterval uaddr size w :=
    ((B.pagingUnmapInterval uaddr size w.rest).1, w.setRest (B.pagingUnmapInterval uaddr size w.rest).2)
  pagingVirtualToPhysical uaddr w := B.pagingVirtualToPhysical uaddr w.rest
  pagingMap virt physical user w :=
    ((B.pagingMap virt physical user w.rest).1, w.setRest (B.pagingMap virt physical user w.rest).2)

/-! ## `uvmm_delete_as` -/

/-- An arena at the head of the list. -/
def deleteArena (E : UvmmEnv W) (cacheFree : UvmmArena → W → W) (w : W) (arena : UvmmArena) : W :=
  let w := E.resourceDelete arena w
  let w := callOps arena.ops (fun o => E.unmap o arena arena.start arena.size) w
  cacheFree arena (callOps arena.ops (fun o => E.unref o arena) w)

def uvmmDeleteAs (E : UvmmEnv W) (cacheFreeArena : UvmmArena → W → W) (cacheFreeAs : W → W) (s : UvmmState W) : W :=
  cacheFreeAs (s.addressSpace.listArena.foldl (deleteArena E cacheFreeArena) s.world)

end Desiros.Mem
