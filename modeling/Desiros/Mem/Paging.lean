import Desiros.Mem.Physmem

/-!
# Page tables (`mem/paging.c`)

The entries of the page directory in use, by the address of the virtual page, with the physical pages they
refer to. The page tables themselves exist: `paging_init` fills those of the kernel, `paging_pd_add_pt`
adds one before a page fault is resolved.
-/

namespace Desiros.Mem

open Desiros.Library

/-- A page-table entry. `paddr` is the address put into it, whose page is the one referred to. -/
structure Pte where
  paddr : UInt32
  present : Bool
  writable : Bool
  user : Bool
deriving DecidableEq, Repr

/-- The physical page an entry refers to. -/
def Pte.frame (e : Pte) : UInt32 := pageAlignInf e.paddr

structure Paging where
  physmem : Physmem
  pte : UInt32 → Pte

/-- `VADDR_PG_OFFSET`. -/
def vaddrPgOffset (addr : UInt32) : UInt32 := addr &&& 0x00000FFF

/-- Every page is mapped writable. The flags are set in the address, which is not checked. -/
def pagingMap (g : Paging) (virt physical : UInt32) (user : Bool) : UInt32 × Paging :=
  (0, { physmem := (physmemRefPhyspageAt g.physmem physical).2
        pte := Function.update g.pte (pageAlignInf virt)
          ⟨physical, true, true, user || physical &&& 4 != 0⟩ })

/-- The physical address, `0` if the page is absent. -/
def pagingVirtualToPhysical (g : Paging) (virt : UInt32) : UInt32 :=
  if (g.pte (pageAlignInf virt)).present then
    (g.pte (pageAlignInf virt)).frame + vaddrPgOffset virt
  else 0

def pagingUnmap (g : Paging) (virt : UInt32) : UInt32 × Paging :=
  if virt &&& 0xfff ≠ 0 then (1, g)
  else
    (0, { physmem := (physmemUnrefPhyspage g.physmem (pagingVirtualToPhysical g virt)).2
          pte := Function.update g.pte (pageAlignInf virt)
            { g.pte (pageAlignInf virt) with present := false } })

/-- The loop of `paging_unmap_interval` over `n` pages. -/
def pagingUnmapLoop : Nat → UInt32 → UInt32 → Paging → UInt32 × Paging
  | 0, _, retval, g => (retval, g)
  | n + 1, vaddr, retval, g =>
    let (r, g) := pagingUnmap g vaddr
    pagingUnmapLoop n (vaddr + pageSize) (if 0 = r then retval + pageSize else retval) g

/-- The result is an `int`, here the word that holds it. -/
def pagingUnmapInterval (g : Paging) (vaddr size : UInt32) : UInt32 × Paging :=
  if !isPageAligned vaddr then (-1, g)
  else if !isPageAligned size then (-1, g)
  else pagingUnmapLoop (size / pageSize).toNat vaddr 0 g

theorem pageAlignInf_pageAlignInf (v : UInt32) : pageAlignInf (pageAlignInf v) = pageAlignInf v := by
  have h : ∀ v, (pageAlignInf v).toNat = v.toNat / 4096 * 4096 := toNat_alignInf
  rw [word_eq_iff, h, h]
  omega

end Desiros.Mem
