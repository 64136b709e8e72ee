import Desiros.Drivers.AnonymousRuns
import Desiros.Mem.Resident

/-!
# The resident set of anonymous memory

`zeroNoPage` meets the contract of a `no_page` callback: a fault it resolves maps the page of the fault, and nothing
else. So `phys_total` counts the resident set of address spaces of anonymous memory, as long as only present pages are
unmapped; an unmapped page that was never touched takes it below zero.
-/

namespace Desiros.Drivers

open Desiros.Library Desiros.Mem

/-- `paging_unmap_interval` in the current process. -/
def ZeroWorld.pagingUnmapInterval (w : ZeroWorld) (vaddr size : UInt32) : UInt32 × ZeroWorld :=
  ((Mem.pagingUnmapInterval w.paging vaddr size).1,
    w.setPaging (Mem.pagingUnmapInterval w.paging vaddr size).2)

/-- All paging functions are those of the current process. -/
def zeroPagedEnv : UvmmEnv ZeroWorld :=
  { zeroQuietEnv with pagingUnmapInterval := fun vaddr size w => w.pagingUnmapInterval vaddr size }

@[simp] theorem paging_setPaging (w : ZeroWorld) (g : Paging) : (w.setPaging g).paging = g := by
  simp only [ZeroWorld.paging, ZeroWorld.setPaging, Function.update_self]

theorem paging_showPage (w : ZeroWorld) (uaddr f : UInt32) (m : Physmem) (v : UInt32) :
    ((w.showPage uaddr f m).paging.pte v).present = true ↔
      (w.paging.pte v).present = true ∨ v = pageAlignInf uaddr := by
  simp only [ZeroWorld.paging, ZeroWorld.showPage, Function.update_self]
  by_cases hv : v = pageAlignInf uaddr
  · subst hv
    simp only [Function.update_self, or_true]
  · simp only [Function.update_of_ne hv, hv, or_false]

theorem insertAnonymousPhyspage_pte (w : ZeroWorld) (mr : Nat) (ppagePaddr pageId : UInt32) :
    (insertAnonymousPhyspage w mr ppagePaddr pageId).2.paging.pte = w.paging.pte := by
  unfold insertAnonymousPhyspage
  split_ifs <;> rfl

/-- **A fault of anonymous memory maps the page of the fault**, or none. -/
theorem zeroNoPage_present (a : UvmmArena) (uaddr : UInt32) (writeAccess : Bool) (w : ZeroWorld) (v : UInt32) :
    ((zeroNoPage a uaddr writeAccess w).2.paging.pte v).present = true ↔
      (w.paging.pte v).present = true ∨ (zeroNoPage a uaddr writeAccess w).1 = 0 ∧ v = pageAlignInf uaddr := by
  have hmap : ∀ f, ((zeroMapPage uaddr f w).2.paging.pte v).present = true ↔
      (w.paging.pte v).present = true ∨ (zeroMapPage uaddr f w).1 = 0 ∧ v = pageAlignInf uaddr := by
    intro f
    rw [zeroMapPage_eq, paging_showPage]
    simp only [true_and]
  unfold zeroNoPage
  split_ifs
  · exact hmap _
  · unfold zeroNewPage
    dsimp only
    split_ifs with h0 h1 h2
    · have hret : ¬ ((-3 : Int) = 0 ∧ v = pageAlignInf uaddr) := fun h => absurd h.1 (by decide)
      exact (or_iff_left hret).symm
    · exact absurd (by rw [pagingMap_eq]) h1
    · rw [pagingMap_eq]
      have hpte : ∀ w' : ZeroWorld, ((w'.unrefPhyspage (physmemRefPhyspageNew w.physmem).1).paging.pte v).present =
          (w'.paging.pte v).present := fun _ => rfl
      rw [hpte, insertAnonymousPhyspage_pte]
      have hshow := paging_showPage { w with physmem := (physmemRefPhyspageNew w.physmem).2 } uaddr
        (physmemRefPhyspageNew w.physmem).1
        (physmemRefPhyspageAt (physmemRefPhyspageNew w.physmem).2 (physmemRefPhyspageNew w.physmem).1).2 v
      simp only [true_and]
      exact hshow
    · rw [pagingMap_eq]
      have hshow := paging_showPage { w with physmem := (physmemRefPhyspageNew w.physmem).2 } uaddr
        (physmemRefPhyspageNew w.physmem).1
        (physmemRefPhyspageAt (physmemRefPhyspageNew w.physmem).2 (physmemRefPhyspageNew w.physmem).1).2 v
      simp only [true_and]
      exact hshow
  · exact hmap _

theorem zeroPagedEnv_paged : PagedEnv zeroPagedEnv ZeroWorld.paging where
  unmapInterval := fun _ _ _ => ⟨rfl, paging_setPaging _ _⟩
  noPage := fun _ a uaddr writeAccess w v _ => zeroNoPage_present a uaddr writeAccess w v
  allocArena := fun _ => .refl _
  freeArena := fun _ _ => .refl _
  mmap := fun _ _ _ => .refl _
  ref := fun _ _ _ => .refl _
  unref := fun _ _ _ => .refl _
  unmap := fun _ _ _ _ _ => .refl _
  resourceAddTail := fun _ _ => .refl _
  resourceDelete := fun _ _ => .refl _

/-! ## A page mapped, touched and unmapped -/

def mapOnePage : ResidentOp := .map 0x40000000 0x1000 3 0 (some zeroResource) 0

theorem uvmm_runs_resident_onePage : Guarded (residentStep zeroPagedEnv) (ResidentLaw zeroPagedEnv ZeroWorld.paging)
    (uvmmCreateEmptyAs freshWorld) [mapOnePage, .fault 0x40000123 true true, .unmap 0x40000000 0x1000] := by
  apply uvmm_runs_resident zeroPagedEnv ZeroWorld.paging zeroPagedEnv_paged freshWorld (fun _ _ => rfl)
  refine ⟨?_, ?_, ?_, trivial⟩
  · intro res hcheck _
    obtain rfl : zeroResource = res := Except.ok.inj (hcheck.symm.trans rfl).symm
    dsimp only
    rw [if_neg (by decide)]
    refine ⟨?_, fun _ => .inr (.inr rfl)⟩
    rw [MapGood, if_neg (by decide)]
    exact .inr (.inl ⟨_, findable_hint fun a ha => absurd ha List.not_mem_nil⟩)
  · intro a ha _
    have hone : findFirstIntersectingArena (residentStep zeroPagedEnv (uvmmCreateEmptyAs freshWorld)
      mapOnePage).addressSpace.listArena 0x40000123 1 = some ⟨0, 0x40000000, 0x1000, 3, 0, some 1, zeroResource,
        0x40000000⟩ := by decide
    obtain rfl := Option.some.inj (hone.symm.trans ha)
    exact ⟨by decide, rfl⟩
  · intro _ v hv h1 h2
    have haligned : v.toNat % 4096 = 0 := (isAligned_iff v).mp hv
    have hlo : (0x40000000 : UInt32).toNat = 1073741824 := rfl
    have hhi : (pageAlignSup 0x1000).toNat = 4096 := by decide
    rw [hlo] at h1
    rw [hlo, hhi] at h2
    obtain rfl : v = 0x40000000 := by
      rw [word_eq_iff, hlo]
      omega
    exact ⟨⟨by decide, by decide⟩, ⟨_, List.mem_singleton.mpr rfl, by decide⟩, by decide⟩

/-- Unmapped without a touch, the page takes `phys_total` below zero. -/
theorem phys_total_wraps : ¬ ∀ (E : UvmmEnv ZeroWorld) (w : ZeroWorld), PagedEnv E ZeroWorld.paging →
    (∀ v, UserPage v → (w.paging.pte v).present = false) → ∀ ops : List ResidentOp,
      Guarded (residentStep E) (ResidentLaw E ZeroWorld.paging) (uvmmCreateEmptyAs w) ops := by
  intro h
  obtain ⟨_, ⟨_, hwrap⟩, _⟩ := h zeroPagedEnv freshWorld zeroPagedEnv_paged (fun _ _ => rfl)
    [mapOnePage, .unmap 0x40000000 0x1000]
  have hle := hwrap (by simp)
  revert hle
  decide

end Desiros.Drivers
