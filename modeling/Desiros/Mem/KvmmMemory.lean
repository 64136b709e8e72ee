import Desiros.Mem.KmallocInvariant
import Desiros.Mem.KvmmFails
import Desiros.Mem.KvmmRules

/-!
# Kernel ranges in a kernel that runs out of memory

From `kvmm_setup` on, whatever ranges are requested and deleted and whatever the rest of the kernel does with the
physical pages, a call of `kvmm_new_range` that finds no page any more leaves things as they were
(`kvmm_newRange_failsCleanly`), but for two exceptions. The undo may release a slab of range structures
(`undo_releases_slab`), and it drops a reference to what a page referred to that it had not mapped itself
(`undo_unmaps_other`).
-/

namespace Desiros.Mem

open Desiros.Library KslabCache Kvmm

variable {total : UInt32} {m : Physmem} {w : KernelPages} {vaddr : Nat} {p : UInt32}

/-! ## The page functions and the physical pages -/

theorem PhysmemInv.refAt (h : PhysmemInv total m) (hwrap : m.hasDescr p = true → m.refCnt p ≠ 0xffffffff) :
    PhysmemInv total (physmemRefPhyspageAt m p).2 := by
  by_cases hd : m.hasDescr p = true
  · exact h.step (.refAt p) (hwrap hd)
  · unfold physmemRefPhyspageAt
    rw [Bool.eq_false_of_not_eq_true hd]
    exact h

theorem unmap_inv (h : PhysmemInv total w.paging.physmem) (hv : nbBytesPerPage ∣ vaddr) :
    PhysmemInv total (w.unmap vaddr).paging.physmem := pagingUnmap_inv h (isPageAligned_ofNat hv)

/-- A page that has just been allocated is referenced once at most when its place has been cleared. -/
theorem unmap_refCnt_new (hv : nbBytesPerPage ∣ vaddr) (hone : w.paging.physmem.refCnt p = 1) :
    (w.unmap vaddr).paging.physmem.refCnt p ≠ 0xffffffff := by
  have heq : (w.unmap vaddr).paging.physmem =
      (physmemUnrefPhyspage w.paging.physmem (pagingVirtualToPhysical w.paging (UInt32.ofNat vaddr))).2 := by
    show (pagingUnmap w.paging (UInt32.ofNat vaddr)).2.physmem = _
    rw [pagingUnmap_of_aligned (isPageAligned_ofNat hv)]
  rw [heq, physmemUnrefPhyspage_refCnt]
  generalize pagingVirtualToPhysical w.paging (UInt32.ofNat vaddr) = q
  split_ifs with hpos
  · by_cases hq : p = q
    · rw [← hq, Function.update_self, hone]
      decide
    · rw [Function.update_of_ne hq, hone]
      decide
  · rw [hone]
    decide

/-- The page that is allocated for a virtual page, and mapped there. -/
theorem refNew_map_inv (h : PhysmemInv total w.paging.physmem) (hv : nbBytesPerPage ∣ vaddr) :
    PhysmemInv total (pagingMap ((w.setPhysmem (physmemRefPhyspageNew w.paging.physmem).2).unmap vaddr).paging
      (UInt32.ofNat vaddr) (physmemRefPhyspageNew w.paging.physmem).1 false).2.physmem := by
  have hnew : PhysmemInv total (w.setPhysmem (physmemRefPhyspageNew w.paging.physmem).2).paging.physmem :=
    h.step .refNew trivial
  apply (unmap_inv hnew hv).refAt
  intro hd
  apply unmap_refCnt_new hv
  cases hfree : w.paging.physmem.freePpage with
  | nil =>
    -- there is no page: the address is `0`, which has no descriptor
    have hzero : (physmemRefPhyspageNew w.paging.physmem).1 = 0 := by
      unfold physmemRefPhyspageNew
      rw [hfree]
    rw [hzero, (unmap_inv hnew hv).hasDescr_zero] at hd
    cases hd
  | cons q rest =>
    show (physmemRefPhyspageNew w.paging.physmem).2.refCnt (physmemRefPhyspageNew w.paging.physmem).1 = 1
    rw [physmemRefPhyspageNew_eq h hfree]
    exact Function.update_self _ _ _

theorem mapPage_inv (h : PhysmemInv total w.paging.physmem) (hv : nbBytesPerPage ∣ vaddr) :
    PhysmemInv total (w.mapPage vaddr).2.paging.physmem := by
  have hmap := refNew_map_inv h hv
  unfold KernelPages.mapPage
  dsimp only
  split_ifs
  · exact h.step .refNew trivial
  · exact hmap.step (.unref _) trivial

/-- The page functions of `kvmm.c` keep the physical pages consistent. -/
theorem kernelPageRules (total : UInt32) : PageRules kernelPageMap (nbBytesPerPage ∣ ·)
    fun w => PhysmemInv total w.paging.physmem where
  next k hbase := Nat.dvd_add hbase (Nat.dvd_mul_left _ _)
  map hv hw := mapPage_inv hw hv
  unmap hv hw := unmap_inv hw hv
  set range hv hw := by
    show PhysmemInv total (KernelPages.physmemSetKvmmRange _ _ range).paging.physmem
    rw [KernelPages.physmemSetKvmmRange_paging]
    exact hw

theorem firstSlabPages_inv (l : KernelLayout) (h : PhysmemInv total m) :
    PhysmemInv total (firstSlabPages l m).paging.physmem := by
  have hfirst := firstSlabOfCaches_aligned l
  have hslab : PhysmemInv total ((identityPages m).mapFirstSlab l.firstSlabOfCaches).paging.physmem :=
    refNew_map_inv (w := identityPages m) h hfirst
  exact refNew_map_inv hslab (Nat.dvd_add hfirst (Nat.dvd_refl _))

/-! ## Runs -/

/-- A call of the range functions, or anything else that happens to ranges and pages: a cache of slabs takes a range
for a slab, and the rest of the kernel maps pages and takes and drops references. -/
inductive KernelCall where
  | newRange (nbPages : Nat) (map : Bool)
  | delRange (range : KvmmRange)
  | setSlab (range : KvmmRange) (slab : Option Nat)
  | others (world : KernelPages)

def kernelStep (s : Kvmm KernelPages) : KernelCall → Kvmm KernelPages
  | .newRange nbPages map => (kvmmNewRange kernelPageMap 2 s nbPages map).2
  | .delRange range => (kvmmDelRange kernelPageMap s range).getD s
  | .setSlab range slab => { s with slabOf := Function.update s.slabOf range.addr slab }
  | .others world => { s with world := world }

/-- Ranges that a caller got are deleted and become slabs; the physical pages stay consistent. -/
def KernelCallOk (e : Slack) (total : UInt32) (s : Kvmm KernelPages) : KernelCall → Prop
  | .newRange _ _ => True
  | .delRange range => Deletable s range ∧ ¬ e.fixed range
  | .setSlab range _ => Foreign s range
  | .others world => PhysmemInv total world.paging.physmem

/-- What a kernel comes to from `kvmm_setup`. -/
def KernelReaches (l : KernelLayout) (total : UInt32) (m : Physmem) (s : Kvmm KernelPages) : Prop :=
  ∃ h calls, kvmmSetupPages l (identityPages m) = some h ∧
    Guarded kernelStep (KernelCallOk (l.slack h.kvmm) total) h.kvmm calls ∧ s = run kernelStep h.kvmm calls

section

variable {s : Kvmm KernelPages} {e : Slack} {l : KernelLayout}

theorem KernelRanges.bases (h : KernelRanges e total s) :
    BasesIn (nbBytesPerPage ∣ ·) (fun w => PhysmemInv total w.paging.physmem) s [] :=
  ⟨h.free_aligned, h.used_aligned, fun _ hr => absurd hr List.not_mem_nil, h.memory⟩

/-- One call. -/
theorem kernelStep_ranges (call : KernelCall) (h : KernelRanges e total s) (hok : KernelCallOk e total s call) :
    KernelRanges e total (kernelStep s call) := by
  cases call with
  | newRange n map =>
    have hbases := (kernelPageRules total).kvmmNewRange 2 s n map h.bases
    have hnew : NewRange e s [] n 2 (kvmmNewRange kernelPageMap 2 s n map) :=
      kvmmNewRange_spec 0 h.inv h.low (fun hne => absurd h.empty hne) map
    exact ⟨hnew.inv, h.empty, hnew.low le_rfl, fun a ha => h.bounds a ((hnew.covered a).mp ha), hbases.free, hbases.used,
      hbases.world⟩
  | delRange r =>
    have hbases := (kernelPageRules total).kvmmDelRange h.bases (h.used_aligned r hok.1.used)
    obtain ⟨s', heq, hfreed, -⟩ := kvmmDelRange_spec kernelPageMap h.inv hok.1 hok.2
    have hstep : kernelStep s (.delRange r) = s' := by
      show (kvmmDelRange kernelPageMap s r).getD s = s'
      rw [heq]
      rfl
    have hs' : (kvmmDelRange kernelPageMap s r).getD s = s' := hstep
    rw [hs'] at hbases
    rw [hstep]
    have hlow := hfreed.low
    have h2 := h.low
    exact ⟨hfreed.inv, h.empty, by omega, fun a ha => h.bounds a ((hfreed.covered a).mp ha), hbases.free, hbases.used,
      hbases.world⟩
  | setSlab r o =>
    exact ⟨h.inv.setSlab hok o, h.empty, h.low, h.bounds, h.free_aligned, h.used_aligned, h.memory⟩
  | others world =>
    exact ⟨⟨h.inv.inv.setWorld world, h.inv.gaps⟩, h.empty, h.low, h.bounds, h.free_aligned, h.used_aligned, hok⟩

/-- The kernel after `kvmm_setup`. -/
theorem kvmmSetup_kernelRanges (hl : l.Ok) (hi : KernelImage l) (hm : PhysmemInv total m) :
    ∃ h, kvmmSetupPages l (identityPages m) = some h ∧ KernelRanges (l.slack h.kvmm) total h.kvmm := by
  obtain ⟨h, heq, hk, hrec, -⟩ := kvmmSetupPages_spec hl m
  have hcount := hk.count
  have hlen : l.createRanges.length = 9 := rfl
  refine ⟨h, heq, hk.inv hl, trivial, by omega, hk.bounds hl, fun r hr => ?_, fun r hr => ?_, ?_⟩
  · obtain ⟨a, ha, -, -, hfor⟩ := hk.of_free hr
    exact hfor.base ▸ (hi.createRanges_aligned a ha).1
  · obtain ⟨a, ha, -, -, hfor⟩ := hk.of_used hr
    exact hfor.base ▸ (hi.createRanges_aligned a ha).1
  · rw [hrec.paging]
    exact firstSlabPages_inv l hm

theorem KernelReaches.ranges (hl : l.Ok) (hi : KernelImage l) (hm : PhysmemInv total m)
    (hs : KernelReaches l total m s) : ∃ e, KernelRanges e total s := by
  obtain ⟨h, calls, heq, hcalls, rfl⟩ := hs
  obtain ⟨h', heq', hranges⟩ := kvmmSetup_kernelRanges hl hi hm
  obtain rfl : h = h' := Option.some.inj (heq.symm.trans heq')
  exact ⟨_, invariant_run (fun s call hs hok => kernelStep_ranges call hs hok) calls h.kvmm hranges hcalls⟩

theorem KernelReaches.mapsSlabs (hs : KernelReaches l total m s) : MapsSlabs s.rangeCache := by
  obtain ⟨h, calls, heq, -, rfl⟩ := hs
  have hstep : ∀ (s : Kvmm KernelPages) (call : KernelCall), (kernelStep s call).rangeCache.flags = s.rangeCache.flags := by
    intro s call
    cases call with
    | newRange n map => exact kvmmNewRange_flags 2 s n map
    | delRange r => exact kvmmDelRange_getD_flags s r
    | setSlab r o => rfl
    | others world => rfl
  have hkeep : ∀ (s : Kvmm KernelPages) (call : KernelCall), MapsSlabs s.rangeCache → True →
      MapsSlabs (kernelStep s call).rangeCache := fun s call hs _ => (mapsSlabs_congr (hstep s call)).mpr hs
  exact invariant_run hkeep calls h.kvmm (kvmmSetup_mapsSlabs heq) (guarded_of_forall fun _ _ _ => trivial)

end

/-! ## What a call may leave behind -/

/-- All pages are in use. -/
def Physmem.exhausted (m : Physmem) : Physmem := { m with
  refCnt := fun p => if m.hasDescr p = true ∧ m.refCnt p = 0 then 1 else m.refCnt p
  freePpage := []
  usedPpage := m.usedPpage ++ m.freePpage
  physmemUsedPages := m.physmemUsedPages + UInt32.ofNat m.freePpage.length }

theorem PhysmemInv.exhausted (h : PhysmemInv total m) : PhysmemInv total m.exhausted := by
  have hperm : ([] ++ (m.usedPpage ++ m.freePpage)).Perm (m.freePpage ++ m.usedPpage) := by
    rw [List.nil_append]
    exact List.perm_append_comm
  have htotal := h.total_length
  have hword := UInt32.toNat_lt total
  have hfree : (UInt32.ofNat m.freePpage.length).toNat = m.freePpage.length := Nat.mod_eq_of_lt (by omega)
  refine ⟨hperm.nodup_iff.mpr h.nodup, fun p => (hperm.mem_iff).trans (h.listed p), fun p hp => absurd hp List.not_mem_nil,
    fun p hp => ?_, ?_, ?_, h.base⟩
  · have hd : m.hasDescr p = true := (h.listed p).mp (hperm.mem_iff.mp hp)
    show (if m.hasDescr p = true ∧ m.refCnt p = 0 then (1 : UInt32) else m.refCnt p) ≠ 0
    split_ifs with hzero
    · decide
    · exact fun he => hzero ⟨hd, he⟩
  · show (m.physmemUsedPages + UInt32.ofNat m.freePpage.length).toNat = (m.usedPpage ++ m.freePpage).length
    rw [UInt32.toNat_add, hfree, h.used_length, List.length_append]
    exact Nat.mod_eq_of_lt (by omega)
  · show 0 + (m.usedPpage ++ m.freePpage).length + 1 = total.toNat
    rw [List.length_append]
    omega

/-- The rest of the kernel has taken the pages that were left. -/
def exhaust (s : Kvmm KernelPages) : Kvmm KernelPages :=
  kernelStep s (.others (s.world.setPhysmem s.world.paging.physmem.exhausted))

section

variable {s : Kvmm KernelPages} {l : KernelLayout} {h : Heap KernelPages}

theorem KernelReaches.exhaust (hl : l.Ok) (hi : KernelImage l) (hm : PhysmemInv total m)
    (hs : KernelReaches l total m s) : KernelReaches l total m (exhaust s) := by
  obtain ⟨e, hranges⟩ := hs.ranges hl hi hm
  obtain ⟨h, calls, heq, hcalls, hrun⟩ := hs
  refine ⟨h, calls ++ [.others (s.world.setPhysmem s.world.paging.physmem.exhausted)], heq, ?_, ?_⟩
  · exact guarded_append.mpr ⟨hcalls, hranges.memory.exhausted, trivial⟩
  · rw [run_append, ← hrun]
    rfl

/-- The ranges may be deleted one after the other. -/
def canDelete : Kvmm KernelPages → List KvmmRange → Bool
  | _, [] => true
  | s, r :: rest =>
    decide (r ∈ s.usedList) && decide (s.slabOf r.addr = none) && canDelete (kernelStep s (.delRange r)) rest

theorem guarded_canDelete {e : Slack} : ∀ {rs : List KvmmRange} {s : Kvmm KernelPages}, canDelete s rs = true →
    (∀ r ∈ rs, ¬ e.fixed r) → Guarded kernelStep (KernelCallOk e total) s (rs.map .delRange) := by
  intro rs
  induction rs with
  | nil => exact fun _ _ => trivial
  | cons r rs ih =>
    intro s hcan hfixed
    rw [canDelete, Bool.and_eq_true, Bool.and_eq_true, decide_eq_true_iff, decide_eq_true_iff] at hcan
    exact ⟨⟨⟨hcan.1.1, hcan.1.2⟩, hfixed r List.mem_cons_self⟩,
      ih hcan.2 fun x hx => hfixed x (List.mem_cons_of_mem _ hx)⟩

theorem freeAt_congr {s' : Kvmm KernelPages}
    (heq : s'.freeList.map (fun r => (r.base, r.top)) = s.freeList.map fun r => (r.base, r.top)) (a : Nat) :
    FreeAt s' a ↔ FreeAt s a := by
  have hmap : ∀ t : Kvmm KernelPages, FreeAt t a ↔ ∃ i ∈ t.freeList.map fun r => (r.base, r.top), i.1 ≤ a ∧ a < i.2 := by
    intro t
    simp only [List.mem_map, exists_exists_and_eq_and]
    rfl
  rw [hmap, hmap, heq]

end

/-- A kernel of three pages at 1 MB. -/
def kernelAt1M : KernelLayout := ⟨0x100000, 0x103000, 0x101000, 0x102000⟩

/-- What `physmem_setup` finds there on a machine with 1044 KiB. -/
def setupAt1M : PhysmemSetup := (physmemSetup 0x105000 0x100000 0x101000 ⟨0, 0, fun _ => 0, [], [], 0⟩).2

theorem kernelAt1M_ok : kernelAt1M.Ok := ⟨by decide, by decide, by decide, by decide, by decide⟩

theorem kernelAt1M_image : KernelImage kernelAt1M :=
  ⟨by decide, by decide, by decide, by decide, by decide, by decide, by decide, by decide⟩

theorem setupAt1M_inv : PhysmemInv setupAt1M.physmemTotalPages setupAt1M.physmem :=
  (physmemSetup_inv (by decide +kernel) (by decide)).1

/-- So many ranges that the range cache grows by a slab. -/
def manyRanges (s : Kvmm KernelPages) : Kvmm KernelPages :=
  run kernelStep s (List.replicate 195 (.newRange 257 false))

/-- The last one, whose structure is in the new slab, and three others, which leave structures in the first slab. -/
def deletedRanges : List KvmmRange :=
  [⟨0x4000, 0xc3c7000, 257⟩, ⟨0x104f8c, 0xc0c4000, 257⟩, ⟨0x104f78, 0xbfc3000, 257⟩, ⟨0x104f64, 0xbec2000, 257⟩]

def fewRanges (s : Kvmm KernelPages) : Kvmm KernelPages := run kernelStep (manyRanges s) (deletedRanges.map .delRange)

instance (r : KvmmRange) (a : Nat) : Decidable (r.Covers a) := inferInstanceAs (Decidable (_ ∧ _))

instance (s : Kvmm KernelPages) (a : Nat) : Decidable (FreeAt s a) :=
  inferInstanceAs (Decidable (∃ f ∈ s.freeList, f.Covers a))

/-- Without memory, the undo of a call releases the slab. -/
theorem releases_slab : ∀ h ∈ kvmmSetupPages kernelAt1M (identityPages setupAt1M.physmem),
    canDelete (manyRanges h.kvmm) deletedRanges = true ∧
      (kvmmNewRange kernelPageMap 2 (exhaust (fewRanges h.kvmm)) 800 true).1 = none ∧
      ¬ FreeAt (exhaust (fewRanges h.kvmm)) 0x4000 ∧
      FreeAt (kvmmNewRange kernelPageMap 2 (exhaust (fewRanges h.kvmm)) 800 true).2 0x4000 := by
  decide +kernel

/-- After `kvmm_setup`, the undo drops the reference to the page at `0x4000`, which the call did not map. -/
theorem drops_reference : ∀ h ∈ kvmmSetupPages kernelAt1M (identityPages setupAt1M.physmem),
    (kvmmNewRange kernelPageMap 2 (exhaust h.kvmm) 1 true).1 = none ∧
      ((kvmmNewRange kernelPageMap 2 (exhaust h.kvmm) 1 true).2.freeList.map fun r => (r.base, r.top)) =
        ((exhaust h.kvmm).freeList.map fun r => (r.base, r.top)) ∧
      (exhaust h.kvmm).world.paging.physmem.refCnt 0x4000 = 1 ∧
      (kvmmNewRange kernelPageMap 2 (exhaust h.kvmm) 1 true).2.world.paging.physmem.refCnt 0x4000 = 0 := by
  decide +kernel

end Desiros.Mem
