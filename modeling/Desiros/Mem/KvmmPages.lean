import Desiros.Mem.KmallocSetup
import Desiros.Mem.Paging

/-!
# Kernel ranges over physical pages (`mem/kvmm.c`, `mem/physmem.c`)

What the range functions do to the page table and to the descriptors of the physical pages, each of which points to
the range it was last mapped for. `kvmm_setup` is run here from what `paging_init` left: it maps the first two slabs,
and records in the physical pages which of the ranges of the kernel they are in.
-/

namespace Desiros.Mem

open Desiros.Library

/-- The page table, the physical pages, and the field `kernel_range` of their descriptors. -/
structure KernelPages where
  paging : Paging
  kernelRange : UInt32 → Option Nat

namespace KernelPages

def setPhysmem (w : KernelPages) (m : Physmem) : KernelPages := { w with paging := { w.paging with physmem := m } }

def virtualToPhysical (w : KernelPages) (vaddr : Nat) : UInt32 := pagingVirtualToPhysical w.paging (UInt32.ofNat vaddr)

def unmap (w : KernelPages) (vaddr : Nat) : KernelPages :=
  { w with paging := (pagingUnmap w.paging (UInt32.ofNat vaddr)).2 }

/-- `physmem_get_kvmm_range` -/
def physmemGetKvmmRange (w : KernelPages) (ppagePaddr : UInt32) : Option Nat :=
  if !w.paging.physmem.hasDescr ppagePaddr then none else w.kernelRange ppagePaddr

/-- `physmem_set_kvmm_range` -/
def physmemSetKvmmRange (w : KernelPages) (ppagePaddr : UInt32) (range : Nat) : KernelPages :=
  if !w.paging.physmem.hasDescr ppagePaddr then w
  else { w with kernelRange := Function.update w.kernelRange ppagePaddr (some range) }

@[simp] theorem physmemSetKvmmRange_paging (w : KernelPages) (ppagePaddr : UInt32) (range : Nat) :
    (w.physmemSetKvmmRange ppagePaddr range).paging = w.paging := by
  unfold physmemSetKvmmRange
  split_ifs <;> rfl

/-- The page that `kvmm_new_range` maps; the reference it was allocated with is dropped again. -/
def mapPage (w : KernelPages) (vaddr : Nat) : Bool × KernelPages :=
  let (ppagePaddr, m) := physmemRefPhyspageNew w.paging.physmem
  let w := w.setPhysmem m
  if ppagePaddr = 0 then (false, w)
  else
    let (retval, g) := pagingMap (w.unmap vaddr).paging (UInt32.ofNat vaddr) ppagePaddr false
    let w := { w with paging := g }
    let w := w.setPhysmem (physmemUnrefPhyspage w.paging.physmem ppagePaddr).2
    (retval == 0, w)

/-- A page of the first slabs (`kvmm_cache_setup_prepare`); the reference it was allocated with stays. -/
def mapFirstSlab (w : KernelPages) (vaddr : Nat) : KernelPages :=
  let (ppagePaddr, m) := physmemRefPhyspageNew w.paging.physmem
  let w := w.setPhysmem m
  { w with paging := (pagingMap (w.unmap vaddr).paging (UInt32.ofNat vaddr) ppagePaddr false).2 }

end KernelPages

/-- The page functions of `kvmm.c`. -/
def kernelPageMap : PageMap KernelPages where
  mapPage := KernelPages.mapPage
  unmapPage := KernelPages.unmap
  setKvmmRange w vaddr range := w.physmemSetKvmmRange (w.virtualToPhysical vaddr) range

/-- What `paging_init` leaves: each page maps the physical page at its address, for which no range is recorded. -/
def identityPages (m : Physmem) : KernelPages := ⟨⟨m, fun v => ⟨v, true, true, false⟩⟩, fun _ => none⟩

/-- `kvmm_setup`, with the pages of the first slabs. -/
def kvmmSetupPages (l : KernelLayout) (w : KernelPages) : Option (Heap KernelPages) :=
  kvmmSetup kernelPageMap l ((w.mapFirstSlab l.firstSlabOfCaches).mapFirstSlab l.firstSlabOfRanges)

/-! ## Consecutive intervals -/

/-- From each bound to the next. -/
def consecutive : List Nat → List (Nat × Nat)
  | a :: b :: l => (a, b) :: consecutive (b :: l)
  | _ => []

theorem countP_consecutive (p : Nat) : ∀ (l : List Nat) (a last : Nat), (a :: l).Pairwise (· ≤ ·) →
    (a :: l).getLast? = some last →
    (consecutive (a :: l)).countP (fun i => decide (i.1 ≤ p ∧ p < i.2)) = if a ≤ p ∧ p < last then 1 else 0 := by
  intro l
  induction l with
  | nil =>
    intro a last _ hlast
    rw [List.getLast?_singleton, Option.some_inj] at hlast
    subst hlast
    rw [if_neg (by omega)]
    rfl
  | cons b l ih =>
    intro a last hsorted hlast
    obtain ⟨ha, hrest⟩ := List.pairwise_cons.mp hsorted
    have hab := ha b List.mem_cons_self
    rw [List.getLast?_cons_cons] at hlast
    have hbl : b ≤ last := by
      rcases List.mem_cons.mp (List.mem_of_getLast? hlast) with rfl | hin
      · exact Nat.le_refl _
      · exact (List.pairwise_cons.mp hrest).1 last hin
    rw [consecutive, List.countP_cons, ih b last hrest hlast]
    by_cases hp : a ≤ p ∧ p < b
    · rw [if_neg (by omega), if_pos (decide_eq_true hp), if_pos (by omega)]
    · rw [if_neg (show ¬ decide (a ≤ p ∧ p < b) = true from fun hd => hp (of_decide_eq_true hd)), Nat.add_zero]
      by_cases hq : b ≤ p ∧ p < last
      · rw [if_pos hq, if_pos (by omega)]
      · rw [if_neg hq, if_neg (by omega)]

/-! ## The ranges of kvmm_setup -/

/-- A kernel image and the bootstrap stack in it, behind the video memory and with space behind them. -/
structure KernelImage (l : KernelLayout) : Prop where
  core_aligned : nbBytesPerPage ∣ l.kernelCoreBase
  bottom_aligned : nbBytesPerPage ∣ l.stackBottom
  top_aligned : nbBytesPerPage ∣ l.stackTop
  core : KernelLayout.biosNVideoEnd ≤ l.kernelCoreBase
  bottom : l.kernelCoreBase < l.stackBottom
  stack : l.stackBottom < l.stackTop
  top : l.stackTop ≤ l.kernelCoreTop
  space : l.firstSlabOfRanges + nbBytesPerPage ≤ kvmmTop

/-- A page of the area of `kvmm.c`. -/
def IsKvmmPage (p : Nat) : Prop := nbBytesPerPage ∣ p ∧ kvmmBase ≤ p ∧ p < kvmmTop

/-- The number of ranges of both lists that a page belongs to. -/
def rangesAt {W : Type} (s : Kvmm W) (p : Nat) : Nat :=
  (s.freeList ++ s.usedList).countP fun r => decide (r.base ≤ p ∧ p < r.top)

/-- What `kvmm_setup` is for. -/
structure KvmmPartition (s : Kvmm KernelPages) : Prop where
  one : ∀ p, IsKvmmPage p → rangesAt s p = 1
  free_ascending : Ascending s.freeList
  used_ascending : Ascending s.usedList
  disjoint : ∀ f ∈ s.freeList, ∀ u ∈ s.usedList, f.Apart u
  records : ∀ r ∈ s.usedList, ∀ p, nbBytesPerPage ∣ p → r.Covers p →
    s.world.physmemGetKvmmRange (s.world.virtualToPhysical p) = some r.addr

section

variable {W : Type} {l : KernelLayout}

/-- The calls of `kvmm_create_range`, put in another order: consecutive intervals, and the first slab of caches. -/
theorem createRanges_perm (l : KernelLayout) : (l.createRanges.map fun a => (a.2.1, a.2.2.1)).Perm
    ((l.firstSlabOfCaches, l.firstSlabOfRanges) :: consecutive [kvmmBase, KernelLayout.biosNVideoStart,
      KernelLayout.biosNVideoEnd, l.kernelCoreBase, l.stackBottom, l.stackTop, l.firstSlabOfRanges,
      l.firstSlabOfRanges + nbBytesPerPage, kvmmTop]) :=
  @List.perm_middle _ _ [_, _, _, _, _, _] _

theorem countP_forall₂ {α β : Type} {R : α → β → Prop} {P : α → Bool} {Q : β → Bool} {as : List α} {bs : List β}
    (h : List.Forall₂ R as bs) (hR : ∀ a ∈ as, ∀ b, R a b → P a = Q b) : as.countP P = bs.countP Q := by
  induction h with
  | nil => rfl
  | cons hab _ ih =>
    rw [List.countP_cons, List.countP_cons, hR _ List.mem_cons_self _ hab,
      ih fun a ha => hR a (List.mem_cons_of_mem _ ha)]

theorem firstSlabOfCaches_aligned (l : KernelLayout) : nbBytesPerPage ∣ l.firstSlabOfCaches := Nat.dvd_mul_left _ _

theorem le_firstSlabOfCaches (l : KernelLayout) : l.kernelCoreTop ≤ l.firstSlabOfCaches := by
  have hpage : nbBytesPerPage = 4096 := rfl
  unfold KernelLayout.firstSlabOfCaches
  rw [hpage]
  omega

theorem KernelImage.firstSlab (hl : KernelImage l) : IsKvmmPage l.firstSlabOfCaches := by
  have hspace := hl.space
  have hcore := hl.core
  have hbottom := hl.bottom
  have hstack := hl.stack
  have hslab := hl.top.trans (le_firstSlabOfCaches l)
  have hbase : kvmmBase = 16384 := rfl
  have hend : KernelLayout.biosNVideoEnd = 1048576 := rfl
  have hpage : nbBytesPerPage = 4096 := rfl
  have hnext : l.firstSlabOfRanges = l.firstSlabOfCaches + nbBytesPerPage := rfl
  exact ⟨firstSlabOfCaches_aligned l, by omega, by omega⟩

theorem KernelImage.createRanges_aligned (h : KernelImage l) :
    ∀ a ∈ l.createRanges, nbBytesPerPage ∣ a.2.1 ∧ nbBytesPerPage ∣ a.2.2.1 := by
  have hfirst := firstSlabOfCaches_aligned l
  have hpage : nbBytesPerPage ∣ nbBytesPerPage := Nat.dvd_refl _
  have hranges : nbBytesPerPage ∣ l.firstSlabOfRanges := Nat.dvd_add hfirst hpage
  have hstart : nbBytesPerPage ∣ KernelLayout.biosNVideoStart := by decide
  have hend : nbBytesPerPage ∣ KernelLayout.biosNVideoEnd := by decide
  have hbase : nbBytesPerPage ∣ kvmmBase := by decide
  have htop : nbBytesPerPage ∣ kvmmTop := by decide
  have hnext := Nat.dvd_add hranges hpage
  simp only [KernelLayout.createRanges, List.mem_cons, List.not_mem_nil, or_false, forall_eq_or_imp, forall_eq]
  exact ⟨⟨hbase, hstart⟩, ⟨hstart, hend⟩, ⟨hend, h.core_aligned⟩, ⟨h.core_aligned, h.bottom_aligned⟩,
    ⟨h.bottom_aligned, h.top_aligned⟩, ⟨h.top_aligned, hranges⟩, ⟨hfirst, hranges⟩, ⟨hranges, hnext⟩, ⟨hnext, htop⟩⟩

/-- A range covers the pages of the call that made it. -/
theorem RangeFor.top_eq {a : Bool × Nat × Nat × Option Nat} {r : KvmmRange} (h : RangeFor a r)
    (hlarge : LargeEnough a = true) (halign : nbBytesPerPage ∣ a.2.1 ∧ nbBytesPerPage ∣ a.2.2.1) :
    r.base = a.2.1 ∧ r.top = a.2.2.1 := by
  have hle : nbBytesPerPage ≤ a.2.2.1 - a.2.1 := of_decide_eq_true hlarge
  have hpos : 0 < nbBytesPerPage := by decide
  refine ⟨h.base, ?_⟩
  unfold KvmmRange.top
  rw [h.base, h.nbPages, Nat.div_mul_cancel (Nat.dvd_sub halign.2 halign.1)]
  omega

/-- What is too small for a range is empty. -/
theorem covers_of_large {a : Bool × Nat × Nat × Option Nat} (halign : nbBytesPerPage ∣ a.2.1 ∧ nbBytesPerPage ∣ a.2.2.1)
    {p : Nat} (hp : a.2.1 ≤ p ∧ p < a.2.2.1) : LargeEnough a = true := by
  have hdvd := Nat.dvd_sub halign.2 halign.1
  exact decide_eq_true (Nat.le_of_dvd (by omega) hdvd)

/-- The ranges a page belongs to are those of the calls for an interval around it. -/
theorem RangesSetup.rangesAt_eq {base : Nat} {k : Kvmm W} (h : RangesSetup base l.createRanges k) (hl : KernelImage l)
    (p : Nat) : rangesAt k p = l.createRanges.countP fun a => decide (a.2.1 ≤ p ∧ p < a.2.2.1) := by
  have halign := hl.createRanges_aligned
  have hfree : k.freeList.countP (fun r => decide (r.base ≤ p ∧ p < r.top)) =
      (l.createRanges.filter fun a => a.1 && LargeEnough a).countP fun a => decide (a.2.1 ≤ p ∧ p < a.2.2.1) := by
    refine (countP_forall₂ h.free fun a ha r hfor => ?_).symm
    obtain ⟨hmem, hlarge⟩ := List.mem_filter.mp ha
    rw [Bool.and_eq_true] at hlarge
    obtain ⟨hbase, htop⟩ := hfor.top_eq hlarge.2 (halign a hmem)
    rw [hbase, htop]
  have hused : k.usedList.countP (fun r => decide (r.base ≤ p ∧ p < r.top)) =
      (l.createRanges.filter fun a => !a.1 && LargeEnough a).countP fun a => decide (a.2.1 ≤ p ∧ p < a.2.2.1) := by
    refine (countP_forall₂ h.used fun a ha r hfor => ?_).symm
    obtain ⟨hmem, hlarge⟩ := List.mem_filter.mp ha
    rw [Bool.and_eq_true] at hlarge
    obtain ⟨hbase, htop⟩ := hfor.1.top_eq hlarge.2 (halign a hmem)
    rw [hbase, htop]
  unfold rangesAt
  rw [List.countP_append, hfree, hused, List.countP_filter, List.countP_filter]
  generalize hargs : l.createRanges = args at halign
  clear h hfree hused hargs
  induction args with
  | nil => rfl
  | cons a args ih =>
    obtain ⟨ha, hargs⟩ := List.forall_mem_cons.mp halign
    rw [List.countP_cons, List.countP_cons, List.countP_cons, ← ih hargs]
    by_cases hp : a.2.1 ≤ p ∧ p < a.2.2.1
    · have hlarge := covers_of_large ha hp
      cases a.1 with
      | true => simp [hp, hlarge, Nat.add_right_comm]
      | false => simp [hp, hlarge, Nat.add_assoc]
    · simp [hp]

/-- **Each page of the area belongs to one range**, but the first slab of caches belongs to two. -/
theorem RangesSetup.rangesAt_page {base : Nat} {k : Kvmm W} (h : RangesSetup base l.createRanges k)
    (hl : KernelImage l) {p : Nat} (hp : IsKvmmPage p) :
    rangesAt k p = if p = l.firstSlabOfCaches then 2 else 1 := by
  have hpage : nbBytesPerPage = 4096 := rfl
  have hstart : KernelLayout.biosNVideoStart = 655360 := rfl
  have hend : KernelLayout.biosNVideoEnd = 1048576 := rfl
  have hbase : kvmmBase = 16384 := rfl
  have htop : kvmmTop = 1073741824 := rfl
  have hranges : l.firstSlabOfRanges = l.firstSlabOfCaches + nbBytesPerPage := rfl
  have hfirst := firstSlabOfCaches_aligned l
  obtain ⟨hdvd, hlow, hhigh⟩ := hp
  have hcore := hl.core
  have hbottom := hl.bottom
  have hstack := hl.stack
  have hspace := hl.space
  have hslab : l.stackTop ≤ l.firstSlabOfCaches := hl.top.trans (le_firstSlabOfCaches l)
  have hsorted : [kvmmBase, KernelLayout.biosNVideoStart, KernelLayout.biosNVideoEnd, l.kernelCoreBase, l.stackBottom,
      l.stackTop, l.firstSlabOfRanges, l.firstSlabOfRanges + nbBytesPerPage, kvmmTop].Pairwise (· ≤ ·) := by
    simp only [List.pairwise_cons, List.mem_cons, List.not_mem_nil, or_false, forall_eq_or_imp, forall_eq,
      IsEmpty.forall_iff, implies_true, List.Pairwise.nil, and_true]
    omega
  have hmap : (l.createRanges.map fun a => (a.2.1, a.2.2.1)).countP (fun i => decide (i.1 ≤ p ∧ p < i.2)) =
      l.createRanges.countP fun a => decide (a.2.1 ≤ p ∧ p < a.2.2.1) := List.countP_map
  rw [h.rangesAt_eq hl, ← hmap, (createRanges_perm l).countP_eq, List.countP_cons, countP_consecutive p _ _ kvmmTop hsorted rfl,
    if_pos ⟨hlow, hhigh⟩]
  by_cases he : p = l.firstSlabOfCaches
  · rw [if_pos he, if_pos (decide_eq_true (by omega))]
  · have hout : ¬ (l.firstSlabOfCaches ≤ p ∧ p < l.firstSlabOfRanges) := by
      rw [hpage] at hdvd hfirst hranges
      omega
    rw [if_neg he, if_neg (by simpa using hout)]

end

/-- The range cache at the start, and the calls of `kvmm_create_range`. -/
theorem kvmmSetup_eq {W : Type} (E : PageMap W) (l : KernelLayout) (world : W) :
    ∃ h, kvmmSetup E l world = some h ∧
      h.kvmm = l.createRanges.foldl (fun s a => kvmmCreateRange E s a.1 a.2.1 a.2.2.1 a.2.2.2)
        ⟨[], [], fun _ => none, cacheAddSlab fakeCacheOfRanges l.firstSlabOfRanges
          (l.firstSlabOfRanges + nbBytesPerPage - sizeofKslab) none, world⟩ := by
  obtain ⟨hprep, -, -⟩ := slabSetup_prepare (S := noRanges) l.firstSlabOfCaches
  unfold kvmmSetup
  rw [createCacheOfRanges_eq]
  generalize kvmmCacheSetupPrepare noRanges l.firstSlabOfCaches = s at hprep
  obtain ⟨a, s', halloc, -⟩ := hprep.take (S := noRanges)
  rw [halloc]
  dsimp only
  generalize l.createRanges.foldl _ _ = k
  exact ⟨_, rfl, rfl⟩

/-- The heap after `kvmm_setup`. -/
theorem kvmmSetup_ranges {W : Type} (E : PageMap W) (l : KernelLayout) (world : W) :
    ∃ h, kvmmSetup E l world = some h ∧ RangesSetup l.firstSlabOfRanges l.createRanges h.kvmm := by
  obtain ⟨h, heq, hkvmm⟩ := kvmmSetup_eq E l world
  have hk := RangesSetup.createAll (E := E) l.createRanges [] _ (rangesSetup_nil l.firstSlabOfRanges world)
    (show 0 + l.createRanges.length ≤ 200 from by simp [KernelLayout.createRanges])
  rw [List.nil_append, ← hkvmm] at hk
  exact ⟨h, heq, hk⟩

/-- **kvmm_setup does not partition the kernel area**, whatever the image and the memory: the first slab of caches lies
in a range of its own and in that of the kernel behind the stack. -/
theorem kvmmSetup_never_partitions {l : KernelLayout} (hl : KernelImage l) (w : KernelPages) :
    ∃ h, kvmmSetupPages l w = some h ∧ ¬ KvmmPartition h.kvmm ∧
      ∀ p, IsKvmmPage p → (rangesAt h.kvmm p = 1 ↔ p ≠ l.firstSlabOfCaches) := by
  obtain ⟨h, heq, hranges⟩ :=
    kvmmSetup_ranges kernelPageMap l ((w.mapFirstSlab l.firstSlabOfCaches).mapFirstSlab l.firstSlabOfRanges)
  have hcount : ∀ p, IsKvmmPage p → (rangesAt h.kvmm p = 1 ↔ p ≠ l.firstSlabOfCaches) := by
    intro p hp
    rw [hranges.rangesAt_page hl hp]
    split_ifs with he
    · exact ⟨fun h2 => absurd h2 (by decide), fun hne => absurd he hne⟩
    · exact ⟨fun _ => he, fun _ => rfl⟩
  refine ⟨h, heq, fun hpart => ?_, hcount⟩
  have hfirst := hl.firstSlab
  exact (hcount _ hfirst).mp (hpart.one _ hfirst) rfl

/-- A kernel of 64 pages at 2 MB, with four pages of stack. -/
def kernelAt2M : KernelLayout := ⟨0x200000, 0x240000, 0x210000, 0x214000⟩

theorem kernelAt2M_image : KernelImage kernelAt2M :=
  ⟨by decide, by decide, by decide, by decide, by decide, by decide, by decide, by decide⟩

/-- The pages behind the first slabs are free. -/
def freeBehindKernel : Physmem := ⟨0x4000, 0x250000, fun _ => 0, [0x242000, 0x243000, 0x244000], [], 0⟩

theorem kernelAt2M_never_partitions :
    KernelImage kernelAt2M ∧ ∃ h, kvmmSetupPages kernelAt2M (identityPages freeBehindKernel) = some h ∧
      ¬ KvmmPartition h.kvmm ∧
      ∀ p, IsKvmmPage p → (rangesAt h.kvmm p = 1 ↔ p ≠ kernelAt2M.firstSlabOfCaches) :=
  ⟨kernelAt2M_image, kvmmSetup_never_partitions kernelAt2M_image _⟩

/-- The page at `0x240000`, behind the kernel, belongs to two ranges. -/
theorem kernelAt2M_not_partition : ¬ ∀ (l : KernelLayout) (w : KernelPages), KernelImage l →
    ∃ h, kvmmSetupPages l w = some h ∧ KvmmPartition h.kvmm := by
  intro hclaim
  obtain ⟨h, heq, hpart⟩ := hclaim kernelAt2M (identityPages freeBehindKernel) kernelAt2M_image
  obtain ⟨h', heq', hranges⟩ := kvmmSetup_ranges kernelPageMap kernelAt2M
    (((identityPages freeBehindKernel).mapFirstSlab kernelAt2M.firstSlabOfCaches).mapFirstSlab
      kernelAt2M.firstSlabOfRanges)
  obtain rfl : h = h' := Option.some.inj (heq.symm.trans heq')
  have htwo := hranges.rangesAt_page kernelAt2M_image kernelAt2M_image.firstSlab
  rw [hpart.one _ kernelAt2M_image.firstSlab, if_pos rfl] at htwo
  exact absurd htwo (by decide)

end Desiros.Mem
