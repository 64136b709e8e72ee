import Desiros.Mem.PagingInit

/-!
# Address spaces (`mem/paging.c`)

Each process has a directory. The first 256 entries of all of them are those of the kernel, and a table behind them belongs
to one directory only. Over runs of the functions of `paging.c`, with directories that come and go, memory shows one map of
the kernel and one user map for each directory, so that a call changes the user addresses of the current directory and of
no other, and kernel addresses in all of them alike (`spaces_refine`).
-/

namespace Desiros.Mem

open Desiros.Library

/-! ## The code -/

/-- `for (i = 0; i < n; i++) ((__u32*) vaddr)[i] = 0` -/
def zeroWords (cr3 vaddr : UInt32) : Nat → (UInt32 → UInt32) → Option (UInt32 → UInt32)
  | 0, memory => some memory
  | i + 1, memory => do
    let memory ← zeroWords cr3 vaddr i memory
    storeWord memory cr3 (entryAddr vaddr i) 0

/-- `paging_pd_add_pt` with the page of the kernel at `pgVaddr` that `kvmm_alloc` returns. The directory that is written
is the one loaded, not the argument. -/
def pagingPdAddPt (cr3 : UInt32) (k : PdState) (vaddr pgVaddr : UInt32) : Option (Int × PdState) := do
  let pde ← loadWord k.memory cr3 (pdeVaddr vaddr)
  if pde &&& pPresent ≠ 0 then return (0, k)
  if pgVaddr = 0 then return (-3, k)
  let memory ← zeroWords cr3 pgVaddr 1024 k.memory
  let pgPaddr ← virtualToPhysical memory cr3 pgVaddr
  if pgPaddr = 0 then return (0, { k with memory })
  let memory ← zeroWords cr3 pgVaddr 1024 memory
  let memory ← storeWord memory cr3 (pdeVaddr vaddr) (pgPaddr ||| (pPresent ||| pdWrite ||| pdUser))
  return (0, { k with memory, physmem := (physmemRefPhyspageAt k.physmem pgPaddr).2 })

/-- The machine, the directory that is loaded, and all that are in use. -/
structure SpaceState where
  k : PdState
  cr3 : UInt32
  directories : List UInt32

inductive SpaceOp
  | paging (op : PagingOp)
  | loadPd (pd : UInt32)
  | pdCreate
  | pdAddPt (vaddr pgVaddr : UInt32)
  /-- A word is written. -/
  | store (vaddr word : UInt32)
  /-- The end of a process. -/
  | release (pd : UInt32)

def spaceStep (s : SpaceState) : SpaceOp → Option SpaceState
  | .paging op => (tablesStep s.cr3 s.k op).map fun k => { s with k }
  | .loadPd pd => some { s with cr3 := pd }
  | .pdCreate =>
    let (pd, k) := pagingPdCreate s.k
    some { s with k, directories := pd :: s.directories }
  | .pdAddPt vaddr pgVaddr => (pagingPdAddPt s.cr3 s.k vaddr pgVaddr).map fun (_, k) => { s with k }
  | .store vaddr word => (storeWord s.k.memory s.cr3 vaddr word).map fun memory => { s with k := { s.k with memory } }
  | .release pd => some { s with k := pdRelease s.k pd, directories := s.directories.filter (· ≠ pd) }

/-! ## Tables of several directories -/

/-- The directories share the tables of the kernel, and no others. -/
structure Spaces (memory : UInt32 → UInt32) (ds : List UInt32) : Prop where
  aligned : ∀ d ∈ ds, isPageAligned d = true
  self : ∀ d ∈ ds, SelfMapped memory d
  kernel : ∀ d ∈ ds, ∀ d' ∈ ds, ∀ i < 256, memory (entryAddr d i) = memory (entryAddr d' i)
  apart : ∀ d ∈ ds, ∀ d' ∈ ds, ∀ i < 1024, ∀ j < 1024, ¬ memory (entryAddr d i) &&& pPresent = 0 →
    ¬ memory (entryAddr d' j) &&& pPresent = 0 → tableAt memory d i = tableAt memory d' j → i = j ∧ (i < 256 ∨ d = d')

/-- The page is a table, or a directory. -/
def IsTable (memory : UInt32 → UInt32) (ds : List UInt32) (p : UInt32) : Prop :=
  ∃ d ∈ ds, ∃ i < 1024, ¬ memory (entryAddr d i) &&& pPresent = 0 ∧ tableAt memory d i = p

/-- The entries of the directories are as they were. -/
def SameDirectories (memory memory' : UInt32 → UInt32) (ds : List UInt32) : Prop :=
  ∀ d ∈ ds, ∀ i < 1024, memory' (entryAddr d i) = memory (entryAddr d i)

/-- The entries of all tables are as they were. -/
def SameTables (memory memory' : UInt32 → UInt32) (ds : List UInt32) : Prop :=
  ∀ p, IsTable memory ds p → ∀ i < 1024, memory' (entryAddr p i) = memory (entryAddr p i)

section

variable {memory memory' : UInt32 → UInt32} {ds ds' : List UInt32} {d d' p v : UInt32}

theorem isTable_pte (hd : d ∈ ds) (ht : HasTable memory d v) : IsTable memory ds (tableAt memory d (v >>> 22).toNat) :=
  ⟨d, hd, _, pdeIndex_lt v, ht, rfl⟩

theorem isTable_aligned (hp : IsTable memory ds p) : isPageAligned p = true := by
  obtain ⟨d, -, i, -, -, rfl⟩ := hp
  exact tableAt_aligned memory d i

namespace SameDirectories

variable (h : SameDirectories memory memory' ds)

include h

theorem tableAt (hd : d ∈ ds) {i : Nat} (hi : i < 1024) : Mem.tableAt memory' d i = Mem.tableAt memory d i := by
  unfold Mem.tableAt
  rw [h d hd i hi]

theorem hasTable (hd : d ∈ ds) : HasTable memory' d v ↔ HasTable memory d v := by
  unfold HasTable
  rw [h d hd _ (pdeIndex_lt v)]

theorem pteAddr (hd : d ∈ ds) : Mem.pteAddr memory' d v = Mem.pteAddr memory d v := by
  unfold Mem.pteAddr
  rw [h.tableAt hd (pdeIndex_lt v)]

theorem isTable : IsTable memory' ds p ↔ IsTable memory ds p := by
  refine exists_congr fun d => and_congr_right fun hd => exists_congr fun i => and_congr_right fun hi => ?_
  rw [h d hd i hi, h.tableAt hd hi]

end SameDirectories

namespace Spaces

variable (h : Spaces memory ds)

include h

theorem tables (hd : d ∈ ds) : Tables memory d :=
  ⟨h.aligned d hd, h.self d hd, fun i hi j hj hp hp' heq => (h.apart d hd d hd i hi j hj hp hp' heq).1⟩

theorem isTable_directory (hd : d ∈ ds) : IsTable memory ds d :=
  ⟨d, hd, 1023, by decide, (h.tables hd).mirror_present, (h.tables hd).tableAt_mirror⟩

theorem mono (hsub : ∀ d ∈ ds', d ∈ ds) : Spaces memory ds' :=
  ⟨fun d hd => h.aligned d (hsub d hd), fun d hd => h.self d (hsub d hd),
    fun d hd d' hd' => h.kernel d (hsub d hd) d' (hsub d' hd'), fun d hd d' hd' => h.apart d (hsub d hd) d' (hsub d' hd')⟩

theorem pde_same (hsame : SameTables memory memory' ds) : SameDirectories memory memory' ds :=
  fun d hd => hsame d (h.isTable_directory hd)

theorem same (hsame : SameDirectories memory memory' ds) : Spaces memory' ds := by
  refine ⟨h.aligned, fun d hd => (hsame d hd 1023 (by decide)).trans (h.self d hd),
    fun d hd d' hd' i hi => ?_, fun d hd d' hd' i hi j hj hp hp' heq => ?_⟩
  · rw [hsame d hd i (by omega), hsame d' hd' i (by omega)]
    exact h.kernel d hd d' hd' i hi
  · rw [hsame d hd i hi] at hp
    rw [hsame d' hd' j hj] at hp'
    rw [hsame.tableAt hd hi, hsame.tableAt hd' hj] at heq
    exact h.apart d hd d' hd' i hi j hj hp hp' heq

/-- An entry of a directory is no entry of a table in front of the mirror, -/
theorem pde_ne_pteAddr (hd : d ∈ ds) (hd' : d' ∈ ds) (hv : v < pageTableMap) (ht : HasTable memory d' v) {i : Nat}
    (hi : i < 1024) : entryAddr d i ≠ pteAddr memory d' v := by
  intro heq
  have hindex := pdeIndex_of_lt hv
  have hpage := (entryAddr_inj (h.aligned d hd) (tableAt_aligned memory d' _) hi (pteIndex_lt v) heq).1
  have := (h.apart d hd d' hd' 1023 (by decide) _ (pdeIndex_lt v) (h.tables hd).mirror_present ht
    ((h.tables hd).tableAt_mirror.trans hpage)).1
  omega

/-- and the entry of a user address belongs to one directory. -/
theorem pteAddr_ne {u : UInt32} (hd : d ∈ ds) (hd' : d' ∈ ds) (hne : d ≠ d') (hv : ¬ v < userOffset)
    (ht : HasTable memory d v) (ht' : HasTable memory d' u) : pteAddr memory d v ≠ pteAddr memory d' u := by
  intro heq
  have huser : userOffset.toNat = 1073741824 := rfl
  have hpage := (entryAddr_inj (tableAt_aligned memory d _) (tableAt_aligned memory d' _) (pteIndex_lt v) (pteIndex_lt u)
    heq).1
  have howner := (h.apart d hd d' hd' _ (pdeIndex_lt v) _ (pdeIndex_lt u) ht ht' hpage).2
  rw [shiftRight_pde] at howner
  rw [word_lt_iff, huser] at hv
  exact howner.elim (fun hlt => by omega) hne

/-- Kernel addresses have the same entry in all directories. -/
theorem kernel_pteAddr (hd : d ∈ ds) (hd' : d' ∈ ds) (hv : v < userOffset) :
    pteAddr memory d v = pteAddr memory d' v ∧ (HasTable memory d v ↔ HasTable memory d' v) := by
  have huser : userOffset.toNat = 1073741824 := rfl
  have hindex : (v >>> 22).toNat < 256 := by
    rw [word_lt_iff, huser] at hv
    rw [shiftRight_pde]
    omega
  have hpde := h.kernel d hd d' hd' _ hindex
  unfold pteAddr tableAt HasTable
  rw [hpde]
  exact ⟨rfl, Iff.rfl⟩

end Spaces

/-- A page that is no table is written. -/
theorem sameTables_of_page (hp : ¬ IsTable memory ds p) (haligned : isPageAligned p = true)
    (hframe : ∀ addr, (∀ i < 1024, addr ≠ entryAddr p i) → memory' addr = memory addr) : SameTables memory memory' ds := by
  intro q hq i hi
  refine hframe _ fun j hj heq => hp ?_
  rw [← (entryAddr_inj (isTable_aligned hq) haligned hi hj heq).1]
  exact hq

theorem ShowsPaging.same {k k' : PdState} {g : Paging} (h : ShowsPaging d k g) (hs : Spaces k.memory ds) (hd : d ∈ ds)
    (hsame : SameTables k.memory k'.memory ds) : ShowsPaging d k' ⟨k'.physmem, g.pte⟩ := by
  have hdirs := hs.pde_same hsame
  refine ⟨(hs.same hdirs).tables hd, rfl, fun v hv ht => ?_, fun v hv ht => h.absent v hv fun ht' => ht ?_⟩
  · have ht' : HasTable k.memory d v := (hdirs.hasTable hd).mp ht
    rw [hdirs.pteAddr hd]
    unfold pteAddr
    rw [hsame _ (isTable_pte hd ht') _ (pteIndex_lt v)]
    exact h.entry v hv ht'
  · exact (hdirs.hasTable hd).mpr ht'

theorem pageAlignInf_lt_user (v : UInt32) : pageAlignInf v < userOffset ↔ v < userOffset := by
  have huser : userOffset.toNat = 1073741824 := rfl
  have halign : (pageAlignInf v).toNat = v.toNat / 4096 * 4096 := toNat_alignInf v
  rw [word_lt_iff, word_lt_iff, huser, halign]
  omega

/-- A directory that shows the entries of another one for the kernel, and those of its own for the user. -/
theorem ShowsPaging.other {k k' : PdState} {g g' : Paging} {pages : List UInt32} (h : ShowsPaging d k g)
    (hs : Spaces k.memory ds) (hd : d ∈ ds) (hd' : d' ∈ ds) (hne : d ≠ d') (hafter : TablesAfter d' k pages k' g')
    (hpages : ∀ u ∈ pages, u < pageTableMap ∧ HasTable k.memory d' u) :
    ShowsPaging d k' ⟨g'.physmem, fun v => if v < userOffset then g'.pte v else g.pte v⟩ := by
  have hdirs : SameDirectories k.memory k'.memory ds := fun d hd i hi =>
    hafter.frame _ fun u hu => hs.pde_ne_pteAddr hd hd' (hpages u hu).1 (hpages u hu).2 hi
  have hs' := hs.same hdirs
  refine ⟨hs'.tables hd, hafter.shows.physmem, fun v hv ht => ?_, fun v hv ht => ?_⟩
  · show Pte.Shown _ (if pageAlignInf v < userOffset then g'.pte (pageAlignInf v) else g.pte (pageAlignInf v))
    simp only [pageAlignInf_lt_user]
    by_cases hkernel : v < userOffset
    · obtain ⟨haddr, htable⟩ := hs'.kernel_pteAddr hd hd' hkernel
      rw [if_pos hkernel, haddr]
      exact hafter.shows.entry v hv (htable.mp ht)
    · have ht' : HasTable k.memory d v := (hdirs.hasTable hd).mp ht
      rw [if_neg hkernel, hdirs.pteAddr hd,
        hafter.frame _ fun u hu => hs.pteAddr_ne hd hd' hne hkernel ht' (hpages u hu).2]
      exact h.entry v hv ht'
  · show (if pageAlignInf v < userOffset then g'.pte (pageAlignInf v) else g.pte (pageAlignInf v)).present = false
    simp only [pageAlignInf_lt_user]
    by_cases hkernel : v < userOffset
    · rw [if_pos hkernel]
      exact hafter.shows.absent v hv fun ht' => ht ((hs'.kernel_pteAddr hd hd' hkernel).2.mpr ht')
    · rw [if_neg hkernel]
      exact h.absent v hv fun ht' => ht ((hdirs.hasTable hd).mpr ht')

end

/-! ## What the directories stand for -/

/-- An empty entry. -/
def absentPte : Pte := ⟨0, false, false, false⟩

/-- One map of the kernel, one user map and the tables of each directory. -/
structure AddressSpaces where
  physmem : Physmem
  kernel : UInt32 → Pte
  user : UInt32 → UInt32 → Pte
  tables : UInt32 → Nat → Bool
  pageDirectory : UInt32
  current : UInt32
  directories : List UInt32

namespace AddressSpaces

variable (a : AddressSpaces)

/-- The entries that a directory shows. -/
def space (d : UInt32) : Paging := ⟨a.physmem, fun v => if v < userOffset then a.kernel v else a.user d v⟩

/-- A directory shows other entries; those of the kernel are common to all. -/
def setSpace (d : UInt32) (g : Paging) : AddressSpaces :=
  { a with physmem := g.physmem, kernel := g.pte, user := Function.update a.user d g.pte }

def step : SpaceOp → AddressSpaces
  | .paging op => a.setSpace a.current (pagingStep (a.space a.current) op)
  | .loadPd pd => { a with current := pd }
  | .pdCreate =>
    let (pd, physmem) := physmemRefPhyspageNew a.physmem
    { a with
      physmem
      user := Function.update a.user pd fun _ => absentPte
      tables := Function.update a.tables pd fun i => a.tables a.pageDirectory i && decide (i < 256)
      directories := pd :: a.directories }
  | .pdAddPt vaddr pgVaddr =>
    if a.tables a.current (vaddr >>> 22).toNat ∨ pgVaddr = 0 then a
    else
      { a with
        physmem := (physmemRefPhyspageAt a.physmem (pagingVirtualToPhysical (a.space a.current) pgVaddr)).2
        user := Function.update a.user a.current fun v =>
          if (v >>> 22).toNat = (vaddr >>> 22).toNat then absentPte else a.user a.current v
        tables := Function.update a.tables a.current (Function.update (a.tables a.current) (vaddr >>> 22).toNat true) }
  | .store _ _ => a
  | .release pd =>
    { a with
      physmem := (physmemUnrefPhyspage a.physmem pd).2
      directories := a.directories.filter (· ≠ pd) }

end AddressSpaces

/-- Memory shows the address spaces. -/
structure ShowsSpaces (s : SpaceState) (a : AddressSpaces) : Prop where
  spaces : Spaces s.k.memory s.directories
  pageDirectory : a.pageDirectory = s.k.pageDirectory ∧ s.k.pageDirectory ∈ s.directories
  current : a.current = s.cr3 ∧ s.cr3 ∈ s.directories
  directories : a.directories = s.directories
  tables : ∀ d ∈ s.directories, ∀ i < 1023, a.tables d i = (s.k.memory (entryAddr d i) &&& pPresent != 0)
  shows : ∀ d ∈ s.directories, ShowsPaging d s.k (a.space d)

/-- The call leaves the tables to `paging.c`. The page of a new directory or of a new table is not in use as one, and a new
directory has no entries left over in it. -/
def SpaceOk (s : SpaceState) : SpaceOp → Prop
  | .paging op => op.InTables ∧ ∀ u ∈ op.touched, HasTable s.k.memory s.cr3 u
  | .loadPd pd => pd ∈ s.directories
  | .pdCreate =>
    (∀ p ∈ s.k.physmem.freePpage, isPageAligned p = true) ∧
      ¬ IsTable s.k.memory s.directories (pagingPdCreate s.k).1 ∧
      ∀ i, 256 ≤ i → i < 1023 → s.k.memory (entryAddr (pagingPdCreate s.k).1 i) &&& pPresent = 0
  | .pdAddPt vaddr pgVaddr =>
    userOffset ≤ vaddr ∧ vaddr < pageTableMap ∧
      (HasTable s.k.memory s.cr3 vaddr ∨ pgVaddr = 0 ∨ isPageAligned pgVaddr = true ∧ pgVaddr < pageTableMap ∧
        ∃ p ≠ 0, mmuTranslate s.k.memory s.cr3 pgVaddr = some p ∧ ¬ IsTable s.k.memory s.directories p)
  | .store vaddr _ => vaddr &&& 3 = 0 ∧ ∃ paddr, mmuTranslate s.k.memory s.cr3 vaddr = some paddr ∧
      ¬ IsTable s.k.memory s.directories (pageAlignInf paddr)
  | .release pd => pd ≠ s.cr3 ∧ pd ≠ s.k.pageDirectory

/-! ## The steps -/

section

variable {s : SpaceState} {a : AddressSpaces} {d d' : UInt32}

theorem space_setSpace (a : AddressSpaces) (d : UInt32) (g : Paging) : (a.setSpace d g).space d = g := by
  obtain ⟨physmem, pte⟩ := g
  show Paging.mk physmem (fun v => if v < userOffset then pte v else Function.update a.user d pte d v) = ⟨physmem, pte⟩
  simp only [Function.update_self, ite_self]

theorem space_setSpace_of_ne (hne : d ≠ d') (g : Paging) : (a.setSpace d' g).space d =
    ⟨g.physmem, fun v => if v < userOffset then g.pte v else (a.space d).pte v⟩ := by
  show Paging.mk g.physmem (fun v => if v < userOffset then g.pte v else Function.update a.user d' g.pte d v) = _
  congr 1
  funext v
  rw [Function.update_of_ne hne]
  by_cases hv : v < userOffset
  · rw [if_pos hv, if_pos hv]
  · rw [if_neg hv, if_neg hv]
    exact (if_neg hv).symm

theorem ShowsSpaces.physmem (h : ShowsSpaces s a) : a.physmem = s.k.physmem := (h.shows s.cr3 h.current.2).physmem.symm

/-- The call succeeds, and memory shows what it leaves. -/
def StepRefines (s : SpaceState) (a : AddressSpaces) (op : SpaceOp) : Prop :=
  ∃ s', spaceStep s op = some s' ∧ ShowsSpaces s' (a.step op)

theorem ShowsSpaces.paging (h : ShowsSpaces s a) (op : PagingOp) (hok : SpaceOk s (.paging op)) :
    StepRefines s a (.paging op) := by
  obtain ⟨hin, ht⟩ := hok
  obtain ⟨k', heq, hafter⟩ := (h.shows s.cr3 h.current.2).step op hin ht
  have hpages : ∀ u ∈ op.touched, u < pageTableMap ∧ HasTable s.k.memory s.cr3 u :=
    fun u hu => ⟨op.touched_lt hin u hu, ht u hu⟩
  have hdirs : SameDirectories s.k.memory k'.memory s.directories := fun d hd i hi =>
    hafter.frame _ fun u hu => h.spaces.pde_ne_pteAddr hd h.current.2 (hpages u hu).1 (hpages u hu).2 hi
  have hstep : a.step (.paging op) = a.setSpace s.cr3 (pagingStep (a.space s.cr3) op) := by
    rw [← h.current.1]
    rfl
  refine ⟨{ s with k := k' }, ?_, ?_⟩
  · show (tablesStep s.cr3 s.k op).map _ = _
    rw [heq]
    rfl
  · rw [hstep]
    refine ⟨h.spaces.same hdirs, ⟨h.pageDirectory.1.trans hafter.pageDirectory.symm, ?_⟩, h.current, h.directories,
      fun d hd i hi => ?_, fun d hd => ?_⟩
    · rw [hafter.pageDirectory]
      exact h.pageDirectory.2
    · rw [hdirs d hd i (by omega)]
      exact h.tables d hd i hi
    · by_cases hcurrent : d = s.cr3
      · subst hcurrent
        rw [space_setSpace]
        exact hafter.shows
      · rw [space_setSpace_of_ne hcurrent]
        exact (h.shows d hd).other h.spaces hd h.current.2 hcurrent hafter hpages

theorem ShowsSpaces.loadPd (h : ShowsSpaces s a) (pd : UInt32) (hok : SpaceOk s (.loadPd pd)) :
    StepRefines s a (.loadPd pd) :=
  ⟨_, rfl, h.spaces, h.pageDirectory, ⟨rfl, hok⟩, h.directories, h.tables, h.shows⟩

theorem ShowsSpaces.release (h : ShowsSpaces s a) (pd : UInt32) (hok : SpaceOk s (.release pd)) :
    StepRefines s a (.release pd) := by
  have hkept : ∀ d, d ∈ s.directories.filter (· ≠ pd) ↔ d ∈ s.directories ∧ d ≠ pd := by
    intro d
    rw [List.mem_filter, decide_eq_true_eq]
  refine ⟨_, rfl, h.spaces.mono fun d hd => ((hkept d).mp hd).1, ⟨h.pageDirectory.1, (hkept _).mpr
    ⟨h.pageDirectory.2, Ne.symm hok.2⟩⟩, ⟨h.current.1, (hkept _).mpr ⟨h.current.2, Ne.symm hok.1⟩⟩, ?_,
    fun d hd => h.tables d ((hkept d).mp hd).1, fun d hd => ?_⟩
  · show a.directories.filter _ = s.directories.filter _
    rw [h.directories]
  · have hshows := h.shows d ((hkept d).mp hd).1
    refine ⟨hshows.tables, ?_, hshows.entry, hshows.absent⟩
    show (physmemUnrefPhyspage s.k.physmem pd).2 = (physmemUnrefPhyspage a.physmem pd).2
    rw [h.physmem]

theorem ShowsSpaces.store (h : ShowsSpaces s a) (vaddr word : UInt32) (hok : SpaceOk s (.store vaddr word)) :
    StepRefines s a (.store vaddr word) := by
  obtain ⟨-, paddr, htranslate, hpage⟩ := hok
  have hsame : SameTables s.k.memory (Function.update s.k.memory paddr word) s.directories := by
    intro p hp i hi
    refine Function.update_of_ne (fun heq => hpage ?_) _ _
    rw [← heq, pageAlignInf_entryAddr (isTable_aligned hp) hi]
    exact hp
  have hdirs := h.spaces.pde_same hsame
  refine ⟨{ s with k := { s.k with memory := Function.update s.k.memory paddr word } }, ?_,
    h.spaces.same hdirs, h.pageDirectory, h.current, h.directories, fun d hd i hi => ?_, fun d hd => ?_⟩
  · show (storeWord s.k.memory s.cr3 vaddr word).map _ = _
    unfold storeWord
    rw [htranslate]
    rfl
  · show a.tables d i = (Function.update s.k.memory paddr word (entryAddr d i) &&& pPresent != 0)
    rw [hdirs d hd i (by omega)]
    exact h.tables d hd i hi
  · have hshows := h.shows d hd
    have hafter : ShowsPaging d { s.k with memory := Function.update s.k.memory paddr word } _ :=
      hshows.same h.spaces hd hsame
    exact ⟨hafter.tables, hshows.physmem, hafter.entry, hafter.absent⟩

/-! ### A new directory -/

/-- Nothing is written but the page of the directory. -/
theorem pagingPdCreate_frame (k : PdState) {addr : UInt32} (hne : ∀ i < 1024, addr ≠ entryAddr (pagingPdCreate k).1 i) :
    (pagingPdCreate k).2.memory addr = k.memory addr := by
  rw [pagingPdCreate_memory, Function.update_of_ne (hne 1023 (by decide))]
  exact copyEntries_of_ne _ _ fun i hi => hne i (by omega)

theorem pdeIndex_lt_kernel (v : UInt32) : (v >>> 22).toNat < 256 ↔ v < userOffset := by
  have huser : userOffset.toNat = 1073741824 := rfl
  rw [shiftRight_pde, word_lt_iff, huser]
  omega

/-- What is known of a new directory: the kernel's entries, the mirror and no others. -/
structure NewDirectory (memory memory' : UInt32 → UInt32) (ds : List UInt32) (pageDirectory pd : UInt32) : Prop where
  aligned : isPageAligned pd = true
  notTable : ¬ IsTable memory ds pd
  same : SameTables memory memory' ds
  kernel : ∀ i < 256, memory' (entryAddr pd i) = memory (entryAddr pageDirectory i)
  self : SelfMapped memory' pd
  user : ∀ i, 256 ≤ i → i < 1023 → memory' (entryAddr pd i) &&& pPresent = 0

section

variable {memory memory' : UInt32 → UInt32} {ds : List UInt32} {pageDirectory pd : UInt32}
  (h : NewDirectory memory memory' ds pageDirectory pd) (hs : Spaces memory ds) (hkernel : pageDirectory ∈ ds)

include h hs hkernel

/-- A table that is present in the new memory is the new directory, or one that was there before. -/
theorem NewDirectory.origin (hd : d ∈ pd :: ds) {i : Nat} (hi : i < 1024) (hp : ¬ memory' (entryAddr d i) &&& pPresent = 0) :
    (d = pd ∧ i = 1023 ∧ tableAt memory' d i = pd) ∨
      ∃ d₀ ∈ ds, (i < 256 ∨ d₀ = d) ∧ ¬ memory (entryAddr d₀ i) &&& pPresent = 0 ∧
        tableAt memory' d i = tableAt memory d₀ i := by
  rcases List.mem_cons.mp hd with rfl | hold
  · by_cases hlow : i < 256
    · rw [h.kernel i hlow] at hp
      refine .inr ⟨pageDirectory, hkernel, .inl hlow, hp, ?_⟩
      unfold tableAt
      rw [h.kernel i hlow]
    · by_cases hlast : i = 1023
      · subst hlast
        refine .inl ⟨rfl, rfl, ?_⟩
        unfold tableAt
        rw [h.self]
        exact (entry_present h.aligned).2
      · exact absurd (h.user i (by omega) (by omega)) hp
  · have hdirs := hs.pde_same h.same
    rw [hdirs d hold i hi] at hp
    exact .inr ⟨d, hold, .inr rfl, hp, hdirs.tableAt hold hi⟩

theorem NewDirectory.spaces : Spaces memory' (pd :: ds) := by
  have hold := hs.same (hs.pde_same h.same)
  have hkernelEntry : ∀ d ∈ pd :: ds, ∀ i < 256, memory' (entryAddr d i) = memory (entryAddr pageDirectory i) := by
    intro d hd i hi
    rcases List.mem_cons.mp hd with rfl | hmem
    · exact h.kernel i hi
    · rw [hs.pde_same h.same d hmem i (by omega)]
      exact hs.kernel d hmem _ hkernel i hi
  refine ⟨List.forall_mem_cons.mpr ⟨h.aligned, hs.aligned⟩, List.forall_mem_cons.mpr ⟨h.self, hold.self⟩,
    fun d hd d' hd' i hi => (hkernelEntry d hd i hi).trans (hkernelEntry d' hd' i hi).symm,
    fun d hd d' hd' i hi j hj hp hp' heq => ?_⟩
  have hfresh : ∀ d₀ ∈ ds, ∀ i < 1024, ¬ memory (entryAddr d₀ i) &&& pPresent = 0 → pd ≠ tableAt memory d₀ i :=
    fun d₀ hd₀ i hi hp heq => h.notTable ⟨d₀, hd₀, i, hi, hp, heq.symm⟩
  rcases h.origin hs hkernel hd hi hp with ⟨rfl, rfl, htable⟩ | ⟨d₀, hd₀, howner, hp₀, htable⟩
  · rcases h.origin hs hkernel hd' hj hp' with ⟨rfl, rfl, -⟩ | ⟨d₁, hd₁, -, hp₁, htable'⟩
    · exact ⟨rfl, .inr rfl⟩
    · rw [htable, htable'] at heq
      exact absurd heq (hfresh d₁ hd₁ j hj hp₁)
  · rcases h.origin hs hkernel hd' hj hp' with ⟨rfl, rfl, htable'⟩ | ⟨d₁, hd₁, howner', hp₁, htable'⟩
    · rw [htable, htable'] at heq
      exact absurd heq.symm (hfresh d₀ hd₀ i hi hp₀)
    · rw [htable, htable'] at heq
      obtain ⟨rfl, hshared⟩ := hs.apart d₀ hd₀ d₁ hd₁ i hi j hj hp₀ hp₁ heq
      refine ⟨rfl, ?_⟩
      rcases howner with hlow | rfl
      · exact .inl hlow
      · rcases howner' with hlow | rfl
        · exact .inl hlow
        · exact hshared

/-- It shows the kernel, and nothing in user space. -/
theorem NewDirectory.shows {k k' : PdState} {g : Paging} (hk : k.memory = memory) (hk' : k'.memory = memory')
    (hg : ShowsPaging pageDirectory k g) :
    ShowsPaging pd k' ⟨k'.physmem, fun v => if v < userOffset then g.pte v else absentPte⟩ := by
  subst hk hk'
  have htables := (h.spaces hs hkernel).tables List.mem_cons_self
  have hpde : ∀ v < userOffset, (HasTable k'.memory pd v ↔ HasTable k.memory pageDirectory v) ∧
      pteAddr k'.memory pd v = pteAddr k.memory pageDirectory v := by
    intro v hv
    have hword := h.kernel _ ((pdeIndex_lt_kernel v).mpr hv)
    unfold HasTable pteAddr tableAt
    rw [hword]
    exact ⟨Iff.rfl, rfl⟩
  refine ⟨htables, rfl, fun v hv ht => ?_, fun v hv ht => ?_⟩
  · have hlow : v < userOffset := by
      by_contra huser
      rw [← pdeIndex_lt_kernel] at huser
      exact ht (h.user _ (by omega) (pdeIndex_of_lt hv))
    have ht' := (hpde v hlow).1.mp ht
    show Pte.Shown _ (if pageAlignInf v < userOffset then g.pte (pageAlignInf v) else absentPte)
    rw [if_pos ((pageAlignInf_lt_user v).mpr hlow), (hpde v hlow).2]
    unfold pteAddr
    rw [h.same _ (isTable_pte hkernel ht') _ (pteIndex_lt v)]
    exact hg.entry v hv ht'
  · show (if pageAlignInf v < userOffset then g.pte (pageAlignInf v) else absentPte).present = false
    by_cases hlow : v < userOffset
    · rw [if_pos ((pageAlignInf_lt_user v).mpr hlow)]
      exact hg.absent v hv fun ht' => ht ((hpde v hlow).1.mpr ht')
    · rw [if_neg fun hc => hlow ((pageAlignInf_lt_user v).mp hc)]
      rfl

omit hkernel in
theorem NewDirectory.ne (hd : d ∈ ds) : d ≠ pd := by
  rintro rfl
  exact h.notTable (hs.isTable_directory hd)

/-- Its tables are those of the kernel. -/
theorem NewDirectory.tables {g : UInt32 → Nat → Bool}
    (hg : ∀ d ∈ ds, ∀ i < 1023, g d i = (memory (entryAddr d i) &&& pPresent != 0)) (hd : d ∈ pd :: ds) {i : Nat}
    (hi : i < 1023) : Function.update g pd (fun i => g pageDirectory i && decide (i < 256)) d i =
      (memory' (entryAddr d i) &&& pPresent != 0) := by
  rcases List.mem_cons.mp hd with rfl | hold
  · rw [Function.update_self]
    by_cases hlow : i < 256
    · rw [h.kernel i hlow, decide_eq_true hlow, Bool.and_true]
      exact hg _ hkernel i hi
    · rw [h.user i (by omega) hi, decide_eq_false hlow, Bool.and_false]
      rfl
  · rw [Function.update_of_ne (h.ne hs hold), hs.pde_same h.same d hold i (by omega)]
    exact hg d hold i hi

end

/-- What `paging_pd_create` writes. -/
theorem ShowsSpaces.newDirectory (h : ShowsSpaces s a) (hok : SpaceOk s .pdCreate) : NewDirectory s.k.memory
    (pagingPdCreate s.k).2.memory s.directories s.k.pageDirectory (pagingPdCreate s.k).1 := by
  obtain ⟨hfree, hnot, hstale⟩ := hok
  have hk : s.k.Aligned := ⟨hfree, h.spaces.aligned _ h.pageDirectory.2⟩
  refine ⟨hk.pd, hnot, sameTables_of_page hnot hk.pd fun addr => pagingPdCreate_frame s.k, fun i hi => ?_, ?_,
    fun i hi hi' => ?_⟩
  · rw [pagingPdCreate_entry hk (by omega), if_pos hi]
  · unfold SelfMapped
    rw [pagingPdCreate_entry hk (by decide), if_neg (by decide), if_pos rfl]
  · rw [pagingPdCreate_entry hk (by omega), if_neg (by omega), if_neg (by omega)]
    exact hstale i hi hi'

theorem ShowsSpaces.pdCreate (h : ShowsSpaces s a) (hok : SpaceOk s .pdCreate) : StepRefines s a .pdCreate := by
  have hnew := h.newDirectory hok
  obtain ⟨pd, hpd⟩ := @exists_eq _ (pagingPdCreate s.k).1
  obtain ⟨k', hk'⟩ := @exists_eq _ (pagingPdCreate s.k).2
  rw [← hpd, ← hk'] at hnew
  have hphysmem : k'.physmem = (physmemRefPhyspageNew a.physmem).2 := by
    rw [hk', h.physmem]
    rfl
  have hpd' : pd = (physmemRefPhyspageNew a.physmem).1 := by
    rw [hpd, h.physmem]
    rfl
  have hkernelDir : k'.pageDirectory = s.k.pageDirectory := by
    rw [hk']
    rfl
  refine ⟨⟨k', s.cr3, pd :: s.directories⟩, ?_, hnew.spaces h.spaces h.pageDirectory.2, ?_, ?_, ?_, fun d hd i hi => ?_,
    fun d hd => ?_⟩
  · rw [hpd, hk']
    rfl
  · exact ⟨h.pageDirectory.1.trans hkernelDir.symm, hkernelDir ▸ List.mem_cons_of_mem _ h.pageDirectory.2⟩
  · exact ⟨h.current.1, List.mem_cons_of_mem _ h.current.2⟩
  · show (physmemRefPhyspageNew a.physmem).1 :: a.directories = _
    rw [← hpd', h.directories]
  · show Function.update a.tables (physmemRefPhyspageNew a.physmem).1
      (fun i => a.tables a.pageDirectory i && decide (i < 256)) d i = (k'.memory (entryAddr d i) &&& pPresent != 0)
    rw [← hpd', h.pageDirectory.1]
    exact hnew.tables h.spaces h.pageDirectory.2 h.tables hd hi
  · have hspace : (a.step .pdCreate).space d = ⟨k'.physmem, fun v => if v < userOffset then a.kernel v else
        Function.update a.user pd (fun _ => absentPte) d v⟩ := by
      rw [hphysmem, hpd']
      rfl
    rw [hspace]
    rcases List.mem_cons.mp hd with rfl | hold
    · have hshows : ShowsPaging _ k' _ :=
        hnew.shows h.spaces h.pageDirectory.2 rfl rfl (h.shows _ h.pageDirectory.2)
      have hpte : (fun v => if v < userOffset then (a.space s.k.pageDirectory).pte v else absentPte) =
          fun v => if v < userOffset then a.kernel v else absentPte := by
        funext v
        by_cases hv : v < userOffset
        · rw [if_pos hv, if_pos hv]
          exact if_pos hv
        · rw [if_neg hv, if_neg hv]
      rw [hpte] at hshows
      rw [Function.update_self]
      exact hshows
    · rw [Function.update_of_ne (hnew.ne h.spaces hold)]
      exact (h.shows d hold).same h.spaces hold hnew.same

/-! ### A new table -/

section

variable {memory memory' : UInt32 → UInt32} {ds : List UInt32} {cr3 p v w : UInt32}

/-- The translation of any address depends on the tables only. -/
theorem Spaces.translate_same (hs : Spaces memory ds) (hd : d ∈ ds) (hsame : SameTables memory memory' ds) :
    mmuTranslate memory' d v = mmuTranslate memory d v := by
  have hdirs := hs.pde_same hsame
  rw [mmuTranslate_eq, mmuTranslate_eq, hdirs.pteAddr hd, hdirs d hd _ (pdeIndex_lt v)]
  by_cases ht : HasTable memory d v
  · have hword : memory' (pteAddr memory d v) = memory (pteAddr memory d v) :=
      hsame _ (isTable_pte hd ht) _ (pteIndex_lt v)
    rw [hword]
  · rw [if_pos (not_not.mp ht), if_pos (not_not.mp ht)]

/-- The words of a page are those of its frame. -/
theorem mmuTranslate_word (hv : isPageAligned v = true) (ht : mmuTranslate memory d v = some p) {i : Nat} (hi : i < 1024) :
    mmuTranslate memory d (entryAddr v i) = some (entryAddr p i) := by
  have halign : v.toNat % 4096 = 0 := (isAligned_iff v).mp hv
  have haddr := entryAddr_toNat hv hi
  have hpde : (entryAddr v i >>> 22).toNat = (v >>> 22).toNat := by
    rw [shiftRight_pde, shiftRight_pde, haddr]
    omega
  have hpte : ((entryAddr v i >>> 12) &&& 0x3FF).toNat = ((v >>> 12) &&& 0x3FF).toNat := by
    rw [shiftRight_pte, shiftRight_pte, haddr]
    omega
  have hptes : pteAddr memory d (entryAddr v i) = pteAddr memory d v := by
    unfold pteAddr
    rw [hpde, hpte]
  rw [mmuTranslate_eq] at ht ⊢
  rw [hpde, hptes]
  split_ifs at ht ⊢ with hd hp
  have hzero : v &&& 0xFFF = 0 := beq_iff_eq.mp hv
  have hframe : isPageAligned (memory (pteAddr memory d v) &&& 0xFFFFF000) = true := by
    apply (isAligned_iff _).mpr
    rw [@toNat_mask _ 0xFFFFF000 12 (by decide) (by decide)]
    omega
  rw [hzero, UInt32.add_zero] at ht
  obtain rfl := Option.some.inj ht
  rw [@frame_add_offset _ _ hframe i hi (by rw [haddr]; omega)]

theorem mmuTranslate_page (hv : isPageAligned v = true) (ht : mmuTranslate memory d v = some p) :
    isPageAligned p = true := by
  rw [mmuTranslate_eq] at ht
  split_ifs at ht
  have hzero : v &&& 0xFFF = 0 := beq_iff_eq.mp hv
  rw [hzero, UInt32.add_zero] at ht
  rw [← Option.some.inj ht]
  apply (isAligned_iff _).mpr
  rw [@toNat_mask _ 0xFFFFF000 12 (by decide) (by decide)]
  omega

theorem sameTables_clear (hp : ¬ IsTable memory ds p) (haligned : isPageAligned p = true) {n : Nat} (hn : n ≤ 1024) :
    SameTables memory (clearEntries p memory n) ds :=
  sameTables_of_page hp haligned fun _ hne => clearEntries_of_ne memory n fun i hi => hne i (by omega)

/-- A page that is no table is cleared. -/
theorem Spaces.zeroWords_eq (hs : Spaces memory ds) (hd : d ∈ ds) (hv : isPageAligned v = true)
    (ht : mmuTranslate memory d v = some p) (hp : ¬ IsTable memory ds p) (n : Nat) (hn : n ≤ 1024) :
    zeroWords d v n memory = some (clearEntries p memory n) := by
  induction n with
  | zero => rfl
  | succ n ih =>
    have hpage := mmuTranslate_page hv ht
    have hword : mmuTranslate (clearEntries p memory n) d (entryAddr v n) = some (entryAddr p n) := by
      rw [hs.translate_same hd (sameTables_clear hp hpage (by omega))]
      exact mmuTranslate_word hv ht (by omega)
    unfold zeroWords
    rw [ih (by omega)]
    show (mmuTranslate (clearEntries p memory n) d (entryAddr v n)).map _ = _
    rw [hword]
    rfl

theorem clearEntries_entry (hp : isPageAligned p = true) (n : Nat) (hn : n ≤ 1024) {i : Nat} (hi : i < n) :
    clearEntries p memory n (entryAddr p i) = 0 := by
  induction n with
  | zero => exact absurd hi (Nat.not_lt_zero i)
  | succ n ih =>
    unfold clearEntries
    by_cases hin : i = n
    · rw [hin, Function.update_self]
    · rw [Function.update_of_ne fun heq => hin (entryAddr_inj hp hp (by omega) (by omega) heq).2]
      exact ih (by omega) (by omega)

/-- What is known when the entry of a new table is written. -/
structure NewTable (memory : UInt32 → UInt32) (ds : List UInt32) (cr3 p v : UInt32) : Prop where
  mem : cr3 ∈ ds
  user : 256 ≤ (v >>> 22).toNat ∧ (v >>> 22).toNat < 1023
  absent : ¬ HasTable memory cr3 v
  aligned : isPageAligned p = true
  notTable : ¬ IsTable memory ds p
  empty : ∀ i < 1024, memory (entryAddr p i) = 0

/-- The memory with the entry. -/
def enterTable (memory : UInt32 → UInt32) (cr3 p v : UInt32) : UInt32 → UInt32 :=
  Function.update memory (entryAddr cr3 (v >>> 22).toNat) (p ||| (pPresent ||| pdWrite ||| pdUser))

theorem tableEntry_frame (hp : isPageAligned p = true) : ¬ (p ||| (pPresent ||| pdWrite ||| pdUser)) &&& pPresent = 0 ∧
    (p ||| (pPresent ||| pdWrite ||| pdUser)) &&& 0xFFFFF000 = p := by
  have hword : p ||| (pPresent ||| pdWrite ||| pdUser) = p ||| pdRead ||| pdWrite ||| pdUser := by
    simp only [UInt32.or_assoc]
    rfl
  rw [hword]
  exact tableWord_frame hp

namespace NewTable

variable (h : NewTable memory ds cr3 p v) (hs : Spaces memory ds)

include h hs

/-- The other entries of the directories stay as they are. -/
theorem pde (hd : d ∈ ds) {i : Nat} (hi : i < 1024) (hne : ¬ (d = cr3 ∧ i = (v >>> 22).toNat)) :
    enterTable memory cr3 p v (entryAddr d i) = memory (entryAddr d i) :=
  Function.update_of_ne (fun heq => hne (entryAddr_inj (hs.aligned d hd) (hs.aligned cr3 h.mem) hi (pdeIndex_lt v) heq)) _ _

theorem origin (hd : d ∈ ds) {i : Nat} (hi : i < 1024)
    (hp : ¬ enterTable memory cr3 p v (entryAddr d i) &&& pPresent = 0) :
    (d = cr3 ∧ i = (v >>> 22).toNat ∧ tableAt (enterTable memory cr3 p v) d i = p) ∨
      (¬ memory (entryAddr d i) &&& pPresent = 0 ∧ tableAt (enterTable memory cr3 p v) d i = tableAt memory d i) := by
  by_cases hnew : d = cr3 ∧ i = (v >>> 22).toNat
  · obtain ⟨rfl, rfl⟩ := hnew
    refine .inl ⟨rfl, rfl, ?_⟩
    unfold tableAt enterTable
    rw [Function.update_self]
    exact (tableEntry_frame h.aligned).2
  · rw [h.pde hs hd hi hnew] at hp
    refine .inr ⟨hp, ?_⟩
    unfold tableAt
    rw [h.pde hs hd hi hnew]

theorem spaces : Spaces (enterTable memory cr3 p v) ds := by
  have huser := h.user
  refine ⟨hs.aligned, fun d hd => ?_, fun d hd d' hd' i hi => ?_, fun d hd d' hd' i hi j hj hp hp' heq => ?_⟩
  · exact (h.pde hs hd (by decide) fun hnew => by omega).trans (hs.self d hd)
  · rw [h.pde hs hd (by omega) fun hnew => by omega, h.pde hs hd' (by omega) fun hnew => by omega]
    exact hs.kernel d hd d' hd' i hi
  · have hfresh : ∀ d₀ ∈ ds, ∀ i < 1024, ¬ memory (entryAddr d₀ i) &&& pPresent = 0 → p ≠ tableAt memory d₀ i :=
      fun d₀ hd₀ i hi hp heq => h.notTable ⟨d₀, hd₀, i, hi, hp, heq.symm⟩
    rcases h.origin hs hd hi hp with ⟨rfl, rfl, htable⟩ | ⟨hold, htable⟩
    · rcases h.origin hs hd' hj hp' with ⟨rfl, rfl, -⟩ | ⟨hold', htable'⟩
      · exact ⟨rfl, .inr rfl⟩
      · rw [htable, htable'] at heq
        exact absurd heq (hfresh d' hd' j hj hold')
    · rcases h.origin hs hd' hj hp' with ⟨rfl, rfl, htable'⟩ | ⟨hold', htable'⟩
      · rw [htable, htable'] at heq
        exact absurd heq.symm (hfresh d hd i hi hold)
      · rw [htable, htable'] at heq
        exact hs.apart d hd d' hd' i hi j hj hold hold' heq

/-- A page of another directory, or of another table, has the entry that it had. -/
theorem pte_old {u : UInt32} (hd : d ∈ ds) (hu : u < pageTableMap)
    (hne : ¬ (d = cr3 ∧ (u >>> 22).toNat = (v >>> 22).toNat)) :
    (HasTable (enterTable memory cr3 p v) d u ↔ HasTable memory d u) ∧ (HasTable memory d u →
      enterTable memory cr3 p v (pteAddr (enterTable memory cr3 p v) d u) = memory (pteAddr memory d u)) := by
  have hword := h.pde hs hd (pdeIndex_lt u) hne
  have haddr : pteAddr (enterTable memory cr3 p v) d u = pteAddr memory d u := by
    unfold pteAddr tableAt
    rw [hword]
  refine ⟨by unfold HasTable; rw [hword], fun ht => ?_⟩
  rw [haddr]
  exact Function.update_of_ne (hs.pde_ne_pteAddr h.mem hd hu ht (pdeIndex_lt v)).symm _ _

/-- A page of the new table has an empty entry. -/
theorem pte_new {u : UInt32} (hu : (u >>> 22).toNat = (v >>> 22).toNat) :
    HasTable (enterTable memory cr3 p v) cr3 u ∧
      enterTable memory cr3 p v (pteAddr (enterTable memory cr3 p v) cr3 u) = 0 := by
  have hword : enterTable memory cr3 p v (entryAddr cr3 (u >>> 22).toNat) = p ||| (pPresent ||| pdWrite ||| pdUser) := by
    rw [hu]
    exact Function.update_self ..
  have hcr3 : p ≠ cr3 := by
    rintro rfl
    exact h.notTable (hs.isTable_directory h.mem)
  refine ⟨?_, ?_⟩
  · unfold HasTable
    rw [hword]
    exact (tableEntry_frame h.aligned).1
  · unfold pteAddr tableAt
    rw [hword, (tableEntry_frame h.aligned).2]
    refine (Function.update_of_ne (fun heq => hcr3 ?_) _ _).trans (h.empty _ (pteIndex_lt u))
    exact (entryAddr_inj h.aligned (hs.aligned cr3 h.mem) (pteIndex_lt u) (pdeIndex_lt v) heq).1

end NewTable

end

/-- What the call computes with a page of the kernel, where there is no table. -/
theorem pagingPdAddPt_new {k : PdState} {ds : List UInt32} {cr3 vaddr pgVaddr p : UInt32} (hs : Spaces k.memory ds)
    (hd : cr3 ∈ ds) (ht : ¬ HasTable k.memory cr3 vaddr) (hne : pgVaddr ≠ 0) (haligned : isPageAligned pgVaddr = true)
    (hp : p ≠ 0) (htranslate : mmuTranslate k.memory cr3 pgVaddr = some p) (hnot : ¬ IsTable k.memory ds p) :
    ∃ cleared, SameTables k.memory cleared ds ∧ (∀ i < 1024, cleared (entryAddr p i) = 0) ∧
      pagingPdAddPt cr3 k vaddr pgVaddr = some (0, { k with
        memory := enterTable cleared cr3 p vaddr
        physmem := (physmemRefPhyspageAt k.physmem p).2 }) := by
  have hpage := mmuTranslate_page haligned htranslate
  obtain ⟨once, honce⟩ := @exists_eq _ (clearEntries p k.memory 1024)
  obtain ⟨twice, htwice⟩ := @exists_eq _ (clearEntries p once 1024)
  have hsame : SameTables k.memory once ds := honce ▸ sameTables_clear hnot hpage le_rfl
  have hdirs := hs.pde_same hsame
  have hs' := hs.same hdirs
  have hnot' : ¬ IsTable once ds p := fun hc => hnot (hdirs.isTable.mp hc)
  have htranslate' : mmuTranslate once cr3 pgVaddr = some p := (hs.translate_same hd hsame).trans htranslate
  have hsame' : SameTables once twice ds := htwice ▸ sameTables_clear hnot' hpage le_rfl
  have hs'' := hs'.same (hs'.pde_same hsame')
  refine ⟨twice, fun q hq i hi => (hsame' q (hdirs.isTable.mpr hq) i hi).trans (hsame q hq i hi), fun i hi => ?_, ?_⟩
  · rw [htwice]
    exact clearEntries_entry hpage 1024 le_rfl hi
  · have hpde : loadWord k.memory cr3 (pdeVaddr vaddr) = some (k.memory (entryAddr cr3 (vaddr >>> 22).toNat)) :=
      loadWord_pde (hs.self cr3 hd) (hs.aligned cr3 hd) vaddr
    have habsent : k.memory (entryAddr cr3 (vaddr >>> 22).toNat) &&& pPresent = 0 := not_not.mp ht
    have hstore : storeWord twice cr3 (pdeVaddr vaddr) (p ||| (pPresent ||| pdWrite ||| pdUser)) =
        some (enterTable twice cr3 p vaddr) := by
      have htable : mmuTranslate twice cr3 (pdeVaddr vaddr) = some (entryAddr cr3 (vaddr >>> 22).toNat) :=
        mmuTranslate_pde (hs''.self cr3 hd) (hs''.aligned cr3 hd) vaddr
      unfold storeWord
      rw [htable]
      rfl
    unfold pagingPdAddPt
    dsimp only [Option.bind_eq_bind]
    rw [hpde, Option.bind_some, if_neg (not_not.mpr habsent), if_neg hne,
      hs.zeroWords_eq hd haligned htranslate hnot 1024 le_rfl, ← honce, Option.bind_some,
      virtualToPhysical_eq (hs'.self cr3 hd) (hs'.aligned cr3 hd), htranslate', Option.getD_some, Option.bind_some,
      if_neg hp, hs'.zeroWords_eq hd haligned htranslate' hnot' 1024 le_rfl, ← htwice, Option.bind_some, hstore]
    rfl

theorem absentPte_shown : Pte.Shown 0 absentPte := ⟨rfl, rfl, rfl, rfl⟩

/-- The user entries of the current directory with an empty table. -/
theorem NewTable.shows {k k' : PdState} {ds : List UInt32} {cr3 p v : UInt32} {g : Paging} (h : NewTable k.memory ds cr3 p v)
    (hs : Spaces k.memory ds) (hk : k'.memory = enterTable k.memory cr3 p v) (hd : d ∈ ds) (hg : ShowsPaging d k g) :
    ShowsPaging d k' ⟨k'.physmem, fun u => if d = cr3 ∧ (u >>> 22).toNat = (v >>> 22).toNat then absentPte else g.pte u⟩ := by
  have hindex : ∀ u, (pageAlignInf u >>> 22).toNat = (u >>> 22).toNat := by
    intro u
    have halign : (pageAlignInf u).toNat = u.toNat / 4096 * 4096 := toNat_alignInf u
    rw [shiftRight_pde, shiftRight_pde, halign]
    omega
  refine ⟨hk ▸ (h.spaces hs).tables hd, rfl, fun u hu ht => ?_, fun u hu ht => ?_⟩
  · show Pte.Shown (k'.memory _) (if d = cr3 ∧ (pageAlignInf u >>> 22).toNat = (v >>> 22).toNat then absentPte
      else g.pte (pageAlignInf u))
    rw [hindex]
    rw [hk] at ht ⊢
    by_cases hnew : d = cr3 ∧ (u >>> 22).toNat = (v >>> 22).toNat
    · rw [if_pos hnew]
      obtain ⟨rfl, hnew⟩ := hnew
      rw [(h.pte_new hs hnew).2]
      exact absentPte_shown
    · obtain ⟨htable, hword⟩ := h.pte_old hs hd hu hnew
      rw [if_neg hnew, hword (htable.mp ht)]
      exact hg.entry u hu (htable.mp ht)
  · show (if d = cr3 ∧ (pageAlignInf u >>> 22).toNat = (v >>> 22).toNat then absentPte
      else g.pte (pageAlignInf u)).present = false
    rw [hindex]
    rw [hk] at ht
    by_cases hnew : d = cr3 ∧ (u >>> 22).toNat = (v >>> 22).toNat
    · rw [if_pos hnew]
      rfl
    · rw [if_neg hnew]
      exact hg.absent u hu fun ht' => ht ((h.pte_old hs hd hu hnew).1.mpr ht')

theorem pdeIndex_user (hv : userOffset ≤ v) : 256 ≤ (v >>> 22).toNat := by
  by_contra hc
  have hkernel := (pdeIndex_lt_kernel v).mp (by omega)
  rw [word_lt_iff] at hkernel
  exact absurd hkernel (Nat.not_lt.mpr (word_le_iff.mp hv))

/-- What the call computes where there is a table, or with no page. -/
theorem pagingPdAddPt_same {k : PdState} {ds : List UInt32} {cr3 vaddr pgVaddr : UInt32} (hs : Spaces k.memory ds)
    (hd : cr3 ∈ ds) (h : HasTable k.memory cr3 vaddr ∨ pgVaddr = 0) :
    ∃ r, pagingPdAddPt cr3 k vaddr pgVaddr = some (r, k) := by
  have hpde : loadWord k.memory cr3 (pdeVaddr vaddr) = some (k.memory (entryAddr cr3 (vaddr >>> 22).toNat)) :=
    loadWord_pde (hs.self cr3 hd) (hs.aligned cr3 hd) vaddr
  unfold pagingPdAddPt
  dsimp only [Option.bind_eq_bind]
  rw [hpde, Option.bind_some]
  by_cases hpresent : k.memory (entryAddr cr3 (vaddr >>> 22).toNat) &&& pPresent ≠ 0
  · rw [if_pos hpresent]
    exact ⟨0, rfl⟩
  · rw [if_neg hpresent, if_pos (h.resolve_left hpresent)]
    exact ⟨-3, rfl⟩

/-- The directories have the new table, and no other one. -/
theorem NewTable.tables {m : UInt32 → UInt32} {ds : List UInt32} {cr3 p v : UInt32} {g : UInt32 → Nat → Bool}
    (h : NewTable m ds cr3 p v) (hs : Spaces m ds)
    (hg : ∀ d ∈ ds, ∀ i < 1023, g d i = (m (entryAddr d i) &&& pPresent != 0)) (hd : d ∈ ds) {i : Nat} (hi : i < 1023) :
    Function.update g cr3 (Function.update (g cr3) (v >>> 22).toNat true) d i =
      (enterTable m cr3 p v (entryAddr d i) &&& pPresent != 0) := by
  by_cases hentry : d = cr3 ∧ i = (v >>> 22).toNat
  · obtain ⟨rfl, rfl⟩ := hentry
    rw [Function.update_self, Function.update_self]
    exact (bne_iff_ne.mpr (h.pte_new hs rfl).1).symm
  · rw [h.pde hs hd (by omega) hentry, ← hg d hd i hi]
    by_cases hcurrent : d = cr3
    · subst hcurrent
      rw [Function.update_self, Function.update_of_ne fun hc => hentry ⟨rfl, hc⟩]
    · rw [Function.update_of_ne hcurrent]

/-- The entries of a space, with those of a new table of the current one empty. -/
theorem space_newTable (a : AddressSpaces) (cr3 d vaddr : UInt32) (hfirst : 256 ≤ (vaddr >>> 22).toNat) :
    (fun u : UInt32 => if d = cr3 ∧ (u >>> 22).toNat = (vaddr >>> 22).toNat then absentPte else (a.space d).pte u) =
      fun u => if u < userOffset then a.kernel u else Function.update a.user cr3
        (fun v => if (v >>> 22).toNat = (vaddr >>> 22).toNat then absentPte else a.user cr3 v) d u := by
  funext u
  by_cases hu : u < userOffset
  · have hkernel := (pdeIndex_lt_kernel u).mpr hu
    rw [if_neg fun hc => by omega, if_pos hu]
    exact if_pos hu
  · have hspace : (a.space d).pte u = a.user d u := if_neg hu
    rw [if_neg hu, hspace]
    by_cases hcurrent : d = cr3
    · subst hcurrent
      rw [Function.update_self]
      simp only [true_and]
    · rw [if_neg fun hc => hcurrent hc.1, Function.update_of_ne hcurrent]

theorem ShowsSpaces.pdAddPt (h : ShowsSpaces s a) (vaddr pgVaddr : UInt32) (hok : SpaceOk s (.pdAddPt vaddr pgVaddr)) :
    StepRefines s a (.pdAddPt vaddr pgVaddr) := by
  obtain ⟨huser, hmap, hpage⟩ := hok
  have hcr3 := h.current.2
  have hlast := pdeIndex_of_lt hmap
  have hfirst := pdeIndex_user huser
  have htable : a.tables a.current (vaddr >>> 22).toNat = true ↔ HasTable s.k.memory s.cr3 vaddr := by
    rw [h.current.1, h.tables s.cr3 hcr3 _ hlast]
    exact bne_iff_ne
  by_cases hsame : HasTable s.k.memory s.cr3 vaddr ∨ pgVaddr = 0
  · obtain ⟨r, heq⟩ := pagingPdAddPt_same h.spaces hcr3 hsame
    refine ⟨s, ?_, ?_⟩
    · show (pagingPdAddPt s.cr3 s.k vaddr pgVaddr).map _ = _
      rw [heq]
      rfl
    · show ShowsSpaces s (if _ then a else _)
      rw [if_pos (hsame.imp_left htable.mpr)]
      exact h
  obtain ⟨ht, hnull⟩ := not_or.mp hsame
  obtain ⟨haligned, hpgMap, p, hp, htranslate, hnot⟩ := (hpage.resolve_left ht).resolve_left hnull
  obtain ⟨cleared, hkept, hempty, heq⟩ := pagingPdAddPt_new h.spaces hcr3 ht hnull haligned hp htranslate hnot
  have hdirs := h.spaces.pde_same hkept
  have hs := h.spaces.same hdirs
  have hnew : NewTable cleared s.directories s.cr3 p vaddr :=
    ⟨hcr3, ⟨hfirst, hlast⟩, fun hc => ht ((hdirs.hasTable hcr3).mp hc),
      mmuTranslate_page haligned htranslate, fun hc => hnot (hdirs.isTable.mp hc), hempty⟩
  have hphys : pagingVirtualToPhysical (a.space a.current) pgVaddr = p := by
    rw [h.current.1, pagingVirtualToPhysical_translate, ← (h.shows _ hcr3).translate hpgMap, htranslate]
    rfl
  refine ⟨⟨⟨(physmemRefPhyspageAt s.k.physmem p).2, s.k.pageDirectory, enterTable cleared s.cr3 p vaddr⟩, s.cr3,
    s.directories⟩, ?_, ?_⟩
  · show (pagingPdAddPt s.cr3 s.k vaddr pgVaddr).map _ = _
    rw [heq]
    rfl
  show ShowsSpaces _ (if _ then a else _)
  rw [if_neg (fun hc => hsame (hc.imp_left htable.mp)), hphys, h.current.1, h.physmem]
  refine ⟨hnew.spaces hs, h.pageDirectory, ⟨rfl, hcr3⟩, h.directories, fun d hd i hi => ?_, fun d hd => ?_⟩
  · refine hnew.tables hs (fun d hd i hi => ?_) hd hi
    rw [hdirs d hd i (by omega)]
    exact h.tables d hd i hi
  · have hcleared : ShowsPaging d ⟨s.k.physmem, s.k.pageDirectory, cleared⟩ _ :=
      (h.shows d hd).same h.spaces hd hkept
    have hshows : ShowsPaging d
        ⟨(physmemRefPhyspageAt s.k.physmem p).2, s.k.pageDirectory, enterTable cleared s.cr3 p vaddr⟩ _ :=
      hnew.shows hs rfl hd hcleared
    rw [space_newTable a s.cr3 d vaddr hfirst] at hshows
    exact hshows

/-! ## Runs -/

theorem ShowsSpaces.step (h : ShowsSpaces s a) (op : SpaceOp) (hok : SpaceOk s op) : StepRefines s a op := by
  cases op with
  | paging op => exact h.paging op hok
  | loadPd pd => exact h.loadPd pd hok
  | pdCreate => exact h.pdCreate hok
  | pdAddPt vaddr pgVaddr => exact h.pdAddPt vaddr pgVaddr hok
  | store vaddr word => exact h.store vaddr word hok
  | release pd => exact h.release pd hok

/-- The calls of a run meet `SpaceOk`, each in the state that the ones before it leave. -/
def SpaceRunOk : SpaceState → List SpaceOp → Prop
  | _, [] => True
  | s, op :: ops => SpaceOk s op ∧ ∀ s' ∈ spaceStep s op, SpaceRunOk s' ops

theorem ShowsSpaces.run (ops : List SpaceOp) : ∀ {s : SpaceState} {a : AddressSpaces}, ShowsSpaces s a → SpaceRunOk s ops →
    ∃ s', ops.foldlM spaceStep s = some s' ∧ ShowsSpaces s' (Library.run AddressSpaces.step a ops) := by
  induction ops with
  | nil => exact fun h _ => ⟨_, rfl, h⟩
  | cons op ops ih =>
    intro s a h hok
    obtain ⟨s₁, heq, h₁⟩ := h.step op hok.1
    obtain ⟨s', heq', h'⟩ := ih h₁ (hok.2 s₁ heq)
    refine ⟨s', ?_, h'⟩
    rw [List.foldlM_cons, heq]
    exact heq'

/-- The process of the directory neither runs nor ends. -/
def Idle (d : UInt32) : SpaceOp → Prop
  | .loadPd pd => pd ≠ d
  | .release pd => pd ≠ d
  | _ => True

theorem spaceStep_paging {s' : SpaceState} {op : PagingOp} (h : s' ∈ spaceStep s (.paging op)) :
    s'.directories = s.directories ∧ s'.cr3 = s.cr3 := by
  obtain ⟨k, -, rfl⟩ := Option.map_eq_some_iff.mp h
  exact ⟨rfl, rfl⟩

/-- A step of another process. -/
theorem user_step (h : ShowsSpaces s a) (hd : d ∈ s.directories) (hcr3 : s.cr3 ≠ d) (op : SpaceOp) (hok : SpaceOk s op)
    (hidle : Idle d op) : (a.step op).user d = a.user d ∧ ∀ s' ∈ spaceStep s op, d ∈ s'.directories ∧ s'.cr3 ≠ d := by
  have hcurrent : d ≠ a.current := fun hc => hcr3 (h.current.1.symm.trans hc.symm)
  cases op with
  | paging op =>
    refine ⟨Function.update_of_ne hcurrent _ _, fun s' hs' => ?_⟩
    obtain ⟨hdirs, hcr3'⟩ := spaceStep_paging hs'
    rw [hdirs, hcr3']
    exact ⟨hd, hcr3⟩
  | loadPd pd =>
    refine ⟨rfl, fun s' hs' => ?_⟩
    obtain rfl := Option.some.inj hs'
    exact ⟨hd, hidle⟩
  | pdCreate =>
    have hpd : (physmemRefPhyspageNew a.physmem).1 = (pagingPdCreate s.k).1 := by
      rw [h.physmem]
      rfl
    refine ⟨Function.update_of_ne (fun heq => hok.2.1 ?_) _ _, fun s' hs' => ?_⟩
    · have hnew : d = (physmemRefPhyspageNew a.physmem).1 := heq
      rw [← hpd, ← hnew]
      exact h.spaces.isTable_directory hd
    · obtain rfl := Option.some.inj hs'
      exact ⟨List.mem_cons_of_mem _ hd, hcr3⟩
  | pdAddPt vaddr pgVaddr =>
    refine ⟨?_, fun s' hs' => ?_⟩
    · show (if _ then a else _ : AddressSpaces).user d = _
      split_ifs
      · rfl
      · exact Function.update_of_ne hcurrent _ _
    · obtain ⟨k, -, rfl⟩ := Option.map_eq_some_iff.mp hs'
      exact ⟨hd, hcr3⟩
  | store vaddr word =>
    refine ⟨rfl, fun s' hs' => ?_⟩
    obtain ⟨k, -, rfl⟩ := Option.map_eq_some_iff.mp hs'
    exact ⟨hd, hcr3⟩
  | release pd =>
    refine ⟨rfl, fun s' hs' => ?_⟩
    obtain rfl := Option.some.inj hs'
    exact ⟨List.mem_filter.mpr ⟨hd, decide_eq_true (Ne.symm hidle)⟩, hcr3⟩

theorem user_run (ops : List SpaceOp) : ∀ {s : SpaceState} {a : AddressSpaces}, ShowsSpaces s a → SpaceRunOk s ops →
    d ∈ s.directories → s.cr3 ≠ d → (∀ op ∈ ops, Idle d op) →
    (run AddressSpaces.step a ops).user d = a.user d ∧ ∀ s' ∈ ops.foldlM spaceStep s, d ∈ s'.directories := by
  induction ops with
  | nil =>
    intro s a _ _ hd _ _
    refine ⟨rfl, fun s' hs' => ?_⟩
    obtain rfl := Option.some.inj hs'
    exact hd
  | cons op ops ih =>
    intro s a h hok hd hcr3 hidle
    obtain ⟨s₁, heq, h₁⟩ := h.step op hok.1
    obtain ⟨huser, hnext⟩ := user_step h hd hcr3 op hok.1 (hidle op List.mem_cons_self)
    obtain ⟨hd₁, hcr3₁⟩ := hnext s₁ heq
    obtain ⟨hrest, hfinal⟩ := ih h₁ (hok.2 s₁ heq) hd₁ hcr3₁ fun op hop => hidle op (List.mem_cons_of_mem _ hop)
    refine ⟨hrest.trans huser, fun s' hs' => hfinal s' ?_⟩
    rw [List.foldlM_cons, heq] at hs'
    exact hs'

end

/-! ## Two processes -/

/-- The directory and the table of `oneTable`, and a free page at `0x200000`. -/
def oneSpace : SpaceState where
  k := { oneTable with physmem := ⟨0x1000, 0x400000, fun _ => 0, [0x200000], [], 0⟩ }
  cr3 := 0x100000
  directories := [0x100000]

def oneSpaceMaps : AddressSpaces where
  physmem := oneSpace.k.physmem
  kernel _ := absentPte
  user _ _ := absentPte
  tables _ i := decide (i = 256)
  pageDirectory := 0x100000
  current := 0x100000
  directories := [0x100000]

theorem oneSpace_shows : ShowsSpaces oneSpace oneSpaceMaps := by
  have hone := oneTable_shows
  have hmem : ∀ d ∈ oneSpace.directories, d = 0x100000 := fun d hd => List.mem_singleton.mp hd
  refine ⟨⟨fun d hd => ?_, fun d hd => ?_, fun d hd d' hd' i _ => ?_, fun d hd d' hd' i hi j hj hp hp' heq => ?_⟩,
    ⟨rfl, List.mem_singleton_self _⟩, ⟨rfl, List.mem_singleton_self _⟩, rfl, fun d hd i hi => ?_, fun d hd => ?_⟩
  · rw [hmem d hd]
    exact hone.tables.aligned
  · rw [hmem d hd]
    exact hone.tables.self
  · rw [hmem d hd, hmem d' hd']
  · rw [hmem d hd] at hp heq
    rw [hmem d' hd'] at hp' heq
    rw [hmem d hd, hmem d' hd']
    exact ⟨hone.tables.apart i hi j hj hp hp' heq, .inr rfl⟩
  · rw [hmem d hd]
    show decide (i = 256) = (oneTable.memory (entryAddr 0x100000 i) &&& pPresent != 0)
    rw [oneTable_pde (by omega), if_neg (by omega)]
    by_cases htable : i = 256
    · rw [if_pos htable, decide_eq_true htable]
      rfl
    · rw [if_neg htable, decide_eq_false htable]
      rfl
  · rw [hmem d hd]
    have hpte : (oneSpaceMaps.space 0x100000) = ⟨oneSpace.k.physmem, fun _ => absentPte⟩ := by
      unfold AddressSpaces.space oneSpaceMaps
      simp only [ite_self]
    rw [hpte]
    exact ⟨hone.tables, rfl, hone.entry, hone.absent⟩

/-- A second directory is made, a page mapped in the first one, and the second one loaded. -/
def twoProcesses : List SpaceOp := [.pdCreate, .paging (.map 0x40000000 0x350000 true), .loadPd 0x200000]

theorem twoProcesses_ok : SpaceRunOk oneSpace twoProcesses := by
  have hnot : ¬ IsTable oneSpace.k.memory oneSpace.directories 0x200000 := by
    rintro ⟨d, hd, i, hi, hp, heq⟩
    obtain rfl := List.mem_singleton.mp hd
    have hword : oneSpace.k.memory (entryAddr 0x100000 i) = _ := oneTable_pde hi
    unfold tableAt at heq
    rw [hword] at hp heq
    split_ifs at hp heq
    · exact absurd heq (by decide)
    · exact absurd heq (by decide)
    · exact hp rfl
  have hempty : ∀ i, 256 ≤ i → i < 1023 → oneSpace.k.memory (entryAddr 0x200000 i) &&& pPresent = 0 := by
    intro i hlow hhigh
    have haddr : (entryAddr 0x200000 i).toNat = 2097152 + 4 * i := entryAddr_toNat (by decide) (by omega)
    have hne : ∀ w : UInt32, w.toNat < 2097152 → entryAddr 0x200000 i ≠ w := by
      intro w hw heq
      rw [heq] at haddr
      omega
    show (if entryAddr 0x200000 i = 0x100FFC then (0x100003 : UInt32) else
      if entryAddr 0x200000 i = 0x100400 then 0x300007 else 0) &&& pPresent = 0
    rw [if_neg (hne _ (by decide)), if_neg (hne _ (by decide))]
    rfl
  refine ⟨⟨fun p hp => ?_, hnot, hempty⟩, fun s₁ hs₁ => ?_⟩
  · rw [List.mem_singleton.mp hp]
    decide
  obtain rfl := Option.some.inj hs₁
  have hin : (0x40000000 : UInt32) < pagingMirror := by decide
  refine ⟨⟨hin, fun u hu => ?_⟩, fun s₂ hs₂ => ?_⟩
  · obtain rfl := List.mem_singleton.mp hu
    unfold HasTable
    decide +kernel
  have hpd : (pagingPdCreate oneSpace.k).1 = 0x200000 := by decide +kernel
  have hmem : 0x200000 ∈ s₂.directories := by
    rw [(spaceStep_paging hs₂).1, ← hpd]
    exact List.mem_cons_self
  exact ⟨hmem, fun _ _ => trivial⟩

end Desiros.Mem
