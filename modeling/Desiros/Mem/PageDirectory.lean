import Desiros.Mem.PhysmemRuns

/-!
# Page directories (`paging_pd_create`)

Here the page tables are words of physical memory. `mmuTranslate` is what the processor does with the
directory in `cr3`; `virtualToPhysical` is `paging_virtual_to_physical`, which finds the entries through the
mirror that entry 1023 of a directory makes of it. `paging_pd_create` writes the entries `0..255` and `1023`
of a page as it comes from the allocator, so a directory maps nothing in user space exactly when the other
entries happen to be absent in what the page held before (`pagingPdCreate_fresh_iff`).
-/

namespace Desiros.Mem

open Desiros.Library

def pPresent : UInt32 := 0x01
def pdRead : UInt32 := 0x01
def pdWrite : UInt32 := 0x02
def pdUser : UInt32 := 0x04

/-- `PAGE_TABLE_MAP`: the mirror, behind user space. -/
def pageTableMap : UInt32 := 0xFFC00000

/-- The address of `base[i]` in an array of words. -/
def entryAddr (base : UInt32) (i : Nat) : UInt32 := base + 4 * UInt32.ofNat i

/-- The word a virtual address gives under the directory at `cr3`: the address of its frame and offset. -/
def mmuTranslate (memory : UInt32 → UInt32) (cr3 vaddr : UInt32) : Option UInt32 :=
  let pde := memory (entryAddr cr3 (vaddr >>> 22).toNat)
  if pde &&& pPresent = 0 then none
  else
    let pte := memory (entryAddr (pde &&& 0xFFFFF000) ((vaddr >>> 12) &&& 0x3FF).toNat)
    if pte &&& pPresent = 0 then none
    else some ((pte &&& 0xFFFFF000) + (vaddr &&& 0xFFF))

/-- `*vaddr` in the current address space, `none` for a page fault. -/
def loadWord (memory : UInt32 → UInt32) (cr3 vaddr : UInt32) : Option UInt32 :=
  (mmuTranslate memory cr3 vaddr).map memory

/-- `paging_virtual_to_physical` with the directory at `cr3` loaded. -/
def virtualToPhysical (memory : UInt32 → UInt32) (cr3 virtual : UInt32) : Option UInt32 := do
  let pde ← loadWord memory cr3 (0xFFFFF000 ||| ((virtual &&& 0xFFC00000) >>> (20 : UInt32)))
  if pde &&& pPresent ≠ 0 then
    let pte ← loadWord memory cr3 (0xFFC00000 ||| ((virtual &&& 0xFFFFF000) >>> (10 : UInt32)))
    if pte &&& pPresent ≠ 0 then
      return (pte &&& 0xFFFFF000) + (virtual &&& 0x00000FFF)
  return 0

/-- The allocator, the address of the kernel's directory and the words of physical memory. -/
structure PdState where
  physmem : Physmem
  pageDirectory : UInt32
  memory : UInt32 → UInt32

/-- `for (i = 0; i < n; i++) pd[i] = page_directory[i]`. -/
def copyEntries (pageDirectory pd : UInt32) (memory : UInt32 → UInt32) : Nat → UInt32 → UInt32
  | 0 => memory
  | i + 1 =>
    let memory := copyEntries pageDirectory pd memory i
    Function.update memory (entryAddr pd i) (memory (entryAddr pageDirectory i))

def pagingPdCreate (k : PdState) : UInt32 × PdState :=
  let pd := (physmemRefPhyspageNew k.physmem).1
  let memory := copyEntries k.pageDirectory pd k.memory 256
  (pd, { k with
    physmem := (physmemRefPhyspageNew k.physmem).2
    memory := Function.update memory (entryAddr pd 1023) (pd ||| (pPresent ||| pdWrite ||| pdRead)) })

/-! ## The entries of a directory -/

section

variable {base base' : UInt32}

theorem entryAddr_toNat (h : isPageAligned base = true) {i : Nat} (hi : i < 1024) :
    (entryAddr base i).toNat = base.toNat + 4 * i := by
  have halign : base.toNat % 4096 = 0 := (isAligned_iff base).mp h
  have h4 : (4 : UInt32).toNat = 4 := rfl
  have hsize : UInt32.size = 4294967296 := rfl
  have := word_lt base
  unfold entryAddr
  rw [word_add, UInt32.toNat_mul, h4, UInt32.toNat_ofNat_of_lt' (by omega)]
  omega

/-- Entries of aligned tables are the same word only if they have the same index in the same table. -/
theorem entryAddr_inj (h : isPageAligned base = true) (h' : isPageAligned base' = true) {i j : Nat}
    (hi : i < 1024) (hj : j < 1024) (heq : entryAddr base i = entryAddr base' j) : base = base' ∧ i = j := by
  have hb : base.toNat % 4096 = 0 := (isAligned_iff base).mp h
  have hb' : base'.toNat % 4096 = 0 := (isAligned_iff base').mp h'
  rw [word_eq_iff, entryAddr_toNat h hi, entryAddr_toNat h' hj] at heq
  rw [word_eq_iff]
  omega

theorem copyEntries_of_ne (memory : UInt32 → UInt32) {addr : UInt32} (n : Nat)
    (hne : ∀ i < n, addr ≠ entryAddr base' i) : copyEntries base base' memory n addr = memory addr := by
  induction n with
  | zero => rfl
  | succ n ih =>
    unfold copyEntries
    dsimp only
    rw [Function.update_of_ne (hne n (by omega)), ih fun i hi => hne i (by omega)]

theorem copyEntries_entry (h : isPageAligned base = true) (h' : isPageAligned base' = true)
    (memory : UInt32 → UInt32) (n : Nat) (hn : n ≤ 1024) {i : Nat} (hi : i < n) :
    copyEntries base base' memory n (entryAddr base' i) = memory (entryAddr base i) := by
  induction n with
  | zero => omega
  | succ n ih =>
    unfold copyEntries
    dsimp only
    by_cases hin : i = n
    · rw [hin, Function.update_self]
      apply copyEntries_of_ne
      intro j hj heq
      have := (entryAddr_inj h h' (by omega) (by omega) heq).2
      omega
    · rw [Function.update_of_ne, ih (by omega) (by omega)]
      intro heq
      exact hin (entryAddr_inj h' h' (by omega) (by omega) heq).2

end

/-! ## The new directory -/

section

variable {k : PdState}

/-- Pages start on page boundaries. -/
structure PdState.Aligned (k : PdState) : Prop where
  free : ∀ p ∈ k.physmem.freePpage, isPageAligned p = true
  pageDirectory : isPageAligned k.pageDirectory = true

/-- The allocator only lists such pages. -/
theorem PdState.aligned_of_inv {total : UInt32} (h : PhysmemInv total k.physmem)
    (hpd : isPageAligned k.pageDirectory = true) : k.Aligned := by
  refine ⟨fun p hp => ?_, hpd⟩
  have hd := (h.listed p).mp (List.mem_append_left _ hp)
  rw [hasDescr_iff h.base] at hd
  exact (isAligned_iff p).mpr hd.1

theorem PdState.Aligned.pd (h : k.Aligned) : isPageAligned (pagingPdCreate k).1 = true := by
  show isPageAligned (physmemRefPhyspageNew k.physmem).1 = true
  unfold physmemRefPhyspageNew
  cases hfree : k.physmem.freePpage with
  | nil => exact (by decide : isPageAligned 0 = true)
  | cons p rest =>
    dsimp only
    split
    · exact (by decide : isPageAligned 0 = true)
    · exact h.free p (hfree ▸ List.mem_cons_self)

theorem pagingPdCreate_memory (k : PdState) : (pagingPdCreate k).2.memory =
    Function.update (copyEntries k.pageDirectory (pagingPdCreate k).1 k.memory 256)
      (entryAddr (pagingPdCreate k).1 1023)
      ((pagingPdCreate k).1 ||| (pPresent ||| pdWrite ||| pdRead)) := by
  simp only [pagingPdCreate]

/-- The entries `256..1022` of the new directory are what the page held before. -/
theorem pagingPdCreate_entry (h : k.Aligned) {i : Nat} (hi : i < 1024) :
    (pagingPdCreate k).2.memory (entryAddr (pagingPdCreate k).1 i) =
      if i < 256 then k.memory (entryAddr k.pageDirectory i)
      else if i = 1023 then (pagingPdCreate k).1 ||| (pPresent ||| pdWrite ||| pdRead)
      else k.memory (entryAddr (pagingPdCreate k).1 i) := by
  have hpd := h.pd
  rw [pagingPdCreate_memory]
  generalize (pagingPdCreate k).1 = pd at hpd ⊢
  by_cases hlast : i = 1023
  · rw [if_neg (by omega), if_pos hlast, hlast, Function.update_self]
  · rw [Function.update_of_ne fun heq => hlast (entryAddr_inj hpd hpd hi (by omega) heq).2]
    by_cases hkernel : i < 256
    · rw [if_pos hkernel, copyEntries_entry h.pageDirectory hpd _ _ (by omega) hkernel]
    · rw [if_neg hkernel, if_neg hlast, copyEntries_of_ne]
      intro j hj heq
      have := (entryAddr_inj hpd hpd hi (by omega) heq).2
      omega

end

/-! ## The mirror -/

section

variable {memory : UInt32 → UInt32} {cr3 : UInt32}

/-- Entry 1023 of a directory is the directory itself, present and writable. -/
def SelfMapped (memory : UInt32 → UInt32) (pd : UInt32) : Prop :=
  memory (entryAddr pd 1023) = pd ||| (pPresent ||| pdWrite ||| pdRead)

theorem entry_present {pd : UInt32} (h : isPageAligned pd = true) :
    (pd ||| (pPresent ||| pdWrite ||| pdRead)) &&& pPresent ≠ 0 ∧
      (pd ||| (pPresent ||| pdWrite ||| pdRead)) &&& 0xFFFFF000 = pd := by
  have halign : pd.toNat % 4096 = 0 := (isAligned_iff pd).mp h
  have hflags : (pPresent ||| pdWrite ||| pdRead).toNat = 3 := rfl
  have h0 : (0 : UInt32).toNat = 0 := rfl
  have := word_lt pd
  have hor : (pd ||| (pPresent ||| pdWrite ||| pdRead)).toNat = pd.toNat + 3 :=
    toNat_or_low (k := 12) (Nat.dvd_of_mod_eq_zero halign) (by rw [hflags]; omega)
  rw [ne_eq, word_eq_iff, word_eq_iff, @toNat_lowMask _ pPresent 1 rfl,
    @toNat_mask _ 0xFFFFF000 12 (by decide) (by decide), hor, h0]
  omega

theorem shiftRight_pde (v : UInt32) : (v >>> 22).toNat = v.toNat / 4194304 :=
  @toNat_shiftRight v 22 (by decide)

theorem shiftRight_pte (v : UInt32) : ((v >>> 12) &&& 0x3FF).toNat = v.toNat / 4096 % 1024 := by
  rw [@toNat_lowMask _ 0x3FF 10 rfl, @toNat_shiftRight v 12 (by decide)]
  rfl

/-- In the last 4 MB the directory is its own page table. -/
theorem mmuTranslate_mirror (hself : SelfMapped memory cr3) (h : isPageAligned cr3 = true)
    {a : UInt32} (ha : a.toNat / 4194304 = 1023) :
    mmuTranslate memory cr3 a =
      if memory (entryAddr cr3 (a.toNat / 4096 % 1024)) &&& pPresent = 0 then none
      else some ((memory (entryAddr cr3 (a.toNat / 4096 % 1024)) &&& 0xFFFFF000) + (a &&& 0xFFF)) := by
  obtain ⟨hpresent, hframe⟩ := entry_present h
  unfold mmuTranslate
  dsimp only
  rw [shiftRight_pde, ha, hself, if_neg hpresent, hframe, shiftRight_pte]

/-- An entry of a table as its frame and the offset in it. -/
theorem frame_add_offset {frame a : UInt32} (h : isPageAligned frame = true) {i : Nat} (hi : i < 1024)
    (ha : a.toNat % 4096 = 4 * i) : frame + (a &&& 0xFFF) = entryAddr frame i := by
  have halign : frame.toNat % 4096 = 0 := (isAligned_iff frame).mp h
  have := word_lt frame
  rw [word_eq_iff, word_add, @toNat_lowMask a 0xFFF 12 rfl, entryAddr_toNat h hi, show 2 ^ 12 = 4096 from rfl, ha]
  omega

/-- `pde` in `paging_virtual_to_physical` is the entry of the directory. -/
theorem mmuTranslate_pde (hself : SelfMapped memory cr3) (h : isPageAligned cr3 = true) (v : UInt32) :
    mmuTranslate memory cr3 (0xFFFFF000 ||| ((v &&& 0xFFC00000) >>> (20 : UInt32))) =
      some (entryAddr cr3 (v >>> 22).toNat) := by
  obtain ⟨hpresent, hframe⟩ := entry_present h
  have hv := word_lt v
  have hlow : ((v &&& 0xFFC00000) >>> (20 : UInt32)).toNat = 4 * (v.toNat / 4194304) := by
    rw [toNat_shiftRight _ (by decide), @toNat_mask _ 0xFFC00000 22 (by decide) (by decide)]
    show v.toNat / 4194304 * 4194304 / 1048576 = _
    omega
  have haddr := @toNat_or_low 0xFFFFF000 _ 12 (by decide) (hlow.trans_lt (by omega))
  rw [hlow, show (0xFFFFF000 : UInt32).toNat = 4294963200 from rfl] at haddr
  rw [mmuTranslate_mirror hself h (by rw [haddr]; omega), haddr,
    show (4294963200 + 4 * (v.toNat / 4194304)) / 4096 % 1024 = 1023 by omega, hself, if_neg hpresent, hframe,
    @frame_add_offset _ _ h (v >>> 22).toNat]
  all_goals
    rw [shiftRight_pde]
    omega

theorem loadWord_pde (hself : SelfMapped memory cr3) (h : isPageAligned cr3 = true) (v : UInt32) :
    loadWord memory cr3 (0xFFFFF000 ||| ((v &&& 0xFFC00000) >>> (20 : UInt32))) =
      some (memory (entryAddr cr3 (v >>> 22).toNat)) := by
  unfold loadWord
  rw [mmuTranslate_pde hself h, Option.map_some]

/-- `pte` is the entry of the page table its directory entry points to. -/
theorem mmuTranslate_pte (hself : SelfMapped memory cr3) (h : isPageAligned cr3 = true) {v : UInt32}
    (hpde : ¬ memory (entryAddr cr3 (v >>> 22).toNat) &&& pPresent = 0) :
    mmuTranslate memory cr3 (0xFFC00000 ||| ((v &&& 0xFFFFF000) >>> (10 : UInt32))) =
      some (entryAddr (memory (entryAddr cr3 (v >>> 22).toNat) &&& 0xFFFFF000)
        ((v >>> 12) &&& 0x3FF).toNat) := by
  have hv := word_lt v
  have hlow : ((v &&& 0xFFFFF000) >>> (10 : UInt32)).toNat = 4 * (v.toNat / 4096) := by
    rw [toNat_shiftRight _ (by decide), @toNat_mask _ 0xFFFFF000 12 (by decide) (by decide)]
    show v.toNat / 4096 * 4096 / 1024 = _
    omega
  have haddr := @toNat_or_low 0xFFC00000 _ 22 (by decide) (hlow.trans_lt (by omega))
  rw [hlow, show (0xFFC00000 : UInt32).toNat = 4290772992 from rfl] at haddr
  have hframe : isPageAligned (memory (entryAddr cr3 (v >>> 22).toNat) &&& 0xFFFFF000) = true := by
    apply (isAligned_iff _).mpr
    rw [@toNat_mask _ 0xFFFFF000 12 (by decide) (by decide)]
    omega
  rw [mmuTranslate_mirror hself h (by rw [haddr]; omega), haddr,
    show (4290772992 + 4 * (v.toNat / 4096)) / 4096 % 1024 = (v >>> 22).toNat by rw [shiftRight_pde]; omega,
    if_neg hpde, @frame_add_offset _ _ hframe ((v >>> 12) &&& 0x3FF).toNat]
  all_goals
    rw [shiftRight_pte]
    omega

theorem loadWord_pte (hself : SelfMapped memory cr3) (h : isPageAligned cr3 = true) {v : UInt32}
    (hpde : ¬ memory (entryAddr cr3 (v >>> 22).toNat) &&& pPresent = 0) :
    loadWord memory cr3 (0xFFC00000 ||| ((v &&& 0xFFFFF000) >>> (10 : UInt32))) =
      some (memory (entryAddr (memory (entryAddr cr3 (v >>> 22).toNat) &&& 0xFFFFF000)
        ((v >>> 12) &&& 0x3FF).toNat)) := by
  unfold loadWord
  rw [mmuTranslate_pte hself h hpde, Option.map_some]

/-- **`paging_virtual_to_physical` is the translation of the processor**, with 0 for no frame. -/
theorem virtualToPhysical_eq (hself : SelfMapped memory cr3) (h : isPageAligned cr3 = true) (v : UInt32) :
    virtualToPhysical memory cr3 v = some ((mmuTranslate memory cr3 v).getD 0) := by
  unfold virtualToPhysical
  rw [loadWord_pde hself h]
  unfold mmuTranslate
  by_cases hpde : memory (entryAddr cr3 (v >>> 22).toNat) &&& pPresent = 0
  · simp only [Option.bind_eq_bind, Option.bind_some, ne_eq, hpde, not_true_eq_false, if_true, if_false]
    rfl
  · rw [loadWord_pte hself h hpde]
    simp only [Option.bind_eq_bind, Option.bind_some, ne_eq, hpde, not_false_eq_true, if_true, if_false]
    generalize memory (entryAddr _ ((v >>> 12) &&& 0x3FF).toNat) = pte
    by_cases hpte : pte &&& pPresent = 0
    · simp only [hpte, not_true_eq_false, if_true, if_false]
      rfl
    · simp only [hpte, not_false_eq_true, if_true, if_false]
      rfl

end

/-! ## What a new process can reach -/

/-- What `paging_pd_create` is to return: the kernel's entries, the mirror, and nothing in user space. -/
structure FreshDirectory (pageDirectory pd : UInt32) (memory memory' : UInt32 → UInt32) : Prop where
  kernel : ∀ i < 256, memory' (entryAddr pd i) = memory (entryAddr pageDirectory i)
  mirror : SelfMapped memory' pd
  user_absent : ∀ i, 256 ≤ i → i < 1023 → memory' (entryAddr pd i) &&& pPresent = 0
  user_untranslated : ∀ v, userOffset ≤ v → v < pageTableMap →
    mmuTranslate memory' pd v = none ∧ virtualToPhysical memory' pd v = some 0

/-- **A new directory is empty exactly when the page was.** -/
theorem pagingPdCreate_fresh_iff (k : PdState) (h : k.Aligned) :
    FreshDirectory k.pageDirectory (pagingPdCreate k).1 k.memory (pagingPdCreate k).2.memory ↔
      ∀ i, 256 ≤ i → i < 1023 →
        k.memory (entryAddr (physmemRefPhyspageNew k.physmem).1 i) &&& pPresent = 0 := by
  have hstale : ∀ i, 256 ≤ i → i < 1023 →
      (pagingPdCreate k).2.memory (entryAddr (pagingPdCreate k).1 i) =
        k.memory (entryAddr (physmemRefPhyspageNew k.physmem).1 i) := by
    intro i hi hi'
    rw [pagingPdCreate_entry h (by omega), if_neg (by omega), if_neg (by omega)]
    rfl
  constructor
  · intro hfresh i hi hi'
    rw [← hstale i hi hi']
    exact hfresh.user_absent i hi hi'
  · intro hempty
    have habsent : ∀ i, 256 ≤ i → i < 1023 →
        (pagingPdCreate k).2.memory (entryAddr (pagingPdCreate k).1 i) &&& pPresent = 0 := by
      intro i hi hi'
      rw [hstale i hi hi']
      exact hempty i hi hi'
    have hself : SelfMapped (pagingPdCreate k).2.memory (pagingPdCreate k).1 := by
      unfold SelfMapped
      rw [pagingPdCreate_entry h (by decide), if_neg (by decide), if_pos rfl]
    refine ⟨fun i hi => ?_, hself, habsent, fun v hlo hhi => ?_⟩
    · rw [pagingPdCreate_entry h (by omega), if_pos hi]
    · have huser : userOffset.toNat = 1073741824 := rfl
      have hmap : pageTableMap.toNat = 4290772992 := rfl
      rw [word_le_iff, huser] at hlo
      rw [word_lt_iff, hmap] at hhi
      have hnone : mmuTranslate (pagingPdCreate k).2.memory (pagingPdCreate k).1 v = none := by
        unfold mmuTranslate
        dsimp only
        rw [shiftRight_pde, if_pos (habsent _ (by omega) (by omega))]
      rw [virtualToPhysical_eq hself h.pd, hnone]
      exact ⟨rfl, rfl⟩

/-! ## The directory of an exited process -/

/-- `paging_pd_add_pt` enters the page table at `pgPaddr`. -/
def pdEnterTable (k : PdState) (pd vaddr pgPaddr : UInt32) : PdState :=
  { k with
    memory := Function.update k.memory (entryAddr pd (vaddr >>> 22).toNat)
      (pgPaddr ||| (pPresent ||| pdWrite ||| pdUser)) }

/-- `sys_exit` gives the directory back. -/
def pdRelease (k : PdState) (pd : UInt32) : PdState :=
  { k with physmem := (physmemUnrefPhyspage k.physmem pd).2 }

/-- A machine with one free page, and a page table at `0x300000` whose first entry is `0x350000`. -/
def onePageFree : PdState :=
  { physmem := ⟨0x1000, 0x400000, fun p => if p = 0x200000 then 0 else 1, [0x200000], [], 0⟩
    pageDirectory := 0x100000
    memory := fun a => if a = 0x300000 then 0x350007 else 0 }

/-- A process on `onePageFree` that got a page table for `0x40000000` and exited. -/
def onePageExited : PdState :=
  pdRelease (pdEnterTable (pagingPdCreate onePageFree).2 (pagingPdCreate onePageFree).1 0x40000000 0x300000)
    (pagingPdCreate onePageFree).1

/-- The next process gets the same page and sees the memory of the first one. -/
theorem pagingPdCreate_keeps_exited :
    ¬ FreshDirectory onePageExited.pageDirectory (pagingPdCreate onePageExited).1 onePageExited.memory
        (pagingPdCreate onePageExited).2.memory ∧
      mmuTranslate (pagingPdCreate onePageExited).2.memory (pagingPdCreate onePageExited).1 0x40000123 =
        some 0x350123 := by
  have htranslate : mmuTranslate (pagingPdCreate onePageExited).2.memory (pagingPdCreate onePageExited).1
      0x40000123 = some 0x350123 := by decide +kernel
  refine ⟨fun hfresh => ?_, htranslate⟩
  have hnone := (hfresh.user_untranslated 0x40000123 (by decide) (by decide)).1
  rw [htranslate] at hnone
  cases hnone

theorem onePageFree_aligned : onePageFree.Aligned := by
  constructor
  · intro p hp
    rw [List.mem_singleton.mp hp]
    decide
  · decide

/-- On a page that was never used the directory is as it should be. -/
theorem pagingPdCreate_fresh_iff_free :
    FreshDirectory onePageFree.pageDirectory (pagingPdCreate onePageFree).1 onePageFree.memory
      (pagingPdCreate onePageFree).2.memory := by
  apply (pagingPdCreate_fresh_iff onePageFree onePageFree_aligned).mpr
  intro i hi hi'
  have hpage : (physmemRefPhyspageNew onePageFree.physmem).1 = 0x200000 := by decide
  have hne : entryAddr 0x200000 i ≠ 0x300000 := by
    rw [ne_eq, word_eq_iff, entryAddr_toNat (by decide) (by omega)]
    show ¬ 2097152 + 4 * i = 3145728
    omega
  rw [hpage]
  show (if entryAddr 0x200000 i = 0x300000 then (0x350007 : UInt32) else 0) &&& pPresent = 0
  rw [if_neg hne]
  decide

end Desiros.Mem
