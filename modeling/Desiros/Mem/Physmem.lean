import Desiros.Mem.Arena
import Mathlib.Logic.Function.Basic

/-!
# Physical pages (`mem/physmem.c`)

A physical page is named by its address. `get_page_descr_at_paddr` gives a descriptor to the aligned
addresses between `physmem_base` and `physmem_top`; `refCnt` is the reference count in it. The free and the
used list are read from their heads.
-/

namespace Desiros.Mem

open Desiros.Library

structure Physmem where
  physmemBase : UInt32
  physmemTop : UInt32
  refCnt : UInt32 → UInt32
  freePpage : List UInt32
  usedPpage : List UInt32
  physmemUsedPages : UInt32

/-- `get_page_descr_at_paddr` finds a descriptor. -/
def Physmem.hasDescr (m : Physmem) (ppagePaddr : UInt32) : Bool :=
  ppagePaddr &&& (pageSize - 1) == 0 && !decide (ppagePaddr < m.physmemBase) &&
    !decide (ppagePaddr ≥ m.physmemTop)

def Physmem.setRefCnt (m : Physmem) (paddr refCnt : UInt32) : Physmem :=
  { m with refCnt := Function.update m.refCnt paddr refCnt }

/-- Returns the address of the page, `0` if there is none. -/
def physmemRefPhyspageNew (m : Physmem) : UInt32 × Physmem :=
  match m.freePpage with
  | [] => (0, m)
  | paddr :: rest =>
    if m.refCnt paddr = 1 then (0, { m with freePpage := rest })
    else
      (paddr, { m.setRefCnt paddr (m.refCnt paddr + 1) with
        freePpage := rest
        usedPpage := m.usedPpage ++ [paddr]
        physmemUsedPages := m.physmemUsedPages + 1 })

/-- Returns whether the page was referenced before. -/
def physmemRefPhyspageAt (m : Physmem) (ppagePaddr : UInt32) : Int × Physmem :=
  if !m.hasDescr ppagePaddr then (-1, m)
  else if m.refCnt ppagePaddr + 1 = 1 then
    (0, { m.setRefCnt ppagePaddr (m.refCnt ppagePaddr + 1) with
      freePpage := m.freePpage.filter (· ≠ ppagePaddr)
      usedPpage := m.usedPpage ++ [ppagePaddr]
      physmemUsedPages := m.physmemUsedPages + 1 })
  else (1, m.setRefCnt ppagePaddr (m.refCnt ppagePaddr + 1))

/-- Returns whether the page became free. -/
def physmemUnrefPhyspage (m : Physmem) (ppagePaddr : UInt32) : Int × Physmem :=
  if !m.hasDescr ppagePaddr then (-1, m)
  else if m.refCnt ppagePaddr ≤ 0 then (-1, m)
  else if m.refCnt ppagePaddr - 1 ≤ 0 then
    (1, { m.setRefCnt ppagePaddr (m.refCnt ppagePaddr - 1) with
      usedPpage := m.usedPpage.filter (· ≠ ppagePaddr)
      physmemUsedPages := m.physmemUsedPages - 1
      freePpage := ppagePaddr :: m.freePpage })
  else (0, m.setRefCnt ppagePaddr (m.refCnt ppagePaddr - 1))

/-! ## What each operation changes -/

section

variable {m : Physmem}

@[simp] theorem setRefCnt_freePpage (paddr n : UInt32) :
    (m.setRefCnt paddr n).freePpage = m.freePpage := rfl

@[simp] theorem setRefCnt_refCnt (paddr n : UInt32) :
    (m.setRefCnt paddr n).refCnt = Function.update m.refCnt paddr n := rfl

@[simp] theorem setRefCnt_hasDescr (paddr n q : UInt32) :
    (m.setRefCnt paddr n).hasDescr q = m.hasDescr q := rfl

/-- The free pages are listed once and unreferenced. -/
structure Physmem.FreeOk (m : Physmem) : Prop where
  nodup : m.freePpage.Nodup
  refCnt : ∀ paddr ∈ m.freePpage, m.refCnt paddr = 0

/-- A new page was free, is referenced once now and nothing else changed. -/
theorem physmemRefPhyspageNew_cases (h : m.FreeOk) :
    (m.freePpage = [] ∧ physmemRefPhyspageNew m = (0, m)) ∨
      ∃ paddr rest, m.freePpage = paddr :: rest ∧ paddr ∉ rest ∧ (physmemRefPhyspageNew m).1 = paddr ∧
        (physmemRefPhyspageNew m).2.freePpage = rest ∧
        (physmemRefPhyspageNew m).2.refCnt = Function.update m.refCnt paddr 1 ∧
        (physmemRefPhyspageNew m).2.FreeOk := by
  cases hfree : m.freePpage with
  | nil =>
    left
    simp only [physmemRefPhyspageNew, hfree, and_self]
  | cons paddr rest =>
    right
    have hnodup := List.nodup_cons.mp (hfree ▸ h.nodup)
    have hzero : m.refCnt paddr = 0 := h.refCnt paddr (hfree ▸ List.mem_cons_self)
    have hne : ¬ m.refCnt paddr = 1 := by
      rw [hzero]
      decide
    have hcnt : (physmemRefPhyspageNew m).2.refCnt = Function.update m.refCnt paddr 1 := by
      simp only [physmemRefPhyspageNew, hfree, setRefCnt_refCnt, hzero]
      rfl
    have hrest : (physmemRefPhyspageNew m).2.freePpage = rest := by
      simp only [physmemRefPhyspageNew, hfree, if_neg hne]
    refine ⟨paddr, rest, rfl, hnodup.1, ?_, hrest, hcnt, ⟨hrest ▸ hnodup.2, fun q hq => ?_⟩⟩
    · simp only [physmemRefPhyspageNew, hfree, if_neg hne]
    · rw [hrest] at hq
      have hqp : q ≠ paddr := fun he => hnodup.1 (he ▸ hq)
      rw [hcnt, Function.update_of_ne hqp]
      exact h.refCnt q (hfree ▸ List.mem_cons_of_mem _ hq)

/-- A reference to a page that is not free leaves the free list as it is. -/
theorem physmemRefPhyspageAt_freePpage {paddr : UInt32} (h : paddr ∉ m.freePpage) :
    (physmemRefPhyspageAt m paddr).2.freePpage = m.freePpage := by
  have hfilter : m.freePpage.filter (· ≠ paddr) = m.freePpage := by
    rw [List.filter_eq_self]
    intro q hq
    rw [decide_eq_true_eq]
    rintro rfl
    exact h hq
  rw [physmemRefPhyspageAt]
  split_ifs
  · rfl
  · exact hfilter
  · rfl

theorem physmemRefPhyspageAt_refCnt (m : Physmem) (paddr : UInt32) :
    (physmemRefPhyspageAt m paddr).2.refCnt =
      if m.hasDescr paddr then Function.update m.refCnt paddr (m.refCnt paddr + 1) else m.refCnt := by
  rw [physmemRefPhyspageAt]
  cases m.hasDescr paddr with
  | false => rfl
  | true =>
    rw [Bool.not_true, if_neg Bool.false_ne_true, if_pos rfl]
    split_ifs <;> rfl

@[simp] theorem physmemRefPhyspageAt_hasDescr (m : Physmem) (paddr q : UInt32) :
    (physmemRefPhyspageAt m paddr).2.hasDescr q = m.hasDescr q := by
  rw [physmemRefPhyspageAt]
  split_ifs <;> rfl

theorem physmemUnrefPhyspage_refCnt (m : Physmem) (paddr : UInt32) :
    (physmemUnrefPhyspage m paddr).2.refCnt =
      if m.hasDescr paddr ∧ 0 < m.refCnt paddr then
        Function.update m.refCnt paddr (m.refCnt paddr - 1) else m.refCnt := by
  rw [physmemUnrefPhyspage]
  cases hd : m.hasDescr paddr with
  | false =>
    rw [Bool.not_false, if_pos rfl, if_neg fun h => Bool.false_ne_true h.1]
  | true =>
    rw [Bool.not_true, if_neg Bool.false_ne_true]
    by_cases hr : m.refCnt paddr ≤ 0
    · rw [if_pos hr, if_neg fun h => UInt32.not_lt.mpr hr h.2]
    · rw [if_neg hr, if_pos (⟨rfl, UInt32.not_le.mp hr⟩ : _ ∧ 0 < m.refCnt paddr)]
      split_ifs <;> rfl

@[simp] theorem physmemUnrefPhyspage_hasDescr (m : Physmem) (paddr q : UInt32) :
    (physmemUnrefPhyspage m paddr).2.hasDescr q = m.hasDescr q := by
  rw [physmemUnrefPhyspage]
  split_ifs <;> rfl

/-- Dropping a reference frees the page only if it was the last one. -/
theorem physmemUnrefPhyspage_freePpage (m : Physmem) (paddr : UInt32) :
    (physmemUnrefPhyspage m paddr).2.freePpage =
      if m.hasDescr paddr ∧ m.refCnt paddr = 1 then paddr :: m.freePpage else m.freePpage := by
  rw [physmemUnrefPhyspage]
  by_cases hd : m.hasDescr paddr = true
  swap
  · rw [if_pos (by simp [hd]), if_neg fun h => hd h.1]
  rw [if_neg (by simp [hd])]
  by_cases hr : m.refCnt paddr ≤ 0
  · rw [if_pos hr, if_neg]
    rintro ⟨_, h1⟩
    rw [h1] at hr
    exact absurd hr (by decide)
  rw [if_neg hr]
  have hone : m.refCnt paddr - 1 ≤ 0 ↔ m.refCnt paddr = 1 := by
    have h0 : (0 : UInt32).toNat = 0 := rfl
    have h1 : (1 : UInt32).toNat = 1 := rfl
    have := word_lt (m.refCnt paddr)
    rw [word_le_iff, word_sub, word_eq_iff, h0, h1]
    rw [word_le_iff, h0] at hr
    omega
  by_cases h1 : m.refCnt paddr = 1
  · rw [if_pos (hone.mpr h1), if_pos ⟨hd, h1⟩]
  · rw [if_neg fun h => h1 (hone.mp h), if_neg fun h => h1 h.2, setRefCnt_freePpage]

end

theorem Physmem.FreeOk.refAt {m : Physmem} (h : m.FreeOk) {f : UInt32} (hf : f ∉ m.freePpage) :
    (physmemRefPhyspageAt m f).2.FreeOk := by
  constructor
  · rw [physmemRefPhyspageAt_freePpage hf]
    exact h.nodup
  · intro q hq
    rw [physmemRefPhyspageAt_freePpage hf] at hq
    have hne : q ≠ f := fun he => hf (he ▸ hq)
    rw [physmemRefPhyspageAt_refCnt]
    split
    · rw [Function.update_of_ne hne]
      exact h.refCnt q hq
    · exact h.refCnt q hq

/-- A reference taken and given back leaves a page in use. -/
theorem Physmem.FreeOk.unref_refAt {m : Physmem} (h : m.FreeOk) {f : UInt32} (hf : f ∉ m.freePpage)
    (hcnt : m.refCnt f ≠ 0) :
    (physmemUnrefPhyspage (physmemRefPhyspageAt m f).2 f).2.FreeOk ∧
      (physmemUnrefPhyspage (physmemRefPhyspageAt m f).2 f).2.freePpage = m.freePpage := by
  have hone : ¬ ((physmemRefPhyspageAt m f).2.hasDescr f ∧ (physmemRefPhyspageAt m f).2.refCnt f = 1) := by
    rintro ⟨hd, h1⟩
    rw [physmemRefPhyspageAt_hasDescr] at hd
    rw [physmemRefPhyspageAt_refCnt, if_pos hd, Function.update_self] at h1
    exact hcnt (by simpa using h1)
  have hfree : (physmemUnrefPhyspage (physmemRefPhyspageAt m f).2 f).2.freePpage = m.freePpage := by
    rw [physmemUnrefPhyspage_freePpage, if_neg hone, physmemRefPhyspageAt_freePpage hf]
  refine ⟨⟨hfree ▸ h.nodup, fun q hq => ?_⟩, hfree⟩
  rw [hfree] at hq
  have hne : q ≠ f := fun he => hf (he ▸ hq)
  have hq1 := (h.refAt hf).refCnt q (by rw [physmemRefPhyspageAt_freePpage hf]; exact hq)
  rw [physmemUnrefPhyspage_refCnt]
  split
  · rw [Function.update_of_ne hne]
    exact hq1
  · exact hq1

end Desiros.Mem
