import Desiros.Mem.Physmem
import Desiros.Library.Runs
import Mathlib.Data.List.Nodup

/-!
# Whole runs of the physical page allocator

`physmemSetup` builds the two lists from the size of the RAM and the addresses of the kernel image;
`physmemStep` is one call of the three functions that take and drop references. `PhysmemInv` is what the
setup establishes and every call keeps, `physmem_runs_consistent` reads the promises of the allocator off it.
-/

namespace Desiros.Mem

open Desiros.Library

/-! ## `physmem_setup` -/

inductive PpageMark where
  | reserved
  | free
  | kernel
  | hwmap
deriving DecidableEq, Repr

/-- `BIOS_N_VIDEO_START` and `BIOS_N_VIDEO_END`. -/
def biosNVideoStart : UInt32 := 0xa0000
def biosNVideoEnd : UInt32 := 0x100000

/-- `sizeof(struct physical_page_descr)`. -/
def sizeofPhysicalPageDescr : UInt32 := 20

/-- The allocator with what `physmem_setup` leaves beside it. -/
structure PhysmemSetup where
  kernelCoreBase : UInt32
  kernelCoreTop : UInt32
  physmemTotalPages : UInt32
  physmem : Physmem

/-- What the loop of `physmem_setup` does with a page. -/
def ppageMark (bKernel : UInt32) (s : PhysmemSetup) (ppageAddr : UInt32) : PpageMark :=
  if ppageAddr < s.physmem.physmemBase then .reserved
  else if ppageAddr ≥ s.physmem.physmemBase ∧ ppageAddr < biosNVideoStart then .free
  else if ppageAddr ≥ biosNVideoStart ∧ ppageAddr < biosNVideoEnd then .hwmap
  else if ppageAddr ≥ biosNVideoEnd ∧ ppageAddr < bKernel then .free
  else if ppageAddr ≥ s.kernelCoreBase ∧ ppageAddr < s.kernelCoreTop then .kernel
  else if ppageAddr ≥ s.kernelCoreTop ∧ ppageAddr < s.kernelCoreTop then .hwmap
  else .free

/-- One round of the loop: clear the descriptor, then insert it. -/
def setupPpage (bKernel : UInt32) (s : PhysmemSetup) (ppageAddr : UInt32) : PhysmemSetup :=
  { s with
    physmemTotalPages := s.physmemTotalPages + 1
    physmem :=
      match ppageMark bKernel s ppageAddr with
      | .reserved => s.physmem.setRefCnt ppageAddr 0
      | .free =>
        { s.physmem.setRefCnt ppageAddr 0 with freePpage := ppageAddr :: s.physmem.freePpage }
      | .kernel | .hwmap =>
        { s.physmem.setRefCnt ppageAddr 1 with
          usedPpage := ppageAddr :: s.physmem.usedPpage
          physmemUsedPages := s.physmem.physmemUsedPages + 1 } }

/-- The loop after `n` pages. -/
def setupPpages (bKernel : UInt32) (s : PhysmemSetup) : Nat → PhysmemSetup
  | 0 => s
  | n + 1 => setupPpage bKernel (setupPpages bKernel s n) (UInt32.ofNat (4096 * n))

/-- The loop ends at the page-aligned end of the RAM, after `ram_size >> PAGE_SHIFT` pages. -/
def physmemSetup (ramSize bKernel eKernel : UInt32) (m : Physmem) : Int × PhysmemSetup :=
  let ramSize := pageAlignInf ramSize
  let s : PhysmemSetup :=
    { kernelCoreBase := pageAlignInf bKernel
      kernelCoreTop := alignSup eKernel pageSize +
        alignSup ((ramSize >>> 12) * sizeofPhysicalPageDescr) pageSize
      physmemTotalPages := 0
      physmem := { m with freePpage := [], usedPpage := [], physmemUsedPages := 0 } }
  if s.kernelCoreTop > ramSize then (-3, s)
  else
    (0, setupPpages bKernel
      { s with physmem := { s.physmem with physmemBase := pageSize, physmemTop := ramSize } }
      (ramSize >>> 12).toNat)

/-! ## One call -/

inductive PhysmemOp where
  | refNew
  | refAt (ppagePaddr : UInt32)
  | unref (ppagePaddr : UInt32)
deriving DecidableEq, Repr

def physmemStep (m : Physmem) : PhysmemOp → Physmem
  | .refNew => (physmemRefPhyspageNew m).2
  | .refAt p => (physmemRefPhyspageAt m p).2
  | .unref p => (physmemUnrefPhyspage m p).2

/-- The reference count is a 32-bit word: a call does not raise it from its last value. -/
def NoWrap (m : Physmem) : PhysmemOp → Prop
  | .refAt p => m.refCnt p ≠ 0xffffffff
  | _ => True

instance (m : Physmem) : DecidablePred (NoWrap m)
  | .refAt p => inferInstanceAs (Decidable (m.refCnt p ≠ 0xffffffff))
  | .refNew => inferInstanceAs (Decidable True)
  | .unref _ => inferInstanceAs (Decidable True)

/-- The references to `p` a call takes (a new page, a page by its address) or drops. -/
def referenceChange (p : UInt32) (m : Physmem) : PhysmemOp → Int
  | .refNew => if (physmemRefPhyspageNew m).1 = p then 1 else 0
  | .refAt q => if q = p ∧ 0 ≤ (physmemRefPhyspageAt m q).1 then 1 else 0
  | .unref q => if q = p ∧ 0 ≤ (physmemUnrefPhyspage m q).1 then -1 else 0

/-- The same over a run. -/
def referencesOver (p : UInt32) : Physmem → List PhysmemOp → Int
  | _, [] => 0
  | m, op :: ops => referenceChange p m op + referencesOver p (physmemStep m op) ops

/-! ## The invariant -/

/-- `total` is `physmem_total_pages`. -/
structure PhysmemInv (total : UInt32) (m : Physmem) : Prop where
  nodup : (m.freePpage ++ m.usedPpage).Nodup
  listed : ∀ p, p ∈ m.freePpage ++ m.usedPpage ↔ m.hasDescr p = true
  free_refCnt : ∀ p ∈ m.freePpage, m.refCnt p = 0
  used_refCnt : ∀ p ∈ m.usedPpage, m.refCnt p ≠ 0
  used_length : m.physmemUsedPages.toNat = m.usedPpage.length
  total_length : m.freePpage.length + m.usedPpage.length + 1 = total.toNat
  base : m.physmemBase = pageSize

section

variable {total : UInt32} {m m' : Physmem} {p : UInt32}

theorem PhysmemInv.free_nodup (h : PhysmemInv total m) : m.freePpage.Nodup :=
  (List.nodup_append.mp h.nodup).1

theorem PhysmemInv.used_nodup (h : PhysmemInv total m) : m.usedPpage.Nodup :=
  (List.nodup_append.mp h.nodup).2.1

theorem PhysmemInv.not_both (h : PhysmemInv total m) (hf : p ∈ m.freePpage) : p ∉ m.usedPpage :=
  fun hu => (List.nodup_append.mp h.nodup).2.2 p hf p hu rfl

theorem PhysmemInv.hasDescr_zero (h : PhysmemInv total m) : m.hasDescr 0 = false := by
  unfold Physmem.hasDescr
  rw [h.base]
  rfl

theorem PhysmemInv.mem_free_iff (h : PhysmemInv total m) (hd : m.hasDescr p = true) :
    p ∈ m.freePpage ↔ m.refCnt p = 0 := by
  constructor
  · exact h.free_refCnt p
  · intro h0
    have hmem := (h.listed p).mpr hd
    cases List.mem_append.mp hmem with
    | inl hf => exact hf
    | inr hu => exact absurd h0 (h.used_refCnt p hu)

theorem PhysmemInv.mem_used_iff (h : PhysmemInv total m) (hd : m.hasDescr p = true) :
    p ∈ m.usedPpage ↔ m.refCnt p ≠ 0 := by
  constructor
  · exact h.used_refCnt p
  · intro h0
    have hmem := (h.listed p).mpr hd
    cases List.mem_append.mp hmem with
    | inl hf => exact absurd (h.free_refCnt p hf) h0
    | inr hu => exact hu

theorem filter_ne_eq_erase {l : List UInt32} (hl : l.Nodup) (p : UInt32) :
    l.filter (· ≠ p) = l.erase p := by
  rw [hl.erase_eq_filter]
  apply List.filter_congr
  intro q _
  simp [bne, Bool.beq_eq_decide_eq]

/-- A page goes from the free to the used list. -/
theorem PhysmemInv.take (h : PhysmemInv total m) (hp : p ∈ m.freePpage)
    (hfree : m'.freePpage = m.freePpage.erase p) (hused : m'.usedPpage = m.usedPpage ++ [p])
    (hcnt : m'.refCnt = Function.update m.refCnt p 1) (hbase : m'.physmemBase = m.physmemBase)
    (hdescr : ∀ q, m'.hasDescr q = m.hasDescr q)
    (hnum : m'.physmemUsedPages = m.physmemUsedPages + 1) : PhysmemInv total m' := by
  have hperm : (m'.freePpage ++ m'.usedPpage).Perm (m.freePpage ++ m.usedPpage) := by
    rw [hfree, hused, ← List.append_assoc]
    apply List.perm_append_comm.trans
    rw [List.singleton_append, ← List.cons_append]
    exact (List.perm_cons_erase hp).symm.append_right _
  have hlen := hperm.length_eq
  rw [List.length_append, List.length_append] at hlen
  have hlast : m'.usedPpage.length = m.usedPpage.length + 1 := by
    rw [hused, List.length_append, List.length_singleton]
  have htotal := word_lt total
  refine ⟨hperm.nodup_iff.mpr h.nodup, ?_, ?_, ?_, ?_, ?_, hbase.trans h.base⟩
  · intro q
    rw [hperm.mem_iff, h.listed, hdescr]
  · intro q hq
    rw [hfree, h.free_nodup.mem_erase_iff] at hq
    rw [hcnt, Function.update_of_ne hq.1]
    exact h.free_refCnt q hq.2
  · intro q hq
    rw [hcnt]
    by_cases hqp : q = p
    · rw [hqp, Function.update_self]
      decide
    · rw [Function.update_of_ne hqp]
      rw [hused, List.mem_append, List.mem_singleton] at hq
      exact h.used_refCnt q (hq.resolve_right hqp)
  · have h1 : (1 : UInt32).toNat = 1 := rfl
    have := h.total_length
    rw [hnum, word_add, h.used_length, hlast, h1]
    omega
  · rw [← h.total_length]
    omega

/-- The last reference to a page was dropped. -/
theorem PhysmemInv.drop (h : PhysmemInv total m) (hp : p ∈ m.usedPpage)
    (hfree : m'.freePpage = p :: m.freePpage) (hused : m'.usedPpage = m.usedPpage.erase p)
    (hcnt : m'.refCnt = Function.update m.refCnt p 0) (hbase : m'.physmemBase = m.physmemBase)
    (hdescr : ∀ q, m'.hasDescr q = m.hasDescr q)
    (hnum : m'.physmemUsedPages = m.physmemUsedPages - 1) : PhysmemInv total m' := by
  have hperm : (m'.freePpage ++ m'.usedPpage).Perm (m.freePpage ++ m.usedPpage) := by
    rw [hfree, hused, List.cons_append]
    exact List.perm_middle.symm.trans ((List.perm_cons_erase hp).symm.append_left _)
  have hlen := hperm.length_eq
  rw [List.length_append, List.length_append] at hlen
  have hpos := List.length_pos_of_mem hp
  have hlast : m'.usedPpage.length = m.usedPpage.length - 1 := by
    rw [hused, List.length_erase_of_mem hp]
  refine ⟨hperm.nodup_iff.mpr h.nodup, ?_, ?_, ?_, ?_, ?_, hbase.trans h.base⟩
  · intro q
    rw [hperm.mem_iff, h.listed, hdescr]
  · intro q hq
    rw [hcnt]
    by_cases hqp : q = p
    · rw [hqp, Function.update_self]
    · rw [Function.update_of_ne hqp]
      rw [hfree, List.mem_cons] at hq
      exact h.free_refCnt q (hq.resolve_left hqp)
  · intro q hq
    rw [hused, h.used_nodup.mem_erase_iff] at hq
    rw [hcnt, Function.update_of_ne hq.1]
    exact h.used_refCnt q hq.2
  · have h1 : (1 : UInt32).toNat = 1 := rfl
    have := word_lt m.physmemUsedPages
    have := h.used_length
    rw [hnum, word_sub, hlast, h1]
    omega
  · rw [← h.total_length]
    omega

/-- A used page is referenced more or less often. -/
theorem PhysmemInv.recount (h : PhysmemInv total m) (hp : p ∈ m.usedPpage) {n : UInt32} (hn : n ≠ 0) :
    PhysmemInv total (m.setRefCnt p n) := by
  refine ⟨h.nodup, h.listed, ?_, ?_, h.used_length, h.total_length, h.base⟩
  · intro q hq
    have hqp : q ≠ p := fun he => h.not_both hq (he ▸ hp)
    rw [setRefCnt_refCnt, Function.update_of_ne hqp]
    exact h.free_refCnt q hq
  · intro q hq
    rw [setRefCnt_refCnt]
    by_cases hqp : q = p
    · rw [hqp, Function.update_self]
      exact hn
    · rw [Function.update_of_ne hqp]
      exact h.used_refCnt q hq

/-! ## What one call does under the invariant -/

theorem physmemRefPhyspageNew_eq (h : PhysmemInv total m) {rest : List UInt32}
    (hfree : m.freePpage = p :: rest) :
    physmemRefPhyspageNew m = (p, { m.setRefCnt p 1 with
      freePpage := rest
      usedPpage := m.usedPpage ++ [p]
      physmemUsedPages := m.physmemUsedPages + 1 }) := by
  have hzero : m.refCnt p = 0 := h.free_refCnt p (hfree ▸ List.mem_cons_self)
  unfold physmemRefPhyspageNew
  simp only [hfree, hzero]
  rfl

/-- An address without descriptor, a free page, or one more reference to a used page. -/
theorem physmemRefPhyspageAt_cases (h : PhysmemInv total m) (hwrap : m.refCnt p ≠ 0xffffffff) :
    (m.hasDescr p = false ∧ physmemRefPhyspageAt m p = (-1, m)) ∨
      (p ∈ m.freePpage ∧ physmemRefPhyspageAt m p = (0, { m.setRefCnt p 1 with
        freePpage := m.freePpage.erase p
        usedPpage := m.usedPpage ++ [p]
        physmemUsedPages := m.physmemUsedPages + 1 })) ∨
      (p ∈ m.usedPpage ∧ m.refCnt p + 1 ≠ 0 ∧
        physmemRefPhyspageAt m p = (1, m.setRefCnt p (m.refCnt p + 1))) := by
  unfold physmemRefPhyspageAt
  cases hd : m.hasDescr p with
  | false => exact Or.inl ⟨rfl, rfl⟩
  | true =>
    right
    rw [Bool.not_true, if_neg Bool.false_ne_true]
    have hone : m.refCnt p + 1 = 1 ↔ m.refCnt p = 0 := by simp
    by_cases h0 : m.refCnt p = 0
    · left
      refine ⟨(h.mem_free_iff hd).mpr h0, ?_⟩
      rw [if_pos (hone.mpr h0), h0, filter_ne_eq_erase h.free_nodup]
      rfl
    · right
      refine ⟨(h.mem_used_iff hd).mpr h0, ?_, if_neg fun he => h0 (hone.mp he)⟩
      have := word_lt (m.refCnt p)
      have h1 : (1 : UInt32).toNat = 1 := rfl
      have hz : (0 : UInt32).toNat = 0 := rfl
      have hmax : (0xffffffff : UInt32).toNat = 4294967295 := rfl
      rw [ne_eq, word_eq_iff, hmax] at hwrap
      rw [ne_eq, word_eq_iff, word_add, h1, hz]
      omega

/-- No reference to drop, the last one, or one of several. -/
theorem physmemUnrefPhyspage_cases (h : PhysmemInv total m) :
    ((m.hasDescr p = false ∨ m.refCnt p = 0) ∧ physmemUnrefPhyspage m p = (-1, m)) ∨
      (p ∈ m.usedPpage ∧ m.refCnt p = 1 ∧ physmemUnrefPhyspage m p = (1, { m.setRefCnt p 0 with
        usedPpage := m.usedPpage.erase p
        physmemUsedPages := m.physmemUsedPages - 1
        freePpage := p :: m.freePpage })) ∨
      (p ∈ m.usedPpage ∧ m.refCnt p - 1 ≠ 0 ∧
        physmemUnrefPhyspage m p = (0, m.setRefCnt p (m.refCnt p - 1))) := by
  unfold physmemUnrefPhyspage
  cases hd : m.hasDescr p with
  | false => exact Or.inl ⟨Or.inl rfl, rfl⟩
  | true =>
    rw [Bool.not_true, if_neg Bool.false_ne_true]
    by_cases h0 : m.refCnt p = 0
    · left
      refine ⟨Or.inr h0, if_pos ?_⟩
      rw [h0]
      decide
    · right
      have hle : ∀ w : UInt32, w ≤ 0 ↔ w = 0 := by
        intro w
        have hz : (0 : UInt32).toNat = 0 := rfl
        rw [word_le_iff, word_eq_iff, hz, Nat.le_zero]
      rw [if_neg fun he => h0 ((hle _).mp he)]
      by_cases h1 : m.refCnt p = 1
      · left
        refine ⟨(h.mem_used_iff hd).mpr h0, h1, ?_⟩
        rw [if_pos (by rw [h1]; decide), h1, filter_ne_eq_erase h.used_nodup]
        rfl
      · right
        have hsub : m.refCnt p - 1 ≠ 0 := fun he => h1 (by rw [sub_eq_zero] at he; exact he)
        exact ⟨(h.mem_used_iff hd).mpr h0, hsub, if_neg fun he => hsub ((hle _).mp he)⟩

/-- **One call keeps the invariant.** -/
theorem PhysmemInv.step (h : PhysmemInv total m) (op : PhysmemOp) (hwrap : NoWrap m op) :
    PhysmemInv total (physmemStep m op) := by
  cases op with
  | refNew =>
    show PhysmemInv total (physmemRefPhyspageNew m).2
    cases hfree : m.freePpage with
    | nil =>
      have heq : physmemRefPhyspageNew m = (0, m) := by
        unfold physmemRefPhyspageNew
        rw [hfree]
      rw [heq]
      exact h
    | cons p rest =>
      rw [physmemRefPhyspageNew_eq h hfree]
      refine h.take (hfree ▸ List.mem_cons_self) ?_ rfl rfl rfl (fun _ => rfl) rfl
      rw [hfree, List.erase_cons_head]
  | refAt p =>
    show PhysmemInv total (physmemRefPhyspageAt m p).2
    rcases physmemRefPhyspageAt_cases h hwrap with ⟨_, heq⟩ | ⟨hp, heq⟩ | ⟨hp, hn, heq⟩
    · rw [heq]
      exact h
    · rw [heq]
      exact h.take hp rfl rfl rfl rfl (fun _ => rfl) rfl
    · rw [heq]
      exact h.recount hp hn
  | unref p =>
    show PhysmemInv total (physmemUnrefPhyspage m p).2
    rcases @physmemUnrefPhyspage_cases total m p h with ⟨_, heq⟩ | ⟨hp, _, heq⟩ | ⟨hp, hn, heq⟩
    · rw [heq]
      exact h
    · rw [heq]
      exact h.drop hp rfl rfl rfl rfl (fun _ => rfl) rfl
    · rw [heq]
      exact h.recount hp hn

end

/-! ## The setup -/

/-- The first `n` pages are set up. -/
structure SetupInv (n : Nat) (s : PhysmemSetup) : Prop where
  nodup : (s.physmem.freePpage ++ s.physmem.usedPpage).Nodup
  listed : ∀ p, p ∈ s.physmem.freePpage ++ s.physmem.usedPpage ↔
    p.toNat % 4096 = 0 ∧ 4096 ≤ p.toNat ∧ p.toNat < 4096 * n
  free_refCnt : ∀ p ∈ s.physmem.freePpage, s.physmem.refCnt p = 0
  used_refCnt : ∀ p ∈ s.physmem.usedPpage, s.physmem.refCnt p = 1
  used_length : s.physmem.physmemUsedPages.toNat = s.physmem.usedPpage.length
  total_length : s.physmem.freePpage.length + s.physmem.usedPpage.length = n - 1
  totalPages : s.physmemTotalPages.toNat = n
  base : s.physmem.physmemBase = pageSize

section

variable {bKernel : UInt32} {s : PhysmemSetup}

theorem pageAddr_toNat {n : Nat} (hn : n < 1048576) : (UInt32.ofNat (4096 * n)).toNat = 4096 * n := by
  rw [UInt32.toNat_ofNat_of_lt']
  have : UInt32.size = 4294967296 := rfl
  omega

/-- Only the page at address 0 is reserved. -/
theorem ppageMark_reserved_iff (hbase : s.physmem.physmemBase = pageSize) {n : Nat} (hn : n < 1048576) :
    ppageMark bKernel s (UInt32.ofNat (4096 * n)) = .reserved ↔ n = 0 := by
  have hp := pageAddr_toNat hn
  have h4096 : pageSize.toNat = 4096 := rfl
  have hlt : UInt32.ofNat (4096 * n) < s.physmem.physmemBase ↔ n = 0 := by
    rw [hbase, word_lt_iff, hp, h4096]
    omega
  unfold ppageMark
  by_cases h0 : n = 0
  · rw [if_pos (hlt.mpr h0)]
    simp [h0]
  · rw [if_neg fun h => h0 (hlt.mp h)]
    constructor
    · split_ifs <;> simp
    · exact fun h => absurd h h0

/-- The page set up next is none of those before, and all others keep their count. -/
theorem SetupInv.fresh {n : Nat} (h : SetupInv n s) (hn : n < 1048576) {q : UInt32}
    (hq : q ∈ s.physmem.freePpage ++ s.physmem.usedPpage) : q ≠ UInt32.ofNat (4096 * n) := by
  intro he
  have hlt := ((h.listed q).mp hq).2.2
  rw [he, pageAddr_toNat hn] at hlt
  omega

theorem listed_next {n : Nat} (hn : n < 1048576) (h0 : n ≠ 0) (p : UInt32) :
    (p = UInt32.ofNat (4096 * n) ∨ p.toNat % 4096 = 0 ∧ 4096 ≤ p.toNat ∧ p.toNat < 4096 * n) ↔
      p.toNat % 4096 = 0 ∧ 4096 ≤ p.toNat ∧ p.toNat < 4096 * (n + 1) := by
  rw [word_eq_iff, pageAddr_toNat hn]
  omega

theorem SetupInv.next {n : Nat} (h : SetupInv n s) (hn : n < 1048576) :
    SetupInv (n + 1) (setupPpage bKernel s (UInt32.ofNat (4096 * n))) := by
  have h1 : (1 : UInt32).toNat = 1 := rfl
  have htotal : (s.physmemTotalPages + 1).toNat = n + 1 := by
    rw [word_add, h.totalPages, h1]
    omega
  have hlen := h.total_length
  have hmark := @ppageMark_reserved_iff bKernel s h.base n hn
  have hfree : ∀ c, ∀ q ∈ s.physmem.freePpage,
      Function.update s.physmem.refCnt (UInt32.ofNat (4096 * n)) c q = 0 := by
    intro c q hq
    rw [Function.update_of_ne (h.fresh hn (List.mem_append_left _ hq))]
    exact h.free_refCnt q hq
  have hused : ∀ c, ∀ q ∈ s.physmem.usedPpage,
      Function.update s.physmem.refCnt (UInt32.ofNat (4096 * n)) c q = 1 := by
    intro c q hq
    rw [Function.update_of_ne (h.fresh hn (List.mem_append_right _ hq))]
    exact h.used_refCnt q hq
  have hfresh : UInt32.ofNat (4096 * n) ∉ s.physmem.freePpage ++ s.physmem.usedPpage :=
    fun hmem => h.fresh hn hmem rfl
  -- A page on neither list, at the head of the free list, or at the head of the used list.
  unfold setupPpage
  cases hm : ppageMark bKernel s (UInt32.ofNat (4096 * n)) with
  | reserved =>
    have h0 := hmark.mp hm
    refine ⟨h.nodup, fun p => ?_, hfree 0, hused 0, h.used_length, ?_, htotal, h.base⟩
    · show p ∈ s.physmem.freePpage ++ s.physmem.usedPpage ↔ _
      rw [h.listed, h0]
      omega
    · show s.physmem.freePpage.length + s.physmem.usedPpage.length = n + 1 - 1
      omega
  | free =>
    have h0 : n ≠ 0 := by
      intro h0
      rw [hmark.mpr h0] at hm
      cases hm
    refine ⟨List.nodup_cons.mpr ⟨hfresh, h.nodup⟩, fun p => ?_, ?_, hused 0, h.used_length, ?_, htotal, h.base⟩
    · show p ∈ UInt32.ofNat (4096 * n) :: (s.physmem.freePpage ++ s.physmem.usedPpage) ↔ _
      rw [List.mem_cons, h.listed, listed_next hn h0]
    · intro q hq
      cases List.mem_cons.mp hq with
      | inl he => rw [he]; exact Function.update_self ..
      | inr hq => exact hfree 0 q hq
    · show s.physmem.freePpage.length + 1 + s.physmem.usedPpage.length = n + 1 - 1
      omega
  | kernel | hwmap =>
    have h0 : n ≠ 0 := by
      intro h0
      rw [hmark.mpr h0] at hm
      cases hm
    refine ⟨?_, fun p => ?_, hfree 1, ?_, ?_, ?_, htotal, h.base⟩
    · exact List.perm_middle.nodup_iff.mpr (List.nodup_cons.mpr ⟨hfresh, h.nodup⟩)
    · show p ∈ s.physmem.freePpage ++ UInt32.ofNat (4096 * n) :: s.physmem.usedPpage ↔ _
      rw [List.perm_middle.mem_iff, List.mem_cons, h.listed, listed_next hn h0]
    · intro q hq
      cases List.mem_cons.mp hq with
      | inl he => rw [he]; exact Function.update_self ..
      | inr hq => exact hused 1 q hq
    · show (s.physmem.physmemUsedPages + 1).toNat = s.physmem.usedPpage.length + 1
      rw [word_add, h.used_length, h1]
      omega
    · show s.physmem.freePpage.length + (s.physmem.usedPpage.length + 1) = n + 1 - 1
      omega

theorem setupPpages_inv (h : SetupInv 0 s) : ∀ n ≤ 1048576, SetupInv n (setupPpages bKernel s n) := by
  intro n
  induction n with
  | zero =>
    intro _
    exact h
  | succ n ih =>
    intro hn
    exact (ih (by omega)).next (by omega)

theorem setupPpage_physmemTop (s : PhysmemSetup) (p : UInt32) :
    (setupPpage bKernel s p).physmem.physmemTop = s.physmem.physmemTop := by
  unfold setupPpage
  dsimp only
  split <;> rfl

theorem setupPpages_physmemTop (n : Nat) :
    (setupPpages bKernel s n).physmem.physmemTop = s.physmem.physmemTop := by
  induction n with
  | zero => rfl
  | succ n ih => exact (setupPpage_physmemTop _ _).trans ih

end

/-- A descriptor belongs to each page of the RAM but the first. -/
theorem hasDescr_iff {m : Physmem} (hbase : m.physmemBase = pageSize) (p : UInt32) :
    m.hasDescr p = true ↔ p.toNat % 4096 = 0 ∧ 4096 ≤ p.toNat ∧ p.toNat < m.physmemTop.toNat := by
  have hmask : (p &&& (pageSize - 1) == 0) = true ↔ p.toNat % 4096 = 0 := isAligned_iff p
  have h4096 : pageSize.toNat = 4096 := rfl
  unfold Physmem.hasDescr
  rw [Bool.and_eq_true, Bool.and_eq_true, hmask, hbase, Bool.not_eq_true', Bool.not_eq_true',
    decide_eq_false_iff_not, decide_eq_false_iff_not, word_lt_iff, h4096, ge_iff_le, word_le_iff]
  omega

/-- **The setup establishes the invariant**, on a machine with a page of RAM. -/
theorem physmemSetup_inv {ramSize bKernel eKernel : UInt32} {m : Physmem}
    (hok : (physmemSetup ramSize bKernel eKernel m).1 = 0) (hram : pageSize ≤ ramSize) :
    PhysmemInv (physmemSetup ramSize bKernel eKernel m).2.physmemTotalPages
        (physmemSetup ramSize bKernel eKernel m).2.physmem ∧
      (physmemSetup ramSize bKernel eKernel m).2.physmem.physmemTop = pageAlignInf ramSize := by
  unfold physmemSetup at hok ⊢
  dsimp only at hok ⊢
  split at hok
  · cases hok
  next hle =>
  rw [if_neg hle]
  have hr := word_lt ramSize
  have h4096 : pageSize.toNat = 4096 := rfl
  rw [word_le_iff, h4096] at hram
  have halign : (pageAlignInf ramSize).toNat = ramSize.toNat / 4096 * 4096 := toNat_alignInf ramSize
  have hpages : (pageAlignInf ramSize >>> 12).toNat = ramSize.toNat / 4096 := by
    rw [UInt32.toNat_shiftRight, halign]
    show (ramSize.toNat / 4096 * 4096) >>> 12 = _
    rw [Nat.shiftRight_eq_div_pow]
    omega
  rw [hpages]
  have hinv := @setupPpages_inv bKernel _ (SetupInv.mk (by simp) (by intro p; simp)
    (by intro p hp; exact absurd hp List.not_mem_nil) (by intro p hp; exact absurd hp List.not_mem_nil)
    rfl rfl rfl rfl : SetupInv 0
      { kernelCoreBase := pageAlignInf bKernel
        kernelCoreTop := alignSup eKernel pageSize +
          alignSup ((pageAlignInf ramSize >>> 12) * sizeofPhysicalPageDescr) pageSize
        physmemTotalPages := 0
        physmem := { m with
          physmemBase := pageSize
          physmemTop := pageAlignInf ramSize
          freePpage := []
          usedPpage := []
          physmemUsedPages := 0 } }) (ramSize.toNat / 4096) (by omega)
  refine ⟨⟨hinv.nodup, fun p => ?_, hinv.free_refCnt, ?_, hinv.used_length, ?_, hinv.base⟩,
    setupPpages_physmemTop _⟩
  · rw [hinv.listed, hasDescr_iff hinv.base, setupPpages_physmemTop, halign, Nat.mul_comm 4096]
  · intro p hp
    rw [hinv.used_refCnt p hp]
    decide
  · rw [hinv.total_length, hinv.totalPages]
    omega

/-! ## Every reachable state -/

section

variable {total : UInt32} {m : Physmem} {p : UInt32}

theorem physmemStep_physmemTop (m : Physmem) (op : PhysmemOp) :
    (physmemStep m op).physmemTop = m.physmemTop := by
  cases op with
  | refNew =>
    show (physmemRefPhyspageNew m).2.physmemTop = _
    unfold physmemRefPhyspageNew
    split
    · rfl
    · split_ifs <;> rfl
  | refAt p =>
    show (physmemRefPhyspageAt m p).2.physmemTop = _
    unfold physmemRefPhyspageAt
    split_ifs <;> rfl
  | unref p =>
    show (physmemUnrefPhyspage m p).2.physmemTop = _
    unfold physmemUnrefPhyspage
    split_ifs <;> rfl

theorem run_physmemTop (ops : List PhysmemOp) :
    ∀ m : Physmem, (run physmemStep m ops).physmemTop = m.physmemTop := by
  induction ops with
  | nil => exact fun _ => rfl
  | cons op ops ih =>
    intro m
    rw [run_cons, ih, physmemStep_physmemTop]

theorem PhysmemInv.run (h : PhysmemInv total m) {ops : List PhysmemOp}
    (hwrap : Guarded physmemStep NoWrap m ops) : PhysmemInv total (run physmemStep m ops) :=
  @invariant_run _ _ physmemStep NoWrap (PhysmemInv total) (fun _ op h hw => h.step op hw) ops m h hwrap

theorem PhysmemInv.hasDescr_step (h : PhysmemInv total m) {op : PhysmemOp} (hwrap : NoWrap m op) :
    (physmemStep m op).hasDescr p = m.hasDescr p := by
  rw [Bool.eq_iff_iff, hasDescr_iff (h.step op hwrap).base, hasDescr_iff h.base, physmemStep_physmemTop]

theorem word_succ {w : UInt32} (h : w + 1 ≠ 0) : ((w + 1).toNat : Int) = w.toNat + 1 := by
  have h0 : (0 : UInt32).toNat = 0 := rfl
  have h1 : (1 : UInt32).toNat = 1 := rfl
  have := word_lt w
  rw [ne_eq, word_eq_iff, word_add, h0, h1] at h
  rw [word_add, h1]
  omega

theorem word_pred {w : UInt32} (h : w ≠ 0) : ((w - 1).toNat : Int) = w.toNat - 1 := by
  have h0 : (0 : UInt32).toNat = 0 := rfl
  have h1 : (1 : UInt32).toNat = 1 := rfl
  have := word_lt w
  rw [ne_eq, word_eq_iff, h0] at h
  rw [word_sub, h1]
  omega

/-- The count of a page changes by the references a call takes and drops. -/
theorem PhysmemInv.refCnt_step (h : PhysmemInv total m) (hp : m.hasDescr p = true) {op : PhysmemOp}
    (hwrap : NoWrap m op) :
    ((physmemStep m op).refCnt p).toNat = (m.refCnt p).toNat + referenceChange p m op := by
  have hp0 : (0 : UInt32) ≠ p := fun he => by simp [← he, h.hasDescr_zero] at hp
  cases op with
  | refNew =>
    unfold physmemStep referenceChange
    cases hfree : m.freePpage with
    | nil =>
      have heq : physmemRefPhyspageNew m = (0, m) := by
        unfold physmemRefPhyspageNew
        rw [hfree]
      simp only [heq, if_neg hp0, add_zero]
    | cons q rest =>
      have h0 := h.free_refCnt q (hfree ▸ List.mem_cons_self)
      simp only [physmemRefPhyspageNew_eq h hfree, setRefCnt_refCnt]
      by_cases hq : q = p
      · rw [if_pos hq, ← hq, Function.update_self, h0]
        rfl
      · rw [if_neg hq, Function.update_of_ne (Ne.symm hq), add_zero]
  | refAt q =>
    unfold physmemStep referenceChange
    rcases physmemRefPhyspageAt_cases h hwrap with ⟨_, heq⟩ | ⟨hq, heq⟩ | ⟨hq, hn, heq⟩
    · simp [heq]
    · have h0 := h.free_refCnt q hq
      simp only [heq, setRefCnt_refCnt]
      by_cases hqp : q = p
      · rw [if_pos ⟨hqp, by decide⟩, ← hqp, Function.update_self, h0]
        rfl
      · rw [if_neg fun hc => hqp hc.1, Function.update_of_ne (Ne.symm hqp), add_zero]
    · simp only [heq, setRefCnt_refCnt]
      by_cases hqp : q = p
      · rw [if_pos ⟨hqp, by decide⟩, ← hqp, Function.update_self, word_succ hn]
      · rw [if_neg fun hc => hqp hc.1, Function.update_of_ne (Ne.symm hqp), add_zero]
  | unref q =>
    unfold physmemStep referenceChange
    rcases @physmemUnrefPhyspage_cases total m q h with ⟨_, heq⟩ | ⟨hq, h1, heq⟩ | ⟨hq, hn, heq⟩
    · simp [heq]
    · simp only [heq, setRefCnt_refCnt]
      by_cases hqp : q = p
      · rw [if_pos ⟨hqp, by decide⟩, ← hqp, Function.update_self, h1]
        rfl
      · rw [if_neg fun hc => hqp hc.1, Function.update_of_ne (Ne.symm hqp), add_zero]
    · simp only [heq, setRefCnt_refCnt]
      by_cases hqp : q = p
      · rw [if_pos ⟨hqp, by decide⟩, ← hqp, Function.update_self, word_pred (h.used_refCnt q hq)]
        rfl
      · rw [if_neg fun hc => hqp hc.1, Function.update_of_ne (Ne.symm hqp), add_zero]

theorem PhysmemInv.refCnt_run : ∀ (ops : List PhysmemOp) {m : Physmem}, PhysmemInv total m →
    m.hasDescr p = true → Guarded physmemStep NoWrap m ops →
    ((Library.run physmemStep m ops).refCnt p).toNat =
      (m.refCnt p).toNat + referencesOver p m ops := by
  intro ops
  induction ops with
  | nil =>
    intro m _ _ _
    exact (add_zero _).symm
  | cons op ops ih =>
    intro m h hp hwrap
    have hp' : (physmemStep m op).hasDescr p = true := by rw [h.hasDescr_step hwrap.1, hp]
    rw [run_cons, ih (h.step op hwrap.1) hp' hwrap.2, h.refCnt_step hp hwrap.1, referencesOver, add_assoc]

end

/-! ## The promises of the allocator -/

/-- The pages of a RAM of `ramSize` bytes that have a descriptor, except page 0. -/
def IsPpage (ramSize p : UInt32) : Prop := isPageAligned p = true ∧ p ≠ 0 ∧ p < pageAlignInf ramSize

structure PhysmemConsistent (ramSize total : UInt32) (m : Physmem) : Prop where
  listed_once : ∀ p, IsPpage ramSize p → m.freePpage.count p + m.usedPpage.count p = 1
  only_ppages : ∀ p ∈ m.freePpage ++ m.usedPpage, IsPpage ramSize p
  free_iff : ∀ p, IsPpage ramSize p → (p ∈ m.freePpage ↔ m.refCnt p = 0)
  used_length : m.physmemUsedPages.toNat = m.usedPpage.length
  total_length : m.freePpage.length + m.usedPpage.length + 1 = total.toNat

/-- `physmem_ref_physpage_new` gives a page nobody refers to, and the same page again only when the
reference it gave and all others taken since were dropped. -/
structure NewPageOk (ramSize : UInt32) (m : Physmem) : Prop where
  null_iff : (physmemRefPhyspageNew m).1 = 0 ↔ m.freePpage = []
  fresh : (physmemRefPhyspageNew m).1 ≠ 0 →
    IsPpage ramSize (physmemRefPhyspageNew m).1 ∧ m.refCnt (physmemRefPhyspageNew m).1 = 0
  not_again : ∀ ops, Guarded physmemStep NoWrap (physmemRefPhyspageNew m).2 ops →
    (physmemRefPhyspageNew m).1 ≠ 0 →
    (physmemRefPhyspageNew (run physmemStep (physmemRefPhyspageNew m).2 ops)).1 =
      (physmemRefPhyspageNew m).1 →
    1 + referencesOver (physmemRefPhyspageNew m).1 (physmemRefPhyspageNew m).2 ops = 0

structure RejectsBadPage (ramSize : UInt32) (m : Physmem) : Prop where
  refAt : ∀ p, ¬ IsPpage ramSize p →
    (physmemRefPhyspageAt m p).1 < 0 ∧ (physmemRefPhyspageAt m p).2 = m
  unref : ∀ p, ¬ IsPpage ramSize p ∨ m.refCnt p = 0 →
    (physmemUnrefPhyspage m p).1 < 0 ∧ (physmemUnrefPhyspage m p).2 = m

section

variable {ramSize total : UInt32} {m : Physmem}

theorem PhysmemInv.hasDescr_iff_isPpage (h : PhysmemInv total m)
    (htop : m.physmemTop = pageAlignInf ramSize) (p : UInt32) :
    m.hasDescr p = true ↔ IsPpage ramSize p := by
  have h0 : (0 : UInt32).toNat = 0 := rfl
  have halign : isPageAligned p = true ↔ p.toNat % 4096 = 0 := isAligned_iff p
  unfold IsPpage
  rw [hasDescr_iff h.base, htop, halign, ne_eq, word_eq_iff, h0, word_lt_iff]
  omega

theorem PhysmemInv.consistent (h : PhysmemInv total m) (htop : m.physmemTop = pageAlignInf ramSize) :
    PhysmemConsistent ramSize total m := by
  refine ⟨fun p hp => ?_, fun p hp => ?_, fun p hp => ?_, h.used_length, h.total_length⟩
  · rw [← List.count_append]
    apply List.count_eq_one_of_mem h.nodup
    rw [h.listed, h.hasDescr_iff_isPpage htop]
    exact hp
  · rw [← h.hasDescr_iff_isPpage htop, ← h.listed]
    exact hp
  · exact h.mem_free_iff ((h.hasDescr_iff_isPpage htop p).mpr hp)

/-- The page `physmem_ref_physpage_new` returns. -/
theorem PhysmemInv.new_ne_zero (h : PhysmemInv total m) (hne : (physmemRefPhyspageNew m).1 ≠ 0) :
    (physmemRefPhyspageNew m).1 ∈ m.freePpage ∧
      (physmemRefPhyspageNew m).2.refCnt (physmemRefPhyspageNew m).1 = 1 := by
  cases hfree : m.freePpage with
  | nil =>
    unfold physmemRefPhyspageNew at hne
    rw [hfree] at hne
    exact absurd rfl hne
  | cons q rest =>
    rw [physmemRefPhyspageNew_eq h hfree]
    exact ⟨List.mem_cons_self, Function.update_self ..⟩

theorem PhysmemInv.newPageOk (h : PhysmemInv total m) (htop : m.physmemTop = pageAlignInf ramSize) :
    NewPageOk ramSize m := by
  constructor
  · cases hfree : m.freePpage with
    | nil =>
      unfold physmemRefPhyspageNew
      rw [hfree]
      simp
    | cons q rest =>
      rw [physmemRefPhyspageNew_eq h hfree]
      have hd : m.hasDescr q = true := by
        rw [← h.listed, hfree]
        exact List.mem_cons_self
      have hq : q ≠ 0 := by
        intro he
        rw [he, h.hasDescr_zero] at hd
        cases hd
      simp [hq]
  · intro hne
    have hmem := (h.new_ne_zero hne).1
    refine ⟨?_, h.free_refCnt _ hmem⟩
    rw [← h.hasDescr_iff_isPpage htop, ← h.listed]
    exact List.mem_append_left _ hmem
  · intro ops hwrap hne hagain
    -- The page is counted once after the first call, and not at all before the second.
    obtain ⟨hmem, hone⟩ := h.new_ne_zero hne
    have hstep : PhysmemInv total (physmemRefPhyspageNew m).2 := h.step .refNew trivial
    have hd : (physmemRefPhyspageNew m).2.hasDescr (physmemRefPhyspageNew m).1 = true := by
      have hsame := @PhysmemInv.hasDescr_step total m (physmemRefPhyspageNew m).1 h .refNew trivial
      rw [show physmemStep m .refNew = (physmemRefPhyspageNew m).2 from rfl] at hsame
      rw [hsame, ← h.listed]
      exact List.mem_append_left _ hmem
    have hcount := PhysmemInv.refCnt_run ops hstep hd hwrap
    have hlast := hstep.run hwrap
    have hzero := hlast.free_refCnt _ (hlast.new_ne_zero (hagain ▸ hne)).1
    rw [hagain] at hzero
    rw [hzero, hone] at hcount
    exact hcount.symm

theorem PhysmemInv.rejectsBadPage (h : PhysmemInv total m)
    (htop : m.physmemTop = pageAlignInf ramSize) : RejectsBadPage ramSize m := by
  have hdescr : ∀ p, ¬ IsPpage ramSize p → m.hasDescr p = false := by
    intro p hp
    rw [← h.hasDescr_iff_isPpage htop, Bool.not_eq_true] at hp
    exact hp
  constructor
  · intro p hp
    unfold physmemRefPhyspageAt
    rw [hdescr p hp]
    exact ⟨(show (-1 : Int) < 0 by decide), rfl⟩
  · intro p hp
    rcases @physmemUnrefPhyspage_cases total m p h with ⟨_, heq⟩ | ⟨hu, h1, _⟩ | ⟨hu, hn, _⟩
    · rw [heq]
      exact ⟨(show (-1 : Int) < 0 by decide), rfl⟩
    all_goals
      have hd := (h.listed p).mp (List.mem_append_right _ hu)
      cases hp with
      | inl hbad => rw [hdescr p hbad] at hd; cases hd
      | inr h0 => exact absurd h0 (h.used_refCnt p hu)

end

/-- **The physical page allocator over whole runs.** -/
theorem physmem_runs_consistent (ramSize bKernel eKernel : UInt32) (m : Physmem)
    (hok : (physmemSetup ramSize bKernel eKernel m).1 = 0) (hram : pageSize ≤ ramSize)
    (ops : List PhysmemOp)
    (hwrap : Guarded physmemStep NoWrap (physmemSetup ramSize bKernel eKernel m).2.physmem ops) :
    PhysmemConsistent ramSize (physmemSetup ramSize bKernel eKernel m).2.physmemTotalPages
        (run physmemStep (physmemSetup ramSize bKernel eKernel m).2.physmem ops) ∧
      NewPageOk ramSize (run physmemStep (physmemSetup ramSize bKernel eKernel m).2.physmem ops) ∧
      RejectsBadPage ramSize
        (run physmemStep (physmemSetup ramSize bKernel eKernel m).2.physmem ops) := by
  obtain ⟨hinv, htop⟩ := physmemSetup_inv hok hram
  have hrun := hinv.run hwrap
  have htop' := (run_physmemTop ops _).trans htop
  exact ⟨hrun.consistent htop', hrun.newPageOk htop', hrun.rejectsBadPage htop'⟩

/-- A machine with 1036 KiB and a kernel image of half a page: a new page, one at an address in the middle
of the free list, and the first one dropped again. -/
theorem physmem_runs_consistent_small :
    PhysmemConsistent 0x103000 (physmemSetup 0x103000 0x100000 0x100800
        ⟨0, 0, fun _ => 0, [], [], 0⟩).2.physmemTotalPages
      (run physmemStep (physmemSetup 0x103000 0x100000 0x100800 ⟨0, 0, fun _ => 0, [], [], 0⟩).2.physmem
        [.refNew, .refAt 0x5000, .unref 0x9f000]) :=
  (physmem_runs_consistent 0x103000 0x100000 0x100800 ⟨0, 0, fun _ => 0, [], [], 0⟩ (by decide +kernel)
    (by decide) [.refNew, .refAt 0x5000, .unref 0x9f000]
    ⟨trivial, by decide +kernel, trivial, trivial⟩).1

end Desiros.Mem
