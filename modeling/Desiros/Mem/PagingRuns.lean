import Desiros.Mem.Paging
import Desiros.Library.Runs
import Desiros.Library.TableCount

/-!
# References and page-table entries (`mem/paging.c`)

`entriesTo` counts the present entries that refer to a physical page. `paging_map` takes a reference for the
entry it writes, but gives none back for the entry it writes over; `paging_unmap` gives one back as long as
there is one. So `ref_cnt` follows the entries exactly along the runs whose steps meet `CountsFollow`.
-/

namespace Desiros.Mem

open Desiros.Library

/-- A present entry of a page that refers to the physical page `p`. -/
def RefersTo (p : UInt32) (v : UInt32) (e : Pte) : Prop := isPageAligned v ∧ e.present ∧ e.frame = p

noncomputable def Paging.entriesTo (g : Paging) (p : UInt32) : Nat := countEntries (RefersTo p) g.pte

/-- The references to `p` that no entry accounts for. -/
noncomputable def Paging.otherRefs (g : Paging) (p : UInt32) : Int :=
  (g.physmem.refCnt p).toNat - g.entriesTo p

/-- The managed page that the entry of a virtual page refers to. -/
def Paging.referred (g : Paging) (virt : UInt32) : Option UInt32 :=
  let e := g.pte (pageAlignInf virt)
  if e.present ∧ g.physmem.hasDescr e.frame then some e.frame else none

/-- The managed page that an entry with the address `physical` refers to, where `paging_map` takes no
reference: the address is not the one of a page. -/
def unreferenced (m : Physmem) (physical : UInt32) : Option UInt32 :=
  if physical ≠ pageAlignInf physical ∧ m.hasDescr (pageAlignInf physical) then some (pageAlignInf physical)
  else none

inductive PagingOp
  | map (virt physical : UInt32) (user : Bool)
  | unmap (virt : UInt32)
  | unmapInterval (vaddr size : UInt32)
deriving DecidableEq

def pagingStep (g : Paging) : PagingOp → Paging
  | .map virt physical user => (pagingMap g virt physical user).2
  | .unmap virt => (pagingUnmap g virt).2
  | .unmapInterval vaddr size => (pagingUnmapInterval g vaddr size).2

/-- The `n` pages from `vaddr` on. -/
def pagesFrom : Nat → UInt32 → List UInt32
  | 0, _ => []
  | n + 1, vaddr => vaddr :: pagesFrom n (vaddr + pageSize)

/-- The pages whose entries a call clears. -/
def PagingOp.cleared : PagingOp → List UInt32
  | .map .. => []
  | .unmap virt => if isPageAligned virt then [virt] else []
  | .unmapInterval vaddr size =>
    if isPageAligned vaddr ∧ isPageAligned size then pagesFrom (size / pageSize).toNat vaddr else []

/-- The page directory shows itself in its last entry: the page tables are seen from here on. -/
def pagingMirror : UInt32 := 0xFFC00000

/-- The pages of a call are those of page tables. -/
def PagingOp.InTables : PagingOp → Prop
  | .map virt _ _ => virt < pagingMirror
  | .unmap virt => virt < pagingMirror
  | .unmapInterval vaddr size => vaddr.toNat + size.toNat ≤ pagingMirror.toNat

/-- The call keeps the references in step with the entries. A mapping that takes a reference (which the
counter must hold) is written over an entry without one; a mapping that takes none, over an entry of the same
page. Entries are cleared as long as there are references to give back. -/
def CountsFollow (g : Paging) : PagingOp → Prop
  | .map virt physical _ =>
    g.referred virt = unreferenced g.physmem physical ∧
      (g.physmem.hasDescr physical → g.physmem.refCnt physical + 1 ≠ 0)
  | op => ∀ p, ((op.cleared.filterMap g.referred).count p) ≤ (g.physmem.refCnt p).toNat

/-! ## Words and pages -/

section

variable {g : Paging} {v p : UInt32}

theorem hasDescr_aligned {m : Physmem} (h : m.hasDescr p = true) : pageAlignInf p = p := by
  have hmask : (p &&& (pageSize - 1) == 0) = true ↔ p.toNat % 4096 = 0 := isAligned_iff p
  have halign : (pageAlignInf p).toNat = p.toNat / 4096 * 4096 := toNat_alignInf p
  unfold Physmem.hasDescr at h
  rw [Bool.and_eq_true, Bool.and_eq_true, hmask] at h
  rw [word_eq_iff, halign]
  omega

theorem hasDescr_zero_of_base {m : Physmem} (hbase : m.physmemBase = pageSize) : m.hasDescr 0 = false := by
  unfold Physmem.hasDescr
  rw [hbase]
  rfl

theorem isPageAligned_iff (v : UInt32) : isPageAligned v = true ↔ pageAlignInf v = v := by
  have h : isPageAligned v = true ↔ v.toNat % 4096 = 0 := isAligned_iff v
  have halign : (pageAlignInf v).toNat = v.toNat / 4096 * 4096 := toNat_alignInf v
  rw [h, word_eq_iff, halign]
  omega

theorem isPageAligned_alignInf (v : UInt32) : isPageAligned (pageAlignInf v) = true := by
  rw [isPageAligned_iff, pageAlignInf_pageAlignInf]

theorem isPageAligned_add_pageSize (h : isPageAligned v = true) : isPageAligned (v + pageSize) = true := by
  have haligned : ∀ w, isPageAligned w = true ↔ w.toNat % 4096 = 0 := isAligned_iff
  have h4096 : pageSize.toNat = 4096 := rfl
  rw [haligned] at h ⊢
  rw [word_add, h4096]
  omega

theorem pagesFrom_aligned (n : Nat) : ∀ v, isPageAligned v = true → ∀ w ∈ pagesFrom n v, isPageAligned w = true := by
  induction n with
  | zero =>
    intro v _ w hw
    cases hw
  | succ n ih =>
    intro v hv w hw
    rcases List.mem_cons.mp hw with rfl | hw
    · exact hv
    · exact ih _ (isPageAligned_add_pageSize hv) w hw

/-- The pages of an interval that does not wrap. -/
theorem mem_pagesFrom (n : Nat) : ∀ v, isPageAligned v = true → v.toNat + n * 4096 ≤ 4294967296 → ∀ w,
    w ∈ pagesFrom n v ↔ isPageAligned w = true ∧ v.toNat ≤ w.toNat ∧ w.toNat < v.toNat + n * 4096 := by
  have haligned : ∀ w, isPageAligned w = true ↔ w.toNat % 4096 = 0 := isAligned_iff
  have h4096 : pageSize.toNat = 4096 := rfl
  induction n with
  | zero =>
    intro v _ _ w
    refine iff_of_false List.not_mem_nil ?_
    omega
  | succ n ih =>
    intro v hv hle w
    rw [pagesFrom, List.mem_cons]
    cases n with
    | zero =>
      rw [show pagesFrom 0 (v + pageSize) = [] from rfl, haligned, word_eq_iff]
      rw [haligned] at hv
      simp only [List.not_mem_nil, or_false]
      omega
    | succ n =>
      have hadd : (v + pageSize).toNat = v.toNat + 4096 := by
        rw [word_add, h4096]
        omega
      rw [ih _ (isPageAligned_add_pageSize hv) (by rw [hadd]; omega), hadd, haligned, word_eq_iff]
      rw [haligned] at hv
      omega

theorem pagesFrom_nodup (n : Nat) : ∀ v, isPageAligned v = true → v.toNat + n * 4096 ≤ 4294967296 →
    (pagesFrom n v).Nodup := by
  induction n with
  | zero => exact fun _ _ _ => List.nodup_nil
  | succ n ih =>
    intro v hv hle
    have h4096 : pageSize.toNat = 4096 := rfl
    cases n with
    | zero => exact List.nodup_singleton v
    | succ n =>
      have hadd : (v + pageSize).toNat = v.toNat + 4096 := by
        rw [word_add, h4096]
        omega
      have hnext := isPageAligned_add_pageSize hv
      refine List.nodup_cons.mpr ⟨fun hmem => ?_, ih _ hnext (by rw [hadd]; omega)⟩
      have hle := (mem_pagesFrom _ _ hnext (by rw [hadd]; omega) v).mp hmem
      omega

end

/-! ## The managed page of an entry -/

section

variable {g : Paging} {v p : UInt32}

theorem referred_eq_some (g : Paging) (v p : UInt32) :
    g.referred v = some p ↔
      g.physmem.hasDescr p = true ∧ (g.pte (pageAlignInf v)).present = true ∧
        (g.pte (pageAlignInf v)).frame = p := by
  unfold Paging.referred
  dsimp only
  split_ifs with h
  · rw [Option.some_inj]
    exact ⟨fun he => ⟨he ▸ h.2, h.1, he⟩, fun he => he.2.2⟩
  · refine ⟨fun he => (nomatch he), fun he => absurd ⟨he.2.1, ?_⟩ h⟩
    rw [he.2.2]
    exact he.1

theorem refersTo_iff (hp : g.physmem.hasDescr p = true) (hv : isPageAligned v = true) :
    RefersTo p v (g.pte v) ↔ g.referred v = some p := by
  rw [referred_eq_some, (isPageAligned_iff v).mp hv]
  exact ⟨fun h => ⟨hp, h.2⟩, fun h => ⟨hv, h.2⟩⟩

theorem unreferenced_eq_some (m : Physmem) (physical : UInt32) (hp : m.hasDescr p = true) :
    unreferenced m physical = some p ↔ pageAlignInf physical = p ∧ physical ≠ p := by
  unfold unreferenced
  split_ifs with h
  · rw [Option.some_inj]
    exact ⟨fun he => ⟨he, fun hc => h.1 (hc.trans he.symm)⟩, fun he => he.1⟩
  · refine ⟨fun he => (nomatch he), fun he => absurd ⟨fun hc => he.2 (hc.trans he.1), ?_⟩ h⟩
    rw [he.1]
    exact hp

@[simp] theorem pagingMap_hasDescr (g : Paging) (virt physical : UInt32) (user : Bool) (q : UInt32) :
    (pagingMap g virt physical user).2.physmem.hasDescr q = g.physmem.hasDescr q :=
  physmemRefPhyspageAt_hasDescr _ _ _

theorem pagingMap_entriesTo (hp : g.physmem.hasDescr p = true) (virt physical : UInt32) (user : Bool) :
    (pagingMap g virt physical user).2.entriesTo p + (if g.referred virt = some p then 1 else 0) =
      g.entriesTo p + if pageAlignInf physical = p then 1 else 0 := by
  classical
  have hupdate := countEntries_update (RefersTo p) g.pte (pageAlignInf virt)
    ⟨physical, true, true, user || physical &&& 4 != 0⟩
  have hold : RefersTo p (pageAlignInf virt) (g.pte (pageAlignInf virt)) ↔ g.referred virt = some p := by
    rw [refersTo_iff hp (isPageAligned_alignInf virt), referred_eq_some, referred_eq_some,
      pageAlignInf_pageAlignInf]
  have hnew : RefersTo p (pageAlignInf virt) ⟨physical, true, true, user || physical &&& 4 != 0⟩ ↔
      pageAlignInf physical = p :=
    ⟨fun h => h.2.2, fun h => ⟨isPageAligned_alignInf virt, rfl, h⟩⟩
  simp only [hold, hnew] at hupdate
  exact hupdate

theorem pagingMap_refCnt (g : Paging) (virt physical : UInt32) (user : Bool) :
    (pagingMap g virt physical user).2.physmem.refCnt =
      if g.physmem.hasDescr physical then
        Function.update g.physmem.refCnt physical (g.physmem.refCnt physical + 1) else g.physmem.refCnt :=
  physmemRefPhyspageAt_refCnt _ _

/-- What `paging_map` does to a page, where the counter holds the new reference. -/
theorem pagingMap_otherRefs (hp : g.physmem.hasDescr p = true) (virt physical : UInt32) (user : Bool)
    (hroom : g.physmem.hasDescr physical → g.physmem.refCnt physical + 1 ≠ 0) :
    (pagingMap g virt physical user).2.otherRefs p = g.otherRefs p +
      (if g.referred virt = some p then 1 else 0) - if unreferenced g.physmem physical = some p then 1 else 0 := by
  have hentries := pagingMap_entriesTo hp virt physical user
  have hcnt : (((pagingMap g virt physical user).2.physmem.refCnt p).toNat : Int) =
      (g.physmem.refCnt p).toNat + if physical = p then 1 else 0 := by
    rw [pagingMap_refCnt]
    by_cases hphys : physical = p
    · subst hphys
      have hone : (1 : UInt32).toNat = 1 := rfl
      have hne := hroom hp
      have hlt := word_lt (g.physmem.refCnt physical)
      rw [ne_eq, word_eq_iff, word_add, hone, UInt32.toNat_zero] at hne
      rw [if_pos hp, Function.update_self, if_pos rfl, word_add, hone]
      omega
    · rw [if_neg hphys, add_zero]
      split
      · rw [Function.update_of_ne (Ne.symm hphys)]
      · rfl
  have hdescr : physical = p → pageAlignInf physical = p := by
    rintro rfl
    exact hasDescr_aligned hp
  have hun := unreferenced_eq_some g.physmem physical hp
  unfold Paging.otherRefs
  rw [hcnt]
  simp only [hun]
  by_cases ha : pageAlignInf physical = p
  · simp only [if_pos ha] at hentries
    by_cases hphys : physical = p
    · have hboth : ¬ (pageAlignInf physical = p ∧ physical ≠ p) := fun hc => hc.2 hphys
      rw [if_pos hphys, if_neg hboth]
      split_ifs at hentries ⊢ <;> omega
    · have hboth : pageAlignInf physical = p ∧ physical ≠ p := ⟨ha, hphys⟩
      rw [if_neg hphys, if_pos hboth]
      split_ifs at hentries ⊢ <;> omega
  · have hphys : ¬ physical = p := fun hc => ha (hdescr hc)
    have hboth : ¬ (pageAlignInf physical = p ∧ physical ≠ p) := fun hc => ha hc.1
    rw [if_neg ha] at hentries
    rw [if_neg hphys, if_neg hboth]
    split_ifs at hentries ⊢ <;> omega

end

/-! ## Clearing entries -/

section

variable {g : Paging} {v p : UInt32}

/-- The state after the entries of aligned pages are cleared in order. -/
def clearPages (g : Paging) (pages : List UInt32) : Paging := run (fun g v => (pagingUnmap g v).2) g pages

theorem pagingUnmap_of_aligned (hv : isPageAligned v = true) :
    pagingUnmap g v = (0, { physmem := (physmemUnrefPhyspage g.physmem (pagingVirtualToPhysical g v)).2
                            pte := Function.update g.pte v { g.pte v with present := false } }) := by
  have hmask : (v &&& 0xfff == 0) = true := hv
  unfold pagingUnmap
  rw [if_neg (not_not.mpr (beq_iff_eq.mp hmask)), (isPageAligned_iff v).mp hv]

/-- The physical address of an aligned page, if it is managed. -/
theorem virtualToPhysical_referred (hv : isPageAligned v = true) (hzero : g.physmem.hasDescr 0 = false) :
    (if g.physmem.hasDescr (pagingVirtualToPhysical g v) then some (pagingVirtualToPhysical g v) else none) =
      g.referred v := by
  have hoff : vaddrPgOffset v = 0 := beq_iff_eq.mp hv
  unfold pagingVirtualToPhysical Paging.referred
  by_cases hpresent : (g.pte (pageAlignInf v)).present = true
  · simp only [hoff, UInt32.add_zero, hpresent, true_and, if_true]
  · simp only [hzero, hpresent, false_and, if_false, Bool.false_eq_true]

theorem unref_referred (m : Physmem) (q p : UInt32) :
    ((physmemUnrefPhyspage m q).2.refCnt p).toNat =
      (m.refCnt p).toNat - if m.hasDescr q ∧ q = p then 1 else 0 := by
  have h0 : (0 : UInt32).toNat = 0 := rfl
  rw [physmemUnrefPhyspage_refCnt]
  by_cases hq : m.hasDescr q = true ∧ 0 < m.refCnt q
  · rw [if_pos hq]
    by_cases hqp : q = p
    · subst hqp
      have hpos := hq.2
      rw [word_lt_iff, h0] at hpos
      have hpred : ((m.refCnt q - 1).toNat : Int) = (m.refCnt q).toNat - 1 := by
        have h1 : (1 : UInt32).toNat = 1 := rfl
        have := word_lt (m.refCnt q)
        rw [word_sub, h1]
        omega
      rw [Function.update_self, if_pos ⟨hq.1, rfl⟩]
      omega
    · rw [Function.update_of_ne (Ne.symm hqp), if_neg fun hc => hqp hc.2]
      rfl
  · rw [if_neg hq]
    split_ifs with hqp
    · have hle : ¬ 0 < m.refCnt p := fun hc => hq ⟨hqp.1, hqp.2 ▸ hc⟩
      rw [word_lt_iff, h0] at hle
      omega
    · rfl

/-- Clearing one entry. -/
theorem pagingUnmap_counts (hv : isPageAligned v = true) (hzero : g.physmem.hasDescr 0 = false)
    (hp : g.physmem.hasDescr p = true) :
    (pagingUnmap g v).2.entriesTo p + (if g.referred v = some p then 1 else 0) = g.entriesTo p ∧
      ((pagingUnmap g v).2.physmem.refCnt p).toNat =
        (g.physmem.refCnt p).toNat - if g.referred v = some p then 1 else 0 := by
  classical
  rw [pagingUnmap_of_aligned hv]
  constructor
  · have hupdate := countEntries_update (RefersTo p) g.pte v { g.pte v with present := false }
    rw [if_neg (fun h => Bool.false_ne_true h.2.1 :
      ¬ RefersTo p v { g.pte v with present := false })] at hupdate
    simp only [refersTo_iff hp hv] at hupdate
    exact hupdate
  · rw [unref_referred]
    simp only [← virtualToPhysical_referred hv hzero]
    congr 1
    by_cases hd : g.physmem.hasDescr (pagingVirtualToPhysical g v) = true
    · simp only [hd, true_and, if_true, Option.some_inj]
    · simp only [hd, false_and, if_false, Bool.false_eq_true, reduceCtorEq]

@[simp] theorem pagingUnmap_hasDescr (g : Paging) (v q : UInt32) :
    (pagingUnmap g v).2.physmem.hasDescr q = g.physmem.hasDescr q := by
  unfold pagingUnmap
  split_ifs
  · rfl
  · exact physmemUnrefPhyspage_hasDescr _ _ _

theorem pagingUnmap_referred {w : UInt32} (hv : isPageAligned v = true) (hw : isPageAligned w = true)
    (hne : w ≠ v) : (pagingUnmap g v).2.referred w = g.referred w := by
  unfold Paging.referred
  rw [pagingUnmap_of_aligned hv]
  simp only [(isPageAligned_iff w).mp hw, Function.update_of_ne hne, physmemUnrefPhyspage_hasDescr]

theorem clearPages_counts (hp : g.physmem.hasDescr p = true) (hzero : g.physmem.hasDescr 0 = false) :
    ∀ pages : List UInt32, pages.Nodup → (∀ v ∈ pages, isPageAligned v = true) →
      (clearPages g pages).entriesTo p + (pages.filterMap g.referred).count p = g.entriesTo p ∧
      ((clearPages g pages).physmem.refCnt p).toNat =
        (g.physmem.refCnt p).toNat - (pages.filterMap g.referred).count p := by
  intro pages
  induction pages generalizing g with
  | nil => exact fun _ _ => ⟨rfl, rfl⟩
  | cons v pages ih =>
    intro hnodup haligned
    have hv := haligned v List.mem_cons_self
    have hrest := fun w hw => haligned w (List.mem_cons_of_mem v hw)
    obtain ⟨hentries, hcnt⟩ := pagingUnmap_counts hv hzero hp
    obtain ⟨ihentries, ihcnt⟩ := @ih (pagingUnmap g v).2 (by simpa using hp) (by simpa using hzero)
      (List.nodup_cons.mp hnodup).2 hrest
    -- the other entries still refer to the same pages
    have hsame : pages.filterMap (pagingUnmap g v).2.referred = pages.filterMap g.referred := by
      apply List.filterMap_congr
      intro w hw
      apply pagingUnmap_referred hv (hrest w hw)
      rintro rfl
      exact (List.nodup_cons.mp hnodup).1 hw
    have hcount : ((v :: pages).filterMap g.referred).count p =
        (pages.filterMap g.referred).count p + if g.referred v = some p then 1 else 0 := by
      cases hr : g.referred v with
      | none => rw [List.filterMap_cons_none hr, if_neg (by simp), add_zero]
      | some q =>
        rw [List.filterMap_cons_some hr, List.count_cons]
        simp only [Option.some_inj, beq_iff_eq]
    rw [hsame] at ihentries ihcnt
    change (clearPages (pagingUnmap g v).2 pages).entriesTo p + _ = _ ∧
      ((clearPages (pagingUnmap g v).2 pages).physmem.refCnt p).toNat = _
    rw [hcount]
    omega

theorem clearPages_hasDescr (q : UInt32) (pages : List UInt32) :
    (clearPages g pages).physmem.hasDescr q = g.physmem.hasDescr q := by
  induction pages generalizing g with
  | nil => rfl
  | cons v pages ih => exact (@ih (pagingUnmap g v).2).trans (pagingUnmap_hasDescr g v q)

theorem pagingUnmapLoop_state (n : Nat) : ∀ (v retval : UInt32) (g : Paging),
    (pagingUnmapLoop n v retval g).2 = clearPages g (pagesFrom n v) := by
  induction n with
  | zero => exact fun _ _ _ => rfl
  | succ n ih => exact fun v retval g => ih _ _ _

/-- The state after a call that clears entries. -/
theorem pagingStep_cleared {op : PagingOp} (hop : ∀ virt physical user, op ≠ .map virt physical user) :
    pagingStep g op = clearPages g op.cleared := by
  cases op with
  | map virt physical user => exact absurd rfl (hop virt physical user)
  | unmap virt =>
    simp only [pagingStep, PagingOp.cleared]
    split_ifs with hv
    · rfl
    · have hmask : ¬ virt &&& 0xfff = 0 := fun hc => hv (beq_iff_eq.mpr hc)
      show (pagingUnmap g virt).2 = g
      rw [pagingUnmap, if_pos hmask]
  | unmapInterval vaddr size =>
    unfold pagingStep PagingOp.cleared pagingUnmapInterval
    by_cases hv : isPageAligned vaddr = true
    swap
    · simp [hv, clearPages]
    by_cases hs : isPageAligned size = true
    swap
    · simp [hv, hs, clearPages]
    simp only [hv, hs, Bool.not_true, Bool.false_eq_true, if_false, and_self, if_true]
    exact pagingUnmapLoop_state _ _ _ _

theorem PagingOp.InTables.cleared {op : PagingOp} (h : op.InTables) :
    op.cleared.Nodup ∧ ∀ v ∈ op.cleared, isPageAligned v = true := by
  cases op with
  | map virt physical user => exact ⟨List.nodup_nil, fun _ hv => (nomatch hv)⟩
  | unmap virt =>
    simp only [PagingOp.cleared]
    split_ifs with hv
    · exact ⟨List.nodup_singleton _, fun w hw => List.mem_singleton.mp hw ▸ hv⟩
    · exact ⟨List.nodup_nil, fun _ hv => (nomatch hv)⟩
  | unmapInterval vaddr size =>
    simp only [PagingOp.cleared]
    split_ifs with hv
    · have h4096 : pageSize.toNat = 4096 := rfl
      have htop : pagingMirror.toNat = 4290772992 := rfl
      have hle : vaddr.toNat + size.toNat ≤ pagingMirror.toNat := h
      have hdiv : (size / pageSize).toNat = size.toNat / 4096 := UInt32.toNat_div ..
      exact ⟨pagesFrom_nodup _ _ hv.1 (by omega), pagesFrom_aligned _ _ hv.1⟩
    · exact ⟨List.nodup_nil, fun _ hv => (nomatch hv)⟩

end

/-! ## Runs -/

/-- `paging.c` on the pages of RAM: the first one has no descriptor. -/
theorem pagingStep_hasDescr (g : Paging) (op : PagingOp) (q : UInt32) :
    (pagingStep g op).physmem.hasDescr q = g.physmem.hasDescr q := by
  cases op with
  | map virt physical user => exact pagingMap_hasDescr _ _ _ _ _
  | unmap virt => exact pagingUnmap_hasDescr _ _ _
  | unmapInterval vaddr size =>
    rw [pagingStep_cleared (by simp)]
    exact clearPages_hasDescr _ _

/-- The calls that clear entries keep the references in step as long as there are references to drop. -/
theorem otherRefs_cleared {g : Paging} {p : UInt32} (hp : g.physmem.hasDescr p = true)
    (hzero : g.physmem.hasDescr 0 = false) {pages : List UInt32} (hnodup : pages.Nodup)
    (haligned : ∀ v ∈ pages, isPageAligned v = true) :
    (clearPages g pages).otherRefs p = g.otherRefs p ↔
      (pages.filterMap g.referred).count p ≤ (g.physmem.refCnt p).toNat := by
  obtain ⟨hentries, hcnt⟩ := clearPages_counts hp hzero pages hnodup haligned
  unfold Paging.otherRefs
  rw [hcnt]
  omega

theorem otherRefs_map {g : Paging} (virt physical : UInt32) (user : Bool) :
    (∀ p, g.physmem.hasDescr p = true → (pagingMap g virt physical user).2.otherRefs p = g.otherRefs p) ↔
      CountsFollow g (.map virt physical user) := by
  by_cases hroom : g.physmem.hasDescr physical → g.physmem.refCnt physical + 1 ≠ 0
  · constructor
    · intro hsame
      refine ⟨?_, hroom⟩
      -- a page that only one of the two entries accounts for would have another count
      have hpage : ∀ p, g.physmem.hasDescr p = true →
          (g.referred virt = some p ↔ unreferenced g.physmem physical = some p) := by
        intro p hp
        have hp' := pagingMap_otherRefs hp virt physical user hroom
        rw [hsame p hp] at hp'
        by_cases hr : g.referred virt = some p
        · by_cases hu : unreferenced g.physmem physical = some p
          · exact iff_of_true hr hu
          · rw [if_pos hr, if_neg hu] at hp'
            omega
        · by_cases hu : unreferenced g.physmem physical = some p
          · rw [if_neg hr, if_pos hu] at hp'
            omega
          · exact iff_of_false hr hu
      cases hr : g.referred virt with
      | some p => exact ((hpage p ((referred_eq_some g virt p).mp hr).1).mp hr).symm
      | none =>
        cases hu : unreferenced g.physmem physical with
        | none => rfl
        | some p =>
          have hp : g.physmem.hasDescr p = true := by
            unfold unreferenced at hu
            split_ifs at hu with hc
            exact Option.some_inj.mp hu ▸ hc.2
          rw [(hpage p hp).mpr hu] at hr
          cases hr
    · rintro ⟨hsame, _⟩ p hp
      rw [pagingMap_otherRefs hp virt physical user hroom, hsame]
      omega
  · refine iff_of_false (fun hsame => ?_) fun h => hroom h.2
    -- the counter of the page falls back to zero
    obtain ⟨hd, hwrap⟩ := Classical.not_imp.mp hroom
    rw [not_not] at hwrap
    have hp := hsame physical hd
    have hentries := pagingMap_entriesTo hd virt physical user
    have hone : (1 : UInt32).toNat = 1 := rfl
    have hlt := word_lt (g.physmem.refCnt physical)
    rw [if_pos (hasDescr_aligned hd)] at hentries
    unfold Paging.otherRefs at hp
    rw [pagingMap_refCnt, if_pos hd, Function.update_self, hwrap, UInt32.toNat_zero] at hp
    rw [word_eq_iff, word_add, hone, UInt32.toNat_zero] at hwrap
    split_ifs at hentries <;> omega

/-- A call leaves the references that no entry accounts for as they are if and only if it meets
`CountsFollow`. -/
theorem otherRefs_step_iff {g : Paging} (hzero : g.physmem.hasDescr 0 = false) {op : PagingOp}
    (hop : op.InTables) :
    (∀ p, g.physmem.hasDescr p = true → (pagingStep g op).otherRefs p = g.otherRefs p) ↔ CountsFollow g op := by
  have hclear : (∀ virt physical user, op ≠ .map virt physical user) →
      ((∀ p, g.physmem.hasDescr p = true → (pagingStep g op).otherRefs p = g.otherRefs p) ↔
        ∀ p, g.physmem.hasDescr p = true →
          (op.cleared.filterMap g.referred).count p ≤ (g.physmem.refCnt p).toNat) := by
    intro hne
    rw [pagingStep_cleared hne]
    exact forall_congr' fun p => imp_congr_right fun hp => otherRefs_cleared hp hzero hop.cleared.1 hop.cleared.2
  have hmanaged : ∀ pages : List UInt32, (∀ p, g.physmem.hasDescr p = true →
      (pages.filterMap g.referred).count p ≤ (g.physmem.refCnt p).toNat) ↔
      ∀ p, (pages.filterMap g.referred).count p ≤ (g.physmem.refCnt p).toNat := by
    refine fun pages => ⟨fun h p => ?_, fun h p _ => h p⟩
    by_cases hp : g.physmem.hasDescr p = true
    · exact h p hp
    · rw [List.count_eq_zero_of_not_mem]
      · exact Nat.zero_le _
      · intro hmem
        obtain ⟨v, _, hv⟩ := List.mem_filterMap.mp hmem
        exact hp ((referred_eq_some g v p).mp hv).1
  cases op with
  | map virt physical user => exact otherRefs_map virt physical user
  | unmap virt => exact (hclear (by simp)).trans (hmanaged _)
  | unmapInterval vaddr size => exact (hclear (by simp)).trans (hmanaged _)

/-- For each managed page, as many references as before have no entry. -/
def SameOtherRefs (g₀ g : Paging) : Prop :=
  ∀ p, g₀.physmem.hasDescr p = true → g.otherRefs p = g₀.otherRefs p

/-- **Reference counts follow mappings**: from any state of a machine whose RAM starts at the second page,
`ref_cnt` minus the number of present entries stays constant for every managed page, in all states of the
run, if and only if every call meets `CountsFollow`. -/
theorem otherRefs_constant_iff (g : Paging) (hbase : g.physmem.physmemBase = pageSize) (ops : List PagingOp)
    (htables : Guarded pagingStep (fun _ op => op.InTables) g ops) :
    Always pagingStep (SameOtherRefs g) g ops ↔ Guarded pagingStep CountsFollow g ops := by
  refine @always_iff_guarded _ _ pagingStep _ CountsFollow
    (fun s => (∀ q, s.physmem.hasDescr q = g.physmem.hasDescr q) ∧ SameOtherRefs g s) _
    (fun s hs => hs.2) ?_ ?_ ops g ⟨fun _ => rfl, fun _ _ => rfl⟩ htables
  · rintro s op ⟨hdescr, hsame⟩ hop hguard
    have hzero : s.physmem.hasDescr 0 = false := (hdescr 0).trans (hasDescr_zero_of_base hbase)
    refine ⟨fun q => (pagingStep_hasDescr s op q).trans (hdescr q), fun p hp => ?_⟩
    rw [(otherRefs_step_iff hzero hop).mpr hguard p (by rw [hdescr, hp])]
    exact hsame p hp
  · rintro s op ⟨hdescr, hsame⟩ hop hguard hafter
    have hzero : s.physmem.hasDescr 0 = false := (hdescr 0).trans (hasDescr_zero_of_base hbase)
    refine hguard ((otherRefs_step_iff hzero hop).mp fun p hp => ?_)
    rw [hdescr] at hp
    rw [hafter p hp, hsame p hp]

/-- A machine with 16 pages of RAM, two of them free, and no entry. -/
def smallPaging : Paging where
  physmem := ⟨0x1000, 0x10000, fun p => if p = 0x5000 ∨ p = 0x6000 then 0 else 1, [0x5000, 0x6000], [], 0⟩
  pte := fun _ => ⟨0, false, false, false⟩

/-- Two pages mapped and cleared, one of them with an interval, and calls that are refused. -/
theorem otherRefs_constant_small :
    Always pagingStep (SameOtherRefs smallPaging) smallPaging
        [.map 0x40000000 0x5000 true, .map 0x40001000 0x6000 true, .unmap 0x40000800,
          .unmap 0x40001000, .unmapInterval 0x40000000 0x3000] ↔
      Guarded pagingStep CountsFollow smallPaging
        [.map 0x40000000 0x5000 true, .map 0x40001000 0x6000 true, .unmap 0x40000800,
          .unmap 0x40001000, .unmapInterval 0x40000000 0x3000] :=
  otherRefs_constant_iff smallPaging rfl _
    ⟨(by decide : (0x40000000 : UInt32) < pagingMirror), (by decide : (0x40001000 : UInt32) < pagingMirror),
      (by decide : (0x40000800 : UInt32) < pagingMirror), (by decide : (0x40001000 : UInt32) < pagingMirror),
      (by decide : (0x40000000 : UInt32).toNat + (0x3000 : UInt32).toNat ≤ pagingMirror.toNat), trivial⟩

/-- A page mapped over another: the one written over keeps its reference. -/
theorem pagingMap_over_present :
    ¬ ∀ (g : Paging) (ops : List PagingOp), g.physmem.physmemBase = pageSize →
      Guarded pagingStep (fun _ op => op.InTables) g ops → Always pagingStep (SameOtherRefs g) g ops := by
  intro h
  obtain ⟨_, _, hafter⟩ := h smallPaging [.map 0x40000000 0x5000 true, .map 0x40000000 0x6000 true] rfl
    ⟨(by decide : (0x40000000 : UInt32) < pagingMirror), (by decide : (0x40000000 : UInt32) < pagingMirror),
      trivial⟩
  have hlast := hafter 0x5000 (by decide)
  have hfirst := @pagingMap_otherRefs smallPaging 0x5000 (by decide) 0x40000000 0x5000 true (by decide)
  have hsecond := @pagingMap_otherRefs (pagingMap smallPaging 0x40000000 0x5000 true).2 0x5000 (by decide)
    0x40000000 0x6000 true (by decide)
  rw [if_neg (by decide), if_neg (by decide)] at hfirst
  rw [if_pos (by decide), if_neg (by decide), hfirst] at hsecond
  have hsame : (pagingMap (pagingMap smallPaging 0x40000000 0x5000 true).2 0x40000000 0x6000 true).2.otherRefs
      0x5000 = smallPaging.otherRefs 0x5000 := hlast
  rw [hsame] at hsecond
  omega

end Desiros.Mem
