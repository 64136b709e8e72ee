import Desiros.Mem.KvmmDelPages
import Desiros.Mem.PagingRuns
import Desiros.Mem.PhysmemRuns
import Mathlib.Data.Set.Insert

/-!
# Pages that are mapped for a while

What the page functions of `kvmm.c` do to the physical pages, against a state of before. `Lends total X g₀ g M`: the
virtual pages in `M` are mapped to physical pages that were free in `g₀`, each referenced once; no other reference count
changed, except maybe those in `X`. Mapping a page that refers to no managed page adds it to `M`, and unmapping a page
takes it out: the physical page is free again.
-/

namespace Desiros.Mem

open Desiros.Library

variable {total : UInt32} {X : UInt32 → Prop} {g₀ g : Paging} {M : Set UInt32} {v p : UInt32}

/-! ## One page -/

theorem not_hasDescr_of_unreferred (hv : isPageAligned v = true) (hzero : g.physmem.hasDescr 0 = false)
    (hnone : g.referred v = none) : g.physmem.hasDescr (pagingVirtualToPhysical g v) = false := by
  rw [← virtualToPhysical_referred hv hzero] at hnone
  by_contra hd
  rw [if_pos (Bool.eq_true_of_not_eq_false hd)] at hnone
  cases hnone

theorem virtualToPhysical_of_referred (hv : isPageAligned v = true) (hzero : g.physmem.hasDescr 0 = false)
    (hsome : g.referred v = some p) : g.physmem.hasDescr p = true ∧ pagingVirtualToPhysical g v = p := by
  rw [← virtualToPhysical_referred hv hzero] at hsome
  by_cases hd : g.physmem.hasDescr (pagingVirtualToPhysical g v) = true
  · rw [if_pos hd] at hsome
    obtain rfl := Option.some.inj hsome
    exact ⟨hd, rfl⟩
  · rw [if_neg hd] at hsome
    cases hsome

/-- Unmapping a page that refers to no managed page changes no reference. -/
theorem pagingUnmap_unreferred (hv : isPageAligned v = true) (hzero : g.physmem.hasDescr 0 = false)
    (hnone : g.referred v = none) : (pagingUnmap g v).2.physmem = g.physmem := by
  rw [pagingUnmap_of_aligned hv]
  show (physmemUnrefPhyspage g.physmem (pagingVirtualToPhysical g v)).2 = g.physmem
  unfold physmemUnrefPhyspage
  rw [not_hasDescr_of_unreferred hv hzero hnone]
  rfl

/-- So does unmapping a page that refers to a free one. -/
theorem pagingUnmap_free (hv : isPageAligned v = true) (h : PhysmemInv total g.physmem)
    (hfree : ∀ q, g.referred v = some q → q ∈ g.physmem.freePpage) : (pagingUnmap g v).2.physmem = g.physmem := by
  cases hr : g.referred v with
  | none => exact pagingUnmap_unreferred hv h.hasDescr_zero hr
  | some q =>
    have hzero : g.physmem.refCnt q ≤ 0 := UInt32.le_of_eq (h.free_refCnt q (hfree q hr))
    obtain ⟨hd, hphys⟩ := virtualToPhysical_of_referred hv h.hasDescr_zero hr
    rw [pagingUnmap_of_aligned hv]
    show (physmemUnrefPhyspage g.physmem (pagingVirtualToPhysical g v)).2 = g.physmem
    unfold physmemUnrefPhyspage
    rw [hphys, hd, Bool.not_true, if_neg Bool.false_ne_true, if_pos hzero]

theorem pagingUnmap_physmem (hv : isPageAligned v = true) (hzero : g.physmem.hasDescr 0 = false)
    (hsome : g.referred v = some p) : (pagingUnmap g v).2.physmem = (physmemUnrefPhyspage g.physmem p).2 := by
  rw [pagingUnmap_of_aligned hv]
  show (physmemUnrefPhyspage g.physmem (pagingVirtualToPhysical g v)).2 = _
  rw [(virtualToPhysical_of_referred hv hzero hsome).2]

theorem pagingUnmap_pte (hv : isPageAligned v = true) : (pagingUnmap g v).2.pte =
    Function.update g.pte v { g.pte v with present := false } := by
  rw [pagingUnmap_of_aligned hv]

theorem pagingUnmap_inv (h : PhysmemInv total g.physmem) (hv : isPageAligned v = true) :
    PhysmemInv total (pagingUnmap g v).2.physmem := by
  rw [pagingUnmap_of_aligned hv]
  exact h.step (.unref _) trivial

theorem referred_congr {g' : Paging} (hv : isPageAligned v = true) (hpte : g'.pte v = g.pte v)
    (hdescr : ∀ q, g'.physmem.hasDescr q = g.physmem.hasDescr q) : g'.referred v = g.referred v := by
  unfold Paging.referred
  rw [(isPageAligned_iff v).mp hv, hpte]
  simp only [hdescr]

theorem referred_of_absent (hv : isPageAligned v = true) (habs : (g.pte v).present = false) : g.referred v = none := by
  unfold Paging.referred
  rw [(isPageAligned_iff v).mp hv, if_neg]
  rw [habs]
  exact fun h => Bool.false_ne_true h.1

theorem hasDescr_of_referred (h : g.referred v = some p) : g.physmem.hasDescr p = true := by
  unfold Paging.referred at h
  dsimp only at h
  by_cases hd : (g.pte (pageAlignInf v)).present = true ∧ g.physmem.hasDescr (g.pte (pageAlignInf v)).frame = true
  · rw [if_pos hd] at h
    exact Option.some.inj h ▸ hd.2
  · rw [if_neg hd] at h
    cases h

namespace KernelPages

variable {w : KernelPages} {vaddr : Nat}

theorem mapPage_nil (hfree : w.paging.physmem.freePpage = []) : w.mapPage vaddr = (false, w) := by
  have hnew : physmemRefPhyspageNew w.paging.physmem = (0, w.paging.physmem) := by
    unfold physmemRefPhyspageNew
    rw [hfree]
  unfold mapPage
  rw [hnew]
  rfl

/-- What a page that refers to no page in use is mapped to: the first free one, which keeps one reference. -/
structure NewlyMapped (total : UInt32) (g : Paging) (v p : UInt32) (g' : Paging) : Prop where
  inv : PhysmemInv total g'.physmem
  free : g.physmem.freePpage = p :: g'.physmem.freePpage
  descr : ∀ q, g'.physmem.hasDescr q = g.physmem.hasDescr q
  refCnt : g'.physmem.refCnt = Function.update g.physmem.refCnt p 1
  pte : ∃ e : Pte, g'.pte = Function.update g.pte v e ∧ e.present = true ∧ e.frame = p

/-- The first free page is taken. -/
theorem physmemRefPhyspageNew_taken {m : Physmem} {rest : List UInt32} (h : PhysmemInv total m)
    (hfree : m.freePpage = p :: rest) :
    p ≠ 0 ∧ m.hasDescr p = true ∧ p ∉ rest ∧ ∃ m', physmemRefPhyspageNew m = (p, m') ∧ PhysmemInv total m' ∧
      m'.freePpage = rest ∧ m'.refCnt = Function.update m.refCnt p 1 ∧ ∀ q, m'.hasDescr q = m.hasDescr q := by
  have hp : m.hasDescr p = true := (h.listed p).mp (by simp [hfree])
  have hne : p ≠ 0 := by
    rintro rfl
    rw [h.hasDescr_zero] at hp
    cases hp
  have hm : PhysmemInv total (physmemRefPhyspageNew m).2 := h.step .refNew trivial
  have heq := physmemRefPhyspageNew_eq h hfree
  rw [heq] at hm
  exact ⟨hne, hp, (List.nodup_cons.mp (hfree ▸ h.free_nodup)).1, _, heq, hm, rfl, rfl, fun _ => rfl⟩

theorem mapPage_eq {m : Physmem} (hnew : physmemRefPhyspageNew w.paging.physmem = (p, m)) (hne : p ≠ 0) :
    w.mapPage vaddr = (true, { w with
      paging := ⟨(physmemUnrefPhyspage (physmemRefPhyspageAt
          (pagingUnmap ⟨m, w.paging.pte⟩ (UInt32.ofNat vaddr)).2.physmem p).2 p).2,
        (pagingMap (pagingUnmap ⟨m, w.paging.pte⟩ (UInt32.ofNat vaddr)).2 (UInt32.ofNat vaddr) p false).2.pte⟩ }) := by
  unfold mapPage
  rw [hnew]
  dsimp only
  rw [if_neg hne]
  rfl

theorem mapPage_cons {rest : List UInt32} (h : PhysmemInv total w.paging.physmem)
    (hfree : w.paging.physmem.freePpage = p :: rest) (hv : isPageAligned (UInt32.ofNat vaddr) = true)
    (hspare : ∀ q, w.paging.referred (UInt32.ofNat vaddr) = some q → q ∈ rest) :
    (w.mapPage vaddr).1 = true ∧ NewlyMapped total w.paging (UInt32.ofNat vaddr) p (w.mapPage vaddr).2.paging := by
  obtain ⟨hne, hp, hprest, m, hnew, hm, hmfree, hcnt, hdescr⟩ := physmemRefPhyspageNew_taken h hfree
  let g : Paging := ⟨m, w.paging.pte⟩
  have hgref : g.referred (UInt32.ofNat vaddr) = w.paging.referred (UInt32.ofNat vaddr) :=
    referred_congr hv rfl hdescr
  have hsame : (pagingUnmap ⟨m, w.paging.pte⟩ (UInt32.ofNat vaddr)).2.physmem = m :=
    pagingUnmap_free hv hm fun q hq => hmfree ▸ hspare q (hgref ▸ hq)
  -- two references while the page is being mapped, then one
  let m₂ := (physmemRefPhyspageAt m p).2
  have hpm : m.hasDescr p = true := (hdescr p).trans hp
  have hone : m.refCnt p = 1 := by rw [hcnt, Function.update_self]
  have hm₂ : PhysmemInv total m₂ := hm.step (.refAt p) (by
    show m.refCnt p ≠ 0xffffffff
    rw [hone]
    decide)
  have hcnt₂ : m₂.refCnt = Function.update m.refCnt p 2 := by
    show (physmemRefPhyspageAt m p).2.refCnt = _
    rw [physmemRefPhyspageAt_refCnt, if_pos hpm, hone]
    rfl
  have hp₂ : m₂.hasDescr p = true := (physmemRefPhyspageAt_hasDescr m p p).trans hpm
  have hcnt₃ : (physmemUnrefPhyspage m₂ p).2.refCnt = Function.update w.paging.physmem.refCnt p 1 := by
    have hpos : (0 : UInt32) < 2 := by decide
    rw [physmemUnrefPhyspage_refCnt, hcnt₂, Function.update_self, if_pos ⟨hp₂, hpos⟩, hcnt, Function.update_idem,
      Function.update_idem]
    rfl
  have hpfree : p ∉ m.freePpage := hmfree ▸ hprest
  have hfree₃ : (physmemUnrefPhyspage m₂ p).2.freePpage = rest := by
    have hnot : ¬ (m₂.hasDescr p = true ∧ m₂.refCnt p = 1) := by
      rw [hcnt₂, Function.update_self]
      exact fun hc => absurd hc.2 (by decide)
    rw [physmemUnrefPhyspage_freePpage, if_neg hnot]
    exact (physmemRefPhyspageAt_freePpage hpfree).trans hmfree
  rw [mapPage_eq hnew hne, hsame]
  refine ⟨rfl, hm₂.step (.unref p) trivial, hfree.trans (congrArg (List.cons p) hfree₃.symm), fun q => ?_, hcnt₃,
    ⟨p, true, true, false || p &&& 4 != 0⟩, ?_, rfl, hasDescr_aligned hp⟩
  · show (physmemUnrefPhyspage m₂ p).2.hasDescr q = _
    rw [physmemUnrefPhyspage_hasDescr]
    exact (physmemRefPhyspageAt_hasDescr m p q).trans (hdescr q)
  · show Function.update (pagingUnmap g (UInt32.ofNat vaddr)).2.pte (pageAlignInf (UInt32.ofNat vaddr)) _ = _
    rw [(isPageAligned_iff _).mp hv, pagingUnmap_pte hv, Function.update_idem]

/-- A page that refers to a physical page with one reference: that one is dropped, and the physical page is free. -/
theorem mapPage_frees {rest : List UInt32} {q : UInt32} (h : PhysmemInv total w.paging.physmem)
    (hfree : w.paging.physmem.freePpage = p :: rest) (hv : isPageAligned (UInt32.ofNat vaddr) = true)
    (href : w.paging.referred (UInt32.ofNat vaddr) = some q) (hone : w.paging.physmem.refCnt q = 1) :
    (w.mapPage vaddr).1 = true ∧ q ∈ (w.mapPage vaddr).2.paging.physmem.freePpage := by
  obtain ⟨hne, hp, hprest, m, hnew, hm, hmfree, hcnt, hdescr⟩ := physmemRefPhyspageNew_taken h hfree
  let g : Paging := ⟨m, w.paging.pte⟩
  have hqp : q ≠ p := by
    rintro rfl
    rw [h.free_refCnt q (hfree ▸ List.mem_cons_self)] at hone
    cases hone
  have hsame : g.referred (UInt32.ofNat vaddr) = w.paging.referred (UInt32.ofNat vaddr) :=
    referred_congr hv rfl hdescr
  have hgref : g.referred (UInt32.ofNat vaddr) = some q := hsame.trans href
  have hunmap : (pagingUnmap ⟨m, w.paging.pte⟩ (UInt32.ofNat vaddr)).2.physmem = (physmemUnrefPhyspage m q).2 :=
    pagingUnmap_physmem hv hm.hasDescr_zero hgref
  let m₁ := (physmemUnrefPhyspage m q).2
  have hqm : m.hasDescr q = true := ((referred_eq_some _ _ _).mp hgref).1
  have hqone : m.refCnt q = 1 := by rw [hcnt, Function.update_of_ne hqp, hone]
  have hfree₁ : m₁.freePpage = q :: rest := by
    show (physmemUnrefPhyspage m q).2.freePpage = _
    rw [physmemUnrefPhyspage_freePpage, if_pos ⟨hqm, hqone⟩, hmfree]
  have hpone : m₁.refCnt p = 1 := by
    have hpos : 0 < m.refCnt q := by
      rw [hqone]
      decide
    show (physmemUnrefPhyspage m q).2.refCnt p = 1
    rw [physmemUnrefPhyspage_refCnt, if_pos ⟨hqm, hpos⟩, Function.update_of_ne hqp.symm, hcnt, Function.update_self]
  have hp₁ : m₁.hasDescr p = true := (physmemUnrefPhyspage_hasDescr m q p).trans ((hdescr p).trans hp)
  -- the page that is mapped has two references then, and stays in use
  let m₂ := (physmemRefPhyspageAt m₁ p).2
  have hpfree : p ∉ m₁.freePpage := by
    rw [hfree₁, List.mem_cons]
    rintro (rfl | hin)
    · exact hqp rfl
    · exact hprest hin
  have hptwo : m₂.refCnt p = 2 := by
    show (physmemRefPhyspageAt m₁ p).2.refCnt p = 2
    rw [physmemRefPhyspageAt_refCnt, if_pos hp₁, Function.update_self, hpone]
    rfl
  have hnot : ¬ (m₂.hasDescr p = true ∧ m₂.refCnt p = 1) := by
    rw [hptwo]
    exact fun hc => absurd hc.2 (by decide)
  rw [mapPage_eq hnew hne, hunmap]
  refine ⟨rfl, ?_⟩
  show q ∈ (physmemUnrefPhyspage m₂ p).2.freePpage
  rw [physmemUnrefPhyspage_freePpage, if_neg hnot, physmemRefPhyspageAt_freePpage hpfree, hfree₁]
  exact List.mem_cons_self

end KernelPages

theorem KernelPages.NewlyMapped.referred_of_ne {g' : Paging} {u : UInt32} (h : KernelPages.NewlyMapped total g v p g')
    (hu : isPageAligned u = true) (hne : u ≠ v) : g'.referred u = g.referred u := by
  obtain ⟨e, hpte, -⟩ := h.pte
  apply referred_congr hu _ h.descr
  rw [hpte, Function.update_of_ne hne]

/-! ## Against the state of before -/

structure Lends (total : UInt32) (X : UInt32 → Prop) (g₀ g : Paging) (M : Set UInt32) : Prop where
  inv : PhysmemInv total g.physmem
  descr : ∀ q, g.physmem.hasDescr q = g₀.physmem.hasDescr q
  mapped : ∀ v ∈ M, isPageAligned v = true ∧ ∃ p, g.referred v = some p ∧
    (¬ X p → g.physmem.refCnt p = 1 ∧ g₀.physmem.refCnt p = 0)
  once : ∀ v ∈ M, ∀ v' ∈ M, ∀ p, ¬ X p → g.referred v = some p → g.referred v' = some p → v = v'
  refCnt : ∀ p, ¬ X p → (∀ v ∈ M, g.referred v ≠ some p) → g.physmem.refCnt p = g₀.physmem.refCnt p
  pte : ∀ v, isPageAligned v = true → v ∉ M → g.pte v = g₀.pte v ∨ (g.pte v).present = false

theorem Lends.refl (h : PhysmemInv total g.physmem) : Lends total X g g ∅ :=
  ⟨h, fun _ => rfl, fun _ hv => hv.elim, fun _ hv => hv.elim, fun _ _ _ => rfl, fun _ _ _ => .inl rfl⟩

theorem Lends.mono {X' : UInt32 → Prop} (h : Lends total X g₀ g M) (hX : ∀ p, X p → X' p) : Lends total X' g₀ g M := by
  refine ⟨h.inv, h.descr, fun v hv => ?_, fun v hv v' hv' p hp => h.once v hv v' hv' p fun hx => hp (hX p hx),
    fun p hp => h.refCnt p fun hx => hp (hX p hx), h.pte⟩
  obtain ⟨halign, p, hp, hcnt⟩ := h.mapped v hv
  exact ⟨halign, p, hp, fun hx => hcnt fun hxp => hx (hX p hxp)⟩

/-- A page that is not lent refers to what it did before, or to nothing. -/
theorem Lends.referred (h : Lends total X g₀ g M) (hv : isPageAligned v = true) (hM : v ∉ M) :
    g.referred v = g₀.referred v ∨ g.referred v = none :=
  (h.pte v hv hM).imp (fun he => referred_congr hv he h.descr) (referred_of_absent hv)

/-- A free page gets lent. -/
theorem Lends.map {g' : Paging} (h : Lends total X g₀ g M) (hv : isPageAligned v = true) (hM : v ∉ M)
    (hfree : p ∈ g.physmem.freePpage) (hmaps : KernelPages.NewlyMapped total g v p g') :
    Lends total X g₀ g' (insert v M) := by
  obtain ⟨e, hpte, hpres, hframe⟩ := hmaps.pte
  have hp : g.physmem.hasDescr p = true := (h.inv.listed p).mp (List.mem_append_left _ hfree)
  have hzero : g.physmem.refCnt p = 0 := h.inv.free_refCnt p hfree
  have hself : g'.referred v = some p := by
    unfold Paging.referred
    rw [(isPageAligned_iff v).mp hv, hpte, Function.update_self]
    dsimp only
    rw [hframe, hmaps.descr, if_pos ⟨hpres, hp⟩]
  have hother : ∀ u, isPageAligned u = true → u ≠ v → g'.referred u = g.referred u :=
    fun u hu hne => hmaps.referred_of_ne hu hne
  have hne : ∀ u ∈ M, u ≠ v := by
    rintro u hu rfl
    exact hM hu
  -- no lent page refers to a free one, unless it is one of `X`
  have hfresh : ¬ X p → ∀ u ∈ M, g.referred u ≠ some p := by
    intro hx u hu he
    obtain ⟨-, q, hq, hcnt⟩ := h.mapped u hu
    obtain rfl := Option.some.inj (hq.symm.trans he)
    rw [(hcnt hx).1] at hzero
    cases hzero
  have hcnt : ∀ q, q ≠ p → g'.physmem.refCnt q = g.physmem.refCnt q := by
    intro q hq
    rw [hmaps.refCnt, Function.update_of_ne hq]
  refine ⟨hmaps.inv, fun q => (hmaps.descr q).trans (h.descr q), fun u hu => ?_, fun u hu u' hu' q hq hr hr' => ?_,
    fun q hq hall => ?_, fun u hu hM => ?_⟩
  · rcases Set.mem_insert_iff.mp hu with rfl | hin
    · refine ⟨hv, p, hself, fun hx => ⟨?_, ?_⟩⟩
      · rw [hmaps.refCnt, Function.update_self]
      · rw [← h.refCnt p hx (hfresh hx), hzero]
    · obtain ⟨halign, q, hr, hlent⟩ := h.mapped u hin
      refine ⟨halign, q, (hother u halign (hne u hin)).trans hr, fun hx => ?_⟩
      have hqp : q ≠ p := by
        rintro rfl
        exact hfresh hx u hin hr
      rw [hcnt q hqp]
      exact hlent hx
  · have hcross : ∀ u' ∈ M, g'.referred u' = some q → q ≠ p := by
      rintro u' hin hr' rfl
      rw [hother u' (h.mapped u' hin).1 (hne u' hin)] at hr'
      exact hfresh hq u' hin hr'
    rcases Set.mem_insert_iff.mp hu with rfl | hin
    · rcases Set.mem_insert_iff.mp hu' with rfl | hin'
      · rfl
      · exact absurd (Option.some.inj (hself.symm.trans hr)).symm (hcross u' hin' hr')
    · rcases Set.mem_insert_iff.mp hu' with rfl | hin'
      · exact absurd (Option.some.inj (hself.symm.trans hr')).symm (hcross u hin hr)
      · rw [hother u (h.mapped u hin).1 (hne u hin)] at hr
        rw [hother u' (h.mapped u' hin').1 (hne u' hin')] at hr'
        exact h.once u hin u' hin' q hq hr hr'
  · have hqp : q ≠ p := by
      rintro rfl
      exact hall v (Set.mem_insert v M) hself
    rw [hcnt q hqp]
    apply h.refCnt q hq
    intro u hin hr
    apply hall u (Set.mem_insert_of_mem v hin)
    rw [hother u (h.mapped u hin).1 (hne u hin), hr]
  · rw [Set.mem_insert_iff, not_or] at hM
    rw [hpte, Function.update_of_ne hM.1]
    exact h.pte u hu hM.2

/-- A lent page goes back; a page that is not lent may refer to a physical page in `X` only. -/
theorem Lends.unmap (h : Lends total X g₀ g M) (hv : isPageAligned v = true)
    (hdrop : v ∈ M ∨ ∀ p, g.referred v = some p → X p) : Lends total X g₀ (pagingUnmap g v).2 (M \ {v}) := by
  have hzero := h.inv.hasDescr_zero
  have hother : ∀ u, isPageAligned u = true → u ≠ v → (pagingUnmap g v).2.referred u = g.referred u :=
    fun u hu hne => pagingUnmap_referred hv hu hne
  have hdescr : ∀ q, (pagingUnmap g v).2.physmem.hasDescr q = g.physmem.hasDescr q := pagingUnmap_hasDescr g v
  have hcnt : ∀ q, g.referred v ≠ some q → (pagingUnmap g v).2.physmem.refCnt q = g.physmem.refCnt q := by
    intro q hq
    cases hr : g.referred v with
    | none => rw [pagingUnmap_unreferred hv hzero hr]
    | some p =>
      have hne : q ≠ p := fun he => hq (he ▸ hr)
      rw [pagingUnmap_physmem hv hzero hr, physmemUnrefPhyspage_refCnt]
      split
      · rw [Function.update_of_ne hne]
      · rfl
  refine ⟨pagingUnmap_inv h.inv hv, fun q => (hdescr q).trans (h.descr q), fun u hu => ?_, fun u hu u' hu' q hq hr hr' => ?_,
    fun q hq hall => ?_, fun u hu hM => ?_⟩
  · obtain ⟨halign, q, hr, hlent⟩ := h.mapped u hu.1
    refine ⟨halign, q, (hother u halign hu.2).trans hr, fun hx => ?_⟩
    have hne : g.referred v ≠ some q := by
      intro hrv
      rcases hdrop with hin | hX
      · exact hu.2 (h.once u hu.1 v hin q hx hr hrv)
      · exact hx (hX q hrv)
    rw [hcnt q hne]
    exact hlent hx
  · rw [hother u (h.mapped u hu.1).1 hu.2] at hr
    rw [hother u' (h.mapped u' hu'.1).1 hu'.2] at hr'
    exact h.once u hu.1 u' hu'.1 q hq hr hr'
  · have hrest : ∀ u ∈ M, u ≠ v → g.referred u ≠ some q := by
      intro u hin hne hr
      apply hall u ⟨hin, hne⟩
      rw [hother u (h.mapped u hin).1 hne, hr]
    by_cases hrv : g.referred v = some q
    · rcases hdrop with hin | hX
      · -- the last reference of the lent page
        obtain ⟨-, p, hp, hlent⟩ := h.mapped v hin
        obtain rfl := Option.some.inj (hp.symm.trans hrv)
        obtain ⟨hone, hbefore⟩ := hlent hq
        have hpos : (0 : UInt32) < 1 := by decide
        rw [pagingUnmap_physmem hv hzero hrv, physmemUnrefPhyspage_refCnt, hone,
          if_pos ⟨hasDescr_of_referred hrv, hpos⟩, Function.update_self, hbefore]
        rfl
      · exact absurd (hX q hrv) hq
    · rw [hcnt q hrv]
      apply h.refCnt q hq
      intro u hin hr
      by_cases hne : u = v
      · exact hrv (hne ▸ hr)
      · exact hrest u hin hne hr
  · rw [pagingUnmap_pte hv]
    by_cases hne : u = v
    · right
      rw [hne, Function.update_self]
    · rw [Function.update_of_ne hne]
      exact h.pte u hu fun hin => hM ⟨hin, hne⟩

/-! ## The pages of a range -/

theorem isPageAligned_ofNat {a : Nat} (h : nbBytesPerPage ∣ a) : isPageAligned (UInt32.ofNat a) = true :=
  (isAligned_iff _).mpr (toNat_ofNat_page h)

/-- The pages may be mapped one after the other, to those of `free`: what a page refers to is free, and later in the
list than what it is mapped to. -/
def Paging.Spares (g : Paging) : List UInt32 → List Nat → Prop
  | _, [] => True
  | free, a :: pages => (∀ p ∈ g.referred (UInt32.ofNat a), p ∈ free.tail) ∧ g.Spares free.tail pages

-- the first test is of the one page referred to; all words could be gone through too
instance Paging.decidableSpares (g : Paging) : ∀ free pages, Decidable (g.Spares free pages)
  | _, [] => instDecidableTrue
  | free, a :: pages => @instDecidableAnd _ _ (Option.decidableForallMem (g.referred (UInt32.ofNat a)))
      (decidableSpares g free.tail pages)

theorem Paging.Spares.congr {g' : Paging} {pages : List Nat} : ∀ {free : List UInt32},
    (∀ a ∈ pages, g'.referred (UInt32.ofNat a) = g.referred (UInt32.ofNat a)) → g.Spares free pages →
    g'.Spares free pages := by
  induction pages with
  | nil => exact fun _ _ => trivial
  | cons a pages ih =>
    intro free hsame h
    refine ⟨fun p hp => h.1 p ((hsame a List.mem_cons_self).symm.trans hp), ih (fun b hb => ?_) h.2⟩
    exact hsame b (List.mem_cons_of_mem _ hb)

theorem Paging.spares_of_none {pages : List Nat} : ∀ {free : List UInt32},
    (∀ a ∈ pages, g.referred (UInt32.ofNat a) = none) → g.Spares free pages := by
  induction pages with
  | nil => exact fun _ => trivial
  | cons a pages ih =>
    intro free hnone
    obtain ⟨ha, hpages⟩ := List.forall_mem_cons.mp hnone
    refine ⟨fun p hp => ?_, ih hpages⟩
    rw [ha] at hp
    cases hp

/-- Where there is no free page, the pages refer to none. -/
theorem Paging.Spares.none {pages : List Nat} (h : g.Spares [] pages) :
    ∀ a ∈ pages, g.referred (UInt32.ofNat a) = none := by
  induction pages with
  | nil => exact fun a ha => absurd ha List.not_mem_nil
  | cons a pages ih =>
    refine List.forall_mem_cons.mpr ⟨?_, ih h.2⟩
    cases hr : g.referred (UInt32.ofNat a) with
    | none => rfl
    | some p => exact absurd (h.1 p hr) List.not_mem_nil

theorem Paging.Spares.mem {pages : List Nat} : ∀ {free : List UInt32}, g.Spares free pages →
    ∀ a ∈ pages, ∀ p, g.referred (UInt32.ofNat a) = some p → p ∈ free := by
  induction pages with
  | nil => exact fun _ a ha => absurd ha List.not_mem_nil
  | cons a pages ih =>
    intro free h
    refine List.forall_mem_cons.mpr ⟨fun p hp => List.mem_of_mem_tail (h.1 p hp), fun b hb p hp => ?_⟩
    exact List.mem_of_mem_tail (ih h.2 b hb p hp)

/-- A page that is lent is none of them. -/
theorem Lends.not_mem_of_spares {pages : List Nat} (h : Lends total (fun _ => False) g₀ g M)
    (hspares : g.Spares g.physmem.freePpage pages) : ∀ a ∈ pages, UInt32.ofNat a ∉ M := by
  intro a ha hM
  obtain ⟨-, p, hp, hlent⟩ := h.mapped _ hM
  have hzero := h.inv.free_refCnt p (hspares.mem a ha p hp)
  rw [(hlent id).1] at hzero
  cases hzero

/-- What is left of a list of pages that are mapped until memory runs out. -/
structure LendsPages (total : UInt32) (g₀ : Paging) (w : KernelPages) (M : Set UInt32) (pages : List Nat) (ok : Bool)
    (w' : KernelPages) (M' : Set UInt32) : Prop where
  lends : Lends total (fun _ => False) g₀ w'.paging M'
  keeps : M ⊆ M'
  only : ∀ v ∈ M', v ∈ M ∨ ∃ a ∈ pages, v = UInt32.ofNat a
  others : ∀ v, isPageAligned v = true → (∀ a ∈ pages, v ≠ UInt32.ofNat a) → w'.paging.referred v = w.paging.referred v
  all : ok = true → (∀ a ∈ pages, UInt32.ofNat a ∈ M') ∧
    w'.paging.physmem.freePpage = w.paging.physmem.freePpage.drop pages.length
  some : ∀ a ∈ pages, UInt32.ofNat a ∈ M' ∨ w'.paging.referred (UInt32.ofNat a) = none

/-- The pages of a range that is mapped until memory runs out. -/
theorem Lends.mapPages {base : Nat} (hbase : nbBytesPerPage ∣ base) (range : Nat) : ∀ (n i : Nat) (w : KernelPages)
    (M : Set UInt32), Lends total (fun _ => False) g₀ w.paging M → base + (i + n) * nbBytesPerPage ≤ 4294967296 →
    w.paging.Spares w.paging.physmem.freePpage ((List.range' i n).map fun j => base + j * nbBytesPerPage) →
    ∃ M' : Set UInt32, LendsPages total g₀ w M ((List.range' i n).map fun j => base + j * nbBytesPerPage)
      (Kvmm.mapPages kernelPageMap range base i n w).1 (Kvmm.mapPages kernelPageMap range base i n w).2 M' := by
  intro n
  induction n with
  | zero =>
    intro i w M h _ _
    exact ⟨M, h, subset_rfl, fun v hv => .inl hv, fun _ _ _ => rfl,
      fun _ => ⟨fun a ha => absurd ha List.not_mem_nil, rfl⟩, fun a ha => absurd ha List.not_mem_nil⟩
  | succ n ih =>
    intro i w M h htop hspares
    have halign : ∀ j, isPageAligned (UInt32.ofNat (base + j * nbBytesPerPage)) = true :=
      fun j => isPageAligned_ofNat (Nat.dvd_add hbase (Nat.dvd_mul_left _ _))
    have hM := h.not_mem_of_spares hspares
    rw [List.range'_succ, List.map_cons] at hspares hM ⊢
    unfold Kvmm.mapPages
    have hE : kernelPageMap.mapPage w (base + i * nbBytesPerPage) = w.mapPage (base + i * nbBytesPerPage) := rfl
    rw [hE]
    cases hfree : w.paging.physmem.freePpage with
    | nil =>
      rw [hfree] at hspares
      rw [KernelPages.mapPage_nil hfree]
      exact ⟨M, h, subset_rfl, fun v hv => .inl hv, fun _ _ _ => rfl, fun hok => absurd hok Bool.false_ne_true,
        fun a ha => .inr (hspares.none a ha)⟩
    | cons p rest =>
      rw [hfree] at hspares
      obtain ⟨htrue, hmaps⟩ := KernelPages.mapPage_cons h.inv hfree (halign i) hspares.1
      generalize KernelPages.mapPage w (base + i * nbBytesPerPage) = res at htrue hmaps ⊢
      obtain ⟨ok, w'⟩ := res
      obtain rfl : ok = true := htrue
      have hpaging : (kernelPageMap.setKvmmRange w' (base + i * nbBytesPerPage) range).paging = w'.paging :=
        w'.physmemSetKvmmRange_paging _ range
      have hrest : w'.paging.physmem.freePpage = rest := (List.cons.inj (hfree.symm.trans hmaps.free)).2.symm
      have hlent := h.map (halign i) (hM _ List.mem_cons_self) (hfree ▸ List.mem_cons_self) hmaps
      have hother : ∀ a ∈ (List.range' (i + 1) n).map fun j => base + j * nbBytesPerPage,
          w'.paging.referred (UInt32.ofNat a) = w.paging.referred (UInt32.ofNat a) := by
        intro a ha
        obtain ⟨j, hj, rfl⟩ := List.mem_map.mp ha
        obtain ⟨hij, hj⟩ := List.mem_range'_1.mp hj
        apply hmaps.referred_of_ne (halign j)
        have hpage : nbBytesPerPage = 4096 := rfl
        rw [ne_eq, word_eq_iff, UInt32.toNat_ofNat', UInt32.toNat_ofNat']
        rw [hpage] at htop ⊢
        omega
      obtain ⟨M', hM'⟩ := ih (i + 1) (kernelPageMap.setKvmmRange w' (base + i * nbBytesPerPage) range) _
        (hpaging ▸ hlent) (by rwa [Nat.add_assoc, Nat.add_comm 1 n]) (by
          rw [hpaging, hrest]
          exact hspares.2.congr hother)
      have hfirst : UInt32.ofNat (base + i * nbBytesPerPage) ∈ M' := hM'.keeps (Set.mem_insert _ _)
      refine ⟨M', hM'.lends, (Set.subset_insert _ _).trans hM'.keeps, fun v hv => ?_, fun v hv hne => ?_, fun hok => ?_,
        List.forall_mem_cons.mpr ⟨.inl hfirst, hM'.some⟩⟩
      · rcases hM'.only v hv with hin | ⟨a, ha, rfl⟩
        · rcases Set.mem_insert_iff.mp hin with rfl | hin
          · exact .inr ⟨_, List.mem_cons_self, rfl⟩
          · exact .inl hin
        · exact .inr ⟨a, List.mem_cons_of_mem _ ha, rfl⟩
      · obtain ⟨hne, hnes⟩ := List.forall_mem_cons.mp hne
        rw [hM'.others v hv hnes, hpaging]
        exact hmaps.referred_of_ne hv hne
      · obtain ⟨hall, hdrop⟩ := hM'.all hok
        refine ⟨List.forall_mem_cons.mpr ⟨hfirst, hall⟩, hdrop.trans ?_⟩
        rw [hpaging, hrest, hfree, List.length_cons, List.drop_succ_cons]

/-- Pages that are lent, or refer to nothing that counts, are unmapped in any order. -/
theorem Lends.unmaps : ∀ (pages : List Nat) (w : KernelPages) (M : Set UInt32), Lends total X g₀ w.paging M →
    (∀ a ∈ pages, nbBytesPerPage ∣ a) →
    (∀ a ∈ pages, UInt32.ofNat a ∈ M ∨ ∀ p, w.paging.referred (UInt32.ofNat a) = some p → X p) →
    Lends total X g₀ (pages.foldl KernelPages.unmap w).paging (M \ {v | ∃ a ∈ pages, v = UInt32.ofNat a}) := by
  intro pages
  induction pages with
  | nil =>
    intro w M h _ _
    rwa [show {v | ∃ a ∈ ([] : List Nat), v = UInt32.ofNat a} = (∅ : Set UInt32) by ext v; simp, Set.sdiff_empty]
  | cons a pages ih =>
    intro w M h halign hdrop
    have ha := isPageAligned_ofNat (halign a List.mem_cons_self)
    have hlent : Lends total X g₀ (w.unmap a).paging (M \ {UInt32.ofNat a}) := h.unmap ha (hdrop a List.mem_cons_self)
    have hrest := ih (w.unmap a) _ hlent (fun b hb => halign b (List.mem_cons_of_mem _ hb)) (fun b hb => by
      have hb' := isPageAligned_ofNat (halign b (List.mem_cons_of_mem _ hb))
      by_cases hne : UInt32.ofNat b = UInt32.ofNat a
      · right
        intro p hp
        have habs : ((w.unmap a).paging.pte (UInt32.ofNat a)).present = false := by
          show ((pagingUnmap w.paging (UInt32.ofNat a)).2.pte (UInt32.ofNat a)).present = false
          rw [pagingUnmap_pte ha, Function.update_self]
        rw [hne, referred_of_absent ha habs] at hp
        cases hp
      · rcases hdrop b (List.mem_cons_of_mem _ hb) with hin | hX
        · exact .inl ⟨hin, hne⟩
        · right
          intro p hp
          have hsame : (w.unmap a).paging.referred (UInt32.ofNat b) = w.paging.referred (UInt32.ofNat b) :=
            pagingUnmap_referred ha hb' hne
          exact hX p (hsame ▸ hp))
    have hset : {v | ∃ b ∈ a :: pages, v = UInt32.ofNat b} = {UInt32.ofNat a} ∪ {v | ∃ b ∈ pages, v = UInt32.ofNat b} := by
      ext v
      simp
    rw [hset, ← Set.sdiff_sdiff]
    exact hrest

end Desiros.Mem
