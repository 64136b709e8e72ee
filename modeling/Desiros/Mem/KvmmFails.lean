import Desiros.Mem.KvmmAttempt
import Desiros.Mem.KvmmLookup

/-!
# `kvmm_new_range` without memory

Where `kvmm_new_range` cannot map all the pages of a range, or the page of a slab for its structure, it returns `NULL`
and undoes what it did (`FailsCleanly`): the pages it mapped are unmapped and their physical pages free again. This
needs that the pages it takes referred to no managed page before (`paging_unmap` drops a reference to what it finds),
and the undo itself may release slabs of range structures.
-/

namespace Desiros.Mem

open Desiros.Library KslabCache Kvmm

variable {s s' t : Kvmm KernelPages} {held : List Nat} {gone : List KvmmRange} {r x : KvmmRange} {e : Slack}
  {a n : Nat} {total : UInt32} {M : Set UInt32} {taken : List Nat} {p : UInt32}

/-! ## Free pages and pages of slabs -/

/-- The address is in a slab of range structures, whose range the slab records. -/
def SlabAt (s : Kvmm KernelPages) (a : Nat) : Prop :=
  ∃ slab ∈ s.rangeCache.slabList, slab.range ≠ none ∧ s.rangeCache.Covers slab a

/-- What is in neither belongs to another used range. -/
theorem KvmmInvWith.freeAt_or_slabAt (h : KvmmInvWith e s held []) (a : Nat) :
    FreeAt s a ∨ SlabAt s a ↔ s.Covered [] a ∧ ∀ x, OfCaller s x → ¬ x.Covers a := by
  have hpage : ∀ slab ∈ s.rangeCache.slabList, ∀ r : KvmmRange, r.base = slab.firstObj → r.nbPages = 1 →
      (s.rangeCache.Covers slab a ↔ r.Covers a) := by
    intro slab hs r hbase hpages
    unfold KvmmRange.Covers KvmmRange.top KslabCache.Covers
    rw [h.slabBytes, hpages, Nat.one_mul, hbase]
  constructor
  · rintro (hfree | ⟨slab, hs, hrange, hcov⟩)
    · obtain ⟨hcov, hnone⟩ := (h.freeAt_iff a).mp hfree
      exact ⟨hcov, fun x hx => hnone x hx.1⟩
    · obtain ⟨r, hr, hbase, hpages, -, hor⟩ := h.slab slab hs
      have hrcov := (hpage slab hs r hbase hpages).mp hcov
      refine ⟨⟨r, mem_all.mpr (.inr (.inl hr)), hrcov⟩, fun x hx => ?_⟩
      have hne : r ≠ x := fun he => hx.2 slab hs (he ▸ hor.resolve_left hrange)
      exact (h.apart_of_ne (mem_all.mpr (.inr (.inl hr))) (mem_all.mpr (.inr (.inl hx.1)))
        (h.not_fixed_of_base hs hbase) hne).not_covers hrcov
  · rintro ⟨hcov, hnone⟩
    by_cases hfree : ∀ x ∈ s.usedList, ¬ x.Covers a
    · exact .inl ((h.freeAt_iff a).mpr ⟨hcov, hfree⟩)
    · push Not at hfree
      obtain ⟨x, hx, hxcov⟩ := hfree
      have hslab : ¬ ∀ slab ∈ s.rangeCache.slabList, slab.range ≠ some x.addr := fun hall => hnone x ⟨hx, hall⟩ hxcov
      push Not at hslab
      obtain ⟨slab, hs, hrange⟩ := hslab
      obtain ⟨r, hr, hbase, hpages, -, hor⟩ := h.slab slab hs
      have hsome : slab.range ≠ none := by
        rw [hrange]
        exact Option.some_ne_none _
      obtain rfl : r = x :=
        h.used_nodup.eq_of_addr hr hx (Option.some.inj ((hor.resolve_left hsome).symm.trans hrange))
      exact .inr ⟨slab, hs, hsome, (hpage slab hs r hbase hpages).mpr hxcov⟩

/-- A physical page of a slab that the call added or released: of a page that is free in one state only. -/
def SlabFrame (s s' : Kvmm KernelPages) (p : UInt32) : Prop :=
  ∃ a, nbBytesPerPage ∣ a ∧
    (FreeAt s a ∧ ¬ FreeAt s' a ∧ s'.world.paging.referred (UInt32.ofNat a) = some p ∨
      FreeAt s' a ∧ ¬ FreeAt s a ∧ s.world.paging.referred (UInt32.ofNat a) = some p)

/-- A call that fails leaves the free pages, but for slabs of range structures, and the references as they were. -/
structure FailsCleanly (s s' : Kvmm KernelPages) : Prop where
  free : ∀ a, FreeAt s' a ∨ SlabAt s' a ↔ FreeAt s a ∨ SlabAt s a
  unmapped : ∀ a, nbBytesPerPage ∣ a → FreeAt s' a →
    s'.world.Absent a ∨ s'.world.paging.pte (UInt32.ofNat a) = s.world.paging.pte (UInt32.ofNat a)
  refCnt : ∀ p, ¬ SlabFrame s s' p → s'.world.paging.physmem.refCnt p = s.world.paging.physmem.refCnt p
  freePpage : ∀ p, ¬ SlabFrame s s' p →
    (p ∈ s'.world.paging.physmem.freePpage ↔ p ∈ s.world.paging.physmem.freePpage)

theorem FailsCleanly.refl (s : Kvmm KernelPages) : FailsCleanly s s :=
  ⟨fun _ => Iff.rfl, fun _ _ _ => .inr rfl, fun _ _ => rfl, fun _ _ => Iff.rfl⟩

/-! ## There and back -/

/-- A page of a used range is not free. -/
theorem KvmmInvWith.not_freeAt (h : KvmmInvWith e s held []) (hx : x ∈ s.usedList) (hcov : x.Covers a) :
    ¬ FreeAt s a := fun hfree => ((h.freeAt_iff a).mp hfree).2 x hx hcov

theorem covers_of_mem_pagesAt (ha : a ∈ pagesAt x.base x.nbPages) : x.Covers a := by
  obtain ⟨i, hi, rfl⟩ := mem_pagesAt.mp ha
  have hle : (i + 1) * nbBytesPerPage ≤ x.nbPages * nbBytesPerPage := Nat.mul_le_mul_right _ hi
  have hpage : nbBytesPerPage = 4096 := rfl
  unfold KvmmRange.Covers KvmmRange.top
  rw [hpage] at hle ⊢
  omega

section

variable (h : KernelRanges e total s) (ht : Attempt e total s.world.paging ∅ s taken t gone M)

include h ht

/-- The pages of a range the call made used were free. -/
theorem Attempt.freeAt (hx : x ∈ t.usedList) (hnew : x ∉ s.usedList) (hcov : x.Covers a) : FreeAt s a := by
  obtain ⟨held, hinv⟩ := ht.inv
  refine (h.inv.inv.freeAt_iff a).mpr ⟨(ht.covered a).mp ⟨x, mem_all.mpr (.inr (.inl hx)), hcov⟩, fun y hy => ?_⟩
  have hne : x ≠ y := fun he => hnew (he ▸ hy)
  have hf : ¬ e.fixed x := fun hfix => hnew (h.inv.inv.fixed_used x hfix)
  exact (hinv.apart_of_ne (mem_all.mpr (.inr (.inl hx))) (mem_all.mpr (.inr (.inl (ht.used y hy)))) hf hne).not_covers hcov

omit h in
/-- The pages the call gives back are free. -/
theorem Attempt.freeAt_undone (hundo : Undoes t gone s') (hinv' : DelInvWith e s' [] []) (hx : x ∈ t.usedList)
    (hlost : x ∉ s'.usedList) (hcov : x.Covers a) : FreeAt s' a := by
  obtain ⟨held, hinv⟩ := ht.inv
  refine (hinv'.inv.freeAt_iff a).mpr ⟨(hundo.covered a).mpr ⟨x, mem_all.mpr (.inr (.inl hx)), hcov⟩, fun y hy => ?_⟩
  have hne : x ≠ y := fun he => hlost (he ▸ hy)
  have hf : ¬ e.fixed x := fun hfix => hlost (hinv'.inv.fixed_used x hfix)
  exact (hinv.apart_of_ne (mem_all.mpr (.inr (.inl hx))) (mem_all.mpr (.inr (.inl (hundo.used y hy)))) hf hne).not_covers hcov

/-- What is left of the pages that were mapped belongs to slabs. -/
theorem Attempt.lends_undone (hundo : Undoes t gone s') (hinv' : DelInvWith e s' [] []) :
    ∃ M' : Set UInt32, Lends total (SlabFrame s s') s.world.paging s'.world.paging M' ∧
      ∀ v ∈ M', ∃ x ∈ s'.usedList, x ∉ s.usedList ∧ ∃ a ∈ pagesAt x.base x.nbPages, v = UInt32.ofNat a := by
  obtain ⟨held, hinv⟩ := ht.inv
  have halign : ∀ x ∈ t.usedList, nbBytesPerPage ∣ x.base := by
    intro x hx
    by_cases hin : x ∈ s.usedList
    · exact h.used_aligned x hin
    · exact (ht.taken x hx hin).1
  have hpage : ∀ x ∈ t.usedList, ∀ a ∈ pagesAt x.base x.nbPages, nbBytesPerPage ∣ a := by
    intro x hx a ha
    obtain ⟨i, -, rfl⟩ := mem_pagesAt.mp ha
    exact Nat.dvd_add (halign x hx) (Nat.dvd_mul_left _ _)
  -- a page that goes back and is not lent was a slab's, or referred to nothing
  obtain ⟨pages, -, hl⟩ := hundo.lends (ht.lends.mono fun p hp => hp.elim) halign (X := SlabFrame s s') (by
    rintro a ⟨x, hx, hlost, ha⟩
    by_cases hM : UInt32.ofNat a ∈ M
    · exact .inl hM
    refine .inr fun p hp => ?_
    have hword := isPageAligned_ofNat (hpage x hx a ha)
    have hbefore : s.world.paging.referred (UInt32.ofNat a) = some p := by
      rcases ht.lends.referred hword hM with he | hnone
      · exact he.symm.trans hp
      · rw [hnone] at hp
        cases hp
    by_cases hin : x ∈ s.usedList
    · exact ⟨a, hpage x hx a ha, .inr ⟨ht.freeAt_undone hundo hinv' hx hlost (covers_of_mem_pagesAt ha),
        h.inv.inv.not_freeAt hin (covers_of_mem_pagesAt ha), hbefore⟩⟩
    · rw [(ht.pages x hx hin a ha).resolve_left hM] at hp
      cases hp)
  refine ⟨_, hl, fun v hv => ?_⟩
  obtain ⟨x, hx, hnew, a, ha, rfl⟩ := (ht.mapped v hv.1).resolve_left fun hempty => hempty.elim
  refine ⟨x, ?_, hnew, a, ha, rfl⟩
  by_contra hlost
  obtain ⟨hword, p, hp, -⟩ := hl.mapped _ hv
  rw [referred_of_absent hword (hundo.absent a ⟨x, hx, hlost, ha⟩)] at hp
  cases hp

/-- **A call that gives up** leaves everything as it was, but for slabs of range structures. -/
theorem Attempt.failsCleanly (hundo : Undoes t gone s') (hinv' : DelInvWith e s' [] []) : FailsCleanly s s' := by
  obtain ⟨held, hinv⟩ := ht.inv
  obtain ⟨M', hl, hM'⟩ := ht.lends_undone h hundo hinv'
  have hsame : ∀ p, ¬ SlabFrame s s' p → s'.world.paging.physmem.refCnt p = s.world.paging.physmem.refCnt p := by
    intro p hp
    apply hl.refCnt p hp
    intro v hv hr
    obtain ⟨x, hx, hnew, a, ha, rfl⟩ := hM' v hv
    have halign := (ht.taken x (hundo.used x hx) hnew).1
    obtain ⟨i, hi, rfl⟩ := mem_pagesAt.mp ha
    have hcov := covers_of_mem_pagesAt ha
    exact hp ⟨_, Nat.dvd_add halign (Nat.dvd_mul_left _ _), .inl ⟨ht.freeAt h (hundo.used x hx) hnew hcov,
      hinv'.inv.not_freeAt hx hcov, hr⟩⟩
  refine ⟨fun a => ?_, fun a halign hfree => ?_, hsame, fun p hp => ?_⟩
  · rw [hinv'.inv.freeAt_or_slabAt, h.inv.inv.freeAt_or_slabAt, hundo.covered, ht.covered]
    refine and_congr_right fun _ => forall_congr' fun x => imp_congr_left ?_
    rw [hundo.ofCaller, ht.ofCaller]
    constructor
    · exact fun hx => hx.1.resolve_right hx.2
    · exact fun hx => ⟨.inl hx, fun hin => ht.fresh x hin hx.1⟩
  · have hnot : UInt32.ofNat a ∉ M' := by
      intro hv
      obtain ⟨x, hx, -, b, hb, he⟩ := hM' _ hv
      have hcov := covers_of_mem_pagesAt hb
      have hbound : ∀ c, s.Covered [] c → c < 4294967296 := by
        intro c hc
        have := (h.bounds c hc).2
        have htop : kvmmTop = 1073741824 := rfl
        omega
      have hcovered : ∀ c, s'.Covered [] c → s.Covered [] c := fun c hc => (ht.covered c).mp ((hundo.covered c).mp hc)
      have ha := hbound a (hcovered a ((hinv'.inv.freeAt_iff a).mp hfree).1)
      have hb' := hbound b (hcovered b ⟨x, mem_all.mpr (.inr (.inl hx)), hcov⟩)
      rw [word_eq_iff, UInt32.toNat_ofNat', UInt32.toNat_ofNat', Nat.mod_eq_of_lt ha, Nat.mod_eq_of_lt hb'] at he
      exact hinv'.inv.not_freeAt hx hcov (he ▸ hfree)
    exact (hl.pte _ (isPageAligned_ofNat halign) hnot).symm
  · by_cases hd : s.world.paging.physmem.hasDescr p = true
    · rw [hl.inv.mem_free_iff ((hl.descr p).trans hd), h.memory.mem_free_iff hd, hsame p hp]
    · have hout : ∀ m : Physmem, PhysmemInv total m → m.hasDescr p = s.world.paging.physmem.hasDescr p →
          p ∉ m.freePpage :=
        fun m hm he hin => hd (he ▸ (hm.listed p).mp (List.mem_append_left _ hin))
      exact iff_of_false (hout _ hl.inv (hl.descr p)) (hout _ h.memory rfl)

end

/-- **`kvmm_new_range` fails cleanly** if the pages it takes refer to no managed page. -/
theorem kvmmNewRange_failsCleanly (depth : Nat) (h : KernelRanges e total s)
    (hmap : MapsSlabs s.rangeCache)
    (hclean : ∀ a ∈ takenPages s n, s.world.paging.referred (UInt32.ofNat a) = none)
    (hfail : (kvmmNewRange kernelPageMap (depth + 2) s n true).1 = none) :
    FailsCleanly s (kvmmNewRange kernelPageMap (depth + 2) s n true).2 := by
  rcases kvmmNewRange_attempt depth h hmap (.refl h.memory) (Paging.spares_of_none hclean) with
    heq | ⟨t, gone, M, hatt, hkeeps | hgives⟩
  · rw [heq]
    exact .refl s
  · obtain ⟨⟨r, heq, -⟩, -⟩ := hkeeps
    rw [heq] at hfail
    cases hfail
  · exact hatt.failsCleanly h hgives.undoes hgives.inv

end Desiros.Mem
