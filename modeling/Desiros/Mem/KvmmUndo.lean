import Desiros.Mem.KvmmRules
import Desiros.Mem.LentPages

/-!
# A call of `kvmm_new_range` that fails

`kvmm_new_range` undoes itself with `kvmm_del_range` where a page cannot be mapped, and with `kvmm_cache_free` where the
range cache cannot grow. `Attempt` is the state such a call is in when it gives up: one or two ranges more are used, and
some of their pages are mapped. `Undoes` is the way back: the ranges in `gone` are not used any more, and every page
that was used and is not is unmapped.
-/

namespace Desiros.Mem

open Desiros.Library KslabCache Kvmm

variable {s s' s'' t : Kvmm KernelPages} {held : List Nat} {gone : List KvmmRange} {r x f : KvmmRange} {e : Slack}
  {l : List Nat} {released : List (Kslab (Option Nat))} {a n : Nat} {total : UInt32} {X : UInt32 → Prop} {g₀ : Paging}
  {M : Set UInt32}

/-- A used range that no slab of the range cache records as its own. -/
def OfCaller {W : Type} (s : Kvmm W) (x : KvmmRange) : Prop :=
  x ∈ s.usedList ∧ ∀ slab ∈ s.rangeCache.slabList, slab.range ≠ some x.addr

/-- A page of a range that is used in `s` and not in `s'`. -/
def LosesPage (s s' : Kvmm KernelPages) (a : Nat) : Prop :=
  ∃ x ∈ s.usedList, x ∉ s'.usedList ∧ a ∈ pagesAt x.base x.nbPages

/-! ## The way back -/

structure Undoes (s : Kvmm KernelPages) (gone : List KvmmRange) (s' : Kvmm KernelPages) : Prop where
  used : ∀ x ∈ s'.usedList, x ∈ s.usedList
  unused : ∀ x ∈ gone, x ∉ s'.usedList
  ofCaller : ∀ x, OfCaller s' x ↔ OfCaller s x ∧ x ∉ gone
  covered : ∀ a, s'.Covered [] a ↔ s.Covered [] a
  unmaps : ∃ pages : List Nat, s'.world = pages.foldl KernelPages.unmap s.world ∧ ∀ a ∈ pages, LosesPage s s' a
  absent : ∀ a, LosesPage s s' a → s'.world.Absent a

theorem KernelPages.Absent.unmaps {w : KernelPages} {a : Nat} (pages : List Nat) (h : w.Absent a) :
    (pages.foldl KernelPages.unmap w).Absent a := by
  induction pages generalizing w with
  | nil => exact h
  | cons b pages ih => exact ih (h.unmap b)

theorem Undoes.trans {gone' : List KvmmRange} (h : Undoes s gone s') (h' : Undoes s' gone' s'') :
    Undoes s (gone ++ gone') s'' := by
  obtain ⟨pages, heq, hpages⟩ := h.unmaps
  obtain ⟨pages', heq', hpages'⟩ := h'.unmaps
  refine ⟨fun x hx => h.used x (h'.used x hx), fun x hx hin => ?_, fun x => ?_,
    fun a => (h'.covered a).trans (h.covered a), ⟨pages ++ pages', ?_, fun a ha => ?_⟩, ?_⟩
  · rcases List.mem_append.mp hx with hx | hx
    · exact h.unused x hx (h'.used x hin)
    · exact h'.unused x hx hin
  · rw [h'.ofCaller, h.ofCaller, List.mem_append, not_or, and_assoc]
  · rw [heq', heq, List.foldl_append]
  · rcases List.mem_append.mp ha with ha | ha
    · obtain ⟨x, hx, hnot, hin⟩ := hpages a ha
      exact ⟨x, hx, fun hx' => hnot (h'.used x hx'), hin⟩
    · obtain ⟨x, hx, hnot, hin⟩ := hpages' a ha
      exact ⟨x, h.used x hx, hnot, hin⟩
  · rintro a ⟨x, hx, hnot, hin⟩
    by_cases hx' : x ∈ s'.usedList
    · exact h'.absent a ⟨x, hx', hnot, hin⟩
    · rw [heq']
      exact (h.absent a ⟨x, hx, hx', hin⟩).unmaps pages'

/-- The pages that were lent, and go back with the ranges. -/
theorem Undoes.lends (h : Undoes s gone s') (hl : Lends total X g₀ s.world.paging M)
    (halign : ∀ x ∈ s.usedList, nbBytesPerPage ∣ x.base)
    (hdrop : ∀ a, LosesPage s s' a → UInt32.ofNat a ∈ M ∨
      ∀ p, s.world.paging.referred (UInt32.ofNat a) = some p → X p) :
    ∃ pages : List Nat, (∀ a ∈ pages, LosesPage s s' a) ∧
      Lends total X g₀ s'.world.paging (M \ {v | ∃ a ∈ pages, v = UInt32.ofNat a}) := by
  obtain ⟨pages, heq, hpages⟩ := h.unmaps
  refine ⟨pages, hpages, ?_⟩
  rw [heq]
  apply hl.unmaps pages s.world M (fun a ha => ?_) fun a ha => hdrop a (hpages a ha)
  obtain ⟨x, hx, -, hin⟩ := hpages a ha
  obtain ⟨i, -, rfl⟩ := mem_pagesAt.mp hin
  exact Nat.dvd_add (halign x hx) (Nat.dvd_mul_left _ _)

/-- The slabs that go take their ranges with them. -/
theorem GivesBack.ofCaller (h : GivesBack s.rangeCache l s'.rangeCache released) (hok : s.rangeCache.Ok)
    (hused : ∀ x, x ∈ s'.usedList ↔ (x ∈ s.usedList ∧ x ∉ gone) ∧ ∀ slab ∈ released, slab.range ≠ some x.addr)
    (x : KvmmRange) : OfCaller s' x ↔ OfCaller s x ∧ x ∉ gone := by
  have hranges : (∀ slab ∈ s.rangeCache.slabList, slab.range ≠ some x.addr) ↔
      (∀ slab ∈ released, slab.range ≠ some x.addr) ∧ ∀ slab ∈ s'.rangeCache.slabList, slab.range ≠ some x.addr := by
    have hkeys : ∀ c : KslabCache (Option Nat), (∀ slab ∈ c.slabList, slab.range ≠ some x.addr) ↔
        ∀ k ∈ c.keys, k.2.2 ≠ some x.addr := by
      intro c
      unfold KslabCache.keys
      rw [List.forall_mem_map]
    rw [hkeys, hkeys]
    simp only [(h.keys hok).mem_iff, List.forall_mem_append, List.forall_mem_map]
  unfold OfCaller
  rw [hused, hranges]
  tauto

/-- `kvmm_del_range` -/
theorem kvmmDelRange_undoes (h : DelInvWith e s held []) (halign : ∀ x ∈ s.usedList, nbBytesPerPage ∣ x.base)
    (hr : Deletable s r) (hf : ¬ e.fixed r) : ∃ s', kvmmDelRange kernelPageMap s r = some s' ∧
      DelInvWith e s' held [] ∧ Undoes s [r] s' := by
  obtain ⟨s', heq, hfreed, -, -⟩ := kvmmDelRange_spec kernelPageMap h hr hf
  obtain ⟨l, released, hfrees⟩ := kvmmDelRange_frees h halign hr hf heq
  have hused : ∀ x, x ∈ s'.usedList ↔ (x ∈ s.usedList ∧ x ∉ [r]) ∧ ∀ slab ∈ released, slab.range ≠ some x.addr := by
    intro x
    rw [hfrees.used x, List.mem_singleton]
    exact and_congr_left fun _ => mem_deleteRange h.inv.used_nodup hr.used
  have hlost : ∀ x, (x ∈ s.usedList ∧ x ∉ s'.usedList) ↔ x ∈ [r] ∨ x ∈ deleteRange s.usedList r.addr ∧
      ∃ slab ∈ released, slab.range = some x.addr := by
    intro x
    rw [hused x, mem_deleteRange h.inv.used_nodup hr.used, List.mem_singleton]
    constructor
    · rintro ⟨hx, hnot⟩
      by_cases hxr : x = r
      · exact .inl hxr
      · refine .inr ⟨⟨hx, hxr⟩, ?_⟩
        by_contra hnone
        push Not at hnone
        exact hnot ⟨⟨hx, hxr⟩, hnone⟩
    · rintro (rfl | ⟨⟨hx, -⟩, slab, hs, hrange⟩)
      · exact ⟨hr.used, fun hin => hin.1.2 rfl⟩
      · exact ⟨hx, fun hin => hin.2 slab hs hrange⟩
  obtain ⟨pages, hworld, hpages⟩ := hfrees.unmaps
  have hgives : GivesBack s.rangeCache l s'.rangeCache released := hfrees.gives
  refine ⟨s', heq, hfreed.inv, fun x hx => ((hused x).mp hx).1.1, fun x hx hin => ((hused x).mp hin).1.2 hx,
    hgives.ofCaller h.inv.cache.ok hused,
    hfreed.covered, ⟨pages, hworld, fun a ha => ?_⟩, ?_⟩
  · obtain ⟨x, hx, hin⟩ := hpages a ha
    obtain ⟨hxused, hnot⟩ := (hlost x).mpr hx
    exact ⟨x, hxused, hnot, hin⟩
  · rintro a ⟨x, hx, hnot, hin⟩
    obtain ⟨i, hi, rfl⟩ := mem_pagesAt.mp hin
    exact hfrees.unmapped x ((hlost x).mp ⟨hx, hnot⟩) i hi

/-- A structure given back, with the range of a slab this empties. -/
theorem Returns.undoes {held₀ : List Nat} {pending : List KvmmRange} {l' : List Nat}
    {released' : List (Kslab (Option Nat))} (hok : s.rangeCache.Ok) (h : Returns s held₀ [] s' held pending l released)
    (h' : Frees s' held pending s'' l' released') (hcov : ∀ a, s''.Covered [] a ↔ s.Covered [] a) :
    Undoes s [] s'' := by
  have hused : ∀ x, x ∈ s''.usedList ↔ (x ∈ s.usedList ∧ x ∉ ([] : List KvmmRange)) ∧
      ∀ slab ∈ released ++ released', slab.range ≠ some x.addr := by
    intro x
    rw [h'.used x, h.used x, List.forall_mem_append]
    simp only [List.not_mem_nil, not_false_eq_true, and_true, and_assoc]
  have hlost : ∀ x, (x ∈ s.usedList ∧ x ∉ s''.usedList) ↔ x ∈ pending ∨ x ∈ s'.usedList ∧
      ∃ slab ∈ released', slab.range = some x.addr := by
    intro x
    rw [hused x, h.pending x, h.used x, List.forall_mem_append]
    constructor
    · rintro ⟨hx, hnot⟩
      by_cases hfirst : ∃ slab ∈ released, slab.range = some x.addr
      · exact .inl (.inr ⟨hx, hfirst⟩)
      · push Not at hfirst
        refine .inr ⟨⟨hx, hfirst⟩, ?_⟩
        by_contra hnone
        push Not at hnone
        exact hnot ⟨⟨hx, List.not_mem_nil⟩, hfirst, hnone⟩
    · rintro ((hnil | ⟨hx, slab, hs, hrange⟩) | ⟨⟨hx, -⟩, slab, hs, hrange⟩)
      · exact absurd hnil List.not_mem_nil
      · exact ⟨hx, fun hin => hin.2.1 slab hs hrange⟩
      · exact ⟨hx, fun hin => hin.2.2 slab hs hrange⟩
  obtain ⟨pages, hworld, hpages⟩ := h'.unmaps
  refine ⟨fun x hx => ((hused x).mp hx).1.1, fun x hx => absurd hx List.not_mem_nil, (h.gives.append h'.gives).ofCaller hok hused, hcov,
    ⟨pages, hworld.trans (by rw [h.world]), fun a ha => ?_⟩, ?_⟩
  · obtain ⟨x, hx, hin⟩ := hpages a ha
    obtain ⟨hxused, hnot⟩ := (hlost x).mpr hx
    exact ⟨x, hxused, hnot, hin⟩
  · rintro a ⟨x, hx, hnot, hin⟩
    obtain ⟨i, hi, rfl⟩ := mem_pagesAt.mp hin
    exact h'.unmapped x ((hlost x).mp ⟨hx, hnot⟩) i hi

/-- `kvmm_cache_free` of a structure that is not needed. -/
theorem kvmmCacheFree_undoes (h : DelInvWith e s (a :: held) []) (halign : ∀ x ∈ s.usedList, nbBytesPerPage ∣ x.base) :
    Undoes s [] (Kvmm.kvmmCacheFree kernelPageMap s a) := by
  have hcov := (kvmmCacheFree_freed kernelPageMap h).1.covered
  obtain ⟨s₁, hfree, -, ⟨hrel, hpost⟩ | ⟨r, hrel, hfind, hpost⟩⟩ := release_cases h.inv
  · have heq : Kvmm.kvmmCacheFree kernelPageMap s a = s₁ := by
      unfold Kvmm.kvmmCacheFree
      rw [hrel]
    obtain ⟨l, released, hret⟩ := hpost.returns
    rw [heq] at hcov ⊢
    exact hret.undoes h.inv.cache.ok (.done s₁ held) hcov
  · have hinv : DelInvWith e { s₁ with usedList := deleteRange s₁.usedList r.addr } held [r] :=
      ⟨hpost.inv, hfree ▸ h.gaps⟩
    obtain ⟨l, released, hret⟩ := hpost.returns
    obtain ⟨s', heq, -⟩ := delRangeLoop_spec kernelPageMap (s₁.rangeCache.slabList.length + 1) _ r [] hinv
      (Nat.lt_succ_self _)
    have halign₁ : ∀ x, x ∈ deleteRange s₁.usedList r.addr ∨ x ∈ [r] → nbBytesPerPage ∣ x.base := by
      rintro x (hx | hx)
      · exact halign x ((hret.used x).mp hx).1
      · rcases (hret.pending x).mp hx with hnil | ⟨hx, -⟩
        · exact absurd hnil List.not_mem_nil
        · exact halign x hx
    obtain ⟨l', released', hfrees⟩ := delRangeLoop_frees _ _ r [] hinv halign₁ s' heq
    have heq' : Kvmm.kvmmCacheFree kernelPageMap s a = s' := by
      unfold Kvmm.kvmmCacheFree
      rw [hrel]
      dsimp only
      rw [hfind]
      dsimp only
      unfold kvmmDelRange
      rw [heq]
      rfl
    rw [heq'] at hcov ⊢
    exact hret.undoes h.inv.cache.ok hfrees hcov

end Desiros.Mem
