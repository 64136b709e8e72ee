import Desiros.Mem.KvmmDel
import Desiros.Mem.KvmmPages

/-!
# The pages a deleted range frees

`kvmm_del_range` frees the pages of its range, and the page of each slab of range descriptors that it releases. A
slab that becomes empty is released only if the other slabs keep `min_free_obj` free descriptors, so that one that
becomes empty may stay. The descriptors that the merges save go back to their slabs one after the other
(`GivesBack`), and each of them was in use until then.
-/

namespace Desiros.Mem

open Desiros.Library KslabCache Kvmm

variable {s s' : Kvmm KernelPages} {held : List Nat} {pending : List KvmmRange} {r x : KvmmRange} {e : Slack}
  {l : List Nat} {released : List (Kslab (Option Nat))}

/-- The address is free. -/
def FreeAt {W : Type} (s : Kvmm W) (a : Nat) : Prop := ∃ f ∈ s.freeList, f.Covers a

/-! ## Unmapped pages -/

/-- Nothing is mapped at the page. -/
def KernelPages.Absent (w : KernelPages) (p : Nat) : Prop := (w.paging.pte (UInt32.ofNat p)).present = false

theorem toNat_ofNat_page {p : Nat} (hp : nbBytesPerPage ∣ p) : (UInt32.ofNat p).toNat % 4096 = 0 := by
  have hpage : nbBytesPerPage = 4096 := rfl
  rw [hpage] at hp
  rw [UInt32.toNat_ofNat']
  omega

theorem KernelPages.unmap_absent {w : KernelPages} {p : Nat} (hp : nbBytesPerPage ∣ p) : (w.unmap p).Absent p := by
  have hoff : UInt32.ofNat p &&& 0xfff = 0 := by
    apply UInt32.toNat_inj.mp
    rw [UInt32.toNat_and]
    show (UInt32.ofNat p).toNat &&& 2 ^ 12 - 1 = 0
    rw [Nat.and_two_pow_sub_one_eq_mod]
    exact toNat_ofNat_page hp
  have halign : pageAlignInf (UInt32.ofNat p) = UInt32.ofNat p := by
    have hpage := toNat_ofNat_page hp
    have hinf : (pageAlignInf (UInt32.ofNat p)).toNat = (UInt32.ofNat p).toNat / 4096 * 4096 := toNat_alignInf _
    rw [word_eq_iff, hinf]
    omega
  unfold KernelPages.Absent KernelPages.unmap pagingUnmap
  rw [if_neg (not_not.mpr hoff), halign]
  dsimp only
  rw [Function.update_self]

theorem KernelPages.Absent.unmap {w : KernelPages} {p : Nat} (h : w.Absent p) (q : Nat) : (w.unmap q).Absent p := by
  unfold KernelPages.Absent KernelPages.unmap pagingUnmap at *
  dsimp only
  split_ifs with hoff
  · exact h
  · dsimp only
    by_cases hq : UInt32.ofNat p = pageAlignInf (UInt32.ofNat q)
    · rw [hq, Function.update_self]
    · rwa [Function.update_of_ne hq]

theorem KernelPages.Absent.unmapPages {p : Nat} (base : Nat) : ∀ (n i : Nat) (w : KernelPages), w.Absent p →
    (Kvmm.unmapPages kernelPageMap base i n w).Absent p := by
  intro n
  induction n with
  | zero => exact fun _ _ h => h
  | succ n ih => exact fun i w h => ih (i + 1) _ (h.unmap _)

/-- All the pages of a range are unmapped. -/
theorem unmapPages_absent {base : Nat} (hbase : nbBytesPerPage ∣ base) : ∀ (n i : Nat) (w : KernelPages) (j : Nat),
    i ≤ j → j < i + n → (Kvmm.unmapPages kernelPageMap base i n w).Absent (base + j * nbBytesPerPage) := by
  intro n
  induction n with
  | zero =>
    intro i w j hij hj
    omega
  | succ n ih =>
    intro i w j hij hj
    by_cases he : j = i
    · subst he
      have hfirst : (w.unmap (base + j * nbBytesPerPage)).Absent (base + j * nbBytesPerPage) :=
        KernelPages.unmap_absent (Nat.dvd_add hbase (Nat.dvd_mul_left _ _))
      exact hfirst.unmapPages base n (j + 1) _
    · exact ih (i + 1) _ j (by omega) (by omega)

/-- The `n` pages from `base` on. -/
def pagesAt (base n : Nat) : List Nat := (List.range' 0 n).map fun i => base + i * nbBytesPerPage

theorem mem_pagesAt {base n a : Nat} : a ∈ pagesAt base n ↔ ∃ i < n, a = base + i * nbBytesPerPage := by
  unfold pagesAt
  rw [List.mem_map]
  simp [List.mem_range'_1, eq_comm]

theorem unmapPages_eq_foldl (base : Nat) : ∀ (n i : Nat) (w : KernelPages),
    Kvmm.unmapPages kernelPageMap base i n w =
      ((List.range' i n).map fun j => base + j * nbBytesPerPage).foldl KernelPages.unmap w := by
  intro n
  induction n with
  | zero => exact fun _ _ => rfl
  | succ n ih => exact fun i w => ih (i + 1) _

/-! ## The loop -/

/-- What becomes of the ranges to free and of those of the slabs that are released on the way. -/
structure Frees (s : Kvmm KernelPages) (held : List Nat) (pending : List KvmmRange) (s' : Kvmm KernelPages)
    (l : List Nat) (released : List (Kslab (Option Nat))) : Prop where
  gives : GivesBack s.rangeCache l s'.rangeCache released
  structs : ((s.all pending).map (·.addr) ++ held).Perm (l ++ ((s'.all []).map (·.addr) ++ held))
  used : ∀ x, x ∈ s'.usedList ↔ x ∈ s.usedList ∧ ∀ slab ∈ released, slab.range ≠ some x.addr
  keeps : ∀ p, s.world.Absent p → s'.world.Absent p
  unmapped : ∀ x, (x ∈ pending ∨ x ∈ s.usedList ∧ ∃ slab ∈ released, slab.range = some x.addr) → ∀ i < x.nbPages,
    s'.world.Absent (x.base + i * nbBytesPerPage)
  unmaps : ∃ pages : List Nat, s'.world = pages.foldl KernelPages.unmap s.world ∧
    ∀ p ∈ pages, ∃ x, (x ∈ pending ∨ x ∈ s.usedList ∧ ∃ slab ∈ released, slab.range = some x.addr) ∧
      p ∈ pagesAt x.base x.nbPages

theorem Frees.done (s : Kvmm KernelPages) (held : List Nat) : Frees s held [] s [] [] :=
  ⟨.nil _, List.Perm.refl _, fun x => by simp, fun p hp => hp, fun x hx => by simp at hx, [], rfl,
    fun p hp => absurd hp List.not_mem_nil⟩

/-- One iteration, and what the others do to the ranges that are left. -/
theorem Frees.of_step {s₁ : Kvmm KernelPages} {pending₁ : List KvmmRange} {l₁ : List Nat}
    {released₁ : List (Kslab (Option Nat))} (hinv : DelInvWith e s held (r :: pending))
    (hr : nbBytesPerPage ∣ r.base)
    (hstep : Returns { s with
      freeList := insertRange s.freeList r
      world := Kvmm.unmapPages kernelPageMap r.base 0 r.nbPages s.world } held pending s₁ held pending₁ l₁ released₁)
    (h : Frees s₁ held pending₁ s' l released) : Frees s held (r :: pending) s' (l₁ ++ l) (released₁ ++ released) := by
  obtain ⟨pre, post, hlist, hinsert, -, -⟩ := insertRange_eq (a := r) hinv.inv.free_ascending hinv.inv.free_nodup
  have hworld := hstep.world
  dsimp only at hworld
  have hcase : ∀ x, (x ∈ r :: pending ∨ x ∈ s.usedList ∧ ∃ slab ∈ released₁ ++ released, slab.range = some x.addr) ↔
      x = r ∨ x ∈ pending₁ ∨ x ∈ s₁.usedList ∧ ∃ slab ∈ released, slab.range = some x.addr := by
    intro x
    rw [hstep.pending x, hstep.used x]
    simp only [List.mem_cons, List.mem_append, or_and_right, exists_or]
    constructor
    · rintro ((rfl | hin) | ⟨hx, hrel | hrel⟩)
      · exact .inl rfl
      · exact .inr (.inl (.inl hin))
      · exact .inr (.inl (.inr ⟨hx, hrel⟩))
      · by_cases hfirst : ∃ slab ∈ released₁, slab.range = some x.addr
        · exact .inr (.inl (.inr ⟨hx, hfirst⟩))
        · exact .inr (.inr ⟨⟨hx, fun slab hs he => hfirst ⟨slab, hs, he⟩⟩, hrel⟩)
    · rintro (rfl | (hin | ⟨hx, hrel⟩) | ⟨hx, hrel⟩)
      · exact .inl (.inl rfl)
      · exact .inl (.inr hin)
      · exact .inr ⟨hx, .inl hrel⟩
      · exact .inr ⟨hx.1, .inr hrel⟩
  refine ⟨hstep.gives.append h.gives, ?_, fun x => ?_, fun p hp => h.keeps p ?_, fun x hx i hi => ?_, ?_⟩
  · rw [List.append_assoc]
    refine List.Perm.trans (List.Perm.append_right held (List.Perm.map _ ?_)) (hstep.structs.trans (h.structs.append_left l₁))
    rw [hinsert]
    exact (insert_perm hlist).symm
  · rw [h.used x, hstep.used x]
    simp only [List.forall_mem_append, and_assoc]
  · rw [hworld]
    exact hp.unmapPages _ _ _
  · rcases (hcase x).mp hx with rfl | hrest
    · apply h.keeps
      rw [hworld]
      exact unmapPages_absent hr _ 0 _ i (Nat.zero_le i) (by omega)
    · exact h.unmapped x hrest i hi
  · obtain ⟨pages, heq, hpages⟩ := h.unmaps
    refine ⟨pagesAt r.base r.nbPages ++ pages, ?_, fun p hp => ?_⟩
    · rw [heq, hworld, unmapPages_eq_foldl, List.foldl_append]
      rfl
    · rcases List.mem_append.mp hp with hp | hp
      · exact ⟨r, .inl List.mem_cons_self, hp⟩
      · obtain ⟨x, hx, hin⟩ := hpages p hp
        exact ⟨x, (hcase x).mpr (.inr hx), hin⟩

theorem delRangeLoop_frees : ∀ (fuel : Nat) (s : Kvmm KernelPages) (r : KvmmRange) (pending : List KvmmRange),
    DelInvWith e s held (r :: pending) → (∀ x, x ∈ s.usedList ∨ x ∈ r :: pending → nbBytesPerPage ∣ x.base) →
    ∀ s', delRangeLoop kernelPageMap fuel s r pending = some s' →
      ∃ l released, Frees s held (r :: pending) s' l released := by
  intro fuel
  induction fuel with
  | zero =>
    intro s r pending _ _ s' hres
    cases hres
  | succ fuel ih =>
    intro s r pending h halign s' hres
    obtain ⟨hfreed, -, -, -, l, released, hret⟩ := delRangeStep_spec kernelPageMap h
    have hr := halign r (.inr List.mem_cons_self)
    unfold delRangeLoop at hres
    generalize delRangeStep kernelPageMap s r pending = step at hfreed hret hres
    obtain ⟨s₁, pending₁⟩ := step
    cases pending₁ with
    | nil =>
      obtain rfl := Option.some.inj hres
      exact ⟨_, _, .of_step h hr hret (.done s₁ held)⟩
    | cons r₁ pending₁ =>
      have halign₁ : ∀ x, x ∈ s₁.usedList ∨ x ∈ r₁ :: pending₁ → nbBytesPerPage ∣ x.base := by
        rintro x (hx | hx)
        · exact halign x (.inl ((hret.used x).mp hx).1)
        · rcases (hret.pending x).mp hx with hin | ⟨hin, -⟩
          · exact halign x (.inr (List.mem_cons_of_mem _ hin))
          · exact halign x (.inl hin)
      obtain ⟨l', released', hfrees⟩ := ih s₁ r₁ pending₁ hfreed.inv halign₁ s' hres
      exact ⟨_, _, .of_step h hr hret hfrees⟩

/-! ## Released slabs -/

/-- The slabs of the cache are released or stay. -/
theorem GivesBack.keys {c c' : KslabCache (Option Nat)} (h : GivesBack c l c' released) (hok : c.Ok) :
    c.keys.Perm (released.map (fun slab => (slab.addr, slab.firstObj, slab.range)) ++ c'.keys) := by
  induction h with
  | nil c => exact List.Perm.refl _
  | keep hs hslot hfree _ _ ih =>
    obtain ⟨hok', hkeys, -⟩ := hok.give hs hslot hfree
    exact hkeys.symm.trans (ih hok')
  | @release c c' slab a l released hs hslot hfree hcan _ ih =>
    obtain ⟨hok', hkeys, -⟩ := hok.give hs hslot hfree
    have hmem : slab.give a ∈ (cacheGiveObject c slab a).slabList := by
      unfold cacheGiveObject
      split
      · exact List.mem_cons_self
      · exact List.mem_map.mpr ⟨slab, hs, if_pos rfl⟩
    simp only [canRelease, Bool.and_eq_true, decide_eq_true_eq] at hcan
    obtain ⟨hok'', hkeys', -⟩ := hok'.remove hmem hcan.1
    exact hkeys.symm.trans (hkeys'.trans ((ih hok'').cons _))

/-- A slab that is released was one of the cache. -/
theorem GivesBack.released_keys {c c' : KslabCache (Option Nat)} (h : GivesBack c l c' released) (hok : c.Ok) :
    ∀ slab ∈ released, (slab.addr, slab.firstObj, slab.range) ∈ c.keys :=
  fun _ hs => (h.keys hok).mem_iff.mpr
    (List.mem_append_left _ (List.mem_map_of_mem (f := fun slab => (slab.addr, slab.firstObj, slab.range)) hs))

/-- Its range, if it has one, is a used range of one page, the page of the slab. -/
theorem KvmmInvWith.released_range (h : KvmmInvWith e s held pending) {c' : KslabCache (Option Nat)}
    (hgives : GivesBack s.rangeCache l c' released) {slab : Kslab (Option Nat)} (hs : slab ∈ released)
    (hrange : slab.range ≠ none) :
    ∃ x ∈ s.usedList, slab.range = some x.addr ∧ x.base = slab.firstObj ∧ x.nbPages = 1 ∧ ¬ e.fixed x ∧
      ∀ a, x.Covers a ↔ s.rangeCache.Covers slab a := by
  obtain ⟨slab₀, hs₀, hkey⟩ := List.mem_map.mp (hgives.released_keys h.cache.ok slab hs)
  rw [Prod.mk.injEq, Prod.mk.injEq] at hkey
  obtain ⟨x, hx, hbase, hpages, -, hor⟩ := h.slab slab₀ hs₀
  rw [hkey.2.2] at hor
  refine ⟨x, hx, hor.resolve_left hrange, hbase.trans hkey.2.1, hpages, h.not_fixed_of_base hs₀ hbase, fun a => ?_⟩
  unfold KvmmRange.Covers KvmmRange.top KslabCache.Covers
  rw [h.slabBytes, hpages, Nat.one_mul, hbase, hkey.2.1]

/-- What is covered and not used is free. -/
theorem KvmmInvWith.freeAt_iff (h : KvmmInvWith e s held []) (a : Nat) :
    FreeAt s a ↔ s.Covered [] a ∧ ∀ x ∈ s.usedList, ¬ x.Covers a := by
  constructor
  · rintro ⟨f, hf, hcov⟩
    have hall : f ∈ s.all [] := mem_all.mpr (.inl hf)
    refine ⟨⟨f, hall, hcov⟩, fun x hx => ?_⟩
    have hfixed := h.not_fixed (.inl hf)
    refine (h.apart_of_ne hall (mem_all.mpr (.inr (.inl hx))) hfixed ?_).not_covers hcov
    rintro rfl
    have hnodup := h.all_nodup
    unfold AddrNodup all at hnodup
    rw [List.append_nil, List.map_append] at hnodup
    exact (List.nodup_append.mp hnodup).2.2 _ (List.mem_map_of_mem hf) _ (List.mem_map_of_mem hx) rfl
  · rintro ⟨⟨f, hf, hcov⟩, hused⟩
    rcases mem_all.mp hf with hfree | hx | hnil
    · exact ⟨f, hfree, hcov⟩
    · exact absurd hcov (hused f hx)
    · exact absurd hnil List.not_mem_nil

/-! ## Deleting a range -/

/-- A state with ranges as they should be, at the boundaries of pages. The `fixed` ranges of `e`, if it has any, may
overlap: those of the first slab of caches, after `kvmm_setup`. -/
structure RangesWellFormed (e : Slack) (s : Kvmm KernelPages) : Prop where
  inv : DelInvWith e s [] []
  aligned : ∀ r ∈ s.usedList, nbBytesPerPage ∣ r.base

/-- What `kvmm_del_range` does to the pages, the descriptors `l` having been absorbed by merges and the slabs `released`
given back. -/
structure DeletesPages (s : Kvmm KernelPages) (r : KvmmRange) (s' : Kvmm KernelPages) (l : List Nat)
    (released : List (Kslab (Option Nat))) : Prop where
  free : ∀ a, FreeAt s' a ↔ FreeAt s a ∨ r.Covers a ∨
    ∃ slab ∈ released, slab.range ≠ none ∧ s.rangeCache.Covers slab a
  gaps : Gaps s'.freeList
  unmapped : ∀ i < r.nbPages, s'.world.Absent (r.base + i * nbBytesPerPage)
  unmapped_slabs : ∀ slab ∈ released, slab.range ≠ none → s'.world.Absent slab.firstObj
  absorbed : ∀ a, a ∈ l ↔ a ∈ (s.all []).map (·.addr) ∧ a ∉ (s'.all []).map (·.addr)
  once : l.Nodup
  gives : GivesBack s.rangeCache l s'.rangeCache released

theorem kvmmDelRange_frees (h : DelInvWith e s held []) (haligned : ∀ x ∈ s.usedList, nbBytesPerPage ∣ x.base)
    (hr : Deletable s r) (hf : ¬ e.fixed r) {s' : Kvmm KernelPages} (heq : kvmmDelRange kernelPageMap s r = some s') :
    ∃ l released, Frees { s with usedList := deleteRange s.usedList r.addr } held [r] s' l released := by
  refine delRangeLoop_frees _ _ r [] (h.delete hr hf) ?_ s' heq
  rintro x (hx | hx)
  · exact haligned x (List.mem_of_mem_filter hx)
  · rw [List.mem_singleton.mp hx]
    exact haligned r hr.used

/-- **`kvmm_del_range` ends and loses nothing**: it frees the pages of the range and of the slabs that it releases,
each of which became empty while the others kept enough free descriptors. -/
theorem kvmmDelRange_pages (h : RangesWellFormed e s) (hr : Deletable s r) (hf : ¬ e.fixed r) :
    ∃ s', kvmmDelRange kernelPageMap s r = some s' ∧ ∃ l released, DeletesPages s r s' l released := by
  obtain ⟨s', heq, hfreed, -, -⟩ := kvmmDelRange_spec kernelPageMap h.inv hr hf
  have hinv := h.inv.inv
  have hinv₁ := h.inv.delete hr hf
  obtain ⟨l, released, hfrees⟩ := kvmmDelRange_frees h.inv h.aligned hr hf heq
  have hstructs : ((s.all []).map (·.addr)).Perm (l ++ (s'.all []).map (·.addr)) := by
    have hperm := hfrees.structs
    rw [List.append_nil, List.append_nil] at hperm
    exact ((delete_perm hinv.used_nodup hr.used).map _).symm.trans hperm
  have hnodup := hstructs.nodup_iff.mp hinv.all_nodup
  obtain ⟨hl, -, hdisj⟩ := List.nodup_append.mp hnodup
  have hused : ∀ x, x ∈ s'.usedList ↔ (x ∈ s.usedList ∧ x ≠ r) ∧ ∀ slab ∈ released, slab.range ≠ some x.addr := by
    intro x
    rw [hfrees.used x]
    exact and_congr_left fun _ => mem_deleteRange hinv.used_nodup hr.used
  have hslab : ∀ slab ∈ released, slab.range ≠ none → ∃ x ∈ s.usedList, x ≠ r ∧ slab.range = some x.addr ∧
      x.base = slab.firstObj ∧ x.nbPages = 1 ∧ ¬ e.fixed x ∧ ∀ a, x.Covers a ↔ s.rangeCache.Covers slab a := by
    intro slab hs hrange
    obtain ⟨x, hx, haddr, hbase, hpages, hfx, hcov⟩ := hinv₁.inv.released_range hfrees.gives hs hrange
    obtain ⟨hin, hne⟩ := (mem_deleteRange hinv.used_nodup hr.used).mp hx
    exact ⟨x, hin, hne, haddr, hbase, hpages, hfx, hcov⟩
  refine ⟨s', heq, l, released, fun a => ?_, hfreed.inv.gaps, fun i hi => ?_, fun slab hs hrange => ?_, fun a => ?_,
    hl, hfrees.gives⟩
  · have hapart : ∀ y ∈ s.usedList, ¬ e.fixed y → y.Covers a → ∀ x ∈ s.usedList, x ≠ y → ¬ x.Covers a := by
      intro y hy hfy hcov x hx hne
      exact (hinv.apart_of_ne (mem_all.mpr (.inr (.inl hy))) (mem_all.mpr (.inr (.inl hx))) hfy hne.symm).not_covers hcov
    rw [hfreed.inv.inv.freeAt_iff, hinv.freeAt_iff, hfreed.covered a]
    constructor
    · rintro ⟨⟨y, hy, hcov⟩, hnone⟩
      by_cases hfree : ∀ x ∈ s.usedList, ¬ x.Covers a
      · exact .inl ⟨⟨y, hy, hcov⟩, hfree⟩
      · push Not at hfree
        obtain ⟨x, hx, hcovx⟩ := hfree
        by_cases hxr : x = r
        · exact .inr (.inl (hxr ▸ hcovx))
        · have hgone : ¬ ∀ slab ∈ released, slab.range ≠ some x.addr :=
            fun hall => hnone x ((hused x).mpr ⟨⟨hx, hxr⟩, hall⟩) hcovx
          push Not at hgone
          obtain ⟨slab, hs, hrange⟩ := hgone
          have hsome : slab.range ≠ none := by
            rw [hrange]
            exact Option.some_ne_none _
          obtain ⟨x', hx', -, haddr, -, -, -, hcov'⟩ := hslab slab hs hsome
          obtain rfl : x' = x := hinv.used_nodup.eq_of_addr hx' hx (Option.some.inj (haddr.symm.trans hrange))
          exact .inr (.inr ⟨slab, hs, hsome, (hcov' a).mp hcovx⟩)
    · rintro (⟨hcov, hnone⟩ | hcov | ⟨slab, hs, hsome, hcov⟩)
      · exact ⟨hcov, fun x hx => hnone x ((hused x).mp hx).1.1⟩
      · refine ⟨⟨r, mem_all.mpr (.inr (.inl hr.used)), hcov⟩, fun x hx => ?_⟩
        obtain ⟨⟨hin, hne⟩, -⟩ := (hused x).mp hx
        exact hapart r hr.used hf hcov x hin hne
      · obtain ⟨y, hy, -, haddr, -, -, hfy, hcov'⟩ := hslab slab hs hsome
        have hcovy := (hcov' a).mpr hcov
        refine ⟨⟨y, mem_all.mpr (.inr (.inl hy)), hcovy⟩, fun x hx => ?_⟩
        obtain ⟨⟨hin, -⟩, hrel⟩ := (hused x).mp hx
        refine hapart y hy hfy hcovy x hin ?_
        rintro rfl
        exact hrel slab hs haddr
  · exact hfrees.unmapped r (.inl (List.mem_singleton_self r)) i hi
  · obtain ⟨x, hx, hne, haddr, hbase, hpages, -⟩ := hslab slab hs hrange
    have hgone := hfrees.unmapped x (.inr ⟨(mem_deleteRange hinv.used_nodup hr.used).mpr ⟨hx, hne⟩, slab, hs, haddr⟩) 0
      (by omega)
    rwa [Nat.zero_mul, Nat.add_zero, hbase] at hgone
  · rw [hstructs.mem_iff, List.mem_append]
    constructor
    · exact fun ha => ⟨.inl ha, fun ha' => hdisj a ha a ha' rfl⟩
    · exact fun ha => ha.1.resolve_right ha.2

/-! ## Two slabs -/

/-- The first slab of descriptors, with the given free ones. -/
def firstSlabWith (free : List Nat) : Kslab (Option Nat) := ⟨0x4fe4, free.length, free, some 0x4000, 0x4000⟩

/-- A slab in which the first descriptor only is in use. -/
def secondSlab : Kslab (Option Nat) :=
  ⟨0x5fe4, 202, (List.range 202).map fun i => 0x5000 + (i + 1) * 20, some 0x4014, 0x5000⟩

/-- The descriptor of the range at `0x7000` is the only one of the second slab. The range behind the slabs is free. -/
def twoSlabs (free : List Nat) : Kvmm KernelPages where
  freeList := [⟨0x4028, 0x6000, 1⟩]
  usedList := [⟨0x4000, 0x4000, 1⟩, ⟨0x4014, 0x5000, 1⟩, ⟨0x5000, 0x7000, 1⟩]
  slabOf := fun a => if a = 0x4000 then some 0x4fe4 else if a = 0x4014 then some 0x5fe4 else none
  rangeCache :=
    { originalObjSize := 20
      allocObjSize := 20
      nbObjPerSlab := 203
      nbPagesPerSlab := 1
      minFreeObj := 2
      flags := kslabCreateMap ||| onSlabFlag
      onSlab := true
      nbFreeObj := 202 + free.length
      slabList := [secondSlab, firstSlabWith free] }
  world := identityPages freeBehindKernel

theorem twoSlabs_wellFormed {free : List Nat} (hnodup : free.Nodup)
    (hslots : ∀ a ∈ free, 0x403c ≤ a ∧ ∃ i < 203, a = 0x4000 + i * 20) :
    RangesWellFormed .none (twoSlabs free) ∧ Deletable (twoSlabs free) ⟨0x5000, 0x7000, 1⟩ := by
  have hsecond : (twoSlabs free).rangeCache.SlabOk secondSlab := by
    have hend : 0x5fe4 + sizeofKslab = 0x5000 + 1 * nbBytesPerPage := by decide
    refine ⟨?_, fun a ha => ?_, by simp [secondSlab], fun _ => hend⟩
    · refine List.Nodup.map (fun i j hij => ?_) List.nodup_range
      have hij' : 0x5000 + (i + 1) * 20 = 0x5000 + (j + 1) * 20 := hij
      omega
    · obtain ⟨i, hi, rfl⟩ := List.mem_map.mp ha
      have := List.mem_range.mp hi
      exact ⟨i + 1, show i + 1 < 203 by omega, rfl⟩
  have hend : 0x4fe4 + sizeofKslab = 0x4000 + 1 * nbBytesPerPage := by decide
  have hcache : (twoSlabs free).rangeCache.Ok := by
    refine ⟨⟨show 0 < 20 by decide, show 0 < 203 by decide, show 203 * 20 + sizeofKslab ≤ 1 * nbBytesPerPage by decide⟩,
      fun slab hs => ?_, ?_, ?_, ?_⟩
    · have hor : slab = secondSlab ∨ slab = firstSlabWith free := by simpa [twoSlabs] using hs
      rcases hor with rfl | rfl
      · exact hsecond
      · exact ⟨hnodup, fun a ha => (hslots a ha).2, rfl, fun _ => hend⟩
    · exact List.pairwise_pair.mpr (Or.inr (show 0x4000 + 1 * 4096 ≤ 0x5000 by decide))
    · simp [twoSlabs, secondSlab, firstSlabWith]
    · exact List.pairwise_pair.mpr fun hnil => by simp [secondSlab] at hnil
  have hfirst : ∀ a, a = 0x4000 ∨ a = 0x4014 ∨ a = 0x4028 → (twoSlabs free).rangeCache.Allocated a := by
    intro a ha
    refine ⟨firstSlabWith free, by simp [twoSlabs], ⟨(a - 0x4000) / 20, ?_, ?_⟩, fun hin => ?_⟩
    · show (a - 0x4000) / 20 < 203
      omega
    · show a = 0x4000 + (a - 0x4000) / 20 * 20
      omega
    · have := (hslots a hin).1
      omega
  refine ⟨⟨⟨kvmmInv_iff.mp ⟨?_, ?_, List.pairwise_singleton _ _, ?_, ?_, fun a ha => ?_,
    ⟨hcache, rfl, rfl, rfl, by show 2 ≤ 203; decide⟩, fun slab hs => ?_⟩, List.pairwise_singleton _ _⟩, ?_⟩, ?_, rfl⟩
  · simp [twoSlabs, all, KvmmRange.Apart, KvmmRange.top, nbBytesPerPage]
  · simp [twoSlabs, all]
  · simp [twoSlabs, Ascending]
  · simp [twoSlabs, all]
  · have hor : a = 0x4028 ∨ a = 0x4000 ∨ a = 0x4014 ∨ a = 0x5000 := by simpa [twoSlabs, all] using ha
    rcases hor with rfl | rfl | rfl | rfl
    · exact hfirst _ (by simp)
    · exact hfirst _ (by simp)
    · exact hfirst _ (by simp)
    · refine ⟨secondSlab, by simp [twoSlabs], ⟨0, by show 0 < 203; decide, rfl⟩, fun hin => ?_⟩
      obtain ⟨i, -, hi⟩ := List.mem_map.mp hin
      omega
  · have hor : slab = secondSlab ∨ slab = firstSlabWith free := by simpa [twoSlabs] using hs
    rcases hor with rfl | rfl
    · exact ⟨⟨0x4014, 0x5000, 1⟩, by simp [twoSlabs], rfl, rfl, rfl, .inr rfl⟩
    · exact ⟨⟨0x4000, 0x4000, 1⟩, by simp [twoSlabs], rfl, rfl, rfl, .inr rfl⟩
  · simp [twoSlabs, nbBytesPerPage]
  · simp [twoSlabs]

/-- With two descriptors free in the first slab, the second slab is released with its page. -/
theorem twoSlabs_releases : ∃ s', kvmmDelRange kernelPageMap (twoSlabs [0x403c, 0x4050]) ⟨0x5000, 0x7000, 1⟩ = some s' ∧
    ∃ l released, DeletesPages (twoSlabs [0x403c, 0x4050]) ⟨0x5000, 0x7000, 1⟩ s' l released := by
  obtain ⟨hwf, hdel⟩ := @twoSlabs_wellFormed [0x403c, 0x4050] (by decide) (by
    intro a ha
    have hor : a = 0x403c ∨ a = 0x4050 := by simpa using ha
    exact ⟨by omega, (a - 0x4000) / 20, by omega, by omega⟩)
  exact kvmmDelRange_pages hwf hdel id

/-- All the descriptors of the slab that are in use go back. -/
def BecomesEmpty (s s' : Kvmm KernelPages) (slab : Kslab (Option Nat)) : Prop :=
  (∃ a, s.rangeCache.IsSlot slab a ∧ a ∉ slab.free) ∧
    ∀ a, s.rangeCache.IsSlot slab a → ¬ s'.rangeCache.Allocated a

/-- Without them it becomes empty and stays. -/
theorem twoSlabs_keeps_empty_slab : ¬ ∀ (s : Kvmm KernelPages) (r : KvmmRange), RangesWellFormed .none s →
    Deletable s r → ∃ s', kvmmDelRange kernelPageMap s r = some s' ∧
      ∀ a, FreeAt s' a ↔ FreeAt s a ∨ r.Covers a ∨
        ∃ slab ∈ s.rangeCache.slabList, BecomesEmpty s s' slab ∧ s.rangeCache.Covers slab a := by
  intro hclaim
  obtain ⟨hwf, hdel⟩ := @twoSlabs_wellFormed [] List.nodup_nil (fun a ha => absurd ha List.not_mem_nil)
  obtain ⟨s', heq, hfree⟩ := hclaim _ _ hwf hdel
  have hres : (kvmmDelRange kernelPageMap (twoSlabs []) ⟨0x5000, 0x7000, 1⟩).map
      (fun s => (s.freeList, s.rangeCache.nbObjPerSlab, s.rangeCache.allocObjSize, s.rangeCache.slabList)) =
      some ([⟨0x4028, 0x6000, 2⟩], 203, 20, [secondSlab.give 0x5000, firstSlabWith []]) := by decide +kernel
  rw [heq, Option.map_some, Option.some_inj, Prod.mk.injEq, Prod.mk.injEq, Prod.mk.injEq] at hres
  obtain ⟨hlist, hnb, hsize, hslabs⟩ := hres
  have hempty : BecomesEmpty (twoSlabs []) s' secondSlab := by
    refine ⟨⟨0x5000, ⟨0, by show 0 < 203; decide, rfl⟩, fun hin => ?_⟩, fun a ha => ?_⟩
    · obtain ⟨i, -, hi⟩ := List.mem_map.mp hin
      omega
    · obtain ⟨i, hi, hai⟩ := ha
      have hi' : i < 203 := hi
      have hai' : a = 0x5000 + i * 20 := hai
      rintro ⟨slab, hs, hslot, hnot⟩
      rw [hslabs] at hs
      have hor : slab = secondSlab.give 0x5000 ∨ slab = firstSlabWith [] := by simpa using hs
      rcases hor with rfl | rfl
      · apply hnot
        cases i with
        | zero => exact List.mem_cons.mpr (.inl hai')
        | succ i => exact List.mem_cons_of_mem _ (List.mem_map.mpr ⟨i, List.mem_range.mpr (by omega), hai'.symm⟩)
      · obtain ⟨j, hj, haj⟩ := hslot
        rw [hnb] at hj
        rw [hsize] at haj
        have haj' : a = 0x4000 + j * 20 := haj
        omega
  have hpage : FreeAt s' 0x5000 := by
    refine (hfree 0x5000).mpr (.inr (.inr ⟨secondSlab, by simp [twoSlabs], hempty, ?_⟩))
    exact ⟨Nat.le_refl _, show 0x5000 < 0x5000 + 1 * 4096 by decide⟩
  obtain ⟨f, hf, hcov⟩ := hpage
  rw [hlist, List.mem_singleton] at hf
  subst hf
  exact absurd hcov.1 (by decide)

end Desiros.Mem
