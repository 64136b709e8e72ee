import Desiros.Mem.KvmmDel

/-!
# Allocating a range

`kvmm_new_range` moves the first free range that is large enough to the used list, or splits it with a structure
from the range cache. Where the cache falls to one free object it grows by a page, for which it calls
`kvmm_new_range` in between: that takes its page from the head of the free list, which may be the range that is
about to be split.
-/

namespace Desiros.Mem

open Desiros.Library KslabCache Kvmm

variable {W : Type} {s s' : Kvmm W} {held : List Nat} {r f : KvmmRange} {pre post : List KvmmRange} {a k : Nat} {e : Slack}

/-! ## Ranges that become used -/

/-- A free and a used range have different structures. -/
theorem KvmmInvWith.addr_ne (h : KvmmInvWith e s held []) (hf : f ∈ s.freeList) (hr : r ∈ s.usedList) : r.addr ≠ f.addr := by
  have hnodup := h.all_nodup
  unfold AddrNodup all at hnodup
  rw [List.append_nil, List.map_append, List.nodup_append] at hnodup
  exact fun he => hnodup.2.2 _ (List.mem_map_of_mem hf) _ (List.mem_map_of_mem hr) he.symm

/-- The range moved to the used list by `kvmm_new_range`. -/
def moveUsed (s : Kvmm W) (f : KvmmRange) : Kvmm W :=
  { s with
    freeList := deleteRange s.freeList f.addr
    usedList := insertRange s.usedList f
    slabOf := Function.update s.slabOf f.addr none }

theorem moveUsed_spec (h : DelInvWith e s held []) (hf : f ∈ s.freeList) (hpos : 0 < f.nbPages) :
    Freed e s [] (moveUsed s f) held [] ∧ Keeps s (moveUsed s f) ∧ Deletable (moveUsed s f) f := by
  have hfall : f ∈ s.all [] := mem_all.mpr (.inl hf)
  have hne : ∀ x ∈ s.usedList, x.base ≠ f.base := by
    intro x hx
    have hxall : x ∈ s.all [] := mem_all.mpr (.inr (.inl hx))
    have hxf : x ≠ f := fun he => h.inv.addr_ne hf hx (he ▸ rfl)
    have hap := h.inv.apart_of_ne hfall hxall (h.inv.not_fixed (.inl hf)) (Ne.symm hxf)
    exact hap.symm.base_ne (h.inv.used_pos hx) hpos
  obtain ⟨pre, post, hlist, hinsert, hasc⟩ := h.inv.used_ascending.insert h.inv.used_nodup hne
  have hperm : ((moveUsed s f).all []).Perm (s.all []) := by
    unfold all moveUsed
    dsimp only
    rw [hinsert, hlist, List.append_nil, List.append_nil]
    refine (List.Perm.append_left _ List.perm_middle).trans ?_
    refine List.perm_middle.trans ?_
    exact (deleteRange_perm h.inv.free_nodup hf).symm.append_right _
  have husedAsc : Ascending (moveUsed s f).usedList := by
    show Ascending (insertRange s.usedList f)
    rw [hinsert]
    exact hasc
  have hmem : ∀ x ∈ s.usedList, x ∈ insertRange s.usedList f := by
    intro x hx
    rw [hinsert]
    rw [hlist] at hx
    simp only [List.mem_append, List.mem_cons] at hx ⊢
    tauto
  have hslabOf : ∀ x ∈ s.usedList, (moveUsed s f).slabOf x.addr = s.slabOf x.addr :=
    fun x hx => Function.update_of_ne (h.inv.addr_ne hf hx) ..
  have hpos' : ∀ x ∈ (moveUsed s f).usedList ++ [], 0 < x.nbPages := by
    intro x hx
    rw [List.append_nil] at hx
    change x ∈ insertRange s.usedList f at hx
    rw [hinsert, List.mem_append, List.mem_cons] at hx
    rcases hx with hx | rfl | hx
    · exact h.inv.used_pos (hlist ▸ List.mem_append_left _ hx)
    · exact hpos
    · exact h.inv.used_pos (hlist ▸ List.mem_append_right _ hx)
  refine ⟨⟨⟨h.inv.move hperm hpos' (h.inv.free_ascending.deleteRange _) husedAsc
      (fun x hx => hmem x (h.inv.fixed_used x hx)) rfl fun slab hs => ?_,
    h.gaps.sublist List.filter_sublist⟩, covered_of_perm hperm, Nat.min_le_left _ _⟩,
    .of_used (fun x hx => hmem x hx.1) (fun _ hk => hk) fun x hx => hslabOf x hx.1, ?_, Function.update_self ..⟩
  · obtain ⟨r, hr, hbase, hpages, hslab, hor⟩ := h.inv.slab slab hs
    exact ⟨r, hmem r hr, hbase, hpages, (hslabOf r hr).trans hslab, hor⟩
  · show f ∈ insertRange s.usedList f
    rw [hinsert]
    exact List.mem_append_right _ List.mem_cons_self

/-- The range of `kvmm_new_range` split off a free one. -/
def splitRange (s : Kvmm W) (f : KvmmRange) (addr k : Nat) : Kvmm W :=
  { s with
    freeList := writeRange s.freeList f.addr fun r =>
      { r with
        base := r.base + k * nbBytesPerPage
        nbPages := r.nbPages - k }
    usedList := insertRange s.usedList ⟨addr, f.base, k⟩
    slabOf := Function.update s.slabOf addr none }

/-- What is left of the free range. -/
def splitRest (f : KvmmRange) (k : Nat) : KvmmRange :=
  { f with
    base := f.base + k * nbBytesPerPage
    nbPages := f.nbPages - k }

theorem splitRest_top (h : k ≤ f.nbPages) : (splitRest f k).top = f.top := by
  show f.base + k * nbBytesPerPage + (f.nbPages - k) * nbBytesPerPage = f.base + f.nbPages * nbBytesPerPage
  rw [Nat.add_assoc, ← Nat.add_mul, Nat.add_sub_cancel' h]

theorem splitRange_spec (h : DelInvWith e s (a :: held) []) (hlist : s.freeList = pre ++ f :: post) (hk : 0 < k)
    (hle : k ≤ f.nbPages) (hlt : ¬ e.empty → k < f.nbPages) :
    Freed e s [] (splitRange s f a k) held [] ∧ Keeps s (splitRange s f a k) ∧
      Deletable (splitRange s f a k) ⟨a, f.base, k⟩ ∧
      (splitRange s f a k).freeList = pre ++ splitRest f k :: post ∧
      TouchesNext (splitRange s f a k) ⟨a, f.base, k⟩ := by
  have hf : f ∈ s.freeList := by simp [hlist]
  have hfall : f ∈ s.all [] := mem_all.mpr (.inl hf)
  have hnodup := h.inv.free_nodup
  have hasc := h.inv.free_ascending
  have hgaps := h.gaps
  rw [hlist] at hnodup hasc hgaps
  have hbytes : 0 < k * nbBytesPerPage := Nat.mul_pos hk (by decide)
  have hrestTop : (splitRest f k).top = f.top := splitRest_top hle
  have hrestBase : (splitRest f k).base ≤ f.top := by
    rw [← hrestTop]
    exact KvmmRange.base_le_top _
  have hfree : (splitRange s f a k).freeList = pre ++ splitRest f k :: post := by
    show writeRange s.freeList f.addr _ = _
    rw [hlist, writeRange_append hnodup]
    rfl
  have hne : ∀ x ∈ s.usedList, x.base ≠ (⟨a, f.base, k⟩ : KvmmRange).base := by
    intro x hx
    have hxall : x ∈ s.all [] := mem_all.mpr (.inr (.inl hx))
    have hxf : x ≠ f := fun he => h.inv.addr_ne hf hx (he ▸ rfl)
    have hap := h.inv.apart_of_ne hfall hxall (h.inv.not_fixed (.inl hf)) (Ne.symm hxf)
    exact hap.symm.base_ne (h.inv.used_pos hx) (Nat.lt_of_lt_of_le hk hle)
  obtain ⟨upre, upost, hused, hinsert, huasc⟩ := h.inv.used_ascending.insert h.inv.used_nodup hne
  have hfreeAsc : Ascending (pre ++ splitRest f k :: post) := by
    obtain ⟨hpre, hfpost, hcross⟩ := List.pairwise_append.mp hasc
    obtain ⟨hfront, hpost⟩ := List.pairwise_cons.mp hfpost
    have hgap := (List.pairwise_cons.mp (List.pairwise_append.mp hgaps).2.1).1
    refine List.pairwise_append.mpr ⟨hpre, List.pairwise_cons.mpr ⟨fun y hy => ?_, hpost⟩, fun x hx y hy => ?_⟩
    · have := hgap y hy
      omega
    · cases List.mem_cons.mp hy with
      | inl he =>
        have := hcross x hx f List.mem_cons_self
        rw [he]
        show x.base < f.base + k * nbBytesPerPage
        omega
      | inr hin => exact hcross x hx y (List.mem_cons_of_mem _ hin)
  have hfreeGaps : Gaps (pre ++ splitRest f k :: post) := by
    obtain ⟨hpre, hfpost, hcross⟩ := List.pairwise_append.mp hgaps
    obtain ⟨hfront, hpost⟩ := List.pairwise_cons.mp hfpost
    refine List.pairwise_append.mpr ⟨hpre, List.pairwise_cons.mpr ⟨fun y hy => ?_, hpost⟩, fun x hx y hy => ?_⟩
    · rw [hrestTop]
      exact hfront y hy
    · cases List.mem_cons.mp hy with
      | inl he =>
        have := hcross x hx f List.mem_cons_self
        rw [he]
        show x.top < f.base + k * nbBytesPerPage
        omega
      | inr hin => exact hcross x hx y (List.mem_cons_of_mem _ hin)
  have hall : (s.all []).Perm (f :: (pre ++ post ++ s.usedList)) := by
    unfold all
    rw [hlist, List.append_nil]
    exact List.perm_middle.append_right _
  have hall' : ((splitRange s f a k).all []).Perm
      (⟨a, f.base, k⟩ :: splitRest f k :: (pre ++ post ++ s.usedList)) := by
    unfold all
    rw [hfree, List.append_nil]
    show (pre ++ splitRest f k :: post ++ insertRange s.usedList ⟨a, f.base, k⟩).Perm _
    rw [hinsert, hused]
    refine (List.Perm.append_left _ List.perm_middle).trans ?_
    refine List.perm_middle.trans (List.Perm.cons _ ?_)
    exact List.perm_middle.append_right _
  have husedAsc : Ascending (splitRange s f a k).usedList := by
    show Ascending (insertRange s.usedList ⟨a, f.base, k⟩)
    rw [hinsert]
    exact huasc
  have hmem : ∀ x ∈ s.usedList, x ∈ insertRange s.usedList ⟨a, f.base, k⟩ := by
    intro x hx
    rw [hinsert]
    rw [hused] at hx
    rcases List.mem_append.mp hx with hx | hx
    · exact List.mem_append_left _ hx
    · exact List.mem_append_right _ (List.mem_cons_of_mem _ hx)
  have hheld : ∀ x ∈ s.usedList, x.addr ≠ a := by
    intro x hx he
    have hd := (List.nodup_append.mp h.inv.nodup).2.2
    exact hd _ (List.mem_map_of_mem (mem_all.mpr (.inr (.inl hx)))) _ List.mem_cons_self he
  have hslabOf : ∀ x ∈ s.usedList, (splitRange s f a k).slabOf x.addr = s.slabOf x.addr :=
    fun x hx => Function.update_of_ne (hheld x hx) ..
  have hslab : ∀ slab ∈ s.rangeCache.slabList, (splitRange s f a k).HasRange slab := by
    intro slab hs
    obtain ⟨r, hr, hbase, hpages, hslab, hor⟩ := h.inv.slab slab hs
    exact ⟨r, hmem r hr, hbase, hpages, (hslabOf r hr).trans hslab, hor⟩
  have hpos : ∀ x ∈ (splitRange s f a k).usedList ++ [], 0 < x.nbPages := by
    intro x hx
    rw [List.append_nil] at hx
    change x ∈ insertRange s.usedList ⟨a, f.base, k⟩ at hx
    rw [hinsert, List.mem_append, List.mem_cons] at hx
    rcases hx with hx | rfl | hx
    · exact h.inv.used_pos (hused ▸ List.mem_append_left _ hx)
    · exact hk
    · exact h.inv.used_pos (hused ▸ List.mem_append_right _ hx)
  obtain ⟨hinv, hcov⟩ := h.inv.split hall hall' ⟨rfl, rfl⟩ rfl hk hle hlt hpos
    (h.inv.not_fixed (.inl hf)) (hfree ▸ hfreeAsc) husedAsc (fun x hx => hmem x (h.inv.fixed_used x hx)) rfl hslab
  refine ⟨⟨⟨hinv, hfree ▸ hfreeGaps⟩, hcov, Nat.min_le_left _ _⟩,
    .of_used (fun x hx => hmem x hx.1) (fun _ hk => hk) fun x hx => hslabOf x hx.1, ⟨?_, Function.update_self ..⟩,
    hfree, ?_⟩
  · show _ ∈ insertRange s.usedList _
    rw [hinsert]
    exact List.mem_append_right _ List.mem_cons_self
  · refine ⟨splitRest f k, ?_, rfl⟩
    rw [hfree]
    exact List.mem_append_right _ List.mem_cons_self

/-! ## The end of the call -/

/-- The pages of the new range are mapped, if they are to be mapped now. -/
def Maps (E : PageMap W) (w : W) (r : KvmmRange) (map : Bool) : Prop :=
  map = true → (mapPages E r.addr r.base 0 r.nbPages w).1 = true

/-- One page is mapped, if it is to be mapped now. -/
def MapsPage (E : PageMap W) (w : W) (vaddr : Nat) (map : Bool) : Prop := map = true → (E.mapPage w vaddr).1 = true

theorem Maps.page {E : PageMap W} {w : W} {map : Bool} (h : Maps E w r map) (hone : r.nbPages = 1) :
    MapsPage E w r.base map := by
  intro hmap
  have hmaps := h hmap
  rw [hone, mapPages, Nat.zero_mul, Nat.add_zero] at hmaps
  generalize E.mapPage w r.base = res at hmaps ⊢
  obtain ⟨ok, w'⟩ := res
  cases ok with
  | true => rfl
  | false => cases hmaps

theorem DelInvWith.setWorld {pending : List KvmmRange} (h : DelInvWith e s held pending) (w : W) :
    DelInvWith e { s with world := w } held pending := ⟨h.inv.setWorld w, h.gaps⟩

/-- The new range is there, or deleted again. -/
theorem mapNewRange_cases (E : PageMap W) (h : DelInvWith e s held []) (hr : Deletable s r) (hf : ¬ e.fixed r)
    (map : Bool) :
    (Maps E s.world r map ∧ ∃ w, mapNewRange E s r map = (some r, { s with world := w })) ∨
    (∃ s', mapNewRange E s r map = (none, s') ∧ Freed e s [] s' held [] ∧ Deleted s r s' ∧
      (TouchesNext s r → min (s.rangeCache.nbFreeObj + 1) 2 ≤ s'.rangeCache.nbFreeObj)) := by
  unfold mapNewRange Maps
  cases map with
  | false => exact Or.inl ⟨fun hmap => absurd hmap Bool.false_ne_true, s.world, rfl⟩
  | true =>
    rcases mapPages E r.addr r.base 0 r.nbPages s.world with ⟨ok, w⟩
    cases ok with
    | true => exact Or.inl ⟨fun _ => rfl, w, rfl⟩
    | false =>
      have hr' : Deletable { s with world := w } r := ⟨hr.used, hr.slab⟩
      obtain ⟨s', heq, hfreed, hdel, hplus⟩ := kvmmDelRange_spec E (h.setWorld w) hr' hf
      refine Or.inr ⟨s', ?_, ⟨hfreed.inv, hfreed.covered, hfreed.low⟩, ⟨hdel.used, hdel.keeps⟩, hplus⟩
      simp only [heq, if_true, Option.getD_some]

/-- What `kvmm_new_range` for `k` pages leaves, where the cache had `m` objects left at the end. -/
structure NewRange (e : Slack) (s : Kvmm W) (held : List Nat) (k m : Nat) (res : Option KvmmRange × Kvmm W) : Prop where
  inv : DelInvWith e res.2 held []
  covered : ∀ a, res.2.Covered [] a ↔ s.Covered [] a
  keeps : Keeps s res.2
  failed : res.1 = none → min (m + 1) 2 ≤ res.2.rangeCache.nbFreeObj
  range : ∀ r ∈ res.1, Deletable res.2 r ∧ r.nbPages = k ∧ min m 2 ≤ res.2.rangeCache.nbFreeObj
  fresh : ∀ r ∈ res.1, ¬ Foreign s r ∧ ¬ e.fixed r

/-- What the allocation of a structure leaves, for the split of a free range. -/
structure NewStruct (e : Slack) (s : Kvmm W) (held : List Nat) (f : KvmmRange) (k m : Nat) (res : Option Nat × Kvmm W) : Prop where
  covered : ∀ a, res.2.Covered [] a ↔ s.Covered [] a
  keeps : Keeps s res.2
  failed : res.1 = none → DelInvWith e res.2 held [] ∧ min (m + 1) 2 ≤ res.2.rangeCache.nbFreeObj
  struct : ∀ a ∈ res.1, DelInvWith e res.2 (a :: held) [] ∧ min m 2 ≤ res.2.rangeCache.nbFreeObj ∧
    ∃ f' ∈ res.2.freeList, f'.addr = f.addr ∧ k ≤ f'.nbPages ∧ (¬ e.empty → k < f'.nbPages)

theorem NewRange.low {m : Nat} {res : Option KvmmRange × Kvmm W} (h : NewRange e s held k m res) (hm : 2 ≤ m) :
    2 ≤ res.2.rangeCache.nbFreeObj := by
  cases hres : res.1 with
  | none =>
    have := h.failed hres
    omega
  | some r =>
    have := (h.range r hres).2.2
    omega

theorem NewRange.of_freed {m : Nat} (h : Freed e s [] s' held []) (hkeeps : Keeps s s')
    (hlow : min (m + 1) 2 ≤ s'.rangeCache.nbFreeObj) : NewRange e s held k m (none, s') :=
  ⟨h.inv, h.covered, hkeeps, fun _ => hlow, fun r hr => absurd hr (Option.not_mem_none r),
    fun r hr => absurd hr (Option.not_mem_none r)⟩

/-- The new range of a state where it may be deleted again. -/
theorem mapNewRange_spec (E : PageMap W) (map : Bool) {m : Nat} {s₁ : Kvmm W} (h : Freed e s [] s₁ held [])
    (hkeeps : Keeps s s₁) (hfresh : ¬ Foreign s r ∧ ¬ e.fixed r) (hr : Deletable s₁ r) (hm : min m 2 ≤ s₁.rangeCache.nbFreeObj)
    (hback : min (m + 1) 2 ≤ s₁.rangeCache.nbFreeObj ∨ TouchesNext s₁ r) :
    NewRange e s held r.nbPages m (mapNewRange E s₁ r map) := by
  rcases mapNewRange_cases E h.inv hr hfresh.2 map with ⟨-, w, heq⟩ | ⟨s', heq, hfreed, hdel, hplus⟩
  · rw [heq]
    refine ⟨h.inv.setWorld w, h.covered, hkeeps, fun hnone => absurd hnone (Option.some_ne_none r), fun x hx => ?_,
      fun x hx => ?_⟩
    · rw [Option.mem_some_iff] at hx
      rw [← hx]
      exact ⟨⟨hr.used, hr.slab⟩, rfl, hm⟩
    · rw [Option.mem_some_iff] at hx
      rwa [← hx]
  · rw [heq]
    have hkeeps' : Keeps s s' := by
      intro x hx
      obtain ⟨hx₁, hslab₁⟩ := hkeeps x hx
      obtain ⟨hx', hslab'⟩ := hdel.keeps x hx₁ fun he => hfresh.1 (he ▸ hx)
      exact ⟨hx', hslab'.trans hslab₁⟩
    apply NewRange.of_freed (h.trans hfreed) hkeeps'
    have hlow := hfreed.low
    rcases hback with hback | htouch
    · omega
    · have := hplus htouch
      omega

/-- **`kvmm_new_range`**, of an allocation that leaves the free range large enough. -/
theorem newRangeWith_spec {cacheAlloc : Kvmm W → Option Nat × Kvmm W} (E : PageMap W) (map : Bool) {m : Nat}
    (h : DelInvWith e s held []) (hlow : min (m + 1) 2 ≤ s.rangeCache.nbFreeObj)
    (halloc : ∀ f, (s.freeList.find? fun r => r.nbPages ≥ k) = some f → f.nbPages ≠ k → 0 < k →
      NewStruct e s held f k m (cacheAlloc s)) :
    NewRange e s held k m (newRangeWith cacheAlloc E s k map) := by
  have hrefl : Freed e s [] s held [] := ⟨h, fun _ => Iff.rfl, Nat.min_le_left _ _⟩
  unfold newRangeWith
  by_cases hk : k = 0
  · rw [if_pos hk]
    exact .of_freed hrefl (.refl s) hlow
  · rw [if_neg hk]
    have hkpos := Nat.pos_of_ne_zero hk
    cases hfind : s.freeList.find? fun r => r.nbPages ≥ k with
    | none => exact .of_freed hrefl (.refl s) hlow
    | some f =>
      have hf : f ∈ s.freeList := List.mem_of_find?_eq_some hfind
      dsimp only
      by_cases hexact : f.nbPages = k
      · rw [if_pos hexact]
        obtain ⟨hfreed, hkeeps, hdel⟩ := moveUsed_spec h hf (hexact ▸ hkpos)
        have hfresh : ¬ Foreign s f ∧ ¬ e.fixed f := ⟨fun hx => h.inv.addr_ne hf hx.1 rfl, h.inv.not_fixed (.inl hf)⟩
        have hspec := mapNewRange_spec E map (m := m) hfreed hkeeps hfresh hdel (by
          show _ ≤ s.rangeCache.nbFreeObj
          omega) (Or.inl hlow)
        rw [hexact] at hspec
        exact hspec
      · rw [if_neg hexact]
        have hstruct := halloc f hfind hexact hkpos
        generalize cacheAlloc s = res at hstruct ⊢
        obtain ⟨obj, s₁⟩ := res
        cases obj with
        | none =>
          obtain ⟨hinv, hmin⟩ := hstruct.failed rfl
          exact ⟨hinv, hstruct.covered, hstruct.keeps, fun _ => hmin, fun r hr => absurd hr (Option.not_mem_none r),
            fun r hr => absurd hr (Option.not_mem_none r)⟩
        | some addr =>
          obtain ⟨hinv, hmin, f', hf', haddr, hle, hlt⟩ := hstruct.struct addr rfl
          have hfound : findRange s₁.freeList f.addr = some f' := by
            rw [← haddr]
            exact findRange_of_mem hinv.inv.free_nodup hf'
          dsimp only
          rw [hfound]
          obtain ⟨pre, post, hlist⟩ := List.append_of_mem hf'
          obtain ⟨hfreed, hkeeps, hdel, -, htouch⟩ := splitRange_spec hinv hlist hkpos hle hlt
          have hfresh : ¬ Foreign s₁ ⟨addr, f'.base, k⟩ ∧ ¬ e.fixed ⟨addr, f'.base, k⟩ := by
            refine ⟨fun hx => ?_, hinv.inv.not_fixed_of_held List.mem_cons_self⟩
            have hd := (List.nodup_append.mp hinv.inv.nodup).2.2
            exact hd _ (List.mem_map_of_mem (mem_all.mpr (.inr (.inl hx.1)))) _ List.mem_cons_self rfl
          have hspec := mapNewRange_spec E map (m := m) hfreed hkeeps hfresh hdel hmin (Or.inr htouch)
          refine ⟨hspec.inv, fun a => (hspec.covered a).trans (hstruct.covered a), hstruct.keeps.trans hspec.keeps,
            hspec.failed, hspec.range, fun r hr => ⟨fun hx => ?_, (hspec.fresh r hr).2⟩⟩
          exact (hspec.fresh r hr).1 (hstruct.keeps r hx).1

/-! ## The range cache grows -/

section

variable {E : PageMap W} {newRange : Kvmm W → Nat → Bool → Option KvmmRange × Kvmm W} {m : Nat}

/-- With other than two free objects, the cache does not grow. -/
theorem cacheAllocWith_plain (hcache : RangeCacheOk s.rangeCache) (hpos : 0 < s.rangeCache.nbFreeObj)
    (hne : s.rangeCache.nbFreeObj ≠ 2) : ∃ obj c, cacheTakeObject s.rangeCache = some (obj, c) ∧
      cacheAllocWith newRange E s = (some obj, { s with rangeCache := c }) := by
  have hneeds := hcache.ok.not_needsSlab hpos
  obtain ⟨obj, c, htake⟩ := exists_cacheTakeObject hneeds
  obtain ⟨-, hparams, -, hcount, -⟩ := hcache.ok.take htake
  have hmin : c.minFreeObj = 2 := hparams.minFreeObj.trans hcache.minFree
  refine ⟨obj, c, htake, ?_⟩
  unfold cacheAllocWith cacheTakeEnsureMin cacheEnsureMin
  rw [hneeds, if_neg Bool.false_ne_true, htake]
  dsimp only
  rw [if_neg]
  omega

/-- With two free objects it takes one and grows. -/
theorem cacheAllocWith_grows (newRange : Kvmm W → Nat → Bool → Option KvmmRange × Kvmm W) {obj : Nat}
    {c : KslabCache (Option Nat)} (hcache : RangeCacheOk s.rangeCache)
    (htwo : s.rangeCache.nbFreeObj = 2) (htake : cacheTakeObject s.rangeCache = some (obj, c)) :
    cacheAllocWith newRange E s =
      if (cacheGrow newRange { s with rangeCache := c }).1 then (some obj, (cacheGrow newRange { s with rangeCache := c }).2)
      else (none, kvmmCacheFree E (cacheGrow newRange { s with rangeCache := c }).2 obj) := by
  obtain ⟨-, hparams, -, hcount, -⟩ := hcache.ok.take htake
  have hmin : c.minFreeObj = 2 := hparams.minFreeObj.trans hcache.minFree
  unfold cacheAllocWith cacheTakeEnsureMin cacheEnsureMin
  rw [hcache.ok.not_needsSlab (by omega), if_neg Bool.false_ne_true, htake]
  dsimp only
  rw [if_pos (by omega)]
  rcases cacheGrow newRange { s with rangeCache := c } with ⟨ok, s₁⟩
  cases ok <;> rfl

/-- Where only objects of the range cache change. -/
theorem KvmmInvWith.keeps_take {c : KslabCache (Option Nat)} {obj : Nat} {pending : List KvmmRange}
    (h : KvmmInvWith e s held pending) (htake : cacheTakeObject s.rangeCache = some (obj, c)) :
    Keeps s { s with rangeCache := c } := by
  obtain ⟨-, -, hkeys, -⟩ := h.cache.ok.take htake
  exact .of_used (fun r hr => hr.1) (fun k hk => hkeys.mem_iff.mp hk) fun _ _ => rfl

theorem newStruct_plain (h : DelInvWith e s held []) (hf : f ∈ s.freeList) (hlt : k < f.nbPages)
    (hpos : 0 < s.rangeCache.nbFreeObj) (hne : s.rangeCache.nbFreeObj ≠ 2)
    (hm : min m 2 + 1 ≤ s.rangeCache.nbFreeObj) : NewStruct e s held f k m (cacheAllocWith newRange E s) := by
  obtain ⟨obj, c, htake, heq⟩ := @cacheAllocWith_plain W s E newRange h.inv.cache hpos hne
  have hcount := (h.inv.cache.ok.take htake).2.2.2.1
  rw [heq]
  refine ⟨fun _ => Iff.rfl, h.inv.keeps_take htake, fun hnone => absurd hnone (Option.some_ne_none obj),
    fun x hx => ?_⟩
  rw [Option.mem_some_iff] at hx
  rw [← hx]
  refine ⟨⟨h.inv.take htake, h.gaps⟩, ?_, f, hf, rfl, Nat.le_of_lt hlt, fun _ => hlt⟩
  show _ ≤ c.nbFreeObj
  omega

/-- The page of a new slab is a used range, which the slab gets. -/
theorem KvmmInvWith.addSlab (h : KvmmInvWith e s held []) (hr : Deletable s r) (hf : ¬ e.fixed r)
    (hpages : r.nbPages = 1) :
    KvmmInvWith e { s with
      rangeCache := cacheAddSlab s.rangeCache r.base (r.base + s.rangeCache.slabBytes - sizeofKslab) (some r.addr)
      slabOf := Function.update s.slabOf r.addr
        (some (r.base + s.rangeCache.slabBytes - sizeofKslab)) } held [] := by
  have hrall : r ∈ s.all [] := mem_all.mpr (.inr (.inl hr.used))
  have hne : ∀ {r' : KvmmRange} {addr : Nat}, s.slabOf r'.addr = some addr → r'.addr ≠ r.addr := by
    intro r' addr hslab he
    rw [he, hr.slab] at hslab
    cases hslab
  have hapart : ∀ slab ∈ s.rangeCache.slabList, s.rangeCache.Apart
      (s.rangeCache.newSlab r.base (r.base + s.rangeCache.slabBytes - sizeofKslab) (some r.addr)) slab := by
    intro slab hs
    obtain ⟨r', hr', hbase', hpages', hslab', -⟩ := h.slab slab hs
    have hap := (h.apart_of_ne (mem_all.mpr (.inr (.inl hr'))) hrall (h.not_fixed_of_base hs hbase')
      fun he => hne hslab' (he ▸ rfl)).symm
    unfold KvmmRange.Apart KvmmRange.top at hap
    rw [hpages, hpages', Nat.one_mul, hbase'] at hap
    unfold KslabCache.Apart
    rw [h.slabBytes]
    exact hap
  have haddr : r.base + s.rangeCache.slabBytes - sizeofKslab + sizeofKslab = r.base + s.rangeCache.slabBytes := by
    rw [h.slabBytes]
    show r.base + 4096 - 28 + 28 = r.base + 4096
    omega
  obtain ⟨hok, halloc⟩ := h.cache.ok.add hapart fun _ => haddr
  refine ⟨h.apart, h.pos, h.free_pos, h.free_ascending, h.used_ascending, h.nodup,
    fun a ha => (halloc a).mpr (h.allocated a ha),
    ⟨hok, h.cache.onSlab, h.cache.pages, h.cache.minFree, h.cache.nbObj⟩, fun slab hs => ?_, h.fixed_used,
    fun x hx slab hs => ?_, h.structs⟩
  · cases List.mem_cons.mp hs with
    | inl he =>
      rw [he]
      exact ⟨r, hr.used, rfl, hpages, Function.update_self .., .inr rfl⟩
    | inr hin =>
      obtain ⟨r', hr', hbase', hpages', hslab', hor⟩ := h.slab slab hin
      refine ⟨r', hr', hbase', hpages', ?_, hor⟩
      show Function.update s.slabOf r.addr _ r'.addr = _
      rw [Function.update_of_ne (hne hslab'), hslab']
  · cases List.mem_cons.mp hs with
    | inl he =>
      rw [he]
      have hxused := h.fixed_used x hx
      have hap := h.apart_of_ne hrall (mem_all.mpr (.inr (.inl hxused))) hf fun he => hf (he ▸ hx)
      exact hap.base_ne (h.used_pos hr.used) (h.used_pos hxused)
    | inr hin => exact h.fixed_slab x hx slab hin

theorem foreign_addSlab {x : KvmmRange} {addr : Nat} (h : KvmmInvWith e s held []) (hr : Deletable s r)
    (hf : ¬ e.fixed r) (hx : Foreign s x) (hne : x ≠ r) :
    Foreign { s with
      rangeCache := cacheAddSlab s.rangeCache r.base addr (some r.addr)
      slabOf := Function.update s.slabOf r.addr (some addr) } x ∧
      Function.update s.slabOf r.addr (some addr) x.addr = s.slabOf x.addr := by
  refine ⟨⟨hx.1, fun slab hs => ?_⟩, Function.update_of_ne (fun he => hne ?_) ..⟩
  · cases List.mem_cons.mp hs with
    | inl he =>
      rw [he]
      have hap := h.apart_of_ne (mem_all.mpr (.inr (.inl hr.used))) (mem_all.mpr (.inr (.inl hx.1))) hf (Ne.symm hne)
      exact hap.base_ne (h.used_pos hr.used) (h.used_pos hx.1)
    | inr hin => exact hx.2 slab hin
  · exact h.used_nodup.eq_of_addr hx.1 hr.used he

/-- `cache_grow` takes a page, and then has enough free objects. -/
theorem cacheGrow_cases (hcache : RangeCacheOk s.rangeCache) (hnew : NewRange e s held 1 m
      (newRange s 1 (s.rangeCache.flags &&& (kslabCreateMap ||| kslabCreateZero) != 0))) :
    (newRange s 1 (s.rangeCache.flags &&& (kslabCreateMap ||| kslabCreateZero) != 0)).1 = none ∧
        (cacheGrow newRange s).1 = false ∧ (cacheGrow newRange s).2 =
          (newRange s 1 (s.rangeCache.flags &&& (kslabCreateMap ||| kslabCreateZero) != 0)).2 ∨
      (newRange s 1 (s.rangeCache.flags &&& (kslabCreateMap ||| kslabCreateZero) != 0)).1 ≠ none ∧
        (cacheGrow newRange s).1 = true ∧ DelInvWith e (cacheGrow newRange s).2 held [] ∧
        (∀ a, (cacheGrow newRange s).2.Covered [] a ↔ s.Covered [] a) ∧ Keeps s (cacheGrow newRange s).2 ∧
        2 ≤ (cacheGrow newRange s).2.rangeCache.nbFreeObj ∧ (cacheGrow newRange s).2.freeList =
          (newRange s 1 (s.rangeCache.flags &&& (kslabCreateMap ||| kslabCreateZero) != 0)).2.freeList := by
  unfold cacheGrow
  rw [hcache.pages]
  generalize newRange s 1 (s.rangeCache.flags &&& (kslabCreateMap ||| kslabCreateZero) != 0) = res at hnew ⊢
  obtain ⟨r, s₁⟩ := res
  cases r with
  | none => exact Or.inl ⟨rfl, rfl, rfl⟩
  | some r =>
    obtain ⟨hdel, hpages, -⟩ := hnew.range r rfl
    refine Or.inr ⟨Option.some_ne_none r, rfl, ⟨hnew.inv.inv.addSlab hdel (hnew.fresh r rfl).2 hpages, hnew.inv.gaps⟩, hnew.covered,
      fun x hx => ?_, ?_, rfl⟩
    · obtain ⟨hx₁, hslab₁⟩ := hnew.keeps x hx
      have hne : x ≠ r := fun he => (hnew.fresh r rfl).1 (he ▸ hx)
      obtain ⟨hx', hslab'⟩ := @foreign_addSlab _ _ _ _ _ _ (r.base + s₁.rangeCache.slabBytes - sizeofKslab)
        hnew.inv.inv hdel (hnew.fresh r rfl).2 hx₁ hne
      exact ⟨hx', hslab'.trans hslab₁⟩
    · have hobj : 2 ≤ s₁.rangeCache.nbObjPerSlab := hnew.inv.inv.cache.nbObj
      show 2 ≤ s₁.rangeCache.nbFreeObj + s₁.rangeCache.nbObjPerSlab
      omega

theorem mapNewRange_some {x : KvmmRange} {map : Bool} (h : (mapNewRange E s r map).1 = some x) :
    Maps E s.world r map ∧ (mapNewRange E s r map).2.freeList = s.freeList := by
  unfold mapNewRange Maps at *
  cases map with
  | false => exact ⟨fun hmap => absurd hmap Bool.false_ne_true, rfl⟩
  | true =>
    rw [if_pos rfl] at h ⊢
    generalize mapPages E r.addr r.base 0 r.nbPages s.world = res at h ⊢
    obtain ⟨ok, w⟩ := res
    cases ok with
    | true => exact ⟨fun _ => rfl, rfl⟩
    | false => cases h

/-- One page comes from the first range that has one. -/
theorem newRangeWith_one {map : Bool} {obj : Nat} {c : KslabCache (Option Nat)} {x : KvmmRange}
    {cacheAlloc : Kvmm W → Option Nat × Kvmm W} (h : KvmmInvWith e s held [])
    (halloc : cacheAlloc s = (some obj, { s with rangeCache := c }))
    (hsome : (newRangeWith cacheAlloc E s 1 map).1 = some x) :
    ∃ g, (s.freeList.find? fun r => r.nbPages ≥ 1) = some g ∧ MapsPage E s.world g.base map ∧
      (newRangeWith cacheAlloc E s 1 map).2.freeList =
        if g.nbPages = 1 then deleteRange s.freeList g.addr
        else writeRange s.freeList g.addr fun r => splitRest r 1 := by
  unfold newRangeWith at hsome ⊢
  rw [if_neg Nat.one_ne_zero] at hsome ⊢
  cases hfind : s.freeList.find? fun r => r.nbPages ≥ 1 with
  | none =>
    rw [hfind] at hsome
    cases hsome
  | some g =>
    rw [hfind] at hsome
    dsimp only at hsome ⊢
    refine ⟨g, rfl, ?_⟩
    by_cases hexact : g.nbPages = 1
    · rw [if_pos hexact] at hsome ⊢
      obtain ⟨hmaps, hfree⟩ := mapNewRange_some hsome
      refine ⟨hmaps.page hexact, ?_⟩
      rw [hfree, if_pos hexact]
    · rw [if_neg hexact, halloc] at hsome ⊢
      have hfound : findRange s.freeList g.addr = some g :=
        findRange_of_mem h.free_nodup (List.mem_of_find?_eq_some hfind)
      dsimp only at hsome ⊢
      rw [hfound] at hsome ⊢
      dsimp only at hsome ⊢
      obtain ⟨hmaps, hfree⟩ := mapNewRange_some hsome
      refine ⟨hmaps.page rfl, ?_⟩
      rw [hfree, if_neg hexact]
      rfl

end

/-! ## kvmm_new_range -/

/-- The cache is about to grow by the page that makes the first free range, at the head of the list, as small as the
request. -/
def Exhausts (E : PageMap W) (s : Kvmm W) (k : Nat) : Prop :=
  0 < k ∧ s.rangeCache.nbFreeObj = 2 ∧ ∃ f post, s.freeList = f :: post ∧ f.nbPages = k + 1 ∧
    MapsPage E s.world f.base (s.rangeCache.flags &&& (kslabCreateMap ||| kslabCreateZero) != 0)

section

variable {E : PageMap W}

/-- The call inside, for a page of the range cache. -/
theorem kvmmNewRange_inner (depth : Nat) (h : DelInvWith e s held []) (hone : s.rangeCache.nbFreeObj = 1) (map : Bool) :
    NewRange e s held 1 0 (kvmmNewRange E (depth + 1) s 1 map) := by
  apply newRangeWith_spec E map h (by omega)
  intro f hfind hne hk
  have hge : f.nbPages ≥ 1 := by simpa using List.find?_some hfind
  exact newStruct_plain h (List.mem_of_find?_eq_some hfind) (by omega) (by omega) (by omega) (by omega)

theorem kvmmNewRange_inner_some (depth : Nat) (h : DelInvWith e s held []) (hone : s.rangeCache.nbFreeObj = 1)
    {map : Bool} {x : KvmmRange} (hsome : (kvmmNewRange E (depth + 1) s 1 map).1 = some x) :
    ∃ g, (s.freeList.find? fun r => r.nbPages ≥ 1) = some g ∧ MapsPage E s.world g.base map ∧
      (kvmmNewRange E (depth + 1) s 1 map).2.freeList =
        if g.nbPages = 1 then deleteRange s.freeList g.addr
        else writeRange s.freeList g.addr fun r => splitRest r 1 := by
  obtain ⟨obj, c, -, heq⟩ := @cacheAllocWith_plain W s E (kvmmNewRange E depth) h.inv.cache (by omega) (by omega)
  exact newRangeWith_one h.inv heq hsome

/-- The free range that was found is still there after the cache took a page, which may be one of its. -/
theorem exists_still_free {l : List KvmmRange} {g : KvmmRange} (hn : AddrNodup l) (hf : f ∈ l) (hg : g ∈ l)
    (hlt : k < f.nbPages) (hk : 0 < k) :
    ∃ f' ∈ (if g.nbPages = 1 then deleteRange l g.addr else writeRange l g.addr fun r => splitRest r 1),
      f'.addr = f.addr ∧ k ≤ f'.nbPages ∧ (k < f'.nbPages ∨ g = f ∧ f.nbPages = k + 1) ∧
        f'.base = if g = f then f.base + nbBytesPerPage else f.base := by
  by_cases heq : g = f
  · subst heq
    rw [if_neg (by omega)]
    refine ⟨splitRest g 1, List.mem_map.mpr ⟨g, hf, if_pos rfl⟩, rfl, ?_, ?_, ?_⟩
    · show k ≤ g.nbPages - 1
      omega
    · show k < g.nbPages - 1 ∨ _
      by_cases hlast : g.nbPages = k + 1
      · exact Or.inr ⟨rfl, hlast⟩
      · left
        omega
    · rw [if_pos rfl]
      exact congrArg (g.base + ·) (Nat.one_mul _)
  · have hne : f.addr ≠ g.addr := fun he => heq (hn.eq_of_addr hg hf he.symm)
    refine ⟨f, ?_, rfl, Nat.le_of_lt hlt, Or.inl hlt, (if_neg heq).symm⟩
    split_ifs
    · exact List.mem_filter.mpr ⟨hf, by simpa using hne⟩
    · exact List.mem_map.mpr ⟨f, hf, if_neg hne⟩

/-- Where no free range is without a page, the first that has one is the first. -/
theorem KvmmInvWith.head_of_find {g : KvmmRange} (h : KvmmInvWith e s held []) (he : ¬ e.empty)
    (hfind : (s.freeList.find? fun r => r.nbPages ≥ 1) = some g) : ∃ post, s.freeList = g :: post := by
  have hpos := h.free_pos he
  cases hlist : s.freeList with
  | nil =>
    rw [hlist] at hfind
    cases hfind
  | cons x post =>
    rw [hlist] at hfind hpos
    have hx : 1 ≤ x.nbPages := hpos x List.mem_cons_self
    rw [List.find?_cons_of_pos (by simpa using hx)] at hfind
    exact ⟨post, by rw [Option.some.inj hfind]⟩

/-- A structure for the split, with the growth of the cache it may need. -/
theorem newStruct_spec (depth : Nat) (h : DelInvWith e s held []) (hlow : 2 ≤ s.rangeCache.nbFreeObj)
    (hgood : ¬ e.empty → ¬ Exhausts E s k) (hf : f ∈ s.freeList) (hlt : k < f.nbPages) (hk : 0 < k) :
    NewStruct e s held f k 2 (cacheAllocWith (kvmmNewRange E (depth + 1)) E s) := by
  by_cases hne : s.rangeCache.nbFreeObj ≠ 2
  · exact newStruct_plain h hf hlt (by omega) hne (by omega)
  · rw [not_not] at hne
    have hneeds := h.inv.cache.ok.not_needsSlab (by omega : 0 < s.rangeCache.nbFreeObj)
    obtain ⟨obj, c, htake⟩ := exists_cacheTakeObject hneeds
    obtain ⟨-, hparams, -, hcount, -⟩ := h.inv.cache.ok.take htake
    have hmin : c.minFreeObj = 2 := hparams.minFreeObj.trans h.inv.cache.minFree
    have hflags : c.flags = s.rangeCache.flags := by rw [hparams]
    have hinv : DelInvWith e { s with rangeCache := c } (obj :: held) [] := ⟨h.inv.take htake, h.gaps⟩
    have hkeeps : Keeps s { s with rangeCache := c } := h.inv.keeps_take htake
    have hone : ({ s with rangeCache := c } : Kvmm W).rangeCache.nbFreeObj = 1 := by
      show c.nbFreeObj = 1
      omega
    have hnew := kvmmNewRange_inner (E := E) depth hinv hone
      (c.flags &&& (kslabCreateMap ||| kslabCreateZero) != 0)
    have heq := cacheAllocWith_grows (E := E) (kvmmNewRange E (depth + 1)) h.inv.cache hne htake
    rw [heq]
    rcases cacheGrow_cases hinv.inv.cache hnew with ⟨hnone, hfalse, hstate⟩ |
      ⟨hsome, htrue, hinv', hcov, hkeeps', hmany, hfree⟩
    · have hfailed := hnew.failed hnone
      have hcov' := hnew.covered
      have hinv' := hnew.inv
      have hkeeps' := hnew.keeps
      rw [← hstate] at hfailed hcov' hinv' hkeeps'
      obtain ⟨hfreed, hshrinks, hback⟩ := kvmmCacheFree_freed E hinv'
      rw [hfalse, if_neg Bool.false_ne_true]
      refine ⟨fun a => (hfreed.covered a).trans (hcov' a), hkeeps.trans (hkeeps'.trans hshrinks.keeps),
        fun _ => ⟨hfreed.inv, ?_⟩, fun x hx => absurd hx (Option.not_mem_none x)⟩
      dsimp only
      omega
    · obtain ⟨x, hx⟩ := Option.ne_none_iff_exists'.mp hsome
      obtain ⟨g, hfind, hmaps, hlist⟩ := kvmmNewRange_inner_some depth hinv hone hx
      rw [hflags] at hmaps
      obtain ⟨f', hf', haddr, hle, hor, -⟩ := exists_still_free h.inv.free_nodup hf (List.mem_of_find?_eq_some hfind) hlt hk
      have hmany' : min 2 2 ≤ (cacheGrow (kvmmNewRange E (depth + 1)) { s with rangeCache := c }).2.rangeCache.nbFreeObj :=
        hmany
      rw [htrue, if_pos rfl]
      refine ⟨hcov, hkeeps.trans hkeeps', fun hnone => absurd hnone (Option.some_ne_none obj), fun y hy => ?_⟩
      rw [Option.mem_some_iff] at hy
      rw [← hy]
      refine ⟨hinv', hmany', f', ?_, haddr, hle, fun he => hor.resolve_right fun hlast => ?_⟩
      · rw [hfree, hlist]
        exact hf'
      · obtain ⟨post, hhead⟩ := h.inv.head_of_find he hfind
        exact hgood he ⟨hk, hne, g, post, hhead, hlast.1 ▸ hlast.2, hmaps⟩

/-- **`kvmm_new_range`** keeps the lists as they should be, though a free range may lose its last page where the cache
takes the page it would leave. -/
theorem kvmmNewRange_spec (depth : Nat) (h : DelInvWith e s held []) (hlow : 2 ≤ s.rangeCache.nbFreeObj)
    (hgood : ¬ e.empty → ¬ Exhausts E s k) (map : Bool) : NewRange e s held k 2 (kvmmNewRange E (depth + 2) s k map) := by
  apply newRangeWith_spec E map h (by omega)
  intro f hfind hne hk
  have hge : f.nbPages ≥ k := by simpa using List.find?_some hfind
  exact newStruct_spec depth h hlow hgood (List.mem_of_find?_eq_some hfind) (by omega) hk

end

end Desiros.Mem
