import Desiros.Mem.MapUndo
import Desiros.Mem.PageFault
import Desiros.Mem.PagingRuns
import Mathlib.Order.Interval.Finset.Nat

/-!
# The resident set of an address space

`phys_total` grows by a page for each fault that `uvmm_lazy_loading` resolves, and shrinks by what
`paging_unmap_interval` reports: all pages of the interval, present or not. So it counts the present pages of the
arenas in the runs where only present pages are unmapped and only absent pages of arenas are faulted in
(`ResidentGood`).
-/

namespace Desiros.Mem

open Desiros.Library

variable {W : Type}

/-- `v` is the address of a page of user space. -/
def UserPage (v : UInt32) : Prop := userOffset ≤ v ∧ isPageAligned v = true

/-- The same user pages are present. -/
def SameUserPages (g g' : Paging) : Prop := ∀ v, UserPage v → (g'.pte v).present = (g.pte v).present

/-- The environment works on the page tables that `paging` reads off the world. A `no_page` callback that
succeeds maps the page of the fault; nothing else that `uvmm.c` calls touches the pages of user space. -/
structure PagedEnv (E : UvmmEnv W) (paging : W → Paging) : Prop where
  unmapInterval : ∀ vaddr size w,
    (E.pagingUnmapInterval vaddr size w).1 = (pagingUnmapInterval (paging w) vaddr size).1 ∧
      paging (E.pagingUnmapInterval vaddr size w).2 = (pagingUnmapInterval (paging w) vaddr size).2
  noPage : ∀ o a uaddr writeAccess w v, UserPage v →
    (((paging (E.noPage o a uaddr writeAccess w).2).pte v).present = true ↔
      ((paging w).pte v).present = true ∨ (E.noPage o a uaddr writeAccess w).1 = 0 ∧ v = pageAlignInf uaddr)
  allocArena : ∀ w, SameUserPages (paging w) (paging (E.allocArena w).2)
  freeArena : ∀ a w, SameUserPages (paging w) (paging (E.freeArena a w))
  mmap : ∀ o a w, SameUserPages (paging w) (paging (E.mmap o a w).2.2)
  ref : ∀ o a w, SameUserPages (paging w) (paging (E.ref o a w))
  unref : ∀ o a w, SameUserPages (paging w) (paging (E.unref o a w))
  unmap : ∀ o a uaddr size w, SameUserPages (paging w) (paging (E.unmap o a uaddr size w))
  resourceAddTail : ∀ a w, SameUserPages (paging w) (paging (E.resourceAddTail a w))
  resourceDelete : ∀ a w, SameUserPages (paging w) (paging (E.resourceDelete a w))

/-- Some arena contains the address. -/
def Covered (l : List UvmmArena) (p : Nat) : Prop := ∃ a ∈ l, a.Contains p

/-- The pages of the arenas that are present in the page tables. -/
def residentPages (l : List UvmmArena) (g : Paging) : Set UInt32 :=
  {v | UserPage v ∧ Covered l v.toNat ∧ (g.pte v).present = true}

inductive ResidentOp
  | fault (uaddr : UInt32) (writeAccess userAccess : Bool)
  | map (hintUaddr size accessRights flags : UInt32) (resource : Option UvmmMappedResource)
      (offsetInResource : UInt64)
  | unmap (uaddr size : UInt32)

/-- A page fault of the process that owns the address space. -/
def UvmmState.fault (E : UvmmEnv W) (s : UvmmState W) (uaddr : UInt32) (writeAccess userAccess : Bool) :
    UvmmState W :=
  let r := uvmmLazyLoading E { current := some (some s.addressSpace), world := s.world } uaddr writeAccess userAccess
  { s with
    addressSpace := r.state.current.join.getD s.addressSpace
    world := r.state.world }

def residentStep (E : UvmmEnv W) (s : UvmmState W) : ResidentOp → UvmmState W
  | .fault uaddr writeAccess userAccess => s.fault E uaddr writeAccess userAccess
  | .map hintUaddr size accessRights flags resource offsetInResource =>
    (uvmmMap E s hintUaddr size accessRights flags resource offsetInResource).2.2
  | .unmap uaddr size => (uvmmUnmap E s uaddr size).2

/-- The tests of `uvmm_unmap` pass. -/
def UnmapRuns (E : UvmmEnv W) (s : UvmmState W) (uaddr size : UInt32) : Prop :=
  isPageAligned uaddr = true ∧ 0 < size ∧ userOffset ≤ uaddr ∧ uaddr ≤ pagingTopUserAddress - pageAlignSup size ∧
    (s.allocArena E).1 = true

/-- All pages of the region belong to arenas and are present. -/
def AllResident (paging : W → Paging) (s : UvmmState W) (uaddr size : UInt32) : Prop :=
  ∀ v, isPageAligned v = true → uaddr.toNat ≤ v.toNat → v.toNat < uaddr.toNat + size.toNat →
    v ∈ residentPages s.addressSpace.listArena (paging s.world)

/-- The condition on a call. A fault that `no_page` resolves is one of an absent page of an arena. What is unmapped
is present, also where a fixed mapping is made. A mapping has a place of its own (`MapGood`), and is not refused. -/
def ResidentGood (E : UvmmEnv W) (paging : W → Paging) (s : UvmmState W) : ResidentOp → Prop
  | .fault uaddr writeAccess _ =>
    ∀ a ∈ findFirstIntersectingArena s.addressSpace.listArena uaddr 1,
      (callNoPage E a uaddr writeAccess s.world).1 = 0 →
        a.Contains uaddr.toNat ∧ ((paging s.world).pte (pageAlignInf uaddr)).present = false
  | .unmap uaddr size => UnmapRuns E s uaddr size → AllResident paging s uaddr (pageAlignSup size)
  | .map hintUaddr size accessRights flags resource offsetInResource =>
    ∀ res, uvmmMapCheck hintUaddr size accessRights flags resource offsetInResource = .ok res →
      (s.allocArena E).1 = true →
      let m := fun uaddr => askedMapping uaddr size accessRights flags res offsetInResource s.nextId
      let s' := (s.allocArena E).2
      MapGood s.addressSpace.listArena hintUaddr size flags ∧
        if hasFlag (flags &&& (arenaMapShared ||| arenaMapFixed)) arenaMapFixed then
          UnmapRuns E s' hintUaddr (pageAlignSup size) →
            AllResident paging s hintUaddr (pageAlignSup size) ∧
              Accepted E (uvmmUnmap E s' hintUaddr (pageAlignSup size)).2 (m hintUaddr)
        else
          let uaddr := findFirstFreeInterval s.addressSpace.listArena hintUaddr (pageAlignSup size)
          uaddr ≠ 0 → Accepted E s' (m uaddr)

/-- `phys_total` is the size of the resident set. -/
def ResidentTotal (paging : W → Paging) (s : UvmmState W) : Prop :=
  s.addressSpace.physTotal.toNat = 4096 * (residentPages s.addressSpace.listArena (paging s.world)).ncard

/-- After the call `phys_total` is the size of the resident set, and unmapping did not take it below zero. -/
def ResidentLaw (E : UvmmEnv W) (paging : W → Paging) (s : UvmmState W) (op : ResidentOp) : Prop :=
  ResidentTotal paging (residentStep E s op) ∧
    ((∀ uaddr writeAccess userAccess, op ≠ .fault uaddr writeAccess userAccess) →
      (residentStep E s op).addressSpace.physTotal ≤ s.addressSpace.physTotal)

/-- What holds of the address space in between. -/
structure Resident (paging : W → Paging) (s : UvmmState W) : Prop where
  inv : Inv s
  covered : ∀ v, UserPage v → ((paging s.world).pte v).present = true → Covered s.addressSpace.listArena v.toNat
  total : ResidentTotal paging s

/-! ## The page tables -/

section

variable {g : Paging} {vaddr size : UInt32}

theorem clearPages_present (w : UInt32) : ∀ (pages : List UInt32) (g : Paging),
    (∀ v ∈ pages, isPageAligned v = true) →
      (((clearPages g pages).pte w).present = true ↔ (g.pte w).present = true ∧ w ∉ pages) := by
  intro pages
  induction pages with
  | nil => exact fun g _ => (and_iff_left List.not_mem_nil).symm
  | cons v pages ih =>
    intro g haligned
    have hv := haligned v List.mem_cons_self
    have hstep : ((pagingUnmap g v).2.pte w).present = true ↔ (g.pte w).present = true ∧ w ≠ v := by
      rw [pagingUnmap_of_aligned hv]
      by_cases hw : w = v
      · subst hw
        simp only [Function.update_self, ne_eq, not_true, and_false, Bool.false_eq_true]
      · simp only [Function.update_of_ne hw, ne_eq, hw, not_false_eq_true, and_true]
    have hrest := ih (pagingUnmap g v).2 fun u hu => haligned u (List.mem_cons_of_mem v hu)
    rw [List.mem_cons, not_or, ← and_assoc, ← hstep]
    exact hrest

theorem pagingUnmapLoop_fst (n : Nat) : ∀ (v retval : UInt32) (g : Paging), isPageAligned v = true →
    (pagingUnmapLoop n v retval g).1 = retval + UInt32.ofNat (n * 4096) := by
  induction n with
  | zero =>
    intro v retval g _
    simp [pagingUnmapLoop]
  | succ n ih =>
    intro v retval g hv
    have hzero : (pagingUnmap g v).1 = 0 := by rw [pagingUnmap_of_aligned hv]
    simp only [pagingUnmapLoop]
    rw [if_pos hzero.symm, ih _ _ _ (isPageAligned_add_pageSize hv), Nat.succ_mul, UInt32.ofNat_add]
    have hpage : pageSize = UInt32.ofNat 4096 := rfl
    rw [hpage]
    ac_rfl

/-- The interval is reported in full, and its pages are absent afterwards. -/
theorem pagingUnmapInterval_region (hr : Region vaddr size) (g : Paging) :
    (pagingUnmapInterval g vaddr size).1 = size ∧ ∀ v, isPageAligned v = true →
      (((pagingUnmapInterval g vaddr size).2.pte v).present = true ↔ (g.pte v).present = true ∧
        ¬ (vaddr.toNat ≤ v.toNat ∧ v.toNat < vaddr.toNat + size.toNat)) := by
  have haligned : ∀ w, isPageAligned w = true ↔ w.toNat % 4096 = 0 := isAligned_iff
  have hv : isPageAligned vaddr = true := (haligned _).mpr hr.aligned
  have hs : isPageAligned size = true := (haligned _).mpr hr.size_aligned
  have hdiv : (size / pageSize).toNat = size.toNat / 4096 := UInt32.toNat_div ..
  have hmul : size.toNat / 4096 * 4096 = size.toNat := by
    have := hr.size_aligned
    omega
  have htop := hr.top
  have heq : pagingUnmapInterval g vaddr size = pagingUnmapLoop (size / pageSize).toNat vaddr 0 g := by
    simp only [pagingUnmapInterval, hv, hs, Bool.not_true, Bool.false_eq_true, if_false]
  rw [heq, hdiv]
  constructor
  · rw [pagingUnmapLoop_fst _ _ _ _ hv, hmul, UInt32.ofNat_toNat, UInt32.zero_add]
  · intro v hva
    rw [pagingUnmapLoop_state, clearPages_present v _ _ (pagesFrom_aligned _ _ hv),
      mem_pagesFrom _ _ hv (by omega), hmul]
    simp only [hva, true_and]

/-- The pages of a region, counted. -/
theorem ncard_region (hr : Region vaddr size) :
    {v : UInt32 | isPageAligned v = true ∧ vaddr.toNat ≤ v.toNat ∧ v.toNat < vaddr.toNat + size.toNat}.ncard * 4096 =
      size.toNat := by
  have haligned : ∀ w, isPageAligned w = true ↔ w.toNat % 4096 = 0 := isAligned_iff
  have hv : isPageAligned vaddr = true := (haligned _).mpr hr.aligned
  have hmul : size.toNat / 4096 * 4096 = size.toNat := by
    have := hr.size_aligned
    omega
  have htop := hr.top
  have hset : {v : UInt32 | isPageAligned v = true ∧ vaddr.toNat ≤ v.toNat ∧ v.toNat < vaddr.toNat + size.toNat} =
      ((pagesFrom (size.toNat / 4096) vaddr).toFinset : Set UInt32) := by
    ext v
    rw [List.coe_toFinset, Set.mem_ofPred_eq, Set.mem_ofPred_eq, mem_pagesFrom _ _ hv (by omega), hmul]
  have hlength : ∀ n v, (pagesFrom n v).length = n := by
    intro n
    induction n with
    | zero => exact fun _ => rfl
    | succ n ih => exact fun v => congrArg Nat.succ (ih _)
  rw [hset, Set.ncard_coe_finset, List.toFinset_card_of_nodup (pagesFrom_nodup _ _ hv (by omega)), hlength, hmul]

/-- There are no more pages than user space has. -/
theorem ncard_userPages_le {S : Set UInt32} (hS : ∀ v ∈ S, UserPage v) : S.ncard ≤ 786432 := by
  have hsub : S ⊆ ((Finset.Ico 262144 1048576).image fun n => UInt32.ofNat (n * 4096) : Finset UInt32) := by
    intro v hv
    obtain ⟨huser, haligned⟩ := hS v hv
    have hv4096 : v.toNat % 4096 = 0 := (isAligned_iff v).mp haligned
    have hlt := word_lt v
    rw [word_le_iff, toNat_userOffset] at huser
    rw [Finset.coe_image]
    refine ⟨v.toNat / 4096, by simp only [Finset.coe_Ico, Set.mem_Ico]; omega, ?_⟩
    show UInt32.ofNat (v.toNat / 4096 * 4096) = v
    rw [show v.toNat / 4096 * 4096 = v.toNat by omega, UInt32.ofNat_toNat]
  have hcard := Set.ncard_le_ncard hsub
  rw [Set.ncard_coe_finset] at hcard
  exact hcard.trans (Finset.card_image_le.trans (by rw [Nat.card_Ico]))

end

/-! ## Unmapping a region -/

section

variable {E : UvmmEnv W} {paging : W → Paging} {s : UvmmState W} {uaddr size : UInt32} {preId : Nat}

theorem SameUserPages.refl (g : Paging) : SameUserPages g g := fun _ _ => rfl

theorem SameUserPages.trans {g g' g'' : Paging} (h : SameUserPages g g') (h' : SameUserPages g' g'') :
    SameUserPages g g'' := fun v hv => (h' v hv).trans (h v hv)

theorem PagedEnv.callOps (ops : Option Nat) {f : Nat → W → W}
    (hf : ∀ o w, SameUserPages (paging w) (paging (f o w))) (w : W) :
    SameUserPages (paging w) (paging (callOps ops f w)) := by
  cases ops with
  | none => exact .refl _
  | some o => exact hf o w

theorem PagedEnv.removeArena (hE : PagedEnv E paging) (s : UvmmState W) (a : UvmmArena) :
    SameUserPages (paging s.world) (paging (s.removeArena E a).world) := by
  refine .trans (PagedEnv.callOps a.ops (fun o w => hE.unmap o a a.start a.size w) s.world) ?_
  refine .trans (hE.resourceDelete a _) ?_
  exact .trans (PagedEnv.callOps a.ops (fun o w => hE.unref o a w) _) (hE.freeArena a _)

@[simp] theorem asAccountChangeOfArenaProt_physTotal (as : UvmmAs) (isShared : Bool) (size prev new : UInt32) :
    (asAccountChangeOfArenaProt as isShared size prev new).physTotal = as.physTotal := by
  unfold asAccountChangeOfArenaProt
  split_ifs <;> rfl

/-- The walk over the arenas leaves the page tables and the counter alone. -/
theorem PagedEnv.unmapWalk (hE : PagedEnv E paging) (l : List UvmmArena) : ∀ k : UnmapWalk W,
    SameUserPages (paging k.state.world) (paging (unmapWalk E uaddr size preId l k).2.state.world) ∧
      (unmapWalk E uaddr size preId l k).2.state.addressSpace.physTotal = k.state.addressSpace.physTotal := by
  induction l with
  | nil => exact fun k => ⟨.refl _, rfl⟩
  | cons a l ih =>
    intro k
    rw [Mem.unmapWalk]
    split_ifs
    · exact ⟨.refl _, rfl⟩
    · exact ⟨.refl _, rfl⟩
    · obtain ⟨hpages, htotal⟩ := ih { k with state := k.state.removeArena E a }
      refine ⟨(hE.removeArena k.state a).trans hpages, htotal.trans ?_⟩
      simp [UvmmState.removeArena, UvmmState.accountUnmapped]
    · refine ⟨?_, by simp [UvmmState.accountUnmapped]⟩
      refine .trans (hE.resourceAddTail (splitRight uaddr size preId a) k.state.world) ?_
      refine .trans (PagedEnv.callOps (splitLeft uaddr a).ops
        (fun o w => hE.unmap o (splitLeft uaddr a) uaddr size w) _) ?_
      exact PagedEnv.callOps (splitRight uaddr size preId a).ops
        (fun o w => hE.ref o (splitRight uaddr size preId a) w) _
    · refine ⟨?_, by simp [UvmmState.accountUnmapped]⟩
      exact PagedEnv.callOps _ (fun o w => hE.unmap o (shiftStart uaddr size a) (uaddr + size)
        (uaddr + size - a.start) w) _
    · obtain ⟨hpages, htotal⟩ := ih { k with
        state := ({ k.state with
          world := Mem.callOps (splitLeft uaddr a).ops (fun o => E.unmap o (splitLeft uaddr a) uaddr
            (a.start + a.size - uaddr)) k.state.world } : UvmmState W).accountUnmapped (splitLeft uaddr a)
              (a.start + a.size - uaddr) }
      refine ⟨.trans ?_ hpages, htotal.trans (by simp [UvmmState.accountUnmapped])⟩
      exact PagedEnv.callOps _ (fun o w => hE.unmap o (splitLeft uaddr a) uaddr (a.start + a.size - uaddr) w) _

theorem covered_iff_meaning (l : List UvmmArena) (p : Nat) : Covered l p ↔ meaning l p ≠ none := by
  have hentry : ∀ a : UvmmArena, ¬ a.entryAt p = none ↔ a.Contains p := by
    intro a
    rw [UvmmArena.entryAt_eq, ite_eq_right_iff]
    simp [UvmmArena.Contains]
  rw [meaning, ne_eq, List.head?_eq_none_iff, entriesAt, List.filterMap_eq_nil_iff]
  simp only [Covered, not_forall, hentry, exists_prop]

/-- Outside the region the same addresses are covered. -/
theorem covered_flatMap_cut (hr : Region uaddr size) {l : List UvmmArena} (hok : ∀ a ∈ l, a.Ok) {p : Nat}
    (hp : ¬ (uaddr.toNat ≤ p ∧ p < uaddr.toNat + size.toNat)) :
    Covered (l.flatMap (cut uaddr size preId)) p ↔ Covered l p := by
  rw [covered_iff_meaning, covered_iff_meaning, meaning_flatMap_cut hr hok preId hp]

/-- Unmapping a region takes its size off the counter and its pages out of the page tables. -/
theorem unmapRegion_resident (hE : PagedEnv E paging) (h : Inv s) (hr : Region uaddr size) (preId : Nat) :
    let s' := unmapRegion E s uaddr size preId
    s'.addressSpace.physTotal = s.addressSpace.physTotal - size ∧
      (∀ v, UserPage v → (((paging s'.world).pte v).present = true ↔ ((paging s.world).pte v).present = true ∧
        ¬ (uaddr.toNat ≤ v.toNat ∧ v.toNat < uaddr.toNat + size.toNat))) ∧
      ∀ p, ¬ (uaddr.toNat ≤ p ∧ p < uaddr.toNat + size.toNat) →
        (Covered s'.addressSpace.listArena p ↔ Covered s.addressSpace.listArena p) := by
  intro s'
  obtain ⟨k, hk⟩ : ∃ k, k = (unmapWalk E uaddr size preId (arenasFrom s.addressSpace.listArena uaddr)
    ⟨s, false⟩).2.state := ⟨_, rfl⟩
  obtain ⟨hwalk, hwtotal⟩ := @PagedEnv.unmapWalk _ E paging uaddr size preId hE
    (arenasFrom s.addressSpace.listArena uaddr) ⟨s, false⟩
  rw [← hk] at hwalk hwtotal
  obtain ⟨hreport, hafter⟩ := hE.unmapInterval uaddr size k.world
  obtain ⟨hsize, hregion⟩ := pagingUnmapInterval_region hr (paging k.world)
  refine ⟨?_, fun v hv => ?_, fun p hp => ?_⟩
  · have htotal : s'.addressSpace.physTotal =
        k.addressSpace.physTotal - (E.pagingUnmapInterval uaddr size k.world).1 := by
      show (unmapRegion E s uaddr size preId).addressSpace.physTotal = _
      rw [hk]
      simp only [unmapRegion]
      split_ifs <;> rfl
    rw [htotal, hreport, hsize, hwtotal]
  · have hworld : SameUserPages (paging (E.pagingUnmapInterval uaddr size k.world).2) (paging s'.world) := by
      show SameUserPages _ (paging (unmapRegion E s uaddr size preId).world)
      rw [hk]
      simp only [unmapRegion]
      split_ifs
      · exact .refl _
      · exact hE.freeArena _ _
    rw [hworld v hv, hafter, hregion v hv.2, hwalk v hv]
  · show Covered (unmapRegion E s uaddr size preId).addressSpace.listArena p ↔ _
    rw [unmapRegion_list E hr h.wellFormed]
    exact covered_flatMap_cut hr h.wellFormed.arenas hp

/-- Unmapping pages that are all present keeps the counter right. -/
theorem Resident.unmapRegion (h : Resident paging s) (hE : PagedEnv E paging) (hr : Region uaddr size)
    (hinv : Inv (unmapRegion E s uaddr size preId))
    (hall : AllResident paging s uaddr size) :
    Resident paging (unmapRegion E s uaddr size preId) ∧
      (unmapRegion E s uaddr size preId).addressSpace.physTotal ≤ s.addressSpace.physTotal := by
  obtain ⟨htotal, hpages, hcovered⟩ := unmapRegion_resident hE h.inv hr preId
  obtain ⟨s', hs'⟩ : ∃ s', s' = Mem.unmapRegion E s uaddr size preId := ⟨_, rfl⟩
  rw [← hs'] at htotal hpages hcovered hinv ⊢
  -- the pages of the region leave the resident set, the others stay
  have hsplit : residentPages s.addressSpace.listArena (paging s.world) =
      residentPages s'.addressSpace.listArena (paging s'.world) ∪
        {v : UInt32 | isPageAligned v = true ∧ uaddr.toNat ≤ v.toNat ∧ v.toNat < uaddr.toNat + size.toNat} := by
    ext v
    constructor
    · rintro ⟨hv, hc, hp⟩
      by_cases hin : uaddr.toNat ≤ v.toNat ∧ v.toNat < uaddr.toNat + size.toNat
      · exact .inr ⟨hv.2, hin⟩
      · exact .inl ⟨hv, (hcovered _ hin).mpr hc, (hpages v hv).mpr ⟨hp, hin⟩⟩
    · rintro (⟨hv, hc, hp⟩ | ⟨hv, hin⟩)
      · obtain ⟨hp, hin⟩ := (hpages v hv).mp hp
        exact ⟨hv, (hcovered _ hin).mp hc, hp⟩
      · exact hall v hv hin.1 hin.2
  have hdisjoint : Disjoint (residentPages s'.addressSpace.listArena (paging s'.world))
      {v : UInt32 | isPageAligned v = true ∧ uaddr.toNat ≤ v.toNat ∧ v.toNat < uaddr.toNat + size.toNat} := by
    rw [Set.disjoint_left]
    rintro v ⟨hv, _, hp⟩ ⟨_, hin⟩
    exact ((hpages v hv).mp hp).2 hin
  have hcount := Set.ncard_union_eq hdisjoint
  rw [← hsplit] at hcount
  have hsize := ncard_region hr
  have hbefore := h.total
  unfold ResidentTotal at hbefore
  have hphys : s'.addressSpace.physTotal.toNat + size.toNat = s.addressSpace.physTotal.toNat := by
    have := word_lt s.addressSpace.physTotal
    rw [htotal, word_sub]
    omega
  refine ⟨⟨hinv, fun v hv hp => ?_, ?_⟩, ?_⟩
  · obtain ⟨hp, hin⟩ := (hpages v hv).mp hp
    exact (hcovered _ hin).mpr (h.covered v hv hp)
  · unfold ResidentTotal
    omega
  · rw [word_le_iff]
    omega

/-- What a change of the other data of the address space keeps. -/
theorem Resident.congr (h : Resident paging s) {s' : UvmmState W} (hinv : Inv s')
    (hlist : s'.addressSpace.listArena = s.addressSpace.listArena)
    (htotal : s'.addressSpace.physTotal = s.addressSpace.physTotal)
    (hpages : SameUserPages (paging s.world) (paging s'.world)) : Resident paging s' := by
  refine ⟨hinv, fun v hv hp => ?_, ?_⟩
  · rw [hlist]
    exact h.covered v hv (by rw [← hpages v hv, hp])
  · have hsame : residentPages s'.addressSpace.listArena (paging s'.world) =
        residentPages s.addressSpace.listArena (paging s.world) := by
      rw [hlist]
      ext v
      refine and_congr_right fun hv => and_congr_right fun _ => ?_
      rw [hpages v hv]
    unfold ResidentTotal
    rw [htotal, hsame]
    exact h.total

theorem Resident.allocArena (h : Resident paging s) (hE : PagedEnv E paging) :
    Resident paging (s.allocArena E).2 :=
  h.congr (h.inv.allocArena E) rfl rfl (hE.allocArena s.world)

theorem Resident.freePreallocated (h : Resident paging s) (hE : PagedEnv E paging) (preId : Nat) :
    Resident paging (s.freePreallocated E preId) :=
  h.congr (h.inv.freePreallocated E preId) rfl rfl (hE.freeArena _ s.world)

theorem AllResident.congr {s' : UvmmState W} (h : AllResident paging s uaddr size)
    (hlist : s'.addressSpace.listArena = s.addressSpace.listArena)
    (hpages : SameUserPages (paging s.world) (paging s'.world)) : AllResident paging s' uaddr size := by
  intro v hv h1 h2
  obtain ⟨huser, hc, hp⟩ := h v hv h1 h2
  refine ⟨huser, by rw [hlist]; exact hc, ?_⟩
  rw [hpages v huser]
  exact hp

theorem unmapRuns_of_zero (h : (uvmmUnmap E s uaddr size).1 = 0) : UnmapRuns E s uaddr size := by
  unfold uvmmUnmap at h
  split_ifs at h with h1 h2 h3 h4 h5
  · cases h
  · cases h
  · cases h
  · cases h
  · cases h
  · refine ⟨by simpa using h1, UInt32.not_le.mp h2, UInt32.not_lt.mp h3, UInt32.not_lt.mp h4, by simpa using h5⟩

/-- `uvmm_unmap` where what it unmaps is present. -/
theorem Resident.uvmmUnmap (h : Resident paging s) (hE : PagedEnv E paging)
    (hgood : UnmapRuns E s uaddr size → AllResident paging s uaddr (pageAlignSup size)) :
    Resident paging (uvmmUnmap E s uaddr size).2 ∧
      (uvmmUnmap E s uaddr size).2.addressSpace.physTotal ≤ s.addressSpace.physTotal := by
  have hinv := h.inv.uvmmUnmap E uaddr size
  rcases uvmmUnmap_cases E s uaddr size with heq | heq | ⟨hr, _, heq⟩
  · rw [heq]
    exact ⟨h, UInt32.le_refl _⟩
  · rw [heq]
    exact ⟨h.allocArena hE, UInt32.le_refl _⟩
  · have hruns := unmapRuns_of_zero (by rw [heq])
    rw [heq] at hinv ⊢
    exact (h.allocArena hE).unmapRegion hE hr hinv ((hgood hruns).congr rfl (hE.allocArena s.world))

end

/-! ## Inserting a mapping -/

section

variable {E : UvmmEnv W} {paging : W → Paging} {s : UvmmState W} {m : NewMapping}

/-- What was covered stays covered. -/
theorem Inserted.covered {l l' : List UvmmArena} {n : Nat} (h : Inserted m l l') (hwf : WellFormed l)
    (hm : Placeable l n m) {p : Nat} (hp : Covered l p) : Covered l' p := by
  have hu := hm.user
  have hsa := hm.size_aligned
  have htop := hm.top
  obtain ⟨b, hb, hlo, hhi⟩ := hp
  cases h with
  | both hprev hnext =>
    rename_i l₁ l₂ prev next
    obtain ⟨_, h2, hok, _, _, _⟩ := wellFormed_insert.mp hwf
    obtain ⟨hokn, _, _⟩ := wellFormed_cons.mp h2
    have hphi := hi_of_mergeWithPreceding hprev hok (by omega)
    have hnlo := lo_of_mergeWithNext hnext hokn htop
    have hnhi : next.hi = next.lo + next.size.toNat := rfl
    have hntop := hokn.top
    have hnal := hokn.size_aligned
    have hprevlo := hok.lo_lt_hi
    have hsum : (m.size + next.size).toNat = m.size.toNat + next.size.toNat := by
      rw [word_add]
      omega
    obtain ⟨_, hhi'⟩ := widen_ok hok (show (m.size + next.size).toNat % 4096 = 0 by omega) (by omega)
    have hlo' : ({ prev with size := prev.size + (m.size + next.size) } : UvmmArena).lo = prev.lo := rfl
    rw [List.mem_append, List.mem_cons, List.mem_cons] at hb
    rcases hb with hb | rfl | rfl | hb
    · exact ⟨b, List.mem_append_left _ hb, hlo, hhi⟩
    · exact ⟨_, List.mem_append_right _ List.mem_cons_self, hlo, by rw [hhi']; omega⟩
    · exact ⟨_, List.mem_append_right _ List.mem_cons_self, by rw [hlo']; omega, by rw [hhi']; omega⟩
    · exact ⟨b, List.mem_append_right _ (List.mem_cons_of_mem _ hb), hlo, hhi⟩
  | preceding hprev _ =>
    rename_i l₁ l₂ prev
    obtain ⟨_, _, hok, _, _, _⟩ := wellFormed_insert.mp hwf
    have hphi := hi_of_mergeWithPreceding hprev hok (by omega)
    obtain ⟨_, hhi'⟩ := widen_ok hok hsa (by omega)
    rw [List.mem_append, List.mem_cons] at hb
    rcases hb with hb | rfl | hb
    · exact ⟨b, List.mem_append_left _ hb, hlo, hhi⟩
    · exact ⟨_, List.mem_append_right _ List.mem_cons_self, hlo, by rw [hhi']; omega⟩
    · exact ⟨b, List.mem_append_right _ (List.mem_cons_of_mem _ hb), hlo, hhi⟩
  | next _ hnext =>
    rename_i l₁ l₂ next
    obtain ⟨_, _, hok, _, _, _⟩ := wellFormed_insert.mp hwf
    have hnlo := lo_of_mergeWithNext hnext hok htop
    obtain ⟨_, hlo', hhi'⟩ := widenDown_ok hok hm.aligned hm.user hnlo
    rw [List.mem_append, List.mem_cons] at hb
    rcases hb with hb | rfl | hb
    · exact ⟨b, List.mem_append_left _ hb, hlo, hhi⟩
    · exact ⟨_, List.mem_append_right _ List.mem_cons_self, by rw [hlo']; omega, by rw [hhi']; omega⟩
    · exact ⟨b, List.mem_append_right _ (List.mem_cons_of_mem _ hb), hlo, hhi⟩
  | new ops _ _ _ _ =>
    rename_i l₁ l₂
    rw [List.mem_append] at hb
    refine ⟨b, ?_, hlo, hhi⟩
    rw [List.mem_append, List.mem_cons]
    exact hb.imp_right .inr

theorem PagedEnv.mapDone (hE : PagedEnv E paging) (s : UvmmState W) (m : NewMapping) (a : UvmmArena) (used : Bool) :
    SameUserPages (paging s.world) (paging (s.mapDone E m a used).2.2.world) := by
  cases used with
  | true => exact .refl _
  | false => exact hE.freeArena _ _

theorem mapDone_physTotal (E : UvmmEnv W) (s : UvmmState W) (m : NewMapping) (a : UvmmArena) (used : Bool) :
    (s.mapDone E m a used).2.2.addressSpace.physTotal = s.addressSpace.physTotal := by
  cases used <;> exact asAccountChangeOfArenaProt_physTotal ..

/-- A mapping that is not refused leaves the page tables and the counter alone. -/
theorem PagedEnv.uvmmMapInsert (hE : PagedEnv E paging) (hacc : Accepted E s m) :
    SameUserPages (paging s.world) (paging (uvmmMapInsert E s m).2.2.world) ∧
      (uvmmMapInsert E s m).2.2.addressSpace.physTotal = s.addressSpace.physTotal := by
  cases hprev : (mapNeighbours s.addressSpace.listArena m.uaddr).1.filter (mergeWithPreceding m) with
  | some prev =>
    cases hnext : (mapNeighbours s.addressSpace.listArena m.uaddr).2.filter (mergeWithNext m) with
    | some next =>
      simp only [Mem.uvmmMapInsert, hprev, hnext]
      refine ⟨.trans ?_ (hE.mapDone _ m prev false), mapDone_physTotal ..⟩
      refine .trans (hE.resourceDelete next s.world) ?_
      exact .trans (PagedEnv.callOps next.ops (fun o w => hE.unref o next w) _) (hE.freeArena next _)
    | none =>
      simp only [Mem.uvmmMapInsert, hprev, hnext]
      exact ⟨.trans (.refl _) (hE.mapDone _ m prev false), mapDone_physTotal ..⟩
  | none =>
    cases hnext : (mapNeighbours s.addressSpace.listArena m.uaddr).2.filter (mergeWithNext m) with
    | some next =>
      simp only [Mem.uvmmMapInsert, hprev, hnext]
      exact ⟨.trans (.refl _) (hE.mapDone _ m next false), mapDone_physTotal ..⟩
    | none =>
      have hmmap : (E.mmap (m.resource.mmap.getD 0) m.arena (E.resourceAddTail m.arena s.world)).1 = 0 := by
        simpa [Accepted, hprev, hnext] using hacc
      rw [uvmmMapInsert_new hprev hnext]
      simp only [uvmmMapNew]
      rw [if_neg (not_not.mpr hmmap)]
      refine ⟨.trans ?_ (hE.mapDone _ m _ true), mapDone_physTotal ..⟩
      refine .trans (hE.resourceAddTail m.arena s.world) ?_
      refine .trans (hE.mmap (m.resource.mmap.getD 0) m.arena _) ?_
      exact PagedEnv.callOps _ (fun o w => hE.ref o _ w) _

/-- Inserting a mapping where it has a place of its own, whose pages are absent. -/
theorem Resident.uvmmMapInsert (h : Resident paging s) (hE : PagedEnv E paging)
    (hm : Placeable s.addressSpace.listArena s.nextId m) (hacc : Accepted E s m) :
    Resident paging (Mem.uvmmMapInsert E s m).2.2 ∧
      (Mem.uvmmMapInsert E s m).2.2.addressSpace.physTotal = s.addressSpace.physTotal := by
  obtain ⟨hpages, htotal⟩ := hE.uvmmMapInsert hacc
  have hinv := h.inv.uvmmMapInsert E hm
  obtain ⟨l', hins, hcases⟩ := uvmmMapInsert_inserted E h.inv hm
  have hlist : (Mem.uvmmMapInsert E s m).2.2.addressSpace.listArena = l' := by
    rcases hcases with ⟨_, _, hl, _⟩ | ⟨_, _, _, _, hr⟩
    · exact hl
    · -- a refused mapping is reported at address 0
      have huser := hm.user
      have hu := (uvmmMapInsert_accepted hacc).2
      rw [hr] at hu
      rw [← hu, UInt32.toNat_zero] at huser
      omega
  have hmono : ∀ p, Covered s.addressSpace.listArena p → Covered l' p :=
    fun p hp => hins.covered h.inv.wellFormed hm hp
  refine ⟨⟨hinv, fun v hv hp => ?_, ?_⟩, htotal⟩
  · rw [hlist]
    exact hmono _ (h.covered v hv (by rw [← hpages v hv, hp]))
  · have hsame : residentPages l' (paging (Mem.uvmmMapInsert E s m).2.2.world) =
        residentPages s.addressSpace.listArena (paging s.world) := by
      ext v
      refine and_congr_right fun hv => ?_
      rw [hpages v hv]
      exact ⟨fun hp => ⟨h.covered v hv hp.2, hp.2⟩, fun hp => ⟨hmono _ hp.1, hp.2⟩⟩
    unfold ResidentTotal
    rw [htotal, hlist, hsame]
    exact h.total

/-- `uvmm_map` under the condition on it. -/
theorem Resident.uvmmMap (h : Resident paging s) (hE : PagedEnv E paging) {hintUaddr size accessRights flags : UInt32}
    {resource : Option UvmmMappedResource} {offsetInResource : UInt64}
    (hgood : ResidentGood E paging s (.map hintUaddr size accessRights flags resource offsetInResource)) :
    Resident paging (uvmmMap E s hintUaddr size accessRights flags resource offsetInResource).2.2 ∧
      (uvmmMap E s hintUaddr size accessRights flags resource offsetInResource).2.2.addressSpace.physTotal ≤
        s.addressSpace.physTotal := by
  unfold Mem.uvmmMap
  cases hcheck : uvmmMapCheck hintUaddr size accessRights flags resource offsetInResource with
  | error err => exact ⟨h, UInt32.le_refl _⟩
  | ok res =>
    dsimp only
    have halloc := h.allocArena hE
    by_cases hok : (s.allocArena E).1 = true
    swap
    · rw [if_pos (by simpa using hok)]
      exact ⟨halloc, UInt32.le_refl _⟩
    rw [if_neg (by simpa using hok)]
    obtain ⟨hplace, hgood⟩ := hgood res hcheck hok
    have hfree := halloc.freePreallocated hE s.nextId
    obtain ⟨m, hm⟩ : ∃ m, m = fun uaddr =>
      askedMapping uaddr size accessRights flags res offsetInResource s.nextId := ⟨_, rfl⟩
    have hflags : ∀ u, (m u).flags = flags &&& (arenaMapShared ||| arenaMapFixed) := fun u => by rw [hm]; rfl
    have hsize : ∀ u, (m u).size = pageAlignSup size := fun u => by rw [hm]; rfl
    have hpre : ∀ u, (m u).preId = s.nextId := fun u => by rw [hm]; rfl
    have hu : ∀ u, (m u).uaddr = u := fun u => by rw [hm]; rfl
    simp only [← hm] at hgood ⊢
    unfold uvmmMapPlace
    dsimp only
    simp only [hflags, hsize, hpre]
    have hacc : ∀ u s', Accepted E s' (askedMapping u size accessRights flags res offsetInResource s.nextId) →
        Accepted E s' (m u) := fun u s' hacc => by rw [hm]; exact hacc
    by_cases hfixed : hasFlag (flags &&& (arenaMapShared ||| arenaMapFixed)) arenaMapFixed = true
    · rw [MapGood, if_pos hfixed] at hplace
      rw [if_pos hfixed] at hgood ⊢
      have halign : pageAlignSup (pageAlignSup size) = pageAlignSup size :=
        pageAlignSup_of_aligned (pageAlignSup_aligned size)
      have hunmap := @Resident.uvmmUnmap _ E paging (s.allocArena E).2 hintUaddr (pageAlignSup size) halloc hE
        fun hruns => by
          rw [halign]
          exact (hgood hruns).1.congr rfl (hE.allocArena s.world)
      split_ifs with h1 h2 h3
      · exact ⟨hfree, UInt32.le_refl _⟩
      · exact ⟨hfree, UInt32.le_refl _⟩
      · exact ⟨hunmap.1.freePreallocated hE s.nextId, hunmap.2⟩
      · rw [not_not] at h3
        have hruns := unmapRuns_of_zero h3
        have hfits := @placeable_fixed _ E s h.inv (m hintUaddr) (by rw [hsize]; exact pageAlignSup_aligned size)
          (hpre _) (by rw [hu, hsize]; exact h3) (by rw [hu, hsize]; exact hplace)
        rw [hu, hsize] at hfits
        obtain ⟨hres, htotal⟩ := hunmap.1.uvmmMapInsert hE hfits (hacc _ _ (hgood hruns).2)
        exact ⟨hres, htotal ▸ hunmap.2⟩
    · rw [if_neg hfixed] at hgood ⊢
      split_ifs with h1
      · exact ⟨hfree, UInt32.le_refl _⟩
      · have hfits := placeable_hint h.inv hplace hfixed (uvmmMapCheck_ok hcheck).2 (hsize _) (hpre _) (hu _)
          (by rw [hu]; exact h1)
        obtain ⟨hres, htotal⟩ := halloc.uvmmMapInsert hE hfits (hacc _ _ (hgood h1))
        exact ⟨hres, htotal ▸ UInt32.le_refl _⟩

end

/-! ## Page faults and runs -/

section

variable {E : UvmmEnv W} {paging : W → Paging} {s : UvmmState W}

theorem Inv.congr (h : Inv s) {s' : UvmmState W} (hlist : s'.addressSpace.listArena = s.addressSpace.listArena)
    (hid : s'.nextId = s.nextId) : Inv s' := ⟨hlist ▸ h.wellFormed, hlist ▸ hid ▸ h.distinct⟩

/-- An absent page of an arena becomes present. -/
theorem Resident.mapPage (h : Resident paging s) {s' : UvmmState W} (hinv : Inv s')
    (hlist : s'.addressSpace.listArena = s.addressSpace.listArena)
    (htotal : s'.addressSpace.physTotal = s.addressSpace.physTotal + pageSize) {uaddr : UInt32}
    (hpages : ∀ v, UserPage v → (((paging s'.world).pte v).present = true ↔
      ((paging s.world).pte v).present = true ∨ v = pageAlignInf uaddr))
    {a : UvmmArena} (ha : a ∈ s.addressSpace.listArena) (hin : a.Contains uaddr.toNat)
    (habsent : ((paging s.world).pte (pageAlignInf uaddr)).present = false) : Resident paging s' := by
  have hok := h.inv.wellFormed.arenas a ha
  -- the page of the address lies in the same arena
  have halign : (pageAlignInf uaddr).toNat = uaddr.toNat / 4096 * 4096 := toNat_alignInf uaddr
  have hpage : a.Contains (pageAlignInf uaddr).toNat := by
    have h1 := hok.start_aligned
    have h2 := hin.1
    have h3 := hin.2
    exact ⟨by rw [halign]; omega, by rw [halign]; omega⟩
  have huser : UserPage (pageAlignInf uaddr) := by
    refine ⟨word_le_iff.mpr ?_, isPageAligned_alignInf uaddr⟩
    have h1 := hok.user
    have h2 := hpage.1
    rw [toNat_userOffset]
    omega
  have hset : residentPages s'.addressSpace.listArena (paging s'.world) =
      insert (pageAlignInf uaddr) (residentPages s.addressSpace.listArena (paging s.world)) := by
    ext v
    rw [Set.mem_insert_iff, hlist]
    constructor
    · rintro ⟨hv, hc, hp⟩
      rcases (hpages v hv).mp hp with hp | rfl
      · exact .inr ⟨hv, hc, hp⟩
      · exact .inl rfl
    · rintro (rfl | ⟨hv, hc, hp⟩)
      · exact ⟨huser, ⟨a, ha, hpage⟩, (hpages _ huser).mpr (.inr rfl)⟩
      · exact ⟨hv, hc, (hpages v hv).mpr (.inl hp)⟩
  have hnew : pageAlignInf uaddr ∉ residentPages s.addressSpace.listArena (paging s.world) := by
    rintro ⟨_, _, hp⟩
    rw [habsent] at hp
    cases hp
  have hcount := Set.ncard_insert_of_notMem hnew
  rw [← hset] at hcount
  have hbound : (residentPages s'.addressSpace.listArena (paging s'.world)).ncard ≤ 786432 :=
    ncard_userPages_le fun v hv => hv.1
  have hbefore := h.total
  unfold ResidentTotal at hbefore
  refine ⟨hinv, fun v hv hp => ?_, ?_⟩
  · rw [hlist]
    rcases (hpages v hv).mp hp with hp | rfl
    · exact h.covered v hv hp
    · exact ⟨a, ha, hpage⟩
  · rw [ResidentTotal, htotal, word_add, toNat_pageSize]
    omega

/-- A fault under the condition on it. -/
theorem Resident.fault (h : Resident paging s) (hE : PagedEnv E paging) {uaddr : UInt32}
    {writeAccess userAccess : Bool} (hgood : ResidentGood E paging s (.fault uaddr writeAccess userAccess)) :
    Resident paging (s.fault E uaddr writeAccess userAccess) := by
  unfold UvmmState.fault uvmmLazyLoading
  dsimp only
  cases hfirst : findFirstIntersectingArena s.addressSpace.listArena uaddr 1 with
  | none => exact h
  | some a =>
    have hcall := fun v hv => hE.noPage (a.ops.getD 0) a uaddr writeAccess s.world v hv
    dsimp only
    split_ifs with hret
    · -- the callback refused: no page was mapped
      refine h.congr (h.inv.congr rfl rfl) rfl rfl fun v hv => ?_
      rw [Bool.eq_iff_iff]
      refine (hcall v hv).trans (or_iff_left ?_)
      exact fun hc => hret hc.1
    · rw [not_not] at hret
      obtain ⟨hin, habsent⟩ := hgood a hfirst hret
      have ha : a ∈ s.addressSpace.listArena := List.mem_of_find?_eq_some
        ((findFirstIntersectingArena_eq _ uaddr 1).symm.trans hfirst)
      simp only [Option.join_some, Option.getD_some]
      refine h.mapPage (h.inv.congr rfl rfl) rfl rfl (fun v hv => ?_) ha hin habsent
      refine (hcall v hv).trans (or_congr_right ?_)
      exact and_iff_right hret

theorem Resident.step (h : Resident paging s) (hE : PagedEnv E paging) {op : ResidentOp}
    (hgood : ResidentGood E paging s op) :
    ResidentLaw E paging s op ∧ Resident paging (residentStep E s op) := by
  cases op with
  | fault uaddr writeAccess userAccess =>
    have hnext := h.fault hE hgood
    exact ⟨⟨hnext.total, fun hne => absurd rfl (hne _ _ _)⟩, hnext⟩
  | map hintUaddr size accessRights flags resource offsetInResource =>
    obtain ⟨hnext, hle⟩ := h.uvmmMap hE hgood
    exact ⟨⟨hnext.total, fun _ => hle⟩, hnext⟩
  | unmap uaddr size =>
    obtain ⟨hnext, hle⟩ := h.uvmmUnmap hE hgood
    exact ⟨⟨hnext.total, fun _ => hle⟩, hnext⟩

theorem resident_empty {w : W} (hempty : ∀ v, UserPage v → ((paging w).pte v).present = false) :
    Resident paging (uvmmCreateEmptyAs w) := by
  refine ⟨inv_uvmmCreateEmptyAs w, fun v hv hp => ?_, ?_⟩
  · have habsent := hempty v hv
    exact absurd (habsent.symm.trans hp) Bool.false_ne_true
  · have hset : residentPages (uvmmCreateEmptyAs w).addressSpace.listArena (paging (uvmmCreateEmptyAs w).world) = ∅ := by
      ext v
      refine iff_of_false ?_ (Set.notMem_empty v)
      rintro ⟨_, ⟨a, ha, _⟩, _⟩
      cases ha
    have hzero : (uvmmCreateEmptyAs w).addressSpace.physTotal = 0 := rfl
    rw [ResidentTotal, hset, Set.ncard_empty, hzero, UInt32.toNat_zero]

end

/-- **`phys_total` counts the resident set** in every state of a run of page faults, `uvmm_map` and `uvmm_unmap`
calls on a new address space that meet `ResidentGood`, and never wraps below zero. -/
theorem uvmm_runs_resident (E : UvmmEnv W) (paging : W → Paging) (hE : PagedEnv E paging) (w : W)
    (hempty : ∀ v, UserPage v → ((paging w).pte v).present = false) (ops : List ResidentOp)
    (hgood : Guarded (residentStep E) (ResidentGood E paging) (uvmmCreateEmptyAs w) ops) :
    Guarded (residentStep E) (ResidentLaw E paging) (uvmmCreateEmptyAs w) ops :=
  @guarded_of_invariant _ _ (residentStep E) _ (ResidentLaw E paging) (Resident paging)
    (fun _ _ h hgood => h.step hE hgood) ops _ (resident_empty hempty) hgood

end Desiros.Mem
