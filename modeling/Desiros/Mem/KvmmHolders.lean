import Desiros.Mem.KvmmMemory

/-!
# Who holds a physical page (`mem/kvmm.c`, `mem/physmem.c`)

`PageHolders` is the kernel with the references that its parts hold to physical pages. Kernel ranges are mapped and deleted,
and pages are taken and given back by those who hold them. `paging_init` has mapped each kernel page to the physical page
of the same address and holds no reference for it; where `kvmm_new_range` first uses a kernel page whose physical page is
in use by then, `paging_unmap` drops the reference of somebody else. Along the runs where this does not happen
(`MapsUnused`), no physical page is mapped twice and none that is held is free: `kvmm_runs_noAliasing`.
-/

namespace Desiros.Mem

open Desiros.Library KslabCache Kvmm

/-! ## The system -/

/-- The kernel ranges and the physical pages, with the references that are held to each. -/
structure PageHolders where
  kvmm : Kvmm KernelPages
  held : UInt32 → Nat

namespace PageHolders

def physmem (s : PageHolders) : Physmem := s.kvmm.world.paging.physmem

def setPhysmem (s : PageHolders) (m : Physmem) : PageHolders :=
  { s with kvmm := { s.kvmm with world := s.kvmm.world.setPhysmem m } }

/-- What `kvmm_setup` leaves; all references are held by whoever has taken them. -/
def boot (s : Kvmm KernelPages) : PageHolders := ⟨s, fun p => (s.world.paging.physmem.refCnt p).toNat⟩

end PageHolders

inductive HoldersCall where
  | newRange (nbPages : Nat)
  | delRange (range : KvmmRange)
  | refNew
  | unref (ppagePaddr : UInt32)

/-- `kvmm_new_range` is called with `KVMM_MAP`. -/
def holdersStep (s : PageHolders) : HoldersCall → PageHolders
  | .newRange nbPages => { s with kvmm := (kvmmNewRange kernelPageMap 2 s.kvmm nbPages true).2 }
  | .delRange range => { s with kvmm := (kvmmDelRange kernelPageMap s.kvmm range).getD s.kvmm }
  | .refNew =>
    let (p, m) := physmemRefPhyspageNew s.physmem
    { s.setPhysmem m with held := if p = 0 then s.held else Function.update s.held p (s.held p + 1) }
  | .unref p =>
    { s.setPhysmem (physmemUnrefPhyspage s.physmem p).2 with held := Function.update s.held p (s.held p - 1) }

/-- Ranges are deleted that `kvmm_new_range` returned, and references are given back by those who hold them. -/
def HoldersCallOk (boot : Kvmm KernelPages) (s : PageHolders) : HoldersCall → Prop
  | .newRange _ => True
  | .delRange range => Deletable s.kvmm range ∧ range ∉ boot.usedList
  | .refNew => True
  | .unref p => 0 < s.held p

/-- A page of a range that `kvmm_new_range` mapped and that has not been deleted. -/
def MappedPage (boot s : Kvmm KernelPages) (a : Nat) : Prop :=
  ∃ x ∈ s.usedList, x ∉ boot.usedList ∧ a ∈ pagesAt x.base x.nbPages

/-- The kernel page is mapped to the physical page. -/
def MapsTo (s : Kvmm KernelPages) (a : Nat) (p : UInt32) : Prop :=
  (s.world.paging.pte (UInt32.ofNat a)).present = true ∧ (s.world.paging.pte (UInt32.ofNat a)).frame = p

/-- What is mapped is referenced and not free, is mapped once, and what somebody holds is not free. -/
structure NoAliasing (boot : Kvmm KernelPages) (s : PageHolders) : Prop where
  referenced : ∀ a p, MappedPage boot s.kvmm a → MapsTo s.kvmm a p → 1 ≤ s.physmem.refCnt p ∧ p ∉ s.physmem.freePpage
  once : ∀ a a' p, MappedPage boot s.kvmm a → MappedPage boot s.kvmm a' → MapsTo s.kvmm a p → MapsTo s.kvmm a' p → a = a'
  held : ∀ p, 0 < s.held p → p ∉ s.physmem.freePpage

/-- Each page that `kvmm_new_range` is about to take refers to no managed physical page, or to one that is free and that
is not handed out before it is mapped anew. -/
def MapsUnused (s : PageHolders) : HoldersCall → Prop
  | .newRange nbPages => s.kvmm.world.paging.Spares s.physmem.freePpage (takenPages s.kvmm nbPages)
  | _ => True

/-! ## Pages of different ranges -/

variable {boot s s' t : Kvmm KernelPages} {e : Slack} {total p c : UInt32} {held held' : List Nat} {gone : List KvmmRange}
  {x y : KvmmRange} {a b n : Nat} {g₀ g : Paging} {M : Set UInt32} {m : Physmem}

theorem KvmmInvWith.pages_ne (h : KvmmInvWith e s held []) (hbound : ∀ a, s.Covered [] a → a < 4294967296)
    (hx : x ∈ s.usedList) (hy : y ∈ s.usedList) (hne : x ≠ y) (hf : ¬ e.fixed x) (ha : a ∈ pagesAt x.base x.nbPages)
    (hb : b ∈ pagesAt y.base y.nbPages) : UInt32.ofNat a ≠ UInt32.ofNat b := by
  have hacov := covers_of_mem_pagesAt ha
  have hbcov := covers_of_mem_pagesAt hb
  have hap := h.apart_of_ne (mem_all.mpr (.inr (.inl hx))) (mem_all.mpr (.inr (.inl hy))) hf hne
  have halt := hbound a ⟨x, mem_all.mpr (.inr (.inl hx)), hacov⟩
  have hblt := hbound b ⟨y, mem_all.mpr (.inr (.inl hy)), hbcov⟩
  rw [ne_eq, word_eq_iff, UInt32.toNat_ofNat', UInt32.toNat_ofNat', Nat.mod_eq_of_lt halt, Nat.mod_eq_of_lt hblt]
  rintro rfl
  exact hap.not_covers hacov hbcov

/-- The words of the pages that `kvmm_new_range` has mapped. -/
def mappedWords (boot s : Kvmm KernelPages) : Set UInt32 := {v | ∃ a, MappedPage boot s a ∧ v = UInt32.ofNat a}

/-- What is left where ranges go back is what the ranges that stay are mapped to. -/
theorem Undoes.lends_mapped (h : Undoes t gone s') (hinv : KvmmInvWith e t held []) (hinv' : KvmmInvWith e s' held' [])
    (hbound : ∀ a, t.Covered [] a → a < 4294967296) (halign : ∀ x ∈ t.usedList, nbBytesPerPage ∣ x.base)
    (hl : Lends total (fun _ => False) g₀ t.world.paging M) (hin : M ⊆ mappedWords boot t)
    (hall : ∀ x ∈ s'.usedList, x ∉ boot.usedList → ∀ a ∈ pagesAt x.base x.nbPages, UInt32.ofNat a ∈ M)
    (hdrop : ∀ a, LosesPage t s' a → UInt32.ofNat a ∈ M ∨ t.world.paging.referred (UInt32.ofNat a) = none) :
    Lends total (fun _ => False) g₀ s'.world.paging (mappedWords boot s') := by
  obtain ⟨pages, hpages, hl'⟩ := h.lends hl halign fun a ha => (hdrop a ha).imp_right fun hnone p hp => by
    rw [hnone] at hp
    cases hp
  have hset : M \ {v | ∃ a ∈ pages, v = UInt32.ofNat a} = mappedWords boot s' := by
    ext v
    constructor
    · intro hv
      obtain ⟨a, ⟨x, hx, hboot, ha⟩, rfl⟩ := hin hv.1
      refine ⟨a, ⟨x, ?_, hboot, ha⟩, rfl⟩
      by_contra hlost
      obtain ⟨hword, p, hp, -⟩ := hl'.mapped _ hv
      rw [referred_of_absent hword (h.absent a ⟨x, hx, hlost, ha⟩)] at hp
      cases hp
    · rintro ⟨a, ⟨x, hx, hboot, ha⟩, rfl⟩
      refine ⟨hall x hx hboot a ha, ?_⟩
      rintro ⟨b, hb, he⟩
      obtain ⟨y, hy, hlost, hby⟩ := hpages b hb
      have hne : y ≠ x := fun hyx => hlost (hyx ▸ hx)
      exact hinv.pages_ne hbound hy (h.used x hx) hne (fun hfix => hlost (hinv'.fixed_used y hfix)) hby ha he.symm
  exact hset ▸ hl'

/-! ## References of others -/

theorem Lends.recount (h : Lends total (fun _ => False) g₀ g M) (hinv : PhysmemInv total m)
    (hdescr : ∀ q, m.hasDescr q = g.physmem.hasDescr q) (hcnt : m.refCnt = Function.update g.physmem.refCnt p c)
    (hp : ∀ v ∈ M, g.referred v ≠ some p) :
    Lends total (fun _ => False) { g₀ with physmem := { g₀.physmem with
      refCnt := Function.update g₀.physmem.refCnt p c } } { g with physmem := m } M := by
  have href : ∀ v, isPageAligned v = true → Paging.referred { g with physmem := m } v = g.referred v :=
    fun v hv => referred_congr hv rfl hdescr
  refine ⟨hinv, fun q => (hdescr q).trans (h.descr q), fun v hv => ?_, fun v hv v' hv' q hq hr hr' => ?_,
    fun q hq hall => ?_, h.pte⟩
  · obtain ⟨halign, q, hr, hlent⟩ := h.mapped v hv
    have hne : q ≠ p := by
      rintro rfl
      exact hp v hv hr
    refine ⟨halign, q, (href v halign).trans hr, fun hx => ?_⟩
    show m.refCnt q = 1 ∧ Function.update g₀.physmem.refCnt p c q = 0
    rw [hcnt, Function.update_of_ne hne, Function.update_of_ne hne]
    exact hlent hx
  · rw [href v (h.mapped v hv).1] at hr
    rw [href v' (h.mapped v' hv').1] at hr'
    exact h.once v hv v' hv' q hq hr hr'
  · show m.refCnt q = Function.update g₀.physmem.refCnt p c q
    rw [hcnt]
    by_cases hne : q = p
    · rw [hne, Function.update_self, Function.update_self]
    · rw [Function.update_of_ne hne, Function.update_of_ne hne]
      refine h.refCnt q hq fun v hv hr => hall v hv ?_
      rw [href v (h.mapped v hv).1, hr]

/-- No lent page refers to a page that was in use before, or is free now. -/
theorem Lends.not_referred (h : Lends total (fun _ => False) g₀ g M) (hp : g.physmem.refCnt p = 0 ∨ g₀.physmem.refCnt p ≠ 0) :
    ∀ v ∈ M, g.referred v ≠ some p := by
  intro v hv hr
  obtain ⟨-, q, hq, hlent⟩ := h.mapped v hv
  obtain rfl := Option.some.inj (hq.symm.trans hr)
  obtain ⟨hone, hzero⟩ := hlent id
  rcases hp with hfree | hused
  · rw [hone] at hfree
    cases hfree
  · exact hused hzero

/-! ## The invariant -/

/-- `boot` is what `kvmm_setup` left, and `g₀` counts the references that are held. -/
structure HoldersInv (e : Slack) (total : UInt32) (boot : Kvmm KernelPages) (s : PageHolders) (g₀ : Paging) : Prop where
  ranges : KernelRanges e total s.kvmm
  slabs : MapsSlabs s.kvmm.rangeCache
  callers : ∀ x ∈ boot.usedList, OfCaller s.kvmm x
  fixed : ∀ x, e.fixed x → x ∈ boot.usedList
  lends : Lends total (fun _ => False) g₀ s.kvmm.world.paging (mappedWords boot s.kvmm)
  held : ∀ p, s.physmem.hasDescr p = true → (g₀.physmem.refCnt p).toNat = s.held p

theorem KernelRanges.bound (h : KernelRanges e total s) (ha : s.Covered [] a) : a < 4294967296 := by
  have hlt := (h.bounds a ha).2
  have htop : kvmmTop = 1073741824 := rfl
  omega

section

variable {o : PageHolders}

theorem HoldersInv.noAliasing (h : HoldersInv e total boot o g₀) : NoAliasing boot o := by
  have hlent : ∀ a p, MappedPage boot o.kvmm a → MapsTo o.kvmm a p →
      o.kvmm.world.paging.referred (UInt32.ofNat a) = some p ∧ o.physmem.refCnt p = 1 := by
    rintro a p ha ⟨-, hframe⟩
    obtain ⟨hword, q, hq, hlent⟩ := h.lends.mapped _ ⟨a, ha, rfl⟩
    obtain ⟨-, -, hframe'⟩ := (referred_eq_some _ _ _).mp hq
    rw [(isPageAligned_iff _).mp hword, hframe] at hframe'
    exact hframe' ▸ ⟨hq, (hlent id).1⟩
  refine ⟨fun a p ha hp => ?_, fun a a' p ha ha' hp hp' => ?_, fun p hp hfree => ?_⟩
  · have hone := (hlent a p ha hp).2
    refine ⟨hone ▸ UInt32.le_refl 1, fun hfree => ?_⟩
    have hzero : o.physmem.refCnt p = 0 := h.ranges.memory.free_refCnt p hfree
    rw [hone] at hzero
    cases hzero
  · have heq := h.lends.once _ ⟨a, ha, rfl⟩ _ ⟨a', ha', rfl⟩ p id (hlent a p ha hp).1 (hlent a' p ha' hp').1
    have hlt : ∀ b, MappedPage boot o.kvmm b → b < 4294967296 := by
      rintro b ⟨x, hx, -, hb⟩
      exact h.ranges.bound ⟨x, mem_all.mpr (.inr (.inl hx)), covers_of_mem_pagesAt hb⟩
    rwa [word_eq_iff, UInt32.toNat_ofNat', UInt32.toNat_ofNat', Nat.mod_eq_of_lt (hlt a ha),
      Nat.mod_eq_of_lt (hlt a' ha')] at heq
  · have hzero : o.physmem.refCnt p = 0 := h.ranges.memory.free_refCnt p hfree
    have hd := (h.ranges.memory.listed p).mp (List.mem_append_left _ hfree)
    have hsame : o.physmem.refCnt p = g₀.physmem.refCnt p := h.lends.refCnt p id (h.lends.not_referred (.inl hzero))
    have hcount := h.held p hd
    rw [← hsame, hzero] at hcount
    exact absurd hcount (Nat.ne_of_lt hp)

/-! ## The steps -/

theorem HoldersInv.not_fixed (h : HoldersInv e total boot o g₀) (hx : x ∉ boot.usedList) : ¬ e.fixed x :=
  fun hfix => hx (h.fixed x hfix)

theorem HoldersInv.setKvmm (h : HoldersInv e total boot o g₀) (hranges : KernelRanges e total s)
    (hflags : s.rangeCache.flags = o.kvmm.rangeCache.flags) (hboot : ∀ x ∈ boot.usedList, OfCaller s x)
    (hl : Lends total (fun _ => False) g₀ s.world.paging (mappedWords boot s)) :
    HoldersInv e total boot { o with kvmm := s } g₀ := by
  refine ⟨hranges, (mapsSlabs_congr hflags).mpr h.slabs, hboot, h.fixed, hl, fun p hp => h.held p ?_⟩
  show o.kvmm.world.paging.physmem.hasDescr p = true
  rw [h.lends.descr, ← hl.descr]
  exact hp

theorem HoldersInv.newRange (h : HoldersInv e total boot o g₀)
    (hspares : o.kvmm.world.paging.Spares o.physmem.freePpage (takenPages o.kvmm n)) :
    HoldersInv e total boot (holdersStep o (.newRange n)) g₀ := by
  have hranges : KernelRanges e total (kvmmNewRange kernelPageMap 2 o.kvmm n true).2 :=
    kernelStep_ranges (.newRange n true) h.ranges trivial
  refine h.setKvmm hranges (kvmmNewRange_flags 2 o.kvmm n true) ?_ ?_
  · rcases kvmmNewRange_attempt 0 h.ranges h.slabs h.lends hspares with heq | ⟨t, gone, M, hatt, hkeeps | hgives⟩
    · rw [heq]
      exact h.callers
    · obtain ⟨r, heq, -⟩ := hkeeps.result
      rw [heq]
      exact fun x hx => (hatt.ofCaller x).mpr (.inl (h.callers x hx))
    · intro x hx
      refine (hgives.undoes.ofCaller x).mpr ⟨(hatt.ofCaller x).mpr (.inl (h.callers x hx)), fun hgone => ?_⟩
      exact hatt.fresh x hgone (h.callers x hx).1
  · rcases kvmmNewRange_attempt 0 h.ranges h.slabs h.lends hspares with heq | ⟨t, gone, M, hatt, hkeeps | hgives⟩
    · rw [heq]
      exact h.lends
    · obtain ⟨⟨r, heq, -⟩, hall⟩ := hkeeps
      rw [heq]
      have hset : M = mappedWords boot t := by
        ext v
        constructor
        · intro hv
          rcases hatt.mapped v hv with ⟨a, ⟨x, hx, hboot, ha⟩, rfl⟩ | ⟨x, hx, hnew, a, ha, rfl⟩
          · exact ⟨a, ⟨x, hatt.used x hx, hboot, ha⟩, rfl⟩
          · exact ⟨a, ⟨x, hx, fun hboot => hnew (h.callers x hboot).1, ha⟩, rfl⟩
        · rintro ⟨a, ⟨x, hx, hboot, ha⟩, rfl⟩
          by_cases hold : x ∈ o.kvmm.usedList
          · exact hatt.keeps ⟨a, ⟨x, hold, hboot, ha⟩, rfl⟩
          · exact hall x hx hold a ha
      exact hset ▸ hatt.lends
    · obtain ⟨held, hinv⟩ := hatt.inv
      have halign : ∀ x ∈ t.usedList, nbBytesPerPage ∣ x.base := by
        intro x hx
        by_cases hold : x ∈ o.kvmm.usedList
        · exact h.ranges.used_aligned x hold
        · exact (hatt.taken x hx hold).1
      refine hgives.undoes.lends_mapped hinv hgives.inv.inv (fun a ha => h.ranges.bound ((hatt.covered a).mp ha)) halign
        hatt.lends (fun v hv => ?_) (fun x hx hboot a ha => ?_) fun a hlost => ?_
      · rcases hatt.mapped v hv with ⟨a, ⟨x, hx, hboot, ha⟩, rfl⟩ | ⟨x, hx, hnew, a, ha, rfl⟩
        · exact ⟨a, ⟨x, hatt.used x hx, hboot, ha⟩, rfl⟩
        · exact ⟨a, ⟨x, hx, fun hboot => hnew (h.callers x hboot).1, ha⟩, rfl⟩
      · by_cases hold : x ∈ o.kvmm.usedList
        · exact hatt.keeps ⟨a, ⟨x, hold, hboot, ha⟩, rfl⟩
        · exact hatt.slab x (hgives.undoes.used x hx) hold (fun hgone => hgives.undoes.unused x hgone hx) a ha
      · obtain ⟨x, hx, hlost, ha⟩ := hlost
        by_cases hold : x ∈ o.kvmm.usedList
        · refine .inl (hatt.keeps ⟨a, ⟨x, hold, fun hboot => hlost ?_, ha⟩, rfl⟩)
          refine ((hgives.undoes.ofCaller x).mpr ⟨(hatt.ofCaller x).mpr (.inl (h.callers x hboot)), fun hgone => ?_⟩).1
          exact hatt.fresh x hgone hold
        · exact hatt.pages x hx hold a ha

theorem HoldersInv.delRange (h : HoldersInv e total boot o g₀) (hdel : Deletable o.kvmm x) (hx : x ∉ boot.usedList) :
    HoldersInv e total boot (holdersStep o (.delRange x)) g₀ := by
  have hranges : KernelRanges e total ((kvmmDelRange kernelPageMap o.kvmm x).getD o.kvmm) :=
    kernelStep_ranges (.delRange x) h.ranges ⟨hdel, h.not_fixed hx⟩
  have hflags := @kvmmDelRange_getD_flags _ kernelPageMap o.kvmm x
  obtain ⟨s', heq, hinv', hundo⟩ := kvmmDelRange_undoes h.ranges.inv h.ranges.used_aligned hdel (h.not_fixed hx)
  have hstep : holdersStep o (.delRange x) = { o with kvmm := s' } := by
    show ({ o with kvmm := (kvmmDelRange kernelPageMap o.kvmm x).getD o.kvmm } : PageHolders) = _
    rw [heq]
    rfl
  rw [heq] at hranges hflags
  rw [hstep]
  have hboot : ∀ y ∈ boot.usedList, OfCaller s' y := by
    intro y hy
    refine (hundo.ofCaller y).mpr ⟨h.callers y hy, fun hin => hx ?_⟩
    exact List.mem_singleton.mp hin ▸ hy
  refine h.setKvmm hranges hflags hboot ?_
  refine hundo.lends_mapped h.ranges.inv.inv hinv'.inv (fun a => h.ranges.bound) h.ranges.used_aligned h.lends
    subset_rfl (fun y hy hnot a ha => ⟨a, ⟨y, hundo.used y hy, hnot, ha⟩, rfl⟩) fun a hlost => ?_
  obtain ⟨y, hy, hnot, ha⟩ := hlost
  exact .inl ⟨a, ⟨y, hy, fun hyb => hnot (hboot y hyb).1, ha⟩, rfl⟩

/-- A reference that is taken or given back. -/
theorem HoldersInv.recount (h : HoldersInv e total boot o g₀) (hinv : PhysmemInv total m)
    (hdescr : ∀ q, m.hasDescr q = o.physmem.hasDescr q) (hcnt : m.refCnt = Function.update o.physmem.refCnt p c)
    (hp : ∀ v ∈ mappedWords boot o.kvmm, o.kvmm.world.paging.referred v ≠ some p) :
    ∃ g, HoldersInv e total boot { o.setPhysmem m with held := Function.update o.held p c.toNat } g := by
  refine ⟨_, kernelStep_ranges (.others (o.kvmm.world.setPhysmem m)) h.ranges hinv, h.slabs, h.callers, h.fixed,
    h.lends.recount hinv hdescr hcnt hp, fun q hq => ?_⟩
  show (Function.update g₀.physmem.refCnt p c q).toNat = Function.update o.held p c.toNat q
  by_cases hne : q = p
  · rw [hne, Function.update_self, Function.update_self]
  · rw [Function.update_of_ne hne, Function.update_of_ne hne]
    exact h.held q ((hdescr q).symm.trans hq)

theorem HoldersInv.refNew (h : HoldersInv e total boot o g₀) : ∃ g, HoldersInv e total boot (holdersStep o .refNew) g := by
  have hmem : PhysmemInv total o.physmem := h.ranges.memory
  cases hfree : o.physmem.freePpage with
  | nil =>
    have hnew : physmemRefPhyspageNew o.physmem = (0, o.physmem) := by
      unfold physmemRefPhyspageNew
      rw [hfree]
    have hstep : holdersStep o .refNew = o := by
      unfold holdersStep
      dsimp only
      rw [hnew]
      rfl
    rw [hstep]
    exact ⟨g₀, h⟩
  | cons p rest =>
    have hnew := physmemRefPhyspageNew_eq hmem hfree
    have hin : p ∈ o.physmem.freePpage := hfree ▸ List.mem_cons_self
    have hd := (hmem.listed p).mp (List.mem_append_left _ hin)
    have hzero := hmem.free_refCnt p hin
    have hne : p ≠ 0 := by
      rintro rfl
      rw [hmem.hasDescr_zero] at hd
      cases hd
    have hnot := h.lends.not_referred (.inl hzero)
    have hnone : o.held p = 0 := by
      rw [← h.held p hd, ← h.lends.refCnt p id hnot]
      exact congrArg UInt32.toNat hzero
    have hinv : PhysmemInv total (physmemRefPhyspageNew o.physmem).2 := hmem.step .refNew trivial
    rw [hnew] at hinv
    obtain ⟨g, hg⟩ := h.recount (p := p) (c := 1) hinv (fun q => rfl) rfl hnot
    refine ⟨g, ?_⟩
    have hstep : holdersStep o .refNew = { o.setPhysmem (physmemRefPhyspageNew o.physmem).2 with
        held := Function.update o.held p (1 : UInt32).toNat } := by
      unfold holdersStep
      dsimp only
      rw [hnew]
      dsimp only
      rw [if_neg hne, hnone]
      rfl
    rw [hstep, hnew]
    exact hg

theorem HoldersInv.unref (h : HoldersInv e total boot o g₀) (hp : 0 < o.held p) :
    ∃ g, HoldersInv e total boot (holdersStep o (.unref p)) g := by
  have hmem : PhysmemInv total o.physmem := h.ranges.memory
  have hinv : PhysmemInv total (physmemUnrefPhyspage o.physmem p).2 := hmem.step (.unref p) trivial
  have hcnt := physmemUnrefPhyspage_refCnt o.physmem p
  by_cases hd : o.physmem.hasDescr p = true
  · have hheld := h.held p hd
    have hused : g₀.physmem.refCnt p ≠ 0 := by
      intro hzero
      rw [hzero] at hheld
      exact absurd hheld (Nat.ne_of_lt hp)
    have hnot := h.lends.not_referred (.inr hused)
    have hsame : o.physmem.refCnt p = g₀.physmem.refCnt p := h.lends.refCnt p id hnot
    have hpos : 0 < o.physmem.refCnt p := by
      rw [UInt32.lt_iff_toNat_lt, hsame, hheld]
      exact hp
    rw [if_pos ⟨hd, hpos⟩] at hcnt
    obtain ⟨g, hg⟩ := h.recount hinv (physmemUnrefPhyspage_hasDescr o.physmem p) hcnt hnot
    have hword : (o.physmem.refCnt p - 1).toNat = o.held p - 1 := by
      have hone : (1 : UInt32) ≤ o.physmem.refCnt p := UInt32.le_iff_toNat_le.mpr (UInt32.lt_iff_toNat_lt.mp hpos)
      rw [UInt32.toNat_sub_of_le _ _ hone, hsame, hheld]
      rfl
    rw [hword] at hg
    exact ⟨g, hg⟩
  · have hsame : (physmemUnrefPhyspage o.physmem p).2 = o.physmem := by
      unfold physmemUnrefPhyspage
      rw [Bool.eq_false_of_not_eq_true hd]
      rfl
    refine ⟨g₀, ?_⟩
    have hstep : holdersStep o (.unref p) = { o with held := Function.update o.held p (o.held p - 1) } := by
      unfold holdersStep
      dsimp only
      rw [hsame]
      rfl
    rw [hstep]
    refine ⟨h.ranges, h.slabs, h.callers, h.fixed, h.lends, fun q hq => ?_⟩
    have hne : q ≠ p := fun he => hd (he ▸ hq)
    show _ = Function.update o.held p (o.held p - 1) q
    rw [Function.update_of_ne hne]
    exact h.held q hq

/-- One call. -/
theorem HoldersInv.step (h : HoldersInv e total boot o g₀) (call : HoldersCall) (hok : HoldersCallOk boot o call)
    (hunused : MapsUnused o call) : ∃ g, HoldersInv e total boot (holdersStep o call) g := by
  cases call with
  | newRange n => exact ⟨g₀, h.newRange hunused⟩
  | delRange x => exact ⟨g₀, h.delRange hok.1 hok.2⟩
  | refNew => exact h.refNew
  | unref p => exact h.unref hok

end

/-! ## Runs -/

variable {l : KernelLayout} {h : Heap KernelPages}

theorem kvmmSetup_holders (hl : l.Ok) (hi : KernelImage l) (hm : PhysmemInv total m)
    (hboot : kvmmSetupPages l (identityPages m) = some h) :
    HoldersInv (l.slack h.kvmm) total h.kvmm (.boot h.kvmm) h.kvmm.world.paging := by
  obtain ⟨h', heq, hranges⟩ := kvmmSetup_kernelRanges hl hi hm
  obtain rfl : h' = h := Option.some.inj (heq.symm.trans hboot)
  obtain ⟨h'', heq', hsetup, -⟩ := kvmmSetupPages_spec hl m
  obtain rfl : h'' = h' := Option.some.inj (heq'.symm.trans hboot)
  have hnone : mappedWords h''.kvmm h''.kvmm = ∅ := by
    ext v
    refine iff_of_false ?_ (Set.notMem_empty v)
    rintro ⟨a, ⟨x, hx, hnot, -⟩, -⟩
    exact hnot hx
  refine ⟨hranges, kvmmSetup_mapsSlabs hboot, fun x hx => ⟨hx, fun slab hs hrange => ?_⟩, fun x hx => hx.1, ?_,
    fun p _ => rfl⟩
  · have hkey := hsetup.keys _ (List.mem_map_of_mem (f := fun slab => (slab.addr, slab.firstObj, slab.range)) hs)
    rw [Prod.mk.injEq, Prod.mk.injEq, hrange] at hkey
    cases hkey.2.2
  · show Lends total _ _ _ (mappedWords h''.kvmm h''.kvmm)
    rw [hnone]
    exact .refl hranges.memory

/-- **No physical page is aliased** in a run where each new range takes pages whose physical pages nobody uses. -/
theorem kvmm_runs_noAliasing (hl : l.Ok) (hi : KernelImage l) (hm : PhysmemInv total m)
    (hboot : kvmmSetupPages l (identityPages m) = some h) (calls : List HoldersCall)
    (hcalls : Guarded holdersStep (fun s call => HoldersCallOk h.kvmm s call ∧ MapsUnused s call) (.boot h.kvmm) calls) :
    NoAliasing h.kvmm (run holdersStep (.boot h.kvmm) calls) := by
  have hstep : ∀ (s : PageHolders) (call : HoldersCall), (∃ g, HoldersInv (l.slack h.kvmm) total h.kvmm s g) →
      HoldersCallOk h.kvmm s call ∧ MapsUnused s call →
      ∃ g, HoldersInv (l.slack h.kvmm) total h.kvmm (holdersStep s call) g :=
    fun s call hs hok => hs.elim fun g hg => hg.step call hok.1 hok.2
  obtain ⟨g, hg⟩ := invariant_run hstep calls _ ⟨_, kvmmSetup_holders hl hi hm hboot⟩ hcalls
  exact hg.noAliasing

/-- Three pages as the first range, while their physical pages are free. -/
theorem kernelAt1M_noAliasing : ∃ h, kvmmSetupPages kernelAt1M (identityPages setupAt1M.physmem) = some h ∧
    NoAliasing h.kvmm (run holdersStep (.boot h.kvmm) [.newRange 3, .refNew]) := by
  obtain ⟨h, heq, -⟩ := kvmmSetup_kernelRanges kernelAt1M_ok kernelAt1M_image setupAt1M_inv
  have hcheck : ∀ h ∈ kvmmSetupPages kernelAt1M (identityPages setupAt1M.physmem),
      h.kvmm.world.paging.Spares h.kvmm.world.paging.physmem.freePpage (takenPages h.kvmm 3) := by
    decide +kernel
  exact ⟨h, heq, kvmm_runs_noAliasing kernelAt1M_ok kernelAt1M_image setupAt1M_inv heq [.newRange 3, .refNew]
    ⟨⟨trivial, hcheck h heq⟩, ⟨trivial, trivial⟩, trivial⟩⟩


/-! ## A run that frees a held page -/

theorem PhysmemInv.hasDescr_refNew (h : PhysmemInv total m) (q : UInt32) :
    (physmemRefPhyspageNew m).2.hasDescr q = m.hasDescr q :=
  @PhysmemInv.hasDescr_step total m q h .refNew trivial

/-- Since `kvmm_setup`, references have been taken and given back and nothing else has happened. -/
structure OnlyRefs (e : Slack) (total : UInt32) (boot : Kvmm KernelPages) (s : PageHolders) : Prop where
  inv : ∃ g, HoldersInv e total boot s g
  kvmm : s.kvmm = { boot with world := boot.world.setPhysmem s.physmem }
  descr : ∀ q, s.physmem.hasDescr q = boot.world.paging.physmem.hasDescr q

section

variable {o : PageHolders} {k : Nat} {q : UInt32}

theorem OnlyRefs.memory (h : OnlyRefs e total boot o) : PhysmemInv total o.physmem :=
  h.inv.elim fun _ hg => hg.ranges.memory

/-- All references are held by somebody. -/
theorem OnlyRefs.held_eq (h : OnlyRefs e total boot o) (hd : o.physmem.hasDescr p = true) :
    o.held p = (o.physmem.refCnt p).toNat := by
  obtain ⟨g, hg⟩ := h.inv
  have hnone : ∀ v ∈ mappedWords boot o.kvmm, o.kvmm.world.paging.referred v ≠ some p := by
    rintro v ⟨a, ⟨x, hx, hnot, -⟩, -⟩
    rw [h.kvmm] at hx
    exact absurd hx hnot
  have hsame : o.physmem.refCnt p = g.physmem.refCnt p := hg.lends.refCnt p id hnone
  rw [hsame, hg.held p hd]

theorem OnlyRefs.mem_free (h : OnlyRefs e total boot o) (hd : o.physmem.hasDescr p = true) :
    p ∈ o.physmem.freePpage ↔ o.held p = 0 := by
  rw [h.held_eq hd, h.memory.mem_free_iff hd, word_eq_iff]
  rfl

theorem OnlyRefs.refNew (h : OnlyRefs e total boot o) : OnlyRefs e total boot (holdersStep o .refNew) := by
  have hphys : (holdersStep o .refNew).physmem = (physmemRefPhyspageNew o.physmem).2 := rfl
  have hstep : (holdersStep o .refNew).kvmm =
      { o.kvmm with world := o.kvmm.world.setPhysmem (physmemRefPhyspageNew o.physmem).2 } := rfl
  refine ⟨h.inv.elim fun _ hg => hg.refNew, ?_, fun q => ?_⟩
  · rw [hstep, hphys, h.kvmm]
    rfl
  · exact (h.memory.hasDescr_refNew q).trans (h.descr q)

theorem OnlyRefs.unref (h : OnlyRefs e total boot o) (hp : 0 < o.held p) :
    OnlyRefs e total boot (holdersStep o (.unref p)) := by
  have hstep : (holdersStep o (.unref p)).kvmm =
      { o.kvmm with world := o.kvmm.world.setPhysmem (physmemUnrefPhyspage o.physmem p).2 } := rfl
  refine ⟨h.inv.elim fun _ hg => hg.unref hp, ?_, fun q => ?_⟩
  · rw [hstep, h.kvmm]
    rfl
  · exact (physmemUnrefPhyspage_hasDescr o.physmem p q).trans (h.descr q)

/-- All free pages are taken. -/
theorem OnlyRefs.takeAll (h : OnlyRefs e total boot o) : ∃ calls, Guarded holdersStep (HoldersCallOk boot) o calls ∧
    OnlyRefs e total boot (run holdersStep o calls) ∧ (run holdersStep o calls).physmem.freePpage = [] := by
  generalize hlen : o.physmem.freePpage.length = n
  induction n generalizing o with
  | zero => exact ⟨[], trivial, h, List.eq_nil_of_length_eq_zero hlen⟩
  | succ n ih =>
    have hrest : (holdersStep o .refNew).physmem.freePpage.length = n := by
      show (physmemRefPhyspageNew o.physmem).2.freePpage.length = n
      cases hfree : o.physmem.freePpage with
      | nil =>
        rw [hfree] at hlen
        cases hlen
      | cons p rest =>
        rw [hfree, List.length_cons, Nat.add_right_cancel_iff] at hlen
        rw [physmemRefPhyspageNew_eq h.memory hfree]
        exact hlen
    obtain ⟨calls, hok, hend⟩ := ih h.refNew hrest
    exact ⟨.refNew :: calls, ⟨trivial, hok⟩, hend⟩

/-- References to a page are given back by those who hold them, down to `k`. -/
theorem OnlyRefs.giveBack (h : OnlyRefs e total boot o) (hk : k ≤ o.held p) :
    ∃ calls, Guarded holdersStep (HoldersCallOk boot) o calls ∧ OnlyRefs e total boot (run holdersStep o calls) ∧
      (run holdersStep o calls).held = Function.update o.held p k := by
  obtain ⟨n, hn⟩ := Nat.exists_eq_add_of_le' hk
  clear hk
  induction n generalizing o with
  | zero =>
    rw [Nat.zero_add] at hn
    refine ⟨[], trivial, h, ?_⟩
    rw [← hn, Function.update_eq_self]
    rfl
  | succ n ih =>
    have hpos : 0 < o.held p := by omega
    have hstep : (holdersStep o (.unref p)).held = Function.update o.held p (o.held p - 1) := rfl
    have hless : (holdersStep o (.unref p)).held p = n + k := by
      rw [hstep, Function.update_self]
      omega
    obtain ⟨calls, hok, honly, hheld⟩ := ih (h.unref hpos) hless
    refine ⟨.unref p :: calls, ⟨hpos, hok⟩, honly, ?_⟩
    rw [run_cons, hheld, hstep, Function.update_idem]

/-- Where the first free range begins at a page that refers to the physical page `q`, the first call of
`kvmm_new_range` drops a reference to `q`. -/
theorem OnlyRefs.newRange_frees {f : KvmmRange} {ranges : List KvmmRange} {rest : List UInt32}
    (h : OnlyRefs e total boot o) (hfirst : boot.freeList = f :: ranges) (hfits : 1 ≤ f.nbPages)
    (hobjs : 2 < boot.rangeCache.nbFreeObj) (href : boot.world.paging.referred (UInt32.ofNat f.base) = some q)
    (hfree : o.physmem.freePpage = p :: rest) (hone : o.held q = 1) :
    q ∈ (holdersStep o (.newRange 1)).physmem.freePpage := by
  obtain ⟨g, hg⟩ := h.inv
  have hlist : o.kvmm.freeList = f :: ranges := by rw [h.kvmm, hfirst]
  have hcache : o.kvmm.rangeCache = boot.rangeCache := by rw [h.kvmm]
  have hfind : (o.kvmm.freeList.find? fun r => r.nbPages ≥ 1) = some f := by
    have htest : decide (f.nbPages ≥ 1) = true := decide_eq_true hfits
    rw [hlist]
    exact List.find?_cons_of_pos htest
  have halign : isPageAligned (UInt32.ofNat f.base) = true :=
    isPageAligned_ofNat (hg.ranges.free_aligned f (hlist ▸ List.mem_cons_self))
  have hword : o.kvmm.world.paging.referred (UInt32.ofNat f.base) = some q := by
    refine Eq.trans (referred_congr halign ?_ h.descr) href
    rw [h.kvmm]
    rfl
  have hd : o.physmem.hasDescr q = true := ((referred_eq_some _ _ _).mp hword).1
  have hcnt : o.physmem.refCnt q = 1 := by
    rw [word_eq_iff, ← h.held_eq hd, hone]
    rfl
  obtain ⟨t, r, hopen, ho⟩ := newRangeWith_opened hg.ranges.inv Nat.one_pos
    (by rw [hcache]; omega) true hfind (.inr (by rw [hcache]; omega))
  obtain ⟨hok, hin⟩ := KernelPages.mapPage_frees h.memory hfree halign hword hcnt
  have hstep : holdersStep o (.newRange 1) = { o with kvmm := (mapNewRange kernelPageMap t r true).2 } := by
    rw [← hopen]
    rfl
  rw [hstep]
  unfold mapNewRange
  rw [if_pos rfl, ho.base, ho.nbPages, ho.world, mapPages, Nat.zero_mul, Nat.add_zero]
  have hE : kernelPageMap.mapPage o.kvmm.world f.base = o.kvmm.world.mapPage f.base := rfl
  rw [hE]
  generalize o.kvmm.world.mapPage f.base = res at hok hin ⊢
  obtain ⟨ok, w⟩ := res
  obtain rfl : ok = true := hok
  show q ∈ (w.physmemSetKvmmRange _ _).paging.physmem.freePpage
  rw [KernelPages.physmemSetKvmmRange_paging]
  exact hin

end

section

variable {q : UInt32}

theorem mapFirstSlab_hasDescr {w : KernelPages} {vaddr : Nat} (h : PhysmemInv total w.paging.physmem) :
    (w.mapFirstSlab vaddr).paging.physmem.hasDescr q = w.paging.physmem.hasDescr q := by
  exact (pagingMap_hasDescr _ _ _ _ q).trans ((pagingUnmap_hasDescr _ _ q).trans (h.hasDescr_refNew q))

theorem firstSlabPages_hasDescr (l : KernelLayout) (h : PhysmemInv total m) :
    (firstSlabPages l m).paging.physmem.hasDescr q = m.hasDescr q := by
  have hfirst : PhysmemInv total ((identityPages m).mapFirstSlab l.firstSlabOfCaches).paging.physmem :=
    refNew_map_inv (w := identityPages m) h (firstSlabOfCaches_aligned l)
  exact (mapFirstSlab_hasDescr hfirst).trans (mapFirstSlab_hasDescr (w := identityPages m) h)

/-- The first free range begins at `kvmmBase`, where `paging_init` has mapped the page of the same address. -/
theorem kvmmSetup_first (hl : l.Ok) (hm : PhysmemInv total m) (hboot : kvmmSetupPages l (identityPages m) = some h)
    (hd : m.hasDescr (UInt32.ofNat kvmmBase) = true) :
    ∃ f ranges, h.kvmm.freeList = f :: ranges ∧ f.base = kvmmBase ∧ 1 ≤ f.nbPages ∧ 2 < h.kvmm.rangeCache.nbFreeObj ∧
      h.kvmm.world.paging.referred (UInt32.ofNat f.base) = some (UInt32.ofNat kvmmBase) := by
  obtain ⟨h', heq, hk, hrec, hpte⟩ := kvmmSetupPages_spec hl m
  obtain rfl : h' = h := Option.some.inj (heq.symm.trans hboot)
  have hcount := hk.count
  have hlen : l.createRanges.length = 9 := rfl
  have hfilter : ∃ args, (l.createRanges.filter fun a => a.1 && LargeEnough a) =
      (true, kvmmBase, KernelLayout.biosNVideoStart, none) :: args := ⟨_, List.filter_cons_of_pos (by decide)⟩
  obtain ⟨args, hargs⟩ := hfilter
  have hfree := hk.free
  rw [hargs] at hfree
  obtain ⟨f, ranges, hfor, -, hlist⟩ := List.forall₂_cons_left_iff.mp hfree
  have hbase : f.base = kvmmBase := hfor.base
  refine ⟨f, ranges, hlist, hbase, ?_, by omega, ?_⟩
  · rw [hfor.nbPages]
    decide
  · have hpage := hpte f (hlist ▸ List.mem_cons_self)
    rw [hbase] at hpage ⊢
    rw [hrec.paging, referred_eq_some, firstSlabPages_hasDescr l hm, hpage]
    exact ⟨hd, rfl, by decide⟩

/-- **A held page gets free** after any boot, on a machine where the pages at `0x3000` and `0x4000` are managed: all
pages are taken, the one at `0x3000` is given back, and a range of one page is requested. -/
theorem kvmmSetup_frees_held (hl : l.Ok) (hi : KernelImage l) (hm : PhysmemInv total m)
    (hboot : kvmmSetupPages l (identityPages m) = some h) (hspare : m.hasDescr 0x3000 = true)
    (hfirst : m.hasDescr (UInt32.ofNat kvmmBase) = true) :
    ∃ calls, Guarded holdersStep (HoldersCallOk h.kvmm) (.boot h.kvmm) calls ∧
      ¬ NoAliasing h.kvmm (run holdersStep (.boot h.kvmm) calls) := by
  obtain ⟨f, ranges, hlist, hbase, hfits, hobjs, href⟩ := kvmmSetup_first hl hm hboot hfirst
  have hdescr : ∀ q, h.kvmm.world.paging.physmem.hasDescr q = m.hasDescr q := by
    intro q
    obtain ⟨h', heq, -, hrec, -⟩ := kvmmSetupPages_spec hl m
    obtain rfl : h' = h := Option.some.inj (heq.symm.trans hboot)
    rw [hrec.paging, firstSlabPages_hasDescr l hm]
  have honly : OnlyRefs (l.slack h.kvmm) total h.kvmm (.boot h.kvmm) :=
    ⟨⟨_, kvmmSetup_holders hl hi hm hboot⟩, rfl, fun _ => rfl⟩
  obtain ⟨take, hok, htaken, hnone⟩ := honly.takeAll
  generalize ho : run holdersStep (.boot h.kvmm) take = o at htaken hnone
  have hused : 0 < o.held (UInt32.ofNat kvmmBase) := by
    refine Nat.pos_of_ne_zero fun hzero => ?_
    have hin := (htaken.mem_free ((htaken.descr _).trans ((hdescr _).trans hfirst))).mpr hzero
    rw [hnone] at hin
    cases hin
  -- the page at `0x3000` is given back, and so are all references but one to that of `kvmmBase`
  obtain ⟨give, hok₁, honly₁, hheld₁⟩ := @OnlyRefs.giveBack _ _ _ 0x3000 _ 0 htaken (Nat.zero_le _)
  generalize ho₁ : run holdersStep o give = o₁ at honly₁ hheld₁
  have hsame : o₁.held (UInt32.ofNat kvmmBase) = o.held (UInt32.ofNat kvmmBase) := by
    rw [hheld₁, Function.update_of_ne (by decide)]
  obtain ⟨keep, hok₂, honly₂, hheld₂⟩ := honly₁.giveBack (show 1 ≤ o₁.held (UInt32.ofNat kvmmBase) by omega)
  generalize ho₂ : run holdersStep o₁ keep = o₂ at honly₂ hheld₂
  have hone : o₂.held (UInt32.ofNat kvmmBase) = 1 := by rw [hheld₂, Function.update_self]
  have hzero : o₂.held 0x3000 = 0 := by
    rw [hheld₂, Function.update_of_ne (by decide), hheld₁, Function.update_self]
  have hin : (0x3000 : UInt32) ∈ o₂.physmem.freePpage :=
    (honly₂.mem_free ((honly₂.descr _).trans ((hdescr _).trans hspare))).mpr hzero
  obtain ⟨p, rest, hfree⟩ := List.exists_cons_of_ne_nil (List.ne_nil_of_mem hin)
  have hfreed := honly₂.newRange_frees hlist hfits hobjs href hfree hone
  refine ⟨take ++ (give ++ (keep ++ [.newRange 1])), ?_, ?_⟩
  · rw [guarded_append, ho, guarded_append, ho₁, guarded_append]
    exact ⟨hok, hok₁, hok₂, trivial, trivial⟩
  · rw [run_append, ho, run_append, ho₁, run_append, ho₂]
    intro halias
    have hheld₃ : (holdersStep o₂ (.newRange 1)).held = o₂.held := rfl
    refine halias.held (UInt32.ofNat kvmmBase) ?_ hfreed
    show 0 < (holdersStep o₂ (.newRange 1)).held _
    rw [hheld₃, hone]
    exact Nat.one_pos

end

/-- A kernel of 32 KiB at 1 MB, with the descriptors of 8 MB of memory behind it. -/
def kernelWith8M : KernelLayout := ⟨0x100000, 0x112000, 0x104000, 0x106000⟩

/-- What `physmem_setup` finds there. -/
def setupWith8M : PhysmemSetup := (physmemSetup 0x800000 0x100000 0x108000 ⟨0, 0, fun _ => 0, [], [], 0⟩).2

/-- `paging_init` has taken a page directory and 1024 page tables. -/
def pagesWith8M : Physmem := run physmemStep setupWith8M.physmem (List.replicate 1025 .refNew)

theorem kernelWith8M_ok : kernelWith8M.Ok := ⟨by decide, by decide, by decide, by decide, by decide⟩

theorem kernelWith8M_image : KernelImage kernelWith8M :=
  ⟨by decide, by decide, by decide, by decide, by decide, by decide, by decide, by decide⟩

theorem setupWith8M_spec : PhysmemInv setupWith8M.physmemTotalPages setupWith8M.physmem ∧
    setupWith8M.physmem.physmemTop = pageAlignInf 0x800000 := by
  have hok : (physmemSetup 0x800000 0x100000 0x108000 ⟨0, 0, fun _ => 0, [], [], 0⟩).1 = 0 := by
    unfold physmemSetup
    dsimp only
    rw [if_neg (by decide)]
  have hram : pageSize ≤ 0x800000 := by decide
  unfold setupWith8M
  exact physmemSetup_inv hok hram

theorem pagesWith8M_inv : PhysmemInv setupWith8M.physmemTotalPages pagesWith8M := by
  refine setupWith8M_spec.1.run (guarded_of_forall fun op hop m => ?_)
  rw [List.eq_of_mem_replicate hop]
  trivial

theorem pagesWith8M_hasDescr (p : UInt32) (halign : p.toNat % 4096 = 0) (hlow : 4096 ≤ p.toNat)
    (htop : p.toNat < (pageAlignInf 0x800000).toNat) : pagesWith8M.hasDescr p = true := by
  have hrun : pagesWith8M.physmemTop = pageAlignInf 0x800000 := by
    unfold pagesWith8M
    rw [run_physmemTop]
    exact setupWith8M_spec.2
  rw [hasDescr_iff pagesWith8M_inv.base, hrun]
  exact ⟨halign, hlow, htop⟩

/-- A machine with 8 MB. -/
theorem kernelWith8M_aliases : kernelWith8M.Ok ∧ KernelImage kernelWith8M ∧
    ∃ h, kvmmSetupPages kernelWith8M (identityPages pagesWith8M) = some h ∧
      ¬ ∀ calls, Guarded holdersStep (HoldersCallOk h.kvmm) (.boot h.kvmm) calls →
        NoAliasing h.kvmm (run holdersStep (.boot h.kvmm) calls) := by
  obtain ⟨h, heq, -⟩ := kvmmSetup_kernelRanges kernelWith8M_ok kernelWith8M_image pagesWith8M_inv
  refine ⟨kernelWith8M_ok, kernelWith8M_image, h, heq, fun hclaim => ?_⟩
  obtain ⟨calls, hok, halias⟩ := kvmmSetup_frees_held kernelWith8M_ok kernelWith8M_image pagesWith8M_inv heq
    (pagesWith8M_hasDescr _ (by decide) (by decide) (by decide))
    (pagesWith8M_hasDescr _ (by decide) (by decide) (by decide))
  exact halias (hclaim calls hok)

end Desiros.Mem
