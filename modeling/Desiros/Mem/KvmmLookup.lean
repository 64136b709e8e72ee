import Desiros.Mem.KvmmPages
import Desiros.Library.Runs

/-!
# Looking up a range (`lookup_range` of `mem/kvmm.c`)

`lookup_range` takes the range from the physical page at an address, and searches the used list only where no page is
present. A physical page names the range it was mapped for last. `paging_init` has mapped every page of the kernel to
the physical page at the same address, and a range without physical pages is found at such a page.
-/

namespace Desiros.Mem

open Desiros.Library KslabCache

/-- The state of `kvmm.c` over the page table and the physical pages. -/
abbrev PagedKvmm := Kvmm KernelPages

namespace Kvmm

/-- `lookup_range`: the address of the structure. -/
def lookupRangePages (s : PagedKvmm) (vaddr : Nat) : Option Nat :=
  let ppagePaddr := pageAlignInf (s.world.virtualToPhysical vaddr)
  if ppagePaddr ≠ 0 then s.world.physmemGetKvmmRange ppagePaddr
  else (s.lookupRange vaddr).map (·.addr)

/-- `kvmm_free`. What is left in a structure after it was given back is not modelled, and such a range is refused. -/
def kvmmFreePages (s : PagedKvmm) (vaddr : Nat) : Int × PagedKvmm :=
  match (s.lookupRangePages vaddr).bind (findRange (s.usedList ++ s.freeList)) with
  | none => (-1, s)
  | some range =>
    if range.base ≠ vaddr then (-1, s)
    else if s.slabOf range.addr ≠ none then (-4, s)
    else (0, (kvmmDelRange kernelPageMap s range).getD s)

end Kvmm

open Kvmm

inductive KvmmCall
  | alloc (nbPages : Nat) (map : Bool)
  | free (vaddr : Nat)

/-- `kvmm_alloc` and `kvmm_free`. -/
def kvmmCall (s : PagedKvmm) : KvmmCall → PagedKvmm
  | .alloc nbPages map => (kvmmNewRange kernelPageMap 2 s nbPages map).2
  | .free vaddr => (s.kvmmFreePages vaddr).2

/-- `lookup_range` answers for every address of the area with the used range that covers it. -/
structure LookupsRight (s : PagedKvmm) : Prop where
  used : ∀ v, kvmmBase ≤ v → v < kvmmTop → ∀ r ∈ s.usedList, r.Covers v →
    (∀ r' ∈ s.usedList, r'.Covers v → r' = r) → s.lookupRangePages v = some r.addr
  unused : ∀ v, kvmmBase ≤ v → v < kvmmTop → (∀ r ∈ s.usedList, ¬ r.Covers v) → s.lookupRangePages v = none

/-! ## Pages at their own address -/

theorem pageAlignInf_add_offset (v : UInt32) : pageAlignInf v + vaddrPgOffset v = v := by
  have hpage : (pageAlignInf v).toNat = v.toNat / 4096 * 4096 := toNat_alignInf v
  have hoff : (vaddrPgOffset v).toNat = v.toNat % 4096 := by
    rw [vaddrPgOffset, UInt32.toNat_and]
    exact Nat.and_two_pow_sub_one_eq_mod _ 12
  have hlt := word_lt v
  rw [word_eq_iff, word_add, hpage, hoff]
  omega

/-- A page that is still mapped to the physical page at its address. -/
theorem virtualToPhysical_identity {w : KernelPages} {vaddr : Nat}
    (h : w.paging.pte (pageAlignInf (UInt32.ofNat vaddr)) =
      ⟨pageAlignInf (UInt32.ofNat vaddr), true, true, false⟩) :
    w.virtualToPhysical vaddr = UInt32.ofNat vaddr := by
  unfold KernelPages.virtualToPhysical pagingVirtualToPhysical
  rw [h, if_pos rfl]
  show pageAlignInf (pageAlignInf _) + _ = _
  rw [pageAlignInf_pageAlignInf, pageAlignInf_add_offset]

theorem mapFirstSlab_kernelRange (w : KernelPages) (vaddr : Nat) : (w.mapFirstSlab vaddr).kernelRange = w.kernelRange := by
  unfold KernelPages.mapFirstSlab
  rcases physmemRefPhyspageNew w.paging.physmem with ⟨ppagePaddr, m⟩
  rfl

/-- Mapping a page leaves the others where they are. -/
theorem mapFirstSlab_pte (w : KernelPages) {vaddr : Nat} {q : UInt32} (hq : q ≠ pageAlignInf (UInt32.ofNat vaddr)) :
    (w.mapFirstSlab vaddr).paging.pte q = w.paging.pte q := by
  have hunmap : ∀ g : Paging, (pagingUnmap g (UInt32.ofNat vaddr)).2.pte q = g.pte q := by
    intro g
    unfold pagingUnmap
    split_ifs with h
    · rfl
    · exact Function.update_of_ne hq ..
  unfold KernelPages.mapFirstSlab
  rcases physmemRefPhyspageNew w.paging.physmem with ⟨ppagePaddr, m⟩
  show Function.update _ _ _ q = _
  rw [Function.update_of_ne hq]
  exact hunmap _

/-! ## What kvmm_setup records -/

/-- The page table is as given, and a physical page records no range but a used one. -/
structure Recorded (g : Paging) (s : PagedKvmm) : Prop where
  paging : s.world.paging = g
  used : ∀ p a, s.world.kernelRange p = some a → a ∈ s.usedList.map (·.addr)

theorem recordPages_spec (range base : Nat) : ∀ (n i : Nat) (w : KernelPages),
    (recordPages kernelPageMap range base i n w).paging = w.paging ∧
      ∀ p a, (recordPages kernelPageMap range base i n w).kernelRange p = some a → a = range ∨ w.kernelRange p = some a := by
  intro n
  induction n with
  | zero => exact fun i w => ⟨rfl, fun p a h => Or.inr h⟩
  | succ n ih =>
    intro i w
    have hone : (kernelPageMap.setKvmmRange w (base + i * nbBytesPerPage) range).paging = w.paging ∧
        ∀ p a, (kernelPageMap.setKvmmRange w (base + i * nbBytesPerPage) range).kernelRange p = some a →
          a = range ∨ w.kernelRange p = some a := by
      show (w.physmemSetKvmmRange _ range).paging = _ ∧ ∀ p a, (w.physmemSetKvmmRange _ range).kernelRange p = _ → _
      unfold KernelPages.physmemSetKvmmRange
      split_ifs with hdescr
      · exact ⟨rfl, fun p a h => Or.inr h⟩
      · refine ⟨rfl, fun p a h => ?_⟩
        change Function.update _ _ _ p = _ at h
        rw [Function.update_apply] at h
        split_ifs at h with hp
        · exact Or.inl (Option.some.inj h).symm
        · exact Or.inr h
    obtain ⟨hpaging, hrange⟩ := ih (i + 1) (kernelPageMap.setKvmmRange w (base + i * nbBytesPerPage) range)
    refine ⟨hpaging.trans hone.1, fun p a h => ?_⟩
    rcases hrange p a h with he | hw
    · exact Or.inl he
    · exact hone.2 p a hw

section

variable {base : Nat} {args : List (Bool × Nat × Nat × Option Nat)} {k : PagedKvmm} {g : Paging}

theorem Recorded.create (hrec : Recorded g k) (h : RangesSetup base args k) (hlen : args.length ≤ 200)
    (a : Bool × Nat × Nat × Option Nat) :
    Recorded g (kvmmCreateRange kernelPageMap k a.1 a.2.1 a.2.2.1 a.2.2.2) := by
  obtain ⟨isFree, b, t, o⟩ := a
  have hcount := h.count
  unfold kvmmCreateRange
  by_cases hlarge : t - b < nbBytesPerPage
  · rw [if_pos hlarge]
    exact hrec
  · obtain ⟨addr, c, ht, heq⟩ := @cacheAllocWith_plain _ k kernelPageMap (kvmmNewRange kernelPageMap 1) h.cache (by omega)
      (by omega)
    rw [if_neg hlarge, heq]
    cases isFree with
    | true => exact ⟨hrec.paging, hrec.used⟩
    | false =>
      dsimp only
      rw [if_neg Bool.false_ne_true]
      obtain ⟨hpaging, hrange⟩ := recordPages_spec addr b ((t - b + (nbBytesPerPage - 1)) / nbBytesPerPage) 0 k.world
      refine ⟨hpaging.trans hrec.paging, fun p x hx => ?_⟩
      show x ∈ (k.usedList ++ [_]).map _
      rw [List.map_append, List.mem_append]
      rcases hrange p x hx with he | hw
      · exact Or.inr (List.mem_singleton.mpr he)
      · exact Or.inl (hrec.used p x hw)

theorem Recorded.createAll : ∀ (rest args : List (Bool × Nat × Nat × Option Nat)) (k : PagedKvmm),
    Recorded g k → RangesSetup base args k → args.length + rest.length ≤ 200 →
    Recorded g (rest.foldl (fun s a => kvmmCreateRange kernelPageMap s a.1 a.2.1 a.2.2.1 a.2.2.2) k) := by
  intro rest
  induction rest with
  | nil => exact fun args k hrec _ _ => hrec
  | cons a rest ih =>
    intro args k hrec h hlen
    rw [List.length_cons] at hlen
    refine ih (args ++ [a]) _ (hrec.create h (by omega) a) (h.create (E := kernelPageMap) (by omega) a) ?_
    rw [List.length_append, List.length_singleton]
    omega

end

/-! ## An allocation without pages -/

section

variable {e : Slack} {s s' : PagedKvmm} {n : Nat} {r : KvmmRange} {g : Paging}

/-- What `kvmm_new_range` without `KVMM_MAP` leaves, as long as the range cache does not grow. -/
structure NewUnmapped (s : PagedKvmm) (r : KvmmRange) (s' : PagedKvmm) : Prop where
  fresh : r.addr ∉ s.usedList.map (·.addr)
  free : ∃ f ∈ s.freeList, f.base = r.base ∧ r.nbPages ≤ f.nbPages
  pos : 0 < r.nbPages
  used : s'.usedList = insertRange s.usedList r
  world : s'.world = s.world

theorem exists_newUnmapped (h : DelInvWith e s [] []) (hmany : 2 < s.rangeCache.nbFreeObj) (hn : 0 < n)
    (hfits : ∃ f ∈ s.freeList, n ≤ f.nbPages) :
    ∃ r s', kvmmNewRange kernelPageMap 2 s n false = (some r, s') ∧ NewUnmapped s r s' := by
  obtain ⟨obj, c, htake, halloc⟩ := @cacheAllocWith_plain _ s kernelPageMap (kvmmNewRange kernelPageMap 1) h.inv.cache
    (by omega) (by omega)
  obtain ⟨-, -, -, -, hobj, -⟩ := h.inv.cache.ok.take htake
  obtain ⟨f, hfind⟩ : ∃ f, (s.freeList.find? fun r => r.nbPages ≥ n) = some f := by
    obtain ⟨f, hf, hle⟩ := hfits
    rw [← Option.isSome_iff_exists, List.find?_isSome]
    exact ⟨f, hf, decide_eq_true hle⟩
  have hf := List.mem_of_find?_eq_some hfind
  have hge : n ≤ f.nbPages := by simpa using List.find?_some hfind
  show ∃ r s', newRangeWith (Kvmm.cacheAllocWith (kvmmNewRange kernelPageMap 1) kernelPageMap) kernelPageMap s n false = _ ∧ _
  unfold newRangeWith
  rw [if_neg (Nat.ne_of_gt hn), hfind]
  dsimp only
  by_cases hexact : f.nbPages = n
  · rw [if_pos hexact]
    refine ⟨f, _, rfl, fun hin => ?_, ⟨f, hf, rfl, Nat.le_refl _⟩, by omega, rfl, rfl⟩
    obtain ⟨u, hu, haddr⟩ := List.mem_map.mp hin
    exact h.inv.addr_ne hf hu haddr
  · have hfound : findRange s.freeList f.addr = some f := findRange_of_mem h.inv.free_nodup hf
    rw [if_neg hexact, halloc]
    dsimp only
    rw [hfound]
    refine ⟨⟨obj, f.base, n⟩, _, rfl, fun hin => ?_, ⟨f, hf, rfl, hge⟩, hn, rfl, rfl⟩
    obtain ⟨u, hu, haddr⟩ := List.mem_map.mp hin
    refine hobj (h.inv.allocated obj ?_)
    rw [List.append_nil]
    exact List.mem_map.mpr ⟨u, mem_all.mpr (.inr (.inl hu)), haddr⟩

/-- The new range is the only used one at its pages. -/
theorem NewUnmapped.covered (h : DelInvWith e s [] []) (hnew : NewUnmapped s r s') :
    r ∈ s'.usedList ∧ r.Covers r.base ∧ ∀ r' ∈ s'.usedList, r'.Covers r.base → r' = r := by
  obtain ⟨f, hf, hbase, hle⟩ := hnew.free
  have hfpos : 0 < f.nbPages := Nat.lt_of_lt_of_le hnew.pos hle
  have hfcovers : f.Covers r.base := ⟨Nat.le_of_eq hbase, hbase ▸ KvmmRange.base_lt_top hfpos⟩
  have hothers : ∀ u ∈ s.usedList, ¬ u.Covers r.base := by
    intro u hu
    have hne : f ≠ u := fun he => h.inv.addr_ne hf hu (he ▸ rfl)
    exact (h.inv.apart_of_ne (mem_all.mpr (.inl hf)) (mem_all.mpr (.inr (.inl hu))) (h.inv.not_fixed (.inl hf))
      hne).not_covers hfcovers
  obtain ⟨pre, post, hlist, hinsert, -⟩ := insertRange_eq (a := r) h.inv.used_ascending h.inv.used_nodup
  rw [hnew.used, hinsert]
  refine ⟨List.mem_append_right _ List.mem_cons_self, ⟨Nat.le_refl _, KvmmRange.base_lt_top hnew.pos⟩,
    fun r' hr' hcov => ?_⟩
  rcases List.mem_append.mp hr' with hpre | hpost
  · exact absurd hcov (hothers r' (hlist ▸ List.mem_append_left _ hpre))
  · rcases List.mem_cons.mp hpost with he | hin
    · exact he
    · exact absurd hcov (hothers r' (hlist ▸ List.mem_append_right _ hin))

/-- **A range at pages of its own address is not found.** -/
theorem not_lookupsRight_of_identity {k : PagedKvmm} (h : DelInvWith e k [] []) (hrec : Recorded g k)
    (hnew : NewUnmapped k r s') (hbase : kvmmBase ≤ r.base) (htop : r.base < kvmmTop)
    (hpte : g.pte (pageAlignInf (UInt32.ofNat r.base)) = ⟨pageAlignInf (UInt32.ofNat r.base), true, true, false⟩) :
    ¬ LookupsRight s' := by
  intro hright
  obtain ⟨hr, hcov, hone⟩ := hnew.covered h
  have hlookup := hright.used r.base hbase htop r hr hcov hone
  have hphys : s'.world.virtualToPhysical r.base = UInt32.ofNat r.base := by
    apply virtualToPhysical_identity
    rw [hnew.world, hrec.paging]
    exact hpte
  have hne : pageAlignInf (UInt32.ofNat r.base) ≠ 0 := by
    have hlow : kvmmBase = 16384 := rfl
    have hhigh : kvmmTop = 1073741824 := rfl
    have hpage : (pageAlignInf (UInt32.ofNat r.base)).toNat = (UInt32.ofNat r.base).toNat / 4096 * 4096 := toNat_alignInf _
    have hword : (UInt32.ofNat r.base).toNat = r.base := Nat.mod_eq_of_lt (by omega)
    intro hzero
    rw [hzero, hword] at hpage
    have h0 : (0 : UInt32).toNat = 0 := rfl
    omega
  unfold Kvmm.lookupRangePages at hlookup
  rw [hphys] at hlookup
  dsimp only at hlookup
  rw [if_pos hne, hnew.world] at hlookup
  unfold KernelPages.physmemGetKvmmRange at hlookup
  split_ifs at hlookup
  exact hnew.fresh (hrec.used _ _ hlookup)

end

/-! ## The first allocation -/

/-- The pages of the kernel with those of the first slabs. -/
def firstSlabPages (l : KernelLayout) (m : Physmem) : KernelPages :=
  ((identityPages m).mapFirstSlab l.firstSlabOfCaches).mapFirstSlab l.firstSlabOfRanges

/-- The lists and the records after `kvmm_setup`. -/
theorem kvmmSetupPages_spec {l : KernelLayout} (hl : l.Ok) (m : Physmem) :
    ∃ h, kvmmSetupPages l (identityPages m) = some h ∧ RangesSetup l.firstSlabOfRanges l.createRanges h.kvmm ∧
      Recorded (firstSlabPages l m).paging h.kvmm ∧ ∀ f ∈ h.kvmm.freeList,
        (firstSlabPages l m).paging.pte (pageAlignInf (UInt32.ofNat f.base)) =
          ⟨pageAlignInf (UInt32.ofNat f.base), true, true, false⟩ := by
  let w := firstSlabPages l m
  obtain ⟨h, heq, hkvmm⟩ := kvmmSetup_eq kernelPageMap l w
  have hlen : 0 + l.createRanges.length ≤ 200 := by simp [KernelLayout.createRanges]
  have hnil := rangesSetup_nil l.firstSlabOfRanges w
  have hk := RangesSetup.createAll (E := kernelPageMap) l.createRanges [] _ hnil hlen
  rw [List.nil_append, ← hkvmm] at hk
  have hrange : w.kernelRange = fun _ => none :=
    (mapFirstSlab_kernelRange _ _).trans (mapFirstSlab_kernelRange _ _)
  have hrec : Recorded w.paging h.kvmm := by
    rw [hkvmm]
    refine Recorded.createAll l.createRanges [] _ ⟨rfl, fun p a hp => ?_⟩ hnil hlen
    change w.kernelRange p = some a at hp
    rw [hrange] at hp
    cases hp
  refine ⟨h, heq, hk, hrec, fun f hf => ?_⟩
  have hinv := (hk.inv hl).inv
  have hfpos : 0 < f.nbPages := by
    obtain ⟨a, -, -, hlarge, hfor⟩ := hk.of_free hf
    exact (hfor.top_le hlarge).2.2
  -- a free range starts at neither of the pages that were mapped
  have hother : ∀ u ∈ h.kvmm.usedList, u.nbPages = 1 → nbBytesPerPage ∣ u.base →
      pageAlignInf (UInt32.ofNat f.base) ≠ pageAlignInf (UInt32.ofNat u.base) := by
    intro u hu hone hdvd he
    have hfall : f ∈ h.kvmm.all [] := mem_all.mpr (.inl hf)
    have huall : u ∈ h.kvmm.all [] := mem_all.mpr (.inr (.inl hu))
    have hpage : nbBytesPerPage = 4096 := rfl
    have hhigh : kvmmTop = 1073741824 := rfl
    have hutop : u.top = u.base + 4096 := by rw [KvmmRange.top, hone, Nat.one_mul, hpage]
    have hfcov : f.Covers f.base := ⟨Nat.le_refl _, KvmmRange.base_lt_top hfpos⟩
    have hucov : u.Covers u.base := ⟨Nat.le_refl _, by omega⟩
    have hfb := (hk.bounds hl _ ⟨f, hfall, hfcov⟩).2
    have hub := (hk.bounds hl _ ⟨u, huall, hucov⟩).2
    have hpages : ∀ v, v < 1073741824 → (pageAlignInf (UInt32.ofNat v)).toNat = v / 4096 * 4096 := by
      intro v hv
      have hword : (UInt32.ofNat v).toNat = v := Nat.mod_eq_of_lt (by omega)
      have halign : (pageAlignInf (UInt32.ofNat v)).toNat = (UInt32.ofNat v).toNat / 4096 * 4096 := toNat_alignInf _
      rw [halign, hword]
    rw [word_eq_iff, hpages _ (by omega), hpages _ (by omega)] at he
    rw [hpage] at hdvd
    refine (hinv.apart_of_ne hfall huall (hinv.not_fixed (.inl hf)) fun heq => ?_).not_covers hfcov
      (show u.base ≤ f.base ∧ f.base < u.top from by omega)
    exact hinv.addr_ne hf hu (heq ▸ rfl)
  obtain ⟨⟨u, hu, hub, hun, -⟩, u', hu', hub', hun', -⟩ := hk.first_slabs
  have hne := hother u hu hun (hub ▸ firstSlabOfCaches_aligned l)
  have hne' := hother u' hu' hun' (hub' ▸ Nat.dvd_add (firstSlabOfCaches_aligned l) (Nat.dvd_refl _))
  rw [hub] at hne
  rw [hub'] at hne'
  show (KernelPages.mapFirstSlab _ _).paging.pte _ = _
  rw [mapFirstSlab_pte _ hne', mapFirstSlab_pte _ hne]
  rfl

/-- After `kvmm_setup`, a request that is granted without physical pages is not found. -/
theorem kvmmSetup_alloc_unfound {l : KernelLayout} (hl : l.Ok) (m : Physmem) :
    ∃ h, kvmmSetupPages l (identityPages m) = some h ∧ (∃ f ∈ h.kvmm.freeList, 1 ≤ f.nbPages) ∧
      ∀ n, 0 < n → (∃ f ∈ h.kvmm.freeList, n ≤ f.nbPages) → ¬ LookupsRight (kvmmCall h.kvmm (.alloc n false)) := by
  obtain ⟨h, heq, hk, hrec, hpte⟩ := kvmmSetupPages_spec hl m
  have hdel := hk.inv hl
  have hcount := hk.count
  have hlen : l.createRanges.length = 9 := rfl
  refine ⟨h, heq, ?_, fun n hn hfits => ?_⟩
  · obtain ⟨f, hf, hfor⟩ := exists_right_of_forall₂ hk.free (List.mem_filter.mpr
      ⟨(List.mem_cons_self : (true, kvmmBase, KernelLayout.biosNVideoStart, none) ∈ l.createRanges), by decide⟩)
    refine ⟨f, hf, ?_⟩
    rw [hfor.nbPages]
    decide
  · obtain ⟨r, s', hres, hnew⟩ := exists_newUnmapped hdel (by omega) hn hfits
    obtain ⟨f, hf, hbase, hle⟩ := hnew.free
    have hpos : 0 < f.nbPages := Nat.lt_of_lt_of_le hnew.pos hle
    have hbounds := hk.bounds hl f.base ⟨f, mem_all.mpr (.inl hf), Nat.le_refl _, KvmmRange.base_lt_top hpos⟩
    have hpage := hpte f hf
    rw [hbase] at hbounds hpage
    have hstep : kvmmCall h.kvmm (.alloc n false) = s' := congrArg Prod.snd hres
    rw [hstep]
    exact not_lookupsRight_of_identity hdel hrec hnew hbounds.1 hbounds.2 hpage

/-- **lookup_range is not right over the runs of any boot**, whatever the image and the memory: no request that is
granted without physical pages is found, as its first page is still mapped to a physical page that records another
range or none. -/
theorem kvmm_lookups_never_right {l : KernelLayout} (hl : l.Ok) (m : Physmem) :
    ∃ h, kvmmSetupPages l (identityPages m) = some h ∧
      (∀ n, 0 < n → (∃ f ∈ h.kvmm.freeList, n ≤ f.nbPages) → ¬ LookupsRight (kvmmCall h.kvmm (.alloc n false))) ∧
      ¬ ∀ calls, LookupsRight (run kvmmCall h.kvmm calls) := by
  obtain ⟨h, heq, hfits, hfirst⟩ := kvmmSetup_alloc_unfound hl m
  exact ⟨h, heq, hfirst, fun hall => hfirst 1 Nat.one_pos hfits (hall [.alloc 1 false])⟩

theorem kernelAt2M_ok : kernelAt2M.Ok := ⟨by decide, by decide, by decide, by decide, by decide⟩

theorem kernelAt2M_lookups_never_right :
    kernelAt2M.Ok ∧ ∃ h, kvmmSetupPages kernelAt2M (identityPages freeBehindKernel) = some h ∧
      (∀ n, 0 < n → (∃ f ∈ h.kvmm.freeList, n ≤ f.nbPages) → ¬ LookupsRight (kvmmCall h.kvmm (.alloc n false))) ∧
      ¬ ∀ calls, LookupsRight (run kvmmCall h.kvmm calls) :=
  ⟨kernelAt2M_ok, kvmm_lookups_never_right kernelAt2M_ok _⟩

/-- One page without `KVMM_MAP`, as the first call. -/
theorem kernelAt2M_lookups_not_right : ¬ ∀ (l : KernelLayout) (m : Physmem) (h : Heap KernelPages)
    (calls : List KvmmCall), l.Ok → kvmmSetupPages l (identityPages m) = some h →
    LookupsRight (run kvmmCall h.kvmm calls) := by
  intro hclaim
  obtain ⟨h, heq, hfits, hfirst⟩ := kvmmSetup_alloc_unfound kernelAt2M_ok freeBehindKernel
  exact hfirst 1 Nat.one_pos hfits (hclaim _ _ h [.alloc 1 false] kernelAt2M_ok heq)

end Desiros.Mem
