import Desiros.Mem.KvmmFlags
import Desiros.Mem.KvmmUndo

/-!
# What `kvmm_new_range` has done when it gives up

A call that fails has moved a range to the used list, or split one off, and mapped some of its pages; before that the
range cache may have grown by a page (`Attempt`). From there on it only goes back (`kvmmNewRange_attempt`). The pages it
may have touched are `takenPages`: those of the range it chose, and the page of the slab.
-/

namespace Desiros.Mem

open Desiros.Library KslabCache Kvmm

variable {s s' t : Kvmm KernelPages} {held : List Nat} {gone : List KvmmRange} {r x f g : KvmmRange} {e : Slack}
  {a n : Nat} {total : UInt32} {X : UInt32 → Prop} {g₀ : Paging} {M : Set UInt32}

/-- The pages a call for `n` pages takes: those of the new range, and the page of a new slab where the range cache has
to grow for the structure of the range. -/
def takenPages {W : Type} (s : Kvmm W) (n : Nat) : List Nat :=
  match s.freeList.find? fun r => r.nbPages ≥ n with
  | none => []
  | some f =>
    if f.nbPages = n ∨ s.rangeCache.nbFreeObj ≠ 2 then pagesAt f.base n
    else
      match s.freeList.find? fun r => r.nbPages ≥ 1 with
      | none => []
      | some g => g.base :: pagesAt (if g = f then f.base + nbBytesPerPage else f.base) n

/-! ## The new range -/

/-- The state before the pages of the new range are mapped. -/
structure Opened (e : Slack) (s : Kvmm KernelPages) (held : List Nat) (base n : Nat) (t : Kvmm KernelPages)
    (r : KvmmRange) : Prop where
  inv : DelInvWith e t held []
  covered : ∀ a, t.Covered [] a ↔ s.Covered [] a
  deletable : Deletable t r
  not_fixed : ¬ e.fixed r
  base : r.base = base
  nbPages : r.nbPages = n
  used : ∀ x, x ∈ t.usedList ↔ x = r ∨ x ∈ s.usedList
  fresh : r ∉ s.usedList
  ofCaller : ∀ x, OfCaller t x ↔ x = r ∨ OfCaller s x
  world : t.world = s.world

/-- A structure that is no used range's is recorded in no slab. -/
theorem KvmmInvWith.slab_range_ne (h : KvmmInvWith e s held []) (ha : ∀ x ∈ s.usedList, x.addr ≠ a) :
    ∀ slab ∈ s.rangeCache.slabList, slab.range ≠ some a := by
  intro slab hs hrange
  obtain ⟨x, hx, -, -, -, hor⟩ := h.slab slab hs
  rcases hor with hnone | hsome
  · rw [hnone] at hrange
    cases hrange
  · exact ha x hx (Option.some.inj (hsome.symm.trans hrange))

theorem ofCaller_insert (hused : ∀ x, x ∈ t.usedList ↔ x = r ∨ x ∈ s.usedList)
    (hslabs : t.rangeCache.slabList = s.rangeCache.slabList)
    (hr : ∀ slab ∈ s.rangeCache.slabList, slab.range ≠ some r.addr) (x : KvmmRange) :
    OfCaller t x ↔ x = r ∨ OfCaller s x := by
  unfold OfCaller
  rw [hused, hslabs]
  constructor
  · rintro ⟨rfl | hx, hne⟩
    · exact .inl rfl
    · exact .inr ⟨hx, hne⟩
  · rintro (rfl | ⟨hx, hne⟩)
    · exact ⟨.inl rfl, hr⟩
    · exact ⟨.inr hx, hne⟩

theorem opened_moveUsed (h : DelInvWith e s held []) (hf : f ∈ s.freeList) (hpos : 0 < f.nbPages) :
    Opened e s held f.base f.nbPages (moveUsed s f) f := by
  obtain ⟨hfreed, -, hdel⟩ := moveUsed_spec h hf hpos
  have hused : ∀ x, x ∈ (moveUsed s f).usedList ↔ x = f ∨ x ∈ s.usedList := fun x => mem_insertRange
  have hne : ∀ x ∈ s.usedList, x.addr ≠ f.addr := fun x hx => h.inv.addr_ne hf hx
  exact ⟨hfreed.inv, hfreed.covered, hdel, h.inv.not_fixed (.inl hf), rfl, rfl, hused, fun hx => hne f hx rfl,
    ofCaller_insert hused rfl (h.inv.slab_range_ne hne), rfl⟩

theorem opened_splitRange (h : DelInvWith e s (a :: held) []) (hf : f ∈ s.freeList) (hn : 0 < n) (hle : n ≤ f.nbPages)
    (hlt : ¬ e.empty → n < f.nbPages) : Opened e s held f.base n (splitRange s f a n) ⟨a, f.base, n⟩ := by
  obtain ⟨pre, post, hlist⟩ := List.append_of_mem hf
  obtain ⟨hfreed, -, hdel, -⟩ := splitRange_spec h hlist hn hle hlt
  have hused : ∀ x, x ∈ (splitRange s f a n).usedList ↔ x = ⟨a, f.base, n⟩ ∨ x ∈ s.usedList := fun x => mem_insertRange
  have hne : ∀ x ∈ s.usedList, x.addr ≠ a := by
    intro x hx he
    have hd := (List.nodup_append.mp h.inv.nodup).2.2
    exact hd _ (List.mem_map_of_mem (mem_all.mpr (.inr (.inl hx)))) _ List.mem_cons_self he
  exact ⟨hfreed.inv, hfreed.covered, hdel, h.inv.not_fixed_of_held List.mem_cons_self, rfl, rfl, hused,
    fun hx => hne _ hx rfl, ofCaller_insert hused rfl (h.inv.slab_range_ne hne), rfl⟩

/-- A structure taken from the range cache. -/
theorem ofCaller_take {c : KslabCache (Option Nat)} {obj : Nat} (hok : s.rangeCache.Ok)
    (htake : cacheTakeObject s.rangeCache = some (obj, c)) (x : KvmmRange) :
    OfCaller { s with rangeCache := c } x ↔ OfCaller s x := by
  obtain ⟨-, -, hkeys, -⟩ := hok.take htake
  have hranges : ∀ c : KslabCache (Option Nat), (∀ slab ∈ c.slabList, slab.range ≠ some x.addr) ↔
      ∀ k ∈ c.keys, k.2.2 ≠ some x.addr := by
    intro c
    unfold KslabCache.keys
    rw [List.forall_mem_map]
  unfold OfCaller
  rw [hranges, hranges]
  simp only [hkeys.mem_iff]

/-- A call where the range cache does not grow. -/
theorem newRangeWith_opened {newRange : Kvmm KernelPages → Nat → Bool → Option KvmmRange × Kvmm KernelPages}
    (h : DelInvWith e s held []) (hn : 0 < n) (hpos : 0 < s.rangeCache.nbFreeObj) (map : Bool)
    (hfind : (s.freeList.find? fun r => r.nbPages ≥ n) = some f)
    (hplain : f.nbPages = n ∨ s.rangeCache.nbFreeObj ≠ 2) :
    ∃ t r, newRangeWith (Kvmm.cacheAllocWith newRange kernelPageMap) kernelPageMap s n map =
      mapNewRange kernelPageMap t r map ∧ Opened e s held f.base n t r := by
  have hf := List.mem_of_find?_eq_some hfind
  have hge : n ≤ f.nbPages := by simpa using List.find?_some hfind
  unfold newRangeWith
  rw [if_neg (by omega), hfind]
  dsimp only
  by_cases hexact : f.nbPages = n
  · rw [if_pos hexact]
    exact ⟨_, f, rfl, hexact ▸ opened_moveUsed h hf (by omega)⟩
  · obtain ⟨obj, c, htake, heq⟩ := @cacheAllocWith_plain _ s kernelPageMap newRange h.inv.cache hpos
      (hplain.resolve_left hexact)
    have hfound : findRange s.freeList f.addr = some f := findRange_of_mem h.inv.free_nodup hf
    rw [if_neg hexact, heq]
    dsimp only
    rw [hfound]
    have hinv : DelInvWith e { s with rangeCache := c } (obj :: held) [] := ⟨h.inv.take htake, h.gaps⟩
    have hopen := opened_splitRange hinv hf hn hge fun _ => by omega
    exact ⟨splitRange { s with rangeCache := c } f obj n, ⟨obj, f.base, n⟩, rfl, hopen.inv, hopen.covered,
      hopen.deletable, hopen.not_fixed, rfl, rfl, hopen.used, hopen.fresh,
      fun x => (hopen.ofCaller x).trans (or_congr_right (ofCaller_take h.inv.cache.ok htake x)), hopen.world⟩

/-! ## Its pages -/

/-- The pages are mapped as far as there is memory, and the range deleted if there is not enough. -/
theorem Opened.maps {base : Nat} (ho : Opened e s held base n t r)
    (hl : Lends total (fun _ => False) g₀ s.world.paging M) (hbase : nbBytesPerPage ∣ base)
    (halign : ∀ x ∈ s.usedList, nbBytesPerPage ∣ x.base) (htop : base + n * nbBytesPerPage ≤ 4294967296)
    (hspares : s.world.paging.Spares s.world.paging.physmem.freePpage (pagesAt base n)) :
    ∃ (ok : Bool) (w : KernelPages) (M' : Set UInt32), LendsPages total g₀ s.world M (pagesAt base n) ok w M' ∧
      (ok = true ∧ mapNewRange kernelPageMap t r true = (some r, { t with world := w }) ∨
        ∃ s', mapNewRange kernelPageMap t r true = (none, s') ∧ DelInvWith e s' held [] ∧
          Undoes { t with world := w } [r] s') := by
  have hrbase := ho.base
  have hrpages := ho.nbPages
  subst hrbase hrpages
  unfold mapNewRange
  rw [if_pos rfl, ho.world]
  obtain ⟨M', hM'⟩ := hl.mapPages hbase r.addr r.nbPages 0 s.world M (by rwa [Nat.zero_add]) hspares
  refine ⟨_, _, M', hM', ?_⟩
  clear hM'
  generalize mapPages kernelPageMap r.addr r.base 0 r.nbPages s.world = res
  obtain ⟨ok, w⟩ := res
  cases ok with
  | true => exact .inl ⟨rfl, rfl⟩
  | false =>
    have halign' : ∀ x ∈ t.usedList, nbBytesPerPage ∣ x.base := by
      intro x hx
      rcases (ho.used x).mp hx with rfl | hx
      · exact hbase
      · exact halign x hx
    have hdel : Deletable { t with world := w } r := ⟨ho.deletable.used, ho.deletable.slab⟩
    obtain ⟨s', heq, hinv, hundo⟩ := kvmmDelRange_undoes (ho.inv.setWorld w) halign' hdel ho.not_fixed
    refine .inr ⟨s', ?_, hinv, hundo⟩
    dsimp only
    rw [heq]
    rfl

/-! ## The whole call -/

/-- The state of a call that has mapped the pages, as far as there was memory, with the ranges it has made used. -/
structure Attempt (e : Slack) (total : UInt32) (g₀ : Paging) (M₀ : Set UInt32) (s : Kvmm KernelPages) (taken : List Nat)
    (t : Kvmm KernelPages) (gone : List KvmmRange) (M : Set UInt32) : Prop where
  inv : ∃ held, KvmmInvWith e t held []
  used : ∀ x ∈ s.usedList, x ∈ t.usedList
  taken : ∀ x ∈ t.usedList, x ∉ s.usedList → nbBytesPerPage ∣ x.base ∧ ∀ a ∈ pagesAt x.base x.nbPages, a ∈ taken
  ofCaller : ∀ x, OfCaller t x ↔ OfCaller s x ∨ x ∈ gone
  fresh : ∀ x ∈ gone, x ∉ s.usedList
  covered : ∀ a, t.Covered [] a ↔ s.Covered [] a
  lends : Lends total (fun _ => False) g₀ t.world.paging M
  keeps : M₀ ⊆ M
  mapped : ∀ v ∈ M, v ∈ M₀ ∨ ∃ x ∈ t.usedList, x ∉ s.usedList ∧ ∃ a ∈ pagesAt x.base x.nbPages, v = UInt32.ofNat a
  pages : ∀ x ∈ t.usedList, x ∉ s.usedList → ∀ a ∈ pagesAt x.base x.nbPages,
    UInt32.ofNat a ∈ M ∨ t.world.paging.referred (UInt32.ofNat a) = none
  slab : ∀ x ∈ t.usedList, x ∉ s.usedList → x ∉ gone → ∀ a ∈ pagesAt x.base x.nbPages, UInt32.ofNat a ∈ M

/-- The range is returned, with all pages mapped. -/
structure Delivers (s t : Kvmm KernelPages) (gone : List KvmmRange) (M : Set UInt32)
    (res : Option KvmmRange × Kvmm KernelPages) : Prop where
  result : ∃ r, res = (some r, t) ∧ gone = [r]
  all : ∀ x ∈ t.usedList, x ∉ s.usedList → ∀ a ∈ pagesAt x.base x.nbPages, UInt32.ofNat a ∈ M

/-- Nothing is returned, and all that was done is undone. -/
structure GivesUp (e : Slack) (t : Kvmm KernelPages) (gone : List KvmmRange)
    (res : Option KvmmRange × Kvmm KernelPages) : Prop where
  none : res.1 = none
  undoes : Undoes t gone res.2
  inv : DelInvWith e res.2 [] []

/-- The ranges of a kernel, at the boundaries of pages, and its physical pages. -/
structure KernelRanges (e : Slack) (total : UInt32) (s : Kvmm KernelPages) : Prop where
  inv : DelInvWith e s [] []
  empty : e.empty
  low : 2 ≤ s.rangeCache.nbFreeObj
  bounds : ∀ a, s.Covered [] a → kvmmBase ≤ a ∧ a < kvmmTop
  free_aligned : ∀ r ∈ s.freeList, nbBytesPerPage ∣ r.base
  used_aligned : ∀ r ∈ s.usedList, nbBytesPerPage ∣ r.base
  memory : PhysmemInv total s.world.paging.physmem

theorem KernelRanges.top_le (h : KernelRanges e total s) (hf : f ∈ s.freeList) (hpos : 0 < f.nbPages) :
    f.top ≤ 4294967296 := by
  have hlt := KvmmRange.base_lt_top hpos
  have hcov : s.Covered [] (f.top - 1) := ⟨f, mem_all.mpr (.inl hf), by omega, by omega⟩
  have := (h.bounds _ hcov).2
  have htop : kvmmTop = 1073741824 := rfl
  omega

/-- A call where the range cache does not grow. -/
theorem Opened.attempt {base : Nat} {taken : List Nat} (h : KernelRanges e total s) (ho : Opened e s [] base n t r)
    (hl : Lends total (fun _ => False) g₀ s.world.paging M) (hbase : nbBytesPerPage ∣ base)
    (htop : base + n * nbBytesPerPage ≤ 4294967296)
    (hspares : s.world.paging.Spares s.world.paging.physmem.freePpage (pagesAt base n))
    (htaken : ∀ a ∈ pagesAt base n, a ∈ taken) :
    ∃ (t' : Kvmm KernelPages) (M' : Set UInt32), Attempt e total g₀ M s taken t' [r] M' ∧
      (Delivers s t' [r] M' (mapNewRange kernelPageMap t r true) ∨ GivesUp e t' [r] (mapNewRange kernelPageMap t r true)) := by
  obtain ⟨ok, w, M', hpages, hend⟩ := ho.maps hl hbase h.used_aligned htop hspares
  have hnew : ∀ x ∈ t.usedList, x ∉ s.usedList → x = r := fun x hx hnot => ((ho.used x).mp hx).resolve_right hnot
  have hr : pagesAt r.base r.nbPages = pagesAt base n := by rw [ho.base, ho.nbPages]
  refine ⟨{ t with world := w }, M', ⟨⟨[], ho.inv.inv.setWorld w⟩, fun x hx => (ho.used x).mpr (.inr hx), ?_, fun x => ?_,
    fun x hx => ?_, ho.covered, hpages.lends, hpages.keeps, fun v hv => ?_, fun x hx hnot => ?_,
    fun x hx hnot hgone => ?_⟩, ?_⟩
  · intro x hx hnot
    rw [hnew x hx hnot, hr, ho.base]
    exact ⟨hbase, htaken⟩
  · rw [List.mem_singleton]
    exact (ho.ofCaller x).trans or_comm
  · rw [List.mem_singleton.mp hx]
    exact ho.fresh
  · refine (hpages.only v hv).imp_right ?_
    rintro ⟨a, ha, rfl⟩
    exact ⟨r, (ho.used r).mpr (.inl rfl), ho.fresh, a, hr ▸ ha, rfl⟩
  · rw [hnew x hx hnot, hr]
    exact hpages.some
  · exact absurd (List.mem_singleton.mpr (hnew x hx hnot)) hgone
  · rcases hend with ⟨hok, heq⟩ | ⟨s', heq, hinv, hundo⟩
    · refine .inl ⟨⟨r, heq, rfl⟩, fun x hx hnot => ?_⟩
      rw [hnew x hx hnot, hr]
      exact (hpages.all hok).1
    · rw [heq]
      exact .inr ⟨rfl, hundo, hinv⟩

/-! ## The range cache grows first -/

/-- The range becomes the page of a slab of the range cache. -/
def grownBy (s : Kvmm KernelPages) (r : KvmmRange) : Kvmm KernelPages :=
  { s with
    rangeCache := cacheAddSlab s.rangeCache r.base (r.base + s.rangeCache.slabBytes - sizeofKslab) (some r.addr)
    slabOf := Function.update s.slabOf r.addr (some (r.base + s.rangeCache.slabBytes - sizeofKslab)) }

theorem ofCaller_grownBy (h : KvmmInvWith e s held []) (hr : r ∈ s.usedList) (x : KvmmRange) :
    OfCaller (grownBy s r) x ↔ OfCaller s x ∧ x ≠ r := by
  have hslabs : (∀ slab ∈ (grownBy s r).rangeCache.slabList, slab.range ≠ some x.addr) ↔
      r.addr ≠ x.addr ∧ ∀ slab ∈ s.rangeCache.slabList, slab.range ≠ some x.addr := by
    show (∀ slab ∈ s.rangeCache.newSlab r.base _ (some r.addr) :: s.rangeCache.slabList, slab.range ≠ some x.addr) ↔ _
    rw [List.forall_mem_cons]
    exact and_congr_left fun _ => not_congr Option.some_inj
  unfold OfCaller
  rw [hslabs]
  constructor
  · rintro ⟨hx, hne, hall⟩
    exact ⟨⟨hx, hall⟩, fun he => hne (he ▸ rfl)⟩
  · rintro ⟨⟨hx, hall⟩, hne⟩
    exact ⟨hx, fun he => hne (h.used_nodup.eq_of_addr hx hr he.symm), hall⟩

theorem cacheGrow_some {newRange : Kvmm KernelPages → Nat → Bool → Option KvmmRange × Kvmm KernelPages}
    (hcache : RangeCacheOk s.rangeCache)
    (hnew : newRange s 1 (s.rangeCache.flags &&& (kslabCreateMap ||| kslabCreateZero) != 0) = (some r, t)) :
    Kvmm.cacheGrow newRange s = (true, grownBy t r) := by
  unfold Kvmm.cacheGrow
  rw [hcache.pages, hnew]
  rfl

theorem cacheGrow_none {newRange : Kvmm KernelPages → Nat → Bool → Option KvmmRange × Kvmm KernelPages}
    (hcache : RangeCacheOk s.rangeCache)
    (hnew : newRange s 1 (s.rangeCache.flags &&& (kslabCreateMap ||| kslabCreateZero) != 0) = (none, t)) :
    Kvmm.cacheGrow newRange s = (false, t) := by
  unfold Kvmm.cacheGrow
  rw [hcache.pages, hnew]

/-- The page of the slab is none of those of the new range. -/
theorem KernelRanges.slab_page (h : KernelRanges e total s) (hf : f ∈ s.freeList) (hg : g ∈ s.freeList)
    (hgpos : 0 < g.nbPages) (hlt : n < f.nbPages) {base : Nat}
    (hbase : base = if g = f then f.base + nbBytesPerPage else f.base) : base + n * nbBytesPerPage ≤ 4294967296 ∧
      ∀ a ∈ pagesAt base n, UInt32.ofNat a ≠ UInt32.ofNat g.base := by
  have hpage : nbBytesPerPage = 4096 := rfl
  have htop := h.top_le hf (by omega)
  have hgtop := h.top_le hg hgpos
  have hgbase := KvmmRange.base_lt_top hgpos
  have hftop : f.top = f.base + f.nbPages * 4096 := rfl
  have hwords : ∀ a, a ≠ g.base → a < 4294967296 → UInt32.ofNat a ≠ UInt32.ofNat g.base := by
    intro a hne hlt
    rw [ne_eq, word_eq_iff, UInt32.toNat_ofNat', UInt32.toNat_ofNat']
    omega
  by_cases he : g = f
  · rw [if_pos he, hpage] at hbase
    subst he
    rw [hpage]
    refine ⟨by omega, fun a ha => ?_⟩
    obtain ⟨i, hi, rfl⟩ := mem_pagesAt.mp ha
    rw [hpage]
    exact hwords _ (by omega) (by omega)
  · rw [if_neg he] at hbase
    subst hbase
    have hap := h.inv.inv.apart_of_ne (mem_all.mpr (.inl hf)) (mem_all.mpr (.inl hg)) (h.inv.inv.not_fixed (.inl hf))
      (Ne.symm he)
    unfold KvmmRange.Apart at hap
    rw [hpage]
    refine ⟨by omega, fun a ha => ?_⟩
    obtain ⟨i, hi, rfl⟩ := mem_pagesAt.mp ha
    rw [hpage]
    exact hwords _ (by omega) (by omega)

section Grows

variable {depth : Nat} (h : KernelRanges e total s) (hn : 0 < n)
  (hfind : (s.freeList.find? fun r => r.nbPages ≥ n) = some f) (hne : f.nbPages ≠ n) (htwo : s.rangeCache.nbFreeObj = 2)

include h hn hfind hne htwo

/-- The call for a page inside of the call. -/
theorem newRange_inner_opened {obj : Nat} {c : KslabCache (Option Nat)}
    (htake : cacheTakeObject s.rangeCache = some (obj, c)) (map : Bool) : ∃ g, g ∈ s.freeList ∧ 0 < g.nbPages ∧
      takenPages s n = g.base :: pagesAt (if g = f then f.base + nbBytesPerPage else f.base) n ∧
      (s.freeList.find? fun r => r.nbPages ≥ 1) = some g ∧
      ∃ t r, kvmmNewRange kernelPageMap (depth + 1) { s with rangeCache := c } 1 map = mapNewRange kernelPageMap t r map ∧
        Opened e { s with rangeCache := c } [obj] g.base 1 t r := by
  have hf := List.mem_of_find?_eq_some hfind
  have hge : n ≤ f.nbPages := by simpa using List.find?_some hfind
  have hcount := (h.inv.inv.cache.ok.take htake).2.2.2.1
  have hinv : DelInvWith e { s with rangeCache := c } [obj] [] := ⟨h.inv.inv.take htake, h.inv.gaps⟩
  have hone : ({ s with rangeCache := c } : Kvmm KernelPages).rangeCache.nbFreeObj = 1 := by
    show c.nbFreeObj = 1
    omega
  cases hg : s.freeList.find? fun r => r.nbPages ≥ 1 with
  | none =>
    rw [List.find?_eq_none] at hg
    exact absurd (by simpa using (by omega : 1 ≤ f.nbPages)) (hg f hf)
  | some g =>
    have hgpos : 1 ≤ g.nbPages := by simpa using List.find?_some hg
    refine ⟨g, List.mem_of_find?_eq_some hg, hgpos, ?_, rfl, ?_⟩
    · unfold takenPages
      rw [hfind, hg]
      exact if_neg fun hor => hor.elim hne fun hc => hc htwo
    · exact newRangeWith_opened hinv Nat.one_pos (by omega) map hg (.inr (by omega))

/-- The structure is there, or there was no page for it. -/
theorem newRange_grows_attempt (hmap : MapsSlabs s.rangeCache)
    (hl : Lends total (fun _ => False) g₀ s.world.paging M)
    (hspares : s.world.paging.Spares s.world.paging.physmem.freePpage (takenPages s n)) :
    ∃ (t : Kvmm KernelPages) (gone : List KvmmRange) (M' : Set UInt32),
      Attempt e total g₀ M s (takenPages s n) t gone M' ∧
      (Delivers s t gone M' (kvmmNewRange kernelPageMap (depth + 2) s n true) ∨
        GivesUp e t gone (kvmmNewRange kernelPageMap (depth + 2) s n true)) := by
  have hf := List.mem_of_find?_eq_some hfind
  have hge : n ≤ f.nbPages := by simpa using List.find?_some hfind
  have hcache := h.inv.inv.cache
  obtain ⟨obj, c, htake⟩ := exists_cacheTakeObject (hcache.ok.not_needsSlab (by omega : 0 < s.rangeCache.nbFreeObj))
  obtain ⟨g, hg, hgpos, htaken, hgfind, t₁, r₁, hinner, ho₁⟩ :=
    @newRange_inner_opened _ _ _ _ _ depth h hn hfind hne htwo _ _ htake true
  have hinv : DelInvWith e { s with rangeCache := c } [obj] [] := ⟨h.inv.inv.take htake, h.inv.gaps⟩
  have hcaller := ofCaller_take (s := s) hcache.ok htake
  have hone : pagesAt g.base 1 = [g.base] := by simp [pagesAt]
  rw [htaken] at hspares ⊢
  obtain ⟨htop, hother⟩ := h.slab_page hf hg hgpos (by omega : n < f.nbPages) rfl
  have hgtop : g.base + 1 * nbBytesPerPage ≤ 4294967296 :=
    Nat.le_trans (Nat.add_le_add_left (Nat.mul_le_mul_right _ hgpos) _) (h.top_le hg hgpos)
  obtain ⟨ok₁, w₁, M₁, hpages₁, hend₁⟩ := ho₁.maps hl (h.free_aligned g hg) h.used_aligned hgtop
    (by rw [hone]; exact ⟨hspares.1, trivial⟩)
  rw [hone] at hpages₁
  have hgrows := cacheAllocWith_grows (E := kernelPageMap) (kvmmNewRange kernelPageMap (depth + 1)) hcache htwo htake
  have heq : kvmmNewRange kernelPageMap (depth + 2) s n true = newRangeWith (Kvmm.cacheAllocWith
      (kvmmNewRange kernelPageMap (depth + 1)) kernelPageMap) kernelPageMap s n true := rfl
  unfold newRangeWith at heq
  rw [if_neg (by omega), hfind] at heq
  dsimp only at heq
  rw [if_neg hne, hgrows] at heq
  rw [heq]
  have hr₁ : pagesAt r₁.base r₁.nbPages = [g.base] := by rw [ho₁.base, ho₁.nbPages, hone]
  have hbase₁ : nbBytesPerPage ∣ r₁.base := by
    rw [ho₁.base]
    exact h.free_aligned g hg
  have hnew₁ : ∀ x ∈ t₁.usedList, x ∉ s.usedList → x = r₁ := fun x hx hnot => ((ho₁.used x).mp hx).resolve_right hnot
  have hmapped₁ : ∀ v ∈ M₁, v ∈ M ∨ r₁ ∉ s.usedList ∧ ∃ a ∈ pagesAt r₁.base r₁.nbPages, v = UInt32.ofNat a := by
    intro v hv
    refine (hpages₁.only v hv).imp_right fun hin => ⟨ho₁.fresh, ?_⟩
    rwa [hr₁]
  have hcmap : MapsSlabs c := (mapsSlabs_congr (cacheTakeObject_flags htake)).mpr hmap
  have hgrown : ∀ {o u}, kvmmNewRange kernelPageMap (depth + 1) { s with rangeCache := c } 1 true = (o, u) →
      kvmmNewRange kernelPageMap (depth + 1) { s with rangeCache := c } 1
        (({ s with rangeCache := c } : Kvmm KernelPages).rangeCache.flags &&&
          (kslabCreateMap ||| kslabCreateZero) != 0) = (o, u) := by
    intro o u hnew
    rw [show (c.flags &&& (kslabCreateMap ||| kslabCreateZero) != 0) = true from hcmap, hnew]
  rcases hend₁ with ⟨hok₁, hsome⟩ | ⟨s₁, hnone, hinv₁, hundo₁⟩
  · have hnew := hinner.trans hsome
    have hgrow := cacheGrow_some hinv.inv.cache (hgrown hnew)
    rw [hgrow, if_pos rfl]
    dsimp only
    have hdel₁ : Deletable { t₁ with world := w₁ } r₁ := ⟨ho₁.deletable.used, ho₁.deletable.slab⟩
    have hinvg : DelInvWith e (grownBy { t₁ with world := w₁ } r₁) [obj] [] :=
      ⟨(ho₁.inv.inv.setWorld w₁).addSlab hdel₁ ho₁.not_fixed ho₁.nbPages, ho₁.inv.gaps⟩
    have hcallerg : ∀ x, OfCaller (grownBy { t₁ with world := w₁ } r₁) x ↔ OfCaller s x := by
      intro x
      rw [ofCaller_grownBy (ho₁.inv.inv.setWorld w₁) ho₁.deletable.used]
      have hsame : OfCaller { t₁ with world := w₁ } x ↔ x = r₁ ∨ OfCaller s x :=
        (ho₁.ofCaller x).trans (or_congr_right (hcaller x))
      rw [hsame]
      constructor
      · exact fun hx => hx.1.resolve_left hx.2
      · exact fun hx => ⟨.inr hx, fun he => ho₁.fresh (he ▸ hx.1)⟩
    -- the free range that was chosen, without the page that the slab took
    obtain ⟨g', hgfind', -, hlist⟩ := kvmmNewRange_inner_some depth hinv
      (show c.nbFreeObj = 1 by have := (hcache.ok.take htake).2.2.2.1; omega) (congrArg Prod.fst hnew)
    obtain rfl : g = g' := Option.some.inj (hgfind.symm.trans hgfind')
    rw [hnew] at hlist
    obtain ⟨f', hf', haddr, hle, -, hbase⟩ := exists_still_free h.inv.inv.free_nodup hf hg (by omega : n < f.nbPages) hn
    have hf'' : f' ∈ (grownBy { t₁ with world := w₁ } r₁).freeList := by
      show f' ∈ t₁.freeList
      rw [hlist]
      exact hf'
    have hfound : findRange (grownBy { t₁ with world := w₁ } r₁).freeList f.addr = some f' := by
      rw [← haddr]
      exact findRange_of_mem hinvg.inv.free_nodup hf''
    rw [hfound]
    dsimp only
    have ho₂ := opened_splitRange hinvg hf'' hn hle fun he => absurd h.empty he
    rw [← hbase] at hspares htop hother ⊢
    have halign' : nbBytesPerPage ∣ f'.base := by
      rw [hbase]
      split_ifs
      · exact Nat.dvd_add (h.free_aligned f hf) (Nat.dvd_refl _)
      · exact h.free_aligned f hf
    have halign₁ : ∀ x ∈ (grownBy { t₁ with world := w₁ } r₁).usedList, nbBytesPerPage ∣ x.base := by
      intro x hx
      rcases (ho₁.used x).mp hx with rfl | hx
      · exact hbase₁
      · exact h.used_aligned x hx
    -- the slab has taken the first free page
    have hspares₁ : w₁.paging.Spares w₁.paging.physmem.freePpage (pagesAt f'.base n) := by
      rw [(hpages₁.all hok₁).2, List.length_singleton, List.drop_one]
      refine hspares.2.congr fun a ha => hpages₁.others _ ?_ fun b hb => ?_
      · obtain ⟨i, -, rfl⟩ := mem_pagesAt.mp ha
        exact isPageAligned_ofNat (Nat.dvd_add halign' (Nat.dvd_mul_left _ _))
      · rw [List.mem_singleton.mp hb]
        exact hother a ha
    obtain ⟨ok₂, w₂, M₂, hpages₂, hend₂⟩ := ho₂.maps hpages₁.lends halign' halign₁ htop hspares₁
    have hused₂ : ∀ x ∈ (splitRange (grownBy { t₁ with world := w₁ } r₁) f' obj n).usedList, x ∉ s.usedList →
        x = ⟨obj, f'.base, n⟩ ∨ x = r₁ :=
      fun x hx hnot => ((ho₂.used x).mp hx).imp_right fun hx => hnew₁ x hx hnot
    have hslab : UInt32.ofNat g.base ∈ M₂ := hpages₂.keeps ((hpages₁.all hok₁).1 _ (List.mem_singleton_self _))
    refine ⟨{ splitRange (grownBy { t₁ with world := w₁ } r₁) f' obj n with world := w₂ }, [⟨obj, f'.base, n⟩], M₂,
      ⟨⟨[], ho₂.inv.inv.setWorld w₂⟩, fun x hx => (ho₂.used x).mpr (.inr ((ho₁.used x).mpr (.inr hx))),
        fun x hx hnot => ?_, fun x => ?_, fun x hx => ?_, fun a => (ho₂.covered a).trans (ho₁.covered a),
        hpages₂.lends, hpages₁.keeps.trans hpages₂.keeps, fun v hv => ?_,
        fun x hx hnot => ?_, fun x hx hnot hgone => ?_⟩, ?_⟩
    · rcases hused₂ x hx hnot with rfl | rfl
      · exact ⟨halign', fun a ha => List.mem_cons_of_mem _ ha⟩
      · rw [hr₁]
        exact ⟨hbase₁, fun a ha => List.mem_cons.mpr (.inl (List.mem_singleton.mp ha))⟩
    · rw [List.mem_singleton, ← hcallerg]
      exact (ho₂.ofCaller x).trans or_comm
    · rw [List.mem_singleton.mp hx]
      exact fun hused => ho₂.fresh ((ho₁.used _).mpr (.inr hused))
    · rcases hpages₂.only v hv with hin | ⟨a, ha, rfl⟩
      · exact (hmapped₁ v hin).imp_right fun hin => ⟨r₁, (ho₂.used r₁).mpr (.inr ho₁.deletable.used), hin⟩
      · exact .inr ⟨_, (ho₂.used _).mpr (.inl rfl), fun hused => ho₂.fresh ((ho₁.used _).mpr (.inr hused)), a, ha, rfl⟩
    · rcases hused₂ x hx hnot with rfl | rfl
      · exact hpages₂.some
      · intro a ha
        rw [hr₁, List.mem_singleton] at ha
        exact .inl (ha ▸ hslab)
    · intro a ha
      obtain rfl := (hused₂ x hx hnot).resolve_left fun he => hgone (List.mem_singleton.mpr he)
      rw [hr₁, List.mem_singleton] at ha
      exact ha ▸ hslab
    · rcases hend₂ with ⟨hok₂, hsome₂⟩ | ⟨s₂, hnone₂, hinv₂, hundo₂⟩
      · refine .inl ⟨⟨_, hsome₂, rfl⟩, fun x hx hnot a ha => ?_⟩
        rcases hused₂ x hx hnot with rfl | rfl
        · exact (hpages₂.all hok₂).1 a ha
        · rw [hr₁, List.mem_singleton] at ha
          exact ha ▸ hslab
      · have hend : (mapNewRange kernelPageMap (splitRange (grownBy { t₁ with world := w₁ } r₁) f' obj n)
            ⟨obj, f'.base, n⟩ true) = (none, s₂) := hnone₂
        exact .inr ⟨congrArg Prod.fst hend, (congrArg Prod.snd hend).symm ▸ hundo₂, (congrArg Prod.snd hend).symm ▸ hinv₂⟩
  · have hnew := hinner.trans hnone
    have hgrow := cacheGrow_none hinv.inv.cache (hgrown hnew)
    rw [hgrow, if_neg Bool.false_ne_true]
    have halign₁ : ∀ x ∈ s₁.usedList, nbBytesPerPage ∣ x.base := by
      intro x hx
      rcases (ho₁.used x).mp (hundo₁.used x hx) with rfl | hx
      · exact hbase₁
      · exact h.used_aligned x hx
    refine ⟨{ t₁ with world := w₁ }, [r₁] ++ [], M₁, ⟨⟨[obj], ho₁.inv.inv.setWorld w₁⟩,
      fun x hx => (ho₁.used x).mpr (.inr hx), fun x hx hnot => ?_, fun x => ?_, fun x hx => ?_, ho₁.covered,
      hpages₁.lends, hpages₁.keeps, fun v hv => ?_, fun x hx hnot => ?_, fun x hx hnot hgone => ?_⟩,
      .inr ⟨rfl, ?_, ?_⟩⟩
    · rw [hnew₁ x hx hnot, hr₁]
      exact ⟨hbase₁, fun a ha => List.mem_cons.mpr (.inl (List.mem_singleton.mp ha))⟩
    · rw [List.append_nil, List.mem_singleton, ← hcaller]
      exact (ho₁.ofCaller x).trans or_comm
    · rw [List.append_nil, List.mem_singleton] at hx
      exact hx ▸ ho₁.fresh
    · exact (hmapped₁ v hv).imp_right fun hin => ⟨r₁, ho₁.deletable.used, hin⟩
    · rw [hnew₁ x hx hnot, hr₁]
      exact hpages₁.some
    · rw [List.append_nil, List.mem_singleton] at hgone
      exact absurd (hnew₁ x hx hnot) hgone
    · exact hundo₁.trans (kvmmCacheFree_undoes hinv₁ halign₁)
    · exact (kvmmCacheFree_freed kernelPageMap hinv₁).1.inv

end Grows

/-- **What `kvmm_new_range` comes to**, where the pages it takes refer to no page in use. -/
theorem kvmmNewRange_attempt (depth : Nat) (h : KernelRanges e total s)
    (hmap : MapsSlabs s.rangeCache)
    (hl : Lends total (fun _ => False) g₀ s.world.paging M)
    (hspares : s.world.paging.Spares s.world.paging.physmem.freePpage (takenPages s n)) :
    kvmmNewRange kernelPageMap (depth + 2) s n true = (none, s) ∨
      ∃ (t : Kvmm KernelPages) (gone : List KvmmRange) (M' : Set UInt32),
        Attempt e total g₀ M s (takenPages s n) t gone M' ∧
        (Delivers s t gone M' (kvmmNewRange kernelPageMap (depth + 2) s n true) ∨
          GivesUp e t gone (kvmmNewRange kernelPageMap (depth + 2) s n true)) := by
  have heq : kvmmNewRange kernelPageMap (depth + 2) s n true = newRangeWith (Kvmm.cacheAllocWith
      (kvmmNewRange kernelPageMap (depth + 1)) kernelPageMap) kernelPageMap s n true := rfl
  by_cases hn : n = 0
  · exact .inl (heq.trans (if_pos hn))
  have hpos := Nat.pos_of_ne_zero hn
  cases hfind : s.freeList.find? fun r => r.nbPages ≥ n with
  | none =>
    left
    rw [heq]
    unfold newRangeWith
    rw [if_neg hn, hfind]
  | some f =>
    right
    have hf := List.mem_of_find?_eq_some hfind
    have hge : n ≤ f.nbPages := by simpa using List.find?_some hfind
    by_cases hplain : f.nbPages = n ∨ s.rangeCache.nbFreeObj ≠ 2
    · have htaken : takenPages s n = pagesAt f.base n := by
        unfold takenPages
        rw [hfind]
        exact if_pos hplain
      rw [htaken] at hspares ⊢
      have hlow := h.low
      obtain ⟨t, r, hopen, ho⟩ := newRangeWith_opened h.inv hpos (by omega) true hfind hplain
      have htop : f.base + n * nbBytesPerPage ≤ 4294967296 :=
        Nat.le_trans (Nat.add_le_add_left (Nat.mul_le_mul_right _ hge) _) (h.top_le hf (by omega))
      rw [heq, hopen]
      obtain ⟨t', M', hatt, hend⟩ := ho.attempt h hl (h.free_aligned f hf) htop hspares fun a ha => ha
      exact ⟨t', [r], M', hatt, hend⟩
    · push Not at hplain
      exact newRange_grows_attempt h hpos hfind hplain.1 hplain.2 hmap hl hspares

end Desiros.Mem
