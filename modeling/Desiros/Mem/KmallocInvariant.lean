import Desiros.Mem.Kmalloc
import Desiros.Mem.KvmmNew
import Desiros.Mem.SlabRuns

/-!
# The invariant of the kernel heap

`HeapInv` joins the invariant of the slab caches to that of the ranges: the pages of each slab, and each of the
`spare` ranges, are a used range that is no page of the range cache; a range of a slab points to the slab, a spare
one to none. In between, a range in `limbo` is spare and still points to a slab that is no more. The range cache may
leave free ranges without a page (`Slack.empty`), and the ranges of the kernel itself may overlap (`Slack.fixed`).
-/

namespace Desiros.Mem

open Desiros.Library KslabCache SlabSystem Kvmm

theorem PageRange.Apart.base_ne {p p' : PageRange} (h : p.Apart p') (hp : 0 < p.nbPages) (hp' : 0 < p'.nbPages) :
    p.base ≠ p'.base := by
  have h1 : 0 < p.nbPages * nbBytesPerPage := Nat.mul_pos hp (by decide)
  have h2 : 0 < p'.nbPages * nbBytesPerPage := Nat.mul_pos hp' (by decide)
  unfold PageRange.Apart at h
  omega

/-- The range with these pages, with its structure. -/
structure Backs (e : Slack) {W : Type} (s : Kvmm W) (p : PageRange) (r : KvmmRange) : Prop where
  foreign : Foreign s r
  base : r.base = p.base
  nbPages : r.nbPages = p.nbPages
  last : e.Last r

/-- The pages are a range that points to the slab, or to none. -/
def Tied (e : Slack) {W : Type} (s : Kvmm W) (p : PageRange) (slab : Option Nat) : Prop :=
  ∃ r, Backs e s p r ∧ s.slabOf r.addr = slab

structure HeapInv {W : Type} (e : Slack) (h : Heap W) (held : List Nat) (spare limbo : List PageRange) : Prop where
  slabs : SlabInv h.slabs held spare
  ranges : DelInvWith e h.kvmm [] []
  empty : e.empty
  low : 2 ≤ h.kvmm.rangeCache.nbFreeObj
  bounds : ∀ a, h.kvmm.Covered [] a → kvmmBase ≤ a ∧ a < kvmmTop
  known : ∀ p ∈ h.slabs.ranges, ∃ r, Backs e h.kvmm p r
  bases : (h.slabs.ranges.map (·.base)).Nodup
  slab_tied : ∀ ca ∈ h.slabs.cacheList, ∀ k ∈ (h.slabs.cache ca).keys, Tied e h.kvmm k.2.2 (some k.1)
  spare_tied : ∀ p ∈ spare, p ∉ limbo → Tied e h.kvmm p none
  limbo_spare : ∀ p ∈ limbo, p ∈ spare
  limbo_tied : ∀ p ∈ limbo, ∃ slab, Tied e h.kvmm p (some slab)
  minFree : ∀ ca ∈ h.slabs.cacheList, (h.slabs.cache ca).minFreeObj = 0
  /-- A fixed range is not spare, and if it is the range of a slab there is the structure of a cache in it. -/
  fixed_spare : ∀ p ∈ spare, ∀ r, e.fixed r → r.base ≠ p.base
  fixed_slab : ∀ p ∈ h.slabs.ranges, ∀ r, e.fixed r → r.base = p.base → ∃ ca ∈ h.slabs.cacheList, p.Covers ca

/-- Only the caches in `T` change. -/
structure HeapTouches (T : Nat → Prop) {W : Type} (h h' : Heap W) : Prop where
  slabs : Touches T h.slabs h'.slabs
  kvmmRangeCache : h'.kvmmRangeCache = h.kvmmRangeCache
  kmallocCache : h'.kmallocCache = h.kmallocCache

variable {W : Type} {e : Slack} {h h' h'' : Heap W} {held held' : List Nat} {spare limbo : List PageRange} {ca a : Nat}
  {slab : Kslab PageRange} {p : PageRange} {r x : KvmmRange} {E : PageMap W}
  {T T' : Nat → Prop}

theorem Backs.covers (hb : Backs e h.kvmm p r) : r.Covers a ↔ p.Covers a := by
  unfold KvmmRange.Covers KvmmRange.top PageRange.Covers
  rw [hb.base, hb.nbPages]

theorem Tied.slabOf {s : Option Nat} (ht : Tied e h.kvmm p s) (hi : HeapInv e h held spare limbo)
    (hb : Backs e h.kvmm p r) : h.kvmm.slabOf r.addr = s := by
  obtain ⟨r', hb', hslab⟩ := ht
  rwa [hi.ranges.inv.used_ascending.eq_of_base hb.foreign.1 hb'.foreign.1 (hb.base.trans hb'.base.symm)]

theorem Deletable.foreign {s : Kvmm W} {pending : List KvmmRange} (hr : Deletable s r)
    (hi : KvmmInvWith e s held pending) : Foreign s r := by
  refine ⟨hr.used, fun slab hs hbase => ?_⟩
  obtain ⟨r', hr', hbase', -, hslab', -⟩ := hi.slab slab hs
  obtain rfl := hi.used_ascending.eq_of_base hr' hr.used (hbase'.trans hbase)
  rw [hr.slab] at hslab'
  cases hslab'

/-! ## Resolving an address -/

theorem SlabInv.range_known {s : SlabSystem} (hi : SlabInv s held spare) (hca : ca ∈ s.cacheList)
    (hs : slab ∈ (s.cache ca).slabList) : slab.range ∈ s.ranges :=
  hi.known ca hca _ (mem_keys.mpr ⟨slab, hs, rfl⟩)

/-- The structure of a slab lies in the pages of a slab, its own or one of `cache_of_struct_kslab`. -/
theorem SlabInv.addr_covered {s : SlabSystem} (hi : SlabInv s held spare) (hca : ca ∈ s.cacheList)
    (hs : slab ∈ (s.cache ca).slabList) :
    ∃ ca₀ ∈ s.cacheList, ∃ slab₀ ∈ (s.cache ca₀).slabList, (s.cache ca₀).Covers slab₀ slab.addr := by
  cases hon : (s.cache ca).onSlab with
  | true =>
    have haddr := ((hi.ok ca hca).slabs slab hs).addr hon
    have hfits := (hi.ok ca hca).shape.fits
    rw [hon, if_pos rfl] at hfits
    have hpos : 0 < sizeofKslab := by decide
    refine ⟨ca, hca, slab, hs, ?_⟩
    unfold KslabCache.Covers
    omega
  | false =>
    have hstruct : s.StructAt slab.addr slab.range :=
      ⟨ca, hca, hon, slab.firstObj, mem_keys.mpr ⟨slab, hs, rfl⟩⟩
    obtain ⟨slab₀, hs₀, hslot, -⟩ := hi.struct_live _ _ hstruct
    exact ⟨_, hi.kslab, slab₀, hs₀, hslot.covers (hi.ok _ hi.kslab).shape⟩

/-- Different slabs have different structures. -/
theorem SlabInv.eq_of_addr {s : SlabSystem} {ca' : Nat} {slab' : Kslab PageRange} (hi : SlabInv s held spare)
    (hca : ca ∈ s.cacheList) (hca' : ca' ∈ s.cacheList) (hs : slab ∈ (s.cache ca).slabList)
    (hs' : slab' ∈ (s.cache ca').slabList) (haddr : slab.addr = slab'.addr) : ca = ca' ∧ slab = slab' := by
  have hstruct : ∀ {c : Nat} {x : Kslab PageRange}, c ∈ s.cacheList → x ∈ (s.cache c).slabList →
      (s.cache c).onSlab = false → s.StructAt x.addr x.range :=
    fun hc hx hoff => ⟨_, hc, hoff, _, mem_keys.mpr ⟨_, hx, rfl⟩⟩
  -- a structure on its slab is no object
  have hmixed : ∀ {c c' : Nat} {x x' : Kslab PageRange}, c ∈ s.cacheList → c' ∈ s.cacheList →
      x ∈ (s.cache c).slabList → x' ∈ (s.cache c').slabList → (s.cache c).onSlab = true →
      (s.cache c').onSlab = false → x.addr ≠ x'.addr := by
    intro c c' x x' hc hc' hx hx' hon hoff he
    have hdisj := hi.disjoint_struct hi.kslab hc (hi.struct_live _ _ (hstruct hc' hx' hoff)) hon hx
    have hpos := (hi.ok _ hi.kslab).shape.size_pos
    have hpos' : 0 < sizeofKslab := by decide
    omega
  cases hon : (s.cache ca).onSlab with
  | true =>
    cases hon' : (s.cache ca').onSlab with
    | true =>
      have hcov : ∀ {c : Nat} {x : Kslab PageRange}, c ∈ s.cacheList → x ∈ (s.cache c).slabList →
          (s.cache c).onSlab = true → (s.cache c).Covers x x.addr := by
        intro c x hc hx ho
        have haddr := ((hi.ok c hc).slabs x hx).addr ho
        have hfits := (hi.ok c hc).shape.fits
        rw [ho, if_pos rfl] at hfits
        have hpos : 0 < sizeofKslab := by decide
        unfold KslabCache.Covers
        omega
      exact hi.unique hca hca' hs hs' (hcov hca hs hon) (haddr ▸ hcov hca' hs' hon')
    | false => exact absurd haddr (hmixed hca hca' hs hs' hon hon')
  | false =>
    cases hon' : (s.cache ca').onSlab with
    | true => exact absurd haddr.symm (hmixed hca' hca hs' hs hon' hon)
    | false =>
      have hrange := hi.struct_inj _ _ _ (hstruct hca hs hon) (haddr ▸ hstruct hca' hs' hon')
      rw [hi.range_of_mem hca hs, hi.range_of_mem hca' hs'] at hrange
      obtain ⟨hfirst, hpages⟩ := PageRange.mk.inj hrange
      have hpos := (hi.ok ca hca).shape.slabBytes_pos
      have hpos' := (hi.ok ca' hca').shape.slabBytes_pos
      refine hi.unique hca hca' hs hs' (a := slab.firstObj) ?_ ?_
      · unfold KslabCache.Covers
        omega
      · unfold KslabCache.Covers
        omega

section Resolve

variable (hi : HeapInv e h held spare limbo)

include hi

theorem HeapInv.backs_slab (hca : ca ∈ h.slabs.cacheList) (hs : slab ∈ (h.slabs.cache ca).slabList) :
    ∃ r, Backs e h.kvmm slab.range r := hi.known _ (hi.slabs.range_known hca hs)

theorem HeapInv.slabAt (hca : ca ∈ h.slabs.cacheList) (hs : slab ∈ (h.slabs.cache ca).slabList) :
    h.slabAt slab.addr = some (.cache ca slab) := by
  have hnone : (h.kvmm.rangeCache.slabList.find? fun x => x.addr = slab.addr) = none := by
    rw [List.find?_eq_none]
    intro x hx haddr
    rw [decide_eq_true_eq] at haddr
    obtain ⟨ca₀, hca₀, slab₀, hs₀, hcov⟩ := hi.slabs.addr_covered hca hs
    obtain ⟨r, hr⟩ := hi.backs_slab hca₀ hs₀
    have hrcov : r.Covers slab.addr := hr.covers.mpr ((hi.slabs.covers_iff hca₀ hs₀).mpr hcov)
    obtain ⟨r', hr', hbase', hpages', -⟩ := hi.ranges.inv.slab x hx
    have hxaddr := (hi.ranges.inv.cache.ok.slabs x hx).addr hi.ranges.inv.cache.onSlab
    rw [hi.ranges.inv.slabBytes] at hxaddr
    have hsize : sizeofKslab = 28 := rfl
    have hpage : nbBytesPerPage = 4096 := rfl
    have hrcov' : r'.Covers slab.addr := by
      unfold KvmmRange.Covers KvmmRange.top
      rw [hbase', hpages']
      omega
    by_cases he : r' = r
    · rw [he] at hbase'
      exact hr.foreign.2 x hx hbase'.symm
    · have hap := hi.ranges.inv.apart_of_ne (mem_all.mpr (.inr (.inl hr'))) (mem_all.mpr (.inr (.inl hr.foreign.1)))
        (hi.ranges.inv.not_fixed_of_base hx hbase') he
      exact hap.not_covers hrcov' hrcov
  have hfound : h.slabAt slab.addr ≠ none := by
    intro hn
    unfold Heap.slabAt at hn
    rw [hnone] at hn
    dsimp only at hn
    rw [List.findSome?_eq_none_iff] at hn
    have := hn ca hca
    rw [Option.map_eq_none_iff, List.find?_eq_none] at this
    exact this slab hs (by simp)
  obtain ⟨ref, href⟩ := Option.ne_none_iff_exists'.mp hfound
  rw [href]
  unfold Heap.slabAt at href
  rw [hnone] at href
  obtain ⟨ca', hca', hfind⟩ := List.exists_of_findSome?_eq_some href
  rw [Option.map_eq_some_iff] at hfind
  obtain ⟨slab', hfind, rfl⟩ := hfind
  have haddr := List.find?_some hfind
  rw [decide_eq_true_eq] at haddr
  obtain ⟨rfl, rfl⟩ := hi.slabs.eq_of_addr hca hca' hs (List.mem_of_find?_eq_some hfind) haddr.symm
  rfl

/-- An address in a slab is resolved to the slab. -/
theorem HeapInv.resolve (hca : ca ∈ h.slabs.cacheList) (hs : slab ∈ (h.slabs.cache ca).slabList)
    (ha : (h.slabs.cache ca).Covers slab a) : h.kvmmResolveSlab a = some (.cache ca slab) := by
  obtain ⟨r, hr⟩ := hi.backs_slab hca hs
  have hcov : r.Covers a := hr.covers.mpr ((hi.slabs.covers_iff hca hs).mpr ha)
  have hslab := (hi.slab_tied ca hca _ (mem_keys.mpr ⟨slab, hs, rfl⟩)).slabOf hi hr
  unfold Heap.kvmmResolveSlab
  rw [hi.ranges.inv.lookup hr.foreign.1 hr.last hcov]
  dsimp only
  rw [hslab]
  exact hi.slabAt hca hs

/-- A spare range is found, without a slab. -/
theorem HeapInv.lookup_spare (hp : p ∈ spare) (hl : p ∉ limbo) (ha : p.Covers a) :
    ∃ r, Backs e h.kvmm p r ∧ h.kvmm.lookupRange a = some r ∧ h.kvmm.slabOf r.addr = none ∧
      h.kvmmResolveSlab a = none := by
  obtain ⟨r, hr⟩ := hi.known p (hi.slabs.spare_known p hp)
  have hlookup := hi.ranges.inv.lookup hr.foreign.1 hr.last (hr.covers.mpr ha)
  have hnone := (hi.spare_tied p hp hl).slabOf hi hr
  refine ⟨r, hr, hlookup, hnone, ?_⟩
  unfold Heap.kvmmResolveSlab
  rw [hlookup]
  dsimp only
  rw [hnone]
  rfl

end Resolve

/-! ## What a call leaves alone -/

theorem HeapTouches.trans (ht : HeapTouches T h h') (ht' : HeapTouches T h' h'') : HeapTouches T h h'' :=
  ⟨ht.slabs.trans ht'.slabs, ht'.kvmmRangeCache.trans ht.kvmmRangeCache, ht'.kmallocCache.trans ht.kmallocCache⟩

theorem HeapTouches.mono (ht : HeapTouches T h h') (hT : ∀ ca, T ca → T' ca) : HeapTouches T' h h' :=
  ⟨ht.slabs.mono hT, ht.kvmmRangeCache, ht.kmallocCache⟩

/-- Where the caches are the same. -/
theorem HeapTouches.of_cache (hcache : h'.slabs.cache = h.slabs.cache) (hlist : h'.slabs.cacheList = h.slabs.cacheList)
    (hkslabCache : h'.slabs.cacheOfStructKslabCache = h.slabs.cacheOfStructKslabCache)
    (hkslab : h'.slabs.cacheOfStructKslab = h.slabs.cacheOfStructKslab) (hrange : h'.kvmmRangeCache = h.kvmmRangeCache)
    (hkmalloc : h'.kmallocCache = h.kmallocCache) : HeapTouches T h h' := by
  refine ⟨⟨hlist, hkslabCache, hkslab, fun x => ?_, fun x _ => ?_⟩, hrange, hkmalloc⟩
  · rw [hcache]
    exact SameParams.refl _
  · rw [hcache]

theorem heapTouches_setCache {c' : KslabCache PageRange} (hT : T ca) (hparams : (h.slabs.cache ca).SameParams c') :
    HeapTouches T h { h with slabs := h.slabs.setCache ca c' } :=
  ⟨touches_setCache hT hparams, rfl, rfl⟩

/-! ## Slabs over the same ranges -/

/-- The caches change; no slab is new, and the spare ranges that point to no slab were such ranges before. -/
theorem HeapInv.withSlabs {s' : SlabSystem} {spare' limbo' : List PageRange} (hi : HeapInv e h held spare limbo)
    (hs : SlabInv s' held' spare') (hranges : s'.ranges = h.slabs.ranges)
    (hlist : ∀ ca ∈ h.slabs.cacheList, ca ∈ s'.cacheList)
    (hkeys : ∀ ca ∈ s'.cacheList, ∀ k ∈ (s'.cache ca).keys, ca ∈ h.slabs.cacheList ∧ k ∈ (h.slabs.cache ca).keys)
    (hmin : ∀ ca ∈ s'.cacheList, (s'.cache ca).minFreeObj = 0)
    (hspare : ∀ p ∈ spare', p ∉ limbo' → p ∈ spare ∧ p ∉ limbo) (hlimbo : ∀ p ∈ limbo', p ∈ spare')
    (hgone : ∀ p ∈ limbo', ∃ slab, Tied e h.kvmm p (some slab)) (hfixed : ∀ p ∈ spare', ∀ r, e.fixed r → r.base ≠ p.base) :
    HeapInv e { h with slabs := s' } held' spare' limbo' where
  slabs := hs
  ranges := hi.ranges
  empty := hi.empty
  low := hi.low
  bounds := hi.bounds
  known p hp := hi.known p (hranges ▸ hp)
  bases := by
    show (s'.ranges.map (·.base)).Nodup
    rw [hranges]
    exact hi.bases
  slab_tied ca hca k hk := by
    obtain ⟨hca', hk'⟩ := hkeys ca hca k hk
    exact hi.slab_tied ca hca' k hk'
  spare_tied p hp hl := by
    obtain ⟨hp', hl'⟩ := hspare p hp hl
    exact hi.spare_tied p hp' hl'
  limbo_spare := hlimbo
  limbo_tied := hgone
  minFree := hmin
  fixed_spare := hfixed
  fixed_slab p hp r hf hbase := by
    obtain ⟨ca, hca, hcov⟩ := hi.fixed_slab p (hranges ▸ hp) r hf hbase
    exact ⟨ca, hlist ca hca, hcov⟩

/-- One cache changes its objects or loses slabs. -/
theorem HeapInv.setCache {c' : KslabCache PageRange} {spare' limbo' : List PageRange}
    (hi : HeapInv e h held spare limbo) (hca : ca ∈ h.slabs.cacheList)
    (hs : SlabInv (h.slabs.setCache ca c') held' spare') (hparams : (h.slabs.cache ca).SameParams c')
    (hkeys : ∀ k ∈ c'.keys, k ∈ (h.slabs.cache ca).keys)
    (hspare : ∀ p ∈ spare', p ∉ limbo' → p ∈ spare ∧ p ∉ limbo) (hlimbo : ∀ p ∈ limbo', p ∈ spare')
    (hgone : ∀ p ∈ limbo', ∃ slab, Tied e h.kvmm p (some slab)) (hfixed : ∀ p ∈ spare', ∀ r, e.fixed r → r.base ≠ p.base) :
    HeapInv e { h with slabs := h.slabs.setCache ca c' } held' spare' limbo' := by
  apply hi.withSlabs hs rfl (fun _ hx => hx) _ _ hspare hlimbo hgone hfixed
  · intro x hx k hk
    refine ⟨hx, ?_⟩
    by_cases he : x = ca
    · subst he
      simp only [SlabSystem.setCache, Function.update_self] at hk
      exact hkeys k hk
    · simpa only [SlabSystem.setCache, Function.update_of_ne he] using hk
  · intro x hx
    rw [(sameParams_setCache hparams x).minFreeObj]
    exact hi.minFree x hx

theorem HeapInv.take {c' : KslabCache PageRange} {obj : Nat} (hi : HeapInv e h held spare limbo)
    (hca : ca ∈ h.slabs.cacheList) (ht : cacheTakeObject (h.slabs.cache ca) = some (obj, c')) :
    HeapInv e { h with slabs := h.slabs.setCache ca c' } (obj :: held) spare limbo := by
  obtain ⟨-, hparams, hkeys, -⟩ := (hi.slabs.ok ca hca).take ht
  exact hi.setCache hca (hi.slabs.take hca ht).1 hparams (fun k hk => hkeys.mem_iff.mp hk) (fun _ hp hl => ⟨hp, hl⟩)
    hi.limbo_spare hi.limbo_tied hi.fixed_spare

/-- **Giving an object back.** -/
theorem HeapInv.give (hi : HeapInv e h (a :: held) spare limbo) (hca : ca ∈ h.slabs.cacheList)
    (ha : (h.slabs.cache ca).Allocated a) : ∃ slab ∈ (h.slabs.cache ca).slabList,
      h.kvmmResolveSlab a = some (.cache ca slab) ∧ (h.slabs.cache ca).isObject slab a = true ∧
      slab.give a ∈ (cacheGiveObject (h.slabs.cache ca) slab a).slabList ∧
      (∀ b, (cacheGiveObject (h.slabs.cache ca) slab a).Allocated b ↔ (h.slabs.cache ca).Allocated b ∧ b ≠ a) ∧
      HeapInv e { h with slabs := h.slabs.setCache ca (cacheGiveObject (h.slabs.cache ca) slab a) }
        held spare limbo := by
  have hok := hi.slabs.ok ca hca
  obtain ⟨slab, hs, hslot, hfree⟩ := ha
  obtain ⟨hmem, hinv, -⟩ := hi.slabs.giveAt hca hs hslot hfree
  obtain ⟨-, hkeys, hall⟩ := hok.give hs hslot hfree
  refine ⟨slab, hs, hi.resolve hca hs (hslot.covers hok.shape), isObject_of_isSlot hslot hok.shape, hmem, hall, ?_⟩
  exact hi.setCache hca hinv rfl (fun k hk => hkeys.mem_iff.mp hk) (fun _ hp hl => ⟨hp, hl⟩) hi.limbo_spare
    hi.limbo_tied hi.fixed_spare

/-- A slab without objects in use is not that of a fixed range: the structure of a cache would be in use. -/
theorem HeapInv.not_fixed_of_full (hi : HeapInv e h held spare limbo) (hca : ca ∈ h.slabs.cacheList)
    (hs : slab ∈ (h.slabs.cache ca).slabList) (hfull : slab.nbFree ≥ (h.slabs.cache ca).nbObjPerSlab) :
    ∀ r, e.fixed r → r.base ≠ slab.range.base := by
  intro r hf hbase
  obtain ⟨ca', hca', hcov⟩ := hi.fixed_slab _ (hi.slabs.range_known hca hs) r hf hbase
  have hcov' := (hi.slabs.covers_iff hca hs).mp hcov
  have hok := hi.slabs.ok ca hca
  have halloc := hi.slabs.allocated_of_live hca hs hcov' (hi.slabs.cache_live ca' hca')
  obtain ⟨slab', hs', hslot, hfree⟩ := halloc
  obtain rfl := hok.eq_of_covers hs hs' hcov' (hslot.covers hok.shape)
  exact hfree ((hok.slabs slab hs).free_all hfull hslot)

/-- **Removing a slab**: its range is spare, and points to the slab still. -/
theorem HeapInv.remove (hi : HeapInv e h held spare limbo) (hca : ca ∈ h.slabs.cacheList)
    (hs : slab ∈ (h.slabs.cache ca).slabList) (hfull : slab.nbFree ≥ (h.slabs.cache ca).nbObjPerSlab) :
    HeapInv e { h with slabs := h.slabs.setCache ca (cacheRemoveSlab (h.slabs.cache ca) slab) }
      (if (h.slabs.cache ca).onSlab then held else slab.addr :: held) (slab.range :: spare) (slab.range :: limbo) := by
  obtain ⟨-, hperm, -⟩ := (hi.slabs.ok ca hca).remove hs hfull
  apply hi.setCache hca (hi.slabs.remove hca hs hfull).1 rfl
  · intro k hk
    exact hperm.mem_iff.mpr (List.mem_cons_of_mem _ hk)
  · intro p hp hl
    have hne : p ≠ slab.range := fun he => hl (he ▸ List.mem_cons_self)
    exact ⟨(List.mem_cons.mp hp).resolve_left hne, fun hm => hl (List.mem_cons_of_mem _ hm)⟩
  · intro p hp
    exact List.mem_cons.mpr ((List.mem_cons.mp hp).imp_right (hi.limbo_spare p))
  · intro p hp
    cases List.mem_cons.mp hp with
    | inl he =>
      subst he
      exact ⟨slab.addr, hi.slab_tied ca hca _ (mem_keys.mpr ⟨slab, hs, rfl⟩)⟩
    | inr hm => exact hi.limbo_tied p hm
  · intro p hp
    cases List.mem_cons.mp hp with
    | inl he => exact he ▸ hi.not_fixed_of_full hca hs hfull
    | inr hm => exact hi.fixed_spare p hm

/-! ## The slab of a range -/

theorem Backs.of_keeps {s s' : Kvmm W} (hb : Backs e s p r) (hkeep : Foreign s' r) : Backs e s' p r :=
  ⟨hkeep, hb.base, hb.nbPages, hb.last⟩

theorem DelInvWith.setSlab {s : Kvmm W} {pending : List KvmmRange} (hs : DelInvWith e s held pending)
    (hr : Foreign s r) (o : Option Nat) :
    DelInvWith e { s with slabOf := Function.update s.slabOf r.addr o } held pending := by
  have hi := hs.inv
  refine ⟨⟨hi.apart, hi.pos, hi.free_pos, hi.free_ascending, hi.used_ascending, hi.nodup, hi.allocated, hi.cache,
    fun slab hslab => ?_, hi.fixed_used, hi.fixed_slab, hi.structs⟩, hs.gaps⟩
  obtain ⟨x, hx, hbase, hpages, hxslab, hor⟩ := hi.slab slab hslab
  refine ⟨x, hx, hbase, hpages, ?_, hor⟩
  have hne : x.addr ≠ r.addr := by
    intro he
    obtain rfl := hi.used_nodup.eq_of_addr hx hr.1 he
    exact hr.2 slab hslab hbase.symm
  show Function.update s.slabOf r.addr o x.addr = some slab.addr
  rw [Function.update_of_ne hne, hxslab]

/-- The range of the pages gets the slab; those of other pages keep theirs. -/
theorem tied_setSlab (hi : DelInvWith e h.kvmm [] []) {q : PageRange} {o s : Option Nat} (hb : Backs e h.kvmm p r)
    (ht : q.base = p.base → s = o) (hq : q.base ≠ p.base → Tied e h.kvmm q s) (hpages : q.base = p.base → q = p) :
    Tied e { h.kvmm with slabOf := Function.update h.kvmm.slabOf r.addr o } q s := by
  by_cases he : q.base = p.base
  · obtain rfl := hpages he
    exact ⟨r, ⟨hb.foreign, hb.base, hb.nbPages, hb.last⟩, (Function.update_self ..).trans (ht rfl).symm⟩
  · obtain ⟨x, hx, hslab⟩ := hq he
    have hne : x.addr ≠ r.addr := by
      intro heq
      obtain rfl := hi.inv.used_nodup.eq_of_addr hx.foreign.1 hb.foreign.1 heq
      exact he (hx.base.symm.trans hb.base)
    exact ⟨x, ⟨hx.foreign, hx.base, hx.nbPages, hx.last⟩, (Function.update_of_ne hne ..).trans hslab⟩

theorem HeapInv.eq_of_base (hi : HeapInv e h held spare limbo) {p q : PageRange} (hp : p ∈ h.slabs.ranges)
    (hq : q ∈ h.slabs.ranges) (hbase : p.base = q.base) : p = q := List.inj_on_of_nodup_map hi.bases hp hq hbase

/-- A range in limbo no longer points to its slab. -/
theorem HeapInv.setSlab_none (hi : HeapInv e h held spare (p :: limbo)) (hp' : p ∉ limbo) (hb : Backs e h.kvmm p r) :
    HeapInv e (h.setSlab r none) held spare limbo := by
  have hp : p ∈ spare := hi.limbo_spare p List.mem_cons_self
  have hknown : ∀ {q}, q ∈ spare → q ∈ h.slabs.ranges := fun hq => hi.slabs.spare_known _ hq
  refine ⟨hi.slabs, hi.ranges.setSlab hb.foreign none, hi.empty, hi.low, hi.bounds, fun q hq => ?_, hi.bases,
    fun ca hca k hk => ?_, fun q hq hl => ?_, fun q hq => hi.limbo_spare q (List.mem_cons_of_mem _ hq),
    fun q hq => ?_, hi.minFree, hi.fixed_spare, hi.fixed_slab⟩
  · obtain ⟨x, hx⟩ := hi.known q hq
    exact ⟨x, hx.of_keeps hx.foreign⟩
  · have hne : k.2.2.base ≠ p.base :=
      ((hi.slabs.spare_apart p hp ca hca k hk).base_ne (hi.slabs.spare_pos p hp)
        (by rw [hi.slabs.range ca hca k hk]; exact hi.slabs.nbPages_pos hca)).symm
    exact tied_setSlab hi.ranges hb (fun he => absurd he hne) (fun _ => hi.slab_tied ca hca k hk)
      fun he => absurd he hne
  · apply tied_setSlab hi.ranges hb (fun _ => rfl) _ fun he => hi.eq_of_base (hknown hq) (hknown hp) he
    intro hne
    refine hi.spare_tied q hq fun hm => ?_
    cases List.mem_cons.mp hm with
    | inl he => exact hne (he ▸ rfl)
    | inr hm => exact hl hm
  · obtain ⟨s, hs⟩ := hi.limbo_tied q (List.mem_cons_of_mem _ hq)
    have hne : q.base ≠ p.base := by
      intro he
      have hmem := hknown (hi.limbo_spare q (List.mem_cons_of_mem _ hq))
      exact hp' (hi.eq_of_base hmem (hknown hp) he ▸ hq)
    exact ⟨s, tied_setSlab hi.ranges hb (fun he => absurd he hne) (fun _ => hs) fun he => absurd he hne⟩

/-- **Adding a slab** over the spare range. -/
theorem HeapInv.addSlab {addr : Nat} (hi : HeapInv e h held' (p :: spare) [])
    (hp : p.nbPages = (h.slabs.cache ca).nbPagesPerSlab) (hb : Backs e h.kvmm p r) (hca : ca ∈ h.slabs.cacheList)
    (hon : (h.slabs.cache ca).onSlab = true → held' = held ∧ addr + sizeofKslab = p.base + (h.slabs.cache ca).slabBytes)
    (hoff : (h.slabs.cache ca).onSlab = false → held' = addr :: held ∧
      (h.slabs.cache h.slabs.cacheOfStructKslab).Allocated addr) :
    HeapInv e (h.addSlab ca addr r) held spare [] ∧
      ∀ b, ((h.addSlab ca addr r).slabs.cache ca).Allocated b ↔ (h.slabs.cache ca).Allocated b := by
  obtain ⟨base, nbPages⟩ := p
  obtain rfl : nbPages = (h.slabs.cache ca).nbPagesPerSlab := hp
  have hrange : (⟨r.base, r.nbPages⟩ : PageRange) = ⟨base, (h.slabs.cache ca).nbPagesPerSlab⟩ := by
    rw [hb.base, hb.nbPages]
  obtain ⟨hslabs, hall⟩ := hi.slabs.add hca hon hoff
  have hpair := List.pairwise_cons.mp hi.slabs.spare_pairwise
  have hpos := hi.slabs.spare_pos _ List.mem_cons_self
  have hself : ((h.addSlab ca addr r).slabs.cache ca) = cacheAddSlab (h.slabs.cache ca) base addr
      ⟨base, (h.slabs.cache ca).nbPagesPerSlab⟩ := by
    unfold Heap.addSlab
    rw [hrange, hb.base]
    exact Function.update_self ..
  have hother : ∀ x, x ≠ ca → (h.addSlab ca addr r).slabs.cache x = h.slabs.cache x := by
    intro x hne
    exact Function.update_of_ne hne ..
  have hsys : (h.addSlab ca addr r).slabs = h.slabs.setCache ca (cacheAddSlab (h.slabs.cache ca) base addr
      ⟨base, (h.slabs.cache ca).nbPagesPerSlab⟩) := by
    unfold Heap.addSlab
    rw [hrange, hb.base]
    rfl
  -- an old slab keeps its range
  have hold : ∀ x ∈ h.slabs.cacheList, ∀ k ∈ (h.slabs.cache x).keys,
      Tied e (h.addSlab ca addr r).kvmm k.2.2 (some k.1) := by
    intro x hx k hk
    have hne : k.2.2.base ≠ base := ((hi.slabs.spare_apart _ List.mem_cons_self x hx k hk).base_ne hpos
      (by rw [hi.slabs.range x hx k hk]; exact hi.slabs.nbPages_pos hx)).symm
    exact tied_setSlab hi.ranges hb (fun he => absurd he hne) (fun _ => hi.slab_tied x hx k hk)
      fun he => absurd he hne
  refine ⟨⟨hsys ▸ hslabs, hi.ranges.setSlab hb.foreign _, hi.empty, hi.low, hi.bounds, fun q hq => ?_, hi.bases,
    fun x hx k hk => ?_, fun q hq _ => ?_, fun q hq => absurd hq List.not_mem_nil,
    fun q hq => absurd hq List.not_mem_nil, fun x hx => ?_,
    fun q hq => hi.fixed_spare q (List.mem_cons_of_mem _ hq), hi.fixed_slab⟩, fun b => ?_⟩
  · obtain ⟨x, hx⟩ := hi.known q hq
    exact ⟨x, hx.of_keeps hx.foreign⟩
  · by_cases he : x = ca
    · subst he
      rw [hself] at hk
      cases List.mem_cons.mp hk with
      | inl hnew =>
        rw [hnew]
        exact tied_setSlab hi.ranges hb (fun _ => rfl) (fun hne => absurd rfl hne) fun _ => rfl
      | inr hk => exact hold x hx k hk
    · rw [hother x he] at hk
      exact hold x hx k hk
  · have hne : q.base ≠ base := ((hpair.1 q hq).base_ne hpos (hi.slabs.spare_pos q (List.mem_cons_of_mem _ hq))).symm
    exact tied_setSlab hi.ranges hb (fun he => absurd he hne)
      (fun _ => hi.spare_tied q (List.mem_cons_of_mem _ hq) List.not_mem_nil) fun he => absurd he hne
  · by_cases he : x = ca
    · subst he
      rw [hself]
      exact hi.minFree x hx
    · rw [hother x he]
      exact hi.minFree x hx
  · rw [hself]
    exact hall b

/-! ## Ranges that come and go -/

structure HeapNewRange (e : Slack) (h : Heap W) (held : List Nat) (spare limbo : List PageRange) (k : Nat)
    (res : Option KvmmRange × Heap W) : Prop where
  touches : ∀ T, HeapTouches T h res.2
  keeps : ∀ q x, Backs e h.kvmm q x → Backs e res.2.kvmm q x
  null : res.1 = none → HeapInv e res.2 held spare limbo
  range : ∀ r ∈ res.1, r.nbPages = k ∧ HeapInv e res.2 held (⟨r.base, k⟩ :: spare) limbo ∧
    Backs e res.2.kvmm ⟨r.base, k⟩ r

/-- **A new range** is spare, or nothing but the ranges themselves changes. -/
theorem HeapInv.newRange (hi : HeapInv e h held spare limbo) (k : Nat) (map : Bool) :
    HeapNewRange e h held spare limbo k (h.newRange E k map) := by
  have hnew := kvmmNewRange_spec (E := E) 0 hi.ranges hi.low (k := k) (fun he => absurd hi.empty he) map
  unfold Heap.newRange
  generalize Kvmm.kvmmNewRange E 2 h.kvmm k map = res at hnew
  obtain ⟨o, s⟩ := res
  have hbounds : ∀ a, s.Covered [] a → kvmmBase ≤ a ∧ a < kvmmTop := fun a ha => hi.bounds a ((hnew.covered a).mp ha)
  have hkeeps : ∀ q x, Backs e h.kvmm q x → Backs e s q x := fun q x hx => hx.of_keeps (hnew.keeps x hx.foreign).1
  have hknown : ∀ q ∈ h.slabs.ranges, ∃ x, Backs e s q x := by
    intro q hq
    obtain ⟨x, hx⟩ := hi.known q hq
    exact ⟨x, hkeeps q x hx⟩
  have htied : ∀ {q o}, Tied e h.kvmm q o → Tied e s q o := by
    rintro q o ⟨x, hx, hslab⟩
    exact ⟨x, hkeeps q x hx, (hnew.keeps x hx.foreign).2.trans hslab⟩
  have hlimbo : ∀ q ∈ limbo, ∃ slab, Tied e s q (some slab) := fun q hq => (hi.limbo_tied q hq).imp fun _ => htied
  cases o with
  | none =>
    refine ⟨fun _ => .of_cache rfl rfl rfl rfl rfl rfl, hkeeps, fun _ => ?_,
      fun r hr => absurd hr (Option.not_mem_none r)⟩
    exact ⟨hi.slabs, hnew.inv, hi.empty, hnew.failed rfl, hbounds, hknown, hi.bases,
      fun ca hca k hk => htied (hi.slab_tied ca hca k hk), fun q hq hl => htied (hi.spare_tied q hq hl),
      hi.limbo_spare, hlimbo, hi.minFree, hi.fixed_spare, hi.fixed_slab⟩
  | some r =>
    obtain ⟨hdel, rfl, hlow⟩ := hnew.range r rfl
    obtain ⟨hfresh, hfixed⟩ := hnew.fresh r rfl
    have hforeign : Foreign s r := hdel.foreign hnew.inv.inv
    have hpos : 0 < r.nbPages := hnew.inv.inv.used_pos hdel.used
    have hbacks : Backs e s ⟨r.base, r.nbPages⟩ r := ⟨hforeign, rfl, rfl, Slack.last_of_not_fixed hfixed⟩
    have hap : ∀ q ∈ h.slabs.ranges, PageRange.Apart ⟨r.base, r.nbPages⟩ q := by
      intro q hq
      obtain ⟨x, hx⟩ := hi.known q hq
      have hxused := (hnew.keeps x hx.foreign).1.1
      have := hnew.inv.inv.apart_of_ne (mem_all.mpr (.inr (.inl hdel.used))) (mem_all.mpr (.inr (.inl hxused))) hfixed
        fun he => hfresh (he ▸ hx.foreign)
      unfold KvmmRange.Apart KvmmRange.top at this
      rw [hx.base, hx.nbPages] at this
      exact this
    refine ⟨fun _ => .of_cache rfl rfl rfl rfl rfl rfl, hkeeps, fun hn => absurd hn (Option.some_ne_none r),
      fun y hy => ?_⟩
    obtain rfl := Option.some.inj hy
    refine ⟨rfl, ⟨hi.slabs.addRange hpos hap h.slabs.time, hnew.inv, hi.empty, hlow, hbounds,
      fun q hq => ?_, ?_, fun ca hca k hk => htied (hi.slab_tied ca hca k hk), fun q hq hl => ?_,
      fun q hq => List.mem_cons_of_mem _ (hi.limbo_spare q hq), hlimbo, hi.minFree, fun q hq x hx => ?_,
      fun q hq x hx hbase => ?_⟩, hbacks⟩
    · cases List.mem_cons.mp hq with
      | inl he =>
        subst he
        exact ⟨r, hbacks⟩
      | inr hq => exact hknown q hq
    · refine List.nodup_cons.mpr ⟨fun hm => ?_, hi.bases⟩
      obtain ⟨q, hq, hbase⟩ := List.mem_map.mp hm
      obtain ⟨x, hx⟩ := hi.known q hq
      have hqpos : 0 < q.nbPages := hx.nbPages ▸ hi.ranges.inv.used_pos hx.foreign.1
      exact (hap q hq).base_ne hpos hqpos hbase.symm
    · cases List.mem_cons.mp hq with
      | inl he =>
        subst he
        exact ⟨r, hbacks, hdel.slab⟩
      | inr hq => exact htied (hi.spare_tied q hq hl)
    · cases List.mem_cons.mp hq with
      | inl he =>
        subst he
        intro hbase
        have := hnew.inv.inv.used_ascending.eq_of_base (hnew.inv.inv.fixed_used x hx) hdel.used hbase
        exact hfixed (this ▸ hx)
      | inr hq => exact hi.fixed_spare q hq x hx
    · cases List.mem_cons.mp hq with
      | inl he =>
        subst he
        have := hnew.inv.inv.used_ascending.eq_of_base (hnew.inv.inv.fixed_used x hx) hdel.used hbase
        exact absurd (this ▸ hx) hfixed
      | inr hq => exact hi.fixed_slab q hq x hx hbase

/-- **Deleting a spare range** that points to no slab. -/
theorem HeapInv.delRange (hi : HeapInv e h held (p :: spare) limbo) (hp : p ∉ limbo) (hb : Backs e h.kvmm p r) :
    HeapInv e (h.delRange E r) held spare limbo ∧
      (∀ q x, q.base ≠ p.base → Backs e h.kvmm q x → Backs e (h.delRange E r).kvmm q x) ∧
      ∀ x, Deletable (h.delRange E r).kvmm x ↔ Deletable h.kvmm x ∧ x ≠ r := by
  have hpair := List.pairwise_cons.mp hi.slabs.spare_pairwise
  have hspareKnown : ∀ {q}, q ∈ p :: spare → q ∈ h.slabs.ranges := fun hq => hi.slabs.spare_known _ hq
  have hdel : Deletable h.kvmm r := ⟨hb.foreign.1, (hi.spare_tied p List.mem_cons_self hp).slabOf hi hb⟩
  have hfixed : ¬ e.fixed r := fun hf => hi.fixed_spare p List.mem_cons_self r hf hb.base
  obtain ⟨s, heq, hfreed, hdeleted, -⟩ := kvmmDelRange_spec E hi.ranges hdel hfixed
  have hrange : (⟨r.base, r.nbPages⟩ : PageRange) = p := by rw [hb.base, hb.nbPages]
  have hh : h.delRange E r = { h with
      slabs := h.slabs.delRange p
      kvmm := s } := by
    unfold Heap.delRange
    rw [heq, hrange]
    rfl
  have hne : ∀ {q x}, q.base ≠ p.base → Backs e h.kvmm q x → x ≠ r := by
    intro q x hq hx he
    exact hq (hx.base.symm.trans (he ▸ hb.base))
  have hmem : ∀ q ∈ h.slabs.ranges.erase p, q ∈ h.slabs.ranges ∧ q.base ≠ p.base := by
    intro q hq
    have hnodup := List.Nodup.of_map _ hi.bases
    obtain ⟨hqp, hq⟩ := (hnodup.mem_erase_iff).mp hq
    exact ⟨hq, fun he => hqp (hi.eq_of_base hq (hspareKnown List.mem_cons_self) he)⟩
  have hkeeps : ∀ q x, q.base ≠ p.base → Backs e h.kvmm q x → Backs e s q x :=
    fun q x hq hx => hx.of_keeps (hdeleted.keeps x hx.foreign (hne hq hx)).1
  have htied : ∀ {q o}, q.base ≠ p.base → Tied e h.kvmm q o → Tied e s q o := by
    rintro q o hq ⟨x, hx, hslab⟩
    exact ⟨x, hkeeps q x hq hx, (hdeleted.keeps x hx.foreign (hne hq hx)).2.trans hslab⟩
  have hpos := hi.slabs.spare_pos p List.mem_cons_self
  have hspare : ∀ {q}, q ∈ spare → q.base ≠ p.base := fun hq =>
    ((hpair.1 _ hq).base_ne hpos (hi.slabs.spare_pos _ (List.mem_cons_of_mem _ hq))).symm
  have hlimbo : ∀ {q}, q ∈ limbo → q ∈ spare := fun hq =>
    (List.mem_cons.mp (hi.limbo_spare _ hq)).resolve_left fun he => hp (he ▸ hq)
  rw [hh]
  refine ⟨⟨hi.slabs.delRange, hfreed.inv, hi.empty, ?_, fun a ha => hi.bounds a ((hfreed.covered a).mp ha),
    fun q hq => ?_, ?_, fun ca hca k hk => ?_, fun q hq hl => ?_, fun q hq => ?_, fun q hq => ?_, hi.minFree,
    fun q hq => hi.fixed_spare q (List.mem_cons_of_mem _ hq), fun q hq => hi.fixed_slab q (hmem q hq).1⟩, hkeeps,
    fun x => ⟨fun hx => ?_, fun hx => ?_⟩⟩
  · have := hfreed.low
    have := hi.low
    show 2 ≤ s.rangeCache.nbFreeObj
    omega
  · obtain ⟨hq, hbase⟩ := hmem q hq
    obtain ⟨x, hx⟩ := hi.known q hq
    exact ⟨x, hkeeps q x hbase hx⟩
  · exact hi.bases.sublist (List.erase_sublist.map _)
  · refine htied ?_ (hi.slab_tied ca hca k hk)
    exact ((hi.slabs.spare_apart p List.mem_cons_self ca hca k hk).base_ne hpos
      (by rw [hi.slabs.range ca hca k hk]; exact hi.slabs.nbPages_pos hca)).symm
  · exact htied (hspare hq) (hi.spare_tied q (List.mem_cons_of_mem _ hq) hl)
  · exact hlimbo hq
  · exact (hi.limbo_tied q hq).imp fun _ => htied (hspare (hlimbo hq))
  · obtain ⟨hx', hne', hslab⟩ := hdeleted.used x hx.used
    exact ⟨⟨hx', hslab.symm.trans hx.slab⟩, hne'⟩
  · obtain ⟨hx', hslab⟩ := hdeleted.keeps x (hx.1.foreign hi.ranges.inv) hx.2
    exact ⟨hx'.1, hslab.trans hx.1.slab⟩

end Desiros.Mem
