import Desiros.Library.Runs
import Desiros.Library.Related
import Desiros.Mem.KmallocSlabs

/-!
# Runs of kmalloc and kfree

Callers allocate blocks of any size and free blocks they hold. Every block lies in a range of its own or in a slab of
one of the caches of `kmalloc`, and the structures of the allocators lie in other ranges, in the slabs of the other
caches or beside the objects. `kvmm_resolve_slab` tells the two kinds of blocks apart, so `kfree` releases the block
whichever allocator it came from.
-/

namespace Desiros.Mem

open Desiros.Library KslabCache SlabSystem Kvmm

/-- No byte belongs to both. -/
def Separate (a n b m : Nat) : Prop := a + n ≤ b ∨ b + m ≤ a

theorem Separate.symm {a n b m : Nat} (h : Separate a n b m) : Separate b m a n := Or.symm h

namespace Heap

variable {W : Type}

/-- A block at the address is in use: an object of one of the caches of `kmalloc`, or a range that is no slab's. -/
def InUse (h : Heap W) (a : Nat) : Prop :=
  (∃ ca ∈ h.kmallocCache, (h.slabs.cache ca).Allocated a) ∨ ∃ r, Deletable h.kvmm r ∧ r.base = a

/-- The size of the block at an address, as `kfree` looks for it. -/
def blockSize (h : Heap W) (vaddr : Nat) : Nat :=
  match h.kvmmResolveSlab vaddr with
  | some (.cache ca _) => (h.slabs.cache ca).allocObjSize
  | some (.range _) => h.kvmm.rangeCache.allocObjSize
  | none =>
    match h.kvmm.lookupRange vaddr with
    | some range => range.nbPages * nbBytesPerPage
    | none => 0

/-- The structures of the allocators, with their sizes: those of the ranges, of the slabs and of the free objects of
the range cache, of the caches, and of the slabs and the free objects of these. -/
inductive Structure (h : Heap W) : Nat → Nat → Prop
  | range {r} (hr : r ∈ h.kvmm.all []) : Structure h r.addr sizeofKvmmRange
  | rangeKslab {slab} (hs : slab ∈ h.kvmm.rangeCache.slabList) : Structure h slab.addr sizeofKslab
  | rangeFree {slab a} (hs : slab ∈ h.kvmm.rangeCache.slabList) (ha : a ∈ slab.free) :
    Structure h a sizeofKslabFreeObj
  | rangeCache : Structure h h.kvmmRangeCache sizeofKslabCache
  | cache {ca} (hca : ca ∈ h.slabs.cacheList) : Structure h ca sizeofKslabCache
  | kslab {ca slab} (hca : ca ∈ h.slabs.cacheList) (hs : slab ∈ (h.slabs.cache ca).slabList) :
    Structure h slab.addr sizeofKslab
  | freeObj {ca slab a} (hca : ca ∈ h.slabs.cacheList) (hs : slab ∈ (h.slabs.cache ca).slabList)
    (ha : a ∈ slab.free) : Structure h a sizeofKslabFreeObj

end Heap

/-! ## The caches of the allocators -/

/-- The structures of all caches are objects of the cache of caches, and `kmalloc` has a cache for each of the rows,
which is neither that nor the one of the slab structures. -/
structure KmallocReady {W : Type} (rows : List (UInt32 × UInt32)) (h : Heap W) : Prop where
  caches : h.slabs.cacheOfStructKslabCache ∈ h.slabs.cacheList
  ne : h.slabs.cacheOfStructKslabCache ≠ h.slabs.cacheOfStructKslab
  cacheSize : (h.slabs.cache h.slabs.cacheOfStructKslabCache).allocObjSize = sizeofKslabCache
  kslabSize : (h.slabs.cache h.slabs.cacheOfStructKslab).allocObjSize = sizeofKslab
  objSize : ∀ ca ∈ h.slabs.cacheList, sizeofKslabFreeObj ≤ (h.slabs.cache ca).allocObjSize
  cache_allocated : ∀ ca ∈ h.slabs.cacheList, (h.slabs.cache h.slabs.cacheOfStructKslabCache).Allocated ca
  range_allocated : (h.slabs.cache h.slabs.cacheOfStructKslabCache).Allocated h.kvmmRangeCache
  table : List.Forall₂ (fun row ca => ca ∈ h.slabs.cacheList ∧ (h.slabs.cache ca).allocObjSize = row.1.toNat ∧
    ca ≠ h.slabs.cacheOfStructKslabCache ∧ ca ≠ h.slabs.cacheOfStructKslab) rows h.kmallocCache

variable {W : Type} {e : Slack} {h h' : Heap W} {held : List Nat} {spare : List PageRange} {ca ca' a b n m : Nat}
  {slab slab' : Kslab PageRange} {p : PageRange} {r r' : KvmmRange} {E : PageMap W} {T : Nat → Prop}
  {rows : List (UInt32 × UInt32)}

theorem KmallocReady.of_mem (hr : KmallocReady rows h) (hca : ca ∈ h.kmallocCache) : ca ∈ h.slabs.cacheList ∧
    ca ≠ h.slabs.cacheOfStructKslabCache ∧ ca ≠ h.slabs.cacheOfStructKslab := by
  obtain ⟨row, -, hmem, -, hne⟩ := exists_left_of_forall₂ hr.table hca
  exact ⟨hmem, hne⟩

/-- A call that does not touch the cache of caches. -/
theorem KmallocReady.of_touches (hr : KmallocReady rows h) (ht : HeapTouches T h h')
    (hT : ¬ T h.slabs.cacheOfStructKslabCache) : KmallocReady rows h' := by
  have hlist := ht.slabs.cacheList
  have hcaches := ht.slabs.kslabCache
  have hkslab := ht.slabs.kslab
  have hsame := ht.slabs.other _ hT
  have hsize : ∀ ca, (h'.slabs.cache ca).allocObjSize = (h.slabs.cache ca).allocObjSize :=
    fun ca => (ht.slabs.params ca).allocObjSize
  refine ⟨by rw [hcaches, hlist]; exact hr.caches, by rw [hcaches, hkslab]; exact hr.ne,
    by rw [hcaches, hsame]; exact hr.cacheSize, by rw [hkslab, hsize]; exact hr.kslabSize, fun ca hca => ?_,
    fun ca hca => ?_, by rw [hcaches, hsame, ht.kvmmRangeCache]; exact hr.range_allocated, ?_⟩
  · rw [hsize]
    exact hr.objSize ca (hlist ▸ hca)
  · rw [hcaches, hsame]
    exact hr.cache_allocated ca (hlist ▸ hca)
  · rw [ht.kmallocCache, hlist, hcaches, hkslab]
    exact hr.table.imp fun _ ca hrow => ⟨hrow.1, (hsize ca).trans hrow.2.1, hrow.2.2⟩

theorem KmallocReady.not_scope (hr : KmallocReady rows h) (hca : ca ∈ h.kmallocCache) :
    ¬ h.slabs.Scope ca h.slabs.cacheOfStructKslabCache := by
  rintro (he | ⟨-, he⟩)
  · exact (hr.of_mem hca).2.1 he.symm
  · exact hr.ne he

/-! ## Where things are -/

/-- The bytes lie in the range. -/
def Inside (r : KvmmRange) (a n : Nat) : Prop := r.base ≤ a ∧ a + n ≤ r.top

theorem Inside.mono (hi : Inside r a n) (hm : m ≤ n) : Inside r a m :=
  ⟨hi.1, Nat.le_trans (Nat.add_le_add_left hm a) hi.2⟩

theorem Inside.separate (hi : Inside r a n) (hi' : Inside r' b m) (hap : r.Apart r') : Separate a n b m := by
  unfold Inside at hi hi'
  unfold KvmmRange.Apart at hap
  unfold Separate
  omega

theorem Inside.covers (hi : Inside r a n) (hn : 0 < n) : r.Covers a := by
  unfold Inside at hi
  unfold KvmmRange.Covers
  omega

/-- A block of `n` bytes at `a` that a caller holds. -/
inductive Holds {W : Type} (h : Heap W) (held : List Nat) (spare : List PageRange) : Nat → Nat → Prop
  | object {ca a : Nat} (hca : ca ∈ h.kmallocCache) (ha : (h.slabs.cache ca).Allocated a) (hheld : a ∈ held) :
    Holds h held spare a (h.slabs.cache ca).allocObjSize
  | pages {p : PageRange} (hp : p ∈ spare) : Holds h held spare p.base (p.nbPages * nbBytesPerPage)

section Places

variable (hi : HeapInv e h held spare []) (hr : KmallocReady rows h)

include hi

theorem HeapInv.apart_of_ne (hfr : Foreign h.kvmm r) (hfr' : Foreign h.kvmm r') (hf : ¬ e.fixed r) (hne : r ≠ r') :
    r.Apart r' :=
  hi.ranges.inv.apart_of_ne (mem_all.mpr (.inr (.inl hfr.1))) (mem_all.mpr (.inr (.inl hfr'.1))) hf hne

/-- Different slabs have different ranges. -/
theorem HeapInv.eq_of_backs (hca : ca ∈ h.slabs.cacheList) (hca' : ca' ∈ h.slabs.cacheList)
    (hs : slab ∈ (h.slabs.cache ca).slabList) (hs' : slab' ∈ (h.slabs.cache ca').slabList)
    (hb : Backs e h.kvmm slab.range r) (hb' : Backs e h.kvmm slab'.range r) : ca = ca' ∧ slab = slab' := by
  have hbase := hb.base.symm.trans hb'.base
  rw [hi.slabs.range_of_mem hca hs, hi.slabs.range_of_mem hca' hs'] at hbase
  change slab.firstObj = slab'.firstObj at hbase
  have hpos := (hi.slabs.ok ca hca).shape.slabBytes_pos
  have hpos' := (hi.slabs.ok ca' hca').shape.slabBytes_pos
  refine hi.slabs.unique hca hca' hs hs' (a := slab.firstObj) ?_ ?_
  · unfold KslabCache.Covers
    omega
  · unfold KslabCache.Covers
    omega

/-- The range of a slab is not spare. -/
theorem HeapInv.ne_of_backs (hca : ca ∈ h.slabs.cacheList) (hs : slab ∈ (h.slabs.cache ca).slabList) (hp : p ∈ spare)
    (hb : Backs e h.kvmm slab.range r) (hb' : Backs e h.kvmm p r') : r ≠ r' := by
  intro he
  have hk := hi.slab_tied ca hca _ (mem_keys.mpr ⟨slab, hs, rfl⟩)
  have hn := hi.spare_tied p hp List.not_mem_nil
  have hslab := hk.slabOf hi hb
  rw [he, hn.slabOf hi hb'] at hslab
  cases hslab

theorem HeapInv.inside_slab (hca : ca ∈ h.slabs.cacheList) (hs : slab ∈ (h.slabs.cache ca).slabList)
    (hb : Backs e h.kvmm slab.range r) (hlow : slab.firstObj ≤ a)
    (hhigh : a + n ≤ slab.firstObj + (h.slabs.cache ca).slabBytes) : Inside r a n := by
  have hrange := hi.slabs.range_of_mem hca hs
  unfold Inside KvmmRange.top
  rw [hb.base, hb.nbPages, hrange]
  exact ⟨hlow, hhigh⟩

/-- An object lies in the range of its slab. -/
theorem HeapInv.inside_slot (hca : ca ∈ h.slabs.cacheList) (hs : slab ∈ (h.slabs.cache ca).slabList)
    (hb : Backs e h.kvmm slab.range r) (hslot : (h.slabs.cache ca).IsSlot slab a) :
    Inside r a (h.slabs.cache ca).allocObjSize := by
  obtain ⟨hlow, hhigh⟩ := hslot.end_le (hi.slabs.ok ca hca).shape
  exact hi.inside_slab hca hs hb hlow (by omega)

/-- The structures of the range cache lie in ranges of its own. -/
theorem HeapInv.inside_rangeSlab {x : Kslab (Option Nat)} (hx : x ∈ h.kvmm.rangeCache.slabList) :
    ∃ r' ∈ h.kvmm.usedList, (∀ r, Foreign h.kvmm r → ¬ e.fixed r → r.Apart r') ∧
      ∀ b m, x.firstObj ≤ b → b + m ≤ x.firstObj + nbBytesPerPage → Inside r' b m := by
  obtain ⟨r', hr', hbase, hpages, -⟩ := hi.ranges.inv.slab x hx
  refine ⟨r', hr', fun r hfr hf => ?_, fun b m hlow hhigh => ?_⟩
  · refine hi.ranges.inv.apart_of_ne (mem_all.mpr (.inr (.inl hfr.1))) (mem_all.mpr (.inr (.inl hr'))) hf fun he => ?_
    exact hfr.2 x hx (he ▸ hbase.symm)
  · unfold Inside KvmmRange.top
    rw [hbase, hpages, Nat.one_mul]
    exact ⟨hlow, hhigh⟩

include hr

/-- Only the cache of caches has a slab in a fixed range. -/
theorem HeapInv.not_fixed_of_slab (hca : ca ∈ h.slabs.cacheList) (hne : ca ≠ h.slabs.cacheOfStructKslabCache)
    (hs : slab ∈ (h.slabs.cache ca).slabList) (hb : Backs e h.kvmm slab.range r) : ¬ e.fixed r := by
  intro hf
  obtain ⟨c, hc, hcov⟩ := hi.fixed_slab _ (hi.slabs.range_known hca hs) r hf hb.base
  obtain ⟨slab', hs', hslot, -⟩ := hr.cache_allocated c hc
  have hcov' := hslot.covers (hi.slabs.ok _ hr.caches).shape
  exact hne (hi.slabs.unique hca hr.caches hs hs' ((hi.slabs.covers_iff hca hs).mp hcov) hcov').1

/-- A block lies in a range that no structure of another cache is in. -/
theorem Holds.range (hh : Holds h held spare a n) :
    0 < n ∧ ∃ r, Foreign h.kvmm r ∧ ¬ e.fixed r ∧ Inside r a n ∧
      ((∃ p ∈ spare, Backs e h.kvmm p r ∧ a = p.base ∧ n = p.nbPages * nbBytesPerPage) ∨
        ∃ ca ∈ h.kmallocCache, ∃ slab ∈ (h.slabs.cache ca).slabList, Backs e h.kvmm slab.range r ∧
          (h.slabs.cache ca).IsSlot slab a ∧ a ∉ slab.free ∧ n = (h.slabs.cache ca).allocObjSize) := by
  cases hh with
  | @object ca a hca ha hheld =>
    obtain ⟨hca', hne, -⟩ := hr.of_mem hca
    obtain ⟨slab, hs, hslot, hfree⟩ := ha
    obtain ⟨r, hb⟩ := hi.backs_slab hca' hs
    exact ⟨(hi.slabs.ok ca hca').shape.size_pos, r, hb.foreign, hi.not_fixed_of_slab hr hca' hne hs hb,
      hi.inside_slot hca' hs hb hslot, .inr ⟨ca, hca, slab, hs, hb, hslot, hfree, rfl⟩⟩
  | @pages p hp =>
    obtain ⟨r, hb⟩ := hi.known p (hi.slabs.spare_known p hp)
    have hpos := Nat.mul_pos (hi.slabs.spare_pos p hp) (show 0 < nbBytesPerPage by decide)
    refine ⟨hpos, r, hb.foreign, fun hf => hi.fixed_spare p hp r hf hb.base, ?_, .inl ⟨p, hp, hb, rfl, rfl⟩⟩
    unfold Inside KvmmRange.top
    rw [hb.base, hb.nbPages]
    exact ⟨Nat.le_refl _, Nat.le_refl _⟩

omit hr in
theorem Holds.inUse (hh : Holds h held spare a n) : h.InUse a := by
  cases hh with
  | object hca ha _ => exact .inl ⟨_, hca, ha⟩
  | @pages p hp =>
    obtain ⟨r, hb, hslab⟩ := hi.spare_tied p hp List.not_mem_nil
    exact .inr ⟨r, ⟨hb.foreign.1, hslab⟩, hb.base⟩

theorem Holds.blockSize (hh : Holds h held spare a n) : h.blockSize a = n := by
  have hpos := (hh.range hi hr).1
  cases hh with
  | @object ca a hca ha _ =>
    obtain ⟨hca', -⟩ := hr.of_mem hca
    obtain ⟨slab, hs, hslot, -⟩ := ha
    unfold Heap.blockSize
    rw [hi.resolve hca' hs (hslot.covers (hi.slabs.ok ca hca').shape)]
  | @pages p hp =>
    have hcov : p.Covers p.base := by
      unfold PageRange.Covers
      omega
    obtain ⟨r, hb, hlookup, -, hresolve⟩ := hi.lookup_spare hp List.not_mem_nil hcov
    unfold Heap.blockSize
    rw [hresolve, hlookup]
    exact congrArg (· * nbBytesPerPage) hb.nbPages

/-- **Different blocks are disjoint.** -/
theorem Holds.separate (hh : Holds h held spare a n) (hh' : Holds h held spare b m) (hne : a ≠ b) :
    Separate a n b m := by
  obtain ⟨-, r, hfr, hf, hin, hkind⟩ := hh.range hi hr
  obtain ⟨-, r', hfr', -, hin', hkind'⟩ := hh'.range hi hr
  by_cases he : r = r'
  · subst he
    rcases hkind with ⟨p, hp, hb, ha, -⟩ | ⟨ca, hca, slab, hs, hb, hslot, -, rfl⟩
    · rcases hkind' with ⟨p', hp', hb', ha', -⟩ | ⟨ca', hca', slab', hs', hb', -⟩
      · exact absurd (ha.trans (hb.base.symm.trans (hb'.base.trans ha'.symm))) hne
      · exact absurd rfl (hi.ne_of_backs (hr.of_mem hca').1 hs' hp hb' hb)
    · rcases hkind' with ⟨p', hp', hb', -⟩ | ⟨ca', hca', slab', hs', hb', hslot', -, rfl⟩
      · exact absurd rfl (hi.ne_of_backs (hr.of_mem hca).1 hs hp' hb hb')
      · obtain ⟨rfl, rfl⟩ := hi.eq_of_backs (hr.of_mem hca).1 (hr.of_mem hca').1 hs hs' hb hb'
        exact hslot.disjoint hslot' hne
  · exact hin.separate hin' (hi.apart_of_ne hfr hfr' hf he)

/-- A block lies beside a slab, or is an object of it. -/
theorem Holds.slab_cases (hh : Holds h held spare a n) (hca' : ca' ∈ h.slabs.cacheList)
    (hs' : slab' ∈ (h.slabs.cache ca').slabList) :
    (∀ b m, slab'.firstObj ≤ b → b + m ≤ slab'.firstObj + (h.slabs.cache ca').slabBytes → Separate a n b m) ∨
      ca' ∈ h.kmallocCache ∧ (h.slabs.cache ca').IsSlot slab' a ∧ a ∉ slab'.free ∧
        n = (h.slabs.cache ca').allocObjSize := by
  obtain ⟨-, r, hfr, hf, hin, hkind⟩ := hh.range hi hr
  obtain ⟨r', hb'⟩ := hi.backs_slab hca' hs'
  by_cases he : r = r'
  · subst he
    rcases hkind with ⟨p, hp, hb, -⟩ | ⟨ca, hca, slab, hs, hb, hslot, hfree, hn⟩
    · exact absurd rfl (hi.ne_of_backs hca' hs' hp hb' hb)
    · obtain ⟨rfl, rfl⟩ := hi.eq_of_backs (hr.of_mem hca).1 hca' hs hs' hb hb'
      exact .inr ⟨hca, hslot, hfree, hn⟩
  · refine .inl fun b m hlow hhigh => ?_
    exact hin.separate (hi.inside_slab hca' hs' hb' hlow hhigh) (hi.apart_of_ne hfr hb'.foreign hf he)

/-- No byte of a block belongs to an object of one of the other caches. -/
theorem Holds.separate_object (hh : Holds h held spare a n) (hca' : ca' ∈ h.slabs.cacheList)
    (hnot : ca' ∉ h.kmallocCache) (hb : (h.slabs.cache ca').Allocated b) :
    Separate a n b (h.slabs.cache ca').allocObjSize := by
  obtain ⟨slab', hs', hslot, -⟩ := hb
  obtain ⟨hlow, hhigh⟩ := hslot.end_le (hi.slabs.ok ca' hca').shape
  rcases hh.slab_cases hi hr hca' hs' with hsep | ⟨hmem, -⟩
  · exact hsep b _ hlow (by omega)
  · exact absurd hmem hnot

/-- No byte of a block belongs to the range cache. -/
theorem Holds.separate_range {x : Kslab (Option Nat)} (hh : Holds h held spare a n)
    (hx : x ∈ h.kvmm.rangeCache.slabList) (hlow : x.firstObj ≤ b) (hhigh : b + m ≤ x.firstObj + nbBytesPerPage) :
    Separate a n b m := by
  obtain ⟨-, r, hfr, hf, hin, -⟩ := hh.range hi hr
  obtain ⟨r', -, hap, hinside⟩ := hi.inside_rangeSlab hx
  exact hin.separate (hinside b m hlow hhigh) (hap r hfr hf)

/-- **A block is disjoint from the structures of the allocators.** -/
theorem Holds.structure (hstruct : e.structBytes = sizeofKvmmRange) (hh : Holds h held spare a n)
    (hs : h.Structure b m) : Separate a n b m := by
  have hbytes := hi.ranges.inv.slabBytes
  have hcache := hi.ranges.inv.cache
  have hsize := hi.ranges.inv.structs
  rw [hstruct] at hsize
  have hcaches : h.slabs.cacheOfStructKslabCache ∉ h.kmallocCache := fun hm => (hr.of_mem hm).2.1 rfl
  have hkslab : h.slabs.cacheOfStructKslab ∉ h.kmallocCache := fun hm => (hr.of_mem hm).2.2 rfl
  cases hs with
  | @range x hx =>
    have halloc := hi.ranges.inv.allocated x.addr (List.mem_append_left _ (List.mem_map_of_mem hx))
    obtain ⟨slab, hslab, hslot, -⟩ := halloc
    obtain ⟨hlow, hhigh⟩ := hslot.end_le hcache.ok.shape
    exact hh.separate_range hi hr hslab hlow (by omega)
  | @rangeKslab slab hslab =>
    have haddr := (hcache.ok.slabs slab hslab).addr hcache.onSlab
    have hfits := hcache.ok.shape.fits
    rw [if_pos hcache.onSlab] at hfits
    exact hh.separate_range hi hr hslab (by omega) (by omega)
  | @rangeFree slab _ hslab hf =>
    obtain ⟨hlow, hhigh⟩ := ((hcache.ok.slabs slab hslab).slots b hf).end_le hcache.ok.shape
    have h8 : sizeofKslabFreeObj ≤ sizeofKvmmRange := by decide
    exact hh.separate_range hi hr hslab hlow (by omega)
  | rangeCache =>
    rw [← hr.cacheSize]
    exact hh.separate_object hi hr hr.caches hcaches hr.range_allocated
  | cache hca =>
    rw [← hr.cacheSize]
    exact hh.separate_object hi hr hr.caches hcaches (hr.cache_allocated _ hca)
  | @kslab ca slab hca hs =>
    have hok := hi.slabs.ok ca hca
    cases hon : (h.slabs.cache ca).onSlab with
    | true =>
      have haddr := (hok.slabs slab hs).addr hon
      have hfits := hok.shape.fits
      rw [if_pos hon] at hfits
      rcases hh.slab_cases hi hr hca hs with hsep | ⟨-, hslot, -, rfl⟩
      · exact hsep _ _ (by omega) (by omega)
      · obtain ⟨-, hhigh⟩ := hslot.end_le hok.shape
        rw [if_pos hon] at hhigh
        exact .inl (by omega)
    | false =>
      have hat : h.slabs.StructAt slab.addr slab.range :=
        ⟨ca, hca, hon, slab.firstObj, mem_keys.mpr ⟨slab, hs, rfl⟩⟩
      rw [← hr.kslabSize]
      exact hh.separate_object hi hr hi.slabs.kslab hkslab (hi.slabs.struct_live _ _ hat)
  | @freeObj ca slab _ hca hs hf =>
    have hok := hi.slabs.ok ca hca
    have hslot := (hok.slabs slab hs).slots b hf
    have h8 := hr.objSize ca hca
    obtain ⟨hlow, hhigh⟩ := hslot.end_le hok.shape
    rcases hh.slab_cases hi hr hca hs with hsep | ⟨-, hslot', hfree, rfl⟩
    · exact hsep _ _ hlow (by omega)
    · have hdisj := hslot'.disjoint hslot fun he => hfree (he ▸ hf)
      unfold Separate
      omega

theorem Holds.bounds (hh : Holds h held spare a n) : kvmmBase ≤ a ∧ a + n ≤ kvmmTop := by
  obtain ⟨hpos, r, hfr, -, hin, -⟩ := hh.range hi hr
  have hall : r ∈ h.kvmm.all [] := mem_all.mpr (.inr (.inl hfr.1))
  have hfirst := hi.bounds a ⟨r, hall, hin.covers hpos⟩
  have hlast := hi.bounds (a + n - 1) ⟨r, hall, by
    unfold Inside at hin
    unfold KvmmRange.Covers
    omega⟩
  omega

end Places

/-! ## What a call does to the blocks -/

section Calls

/-- A block stays while its cache keeps the object. -/
theorem Holds.keep {held' : List Nat} {spare' : List PageRange} (hh : Holds h held spare a n) (ht : HeapTouches T h h')
    (halloc : ∀ ca ∈ h.kmallocCache, (h.slabs.cache ca).Allocated a → (h'.slabs.cache ca).Allocated a)
    (hheld : a ∈ held → a ∈ held') (hspare : ∀ p ∈ spare, p.base = a → p ∈ spare') : Holds h' held' spare' a n := by
  cases hh with
  | @object ca _ hca ha hin =>
    rw [← (ht.slabs.params ca).allocObjSize]
    exact .object (ht.kmallocCache.symm ▸ hca) (halloc ca hca ha) (hheld hin)
  | pages hp => exact .pages (hspare _ hp rfl)

/-- The objects of the caches a call for one cache of `kmalloc` does not touch. -/
theorem HeapTouches.other_of_mem (hr : KmallocReady rows h) (ht : HeapTouches (h.slabs.Scope ca) h h')
    (hca' : ca' ∈ h.kmallocCache) (hne : ca' ≠ ca) : h'.slabs.cache ca' = h.slabs.cache ca' := by
  refine ht.slabs.other ca' fun hscope => ?_
  rcases hscope with he | ⟨-, he⟩
  · exact hne he
  · exact (hr.of_mem hca').2.2 he

theorem HeapInv.ne_base (hi : HeapInv e h held spare []) (hca : ca ∈ h.slabs.cacheList)
    (ha : (h.slabs.cache ca).Allocated a) (hp : p ∈ spare) : a ≠ p.base := by
  obtain ⟨slab, hs, hslot, -⟩ := ha
  have hcov := (hi.slabs.covers_iff hca hs).mpr (hslot.covers (hi.slabs.ok ca hca).shape)
  have hap := hi.slabs.spare_apart p hp ca hca _ (mem_keys.mpr ⟨slab, hs, rfl⟩)
  intro he
  refine hap.symm.not_covers hcov ?_
  have := Nat.mul_pos (hi.slabs.spare_pos p hp) (show 0 < nbBytesPerPage by decide)
  unfold PageRange.Covers
  omega

theorem Holds.ne_object (hi : HeapInv e h (a :: held) spare []) (hca : ca ∈ h.slabs.cacheList)
    (ha : (h.slabs.cache ca).Allocated a) (hh : Holds h held spare b m) : b ≠ a := by
  cases hh with
  | object _ _ hin =>
    rintro rfl
    exact (List.nodup_cons.mp hi.slabs.held_nodup).1 hin
  | pages hp => exact (hi.ne_base hca ha hp).symm

theorem Holds.ne_pages (hi : HeapInv e h held (p :: spare) []) (hr : KmallocReady rows h)
    (hh : Holds h held spare b m) : b ≠ p.base := by
  cases hh with
  | object hca hb _ => exact hi.ne_base (hr.of_mem hca).1 hb List.mem_cons_self
  | @pages q hq =>
    have hap := (List.pairwise_cons.mp hi.slabs.spare_pairwise).1 q hq
    exact (hap.base_ne (hi.slabs.spare_pos p List.mem_cons_self)
      (hi.slabs.spare_pos q (List.mem_cons_of_mem _ hq))).symm

/-- The blocks of the caller in any order. -/
theorem HeapInv.perm {held' : List Nat} {spare' : List PageRange} (hi : HeapInv e h held spare [])
    (hheld : held.Perm held') (hspare : spare.Perm spare') : HeapInv e h held' spare' [] := by
  have hs := hi.slabs.perm hheld
  refine @HeapInv.withSlabs _ _ _ _ _ _ _ h.slabs _ _ hi ⟨hs.nodup, hs.ok, hs.range, hs.apart, hs.known,
    fun q hq => hs.spare_pos q (hspare.mem_iff.mpr hq), fun q hq => hs.spare_known q (hspare.mem_iff.mpr hq),
    fun q hq => hs.spare_apart q (hspare.mem_iff.mpr hq),
    (hspare.pairwise_iff fun hap => PageRange.Apart.symm hap).mp hs.spare_pairwise, hs.kslab, hs.kslab_on,
    hs.kslab_min, hs.held_nodup, hs.held_live, hs.cache_live, hs.cache_held, hs.struct_live, hs.struct_held,
    hs.struct_inj⟩ rfl (fun _ hx => hx) (fun _ hx _ hk => ⟨hx, hk⟩) hi.minFree
    (fun q hq _ => ⟨hspare.mem_iff.mpr hq, List.not_mem_nil⟩) (fun q hq => absurd hq List.not_mem_nil)
    (fun q hq => absurd hq List.not_mem_nil) fun q hq => hi.fixed_spare q (hspare.mem_iff.mpr hq)

/-- The objects of a cache are in no range that is no slab's. -/
theorem HeapInv.not_deletable (hi : HeapInv e h held spare []) (hr : KmallocReady rows h) (hca : ca ∈ h.kmallocCache)
    (ha : (h.slabs.cache ca).Allocated a) (hd : Deletable h.kvmm r) : r.base ≠ a := by
  intro he
  obtain ⟨hca', hne, -⟩ := hr.of_mem hca
  obtain ⟨slab, hs, hslot, -⟩ := ha
  obtain ⟨r', hb⟩ := hi.backs_slab hca' hs
  have hslab := (hi.slab_tied ca hca' _ (mem_keys.mpr ⟨slab, hs, rfl⟩)).slabOf hi hb
  have hrr : r' ≠ r := by
    rintro rfl
    rw [hd.slab] at hslab
    cases hslab
  have hap := hi.apart_of_ne hb.foreign (hd.foreign hi.ranges.inv) (hi.not_fixed_of_slab hr hca' hne hs hb) hrr
  refine hap.not_covers ((hi.inside_slot hca' hs hb hslot).covers (hi.slabs.ok ca hca').shape.size_pos) ?_
  rw [← he]
  exact ⟨Nat.le_refl _, KvmmRange.base_lt_top (hi.ranges.inv.used_pos hd.used)⟩

/-- What `kfree` leaves of the blocks. -/
structure KfreePost (e : Slack) (rows : List (UInt32 × UInt32)) (h : Heap W) (held : List Nat) (spare : List PageRange)
    (a : Nat) (res : Int × Heap W) : Prop where
  ret : res.1 = 0
  ready : KmallocReady rows res.2
  touches : HeapTouches (fun _ => True) h res.2
  inUse : ∀ b, res.2.InUse b ↔ h.InUse b ∧ b ≠ a
  inv : ∃ held' spare', HeapInv e res.2 held' spare' [] ∧ (∀ b ∈ held, b ≠ a → b ∈ held') ∧
    ∀ b m, Holds h held spare b m → b ≠ a → Holds res.2 held' spare' b m

/-- **kfree** of a block the caller holds, whichever allocator it came from. -/
theorem kfree_spec (hi : HeapInv e h held spare []) (hr : KmallocReady rows h) (hh : Holds h held spare a n) :
    KfreePost e rows h held spare a (h.kfree E a) := by
  cases hh with
  | @object ca _ hca ha hin =>
    obtain ⟨hca', -⟩ := hr.of_mem hca
    have hi' := hi.perm (List.perm_cons_erase hin) (List.Perm.refl spare)
    have hpost := kfree_object (E := E) hi' hca' ha
    have ht := hpost.touches
    have hother : ∀ c ∈ h.kmallocCache, c ≠ ca → (h.kfree E a).2.slabs.cache c = h.slabs.cache c :=
      fun c hc hne => ht.other_of_mem hr hc hne
    refine ⟨hpost.ret, hr.of_touches ht (hr.not_scope hca), ht.mono fun _ _ => trivial, fun b => ?_, _, _, hpost.inv,
      fun b hb hne => (List.mem_erase_of_ne hne).mpr hb, fun b m hb hne => ?_⟩
    · have hne_of : ∀ c ∈ h.kmallocCache, c ≠ ca → (h.slabs.cache c).Allocated b → b ≠ a := by
        rintro c hc hne hb rfl
        obtain ⟨hc', -⟩ := hr.of_mem hc
        obtain ⟨slab, hs, hslot, -⟩ := ha
        obtain ⟨slab', hs', hslot', -⟩ := hb
        exact hne (hi.slabs.unique hc' hca' hs' hs (hslot'.covers (hi.slabs.ok c hc').shape)
          (hslot.covers (hi.slabs.ok ca hca').shape)).1
      unfold Heap.InUse
      rw [ht.kmallocCache]
      constructor
      · rintro (⟨c, hc, hb⟩ | ⟨x, hx, hbase⟩)
        · by_cases he : c = ca
          · subst he
            obtain ⟨hb', hne⟩ := (hpost.allocated b).mp hb
            exact ⟨.inl ⟨c, hc, hb'⟩, hne⟩
          · rw [hother c hc he] at hb
            exact ⟨.inl ⟨c, hc, hb⟩, hne_of c hc he hb⟩
        · have hx' := (hpost.deletable x).mp hx
          exact ⟨.inr ⟨x, hx', hbase⟩, hbase ▸ hi.not_deletable hr hca ha hx'⟩
      · rintro ⟨⟨c, hc, hb⟩ | ⟨x, hx, hbase⟩, hne⟩
        · by_cases he : c = ca
          · subst he
            exact .inl ⟨c, hc, (hpost.allocated b).mpr ⟨hb, hne⟩⟩
          · exact .inl ⟨c, hc, (hother c hc he).symm ▸ hb⟩
        · exact .inr ⟨x, (hpost.deletable x).mpr hx, hbase⟩
    · refine hb.keep ht (fun c hc hbc => ?_) (fun hm => ?_) fun q hq _ => hq
      · by_cases he : c = ca
        · subst he
          exact (hpost.allocated b).mpr ⟨hbc, hne⟩
        · exact (hother c hc he).symm ▸ hbc
      · exact (List.mem_erase_of_ne hne).mpr hm
  | @pages p hp =>
    have hi' := hi.perm (List.Perm.refl held) (List.perm_cons_erase hp)
    obtain ⟨hret, hinv, htouch, hdel⟩ := kfree_pages (E := E) hi'
    have hsame : ∀ c, (h.kfree E p.base).2.slabs.cache c = h.slabs.cache c :=
      fun c => (htouch fun _ => False).slabs.other c id
    refine ⟨hret, hr.of_touches (htouch fun _ => False) id, htouch _, fun b => ?_, _, _, hinv, fun b hb _ => hb,
      fun b m hb hne => ?_⟩
    · unfold Heap.InUse
      rw [(htouch fun _ => False).kmallocCache]
      simp only [hsame]
      constructor
      · rintro (⟨c, hc, hb⟩ | ⟨x, hx, hbase⟩)
        · exact ⟨.inl ⟨c, hc, hb⟩, hi.ne_base (hr.of_mem hc).1 hb hp⟩
        · obtain ⟨hx', hne⟩ := (hdel x).mp hx
          exact ⟨.inr ⟨x, hx', hbase⟩, hbase ▸ hne⟩
      · rintro ⟨⟨c, hc, hb⟩ | ⟨x, hx, hbase⟩, hne⟩
        · exact .inl ⟨c, hc, hb⟩
        · exact .inr ⟨x, (hdel x).mpr ⟨hx, hbase.symm ▸ hne⟩, hbase⟩
    · refine hb.keep (htouch fun _ => False) (fun c _ hbc => (hsame c).symm ▸ hbc) id fun q hq hbase => ?_
      have hne' : q ≠ p := fun he => hne (he ▸ hbase.symm)
      exact (List.mem_erase_of_ne hne').mpr hq

/-- What `kmalloc` adds to the blocks. -/
structure KmallocPost (e : Slack) (h : Heap W) (held : List Nat) (spare : List PageRange) (size : UInt32)
    (res : Option Nat × Heap W) : Prop where
  ready : KmallocReady Heap.kmallocTable res.2
  touches : HeapTouches (fun _ => True) h res.2
  inv : ∃ held' spare', HeapInv e res.2 held' spare' [] ∧ (∀ b ∈ held, b ∈ held' ∧ some b ≠ res.1) ∧
    (∀ b m, Holds h held spare b m → Holds res.2 held' spare' b m ∧ some b ≠ res.1) ∧
    ∀ a ∈ res.1, ∃ n, size.toNat ≤ n ∧ Holds res.2 held' spare' a n

/-- Whole pages that are there hold the size; where rounding up wraps there are none. -/
theorem le_nbPages {size : UInt32} (hpos : 0 < (pageAlignSup size / pageSize).toNat) :
    size.toNat ≤ (pageAlignSup size / pageSize).toNat * nbBytesPerPage := by
  have halign := toNat_alignSup size
  have hpage : pageSize.toNat = 4096 := by decide
  have hsize := word_lt size
  rw [UInt32.toNat_div, hpage] at hpos ⊢
  change 0 < (alignSup size 4096).toNat / 4096 at hpos
  change size.toNat ≤ (alignSup size 4096).toNat / 4096 * 4096
  rw [halign] at hpos ⊢
  omega

/-- **kmalloc** adds a block that is large enough, or none. -/
theorem kmalloc_spec (hi : HeapInv e h held spare []) (hr : KmallocReady Heap.kmallocTable h) (size : UInt32) :
    KmallocPost e h held spare size (h.kmalloc E size) := by
  unfold Heap.kmalloc
  cases hfind : (Heap.kmallocTable.zip h.kmallocCache).find? fun row => row.1.1 ≥ size with
  | some row =>
    obtain ⟨⟨objSize, pages⟩, ca⟩ := row
    have hmem := List.mem_of_find?_eq_some hfind
    have hsize := List.find?_some hfind
    rw [decide_eq_true_eq] at hsize
    have hca : ca ∈ h.kmallocCache := (List.of_mem_zip hmem).2
    obtain ⟨hca', hobj, -⟩ := List.forall₂_zip hr.table hmem
    obtain ⟨hpost, -⟩ := heapCacheAlloc_spec (E := E) hi hca'
    show KmallocPost e h held spare size (h.kvmmCacheAlloc E 1 ca)
    generalize h.kvmmCacheAlloc E 1 ca = res at hpost
    obtain ⟨o, h₁⟩ := res
    have ht : HeapTouches (h.slabs.Scope ca) h h₁ := hpost.touches
    have hkeep : ∀ c ∈ h.kmallocCache, ∀ b, (h.slabs.cache c).Allocated b → (h₁.slabs.cache c).Allocated b := by
      intro c hc b hb
      by_cases he : c = ca
      · subst he
        exact (hpost.allocated b).mpr (.inl hb)
      · exact (ht.other_of_mem hr hc he).symm ▸ hb
    refine ⟨hr.of_touches ht (hr.not_scope hca), ht.mono fun _ _ => trivial, ?_⟩
    cases o with
    | none =>
      refine ⟨held, spare, hpost.null rfl, fun b hb => ⟨hb, Option.some_ne_none b⟩,
        fun b m hb => ⟨?_, Option.some_ne_none b⟩, fun a ha => absurd ha (Option.not_mem_none a)⟩
      exact hb.keep ht (fun c hc => hkeep c hc b) id fun _ hq _ => hq
    | some obj =>
      obtain ⟨hinv, hnew⟩ := hpost.object obj rfl
      have hca₁ : ca ∈ h₁.slabs.cacheList := ht.slabs.cacheList ▸ hca'
      have hobj₁ : (h₁.slabs.cache ca).Allocated obj := (hpost.allocated obj).mpr (.inr rfl)
      refine ⟨obj :: held, spare, hinv, fun b hb => ⟨List.mem_cons_of_mem _ hb, fun he => ?_⟩,
        fun b m hb => ⟨?_, fun he => ?_⟩, fun a ha => ?_⟩
      · obtain rfl := Option.some.inj he
        exact hnew (hi.slabs.held_live b hb)
      · exact hb.keep ht (fun c hc => hkeep c hc b) (List.mem_cons_of_mem _) fun _ hq _ => hq
      · have hb' : Holds h₁ held spare b m := hb.keep ht (fun c hc => hkeep c hc b) id fun _ hq _ => hq
        exact hb'.ne_object hinv hca₁ hobj₁ (Option.some.inj he)
      · obtain rfl := Option.some.inj ha
        refine ⟨_, ?_, .object (ht.kmallocCache.symm ▸ hca) hobj₁ List.mem_cons_self⟩
        rw [(ht.slabs.params ca).allocObjSize, hobj]
        exact word_le_iff.mp hsize
  | none =>
    obtain ⟨htouch, hnull, hsome⟩ := heapAlloc_pages (E := E) hi (pageAlignSup size / pageSize).toNat true
    show KmallocPost e h held spare size (h.kvmmAlloc E (pageAlignSup size / pageSize).toNat true)
    generalize h.kvmmAlloc E (pageAlignSup size / pageSize).toNat true = res at htouch hnull hsome
    obtain ⟨o, h₁⟩ := res
    have hr₁ : KmallocReady Heap.kmallocTable h₁ := hr.of_touches (htouch fun _ => False) id
    have hkeep : ∀ {held' spare'}, (∀ x ∈ held, x ∈ held') → (∀ q ∈ spare, q ∈ spare') → ∀ b m,
        Holds h held spare b m → Holds h₁ held' spare' b m := by
      intro held' spare' hheld hspare b m hb
      refine hb.keep (htouch fun _ => False) (fun c _ hbc => ?_) (hheld b) fun q hq _ => hspare q hq
      exact ((htouch fun _ => False).slabs.other c id).symm ▸ hbc
    refine ⟨hr₁, htouch _, ?_⟩
    cases o with
    | none =>
      refine ⟨held, spare, hnull rfl, fun b hb => ⟨hb, Option.some_ne_none b⟩,
        fun b m hb => ⟨?_, Option.some_ne_none b⟩, fun a ha => absurd ha (Option.not_mem_none a)⟩
      exact hkeep (fun _ hx => hx) (fun _ hq => hq) b m hb
    | some base =>
      have hinv := hsome base rfl
      refine ⟨held, _, hinv, fun b hb => ⟨hb, fun he => ?_⟩, fun b m hb => ⟨?_, fun he => ?_⟩, fun a ha => ?_⟩
      · obtain ⟨ca, hca, halloc⟩ := hinv.slabs.held_live b hb
        exact hinv.ne_base hca halloc List.mem_cons_self (Option.some.inj he)
      · exact hkeep (fun _ hx => hx) (fun _ hq => List.mem_cons_of_mem _ hq) b m hb
      · have hb' : Holds h₁ held spare b m := hkeep (fun _ hx => hx) (fun _ hq => hq) b m hb
        exact hb'.ne_pages hinv hr₁ (Option.some.inj he)
      · obtain rfl := Option.some.inj ha
        exact ⟨_, le_nbPages (hinv.slabs.spare_pos _ List.mem_cons_self), .pages List.mem_cons_self⟩

end Calls

/-! ## Runs -/

/-- The heap and the blocks the callers hold, with the sizes they asked for. -/
structure KmallocWorld (W : Type) where
  heap : Heap W
  blocks : List (Nat × UInt32)

inductive KmallocOp where
  | kmalloc (size : UInt32)
  | kfree (vaddr : Nat)

def kmallocStep (E : PageMap W) (w : KmallocWorld W) : KmallocOp → KmallocWorld W
  | .kmalloc size =>
    match w.heap.kmalloc E size with
    | (none, h) => { w with heap := h }
    | (some vaddr, h) => ⟨h, (vaddr, size) :: w.blocks⟩
  | .kfree vaddr => ⟨(w.heap.kfree E vaddr).2, w.blocks.filter fun b => b.1 ≠ vaddr⟩

/-- Callers free blocks they hold. -/
def KmallocGuard (w : KmallocWorld W) : KmallocOp → Prop
  | .kmalloc _ => True
  | .kfree vaddr => vaddr ∈ w.blocks.map Prod.fst

instance (w : KmallocWorld W) (op : KmallocOp) : Decidable (KmallocGuard w op) := by
  unfold KmallocGuard
  cases op <;> infer_instance

/-- The heap, and a range or an object for each block. -/
structure KmallocInv (e : Slack) (w : KmallocWorld W) (held : List Nat) (spare : List PageRange) : Prop where
  heap : HeapInv e w.heap held spare []
  ready : KmallocReady Heap.kmallocTable w.heap
  structs : e.structBytes = sizeofKvmmRange
  nodup : (w.blocks.map Prod.fst).Nodup
  blocks : ∀ b ∈ w.blocks, ∃ n, b.2.toNat ≤ n ∧ Holds w.heap held spare b.1 n

def KmallocGood (e : Slack) (w : KmallocWorld W) : Prop := ∃ held spare, KmallocInv e w held spare

variable {w : KmallocWorld W}

/-- One call keeps the invariant. -/
theorem kmallocGood_step {op : KmallocOp} (hw : KmallocGood e w) (hg : KmallocGuard w op) :
    KmallocGood e (kmallocStep E w op) := by
  obtain ⟨held, spare, hw⟩ := hw
  cases op with
  | kmalloc size =>
    have hpost := kmalloc_spec (E := E) hw.heap hw.ready size
    unfold kmallocStep
    dsimp only
    generalize w.heap.kmalloc E size = res at hpost
    obtain ⟨o, h⟩ := res
    obtain ⟨held', spare', hinv, -, hkeep, hnew⟩ := hpost.inv
    have hblocks : ∀ b ∈ w.blocks, (∃ n, b.2.toNat ≤ n ∧ Holds h held' spare' b.1 n) ∧ some b.1 ≠ o := by
      intro b hb
      obtain ⟨n, hn, hh⟩ := hw.blocks b hb
      obtain ⟨hh', hne⟩ := hkeep b.1 n hh
      exact ⟨⟨n, hn, hh'⟩, hne⟩
    cases o with
    | none => exact ⟨held', spare', hinv, hpost.ready, hw.structs, hw.nodup, fun b hb => (hblocks b hb).1⟩
    | some vaddr =>
      refine ⟨held', spare', hinv, hpost.ready, hw.structs, List.nodup_cons.mpr ⟨fun hm => ?_, hw.nodup⟩,
        fun b hb => ?_⟩
      · obtain ⟨b, hb, he⟩ := List.mem_map.mp hm
        exact (hblocks b hb).2 (congrArg some he)
      · cases List.mem_cons.mp hb with
        | inl he =>
          subst he
          exact hnew vaddr rfl
        | inr hin => exact (hblocks b hin).1
  | kfree vaddr =>
    obtain ⟨b, hb, rfl⟩ := List.mem_map.mp hg
    obtain ⟨n, -, hh⟩ := hw.blocks b hb
    have hpost := kfree_spec (E := E) hw.heap hw.ready hh
    obtain ⟨held', spare', hinv, -, hkeep⟩ := hpost.inv
    refine ⟨held', spare', hinv, hpost.ready, hw.structs, hw.nodup.sublist (List.filter_sublist.map _),
      fun b' hb' => ?_⟩
    obtain ⟨hin, hne⟩ := List.mem_filter.mp hb'
    obtain ⟨m, hm, hh'⟩ := hw.blocks b' hin
    exact ⟨m, hm, hkeep b'.1 m hh' (by simpa using hne)⟩

/-- What callers may rely on: each block is large enough and in the kernel's space, the blocks are disjoint from one
another and from the structures of the allocators, and `kfree` releases the block and no other. -/
structure KmallocSafe (E : PageMap W) (w : KmallocWorld W) : Prop where
  sizes : ∀ b ∈ w.blocks, b.2.toNat ≤ w.heap.blockSize b.1
  bounds : ∀ b ∈ w.blocks, kvmmBase ≤ b.1 ∧ b.1 + w.heap.blockSize b.1 ≤ kvmmTop
  inUse : ∀ b ∈ w.blocks, w.heap.InUse b.1
  blocks : w.blocks.Pairwise fun b b' => Separate b.1 (w.heap.blockSize b.1) b'.1 (w.heap.blockSize b'.1)
  structures : ∀ b ∈ w.blocks, ∀ a n, w.heap.Structure a n → Separate b.1 (w.heap.blockSize b.1) a n
  kfree : ∀ b ∈ w.blocks, (w.heap.kfree E b.1).1 = 0 ∧
    ∀ a, (w.heap.kfree E b.1).2.InUse a ↔ w.heap.InUse a ∧ a ≠ b.1

theorem KmallocGood.safe (E : PageMap W) (hw : KmallocGood e w) : KmallocSafe E w := by
  obtain ⟨held, spare, hi, hr, hstruct, hnodup, hblocks⟩ := hw
  have hsize : ∀ {b n}, Holds w.heap held spare b n → w.heap.blockSize b = n := fun hh => hh.blockSize hi hr
  refine ⟨fun b hb => ?_, fun b hb => ?_, fun b hb => ?_, ?_, fun b hb a n ha => ?_, fun b hb => ?_⟩
  · obtain ⟨n, hn, hh⟩ := hblocks b hb
    rwa [hsize hh]
  · obtain ⟨n, hn, hh⟩ := hblocks b hb
    rw [hsize hh]
    exact hh.bounds hi hr
  · obtain ⟨n, hn, hh⟩ := hblocks b hb
    exact hh.inUse hi
  · refine (List.pairwise_map.mp hnodup).imp_of_mem fun {b b'} hb hb' hne => ?_
    obtain ⟨n, hn, hh⟩ := hblocks b hb
    obtain ⟨n', hn', hh'⟩ := hblocks b' hb'
    rw [hsize hh, hsize hh']
    exact hh.separate hi hr hh' hne
  · obtain ⟨m, hm, hh⟩ := hblocks b hb
    rw [hsize hh]
    exact hh.structure hi hr hstruct ha
  · obtain ⟨n, hn, hh⟩ := hblocks b hb
    have hpost := kfree_spec (E := E) hi hr hh
    exact ⟨hpost.ret, hpost.inUse⟩

end Desiros.Mem
