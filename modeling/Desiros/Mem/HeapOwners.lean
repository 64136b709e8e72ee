import Desiros.Mem.KmallocRuns

/-!
# Owners of what the kernel heap hands out

The subsystems of the kernel hold objects of slab caches and blocks of `kmalloc`. `HeapOwns e h objs blocks` says that
each of them is one the allocators handed out, and that no block is one of the objects: allocations add to what is held,
`kfree` takes a block away and leaves the rest, and `kvmm_free` of an object does nothing.
-/

namespace Desiros.Mem

open Desiros.Library KslabCache SlabSystem Kvmm

variable {W : Type} {e : Slack} {h h' : Heap W} {held : List Nat} {spare : List PageRange} {ca a : Nat}
  {objs blocks : List Nat} {E : PageMap W}

structure Owners (e : Slack) (h : Heap W) (objs blocks held : List Nat) (spare : List PageRange) : Prop where
  inv : HeapInv e h held spare []
  ready : KmallocReady Heap.kmallocTable h
  object : ∀ x ∈ objs, x ∈ held
  block : ∀ x ∈ blocks, ∃ n, Holds h held spare x n
  apart : ∀ x ∈ blocks, x ∉ objs

def HeapOwns (e : Slack) (h : Heap W) (objs blocks : List Nat) : Prop :=
  ∃ held spare, Owners e h objs blocks held spare

/-- A cache that is none of the allocators' own. -/
structure Heap.UserCache (h : Heap W) (ca : Nat) : Prop where
  mem : ca ∈ h.slabs.cacheList
  ne_caches : ca ≠ h.slabs.cacheOfStructKslabCache
  ne_kslab : ca ≠ h.slabs.cacheOfStructKslab

/-- The caches there are. -/
structure SameCaches (h h' : Heap W) : Prop where
  cacheList : h'.slabs.cacheList = h.slabs.cacheList
  kslabCache : h'.slabs.cacheOfStructKslabCache = h.slabs.cacheOfStructKslabCache
  kslab : h'.slabs.cacheOfStructKslab = h.slabs.cacheOfStructKslab

theorem SameCaches.refl (h : Heap W) : SameCaches h h := ⟨rfl, rfl, rfl⟩

theorem SameCaches.trans {h'' : Heap W} (hs : SameCaches h h') (hs' : SameCaches h' h'') : SameCaches h h'' :=
  ⟨hs'.cacheList.trans hs.cacheList, hs'.kslabCache.trans hs.kslabCache, hs'.kslab.trans hs.kslab⟩

theorem HeapTouches.sameCaches {T : Nat → Prop} (ht : HeapTouches T h h') : SameCaches h h' :=
  ⟨ht.slabs.cacheList, ht.slabs.kslabCache, ht.slabs.kslab⟩

theorem Heap.UserCache.of_same (hu : h.UserCache ca) (hs : SameCaches h h') : h'.UserCache ca := by
  refine ⟨?_, ?_, ?_⟩
  · rw [hs.cacheList]
    exact hu.mem
  · rw [hs.kslabCache]
    exact hu.ne_caches
  · rw [hs.kslab]
    exact hu.ne_kslab

theorem Heap.UserCache.not_scope {rows : List (UInt32 × UInt32)} (hu : h.UserCache ca) (hr : KmallocReady rows h) :
    ¬ h.slabs.Scope ca h.slabs.cacheOfStructKslabCache := by
  intro hs
  cases hs with
  | inl he => exact hu.ne_caches he.symm
  | inr he => exact hr.ne he.2

/-- Objects that are held are in use. -/
theorem HeapOwns.live (ho : HeapOwns e h objs blocks) (hx : a ∈ objs) : h.slabs.Live a := by
  obtain ⟨held, spare, ho⟩ := ho
  exact ho.inv.slabs.held_live a (ho.object a hx)

theorem HeapOwns.mono {objs' blocks' : List Nat} (ho : HeapOwns e h objs blocks) (hobjs : ∀ x ∈ objs', x ∈ objs)
    (hblocks : ∀ x ∈ blocks', x ∈ blocks) : HeapOwns e h objs' blocks' := by
  obtain ⟨held, spare, ho⟩ := ho
  exact ⟨held, spare, ho.inv, ho.ready, fun x hx => ho.object x (hobjs x hx), fun x hx => ho.block x (hblocks x hx),
    fun x hx hm => ho.apart x (hblocks x hx) (hobjs x hm)⟩

theorem HeapOwns.mono_objs {objs' : List Nat} (ho : HeapOwns e h objs blocks) (hobjs : ∀ x ∈ objs', x ∈ objs) :
    HeapOwns e h objs' blocks := ho.mono hobjs fun _ hx => hx

/-! ## Allocations -/

/-- **Whole pages**, for which nobody is listed. -/
theorem HeapOwns.kvmmAlloc (ho : HeapOwns e h objs blocks) (k : Nat) (map : Bool) :
    HeapOwns e (h.kvmmAlloc E k map).2 objs blocks ∧ SameCaches h (h.kvmmAlloc E k map).2 ∧
      ∀ x, (h.kvmmAlloc E k map).2.slabs.Live x ↔ h.slabs.Live x := by
  obtain ⟨held, spare, ho⟩ := ho
  obtain ⟨htouch, hnull, hsome⟩ := heapAlloc_pages (E := E) ho.inv k map
  have ht := htouch fun _ => False
  have hcache : ∀ c, (h.kvmmAlloc E k map).2.slabs.cache c = h.slabs.cache c := fun c => ht.slabs.other c id
  have hr := ho.ready.of_touches ht id
  have hkeep : ∀ {spare'}, (∀ q ∈ spare, q ∈ spare') → ∀ x ∈ blocks, ∃ n,
      Holds (h.kvmmAlloc E k map).2 held spare' x n := by
    intro spare' hspare x hx
    obtain ⟨n, hh⟩ := ho.block x hx
    exact ⟨n, hh.keep ht (fun c _ hc => (hcache c).symm ▸ hc) id fun q hq _ => hspare q hq⟩
  refine ⟨?_, ht.sameCaches, fun x => ?_⟩
  · cases hres : (h.kvmmAlloc E k map).1 with
    | none => exact ⟨held, spare, hnull hres, hr, ho.object, hkeep fun _ hq => hq, ho.apart⟩
    | some a => exact ⟨held, _, hsome a hres, hr, ho.object, hkeep fun _ hq => List.mem_cons_of_mem _ hq, ho.apart⟩
  · unfold SlabSystem.Live
    rw [ht.slabs.cacheList]
    simp only [hcache]

/-- **A new object** of a cache is none of those that are held. -/
theorem HeapOwns.cacheAlloc (ho : HeapOwns e h objs blocks) (hu : h.UserCache ca) :
    SameCaches h (h.kvmmCacheAlloc E 1 ca).2 ∧ HeapOwns e (h.kvmmCacheAlloc E 1 ca).2 objs blocks ∧
      ∀ x ∈ (h.kvmmCacheAlloc E 1 ca).1, HeapOwns e (h.kvmmCacheAlloc E 1 ca).2 (x :: objs) blocks ∧
        ¬ h.slabs.Live x := by
  obtain ⟨held, spare, ho⟩ := ho
  obtain ⟨hpost, -⟩ := heapCacheAlloc_spec (E := E) ho.inv hu.mem
  generalize h.kvmmCacheAlloc E 1 ca = res at hpost
  obtain ⟨o, h₁⟩ := res
  have ht : HeapTouches (h.slabs.Scope ca) h h₁ := hpost.touches
  have hr := ho.ready.of_touches ht (hu.not_scope ho.ready)
  have hkeep : ∀ {held'}, (∀ x ∈ held, x ∈ held') → ∀ x ∈ blocks, ∃ n, Holds h₁ held' spare x n := by
    intro held' hheld x hx
    obtain ⟨n, hh⟩ := ho.block x hx
    refine ⟨n, hh.keep ht (fun c hc hcx => ?_) (hheld x) fun q hq _ => hq⟩
    by_cases he : c = ca
    · subst he
      exact (hpost.allocated x).mpr (.inl hcx)
    · exact (ht.other_of_mem ho.ready hc he).symm ▸ hcx
  have hnone : ∀ x ∈ o, HeapOwns e h₁ (x :: objs) blocks ∧ ¬ h.slabs.Live x := by
    intro x hx
    obtain ⟨hinv, hnew⟩ := hpost.object x hx
    have halloc : (h₁.slabs.cache ca).Allocated x := (hpost.allocated x).mpr (.inr hx)
    have hca₁ : ca ∈ h₁.slabs.cacheList := ht.slabs.cacheList ▸ hu.mem
    refine ⟨⟨x :: held, spare, hinv, hr, fun y hy => ?_, hkeep fun _ hy => List.mem_cons_of_mem _ hy, fun y hy hm => ?_⟩,
      hnew⟩
    · cases List.mem_cons.mp hy with
      | inl he => exact List.mem_cons.mpr (.inl he)
      | inr hin => exact List.mem_cons_of_mem _ (ho.object y hin)
    · cases List.mem_cons.mp hm with
      | inl he =>
        obtain ⟨n, hh⟩ := @hkeep held (fun _ hx => hx) y hy
        exact hh.ne_object hinv hca₁ halloc he
      | inr hin => exact ho.apart y hy hin
  refine ⟨ht.sameCaches, ?_, hnone⟩
  cases o with
  | none => exact ⟨held, spare, hpost.null rfl, hr, ho.object, hkeep fun _ hx => hx, ho.apart⟩
  | some x => exact (hnone x rfl).1.mono_objs fun _ hy => List.mem_cons_of_mem _ hy

/-- What `kvmm_cache_alloc` does to the objects of its cache. -/
theorem HeapOwns.cacheAlloc_allocated (ho : HeapOwns e h objs blocks) (hu : h.UserCache ca) (b : Nat) :
    ((h.kvmmCacheAlloc E 1 ca).2.slabs.cache ca).Allocated b ↔
      (h.slabs.cache ca).Allocated b ∨ (h.kvmmCacheAlloc E 1 ca).1 = some b := by
  obtain ⟨held, spare, ho⟩ := ho
  exact (heapCacheAlloc_spec (E := E) ho.inv hu.mem).1.allocated b

/-- **A new block.** -/
theorem HeapOwns.kmalloc (ho : HeapOwns e h objs blocks) (size : UInt32) :
    SameCaches h (h.kmalloc E size).2 ∧ HeapOwns e (h.kmalloc E size).2 objs blocks ∧
      ∀ x ∈ (h.kmalloc E size).1, HeapOwns e (h.kmalloc E size).2 objs (x :: blocks) ∧ x ∉ blocks := by
  obtain ⟨held, spare, ho⟩ := ho
  have hpost := kmalloc_spec (E := E) ho.inv ho.ready size
  obtain ⟨held', spare', hinv, hheld, hkeep, hnew⟩ := hpost.inv
  have hobjs : ∀ x ∈ objs, x ∈ held' := fun x hx => (hheld x (ho.object x hx)).1
  have hblocks : ∀ x ∈ blocks, ∃ n, Holds (h.kmalloc E size).2 held' spare' x n := by
    intro x hx
    obtain ⟨n, hh⟩ := ho.block x hx
    exact ⟨n, (hkeep x n hh).1⟩
  refine ⟨hpost.touches.sameCaches, ⟨held', spare', hinv, hpost.ready, hobjs, hblocks, ho.apart⟩, fun x hx => ⟨?_, ?_⟩⟩
  · refine ⟨held', spare', hinv, hpost.ready, hobjs, fun y hy => ?_, fun y hy hm => ?_⟩
    · cases List.mem_cons.mp hy with
      | inl he =>
        obtain ⟨n, -, hh⟩ := hnew x hx
        exact ⟨n, he ▸ hh⟩
      | inr hin => exact hblocks y hin
    · cases List.mem_cons.mp hy with
      | inl he => exact (hheld y (ho.object y hm)).2 (he ▸ hx.symm)
      | inr hin => exact ho.apart y hin hm
  · intro hm
    obtain ⟨n, hh⟩ := ho.block x hm
    exact (hkeep x n hh).2 hx.symm

/-! ## Releases -/

/-- **A block is freed**, and the others stay. -/
theorem HeapOwns.kfree (ho : HeapOwns e h objs blocks) (hx : a ∈ blocks) :
    SameCaches h (h.kfree E a).2 ∧ HeapOwns e (h.kfree E a).2 objs (blocks.filter (· ≠ a)) := by
  obtain ⟨held, spare, ho⟩ := ho
  obtain ⟨n, hh⟩ := ho.block a hx
  have hpost := kfree_spec (E := E) ho.inv ho.ready hh
  obtain ⟨held', spare', hinv, hheld, hkeep⟩ := hpost.inv
  refine ⟨hpost.touches.sameCaches, held', spare', hinv, hpost.ready, fun y hy => ?_, fun y hy => ?_, fun y hy => ?_⟩
  · exact hheld y (ho.object y hy) fun he => ho.apart a hx (he ▸ hy)
  · obtain ⟨hin, hne⟩ := List.mem_filter.mp hy
    obtain ⟨m, hm⟩ := ho.block y hin
    exact ⟨m, hkeep y m hm (by simpa using hne)⟩
  · exact ho.apart y (List.mem_filter.mp hy).1

theorem lookupRange_some {k : Kvmm W} {vaddr : Nat} {r : KvmmRange} (hl : k.lookupRange vaddr = some r) :
    r ∈ k.usedList ∧ r.Covers vaddr := by
  unfold Kvmm.lookupRange at hl
  cases hfind : getClosestPrecedingKvmmRange k.usedList vaddr with
  | none =>
    rw [hfind] at hl
    cases hl
  | some x =>
    rw [hfind] at hl
    dsimp only at hl
    split_ifs at hl with hout
    obtain rfl := Option.some.inj hl
    refine ⟨mem_of_getClosestPreceding hfind, ?_⟩
    unfold KvmmRange.Covers
    omega

/-- Nothing lies at `NULL`. -/
theorem HeapOwns.lookup_null (ho : HeapOwns e h objs blocks) : h.kvmm.lookupRange 0 = none := by
  obtain ⟨held, spare, ho⟩ := ho
  cases hl : h.kvmm.lookupRange 0 with
  | none => rfl
  | some r =>
    obtain ⟨hr, hcov⟩ := lookupRange_some hl
    have hbounds := ho.inv.bounds 0 ⟨r, mem_all.mpr (.inr (.inl hr)), hcov⟩
    have hbase : kvmmBase = 16384 := rfl
    omega

theorem HeapOwns.kvmmFree_null (ho : HeapOwns e h objs blocks) : (h.kvmmFree E 0).2 = h := by
  unfold Heap.kvmmFree
  rw [ho.lookup_null]

/-- `kfree` of `NULL`. -/
theorem HeapOwns.kfree_null (ho : HeapOwns e h objs blocks) : (h.kfree E 0).2 = h := by
  have hresolve : h.kvmmResolveSlab 0 = none := by
    unfold Heap.kvmmResolveSlab
    rw [ho.lookup_null]
  have hfree : h.kvmmCacheFree E 1 0 = (-3, h) := by
    show Heap.cacheFreeWith _ E h 0 = (-3, h)
    unfold Heap.cacheFreeWith
    rw [hresolve]
  unfold Heap.kfree
  rw [hfree]
  exact ho.kvmmFree_null

/-- **An object is given back** to its cache. -/
theorem HeapOwns.cacheFree (ho : HeapOwns e h (a :: objs) []) (hu : h.UserCache ca) (hne : a ∉ objs)
    (ha : (h.slabs.cache ca).Allocated a) :
    SameCaches h (h.kvmmCacheFree E 1 a).2 ∧ HeapOwns e (h.kvmmCacheFree E 1 a).2 objs [] ∧
      ∀ b, ((h.kvmmCacheFree E 1 a).2.slabs.cache ca).Allocated b ↔ (h.slabs.cache ca).Allocated b ∧ b ≠ a := by
  obtain ⟨held, spare, ho⟩ := ho
  have hheld : a ∈ held := ho.object a List.mem_cons_self
  have hpost := heapCacheFree_spec (E := E) (ho.inv.perm (List.perm_cons_erase hheld) (List.Perm.refl spare)) hu.mem ha
  refine ⟨hpost.touches.sameCaches, ⟨held.erase a, spare, hpost.inv, ho.ready.of_touches hpost.touches (hu.not_scope ho.ready),
    ?_, ?_, ?_⟩, hpost.allocated⟩
  · intro x hx
    have hxa : x ≠ a := fun he => hne (he ▸ hx)
    exact (List.mem_erase_of_ne hxa).mpr (ho.object x (List.mem_cons_of_mem _ hx))
  · exact fun x hx => absurd hx List.not_mem_nil
  · exact fun x hx => absurd hx List.not_mem_nil

/-- `kvmm_free` finds the slab of an object. -/
theorem HeapOwns.kvmmFree_object (ho : HeapOwns e h objs blocks) (hx : a ∈ objs) : (h.kvmmFree E a).2 = h := by
  obtain ⟨held, spare, ho⟩ := ho
  have hi := ho.inv
  obtain ⟨ca, hca, slab, hs, hslot, -⟩ := hi.slabs.held_live a (ho.object a hx)
  obtain ⟨r, hb⟩ := hi.backs_slab hca hs
  have hcov := hb.covers.mpr ((hi.slabs.covers_iff hca hs).mpr (hslot.covers (hi.slabs.ok ca hca).shape))
  have hslab := (hi.slab_tied ca hca _ (mem_keys.mpr ⟨slab, hs, rfl⟩)).slabOf hi hb
  unfold Heap.kvmmFree
  rw [hi.ranges.inv.lookup hb.foreign.1 hb.last hcov]
  dsimp only
  rw [hslab]
  split_ifs with hbase hsome
  · rfl
  · rfl
  · exact absurd (Option.some_ne_none _) hsome

end Desiros.Mem
