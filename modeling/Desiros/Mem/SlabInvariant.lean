import Desiros.Mem.SlabCache
import Desiros.Mem.SlabSystem

/-!
# The invariant of the slab allocator

`SlabInv s held spare`: each cache is well-formed, no two slabs share an address, and whoever owns an object
owns it alone. The objects in use are owned by the callers (`held`), or are the structures of the caches, or
those of the slabs that are not on their slab, which come from `cache_of_struct_kslab`. `spare` are page
ranges taken from the source for a slab that is not there yet, or not any more. Each step of the allocator
moves objects and ranges between these owners.
-/

namespace Desiros.Mem

open Desiros.Library KslabCache

namespace PageRange

variable {r r' : PageRange} {a : Nat}

theorem Apart.symm (h : r.Apart r') : r'.Apart r := Or.symm h

theorem not_apart_self (h : 0 < r.nbPages) : ¬ r.Apart r := by
  have : 0 < r.nbPages * nbBytesPerPage := Nat.mul_pos h (by decide)
  simp only [Apart]
  omega

theorem Apart.ne (h : r.Apart r') (hpos : 0 < r.nbPages) : r ≠ r' := by
  rintro rfl
  exact not_apart_self hpos h

theorem Apart.not_covers (h : r.Apart r') (ha : r.Covers a) : ¬ r'.Covers a := by
  simp only [Apart, Covers] at *
  omega

end PageRange

namespace SlabSystem

/-- The object is in use. -/
def Live (s : SlabSystem) (a : Nat) : Prop := ∃ ca ∈ s.cacheList, (s.cache ca).Allocated a

/-- `a` is the structure, not on its slab, of the slab with this range. -/
def StructAt (s : SlabSystem) (a : Nat) (r : PageRange) : Prop :=
  ∃ ca ∈ s.cacheList, (s.cache ca).onSlab = false ∧ ∃ first, (a, first, r) ∈ (s.cache ca).keys

end SlabSystem

open SlabSystem

structure SlabInv (s : SlabSystem) (held : List Nat) (spare : List PageRange) : Prop where
  nodup : s.cacheList.Nodup
  ok : ∀ ca ∈ s.cacheList, (s.cache ca).Ok
  range : ∀ ca ∈ s.cacheList, ∀ k ∈ (s.cache ca).keys, k.2.2 = ⟨k.2.1, (s.cache ca).nbPagesPerSlab⟩
  apart : ∀ ca ∈ s.cacheList, ∀ ca' ∈ s.cacheList, ca ≠ ca' →
    ∀ k ∈ (s.cache ca).keys, ∀ k' ∈ (s.cache ca').keys, k.2.2.Apart k'.2.2
  known : ∀ ca ∈ s.cacheList, ∀ k ∈ (s.cache ca).keys, k.2.2 ∈ s.ranges
  spare_pos : ∀ r ∈ spare, 0 < r.nbPages
  spare_known : ∀ r ∈ spare, r ∈ s.ranges
  spare_apart : ∀ r ∈ spare, ∀ ca ∈ s.cacheList, ∀ k ∈ (s.cache ca).keys, r.Apart k.2.2
  spare_pairwise : spare.Pairwise PageRange.Apart
  kslab : s.cacheOfStructKslab ∈ s.cacheList
  kslab_on : (s.cache s.cacheOfStructKslab).onSlab = true
  kslab_min : (s.cache s.cacheOfStructKslab).minFreeObj = 0
  held_nodup : held.Nodup
  held_live : ∀ a ∈ held, s.Live a
  cache_live : ∀ ca ∈ s.cacheList, s.Live ca
  cache_held : ∀ ca ∈ s.cacheList, ca ∉ held
  struct_live : ∀ a r, s.StructAt a r → (s.cache s.cacheOfStructKslab).Allocated a
  struct_held : ∀ a r, s.StructAt a r → a ∉ held ∧ a ∉ s.cacheList
  struct_inj : ∀ a r r', s.StructAt a r → s.StructAt a r' → r = r'

variable {s : SlabSystem} {held : List Nat} {spare : List PageRange} {ca : Nat}

theorem mem_keys {c : KslabCache PageRange} {k : Nat × Nat × PageRange} :
    k ∈ c.keys ↔ ∃ slab ∈ c.slabList, (slab.addr, slab.firstObj, slab.range) = k := List.mem_map

theorem SlabInv.nbPages_pos (h : SlabInv s held spare) (hca : ca ∈ s.cacheList) :
    0 < (s.cache ca).nbPagesPerSlab := by
  have := (h.ok ca hca).shape.slabBytes_pos
  rw [slabBytes] at this
  exact Nat.pos_of_mul_pos_right this

/-! ## Resolving an address -/

section Resolve

variable {slab slab' : Kslab PageRange} {ca' a : Nat}

theorem SlabInv.range_of_mem (h : SlabInv s held spare) (hca : ca ∈ s.cacheList)
    (hs : slab ∈ (s.cache ca).slabList) : slab.range = ⟨slab.firstObj, (s.cache ca).nbPagesPerSlab⟩ :=
  h.range ca hca _ (mem_keys.mpr ⟨slab, hs, rfl⟩)

theorem SlabInv.covers_iff (h : SlabInv s held spare) (hca : ca ∈ s.cacheList)
    (hs : slab ∈ (s.cache ca).slabList) : slab.range.Covers a ↔ (s.cache ca).Covers slab a := by
  rw [h.range_of_mem hca hs]
  rfl

/-- An address lies in one slab of one cache at most. -/
theorem SlabInv.unique (h : SlabInv s held spare) (hca : ca ∈ s.cacheList) (hca' : ca' ∈ s.cacheList)
    (hs : slab ∈ (s.cache ca).slabList) (hs' : slab' ∈ (s.cache ca').slabList)
    (ha : (s.cache ca).Covers slab a) (ha' : (s.cache ca').Covers slab' a) : ca = ca' ∧ slab = slab' := by
  by_cases hne : ca = ca'
  · subst hne
    exact ⟨rfl, (h.ok ca hca).eq_of_covers hs hs' ha ha'⟩
  · have hap := h.apart ca hca ca' hca' hne _ (mem_keys.mpr ⟨slab, hs, rfl⟩) _
      (mem_keys.mpr ⟨slab', hs', rfl⟩)
    exact absurd ((h.covers_iff hca' hs').mpr ha') (hap.not_covers ((h.covers_iff hca hs).mpr ha))

theorem SlabInv.resolve (h : SlabInv s held spare) (hca : ca ∈ s.cacheList)
    (hs : slab ∈ (s.cache ca).slabList) (ha : (s.cache ca).Covers slab a) :
    kvmmResolveSlab s a = some (ca, slab) := by
  have hfound : kvmmResolveSlab s a ≠ none := by
    intro hnone
    rw [kvmmResolveSlab, List.findSome?_eq_none_iff] at hnone
    have := hnone ca hca
    rw [Option.map_eq_none_iff, List.find?_eq_none] at this
    exact this slab hs (by simpa using (h.covers_iff hca hs).mpr ha)
  obtain ⟨⟨ca', slab'⟩, hr⟩ := Option.ne_none_iff_exists'.mp hfound
  obtain ⟨ca'', hca'', hfind⟩ := List.exists_of_findSome?_eq_some hr
  rw [Option.map_eq_some_iff] at hfind
  obtain ⟨slab'', hfind, heq⟩ := hfind
  obtain ⟨rfl, rfl⟩ := Prod.mk.injEq .. ▸ heq
  have hs'' := List.mem_of_find?_eq_some hfind
  have hcov := List.find?_some hfind
  rw [decide_eq_true_eq] at hcov
  obtain ⟨rfl, rfl⟩ := h.unique hca hca'' hs hs'' ha ((h.covers_iff hca'' hs'').mp hcov)
  exact hr

/-- An object in use at an address of a slab is an object of the cache of the slab. -/
theorem SlabInv.allocated_of_live (h : SlabInv s held spare) (hca : ca ∈ s.cacheList)
    (hs : slab ∈ (s.cache ca).slabList) (ha : (s.cache ca).Covers slab a) (hlive : s.Live a) :
    (s.cache ca).Allocated a := by
  obtain ⟨ca', hca', slab', hs', hslot, hfree⟩ := hlive
  obtain ⟨rfl, rfl⟩ := h.unique hca hca' hs hs' ha (hslot.covers (h.ok ca' hca').shape)
  exact ⟨slab, hs', hslot, hfree⟩

end Resolve

/-! ## Changing the objects of a cache -/

section Update

variable {c' : KslabCache PageRange} {a : Nat}

theorem live_setCache (hca : ca ∈ s.cacheList) :
    (s.setCache ca c').Live a ↔ c'.Allocated a ∨ ∃ ca' ∈ s.cacheList, ca' ≠ ca ∧ (s.cache ca').Allocated a := by
  constructor
  · rintro ⟨ca', hca', ha⟩
    by_cases he : ca' = ca
    · subst he
      simp only [setCache, Function.update_self] at ha
      exact .inl ha
    · simp only [setCache, Function.update_of_ne he] at ha
      exact .inr ⟨ca', hca', he, ha⟩
  · rintro (ha | ⟨ca', hca', he, ha⟩)
    · exact ⟨ca, hca, by simpa only [setCache, Function.update_self] using ha⟩
    · exact ⟨ca', hca', by simpa only [setCache, Function.update_of_ne he] using ha⟩

theorem live_iff_or (hca : ca ∈ s.cacheList) :
    s.Live a ↔ (s.cache ca).Allocated a ∨ ∃ ca' ∈ s.cacheList, ca' ≠ ca ∧ (s.cache ca').Allocated a := by
  have := @live_setCache s ca (s.cache ca) a hca
  rw [setCache, Function.update_eq_self] at this
  exact this

theorem sameParams_setCache (h : (s.cache ca).SameParams c') (ca' : Nat) :
    (s.cache ca').SameParams ((s.setCache ca c').cache ca') := by
  by_cases he : ca' = ca
  · subst he
    simpa only [setCache, Function.update_self] using h
  · simp only [setCache, Function.update_of_ne he]
    exact SameParams.refl _

/-- A cache is replaced by one with the same slabs. -/
theorem SlabInv.update (h : SlabInv s held spare) (hok : c'.Ok) (hparams : (s.cache ca).SameParams c')
    (hkeys : c'.keys.Perm (s.cache ca).keys) {held' : List Nat} (hnodup : held'.Nodup) (hlive : ∀ a ∈ held', (s.setCache ca c').Live a)
    (hcl : ∀ ca' ∈ s.cacheList, (s.setCache ca c').Live ca') (hch : ∀ ca' ∈ s.cacheList, ca' ∉ held')
    (hsl : ∀ a r, s.StructAt a r → ((s.setCache ca c').cache s.cacheOfStructKslab).Allocated a)
    (hsh : ∀ a r, s.StructAt a r → a ∉ held') : SlabInv (s.setCache ca c') held' spare := by
  have hmem : ∀ ca' k, k ∈ ((s.setCache ca c').cache ca').keys ↔ k ∈ (s.cache ca').keys := by
    intro ca' k
    by_cases he : ca' = ca
    · subst he
      simp only [setCache, Function.update_self]
      exact hkeys.mem_iff
    · simp only [setCache, Function.update_of_ne he]
  have hsame := sameParams_setCache hparams
  have hstruct : ∀ a r, (s.setCache ca c').StructAt a r → s.StructAt a r := by
    rintro a r ⟨ca', hca', hoff, first, hk⟩
    exact ⟨ca', hca', (hsame ca').onSlab.symm.trans hoff, first, (hmem ca' _).mp hk⟩
  refine ⟨h.nodup, fun ca' hca' => ?_, fun ca' hca' k hk => ?_, fun c1 h1 c2 h2 hne k hk k' hk' => ?_,
    fun ca' hca' k hk => ?_, h.spare_pos, h.spare_known, fun r hr ca' hca' k hk => ?_, h.spare_pairwise,
    h.kslab, ?_, ?_, hnodup, hlive, hcl, hch, fun a r ha => hsl a r (hstruct a r ha),
    fun a r ha => ⟨hsh a r (hstruct a r ha), (h.struct_held a r (hstruct a r ha)).2⟩,
    fun a r r' ha ha' => h.struct_inj a r r' (hstruct a r ha) (hstruct a r' ha')⟩
  · by_cases he : ca' = ca
    · subst he
      simpa only [setCache, Function.update_self] using hok
    · simpa only [setCache, Function.update_of_ne he] using h.ok ca' hca'
  · rw [(hsame ca').nbPagesPerSlab]
    exact h.range ca' hca' k ((hmem ca' k).mp hk)
  · exact h.apart c1 h1 c2 h2 hne k ((hmem c1 k).mp hk) k' ((hmem c2 k').mp hk')
  · exact h.known ca' hca' k ((hmem ca' k).mp hk)
  · exact h.spare_apart r hr ca' hca' k ((hmem ca' k).mp hk)
  · exact (hsame _).onSlab.trans h.kslab_on
  · exact (hsame _).minFreeObj.trans h.kslab_min

/-- **Taking an object**: the caller holds it. -/
theorem SlabInv.take (h : SlabInv s held spare) (hca : ca ∈ s.cacheList) {obj : Nat}
    (ht : cacheTakeObject (s.cache ca) = some (obj, c')) :
    SlabInv (s.setCache ca c') (obj :: held) spare ∧ ¬ s.Live obj ∧
      ∀ a, (s.setCache ca c').Live a ↔ s.Live a ∨ a = obj := by
  obtain ⟨hok, hparams, hkeys, _, hfree, halloc⟩ := (h.ok ca hca).take ht
  have hlive : ∀ a, (s.setCache ca c').Live a ↔ s.Live a ∨ a = obj := by
    intro a
    rw [live_setCache hca, live_iff_or hca, halloc, or_right_comm]
  have hnot : ¬ s.Live obj := by
    intro hl
    obtain ⟨slab', hs', hslot', _⟩ := (halloc obj).mpr (.inr rfl)
    obtain ⟨slab, hs, hkey⟩ := mem_keys.mp (hkeys.mem_iff.mp (mem_keys.mpr ⟨slab', hs', rfl⟩))
    rw [Prod.mk.injEq, Prod.mk.injEq] at hkey
    have hcov' := hslot'.covers hok.shape
    have hcov : (s.cache ca).Covers slab obj := by
      rw [KslabCache.Covers, slabBytes] at hcov' ⊢
      rw [hkey.2.1, ← hparams.nbPagesPerSlab]
      exact hcov'
    exact hfree (h.allocated_of_live hca hs hcov hl)
  have hmono : ∀ ca' a, (s.cache ca').Allocated a → ((s.setCache ca c').cache ca').Allocated a := by
    intro ca' a ha
    by_cases he : ca' = ca
    · subst he
      simp only [setCache, Function.update_self]
      exact (halloc a).mpr (.inl ha)
    · simpa only [setCache, Function.update_of_ne he] using ha
  refine ⟨h.update hok hparams hkeys (List.nodup_cons.mpr ⟨fun hm => hnot (h.held_live _ hm),
    h.held_nodup⟩) (fun a ha => ?_) (fun ca' hca' => (hlive _).mpr (.inl (h.cache_live ca' hca')))
    (fun ca' hca' hm => ?_) (fun a r ha => hmono _ _ (h.struct_live a r ha)) (fun a r ha hm => ?_),
    hnot, hlive⟩
  · rcases List.mem_cons.mp ha with rfl | ha
    · exact (hlive _).mpr (.inr rfl)
    · exact (hlive _).mpr (.inl (h.held_live a ha))
  · rcases List.mem_cons.mp hm with rfl | hm
    · exact hnot (h.cache_live _ hca')
    · exact h.cache_held ca' hca' hm
  · rcases List.mem_cons.mp hm with rfl | hm
    · exact hnot ⟨_, h.kslab, h.struct_live a r ha⟩
    · exact (h.struct_held a r ha).1 hm

/-- **Giving an object back**: the object is free again. -/
theorem SlabInv.giveAt {slab : Kslab PageRange} (h : SlabInv s (a :: held) spare) (hca : ca ∈ s.cacheList)
    (hs : slab ∈ (s.cache ca).slabList) (hslot : (s.cache ca).IsSlot slab a) (hfree : a ∉ slab.free) :
    slab.give a ∈ (cacheGiveObject (s.cache ca) slab a).slabList ∧
      SlabInv (s.setCache ca (cacheGiveObject (s.cache ca) slab a)) held spare ∧
      ∀ b, (s.setCache ca (cacheGiveObject (s.cache ca) slab a)).Live b ↔ s.Live b ∧ b ≠ a := by
  have hok := h.ok ca hca
  have hcov := hslot.covers hok.shape
  obtain ⟨hok', hkeys, halloc⟩ := hok.give hs hslot hfree
  have hlive : ∀ b, (s.setCache ca (cacheGiveObject (s.cache ca) slab a)).Live b ↔ s.Live b ∧ b ≠ a := by
    intro b
    rw [live_setCache hca, live_iff_or hca, halloc]
    constructor
    · rintro (⟨hb, hne⟩ | ⟨ca', hca', hne, hb⟩)
      · exact ⟨.inl hb, hne⟩
      · refine ⟨.inr ⟨ca', hca', hne, hb⟩, ?_⟩
        rintro rfl
        obtain ⟨slab', hs', hslot', _⟩ := hb
        exact hne (h.unique hca' hca hs' hs (hslot'.covers (h.ok ca' hca').shape) hcov).1
    · rintro ⟨hb | hb, hne⟩
      · exact .inl ⟨hb, hne⟩
      · exact .inr hb
  have hnodup := List.nodup_cons.mp h.held_nodup
  have hmem : slab.give a ∈ (cacheGiveObject (s.cache ca) slab a).slabList := by
    rw [cacheGiveObject]
    split
    · exact List.mem_cons_self
    · exact List.mem_map.mpr ⟨slab, hs, if_pos rfl⟩
  refine ⟨hmem, h.update hok' rfl hkeys hnodup.2 (fun b hb => ?_) (fun ca' hca' => ?_) (fun ca' hca' hm => ?_)
    (fun b r hb => ?_) (fun b r hb hm => ?_), hlive⟩
  · exact (hlive b).mpr ⟨h.held_live b (List.mem_cons_of_mem _ hb), fun he => hnodup.1 (he ▸ hb)⟩
  · refine (hlive ca').mpr ⟨h.cache_live ca' hca', fun he => ?_⟩
    exact h.cache_held ca' hca' (he ▸ List.mem_cons_self)
  · exact h.cache_held ca' hca' (List.mem_cons_of_mem _ hm)
  · have hne : b ≠ a := fun he => (h.struct_held b r hb).1 (he ▸ List.mem_cons_self)
    have hb' := h.struct_live b r hb
    by_cases he : s.cacheOfStructKslab = ca
    · rw [he] at hb' ⊢
      simp only [setCache, Function.update_self]
      exact (halloc b).mpr ⟨hb', hne⟩
    · simpa only [setCache, Function.update_of_ne he] using hb'
  · exact (h.struct_held b r hb).1 (List.mem_cons_of_mem _ hm)

/-- `free_object` finds the slab of an object in use. -/
theorem SlabInv.give (h : SlabInv s (a :: held) spare) :
    ∃ ca slab, ca ∈ s.cacheList ∧ slab ∈ (s.cache ca).slabList ∧ (s.cache ca).Allocated a ∧
      freeObject s a = some (s.setCache ca (cacheGiveObject (s.cache ca) slab a),
        if (cacheGiveObject (s.cache ca) slab a).canRelease (slab.give a) then some (ca, slab.give a)
        else none) ∧
      slab.give a ∈ (cacheGiveObject (s.cache ca) slab a).slabList ∧
      SlabInv (s.setCache ca (cacheGiveObject (s.cache ca) slab a)) held spare ∧
      ∀ b, (s.setCache ca (cacheGiveObject (s.cache ca) slab a)).Live b ↔ s.Live b ∧ b ≠ a := by
  obtain ⟨ca, hca, slab, hs, hslot, hfree⟩ := h.held_live a List.mem_cons_self
  have hshape := (h.ok ca hca).shape
  refine ⟨ca, slab, hca, hs, ⟨slab, hs, hslot, hfree⟩, ?_, h.giveAt hca hs hslot hfree⟩
  rw [freeObject, h.resolve hca hs (hslot.covers hshape)]
  simp only [isObject_of_isSlot hslot hshape, Bool.not_true, Bool.false_eq_true, if_false]

end Update

end Desiros.Mem
