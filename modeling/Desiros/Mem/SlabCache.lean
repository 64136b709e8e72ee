import Desiros.Mem.Slab
import Mathlib.Data.List.Pairwise

/-!
# The invariant of a slab cache

`KslabCache.Ok`: the objects fit in a slab next to its structure, the slabs are disjoint, the counters count
the free lists, and no slab with a free object follows a full one. What a caller owns of a cache is
`Allocated`: a slot of a slab that is not on its free list. Each operation keeps `Ok` and changes `Allocated`
by the object it takes or gives.
-/

namespace Desiros.Mem

open Desiros.Library

variable {ρ : Type}

namespace KslabCache

/-- `a` is the address of an object of the slab. -/
def IsSlot (c : KslabCache ρ) (slab : Kslab ρ) (a : Nat) : Prop :=
  ∃ i < c.nbObjPerSlab, a = slab.firstObj + i * c.allocObjSize

/-- The object is in use. -/
def Allocated (c : KslabCache ρ) (a : Nat) : Prop :=
  ∃ slab ∈ c.slabList, c.IsSlot slab a ∧ a ∉ slab.free

/-- The address lies in the slab. -/
def Covers (c : KslabCache ρ) (slab : Kslab ρ) (a : Nat) : Prop :=
  slab.firstObj ≤ a ∧ a < slab.firstObj + c.slabBytes

/-- No address lies in both slabs. -/
def Apart (c : KslabCache ρ) (slab slab' : Kslab ρ) : Prop :=
  slab.firstObj + c.slabBytes ≤ slab'.firstObj ∨ slab'.firstObj + c.slabBytes ≤ slab.firstObj

/-- The objects fit in a slab, next to its structure if it is on the slab. -/
structure Shape (c : KslabCache ρ) : Prop where
  size_pos : 0 < c.allocObjSize
  nbObj_pos : 0 < c.nbObjPerSlab
  fits : c.nbObjPerSlab * c.allocObjSize + (if c.onSlab then sizeofKslab else 0) ≤ c.slabBytes

structure SlabOk (c : KslabCache ρ) (slab : Kslab ρ) : Prop where
  nodup : slab.free.Nodup
  slots : ∀ a ∈ slab.free, c.IsSlot slab a
  nbFree : slab.nbFree = slab.free.length
  addr : c.onSlab → slab.addr + sizeofKslab = slab.firstObj + c.slabBytes

structure Ok (c : KslabCache ρ) : Prop where
  shape : c.Shape
  slabs : ∀ slab ∈ c.slabList, c.SlabOk slab
  apart : c.slabList.Pairwise c.Apart
  count : c.nbFreeObj = (c.slabList.map (·.nbFree)).sum
  /-- The head of the list is non full, its tail full. -/
  ordered : c.slabList.Pairwise fun slab slab' => slab.free = [] → slab'.free = []

variable {c c' : KslabCache ρ} {slab slab' : Kslab ρ} {a b : Nat}

theorem Shape.slabBytes_pos (h : c.Shape) : 0 < c.slabBytes := by
  have := h.fits
  have := Nat.mul_pos h.nbObj_pos h.size_pos
  omega

/-- The slot ends in the slab, before a structure on the slab. -/
theorem IsSlot.end_le (hs : c.IsSlot slab a) (h : c.Shape) :
    slab.firstObj ≤ a ∧ a + c.allocObjSize + (if c.onSlab then sizeofKslab else 0) ≤
      slab.firstObj + c.slabBytes := by
  obtain ⟨i, hi, rfl⟩ := hs
  have h1 := h.fits
  have h2 := Nat.mul_le_mul_right c.allocObjSize (Nat.succ_le_of_lt hi)
  rw [Nat.succ_mul] at h2
  omega

theorem IsSlot.covers (hs : c.IsSlot slab a) (h : c.Shape) : c.Covers slab a := by
  obtain ⟨h1, h2⟩ := hs.end_le h
  have := h.size_pos
  exact ⟨h1, by omega⟩

/-- Different slots of a slab are disjoint. -/
theorem IsSlot.disjoint (ha : c.IsSlot slab a) (hb : c.IsSlot slab b) (hne : a ≠ b) :
    a + c.allocObjSize ≤ b ∨ b + c.allocObjSize ≤ a := by
  obtain ⟨i, _, rfl⟩ := ha
  obtain ⟨j, _, rfl⟩ := hb
  rcases Nat.lt_trichotomy i j with h | rfl | h
  · have := Nat.mul_le_mul_right c.allocObjSize (Nat.succ_le_of_lt h)
    rw [Nat.succ_mul] at this
    omega
  · exact absurd rfl hne
  · have := Nat.mul_le_mul_right c.allocObjSize (Nat.succ_le_of_lt h)
    rw [Nat.succ_mul] at this
    omega

theorem isObject_of_isSlot (hs : c.IsSlot slab a) (h : c.Shape) : c.isObject slab a = true := by
  obtain ⟨i, hi, rfl⟩ := hs
  have hsub : slab.firstObj + i * c.allocObjSize - slab.firstObj = i * c.allocObjSize := by omega
  rw [isObject, hsub, Nat.mul_mod_left, Nat.mul_div_cancel _ h.size_pos]
  simpa using hi

theorem Apart.symm (h : c.Apart slab slab') : c.Apart slab' slab := Or.symm h

instance : Std.Symm c.Apart := ⟨fun _ _ => Apart.symm⟩

theorem not_apart_self (h : c.Shape) : ¬ c.Apart slab slab := by
  have := h.slabBytes_pos
  simp only [Apart]
  omega

theorem Apart.not_covers (h : c.Apart slab slab') (ha : c.Covers slab a) : ¬ c.Covers slab' a := by
  simp only [Apart, Covers] at *
  omega

theorem Ok.slabs_nodup (h : c.Ok) : c.slabList.Nodup := by
  refine h.apart.imp fun hap he => ?_
  rw [he] at hap
  exact not_apart_self h.shape hap

/-- Two slabs that cover an address are the same. -/
theorem Ok.eq_of_covers (h : c.Ok) (hs : slab ∈ c.slabList) (hs' : slab' ∈ c.slabList)
    (ha : c.Covers slab a) (ha' : c.Covers slab' a) : slab = slab' := by
  by_contra hne
  have hap := h.apart.forall hs hs' hne
  exact hap.not_covers ha ha'

/-- An allocated object is on no free list. -/
theorem Ok.not_free (h : c.Ok) (ha : c.Allocated a) (hs : slab ∈ c.slabList) : a ∉ slab.free := by
  obtain ⟨slab', hs', hslot, hfree⟩ := ha
  intro hmem
  obtain rfl := h.eq_of_covers hs hs' (((h.slabs slab hs).slots a hmem).covers h.shape)
    (hslot.covers h.shape)
  exact hfree hmem

/-- A slab all of whose objects are free holds no allocated object. -/
theorem SlabOk.free_all (h : c.SlabOk slab) (hfull : slab.nbFree ≥ c.nbObjPerSlab)
    (hslot : c.IsSlot slab a) : a ∈ slab.free := by
  have hsub : slab.free ⊆ (List.range c.nbObjPerSlab).map fun i => slab.firstObj + i * c.allocObjSize := by
    intro b hb
    obtain ⟨i, hi, rfl⟩ := h.slots b hb
    exact List.mem_map.mpr ⟨i, List.mem_range.mpr hi, rfl⟩
  have hperm := (List.subperm_of_subset h.nodup hsub).perm_of_length_le (by
    rw [List.length_map, List.length_range, ← h.nbFree]
    exact hfull)
  rw [hperm.mem_iff]
  obtain ⟨i, hi, rfl⟩ := hslot
  exact List.mem_map.mpr ⟨i, List.mem_range.mpr hi, rfl⟩

/-- A cache with a free object has one in the slab at its head. -/
theorem Ok.not_needsSlab (h : c.Ok) (hpos : 0 < c.nbFreeObj) : c.needsSlab = false := by
  have hcount := h.count
  cases hl : c.slabList with
  | nil =>
    rw [hl] at hcount
    exact absurd hcount (Nat.ne_of_gt hpos)
  | cons slab rest =>
    cases hf : slab.free with
    | cons _ _ => simp only [needsSlab, hl, hf, List.isEmpty_cons]
    | nil =>
      -- all slabs are full
      have hord := h.ordered
      rw [hl, List.pairwise_cons] at hord
      have hzero : ∀ s ∈ c.slabList, s.nbFree = 0 := by
        intro s hs
        rw [(h.slabs s hs).nbFree, List.length_eq_zero_iff]
        rw [hl] at hs
        rcases List.mem_cons.mp hs with rfl | hs
        · exact hf
        · exact hord.1 s hs hf
      have hsum : (c.slabList.map (·.nbFree)).sum = 0 := by
        apply List.sum_eq_zero
        intro n hn
        obtain ⟨s, hs, rfl⟩ := List.mem_map.mp hn
        exact hzero s hs
      omega

/-- There is an object to take when the cache needs no slab. -/
theorem exists_cacheTakeObject (h : c.needsSlab = false) : ∃ obj c', cacheTakeObject c = some (obj, c') := by
  unfold needsSlab at h
  unfold cacheTakeObject
  cases hl : c.slabList with
  | nil => simp [hl] at h
  | cons slab rest =>
    cases hf : slab.free with
    | nil => simp [hl, hf] at h
    | cons obj free =>
      simp only [hf]
      exact ⟨_, _, rfl⟩

/-! ## Replacing a slab of the list -/

/-- What identifies the slabs of a cache: their structures, first objects and ranges. -/
def keys (c : KslabCache ρ) : List (Nat × Nat × ρ) :=
  c.slabList.map fun slab => (slab.addr, slab.firstObj, slab.range)

/-- The caches differ in their slabs and in the number of free objects only. -/
def SameParams (c c' : KslabCache ρ) : Prop :=
  c' = { c with nbFreeObj := c'.nbFreeObj, slabList := c'.slabList }

section SameParams

theorem SameParams.refl (c : KslabCache ρ) : c.SameParams c := rfl

theorem SameParams.trans {c'' : KslabCache ρ} (h : c.SameParams c') (h' : c'.SameParams c'') :
    c.SameParams c'' := by
  unfold SameParams at *
  rw [h', h]

theorem SameParams.onSlab (h : c.SameParams c') : c'.onSlab = c.onSlab := by rw [h]

theorem SameParams.nbPagesPerSlab (h : c.SameParams c') : c'.nbPagesPerSlab = c.nbPagesPerSlab := by rw [h]

theorem SameParams.allocObjSize (h : c.SameParams c') : c'.allocObjSize = c.allocObjSize := by rw [h]

theorem SameParams.minFreeObj (h : c.SameParams c') : c'.minFreeObj = c.minFreeObj := by rw [h]

end SameParams

/-- A list with one slab replaced by another at the same place. -/
structure Replaces (c : KslabCache ρ) (slab slab' : Kslab ρ) (l : List (Kslab ρ)) : Prop where
  perm : ∃ rest, c.slabList.Perm (slab :: rest) ∧ l.Perm (slab' :: rest)
  addr : slab'.addr = slab.addr
  firstObj : slab'.firstObj = slab.firstObj
  range : slab'.range = slab.range

variable {l : List (Kslab ρ)} {n : Nat}

theorem Replaces.mem (h : c.Replaces slab slab' l) : slab ∈ c.slabList := by
  obtain ⟨rest, hp, _⟩ := h.perm
  exact hp.mem_iff.mpr List.mem_cons_self

theorem Replaces.keys (h : c.Replaces slab slab' l) :
    (keys { c with nbFreeObj := n, slabList := l }).Perm c.keys := by
  obtain ⟨rest, hp, hp'⟩ := h.perm
  refine (hp'.map _).trans ?_
  rw [List.map_cons, h.addr, h.firstObj, h.range]
  exact (hp.map fun slab => (slab.addr, slab.firstObj, slab.range)).symm

theorem Replaces.ok (hr : c.Replaces slab slab' l) (h : c.Ok) (hok : c.SlabOk slab')
    (hn : n + slab.nbFree = c.nbFreeObj + slab'.nbFree)
    (hord : l.Pairwise fun s s' => s.free = [] → s'.free = []) :
    Ok { c with nbFreeObj := n, slabList := l } := by
  obtain ⟨rest, hp, hp'⟩ := hr.perm
  refine ⟨⟨h.shape.size_pos, h.shape.nbObj_pos, h.shape.fits⟩, fun s hs => ?_, ?_, ?_, hord⟩
  · have hs' : c.SlabOk s := by
      rcases List.mem_cons.mp (hp'.mem_iff.mp hs) with rfl | hs
      · exact hok
      · exact h.slabs s (hp.mem_iff.mpr (List.mem_cons_of_mem _ hs))
    exact ⟨hs'.nodup, hs'.slots, hs'.nbFree, hs'.addr⟩
  · have hap := (hp.pairwise_iff fun h => Apart.symm h).mp h.apart
    rw [List.pairwise_cons] at hap
    have hap' : (slab' :: rest).Pairwise c.Apart := by
      rw [List.pairwise_cons]
      refine ⟨fun s hs => ?_, hap.2⟩
      have := hap.1 s hs
      simp only [Apart, hr.firstObj] at this ⊢
      exact this
    exact (hp'.pairwise_iff fun h => Apart.symm h).mpr hap'
  · have h1 := (hp.map (·.nbFree)).sum_eq
    have h2 := (hp'.map (·.nbFree)).sum_eq
    rw [List.map_cons, List.sum_cons] at h1 h2
    have h3 := h.count
    show n = (l.map (·.nbFree)).sum
    omega

theorem exists_mem_perm_cons {P : Kslab ρ → Prop} {rest : List (Kslab ρ)} (hp : l.Perm (slab :: rest)) :
    (∃ s ∈ l, P s) ↔ P slab ∨ ∃ s ∈ rest, P s := by
  rw [← List.exists_mem_cons_iff]
  constructor
  · rintro ⟨s, hs, h⟩
    exact ⟨s, hp.mem_iff.mp hs, h⟩
  · rintro ⟨s, hs, h⟩
    exact ⟨s, hp.mem_iff.mpr hs, h⟩

/-- The other slabs hold the same allocated objects. -/
theorem Replaces.allocated_iff (hr : c.Replaces slab slab' l) :
    ∃ rest, c.slabList.Perm (slab :: rest) ∧ ∀ a,
      (c.Allocated a ↔ (c.IsSlot slab a ∧ a ∉ slab.free) ∨ ∃ s ∈ rest, c.IsSlot s a ∧ a ∉ s.free) ∧
      (Allocated { c with nbFreeObj := n, slabList := l } a ↔
        (c.IsSlot slab a ∧ a ∉ slab'.free) ∨ ∃ s ∈ rest, c.IsSlot s a ∧ a ∉ s.free) := by
  obtain ⟨rest, hp, hp'⟩ := hr.perm
  refine ⟨rest, hp, fun a => ⟨exists_mem_perm_cons hp, ?_⟩⟩
  have h := exists_mem_perm_cons (P := fun s => c.IsSlot s a ∧ a ∉ s.free) hp'
  simp only [IsSlot, hr.firstObj] at h ⊢
  exact h

/-! ## The operations -/

/-- **Taking an object**: it was free, and is allocated now. -/
theorem Ok.take (h : c.Ok) {obj : Nat} (ht : cacheTakeObject c = some (obj, c')) :
    c'.Ok ∧ c.SameParams c' ∧ c'.keys.Perm c.keys ∧ c'.nbFreeObj + 1 = c.nbFreeObj ∧
      ¬ c.Allocated obj ∧ ∀ a, c'.Allocated a ↔ c.Allocated a ∨ a = obj := by
  cases hl : c.slabList with
  | nil => simp [cacheTakeObject, hl] at ht
  | cons slab rest =>
    cases hf : slab.free with
    | nil => simp [cacheTakeObject, hl, hf] at ht
    | cons o free =>
      simp only [cacheTakeObject, hl, hf, Option.some.injEq, Prod.mk.injEq] at ht
      obtain ⟨rfl, rfl⟩ := ht
      have hs : slab ∈ c.slabList := by rw [hl]; exact List.mem_cons_self
      have hok := h.slabs slab hs
      have hnodup : o ∉ free ∧ free.Nodup := List.nodup_cons.mp (hf ▸ hok.nodup)
      have hslot : c.IsSlot slab o := hok.slots o (hf ▸ List.mem_cons_self)
      have hlen : slab.nbFree = free.length + 1 := by rw [hok.nbFree, hf, List.length_cons]
      have hsum : c.nbFreeObj = slab.nbFree + (rest.map (·.nbFree)).sum := by
        rw [h.count, hl, List.map_cons, List.sum_cons]
      have hr : c.Replaces slab { slab with nbFree := slab.nbFree - 1, free := free }
          (if free.isEmpty then rest ++ [{ slab with nbFree := slab.nbFree - 1, free := free }]
          else { slab with nbFree := slab.nbFree - 1, free := free } :: rest) := by
        refine ⟨⟨rest, by rw [hl], ?_⟩, rfl, rfl, rfl⟩
        split
        · exact List.perm_append_singleton _ _
        · exact List.Perm.refl _
      have hord := h.ordered
      rw [hl, List.pairwise_cons] at hord
      have hok' : c.SlabOk { slab with nbFree := slab.nbFree - 1, free := free } :=
        ⟨hnodup.2, fun a ha => hok.slots a (hf ▸ List.mem_cons_of_mem _ ha), by simp [hlen],
          hok.addr⟩
      have hfree : ¬ c.Allocated o := fun ho => h.not_free ho hs (hf ▸ List.mem_cons_self)
      refine ⟨hr.ok h hok' (by simp only; omega) ?_, rfl, hr.keys, by simp only; omega, hfree,
        fun a => ?_⟩
      · split
        · rename_i he
          rw [List.pairwise_append]
          exact ⟨hord.2, List.pairwise_singleton _ _, fun s _ s' hs' _ => by
            rw [List.mem_singleton.mp hs']
            exact List.isEmpty_iff.mp he⟩
        · rename_i he
          rw [List.pairwise_cons]
          exact ⟨fun s _ hnil => absurd (List.isEmpty_iff.mpr hnil) he, hord.2⟩
      · obtain ⟨rest', _, hiff⟩ := hr.allocated_iff
        rw [(hiff a).2, (hiff a).1, hf]
        by_cases hao : a = o
        · subst hao
          simp only [hnodup.1, hslot, not_false_eq_true, and_self, true_or, or_true]
        · simp only [List.mem_cons, hao, false_or, or_false]

/-- **Adding a slab** apart from the others: its objects are free. -/
theorem Ok.add (h : c.Ok) {vaddrSlab slabAddr : Nat} {range : ρ}
    (hapart : ∀ s ∈ c.slabList, c.Apart (c.newSlab vaddrSlab slabAddr range) s)
    (haddr : c.onSlab → slabAddr + sizeofKslab = vaddrSlab + c.slabBytes) :
    (cacheAddSlab c vaddrSlab slabAddr range).Ok ∧
      ∀ a, (cacheAddSlab c vaddrSlab slabAddr range).Allocated a ↔ c.Allocated a := by
  have hinj : Function.Injective fun i => vaddrSlab + i * c.allocObjSize := by
    intro i j hij
    have hij' : i * c.allocObjSize = j * c.allocObjSize := Nat.add_left_cancel hij
    exact Nat.eq_of_mul_eq_mul_right h.shape.size_pos hij'
  have hfree : ∀ a, a ∈ (c.newSlab vaddrSlab slabAddr range).free ↔
      c.IsSlot (c.newSlab vaddrSlab slabAddr range) a := by
    intro a
    simp only [newSlab, IsSlot, List.mem_map, List.mem_range]
    constructor
    · rintro ⟨i, hi, rfl⟩
      exact ⟨i, hi, rfl⟩
    · rintro ⟨i, hi, rfl⟩
      exact ⟨i, hi, rfl⟩
  have hok : c.SlabOk (c.newSlab vaddrSlab slabAddr range) := by
    refine ⟨?_, fun a ha => (hfree a).mp ha, ?_, haddr⟩
    · exact (List.nodup_map_iff hinj).mpr List.nodup_range
    · simp only [newSlab, List.length_map, List.length_range]
  refine ⟨⟨⟨h.shape.size_pos, h.shape.nbObj_pos, h.shape.fits⟩, fun s hs => ?_, ?_, ?_, ?_⟩, fun a => ?_⟩
  · rcases List.mem_cons.mp hs with rfl | hs
    · exact ⟨hok.nodup, hok.slots, hok.nbFree, hok.addr⟩
    · have hs' := h.slabs s hs
      exact ⟨hs'.nodup, hs'.slots, hs'.nbFree, hs'.addr⟩
  · exact List.pairwise_cons.mpr ⟨hapart, h.apart⟩
  · show c.nbFreeObj + c.nbObjPerSlab = _
    rw [cacheAddSlab, List.map_cons, List.sum_cons, ← h.count, newSlab, Nat.add_comm]
  · refine List.pairwise_cons.mpr ⟨fun s _ hnil => ?_, h.ordered⟩
    have hslot : c.IsSlot (c.newSlab vaddrSlab slabAddr range) vaddrSlab :=
      ⟨0, h.shape.nbObj_pos, by simp [newSlab]⟩
    have := (hfree _).mpr hslot
    rw [hnil] at this
    cases this
  · constructor
    · rintro ⟨s, hs, hslot, hnot⟩
      rcases List.mem_cons.mp hs with rfl | hs
      · exact absurd ((hfree a).mpr hslot) hnot
      · exact ⟨s, hs, hslot, hnot⟩
    · rintro ⟨s, hs, h⟩
      exact ⟨s, List.mem_cons_of_mem _ hs, h⟩

/-! ## A new cache -/

/-- The parameters a caller of `kvmm_cache_create` may pass: the size can be rounded up to a multiple of 4,
and `ON_SLAB` is not among the flags. -/
def ValidParams (objSize cacheFlags : UInt32) : Prop :=
  objSize.toNat + 3 < 4294967296 ∧ cacheFlags &&& onSlabFlag = 0

instance (objSize cacheFlags : UInt32) : Decidable (ValidParams objSize cacheFlags) :=
  inferInstanceAs (Decidable (_ ∧ _))

theorem allocObjSizeOf_pos {objSize : UInt32} (h : objSize.toNat + 3 < 4294967296) :
    0 < (allocObjSizeOf objSize).toNat := by
  unfold allocObjSizeOf
  rw [toNat_alignSup_four]
  split
  · decide
  · rename_i hlt
    rw [word_lt_iff] at hlt
    have h8 : (UInt32.ofNat sizeofKslabFreeObj).toNat = 8 := by decide
    omega

theorem ok_of_no_slabs (hshape : c.Shape) (hslabs : c.slabList = []) (hcount : c.nbFreeObj = 0) : c.Ok := by
  refine ⟨hshape, ?_, ?_, ?_, ?_⟩
  · rw [hslabs]
    exact fun slab hs => absurd hs List.not_mem_nil
  · rw [hslabs]
    exact List.Pairwise.nil
  · rw [hcount, hslabs]
    rfl
  · rw [hslabs]
    exact List.Pairwise.nil

/-- **init_cache** with valid parameters: the cache has no slab yet, and one would hold the minimum. -/
theorem initCache_ok {objSize pagesPerSlab minFreeObjs cacheFlags : UInt32}
    (hvalid : ValidParams objSize cacheFlags)
    (h : initCache ρ objSize pagesPerSlab minFreeObjs cacheFlags = .ok c) :
    c.Ok ∧ c.slabList = [] ∧ c.nbFreeObj = 0 ∧ c.minFreeObj = minFreeObjs.toNat ∧
      c.minFreeObj ≤ c.nbObjPerSlab := by
  have hpos := allocObjSizeOf_pos hvalid.1
  unfold initCache at h
  simp only [hvalid.2, bne_self_eq_false, Bool.false_or] at h
  generalize allocObjSizeOf objSize = size at h hpos
  have h28 : (UInt32.ofNat sizeofKslab).toNat = 28 := by decide
  have h32 : maxPagesPerSlab.toNat = 32 := by decide
  split_ifs at h with h1 h2 h3 h4 h5 h6
  all_goals
    simp only [decide_eq_true_eq, gt_iff_lt, word_lt_iff, word_le_iff, not_lt,
      h28, h32] at h2 h3 h4
    have hbytes : (pagesPerSlab * 4096).toNat = pagesPerSlab.toNat * 4096 := by
      rw [UInt32.toNat_mul]
      show pagesPerSlab.toNat * 4096 % 4294967296 = _
      omega
    rw [hbytes] at h2
    obtain rfl := Except.ok.inj h
  · -- the objects are small: the structure is on the slab
    rw [word_lt_iff, Nat.not_lt] at h5
    have hspace : (pagesPerSlab * 4096 - UInt32.ofNat sizeofKslab).toNat = pagesPerSlab.toNat * 4096 - 28 := by
      rw [word_sub, hbytes, h28]
      omega
    have hnb : 0 < (pagesPerSlab.toNat * 4096 - 28) / size.toNat := Nat.div_pos (by omega) hpos
    have hfits := Nat.div_mul_le_self (pagesPerSlab.toNat * 4096 - 28) size.toNat
    refine ⟨ok_of_no_slabs ⟨hpos, ?_, ?_⟩ rfl rfl, rfl, rfl, rfl, h5⟩
    · rwa [UInt32.toNat_div, hspace]
    · have h4' : size ≤ UInt32.ofNat sizeofKslab := by
        rw [word_le_iff, h28]
        exact h4
      simp only [h4', decide_true, Bool.true_or, if_true, UInt32.toNat_div, hspace, slabBytes,
        nbBytesPerPage]
      have hk : sizeofKslab = 28 := rfl
      omega
  · rw [word_lt_iff, Nat.not_lt] at h6
    have hnb : 0 < pagesPerSlab.toNat * 4096 / size.toNat := Nat.div_pos h2 hpos
    have hfits := Nat.div_mul_le_self (pagesPerSlab.toNat * 4096) size.toNat
    refine ⟨ok_of_no_slabs ⟨hpos, ?_, ?_⟩ rfl rfl, rfl, rfl, rfl, h6⟩
    · rwa [UInt32.toNat_div, hbytes]
    · have hmul : (pagesPerSlab * 4096 / size * size).toNat =
          pagesPerSlab.toNat * 4096 / size.toNat * size.toNat := by
        rw [UInt32.toNat_mul, UInt32.toNat_div, hbytes]
        exact Nat.mod_eq_of_lt (by omega)
      have hspace : (pagesPerSlab * 4096 - pagesPerSlab * 4096 / size * size).toNat =
          pagesPerSlab.toNat * 4096 - pagesPerSlab.toNat * 4096 / size.toNat * size.toNat := by
        rw [word_sub, hbytes, hmul]
        omega
      have h4' : ¬ size ≤ UInt32.ofNat sizeofKslab := by
        rw [word_le_iff, h28]
        omega
      simp only [h4', decide_false, Bool.false_or, decide_eq_true_eq, ge_iff_le, word_le_iff, hspace, h28,
        UInt32.toNat_div, hbytes, slabBytes, nbBytesPerPage]
      have hk : sizeofKslab = 28 := rfl
      generalize pagesPerSlab.toNat * 4096 / size.toNat * size.toNat = used at hfits
      split_ifs
      · omega
      · omega

variable [DecidableEq ρ]

/-- Replacing an element of a list at its place. -/
theorem map_replace_perm (x : Kslab ρ) : ∀ {l : List (Kslab ρ)}, l.Nodup → slab ∈ l →
    (l.map fun s => if s = slab then x else s).Perm (x :: l.erase slab) := by
  intro l
  induction l with
  | nil => intro _ h; cases h
  | cons s l ih =>
    intro hnodup hmem
    rw [List.nodup_cons] at hnodup
    by_cases hs : s = slab
    · subst hs
      have hid : l.map (fun t => if t = s then x else t) = l := by
        refine (List.map_congr_left fun t ht => ?_).trans (List.map_id l)
        have hne : t ≠ s := fun he => hnodup.1 (he ▸ ht)
        exact if_neg hne
      rw [List.map_cons, if_pos rfl, hid, List.erase_cons_head]
    · rw [List.map_cons, if_neg hs, List.erase_cons_tail (by simpa using hs)]
      have hmem' : slab ∈ l := (List.mem_cons.mp hmem).resolve_left (Ne.symm hs)
      exact ((ih hnodup.2 hmem').cons s).trans (List.Perm.swap x s _)

/-- **Giving an object back**: it is free again. -/
theorem Ok.give (h : c.Ok) (hs : slab ∈ c.slabList) (hslot : c.IsSlot slab a) (hfree : a ∉ slab.free) :
    (cacheGiveObject c slab a).Ok ∧ (cacheGiveObject c slab a).keys.Perm c.keys ∧
      ∀ b, (cacheGiveObject c slab a).Allocated b ↔ c.Allocated b ∧ b ≠ a := by
  have hok := h.slabs slab hs
  have hr : c.Replaces slab (slab.give a) (cacheGiveObject c slab a).slabList := by
    refine ⟨⟨c.slabList.erase slab, List.perm_cons_erase hs, ?_⟩, rfl, rfl, rfl⟩
    rw [cacheGiveObject]
    split
    · exact List.Perm.refl _
    · exact map_replace_perm _ h.slabs_nodup hs
  have hok' : c.SlabOk (slab.give a) := by
    refine ⟨List.nodup_cons.mpr ⟨hfree, hok.nodup⟩, fun b hb => ?_, ?_, hok.addr⟩
    · rcases List.mem_cons.mp hb with rfl | hb
      · exact hslot
      · exact hok.slots b hb
    · rw [Kslab.give, hok.nbFree, List.length_cons]
  have hord : (cacheGiveObject c slab a).slabList.Pairwise fun s s' => s.free = [] → s'.free = [] := by
    rw [cacheGiveObject]
    split
    · refine List.pairwise_cons.mpr ⟨fun s _ hnil => ?_, h.ordered.sublist List.erase_sublist⟩
      exact absurd hnil (List.cons_ne_nil _ _)
    · rename_i hne
      have hempty : ∀ s, (if s = slab then slab.give a else s).free = [] ↔ s.free = [] := by
        intro s
        by_cases he : s = slab
        · rw [if_pos he, he, ← List.isEmpty_iff (l := slab.free)]
          exact iff_of_false (List.cons_ne_nil _ _) hne
        · rw [if_neg he]
      rw [List.pairwise_map]
      simp only [hempty]
      exact h.ordered
  refine ⟨hr.ok h hok' ?_ hord, hr.keys, fun b => ?_⟩
  · show c.nbFreeObj + 1 + slab.nbFree = c.nbFreeObj + (slab.nbFree + 1)
    omega
  · obtain ⟨rest, hp, hiff⟩ := hr.allocated_iff (n := c.nbFreeObj + 1)
    have hcover := hslot.covers h.shape
    have hrest : ∀ s ∈ rest, ¬ c.IsSlot s a := by
      intro s hs' hslot'
      have hnodup := List.nodup_cons.mp (hp.nodup_iff.mp h.slabs_nodup)
      have heq := h.eq_of_covers (hp.mem_iff.mpr (List.mem_cons_of_mem _ hs')) hs
        (hslot'.covers h.shape) hcover
      exact hnodup.1 (heq ▸ hs')
    refine ((hiff b).2).trans ?_
    rw [(hiff b).1, Kslab.give]
    by_cases hba : b = a
    · subst hba
      simp only [List.mem_cons, true_or, not_true, and_false, false_or, ne_eq, iff_false]
      rintro ⟨s, hs', hslot', _⟩
      exact hrest s hs' hslot'
    · simp only [List.mem_cons, hba, false_or, ne_eq, not_false_eq_true, and_true]

/-- **Removing a slab** without allocated objects. -/
theorem Ok.remove (h : c.Ok) (hs : slab ∈ c.slabList) (hfull : slab.nbFree ≥ c.nbObjPerSlab) :
    (cacheRemoveSlab c slab).Ok ∧
      c.keys.Perm ((slab.addr, slab.firstObj, slab.range) :: (cacheRemoveSlab c slab).keys) ∧
      ∀ a, (cacheRemoveSlab c slab).Allocated a ↔ c.Allocated a := by
  have hp := List.perm_cons_erase hs
  refine ⟨⟨⟨h.shape.size_pos, h.shape.nbObj_pos, h.shape.fits⟩, fun s hs' => ?_,
    h.apart.sublist List.erase_sublist, ?_, h.ordered.sublist List.erase_sublist⟩, ?_, fun a => ?_⟩
  · have hs' := h.slabs s (List.mem_of_mem_erase hs')
    exact ⟨hs'.nodup, hs'.slots, hs'.nbFree, hs'.addr⟩
  · have hsum := (hp.map (·.nbFree)).sum_eq
    rw [List.map_cons, List.sum_cons, ← h.count] at hsum
    show c.nbFreeObj - slab.nbFree = _
    rw [hsum, Nat.add_sub_cancel_left]
    rfl
  · exact hp.map fun slab => (slab.addr, slab.firstObj, slab.range)
  · refine Iff.symm ((exists_mem_perm_cons (P := fun s => c.IsSlot s a ∧ a ∉ s.free) hp).trans ?_)
    refine or_iff_right fun ⟨hslot, hnot⟩ => ?_
    exact hnot ((h.slabs slab hs).free_all hfull hslot)

end KslabCache

end Desiros.Mem
