import Desiros.Mem.SlabCache

/-!
# The geometry of a slab (`init_cache`)

`init_cache` divides the bytes of a slab by the rounded size of an object before anything tells it that the
rounding did not wrap. `initCacheDivide` is `init_cache` with the fault of that division; it is `init_cache`
unless the size is one of the last three words, which round to zero. In the other cases the objects and the
structure of the slab fit.
-/

namespace Desiros.Mem

open Desiros.Library KslabCache

variable {ρ : Type} {objSize pagesPerSlab minFreeObjs cacheFlags : UInt32} {c : KslabCache ρ}

/-! ## The division -/

/-- The quotient, `none` for the fault of the processor when the divisor is zero. -/
def divide (a b : UInt32) : Option UInt32 := if b = 0 then none else some (a / b)

/-- `init_cache`; `none` for the fault of its division. -/
def initCacheDivide (ρ : Type) (objSize pagesPerSlab minFreeObjs cacheFlags : UInt32) :
    Option (Except Int (KslabCache ρ)) :=
  if objSize ≤ 0 then some (.error (-1))
  else
    let allocObjSize := allocObjSizeOf objSize
    if allocObjSize > pagesPerSlab * 4096 then some (.error (-1))
    else if pagesPerSlab > maxPagesPerSlab then some (.error (-3))
    else
      let onSlab := cacheFlags &&& onSlabFlag != 0 || decide (allocObjSize ≤ UInt32.ofNat sizeofKslab)
      let spaceLeft := pagesPerSlab * 4096
      let spaceLeft := if onSlab then spaceLeft - UInt32.ofNat sizeofKslab else spaceLeft
      (divide spaceLeft allocObjSize).map fun nbObjPerSlab =>
        let spaceLeft := spaceLeft - nbObjPerSlab * allocObjSize
        if nbObjPerSlab < minFreeObjs then .error (-1)
        else .ok
          { originalObjSize := objSize.toNat
            allocObjSize := allocObjSize.toNat
            nbObjPerSlab := nbObjPerSlab.toNat
            nbPagesPerSlab := pagesPerSlab.toNat
            minFreeObj := minFreeObjs.toNat
            flags := cacheFlags
            onSlab := onSlab || decide (spaceLeft ≥ UInt32.ofNat sizeofKslab)
            nbFreeObj := 0
            slabList := [] }

/-- The rounded size of an object is zero exactly for the last three words. -/
theorem allocObjSizeOf_eq_zero : allocObjSizeOf objSize = 0 ↔ 4294967292 < objSize.toNat := by
  have h8 : (UInt32.ofNat sizeofKslabFreeObj).toNat = 8 := by decide
  have hlt := word_lt objSize
  rw [word_eq_iff, allocObjSizeOf, toNat_alignSup_four, UInt32.toNat_zero]
  split
  · rename_i hsmall
    rw [word_lt_iff, h8] at hsmall
    omega
  · rename_i hlarge
    rw [word_lt_iff, h8] at hlarge
    omega

theorem initCacheDivide_eq (h : allocObjSizeOf objSize ≠ 0) :
    initCacheDivide ρ objSize pagesPerSlab minFreeObjs cacheFlags =
      some (initCache ρ objSize pagesPerSlab minFreeObjs cacheFlags) := by
  simp only [initCacheDivide, initCache, divide, if_neg h, Option.map_some]
  split_ifs <;> rfl

/-- A size that rounds to zero passes every check, up to the limit on the pages of a slab. -/
theorem initCacheDivide_of_wrap (h : allocObjSizeOf objSize = 0) :
    initCacheDivide ρ objSize pagesPerSlab minFreeObjs cacheFlags =
      if pagesPerSlab > maxPagesPerSlab then some (.error (-3)) else none := by
  have hpos : ¬ objSize ≤ 0 := by
    rw [word_le_iff, UInt32.toNat_zero]
    have := allocObjSizeOf_eq_zero.mp h
    omega
  have hpages : ¬ (0 : UInt32) > pagesPerSlab * 4096 := by
    rw [gt_iff_lt, word_lt_iff, UInt32.toNat_zero]
    omega
  simp only [initCacheDivide, h, divide, if_neg hpos, if_neg hpages, if_true, Option.map_none]

/-! ## What a cache must look like -/

/-- The objects of a slab have room for what is asked, are aligned, and fit in the pages of the slab next to a
structure that is on it. -/
structure KslabCache.Geometry (c : KslabCache ρ) (objSize pagesPerSlab minFreeObjs : UInt32) : Prop where
  aligned : 4 ∣ c.allocObjSize
  holds_object : objSize.toNat ≤ c.allocObjSize
  holds_free_obj : sizeofKslabFreeObj ≤ c.allocObjSize
  enough : max 1 minFreeObjs.toNat ≤ c.nbObjPerSlab
  fits : c.nbObjPerSlab * c.allocObjSize + (if c.onSlab then sizeofKslab else 0) ≤
    pagesPerSlab.toNat * nbBytesPerPage

theorem initCache_sizes (h : initCache ρ objSize pagesPerSlab minFreeObjs cacheFlags = .ok c) :
    c.allocObjSize = (allocObjSizeOf objSize).toNat ∧ c.nbPagesPerSlab = pagesPerSlab.toNat := by
  simp only [initCache] at h
  split_ifs at h
  all_goals
    obtain rfl := Except.ok.inj h
    exact ⟨rfl, rfl⟩

/-- A size that does not wrap is rounded up to a multiple of four with room for a `struct kslab_free_obj`. -/
theorem allocObjSizeOf_spec (h : objSize.toNat ≤ 4294967292) :
    4 ∣ (allocObjSizeOf objSize).toNat ∧ objSize.toNat ≤ (allocObjSizeOf objSize).toNat ∧
      sizeofKslabFreeObj ≤ (allocObjSizeOf objSize).toNat := by
  have h8 : (UInt32.ofNat sizeofKslabFreeObj).toNat = 8 := by decide
  have hsize : sizeofKslabFreeObj = 8 := rfl
  rw [allocObjSizeOf, toNat_alignSup_four]
  split
  · rename_i hsmall
    rw [word_lt_iff] at hsmall
    omega
  · rename_i hlarge
    rw [word_lt_iff] at hlarge
    omega

theorem initCache_geometry (hsize : objSize.toNat ≤ 4294967292) (hflags : cacheFlags &&& onSlabFlag = 0)
    (h : initCache ρ objSize pagesPerSlab minFreeObjs cacheFlags = .ok c) :
    c.Geometry objSize pagesPerSlab minFreeObjs := by
  obtain ⟨hok, -, -, hmin, hle⟩ := initCache_ok ⟨by omega, hflags⟩ h
  obtain ⟨halloc, hpages⟩ := initCache_sizes h
  obtain ⟨haligned, hobject, hfree⟩ := allocObjSizeOf_spec hsize
  refine ⟨halloc ▸ haligned, halloc ▸ hobject, halloc ▸ hfree, ?_, ?_⟩
  · rw [hmin] at hle
    exact max_le hok.shape.nbObj_pos hle
  · have hfits := hok.shape.fits
    rwa [slabBytes, hpages] at hfits

/-- `init_cache` ends without a fault, and a cache it accepts has the geometry asked for. -/
def InitCacheRight (ρ : Type) (objSize pagesPerSlab minFreeObjs cacheFlags : UInt32) : Prop :=
  ∃ result, initCacheDivide ρ objSize pagesPerSlab minFreeObjs cacheFlags = some result ∧
    ∀ c, result = .ok c → c.Geometry objSize pagesPerSlab minFreeObjs

/-- **init_cache is right** for all parameters but the sizes that round to zero, which it divides by when the
number of pages is one it accepts. -/
theorem initCache_right_iff (hflags : cacheFlags &&& onSlabFlag = 0) :
    InitCacheRight ρ objSize pagesPerSlab minFreeObjs cacheFlags ↔
      ¬ (4294967292 < objSize.toNat ∧ pagesPerSlab ≤ maxPagesPerSlab) := by
  by_cases hwrap : allocObjSizeOf objSize = 0
  · have hlarge := allocObjSizeOf_eq_zero.mp hwrap
    have hle : pagesPerSlab ≤ maxPagesPerSlab ↔ ¬ pagesPerSlab > maxPagesPerSlab := by
      rw [gt_iff_lt, word_lt_iff, word_le_iff]
      omega
    rw [InitCacheRight, initCacheDivide_of_wrap hwrap, hle]
    constructor
    · rintro ⟨result, hresult, -⟩ ⟨-, hpages⟩
      rw [if_neg hpages] at hresult
      cases hresult
    · intro h
      have hpages : pagesPerSlab > maxPagesPerSlab := by
        by_contra hpages
        exact h ⟨hlarge, hpages⟩
      rw [if_pos hpages]
      refine ⟨_, rfl, fun c hc => ?_⟩
      cases hc
  · have hsmall : objSize.toNat ≤ 4294967292 := by
      by_contra hlarge
      exact hwrap (allocObjSizeOf_eq_zero.mpr (by omega))
    refine iff_of_true ?_ (fun h => absurd h.1 (by omega))
    exact ⟨_, initCacheDivide_eq hwrap, fun c hc => initCache_geometry hsmall hflags hc⟩

/-- The size of the objects of the cache of caches. -/
theorem initCache_right_of_caches : (0 : UInt32) &&& onSlabFlag = 0 ∧
    (InitCacheRight Nat 44 1 0 0 ↔ ¬ (4294967292 < (44 : UInt32).toNat ∧ (1 : UInt32) ≤ maxPagesPerSlab)) :=
  ⟨by decide, initCache_right_iff (by decide)⟩

/-- A size of `0xFFFFFFFD` bytes is divided by. -/
theorem initCache_divides_by_zero :
    ¬ ∀ objSize pagesPerSlab minFreeObjs cacheFlags : UInt32, cacheFlags &&& onSlabFlag = 0 →
      InitCacheRight Nat objSize pagesPerSlab minFreeObjs cacheFlags := by
  intro h
  obtain ⟨result, hresult, -⟩ := h 0xFFFFFFFD 1 0 0 (by decide)
  have hnone : (initCacheDivide Nat 0xFFFFFFFD 1 0 0).isNone = true := by decide
  rw [hresult] at hnone
  cases hnone

end Desiros.Mem
