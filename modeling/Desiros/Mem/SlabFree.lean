import Desiros.Mem.SlabRuns

/-!
# What `kvmm_cache_free` refuses

`free_object` looks for the slab that covers the address and checks that the address is a multiple of the size of an
object behind the first one, and not behind the last one. So an address that is not the start of an object is refused
without a change. It does not look at the free list of the slab: an object that is free already is freed once more.
-/

namespace Desiros.Mem

open Desiros.Library KslabCache SlabSystem

variable {s : SlabSystem} {held : List Nat} {spare : List PageRange} {ca v depth : Nat} {slab : Kslab PageRange}

namespace SlabSystem

/-- The address of an object on the free list of a slab. -/
def FreeObject (s : SlabSystem) (v : Nat) : Prop := ∃ ca ∈ s.cacheList, ∃ slab ∈ (s.cache ca).slabList, v ∈ slab.free

/-- `kvmm_cache_free` reports an error, and every slab and every counter is as before. -/
def RefusesFree (depth : Nat) (s : SlabSystem) (v : Nat) : Prop :=
  (kvmmCacheFree depth s v).1 ≠ 0 ∧ (kvmmCacheFree depth s v).2 = s

/-- Only the address of an object in use is accepted. -/
def FreeRight (depth : Nat) (s : SlabSystem) (v : Nat) : Prop := ¬ s.Live v → s.RefusesFree depth v

end SlabSystem

/-- Where `free_object` finds no object, nothing happens. -/
theorem kvmmCacheFree_error (h : freeObject s v = none) : kvmmCacheFree depth s v = (-3, s) := by
  cases depth with
  | zero => rw [kvmmCacheFree, cacheFreeWith, h]
  | succ depth => rw [kvmmCacheFree, cacheFreeWith, h]

theorem kvmmCacheFree_accepts (h : freeObject s v ≠ none) : (kvmmCacheFree depth s v).1 = 0 := by
  obtain ⟨⟨s', empty⟩, hfree⟩ := Option.ne_none_iff_exists'.mp h
  cases depth with
  | zero => cases empty <;> rw [kvmmCacheFree, cacheFreeWith, hfree]
  | succ depth => cases empty <;> rw [kvmmCacheFree, cacheFreeWith, hfree]

/-- The two checks of `free_object` pass for the start of an object only. -/
theorem isSlot_of_isObject {c : KslabCache PageRange} (hcov : c.Covers slab v) (h : c.isObject slab v = true) :
    c.IsSlot slab v := by
  rw [isObject, Bool.and_eq_true, beq_iff_eq, decide_eq_true_eq] at h
  obtain ⟨hmod, hlt⟩ := h
  have hdiv := Nat.div_add_mod (v - slab.firstObj) c.allocObjSize
  rw [hmod, Nat.mul_comm, Nat.add_zero] at hdiv
  have hle := hcov.1
  exact ⟨_, hlt, by omega⟩

/-- What `kvmm_resolve_slab` finds is the slab of a cache, and covers the address. -/
theorem mem_of_resolve (h : kvmmResolveSlab s v = some (ca, slab)) :
    ca ∈ s.cacheList ∧ slab ∈ (s.cache ca).slabList ∧ slab.range.Covers v := by
  obtain ⟨ca', hca', hfind⟩ := List.exists_of_findSome?_eq_some h
  rw [Option.map_eq_some_iff] at hfind
  obtain ⟨slab', hfind, heq⟩ := hfind
  obtain ⟨rfl, rfl⟩ := Prod.mk.inj heq
  exact ⟨hca', List.mem_of_find?_eq_some hfind, by simpa using List.find?_some hfind⟩

/-- `free_object` accepts exactly the objects, in use or free. -/
theorem SlabInv.freeObject_iff (h : SlabInv s held spare) : freeObject s v ≠ none ↔ s.Live v ∨ s.FreeObject v := by
  constructor
  · intro hne
    unfold freeObject at hne
    cases hr : kvmmResolveSlab s v with
    | none =>
      rw [hr] at hne
      exact absurd rfl hne
    | some found =>
      obtain ⟨ca, slab⟩ := found
      obtain ⟨hca, hs, hcov⟩ := mem_of_resolve hr
      rw [hr] at hne
      have hobject : (s.cache ca).isObject slab v = true := by
        by_contra hno
        rw [Bool.not_eq_true] at hno
        simp only [hno, Bool.not_false, if_true, ne_eq, not_true_eq_false] at hne
      have hslot := isSlot_of_isObject ((h.covers_iff hca hs).mp hcov) hobject
      by_cases hfree : v ∈ slab.free
      · exact .inr ⟨ca, hca, slab, hs, hfree⟩
      · exact .inl ⟨ca, hca, slab, hs, hslot, hfree⟩
  · intro hobject
    obtain ⟨ca, hca, slab, hs, hslot⟩ : ∃ ca ∈ s.cacheList, ∃ slab ∈ (s.cache ca).slabList, (s.cache ca).IsSlot slab v := by
      rcases hobject with ⟨ca, hca, slab, hs, hslot, -⟩ | ⟨ca, hca, slab, hs, hfree⟩
      · exact ⟨ca, hca, slab, hs, hslot⟩
      · exact ⟨ca, hca, slab, hs, ((h.ok ca hca).slabs slab hs).slots v hfree⟩
    have hshape := (h.ok ca hca).shape
    rw [freeObject, h.resolve hca hs (hslot.covers hshape)]
    simp only [isObject_of_isSlot hslot hshape, Bool.not_true, Bool.false_eq_true, if_false, ne_eq,
      Option.some_ne_none, not_false_eq_true]

/-- An object on a free list is not in use. -/
theorem SlabInv.not_live_of_free (h : SlabInv s held spare) (hv : s.FreeObject v) : ¬ s.Live v := by
  rintro ⟨ca, hca, ha⟩
  obtain ⟨ca', hca', slab, hs, hfree⟩ := hv
  exact h.safe.free ca hca ca' hca' v ha slab hs hfree

/-- **kvmm_cache_free** refuses all addresses but those of the objects in use, and of those that are free already. -/
theorem SlabInv.freeRight_iff (h : SlabInv s held spare) : s.FreeRight depth v ↔ ¬ s.FreeObject v := by
  constructor
  · intro hright hfree
    obtain ⟨herror, -⟩ := hright (h.not_live_of_free hfree)
    exact herror (kvmmCacheFree_accepts (h.freeObject_iff.mpr (.inr hfree)))
  · intro hnot hlive
    have hnone : freeObject s v = none := by
      by_contra hne
      exact (h.freeObject_iff.mp hne).elim hlive hnot
    rw [RefusesFree, kvmmCacheFree_error hnone]
    exact ⟨show (-3 : Int) ≠ 0 by decide, rfl⟩

theorem slabInv_run (S : RangeSource) (base depth : Nat) (ops : List SlabOp)
    (hops : Guarded (slabStep (depth + 1) S) SlabGuard (slabStart S base) ops) :
    SlabInv (run (slabStep (depth + 1) S) (slabStart S base) ops).sys
      (run (slabStep (depth + 1) S) (slabStart S base) ops).objs [] := by
  have hinv : ∀ (w : SlabWorld) op, SlabGood w.sys w.objs → SlabGuard w op →
      SlabGood (slabStep (depth + 1) S w op).sys (slabStep (depth + 1) S w op).objs :=
    fun w op h hg => slabGood_step (Nat.succ_pos depth) h hg
  exact (invariant_run hinv ops (slabStart S base) (slabGood_kvmmCacheSetupPrepare S base) hops).inv

/-- **kvmm_cache_free over whole runs.** In every state that calls of the allocator lead to, an address is treated right
exactly if it is not that of a free object. -/
theorem slab_runs_freeRight_iff (S : RangeSource) (base depth : Nat) (ops : List SlabOp)
    (hops : Guarded (slabStep (depth + 1) S) SlabGuard (slabStart S base) ops) (v : Nat) :
    (run (slabStep (depth + 1) S) (slabStart S base) ops).sys.FreeRight (depth + 1) v ↔
      ¬ (run (slabStep (depth + 1) S) (slabStart S base) ops).sys.FreeObject v :=
  (slabInv_run S base depth ops hops).freeRight_iff

/-- An address inside the object that is in use is refused. -/
theorem slab_runs_freeRight_inside :
    (run (slabStep 1 bumpSource) (slabStart bumpSource 0x200000) twoObjects).sys.FreeRight 1 0x201044 ↔
      ¬ (run (slabStep 1 bumpSource) (slabStart bumpSource 0x200000) twoObjects).sys.FreeObject 0x201044 :=
  slab_runs_freeRight_iff bumpSource 0x200000 0 twoObjects ⟨by decide +kernel, by decide +kernel, by decide +kernel,
    by decide +kernel, trivial⟩ 0x201044

/-- The object that was given back is given back once more. -/
theorem slab_runs_frees_twice : ¬ ∀ (S : RangeSource) (base depth : Nat) (ops : List SlabOp),
    Guarded (slabStep (depth + 1) S) SlabGuard (slabStart S base) ops → ∀ v,
      (run (slabStep (depth + 1) S) (slabStart S base) ops).sys.FreeRight (depth + 1) v := by
  intro hright
  have hguarded : Guarded (slabStep 1 bumpSource) SlabGuard (slabStart bumpSource 0x200000) twoObjects :=
    ⟨by decide +kernel, by decide +kernel, by decide +kernel, by decide +kernel, trivial⟩
  have h := slabInv_run bumpSource 0x200000 0 twoObjects hguarded
  have hv := hright bumpSource 0x200000 0 twoObjects hguarded 0x201000
  have hfree : ((run (slabStep 1 bumpSource) (slabStart bumpSource 0x200000) twoObjects).sys.cacheList.any fun ca =>
      ((run (slabStep 1 bumpSource) (slabStart bumpSource 0x200000) twoObjects).sys.cache ca).slabList.any fun slab =>
        slab.free.contains 0x201000) = true := by
    decide +kernel
  obtain ⟨ca, hca, hany⟩ := List.any_eq_true.mp hfree
  obtain ⟨slab, hs, hmem⟩ := List.any_eq_true.mp hany
  have hnot := h.not_live_of_free (v := 0x201000) ⟨ca, hca, slab, hs, by simpa using hmem⟩
  have hzero : (kvmmCacheFree 1 (run (slabStep 1 bumpSource) (slabStart bumpSource 0x200000) twoObjects).sys
      0x201000).1 = 0 := by
    decide +kernel
  exact (hv hnot).1 hzero

end Desiros.Mem
