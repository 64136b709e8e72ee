import Desiros.Mem.KvmmPages
import Desiros.Mem.KvmmRules

/-!
# The flags of the range cache

They are those of `kvmm_cache_setup_prepare` for good, so that the slabs of range structures are mapped
(`kvmmSetup_mapsSlabs`).
-/

namespace Desiros.Mem

open Desiros.Library KslabCache Kvmm

variable {W : Type} {E : PageMap W} {s : Kvmm W} {r : KvmmRange}

/-- A slab of the range cache gets a range that is mapped. -/
def MapsSlabs (c : KslabCache (Option Nat)) : Prop := (c.flags &&& (kslabCreateMap ||| kslabCreateZero) != 0) = true

theorem mapsSlabs_congr {c c' : KslabCache (Option Nat)} (h : c'.flags = c.flags) : MapsSlabs c' ↔ MapsSlabs c := by
  unfold MapsSlabs
  rw [h]

/-! ## Deleting -/

theorem releaseStructRange_flags (s : Kvmm W) (a : Nat) :
    (kvmmCacheReleaseStructRange s a).2.rangeCache.flags = s.rangeCache.flags := by
  unfold kvmmCacheReleaseStructRange Kvmm.freeObject
  cases Kvmm.kvmmResolveSlab s a with
  | none => rfl
  | some slab =>
    dsimp only
    split_ifs <;> rfl

theorem freeStructRange_flags (s : Kvmm W) (a : Nat) (pending : List KvmmRange) :
    (freeStructRange s a pending).1.rangeCache.flags = s.rangeCache.flags := by
  have hrel := releaseStructRange_flags s a
  unfold freeStructRange
  generalize kvmmCacheReleaseStructRange s a = res at hrel
  obtain ⟨o, s₁⟩ := res
  cases o <;> exact hrel

theorem delRangeStep_flags (s : Kvmm W) (r : KvmmRange) (pending : List KvmmRange) :
    (delRangeStep E s r pending).1.rangeCache.flags = s.rangeCache.flags := by
  have hprev : ∀ (s : Kvmm W) r pending, (mergePrev s r pending).1.rangeCache.flags = s.rangeCache.flags := by
    intro s r pending
    unfold mergePrev
    cases listPrev s.freeList r with
    | none => rfl
    | some p =>
      dsimp only
      split_ifs
      · exact freeStructRange_flags _ _ _
      · rfl
  have hnext : ∀ (s : Kvmm W) r pending, (mergeNext s r pending).1.rangeCache.flags = s.rangeCache.flags := by
    intro s r pending
    unfold mergeNext
    cases listNext s.freeList r with
    | none => rfl
    | some q =>
      dsimp only
      split_ifs
      · exact freeStructRange_flags _ _ _
      · rfl
  exact (hnext _ _ _).trans (hprev _ _ _)

theorem delRangeLoop_flags : ∀ (fuel : Nat) (s : Kvmm W) (r : KvmmRange) (pending : List KvmmRange),
    ∀ s' ∈ delRangeLoop E fuel s r pending, s'.rangeCache.flags = s.rangeCache.flags := by
  intro fuel
  induction fuel with
  | zero => exact fun s r pending s' hs' => nomatch hs'
  | succ fuel ih =>
    intro s r pending s' hs'
    have hstep := @delRangeStep_flags W E s r pending
    unfold delRangeLoop at hs'
    generalize delRangeStep E s r pending = res at hstep hs'
    obtain ⟨s₁, pending₁⟩ := res
    cases pending₁ with
    | nil =>
      obtain rfl := Option.some.inj hs'
      exact hstep
    | cons r₁ pending₁ => exact (ih s₁ r₁ pending₁ s' hs').trans hstep

theorem kvmmDelRange_flags (s : Kvmm W) (r : KvmmRange) {s' : Kvmm W} (h : kvmmDelRange E s r = some s') :
    s'.rangeCache.flags = s.rangeCache.flags :=
  delRangeLoop_flags _ { s with usedList := deleteRange s.usedList r.addr } r [] s' h

theorem kvmmDelRange_getD_flags (s : Kvmm W) (r : KvmmRange) :
    ((kvmmDelRange E s r).getD s).rangeCache.flags = s.rangeCache.flags := by
  cases hdel : kvmmDelRange E s r with
  | none => rfl
  | some s' => exact kvmmDelRange_flags s r hdel

theorem kvmmCacheFree_flags (s : Kvmm W) (a : Nat) : (Kvmm.kvmmCacheFree E s a).rangeCache.flags = s.rangeCache.flags := by
  have hrel := releaseStructRange_flags s a
  unfold Kvmm.kvmmCacheFree
  generalize kvmmCacheReleaseStructRange s a = res at hrel
  obtain ⟨o, s₁⟩ := res
  cases o with
  | none => exact hrel
  | some empty =>
    dsimp only
    cases findRange s₁.usedList empty with
    | none => exact hrel
    | some range => exact (kvmmDelRange_getD_flags s₁ range).trans hrel

/-! ## Allocating -/

theorem mapNewRange_flags (s : Kvmm W) (r : KvmmRange) (map : Bool) :
    (mapNewRange E s r map).2.rangeCache.flags = s.rangeCache.flags := by
  unfold mapNewRange
  split_ifs
  · generalize mapPages E r.addr r.base 0 r.nbPages s.world = res
    obtain ⟨ok, w⟩ := res
    cases ok with
    | true => rfl
    | false =>
      dsimp only
      cases hdel : kvmmDelRange E { s with world := w } r with
      | none => rfl
      | some s' =>
        have hs' := kvmmDelRange_flags { s with world := w } r hdel
        exact hs'
  · rfl

theorem newRangeWith_flags {cacheAlloc : Kvmm W → Option Nat × Kvmm W}
    (halloc : ∀ s, (cacheAlloc s).2.rangeCache.flags = s.rangeCache.flags) (s : Kvmm W) (n : Nat) (map : Bool) :
    (newRangeWith cacheAlloc E s n map).2.rangeCache.flags = s.rangeCache.flags := by
  unfold newRangeWith
  split_ifs
  · rfl
  cases s.freeList.find? fun r => r.nbPages ≥ n with
  | none => rfl
  | some f =>
    dsimp only
    split_ifs
    · exact mapNewRange_flags _ _ _
    · have hs₁ := halloc s
      generalize cacheAlloc s = res at hs₁
      obtain ⟨obj, s₁⟩ := res
      cases obj with
      | none => exact hs₁
      | some addr =>
        dsimp only
        cases findRange s₁.freeList f.addr with
        | none => exact hs₁
        | some f' => exact (mapNewRange_flags _ _ _).trans hs₁

theorem cacheGrow_flags {newRange : Kvmm W → Nat → Bool → Option KvmmRange × Kvmm W}
    (hnew : ∀ s n map, (newRange s n map).2.rangeCache.flags = s.rangeCache.flags) (s : Kvmm W) :
    (Kvmm.cacheGrow newRange s).2.rangeCache.flags = s.rangeCache.flags := by
  have hs₁ := hnew s s.rangeCache.nbPagesPerSlab (s.rangeCache.flags &&& (kslabCreateMap ||| kslabCreateZero) != 0)
  unfold Kvmm.cacheGrow
  generalize newRange s _ _ = res at hs₁
  obtain ⟨r, s₁⟩ := res
  cases r <;> exact hs₁

theorem cacheTakeObject_flags {c c' : KslabCache (Option Nat)} {obj : Nat} (h : cacheTakeObject c = some (obj, c')) :
    c'.flags = c.flags := by
  unfold cacheTakeObject at h
  split at h
  · cases h
  · split at h
    · cases h
    · rw [Option.some_inj, Prod.mk.injEq] at h
      rw [← h.2]

theorem cacheTakeEnsureMin_flags {newRange : Kvmm W → Nat → Bool → Option KvmmRange × Kvmm W}
    (hnew : ∀ s n map, (newRange s n map).2.rangeCache.flags = s.rangeCache.flags) (s : Kvmm W) :
    (Kvmm.cacheTakeEnsureMin newRange E s).2.rangeCache.flags = s.rangeCache.flags := by
  unfold Kvmm.cacheTakeEnsureMin Kvmm.cacheEnsureMin
  cases htake : cacheTakeObject s.rangeCache with
  | none => rfl
  | some res =>
    obtain ⟨obj, c⟩ := res
    have hc := cacheTakeObject_flags htake
    dsimp only
    split_ifs
    · have hs₁ := cacheGrow_flags hnew { s with rangeCache := c }
      generalize Kvmm.cacheGrow newRange _ = res at hs₁
      obtain ⟨ok, s₁⟩ := res
      cases ok with
      | true => exact hs₁.trans hc
      | false => exact (kvmmCacheFree_flags _ _).trans (hs₁.trans hc)
    · exact hc

theorem cacheAllocWith_flags {newRange : Kvmm W → Nat → Bool → Option KvmmRange × Kvmm W}
    (hnew : ∀ s n map, (newRange s n map).2.rangeCache.flags = s.rangeCache.flags) (s : Kvmm W) :
    (Kvmm.cacheAllocWith newRange E s).2.rangeCache.flags = s.rangeCache.flags := by
  unfold Kvmm.cacheAllocWith
  split_ifs
  · have hs₁ := cacheGrow_flags hnew s
    generalize Kvmm.cacheGrow newRange s = res at hs₁
    obtain ⟨ok, s₁⟩ := res
    cases ok with
    | true => exact (cacheTakeEnsureMin_flags hnew s₁).trans hs₁
    | false => exact hs₁
  · exact cacheTakeEnsureMin_flags hnew s

theorem kvmmNewRange_flags : ∀ (depth : Nat) (s : Kvmm W) (n : Nat) (map : Bool),
    (kvmmNewRange E depth s n map).2.rangeCache.flags = s.rangeCache.flags := by
  intro depth
  induction depth with
  | zero => exact newRangeWith_flags fun _ => rfl
  | succ depth ih => exact newRangeWith_flags fun s => cacheAllocWith_flags ih s

/-! ## `kvmm_setup` -/

theorem kvmmCreateRange_flags (s : Kvmm W) (a : Bool × Nat × Nat × Option Nat) :
    (kvmmCreateRange E s a.1 a.2.1 a.2.2.1 a.2.2.2).rangeCache.flags = s.rangeCache.flags := by
  unfold kvmmCreateRange
  by_cases hsmall : a.2.2.1 - a.2.1 < nbBytesPerPage
  · rw [if_pos hsmall]
  · rw [if_neg hsmall]
    have hs₁ := @cacheAllocWith_flags W E (kvmmNewRange E 1) (kvmmNewRange_flags 1) s
    generalize Kvmm.cacheAllocWith (kvmmNewRange E 1) E s = res at hs₁
    obtain ⟨o, s₁⟩ := res
    cases o with
    | none => exact hs₁
    | some addr => cases a.1 <;> exact hs₁

theorem kvmmSetup_mapsSlabs {l : KernelLayout} {world : W} {h : Heap W} (hsetup : kvmmSetup E l world = some h) :
    MapsSlabs h.kvmm.rangeCache := by
  obtain ⟨h', heq, hkvmm⟩ := kvmmSetup_eq E l world
  obtain rfl : h' = h := Option.some.inj (heq.symm.trans hsetup)
  have hcreate : ∀ (args : List (Bool × Nat × Nat × Option Nat)) (s : Kvmm W),
      (args.foldl (fun s a => kvmmCreateRange E s a.1 a.2.1 a.2.2.1 a.2.2.2) s).rangeCache.flags = s.rangeCache.flags := by
    intro args
    induction args with
    | nil => exact fun s => rfl
    | cons a args ih => exact fun s => (ih _).trans (kvmmCreateRange_flags s a)
  rw [hkvmm, mapsSlabs_congr (hcreate _ _)]
  show (fakeCacheOfRanges.flags &&& (kslabCreateMap ||| kslabCreateZero) != 0) = true
  decide

end Desiros.Mem
