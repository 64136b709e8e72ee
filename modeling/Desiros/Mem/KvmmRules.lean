import Desiros.Mem.KvmmNew

/-!
# What the range functions may do with pages

Rules for the page functions under `kvmm.c`, and what the range functions keep if the rules hold. `PageRules E B I`:
the bases of ranges are in `B`, which is closed under whole pages, and mapping or unmapping a page there keeps `I`. Then
every call keeps both, whether it succeeds or not.
-/

namespace Desiros.Mem

open Desiros.Library KslabCache Kvmm

variable {W : Type} {E : PageMap W} {B : Nat → Prop} {I : W → Prop} {s s' : Kvmm W} {pending : List KvmmRange}
  {r : KvmmRange}

structure PageRules (E : PageMap W) (B : Nat → Prop) (I : W → Prop) : Prop where
  next : ∀ {base} k, B base → B (base + k * nbBytesPerPage)
  map : ∀ {w vaddr}, B vaddr → I w → I (E.mapPage w vaddr).2
  unmap : ∀ {w vaddr}, B vaddr → I w → I (E.unmapPage w vaddr)
  set : ∀ {w vaddr} range, B vaddr → I w → I (E.setKvmmRange w vaddr range)

/-- All ranges start in `B`, and the pages are as `I` says. -/
structure BasesIn (B : Nat → Prop) (I : W → Prop) (s : Kvmm W) (pending : List KvmmRange) : Prop where
  free : ∀ r ∈ s.freeList, B r.base
  used : ∀ r ∈ s.usedList, B r.base
  pending : ∀ r ∈ pending, B r.base
  world : I s.world

/-! ## Lists -/

theorem mem_insertAfter {l : List KvmmRange} {prec a x : KvmmRange} (h : prec ∈ l) :
    x ∈ insertAfter l prec a ↔ x = a ∨ x ∈ l := by
  induction l with
  | nil => cases h
  | cons y l ih =>
    rw [insertAfter]
    by_cases he : y.addr = prec.addr
    · rw [if_pos he, List.mem_cons, List.mem_cons, List.mem_cons]
      tauto
    · have hin : prec ∈ l := (List.mem_cons.mp h).resolve_left fun heq => he (heq ▸ rfl)
      rw [if_neg he, List.mem_cons, ih hin, List.mem_cons]
      tauto

theorem mem_insertRange {l : List KvmmRange} {a x : KvmmRange} : x ∈ insertRange l a ↔ x = a ∨ x ∈ l := by
  unfold insertRange
  cases hprec : getClosestPrecedingKvmmRange l a.base with
  | none => exact List.mem_cons
  | some p => exact mem_insertAfter (mem_of_getClosestPreceding hprec)

/-- Writing to a structure moves a base to another in `B`. -/
theorem base_writeRange {l : List KvmmRange} {addr : Nat} {f : KvmmRange → KvmmRange} (hf : ∀ r, B r.base → B (f r).base)
    (h : ∀ r ∈ l, B r.base) : ∀ r ∈ writeRange l addr f, B r.base := by
  intro r hr
  obtain ⟨x, hx, rfl⟩ := List.mem_map.mp hr
  split_ifs
  · exact hf x (h x hx)
  · exact h x hx

theorem base_deleteRange {l : List KvmmRange} {addr : Nat} (h : ∀ r ∈ l, B r.base) :
    ∀ r ∈ deleteRange l addr, B r.base := fun r hr => h r (List.mem_of_mem_filter hr)

theorem base_insertRange {l : List KvmmRange} {a : KvmmRange} (h : ∀ r ∈ l, B r.base) (ha : B a.base) :
    ∀ r ∈ insertRange l a, B r.base := by
  intro r hr
  rcases mem_insertRange.mp hr with rfl | hin
  · exact ha
  · exact h r hin

theorem mem_of_listPrev {l : List KvmmRange} {p : KvmmRange} (h : listPrev l r = some p) : p ∈ l := by
  unfold listPrev at h
  cases hlast : (l.takeWhile fun x => x.addr != r.addr).getLast? with
  | some q =>
    rw [hlast] at h
    obtain rfl := Option.some.inj h
    exact (List.takeWhile_sublist _).subset (List.mem_of_getLast? hlast)
  | none =>
    rw [hlast] at h
    exact List.mem_of_getLast? h

/-- Giving a structure back changes neither the lists nor the pages. -/
theorem releaseStructRange_lists (s : Kvmm W) (a : Nat) :
    (kvmmCacheReleaseStructRange s a).2.freeList = s.freeList ∧
      (kvmmCacheReleaseStructRange s a).2.usedList = s.usedList ∧
      (kvmmCacheReleaseStructRange s a).2.world = s.world := by
  unfold kvmmCacheReleaseStructRange
  cases hobj : freeObject s a with
  | none => exact ⟨rfl, rfl, rfl⟩
  | some res =>
    obtain ⟨s₁, o⟩ := res
    have hs₁ : s₁.freeList = s.freeList ∧ s₁.usedList = s.usedList ∧ s₁.world = s.world := by
      unfold freeObject at hobj
      cases hslab : kvmmResolveSlab s a with
      | none =>
        rw [hslab] at hobj
        cases hobj
      | some slab =>
        rw [hslab] at hobj
        dsimp only at hobj
        by_cases ho : (!s.rangeCache.isObject slab a) = true
        · rw [if_pos ho] at hobj
          cases hobj
        · rw [if_neg ho, Option.some_inj, Prod.mk.injEq] at hobj
          rw [← hobj.1]
          exact ⟨rfl, rfl, rfl⟩
    cases o with
    | none => exact hs₁
    | some slab => exact hs₁

/-! ## Deleting -/

theorem BasesIn.freeStructRange (hs : BasesIn B I s pending) (a : Nat) :
    BasesIn B I (freeStructRange s a pending).1 (freeStructRange s a pending).2 := by
  obtain ⟨hfree, hused, hworld⟩ := releaseStructRange_lists s a
  unfold Kvmm.freeStructRange
  generalize kvmmCacheReleaseStructRange s a = res at hfree hused hworld
  obtain ⟨o, s₁⟩ := res
  have hs₁ : BasesIn B I s₁ pending :=
    ⟨fun r hr => hs.free r (hfree ▸ hr), fun r hr => hs.used r (hused ▸ hr), hs.pending, hworld ▸ hs.world⟩
  cases o with
  | none => exact hs₁
  | some raddr =>
    refine ⟨hs₁.free, base_deleteRange hs₁.used, fun r hr => ?_, hs₁.world⟩
    rcases List.mem_append.mp hr with hr | hr
    · exact hs.pending r hr
    · exact hs₁.used r (mem_of_findRange (Option.mem_toList.mp hr)).1

theorem BasesIn.mergePrev (hs : BasesIn B I s pending) (hr : B r.base) :
    BasesIn B I (mergePrev s r pending).1 (mergePrev s r pending).2.2 ∧ B (mergePrev s r pending).2.1.base := by
  unfold Kvmm.mergePrev
  cases hprev : listPrev s.freeList r with
  | none => exact ⟨hs, hr⟩
  | some p =>
    dsimp only
    split_ifs with htouch
    · have hmerged : BasesIn B I { s with
          freeList := deleteRange (writeRange s.freeList p.addr fun x =>
            { x with nbPages := x.nbPages + r.nbPages }) r.addr } pending :=
        ⟨base_deleteRange (base_writeRange (fun _ hx => hx) hs.free), hs.used, hs.pending, hs.world⟩
      exact ⟨hmerged.freeStructRange _, hs.free p (mem_of_listPrev hprev)⟩
    · exact ⟨hs, hr⟩

theorem BasesIn.mergeNext (hs : BasesIn B I s pending) (r : KvmmRange) :
    BasesIn B I (mergeNext s r pending).1 (mergeNext s r pending).2 := by
  unfold Kvmm.mergeNext
  cases listNext s.freeList r with
  | none => exact hs
  | some q =>
    dsimp only
    split_ifs
    · have hmerged : BasesIn B I { s with
          freeList := deleteRange (writeRange s.freeList r.addr fun x =>
            { x with nbPages := x.nbPages + q.nbPages }) q.addr } pending :=
        ⟨base_deleteRange (base_writeRange (fun _ hx => hx) hs.free), hs.used, hs.pending, hs.world⟩
      exact hmerged.freeStructRange _
    · exact hs

section

variable (h : PageRules E B I)

include h

theorem PageRules.unmapPages {base : Nat} (hbase : B base) : ∀ (n i : Nat) (w : W), I w →
    I (Kvmm.unmapPages E base i n w) := by
  intro n
  induction n with
  | zero => exact fun i w hw => hw
  | succ n ih => exact fun i w hw => ih (i + 1) _ (h.unmap (h.next i hbase) hw)

theorem PageRules.mapPages {base : Nat} (hbase : B base) (range : Nat) : ∀ (n i : Nat) (w : W), I w →
    I (Kvmm.mapPages E range base i n w).2 := by
  intro n
  induction n with
  | zero => exact fun i w hw => hw
  | succ n ih =>
    intro i w hw
    have hmap := h.map (h.next i hbase) hw
    unfold Kvmm.mapPages
    generalize E.mapPage w (base + i * nbBytesPerPage) = res at hmap ⊢
    obtain ⟨ok, w'⟩ := res
    cases ok with
    | false => exact hmap
    | true => exact ih (i + 1) _ (h.set range (h.next i hbase) hmap)

theorem PageRules.delRangeStep (hs : BasesIn B I s (r :: pending)) :
    BasesIn B I (delRangeStep E s r pending).1 (delRangeStep E s r pending).2 := by
  have hr := hs.pending r List.mem_cons_self
  have hins : BasesIn B I { s with
      freeList := insertRange s.freeList r
      world := Kvmm.unmapPages E r.base 0 r.nbPages s.world } pending :=
    ⟨base_insertRange hs.free hr, hs.used, fun x hx => hs.pending x (List.mem_cons_of_mem _ hx),
      h.unmapPages hr r.nbPages 0 s.world hs.world⟩
  exact (hins.mergePrev hr).1.mergeNext _

theorem PageRules.delRangeLoop : ∀ (fuel : Nat) (s : Kvmm W) (r : KvmmRange) (pending : List KvmmRange),
    BasesIn B I s (r :: pending) → delRangeLoop E fuel s r pending = some s' → BasesIn B I s' [] := by
  intro fuel
  induction fuel with
  | zero =>
    intro s r pending _ heq
    cases heq
  | succ fuel ih =>
    intro s r pending hs heq
    have hstep := h.delRangeStep hs
    unfold Kvmm.delRangeLoop at heq
    generalize Kvmm.delRangeStep E s r pending = step at hstep heq
    obtain ⟨s₁, pending₁⟩ := step
    cases pending₁ with
    | nil => exact Option.some.inj heq ▸ hstep
    | cons r₁ pending₁ => exact ih s₁ r₁ pending₁ hstep heq

theorem PageRules.kvmmDelRange (hs : BasesIn B I s []) (hr : B r.base) :
    BasesIn B I ((kvmmDelRange E s r).getD s) [] := by
  cases heq : Kvmm.kvmmDelRange E s r with
  | none => exact hs
  | some s' =>
    have hstart : BasesIn B I { s with usedList := deleteRange s.usedList r.addr } [r] := by
      refine ⟨hs.free, base_deleteRange hs.used, fun x hx => ?_, hs.world⟩
      rw [List.mem_singleton.mp hx]
      exact hr
    exact h.delRangeLoop _ _ r [] hstart heq

theorem PageRules.kvmmCacheFree (hs : BasesIn B I s []) (a : Nat) : BasesIn B I (kvmmCacheFree E s a) [] := by
  obtain ⟨hfree, hused, hworld⟩ := releaseStructRange_lists s a
  unfold Kvmm.kvmmCacheFree
  generalize kvmmCacheReleaseStructRange s a = res at hfree hused hworld
  obtain ⟨o, s₁⟩ := res
  have hs₁ : BasesIn B I s₁ [] :=
    ⟨fun r hr => hs.free r (hfree ▸ hr), fun r hr => hs.used r (hused ▸ hr), hs.pending, hworld ▸ hs.world⟩
  cases o with
  | none => exact hs₁
  | some empty =>
    dsimp only
    cases hfind : findRange s₁.usedList empty with
    | none => exact hs₁
    | some range => exact h.kvmmDelRange hs₁ (hs₁.used range (mem_of_findRange hfind).1)

/-! ## Allocating -/

theorem PageRules.mapNewRange (hs : BasesIn B I s []) (hr : B r.base) (map : Bool) :
    BasesIn B I (mapNewRange E s r map).2 [] := by
  have hpages := h.mapPages hr r.addr r.nbPages 0 s.world hs.world
  unfold Kvmm.mapNewRange
  cases map with
  | false => exact hs
  | true =>
    rw [if_pos rfl]
    generalize Kvmm.mapPages E r.addr r.base 0 r.nbPages s.world = res at hpages
    obtain ⟨ok, w⟩ := res
    have hw : BasesIn B I { s with world := w } [] := ⟨hs.free, hs.used, hs.pending, hpages⟩
    cases ok with
    | true => exact hw
    | false =>
      dsimp only
      cases heq : Kvmm.kvmmDelRange E { s with world := w } r with
      | none => exact hs
      | some s' =>
        have hdel := h.kvmmDelRange hw hr
        rw [heq] at hdel
        exact hdel

theorem PageRules.newRangeWith {cacheAlloc : Kvmm W → Option Nat × Kvmm W}
    (halloc : ∀ s, BasesIn B I s [] → BasesIn B I (cacheAlloc s).2 []) (hs : BasesIn B I s []) (n : Nat) (map : Bool) :
    BasesIn B I (newRangeWith cacheAlloc E s n map).2 [] := by
  unfold Kvmm.newRangeWith
  split_ifs with hzero
  · exact hs
  cases hfind : s.freeList.find? fun r => r.nbPages ≥ n with
  | none => exact hs
  | some f =>
    have hf : B f.base := hs.free f (List.mem_of_find?_eq_some hfind)
    dsimp only
    split_ifs with hexact
    · have hmoved : BasesIn B I { s with
          freeList := deleteRange s.freeList f.addr
          usedList := insertRange s.usedList f
          slabOf := Function.update s.slabOf f.addr none } [] :=
        ⟨base_deleteRange hs.free, base_insertRange hs.used hf, hs.pending, hs.world⟩
      exact h.mapNewRange hmoved hf map
    · have hs₁ := halloc s hs
      generalize cacheAlloc s = res at hs₁
      obtain ⟨obj, s₁⟩ := res
      cases obj with
      | none => exact hs₁
      | some addr =>
        dsimp only
        cases hfound : findRange s₁.freeList f.addr with
        | none => exact hs₁
        | some f' =>
          have hf' : B f'.base := hs₁.free f' (mem_of_findRange hfound).1
          have hsplit : BasesIn B I (splitRange s₁ f' addr n) [] :=
            ⟨base_writeRange (fun x hx => h.next n hx) hs₁.free, base_insertRange hs₁.used hf', hs₁.pending, hs₁.world⟩
          exact h.mapNewRange (r := ⟨addr, f'.base, n⟩) hsplit hf' map

omit h in
theorem BasesIn.cacheGrow {newRange : Kvmm W → Nat → Bool → Option KvmmRange × Kvmm W}
    (hnew : ∀ s n map, BasesIn B I s [] → BasesIn B I (newRange s n map).2 []) (hs : BasesIn B I s []) :
    BasesIn B I (cacheGrow newRange s).2 [] := by
  have hs₁ := hnew s s.rangeCache.nbPagesPerSlab (s.rangeCache.flags &&& (kslabCreateMap ||| kslabCreateZero) != 0) hs
  unfold Kvmm.cacheGrow
  generalize newRange s _ _ = res at hs₁
  obtain ⟨r, s₁⟩ := res
  cases r with
  | none => exact hs₁
  | some r => exact ⟨hs₁.free, hs₁.used, hs₁.pending, hs₁.world⟩

theorem PageRules.cacheTakeEnsureMin {newRange : Kvmm W → Nat → Bool → Option KvmmRange × Kvmm W}
    (hnew : ∀ s n map, BasesIn B I s [] → BasesIn B I (newRange s n map).2 []) (hs : BasesIn B I s []) :
    BasesIn B I (cacheTakeEnsureMin newRange E s).2 [] := by
  unfold Kvmm.cacheTakeEnsureMin Kvmm.cacheEnsureMin
  cases cacheTakeObject s.rangeCache with
  | none => exact hs
  | some res =>
    obtain ⟨obj, c⟩ := res
    have hc : BasesIn B I { s with rangeCache := c } [] := ⟨hs.free, hs.used, hs.pending, hs.world⟩
    dsimp only
    split_ifs
    · have hs₁ := hc.cacheGrow hnew
      generalize Kvmm.cacheGrow newRange _ = res at hs₁
      obtain ⟨ok, s₁⟩ := res
      cases ok with
      | true => exact hs₁
      | false => exact h.kvmmCacheFree hs₁ obj
    · exact hc

theorem PageRules.cacheAllocWith {newRange : Kvmm W → Nat → Bool → Option KvmmRange × Kvmm W}
    (hnew : ∀ s n map, BasesIn B I s [] → BasesIn B I (newRange s n map).2 []) (hs : BasesIn B I s []) :
    BasesIn B I (cacheAllocWith newRange E s).2 [] := by
  unfold Kvmm.cacheAllocWith
  split_ifs
  · have hs₁ := hs.cacheGrow hnew
    generalize Kvmm.cacheGrow newRange s = res at hs₁
    obtain ⟨ok, s₁⟩ := res
    cases ok with
    | true => exact h.cacheTakeEnsureMin hnew hs₁
    | false => exact hs₁
  · exact h.cacheTakeEnsureMin hnew hs

/-- **`kvmm_new_range`** keeps what every page function keeps. -/
theorem PageRules.kvmmNewRange : ∀ (depth : Nat) (s : Kvmm W) (n : Nat) (map : Bool), BasesIn B I s [] →
    BasesIn B I (kvmmNewRange E depth s n map).2 [] := by
  intro depth
  induction depth with
  | zero => exact fun s n map hs => h.newRangeWith (fun s hs => hs) hs n map
  | succ depth ih => exact fun s n map hs => h.newRangeWith (fun s hs => h.cacheAllocWith ih hs) hs n map

end

end Desiros.Mem
