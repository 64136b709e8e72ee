import Desiros.Mem.SlabInvariant

/-!
# Slabs and caches that come and go

A range goes from the source to the spare ranges and from there to a slab, and back. Adding a slab takes a
spare range, and the structure the caller holds when it is not on the slab; removing one gives them back. A
new cache takes the structure the caller holds. None of these steps changes which objects are in use.
-/

namespace Desiros.Mem

open Desiros.Library KslabCache SlabSystem

variable {s s' : SlabSystem} {held held' : List Nat} {spare : List PageRange} {ca : Nat}

/-! ## Ranges -/

section Ranges

variable {S : RangeSource} {n : Nat} {range : PageRange}

theorem newRange_cases (S : RangeSource) (s : SlabSystem) (n : Nat) :
    s.newRange S n = (none, { s with time := s.time + 1 }) ∨
      ∃ base, (∀ r ∈ s.ranges, PageRange.Apart ⟨base, n⟩ r) ∧
        s.newRange S n = (some ⟨base, n⟩, { s with
          time := s.time + 1
          ranges := ⟨base, n⟩ :: s.ranges }) := by
  unfold SlabSystem.newRange
  cases hS : S.newRange s.time s.ranges n with
  | none => exact .inl rfl
  | some base => exact .inr ⟨base, S.apart _ _ _ _ hS, rfl⟩

/-- Only the caches and their addresses matter for what is in use. -/
theorem SlabInv.addRange (h : SlabInv s held spare) (hpos : 0 < range.nbPages)
    (hap : ∀ r ∈ s.ranges, range.Apart r) (time : Nat) :
    SlabInv { s with
      time := time
      ranges := range :: s.ranges } held (range :: spare) := by
  refine ⟨h.nodup, h.ok, h.range, h.apart, fun ca hca k hk => List.mem_cons_of_mem _ (h.known ca hca k hk),
    fun r hr => ?_, fun r hr => ?_, fun r hr ca hca k hk => ?_, ?_, h.kslab, h.kslab_on, h.kslab_min,
    h.held_nodup, h.held_live, h.cache_live, h.cache_held, h.struct_live, h.struct_held, h.struct_inj⟩
  · rcases List.mem_cons.mp hr with rfl | hr
    · exact hpos
    · exact h.spare_pos r hr
  · rcases List.mem_cons.mp hr with rfl | hr
    · exact List.mem_cons_self
    · exact List.mem_cons_of_mem _ (h.spare_known r hr)
  · rcases List.mem_cons.mp hr with rfl | hr
    · exact hap _ (h.known ca hca k hk)
    · exact h.spare_apart r hr ca hca k hk
  · exact List.pairwise_cons.mpr ⟨fun r hr => hap r (h.spare_known r hr), h.spare_pairwise⟩

/-- The ranges handed out do not depend on the number of calls. -/
theorem SlabInv.tick (h : SlabInv s held spare) (time : Nat) :
    SlabInv { s with time := time } held spare :=
  ⟨h.nodup, h.ok, h.range, h.apart, h.known, h.spare_pos, h.spare_known, h.spare_apart, h.spare_pairwise,
    h.kslab, h.kslab_on, h.kslab_min, h.held_nodup, h.held_live, h.cache_live, h.cache_held, h.struct_live,
    h.struct_held, h.struct_inj⟩

theorem SlabInv.delRange (h : SlabInv s held (range :: spare)) : SlabInv (s.delRange range) held spare := by
  have hpair := List.pairwise_cons.mp h.spare_pairwise
  have hpos := h.spare_pos range List.mem_cons_self
  refine ⟨h.nodup, h.ok, h.range, h.apart, fun ca hca k hk => ?_,
    fun r hr => h.spare_pos r (List.mem_cons_of_mem _ hr), fun r hr => ?_,
    fun r hr => h.spare_apart r (List.mem_cons_of_mem _ hr), hpair.2, h.kslab, h.kslab_on, h.kslab_min,
    h.held_nodup, h.held_live, h.cache_live, h.cache_held, h.struct_live, h.struct_held, h.struct_inj⟩
  · have hne := (h.spare_apart range List.mem_cons_self ca hca k hk).ne hpos
    exact (List.mem_erase_of_ne (Ne.symm hne)).mpr (h.known ca hca k hk)
  · have hne := (hpair.1 r hr).ne hpos
    exact (List.mem_erase_of_ne (Ne.symm hne)).mpr (h.spare_known r (List.mem_cons_of_mem _ hr))

end Ranges

/-! ## Slabs -/

section Slabs

variable {c' : KslabCache PageRange} {slab : Kslab PageRange} {base addr : Nat} {range : PageRange}

/-- A cache is replaced by one with the same objects in use: what an owner needs to know of the new slabs. -/
structure SlabsOk (s : SlabSystem) (held : List Nat) (spare : List PageRange) (ca : Nat)
    (c' : KslabCache PageRange) : Prop where
  ok : c'.Ok
  params : (s.cache ca).SameParams c'
  allocated : ∀ a, c'.Allocated a ↔ (s.cache ca).Allocated a
  range : ∀ k ∈ c'.keys, k.2.2 = ⟨k.2.1, (s.cache ca).nbPagesPerSlab⟩
  apart : ∀ ca' ∈ s.cacheList, ca ≠ ca' → ∀ k ∈ c'.keys, ∀ k' ∈ (s.cache ca').keys, k.2.2.Apart k'.2.2
  known : ∀ k ∈ c'.keys, k.2.2 ∈ s.ranges
  spare_pos : ∀ r ∈ spare, 0 < r.nbPages
  spare_known : ∀ r ∈ spare, r ∈ s.ranges
  spare_apart : ∀ r ∈ spare, ∀ ca' ∈ s.cacheList, ca ≠ ca' → ∀ k ∈ (s.cache ca').keys, r.Apart k.2.2
  spare_new : ∀ r ∈ spare, ∀ k ∈ c'.keys, r.Apart k.2.2
  spare_pairwise : spare.Pairwise PageRange.Apart
  held_nodup : held.Nodup
  held_live : ∀ a ∈ held, s.Live a
  cache_held : ∀ ca' ∈ s.cacheList, ca' ∉ held
  struct_live : ∀ a r, (s.setCache ca c').StructAt a r → (s.cache s.cacheOfStructKslab).Allocated a
  struct_held : ∀ a r, (s.setCache ca c').StructAt a r → a ∉ held ∧ a ∉ s.cacheList
  struct_inj : ∀ a r r', (s.setCache ca c').StructAt a r → (s.setCache ca c').StructAt a r' → r = r'

theorem live_setCache_of_allocated (hall : ∀ a, c'.Allocated a ↔ (s.cache ca).Allocated a) (a : Nat) :
    (s.setCache ca c').Live a ↔ s.Live a := by
  have hcache : ∀ ca', ((s.setCache ca c').cache ca').Allocated a ↔ (s.cache ca').Allocated a := by
    intro ca'
    by_cases he : ca' = ca
    · subst he
      simp only [setCache, Function.update_self, hall]
    · simp only [setCache, Function.update_of_ne he]
  constructor
  · rintro ⟨ca', hca', ha⟩
    exact ⟨ca', hca', (hcache ca').mp ha⟩
  · rintro ⟨ca', hca', ha⟩
    exact ⟨ca', hca', (hcache ca').mpr ha⟩

theorem SlabsOk.inv {held₀ : List Nat} {spare₀ : List PageRange} (hs : SlabsOk s held spare ca c')
    (h : SlabInv s held₀ spare₀) : SlabInv (s.setCache ca c') held spare := by
  have hsame := sameParams_setCache hs.params
  have hlive := live_setCache_of_allocated hs.allocated
  have hkslab : ∀ a, ((s.setCache ca c').cache s.cacheOfStructKslab).Allocated a ↔
      (s.cache s.cacheOfStructKslab).Allocated a := by
    intro a
    by_cases he : s.cacheOfStructKslab = ca
    · rw [he]
      simp only [setCache, Function.update_self, hs.allocated]
    · simp only [setCache, Function.update_of_ne he]
  refine ⟨h.nodup, fun ca' hca' => ?_, fun ca' hca' k hk => ?_, fun c1 h1 c2 h2 hne k hk k' hk' => ?_,
    fun ca' hca' k hk => ?_, hs.spare_pos, hs.spare_known, fun r hr ca' hca' k hk => ?_, hs.spare_pairwise,
    h.kslab, (hsame _).onSlab.trans h.kslab_on, (hsame _).minFreeObj.trans h.kslab_min, hs.held_nodup,
    fun a ha => (hlive a).mpr (hs.held_live a ha), fun ca' hca' => (hlive ca').mpr (h.cache_live ca' hca'),
    hs.cache_held, fun a r ha => (hkslab a).mpr (hs.struct_live a r ha), hs.struct_held, hs.struct_inj⟩
  · by_cases he : ca' = ca
    · subst he
      simpa only [setCache, Function.update_self] using hs.ok
    · simpa only [setCache, Function.update_of_ne he] using h.ok ca' hca'
  · rw [(hsame ca').nbPagesPerSlab]
    by_cases he : ca' = ca
    · subst he
      simp only [setCache, Function.update_self] at hk
      exact hs.range k hk
    · simp only [setCache, Function.update_of_ne he] at hk
      exact h.range ca' hca' k hk
  · by_cases he1 : c1 = ca
    · subst he1
      simp only [setCache, Function.update_self, Function.update_of_ne (Ne.symm hne)] at hk hk'
      exact hs.apart c2 h2 hne k hk k' hk'
    · by_cases he2 : c2 = ca
      · subst he2
        simp only [setCache, Function.update_self, Function.update_of_ne hne] at hk hk'
        exact (hs.apart c1 h1 (Ne.symm hne) k' hk' k hk).symm
      · simp only [setCache, Function.update_of_ne he1, Function.update_of_ne he2] at hk hk'
        exact h.apart c1 h1 c2 h2 hne k hk k' hk'
  · by_cases he : ca' = ca
    · subst he
      simp only [setCache, Function.update_self] at hk
      exact hs.known k hk
    · simp only [setCache, Function.update_of_ne he] at hk
      exact h.known ca' hca' k hk
  · by_cases he : ca' = ca
    · subst he
      simp only [setCache, Function.update_self] at hk
      exact hs.spare_new r hr k hk
    · simp only [setCache, Function.update_of_ne he] at hk
      exact hs.spare_apart r hr ca' hca' (Ne.symm he) k hk

theorem structAt_setCache {a : Nat} {r : PageRange} (h : (s.setCache ca c').StructAt a r) :
    (c'.onSlab = false ∧ ca ∈ s.cacheList ∧ ∃ first, (a, first, r) ∈ c'.keys) ∨
      ∃ ca' ∈ s.cacheList, ca' ≠ ca ∧ (s.cache ca').onSlab = false ∧
        ∃ first, (a, first, r) ∈ (s.cache ca').keys := by
  obtain ⟨ca', hca', hoff, hk⟩ := h
  by_cases he : ca' = ca
  · subst he
    simp only [setCache, Function.update_self] at hoff hk
    exact .inl ⟨hoff, hca', hk⟩
  · simp only [setCache, Function.update_of_ne he] at hoff hk
    exact .inr ⟨ca', hca', he, hoff, hk⟩

/-- **Adding a slab** over the spare range; its structure is on the slab or was held by the caller. -/
theorem SlabInv.add (h : SlabInv s held' (⟨base, (s.cache ca).nbPagesPerSlab⟩ :: spare))
    (hca : ca ∈ s.cacheList)
    (hon : (s.cache ca).onSlab = true → held' = held ∧ addr + sizeofKslab = base + (s.cache ca).slabBytes)
    (hoff : (s.cache ca).onSlab = false → held' = addr :: held ∧
      (s.cache s.cacheOfStructKslab).Allocated addr) :
    SlabInv (s.setCache ca (cacheAddSlab (s.cache ca) base addr ⟨base, (s.cache ca).nbPagesPerSlab⟩)) held spare ∧
      ∀ a, (cacheAddSlab (s.cache ca) base addr ⟨base, (s.cache ca).nbPagesPerSlab⟩).Allocated a ↔
        (s.cache ca).Allocated a := by
  have hpair := List.pairwise_cons.mp h.spare_pairwise
  have hapart : ∀ slab ∈ (s.cache ca).slabList,
      (s.cache ca).Apart ((s.cache ca).newSlab base addr ⟨base, (s.cache ca).nbPagesPerSlab⟩) slab := by
    intro slab hslab
    have := h.spare_apart _ List.mem_cons_self ca hca _ (mem_keys.mpr ⟨slab, hslab, rfl⟩)
    rw [h.range_of_mem hca hslab] at this
    exact this
  obtain ⟨hok, hall⟩ := (h.ok ca hca).add hapart fun ho => (hon ho).2
  have hkeys : ∀ k, k ∈ (cacheAddSlab (s.cache ca) base addr ⟨base, (s.cache ca).nbPagesPerSlab⟩).keys ↔
      k = (addr, base, ⟨base, (s.cache ca).nbPagesPerSlab⟩) ∨ k ∈ (s.cache ca).keys := by
    intro k
    exact List.mem_cons
  have hsub : ∀ a ∈ held, a ∈ held' := by
    intro a ha
    cases ho : (s.cache ca).onSlab with
    | true => rwa [(hon ho).1]
    | false =>
      rw [(hoff ho).1]
      exact List.mem_cons_of_mem _ ha
  -- a structure is the new one, which the caller held, or an old one
  have hstruct : ∀ a r, (s.setCache ca (cacheAddSlab (s.cache ca) base addr
      ⟨base, (s.cache ca).nbPagesPerSlab⟩)).StructAt a r →
      ((s.cache ca).onSlab = false ∧ a = addr ∧ r = ⟨base, (s.cache ca).nbPagesPerSlab⟩) ∨ s.StructAt a r := by
    intro a r ha
    rcases structAt_setCache ha with ⟨ho, _, first, hk⟩ | ⟨ca', hca', _, ho, hk⟩
    · rcases (hkeys _).mp hk with heq | hk
      · rw [Prod.mk.injEq, Prod.mk.injEq] at heq
        exact .inl ⟨ho, heq.1, heq.2.2⟩
      · exact .inr ⟨ca, hca, ho, first, hk⟩
    · exact .inr ⟨ca', hca', ho, hk⟩
  have hnodup : held.Nodup ∧ ((s.cache ca).onSlab = false → addr ∉ held) := by
    have := h.held_nodup
    cases ho : (s.cache ca).onSlab with
    | true =>
      rw [(hon ho).1] at this
      exact ⟨this, fun hf => Bool.noConfusion hf⟩
    | false =>
      rw [(hoff ho).1, List.nodup_cons] at this
      exact ⟨this.2, fun _ => this.1⟩
  have haddr : (s.cache ca).onSlab = false → addr ∈ held' := by
    intro ho
    rw [(hoff ho).1]
    exact List.mem_cons_self
  refine ⟨SlabsOk.inv ⟨hok, rfl, hall, fun k hk => ?_, fun ca' hca' hne k hk k' hk' => ?_, fun k hk => ?_,
    fun r hr => h.spare_pos r (List.mem_cons_of_mem _ hr),
    fun r hr => h.spare_known r (List.mem_cons_of_mem _ hr),
    fun r hr ca' hca' _ => h.spare_apart r (List.mem_cons_of_mem _ hr) ca' hca', fun r hr k hk => ?_, hpair.2,
    hnodup.1, fun a ha => h.held_live a (hsub a ha), fun ca' hca' hm => h.cache_held ca' hca' (hsub ca' hm),
    fun a r ha => ?_, fun a r ha => ?_, fun a r r' ha ha' => ?_⟩ h, hall⟩
  · rcases (hkeys k).mp hk with rfl | hk
    · rfl
    · exact h.range ca hca k hk
  · rcases (hkeys k).mp hk with rfl | hk
    · exact h.spare_apart _ List.mem_cons_self ca' hca' k' hk'
    · exact h.apart ca hca ca' hca' hne k hk k' hk'
  · rcases (hkeys k).mp hk with rfl | hk
    · exact h.spare_known _ List.mem_cons_self
    · exact h.known ca hca k hk
  · rcases (hkeys k).mp hk with rfl | hk
    · exact (hpair.1 r hr).symm
    · exact h.spare_apart r (List.mem_cons_of_mem _ hr) ca hca k hk
  · rcases hstruct a r ha with ⟨ho, rfl, _⟩ | ha
    · exact (hoff ho).2
    · exact h.struct_live a r ha
  · rcases hstruct a r ha with ⟨ho, rfl, _⟩ | ha
    · exact ⟨hnodup.2 ho, fun hm => h.cache_held a hm (haddr ho)⟩
    · exact ⟨fun hm => (h.struct_held a r ha).1 (hsub a hm), (h.struct_held a r ha).2⟩
  · rcases hstruct a r ha with ⟨ho, rfl, rfl⟩ | hold
    · rcases hstruct a r' ha' with ⟨_, _, rfl⟩ | hold'
      · rfl
      · exact absurd (haddr ho) (h.struct_held a r' hold').1
    · rcases hstruct a r' ha' with ⟨ho, rfl, rfl⟩ | hold'
      · exact absurd (haddr ho) (h.struct_held a r hold).1
      · exact h.struct_inj a r r' hold hold'

/-- **Removing a slab** without objects in use: its range is spare, and the caller holds its structure when
that is not on the slab. -/
theorem SlabInv.remove (h : SlabInv s held spare) (hca : ca ∈ s.cacheList)
    (hs : slab ∈ (s.cache ca).slabList) (hfull : slab.nbFree ≥ (s.cache ca).nbObjPerSlab) :
    SlabInv (s.setCache ca (cacheRemoveSlab (s.cache ca) slab))
      (if (s.cache ca).onSlab then held else slab.addr :: held) (slab.range :: spare) ∧
      ((s.cache ca).onSlab = false → (s.cache s.cacheOfStructKslab).Allocated slab.addr) := by
  obtain ⟨hok, hperm, hall⟩ := (h.ok ca hca).remove hs hfull
  have hmem : (slab.addr, slab.firstObj, slab.range) ∈ (s.cache ca).keys := mem_keys.mpr ⟨slab, hs, rfl⟩
  have hpos : 0 < slab.range.nbPages := by
    rw [h.range_of_mem hca hs]
    exact h.nbPages_pos hca
  have hsub : ∀ k, k ∈ (cacheRemoveSlab (s.cache ca) slab).keys → k ∈ (s.cache ca).keys := by
    intro k hk
    exact hperm.mem_iff.mpr (List.mem_cons_of_mem _ hk)
  have hold : ∀ a r, (s.setCache ca (cacheRemoveSlab (s.cache ca) slab)).StructAt a r → s.StructAt a r := by
    intro a r ha
    rcases structAt_setCache ha with ⟨ho, _, first, hk⟩ | ⟨ca', hca', _, ho, hk⟩
    · exact ⟨ca, hca, ho, first, hsub _ hk⟩
    · exact ⟨ca', hca', ho, hk⟩
  -- the range of the slab is apart from those of all the slabs that stay
  have hstay : ∀ k ∈ (cacheRemoveSlab (s.cache ca) slab).keys, slab.range.Apart k.2.2 := by
    intro k hk
    obtain ⟨slab', hs', rfl⟩ := mem_keys.mp hk
    have hs'' := List.mem_of_mem_erase hs'
    have hne : slab ≠ slab' := fun he => by
      rw [he] at hs'
      exact (h.ok ca hca).slabs_nodup.not_mem_erase hs'
    have hap := (h.ok ca hca).apart.forall hs hs'' hne
    rw [h.range_of_mem hca hs, h.range_of_mem hca hs'']
    exact hap
  have hstruct : (s.cache ca).onSlab = false → s.StructAt slab.addr slab.range := by
    intro ho
    exact ⟨ca, hca, ho, slab.firstObj, hmem⟩
  -- the structure of the slab is no other slab's
  have hgone : ∀ a r, (s.setCache ca (cacheRemoveSlab (s.cache ca) slab)).StructAt a r →
      (s.cache ca).onSlab = false → a ≠ slab.addr := by
    rintro a r ha ho rfl
    have heq := h.struct_inj _ _ _ (hold _ _ ha) (hstruct ho)
    subst heq
    refine PageRange.not_apart_self hpos ?_
    rcases structAt_setCache ha with ⟨_, _, first, hk⟩ | ⟨ca', hca', hne, _, first, hk⟩
    · exact hstay _ hk
    · exact h.apart ca hca ca' hca' (Ne.symm hne) _ hmem _ hk
  have hheld : ∀ a, a ∈ (if (s.cache ca).onSlab then held else slab.addr :: held) ↔
      a ∈ held ∨ (s.cache ca).onSlab = false ∧ a = slab.addr := by
    intro a
    cases ho : (s.cache ca).onSlab with
    | true => simp
    | false => simp [or_comm]
  have hlive : (s.cache ca).onSlab = false → (s.cache s.cacheOfStructKslab).Allocated slab.addr :=
    fun ho => h.struct_live _ _ (hstruct ho)
  refine ⟨SlabsOk.inv ⟨hok, rfl, hall, fun k hk => h.range ca hca k (hsub k hk),
    fun ca' hca' hne k hk k' hk' => h.apart ca hca ca' hca' hne k (hsub k hk) k' hk',
    fun k hk => h.known ca hca k (hsub k hk), fun r hr => ?_, fun r hr => ?_,
    fun r hr ca' hca' hne k hk => ?_, fun r hr k hk => ?_, ?_, ?_, fun a ha => ?_,
    fun ca' hca' hm => ?_, fun a r ha => h.struct_live a r (hold a r ha), fun a r ha => ⟨fun hm => ?_, ?_⟩,
    fun a r r' ha ha' => h.struct_inj a r r' (hold a r ha) (hold a r' ha')⟩ h, hlive⟩
  · rcases List.mem_cons.mp hr with rfl | hr
    · exact hpos
    · exact h.spare_pos r hr
  · rcases List.mem_cons.mp hr with rfl | hr
    · exact h.known ca hca _ hmem
    · exact h.spare_known r hr
  · rcases List.mem_cons.mp hr with rfl | hr
    · exact h.apart ca hca ca' hca' hne _ hmem k hk
    · exact h.spare_apart r hr ca' hca' k hk
  · rcases List.mem_cons.mp hr with rfl | hr
    · exact hstay k hk
    · exact h.spare_apart r hr ca hca k (hsub k hk)
  · exact List.pairwise_cons.mpr ⟨fun r hr => (h.spare_apart r hr ca hca _ hmem).symm, h.spare_pairwise⟩
  · split
    · exact h.held_nodup
    · rename_i ho
      rw [Bool.not_eq_true] at ho
      exact List.nodup_cons.mpr ⟨(h.struct_held _ _ (hstruct ho)).1, h.held_nodup⟩
  · rcases (hheld a).mp ha with ha | ⟨ho, rfl⟩
    · exact h.held_live a ha
    · exact ⟨_, h.kslab, hlive ho⟩
  · rcases (hheld ca').mp hm with hm | ⟨ho, rfl⟩
    · exact h.cache_held ca' hca' hm
    · exact (h.struct_held _ _ (hstruct ho)).2 hca'
  · rcases (hheld a).mp hm with hm | ⟨ho, he⟩
    · exact (h.struct_held a r (hold a r ha)).1 hm
    · exact hgone a r ha ho he
  · exact (h.struct_held a r (hold a r ha)).2

end Slabs

/-! ## Caches -/

section Caches

variable {c : KslabCache PageRange} {newCache : Nat}

theorem not_allocated_of_no_slabs (hc : c.slabList = []) (a : Nat) : ¬ c.Allocated a := by
  rintro ⟨slab, hs, _⟩
  rw [hc] at hs
  cases hs

/-- **A new cache** without slabs; its structure was held by the caller. -/
theorem SlabInv.create (h : SlabInv s (newCache :: held) spare) (hok : c.Ok) (hc : c.slabList = []) :
    SlabInv { s.setCache newCache c with cacheList := s.cacheList ++ [newCache] } held spare := by
  have hnew : newCache ∉ s.cacheList := fun hm => h.cache_held newCache hm List.mem_cons_self
  have hnodup := List.nodup_cons.mp h.held_nodup
  have hself : (s.setCache newCache c).cache newCache = c := Function.update_self ..
  have hother : ∀ ca ∈ s.cacheList, (s.setCache newCache c).cache ca = s.cache ca := by
    intro ca hca
    have hne : ca ≠ newCache := fun he => hnew (he ▸ hca)
    exact Function.update_of_ne hne ..
  have hkeys : c.keys = [] := by rw [keys, hc, List.map_nil]
  have hmem : ∀ ca, ca ∈ s.cacheList ++ [newCache] ↔ ca ∈ s.cacheList ∨ ca = newCache := by
    intro ca
    rw [List.mem_append, List.mem_singleton]
  have hlive : ∀ a, s.Live a →
      Live { s.setCache newCache c with cacheList := s.cacheList ++ [newCache] } a := by
    rintro a ⟨ca, hca, ha⟩
    refine ⟨ca, (hmem ca).mpr (.inl hca), ?_⟩
    show ((s.setCache newCache c).cache ca).Allocated a
    rwa [hother ca hca]
  have hstruct : ∀ a r,
      StructAt { s.setCache newCache c with cacheList := s.cacheList ++ [newCache] } a r → s.StructAt a r := by
    rintro a r ⟨ca, hca, hoff, first, hk⟩
    change ((s.setCache newCache c).cache ca).onSlab = false at hoff
    change _ ∈ ((s.setCache newCache c).cache ca).keys at hk
    rcases (hmem ca).mp hca with hca | rfl
    · rw [hother ca hca] at hoff hk
      exact ⟨ca, hca, hoff, first, hk⟩
    · rw [hself, hkeys] at hk
      cases hk
  have hold : ∀ ca ∈ s.cacheList ++ [newCache], ∀ k ∈ ((s.setCache newCache c).cache ca).keys,
      ca ∈ s.cacheList ∧ k ∈ (s.cache ca).keys := by
    intro ca hca k hk
    rcases (hmem ca).mp hca with hca | rfl
    · rw [hother ca hca] at hk
      exact ⟨hca, hk⟩
    · rw [hself, hkeys] at hk
      cases hk
  have hkslab := hother _ h.kslab
  refine ⟨List.nodup_append.mpr ⟨h.nodup, List.nodup_singleton _, fun a ha b hb he => ?_⟩,
    fun ca hca => ?_, fun ca hca k hk => ?_, fun c1 h1 c2 h2 hne k hk k' hk' => ?_, fun ca hca k hk => ?_,
    h.spare_pos, h.spare_known, fun r hr ca hca k hk => ?_, h.spare_pairwise, (hmem _).mpr (.inl h.kslab),
    (congrArg onSlab hkslab).trans h.kslab_on, (congrArg minFreeObj hkslab).trans h.kslab_min, hnodup.2,
    fun a ha => hlive a (h.held_live a (List.mem_cons_of_mem _ ha)), fun ca hca => ?_, fun ca hca hm => ?_,
    fun a r ha => ?_, fun a r ha => ⟨fun hm => ?_, fun hm => ?_⟩,
    fun a r r' ha ha' => h.struct_inj a r r' (hstruct a r ha) (hstruct a r' ha')⟩
  · rw [List.mem_singleton.mp hb] at he
    exact hnew (he ▸ ha)
  · show ((s.setCache newCache c).cache ca).Ok
    rcases (hmem ca).mp hca with hca | rfl
    · rw [hother ca hca]
      exact h.ok ca hca
    · rwa [hself]
  · obtain ⟨hca', hk'⟩ := hold ca hca k hk
    show k.2.2 = ⟨k.2.1, ((s.setCache newCache c).cache ca).nbPagesPerSlab⟩
    rw [hother ca hca']
    exact h.range ca hca' k hk'
  · obtain ⟨h1', hk1⟩ := hold c1 h1 k hk
    obtain ⟨h2', hk2⟩ := hold c2 h2 k' hk'
    exact h.apart c1 h1' c2 h2' hne k hk1 k' hk2
  · obtain ⟨hca', hk'⟩ := hold ca hca k hk
    exact h.known ca hca' k hk'
  · obtain ⟨hca', hk'⟩ := hold ca hca k hk
    exact h.spare_apart r hr ca hca' k hk'
  · rcases (hmem ca).mp hca with hca | rfl
    · exact hlive ca (h.cache_live ca hca)
    · exact hlive ca (h.held_live ca List.mem_cons_self)
  · rcases (hmem ca).mp hca with hca | rfl
    · exact h.cache_held ca hca (List.mem_cons_of_mem _ hm)
    · exact hnodup.1 hm
  · show ((s.setCache newCache c).cache s.cacheOfStructKslab).Allocated a
    rw [hkslab]
    exact h.struct_live a r (hstruct a r ha)
  · exact (h.struct_held a r (hstruct a r ha)).1 (List.mem_cons_of_mem _ hm)
  · rcases (hmem a).mp hm with hm | rfl
    · exact (h.struct_held a r (hstruct a r ha)).2 hm
    · exact (h.struct_held a r (hstruct a r ha)).1 List.mem_cons_self

/-- **A cache goes** that has no slab: the caller holds its structure. -/
theorem SlabInv.dropCache (h : SlabInv s held spare) (hca : ca ∈ s.cacheList)
    (hne : ca ≠ s.cacheOfStructKslab) (hc : (s.cache ca).slabList = []) :
    SlabInv { s with cacheList := s.cacheList.erase ca } (ca :: held) spare := by
  have hsub : ∀ ca' ∈ s.cacheList.erase ca, ca' ∈ s.cacheList ∧ ca' ≠ ca := by
    intro ca' hca'
    have := (h.nodup.mem_erase_iff).mp hca'
    exact ⟨this.2, this.1⟩
  have hlive : ∀ a, s.Live a → Live { s with cacheList := s.cacheList.erase ca } a := by
    rintro a ⟨ca', hca', ha⟩
    have hne' : ca' ≠ ca := by
      rintro rfl
      exact not_allocated_of_no_slabs hc a ha
    exact ⟨ca', (h.nodup.mem_erase_iff).mpr ⟨hne', hca'⟩, ha⟩
  have hstruct : ∀ a r, StructAt { s with cacheList := s.cacheList.erase ca } a r → s.StructAt a r := by
    rintro a r ⟨ca', hca', hk⟩
    exact ⟨ca', (hsub ca' hca').1, hk⟩
  refine ⟨h.nodup.erase _, fun ca' hca' => h.ok ca' (hsub ca' hca').1,
    fun ca' hca' => h.range ca' (hsub ca' hca').1,
    fun c1 h1 c2 h2 => h.apart c1 (hsub c1 h1).1 c2 (hsub c2 h2).1,
    fun ca' hca' => h.known ca' (hsub ca' hca').1, h.spare_pos, h.spare_known,
    fun r hr ca' hca' => h.spare_apart r hr ca' (hsub ca' hca').1, h.spare_pairwise,
    (h.nodup.mem_erase_iff).mpr ⟨Ne.symm hne, h.kslab⟩, h.kslab_on, h.kslab_min,
    List.nodup_cons.mpr ⟨h.cache_held ca hca, h.held_nodup⟩, fun a ha => ?_,
    fun ca' hca' => hlive ca' (h.cache_live ca' (hsub ca' hca').1), fun ca' hca' hm => ?_,
    fun a r ha => h.struct_live a r (hstruct a r ha), fun a r ha => ⟨fun hm => ?_, fun hm => ?_⟩,
    fun a r r' ha ha' => h.struct_inj a r r' (hstruct a r ha) (hstruct a r' ha')⟩
  · rcases List.mem_cons.mp ha with rfl | ha
    · exact hlive a (h.cache_live a hca)
    · exact hlive a (h.held_live a ha)
  · rcases List.mem_cons.mp hm with rfl | hm
    · exact (hsub ca' hca').2 rfl
    · exact h.cache_held ca' (hsub ca' hca').1 hm
  · rcases List.mem_cons.mp hm with rfl | hm
    · exact (h.struct_held a r (hstruct a r ha)).2 hca
    · exact (h.struct_held a r (hstruct a r ha)).1 hm
  · exact (h.struct_held a r (hstruct a r ha)).2 (hsub a hm).1

end Caches

end Desiros.Mem
