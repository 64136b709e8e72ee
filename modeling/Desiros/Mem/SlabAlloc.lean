import Desiros.Mem.SlabGrow

/-!
# Allocating and freeing objects

`kvmm_cache_free` and `kvmm_cache_alloc` keep the invariant of the slab allocator: the object passes between
the caller and the free list of its slab, and the slabs that come and go bring their structures and ranges
with them. Below a nested call for a slab structure the recursion ends, because the structures of the slabs
of `cache_of_struct_kslab` are on the slab. A `NULL` from `kvmm_cache_alloc` leaves the objects in use as
they were, if the cache had its minimum of free objects: the allocation that fails to restore the minimum is
undone without releasing a slab, and a cache with a minimum never has to grow first.
-/

namespace Desiros.Mem

open Desiros.Library KslabCache SlabSystem

/-! ## What a call leaves alone -/

/-- Only the caches in `T` change, and those keep their parameters. -/
structure Touches (T : Nat → Prop) (s s' : SlabSystem) : Prop where
  cacheList : s'.cacheList = s.cacheList
  kslabCache : s'.cacheOfStructKslabCache = s.cacheOfStructKslabCache
  kslab : s'.cacheOfStructKslab = s.cacheOfStructKslab
  params : ∀ ca, (s.cache ca).SameParams (s'.cache ca)
  other : ∀ ca, ¬ T ca → s'.cache ca = s.cache ca

section Touches

variable {s s' s'' : SlabSystem} {T T' : Nat → Prop} {ca : Nat} {c' : KslabCache PageRange}

theorem Touches.refl (T : Nat → Prop) (s : SlabSystem) : Touches T s s :=
  ⟨rfl, rfl, rfl, fun _ => SameParams.refl _, fun _ _ => rfl⟩

theorem Touches.trans (h : Touches T s s') (h' : Touches T s' s'') : Touches T s s'' :=
  ⟨h'.cacheList.trans h.cacheList, h'.kslabCache.trans h.kslabCache, h'.kslab.trans h.kslab,
    fun ca => (h.params ca).trans (h'.params ca), fun ca hca => (h'.other ca hca).trans (h.other ca hca)⟩

theorem Touches.mono (h : Touches T s s') (hT : ∀ ca, T ca → T' ca) : Touches T' s s' :=
  ⟨h.cacheList, h.kslabCache, h.kslab, h.params, fun ca hca => h.other ca fun hc => hca (hT ca hc)⟩

theorem touches_setCache (hT : T ca) (hparams : (s.cache ca).SameParams c') : Touches T s (s.setCache ca c') := by
  refine ⟨rfl, rfl, rfl, sameParams_setCache hparams, fun ca' hca' => ?_⟩
  have hne : ca' ≠ ca := fun he => hca' (he ▸ hT)
  exact Function.update_of_ne hne ..

theorem Touches.live_iff (h : Touches (fun _ => False) s s') (b : Nat) : s'.Live b ↔ s.Live b := by
  unfold Live
  rw [h.cacheList]
  simp only [h.other _ id]

end Touches

/-- The caches a call for `ca` changes: `ca`, and that of the slab structures if `ca` needs it. -/
def SlabSystem.Scope (s : SlabSystem) (ca : Nat) (x : Nat) : Prop :=
  x = ca ∨ (s.cache ca).onSlab = false ∧ x = s.cacheOfStructKslab

theorem scope_setCache {s : SlabSystem} {ca : Nat} {c' : KslabCache PageRange}
    (h : c'.onSlab = (s.cache ca).onSlab) : (s.setCache ca c').Scope ca = s.Scope ca := by
  funext x
  simp only [Scope, setCache, Function.update_self, h]

theorem Touches.scope {T : Nat → Prop} {s s' : SlabSystem} (h : Touches T s s') (ca : Nat) :
    s'.Scope ca = s.Scope ca := by
  funext x
  simp only [Scope, (h.params ca).onSlab, h.kslab]

/-- The cache has its minimum of free objects. -/
def KslabCache.Stocked (c : KslabCache PageRange) : Prop := c.minFreeObj ≤ c.nbFreeObj

variable {s s' : SlabSystem} {held : List Nat} {spare : List PageRange} {ca a : Nat}

theorem SlabInv.ne_kslab (h : SlabInv s held spare) (hoff : (s.cache ca).onSlab = false) :
    ca ≠ s.cacheOfStructKslab := by
  rintro rfl
  rw [h.kslab_on] at hoff
  cases hoff

/-! ## kvmm_cache_free -/

section Free

structure FreePost (s : SlabSystem) (held : List Nat) (spare : List PageRange) (ca a : Nat)
    (r : Int × SlabSystem) : Prop where
  ret : r.1 = 0
  inv : SlabInv r.2 held spare
  touches : Touches (s.Scope ca) s r.2
  stocked : (s.cache ca).Stocked → (r.2.cache ca).Stocked
  /-- Below the minimum no slab is released. -/
  below : (s.cache ca).nbFreeObj < (s.cache ca).minFreeObj →
    (r.2.cache ca).nbFreeObj = (s.cache ca).nbFreeObj + 1 ∧ ∀ b, r.2.Live b ↔ s.Live b ∧ b ≠ a

/-- What the release of a slab needs of the function that gives back the structure of the slab. -/
def FreesStruct (freeStruct : SlabSystem → Nat → SlabSystem) : Prop :=
  ∀ s held spare a, SlabInv s (a :: held) spare → (s.cache s.cacheOfStructKslab).Allocated a →
    SlabInv (freeStruct s a) held spare ∧ Touches (· = s.cacheOfStructKslab) s (freeStruct s a)

variable {freeStruct : SlabSystem → Nat → SlabSystem} {slab : Kslab PageRange}

theorem cacheReleaseSlab_spec (h : SlabInv s held spare) (hca : ca ∈ s.cacheList)
    (hs : slab ∈ (s.cache ca).slabList) (hfull : slab.nbFree ≥ (s.cache ca).nbObjPerSlab)
    (hfree : (s.cache ca).onSlab = false → FreesStruct freeStruct) :
    SlabInv (cacheReleaseSlab freeStruct s ca slab) held spare ∧
      Touches (s.Scope ca) s (cacheReleaseSlab freeStruct s ca slab) ∧
      (cacheReleaseSlab freeStruct s ca slab).cache ca = cacheRemoveSlab (s.cache ca) slab := by
  obtain ⟨hinv, hlive⟩ := h.remove hca hs hfull
  have htouch : Touches (s.Scope ca) s (s.setCache ca (cacheRemoveSlab (s.cache ca) slab)) :=
    touches_setCache (.inl rfl) rfl
  have hself : (s.setCache ca (cacheRemoveSlab (s.cache ca) slab)).cache ca =
      cacheRemoveSlab (s.cache ca) slab := Function.update_self ..
  unfold cacheReleaseSlab
  cases hon : (s.cache ca).onSlab with
  | true =>
    rw [hon, if_pos rfl] at hinv
    simp only [if_true]
    exact ⟨hinv.delRange, htouch.trans ⟨rfl, rfl, rfl, fun _ => rfl, fun _ _ => rfl⟩, hself⟩
  | false =>
    rw [hon] at hinv
    simp only [Bool.false_eq_true, if_false] at hinv ⊢
    have hne := h.ne_kslab hon
    have hk : (s.setCache ca (cacheRemoveSlab (s.cache ca) slab)).cache s.cacheOfStructKslab =
        s.cache s.cacheOfStructKslab := Function.update_of_ne (Ne.symm hne) ..
    have halloc : ((s.setCache ca (cacheRemoveSlab (s.cache ca) slab)).cache
        s.cacheOfStructKslab).Allocated slab.addr := by
      rw [hk]
      exact hlive hon
    obtain ⟨hinv', htouch'⟩ := hfree hon _ _ _ _ hinv halloc
    refine ⟨hinv'.delRange, htouch.trans ⟨htouch'.cacheList, htouch'.kslabCache, htouch'.kslab,
      htouch'.params, fun x hx => htouch'.other x fun he => hx (.inr ⟨hon, he⟩)⟩, ?_⟩
    exact (htouch'.other ca hne).trans hself

theorem cacheFreeWith_spec (h : SlabInv s (a :: held) spare) (hca : ca ∈ s.cacheList)
    (ha : (s.cache ca).Allocated a) (hfree : (s.cache ca).onSlab = false → FreesStruct freeStruct) :
    FreePost s held spare ca a (cacheFreeWith freeStruct s a) := by
  obtain ⟨ca', slab, hca', hs, ha', hobj, hmem, hinv, hlive⟩ := h.give
  obtain rfl : ca' = ca := by
    obtain ⟨slab₁, hs₁, hslot₁, _⟩ := ha
    obtain ⟨slab₂, hs₂, hslot₂, _⟩ := ha'
    exact (h.unique hca' hca hs₂ hs₁ (hslot₂.covers (h.ok ca' hca').shape)
      (hslot₁.covers (h.ok ca hca).shape)).1
  have hself : (s.setCache ca' (cacheGiveObject (s.cache ca') slab a)).cache ca' =
      cacheGiveObject (s.cache ca') slab a := Function.update_self ..
  have htouch : Touches (s.Scope ca') s (s.setCache ca' (cacheGiveObject (s.cache ca') slab a)) :=
    touches_setCache (.inl rfl) rfl
  unfold cacheFreeWith
  rw [hobj]
  by_cases hrel : (cacheGiveObject (s.cache ca') slab a).canRelease (slab.give a) = true
  · rw [if_pos hrel]
    simp only [canRelease, Bool.and_eq_true, decide_eq_true_eq] at hrel
    have hmem' : slab.give a ∈
        ((s.setCache ca' (cacheGiveObject (s.cache ca') slab a)).cache ca').slabList := by rwa [hself]
    have hspec := cacheReleaseSlab_spec hinv hca' hmem' (by rw [hself]; exact hrel.1)
      (by rw [hself]; exact hfree)
    have hscope : (s.setCache ca' (cacheGiveObject (s.cache ca') slab a)).Scope ca' = s.Scope ca' :=
      scope_setCache rfl
    rw [hscope, hself] at hspec
    refine ⟨rfl, hspec.1, htouch.trans hspec.2.1, fun _ => ?_, fun hlt => ?_⟩
    · show ((cacheReleaseSlab _ _ ca' _).cache ca').Stocked
      rw [hspec.2.2]
      exact hrel.2
    · exfalso
      have hgive : (slab.give a).nbFree = slab.nbFree + 1 := rfl
      have hfreeObj : (cacheGiveObject (s.cache ca') slab a).nbFreeObj = (s.cache ca').nbFreeObj + 1 := rfl
      have hmin : (cacheGiveObject (s.cache ca') slab a).minFreeObj = (s.cache ca').minFreeObj := rfl
      omega
  · rw [if_neg hrel]
    refine ⟨rfl, hinv, htouch, fun hst => ?_, fun _ => ⟨?_, hlive⟩⟩
    · show ((s.setCache ca' (cacheGiveObject (s.cache ca') slab a)).cache ca').Stocked
      rw [hself]
      exact Nat.le_succ_of_le hst
    · show ((s.setCache ca' (cacheGiveObject (s.cache ca') slab a)).cache ca').nbFreeObj = _
      rw [hself]
      rfl

theorem freesStruct_cacheFreeWith : FreesStruct fun s a => (cacheFreeWith freeStruct s a).2 := by
  intro s held spare a h ha
  have hon : (s.cache s.cacheOfStructKslab).onSlab ≠ false := by
    rw [h.kslab_on]
    exact Bool.noConfusion
  have hpost : FreePost s held spare _ a (cacheFreeWith freeStruct s a) :=
    cacheFreeWith_spec h h.kslab ha fun hoff => absurd hoff hon
  exact ⟨hpost.inv, hpost.touches.mono fun x hx => hx.elim id fun hx => absurd hx.1 hon⟩

theorem freesStruct_kvmmCacheFree (depth : Nat) : FreesStruct fun s a => (kvmmCacheFree depth s a).2 := by
  cases depth with
  | zero => exact freesStruct_cacheFreeWith
  | succ depth => exact freesStruct_cacheFreeWith

/-- **kvmm_cache_free** takes back an object the caller holds. -/
theorem kvmmCacheFree_spec {depth : Nat} (h : SlabInv s (a :: held) spare) (hca : ca ∈ s.cacheList)
    (ha : (s.cache ca).Allocated a) (hd : (s.cache ca).onSlab = true ∨ 0 < depth) :
    FreePost s held spare ca a (kvmmCacheFree depth s a) := by
  cases depth with
  | zero =>
    have hon := hd.resolve_right (Nat.lt_irrefl 0)
    exact cacheFreeWith_spec h hca ha fun hoff => absurd (hon.symm.trans hoff) Bool.noConfusion
  | succ depth => exact cacheFreeWith_spec h hca ha fun _ => freesStruct_kvmmCacheFree depth

end Free

/-! ## cache_grow -/

section Grow

structure GrowPost (s : SlabSystem) (held : List Nat) (spare : List PageRange) (ca : Nat)
    (r : Bool × SlabSystem) : Prop where
  inv : SlabInv r.2 held spare
  touches : Touches (s.Scope ca) s r.2
  live : ∀ b, s.Live b → r.2.Live b
  allocated : ∀ b, (r.2.cache ca).Allocated b ↔ (s.cache ca).Allocated b
  failed : r.1 = false → r.2.cache ca = s.cache ca ∧ ∀ b, r.2.Live b ↔ s.Live b
  grown : r.1 = true → (r.2.cache ca).nbFreeObj = (s.cache ca).nbFreeObj + (s.cache ca).nbObjPerSlab

structure AllocPost (s : SlabSystem) (held : List Nat) (spare : List PageRange) (ca : Nat)
    (r : Option Nat × SlabSystem) : Prop where
  touches : Touches (s.Scope ca) s r.2
  stocked : (r.2.cache ca).Stocked
  null : r.1 = none → SlabInv r.2 held spare ∧ ∀ b, r.2.Live b ↔ s.Live b
  object : ∀ a, r.1 = some a → SlabInv r.2 (a :: held) spare ∧ (r.2.cache ca).Allocated a ∧ ¬ s.Live a ∧
    ∀ b, s.Live b → r.2.Live b

/-- What the growth of a cache needs of the function that allocates the structure of the slab. -/
def AllocatesStruct (allocStruct : SlabSystem → Option Nat × SlabSystem) : Prop :=
  ∀ s held spare, SlabInv s held spare → AllocPost s held spare s.cacheOfStructKslab (allocStruct s)

variable {allocStruct : SlabSystem → Option Nat × SlabSystem} {S : RangeSource}

theorem SlabInv.newRange (h : SlabInv s held spare) {n : Nat} (hn : 0 < n) :
    ∃ s', Touches (fun _ => False) s s' ∧
      ((s.newRange S n = (none, s') ∧ SlabInv s' held spare) ∨
        ∃ base, s.newRange S n = (some ⟨base, n⟩, s') ∧ SlabInv s' held (⟨base, n⟩ :: spare)) := by
  rcases newRange_cases S s n with hnew | ⟨base, hap, hnew⟩
  · refine ⟨_, ?_, .inl ⟨hnew, h.tick _⟩⟩
    exact ⟨rfl, rfl, rfl, fun _ => rfl, fun _ _ => rfl⟩
  · refine ⟨_, ?_, .inr ⟨base, hnew, h.addRange hn hap _⟩⟩
    exact ⟨rfl, rfl, rfl, fun _ => rfl, fun _ _ => rfl⟩

/-- A slab added after the range and the structure are there. -/
theorem growPost_add {base addr : Nat} {held' : List Nat} (hca : ca ∈ s.cacheList)
    (htouch : Touches (s.Scope ca) s s') (hcache : s'.cache ca = s.cache ca)
    (hlive : ∀ b, s.Live b → s'.Live b)
    (h : SlabInv s' held' (⟨base, (s.cache ca).nbPagesPerSlab⟩ :: spare))
    (hon : (s.cache ca).onSlab = true → held' = held ∧ addr + sizeofKslab = base + (s.cache ca).slabBytes)
    (hoff : (s.cache ca).onSlab = false → held' = addr :: held ∧
      (s'.cache s'.cacheOfStructKslab).Allocated addr) :
    GrowPost s held spare ca
      (true, s'.setCache ca (cacheAddSlab (s.cache ca) base addr ⟨base, (s.cache ca).nbPagesPerSlab⟩)) := by
  rw [← hcache] at h hon hoff
  have hca' : ca ∈ s'.cacheList := by rwa [htouch.cacheList]
  obtain ⟨hinv, hall⟩ := h.add hca' hon hoff
  have hlive' := live_setCache_of_allocated hall
  have hparams : (s'.cache ca).SameParams
      (cacheAddSlab (s'.cache ca) base addr ⟨base, (s'.cache ca).nbPagesPerSlab⟩) := rfl
  rw [hcache] at hinv hall hlive' hparams
  refine ⟨hinv, htouch.trans (touches_setCache (.inl rfl) (hcache ▸ hparams)),
    fun b hb => (hlive' b).mpr (hlive b hb), fun b => ?_, fun hf => Bool.noConfusion hf, fun _ => ?_⟩
  · simp only [setCache, Function.update_self]
    exact hall b
  · simp only [setCache, Function.update_self]
    rfl

theorem cacheGrow_spec (h : SlabInv s held spare) (hca : ca ∈ s.cacheList)
    (halloc : (s.cache ca).onSlab = false → AllocatesStruct allocStruct) :
    GrowPost s held spare ca (cacheGrow allocStruct S s ca) := by
  obtain ⟨s₁, hsame, ⟨hnew, h₁⟩ | ⟨base, hnew, h₁⟩⟩ := h.newRange (S := S) (h.nbPages_pos hca)
  · unfold cacheGrow
    rw [hnew]
    exact ⟨h₁, hsame.mono fun _ => False.elim, fun b hb => (hsame.live_iff b).mpr hb,
      fun b => by rw [hsame.other ca id], fun _ => ⟨hsame.other ca id, hsame.live_iff⟩,
      fun ht => Bool.noConfusion ht⟩
  · unfold cacheGrow
    rw [hnew]
    have hca₁ : ca ∈ s₁.cacheList := by rwa [hsame.cacheList]
    have hcache := hsame.other ca id
    cases hon : (s.cache ca).onSlab with
    | true =>
      simp only [hcache, hon, if_true]
      have hfits := (h.ok ca hca).shape.fits
      rw [if_pos hon] at hfits
      exact growPost_add hca (hsame.mono fun _ => False.elim) hcache (fun b hb => (hsame.live_iff b).mpr hb) h₁
        (fun _ => ⟨rfl, by omega⟩) fun hoff => absurd (hon.symm.trans hoff) Bool.noConfusion
    | false =>
      simp only [hcache, hon, Bool.false_eq_true, if_false]
      have hne := h.ne_kslab hon
      have hpost := halloc hon _ _ _ h₁
      have hscope : ∀ x, s₁.Scope s₁.cacheOfStructKslab x → s.Scope ca x := by
        intro x hx
        refine .inr ⟨hon, ?_⟩
        rw [← hsame.kslab]
        rcases hx with hx | ⟨_, hx⟩
        · exact hx
        · exact hx
      generalize allocStruct s₁ = r at hpost ⊢
      obtain ⟨o, s₂⟩ := r
      have htouch : Touches (s.Scope ca) s s₂ :=
        (hsame.mono fun _ => False.elim).trans (hpost.touches.mono hscope)
      have hcache₂ : s₂.cache ca = s.cache ca := by
        refine (hpost.touches.other ca fun hx => ?_).trans hcache
        rcases hx with hx | ⟨_, hx⟩
        · exact hne (hx.trans hsame.kslab)
        · exact hne (hx.trans hsame.kslab)
      cases o with
      | none =>
        obtain ⟨h₂, hlive⟩ := hpost.null rfl
        have hlive' : ∀ b, (s₂.delRange ⟨base, (s.cache ca).nbPagesPerSlab⟩).Live b ↔ s.Live b :=
          fun b => (hlive b).trans (hsame.live_iff b)
        refine ⟨h₂.delRange, htouch.trans ⟨rfl, rfl, rfl, fun _ => rfl, fun _ _ => rfl⟩,
          fun b hb => (hlive' b).mpr hb, fun b => ?_, fun _ => ⟨hcache₂, hlive'⟩, fun ht => Bool.noConfusion ht⟩
        show (s₂.cache ca).Allocated b ↔ _
        rw [hcache₂]
      | some addr =>
        obtain ⟨h₂, hallocated, _, hlive⟩ := hpost.object addr rfl
        have hk : s₂.cacheOfStructKslab = s₁.cacheOfStructKslab := hpost.touches.kslab
        simp only [hcache₂]
        exact growPost_add hca htouch hcache₂ (fun b hb => hlive b ((hsame.live_iff b).mpr hb)) h₂
          (fun ho => absurd (ho.symm.trans hon) Bool.noConfusion) fun _ => ⟨rfl, by rwa [hk]⟩

end Grow

/-! ## kvmm_cache_alloc -/

section Alloc

variable {allocStruct : SlabSystem → Option Nat × SlabSystem} {S : RangeSource} {depth : Nat}

/-- The object is taken, and the cache falls below its minimum or not. -/
theorem cacheTakeEnsureMin_spec (h : SlabInv s held spare) (hca : ca ∈ s.cacheList)
    (hneeds : (s.cache ca).needsSlab = false) (hst : (s.cache ca).Stocked)
    (halloc : (s.cache ca).onSlab = false → AllocatesStruct allocStruct)
    (hd : (s.cache ca).onSlab = true ∨ 0 < depth) :
    AllocPost s held spare ca
      (cacheTakeEnsureMin allocStruct (fun s obj => (kvmmCacheFree depth s obj).2) S s ca) := by
  obtain ⟨obj, c, ht⟩ := exists_cacheTakeObject hneeds
  obtain ⟨_, hparams, _, hnb, _, hall⟩ := (h.ok ca hca).take ht
  obtain ⟨h₁, hnot, hlive₁⟩ := h.take hca ht
  have hself : (s.setCache ca c).cache ca = c := Function.update_self ..
  have htouch₁ : Touches (s.Scope ca) s (s.setCache ca c) := touches_setCache (.inl rfl) hparams
  have hscope : (s.setCache ca c).Scope ca = s.Scope ca := scope_setCache hparams.onSlab
  have hobj : ((s.setCache ca c).cache ca).Allocated obj := by
    rw [hself]
    exact (hall obj).mpr (.inr rfl)
  unfold cacheTakeEnsureMin
  rw [ht]
  simp only
  unfold cacheEnsureMin
  rw [hself]
  by_cases hmin : c.minFreeObj > 0 ∧ c.nbFreeObj = c.minFreeObj - 1
  · rw [if_pos hmin]
    have hgrow : GrowPost (s.setCache ca c) (obj :: held) spare ca
        (cacheGrow allocStruct S (s.setCache ca c) ca) :=
      cacheGrow_spec h₁ hca (by rw [hself, hparams.onSlab]; exact halloc)
    generalize cacheGrow allocStruct S (s.setCache ca c) ca = r at hgrow ⊢
    obtain ⟨b, s₂⟩ := r
    have htouch₂ : Touches (s.Scope ca) (s.setCache ca c) s₂ := hscope ▸ hgrow.touches
    cases b with
    | true =>
      -- one slab more has at least one object more
      have hgrown : (s₂.cache ca).nbFreeObj = _ := hgrow.grown rfl
      have hpos := (h₁.ok ca hca).shape.nbObj_pos
      rw [hself] at hgrown hpos
      refine ⟨htouch₁.trans htouch₂, ?_, fun hn => (by cases hn), fun a ha => ?_⟩
      · show (s₂.cache ca).minFreeObj ≤ (s₂.cache ca).nbFreeObj
        rw [(hgrow.touches.params ca).minFreeObj, hself]
        omega
      · obtain rfl := Option.some.inj ha
        exact ⟨hgrow.inv, (hgrow.allocated obj).mpr hobj, hnot,
          fun b hb => hgrow.live b ((hlive₁ b).mpr (.inl hb))⟩
    | false =>
      -- the object goes back, and no slab with it
      obtain ⟨hsame, hlive₂⟩ := hgrow.failed rfl
      have hcache₂ : s₂.cache ca = c := hsame.trans hself
      have hfree : FreePost s₂ held spare ca obj (kvmmCacheFree depth s₂ obj) :=
        kvmmCacheFree_spec hgrow.inv (hgrow.touches.cacheList ▸ hca) ((hgrow.allocated obj).mpr hobj)
          (by rw [hcache₂, hparams.onSlab]; exact hd)
      simp only
      generalize kvmmCacheFree depth s₂ obj = r at hfree ⊢
      have htouch₃ : Touches (s.Scope ca) s₂ r.2 := (htouch₁.trans htouch₂).scope ca ▸ hfree.touches
      obtain ⟨hnb₃, hlive₃⟩ := hfree.below (by rw [hcache₂]; omega)
      refine ⟨(htouch₁.trans htouch₂).trans htouch₃, ?_, fun _ => ⟨hfree.inv, fun b => ?_⟩,
        fun a ha => (by cases ha)⟩
      · show (r.2.cache ca).minFreeObj ≤ (r.2.cache ca).nbFreeObj
        rw [hnb₃, (htouch₃.params ca).minFreeObj, hcache₂]
        omega
      · show r.2.Live b ↔ _
        rw [hlive₃, hlive₂, hlive₁]
        constructor
        · rintro ⟨hb | hb, hne⟩
          · exact hb
          · exact absurd hb hne
        · intro hb
          exact ⟨.inl hb, fun he => hnot (he ▸ hb)⟩
  · rw [if_neg hmin]
    refine ⟨htouch₁, ?_, fun hn => (by cases hn), fun a ha => ?_⟩
    · show ((s.setCache ca c).cache ca).Stocked
      rw [hself]
      have := hparams.minFreeObj
      unfold Stocked at hst ⊢
      omega
    · obtain rfl := Option.some.inj ha
      exact ⟨h₁, hobj, hnot, fun b hb => (hlive₁ b).mpr (.inl hb)⟩

/-- Without a minimum the object is not given back. -/
theorem cacheTakeEnsureMin_ne_none (allocStruct : SlabSystem → Option Nat × SlabSystem)
    (free : SlabSystem → Nat → SlabSystem) (S : RangeSource) (h : SlabInv s held spare)
    (hca : ca ∈ s.cacheList) (hneeds : (s.cache ca).needsSlab = false) (hmin : (s.cache ca).minFreeObj = 0) :
    (cacheTakeEnsureMin allocStruct free S s ca).1 ≠ none := by
  obtain ⟨obj, c, ht⟩ := exists_cacheTakeObject hneeds
  obtain ⟨_, hparams, _⟩ := (h.ok ca hca).take ht
  have hself : (s.setCache ca c).cache ca = c := Function.update_self ..
  unfold cacheTakeEnsureMin
  rw [ht]
  simp only
  unfold cacheEnsureMin
  rw [hself, hparams.minFreeObj, hmin, if_neg (fun hf => Nat.lt_irrefl 0 hf.1)]
  exact Option.some_ne_none obj

theorem cacheAllocWith_spec (h : SlabInv s held spare) (hca : ca ∈ s.cacheList) (hst : (s.cache ca).Stocked)
    (halloc : (s.cache ca).onSlab = false → AllocatesStruct allocStruct)
    (hd : (s.cache ca).onSlab = true ∨ 0 < depth) :
    AllocPost s held spare ca
      (cacheAllocWith allocStruct (fun s obj => (kvmmCacheFree depth s obj).2) S s ca) := by
  unfold cacheAllocWith
  cases hneeds : (s.cache ca).needsSlab with
  | false =>
    rw [if_neg Bool.false_ne_true]
    exact cacheTakeEnsureMin_spec h hca hneeds hst halloc hd
  | true =>
    rw [if_pos rfl]
    -- a cache that needs a slab has no free object, so it has no minimum
    have hzero : (s.cache ca).nbFreeObj = 0 := by
      by_contra hne
      rw [(h.ok ca hca).not_needsSlab (Nat.pos_of_ne_zero hne)] at hneeds
      cases hneeds
    have hgrow : GrowPost s held spare ca (cacheGrow allocStruct S s ca) := cacheGrow_spec h hca halloc
    generalize cacheGrow allocStruct S s ca = r at hgrow ⊢
    obtain ⟨b, s₁⟩ := r
    cases b with
    | false =>
      obtain ⟨hsame, hlive⟩ := hgrow.failed rfl
      refine ⟨hgrow.touches, ?_, fun _ => ⟨hgrow.inv, hlive⟩, fun a ha => (by cases ha)⟩
      show (s₁.cache ca).Stocked
      rwa [hsame]
    | true =>
      have hgrown := hgrow.grown rfl
      have hpos := (h.ok ca hca).shape.nbObj_pos
      have hca₁ : ca ∈ s₁.cacheList := hgrow.touches.cacheList ▸ hca
      have hon := (hgrow.touches.params ca).onSlab
      have hst₁ : (s₁.cache ca).Stocked := by
        unfold Stocked at hst ⊢
        rw [(hgrow.touches.params ca).minFreeObj]
        omega
      have hpost : AllocPost s₁ held spare ca
          (cacheTakeEnsureMin allocStruct (fun s obj => (kvmmCacheFree depth s obj).2) S s₁ ca) :=
        cacheTakeEnsureMin_spec hgrow.inv hca₁ ((hgrow.inv.ok ca hca₁).not_needsSlab (by omega)) hst₁
          (by rwa [hon]) (by rwa [hon])
      have hsome := cacheTakeEnsureMin_ne_none allocStruct (fun s obj => (kvmmCacheFree depth s obj).2) S
        hgrow.inv hca₁ ((hgrow.inv.ok ca hca₁).not_needsSlab (by omega))
        (by rw [(hgrow.touches.params ca).minFreeObj]; unfold Stocked at hst; omega)
      refine ⟨hgrow.touches.trans ((hgrow.touches.scope ca) ▸ hpost.touches), hpost.stocked,
        fun hn => absurd hn hsome, fun a ha => ?_⟩
      obtain ⟨hinv, hobj, hnot, hlive⟩ := hpost.object a ha
      exact ⟨hinv, hobj, fun hb => hnot (hgrow.live a hb), fun b hb => hlive b (hgrow.live b hb)⟩

theorem allocatesStruct_kvmmCacheAlloc (depth : Nat) (S : RangeSource) :
    AllocatesStruct fun s => kvmmCacheAlloc depth S s s.cacheOfStructKslab := by
  intro s held spare h
  have hst : (s.cache s.cacheOfStructKslab).Stocked := by
    unfold Stocked
    rw [h.kslab_min]
    exact Nat.zero_le _
  have hoff : (s.cache s.cacheOfStructKslab).onSlab = false → False := by
    rw [h.kslab_on]
    exact Bool.noConfusion
  cases depth with
  | zero => exact cacheAllocWith_spec h h.kslab hst (fun ho => (hoff ho).elim) (.inl h.kslab_on)
  | succ depth => exact cacheAllocWith_spec h h.kslab hst (fun ho => (hoff ho).elim) (.inl h.kslab_on)

/-- **kvmm_cache_alloc** hands out an object nobody has, or changes nothing about the objects in use. -/
theorem kvmmCacheAlloc_spec (h : SlabInv s held spare) (hca : ca ∈ s.cacheList) (hst : (s.cache ca).Stocked)
    (hd : (s.cache ca).onSlab = true ∨ 0 < depth) :
    AllocPost s held spare ca (kvmmCacheAlloc depth S s ca) := by
  cases depth with
  | zero =>
    have hon := hd.resolve_right (Nat.lt_irrefl 0)
    exact cacheAllocWith_spec h hca hst (fun hoff => absurd (hon.symm.trans hoff) Bool.noConfusion) hd
  | succ depth =>
    exact cacheAllocWith_spec h hca hst (fun _ => allocatesStruct_kvmmCacheAlloc depth S) hd

end Alloc

end Desiros.Mem
