import Desiros.Mem.KmallocInvariant

/-!
# Objects of the kernel heap

`kvmm_cache_free` and `kvmm_cache_alloc` keep the invariant of the kernel heap. A slab takes its range from the spare
ones and gives it back there; in the release of a slab its range is in limbo, while the structure of the slab is given
back. No cache has a minimum of free objects, so `kvmm_cache_alloc` never undoes an allocation.
-/

namespace Desiros.Mem

open Desiros.Library KslabCache SlabSystem Kvmm

variable {W : Type} {e : Slack} {h h' h'' : Heap W} {held held' : List Nat} {spare limbo : List PageRange} {ca a : Nat}
  {slab : Kslab PageRange} {p : PageRange} {r : KvmmRange} {E : PageMap W} {T T' : Nat → Prop}

/-! ## kvmm_cache_free -/

section Free

structure HeapFree (e : Slack) (h : Heap W) (held : List Nat) (spare limbo : List PageRange) (ca a : Nat)
    (res : Int × Heap W) : Prop where
  ret : res.1 = 0
  inv : HeapInv e res.2 held spare limbo
  touches : HeapTouches (h.slabs.Scope ca) h res.2
  allocated : ∀ b, (res.2.slabs.cache ca).Allocated b ↔ (h.slabs.cache ca).Allocated b ∧ b ≠ a
  /-- The ranges that are no slab's are the same. -/
  deletable : ∀ r, Deletable res.2.kvmm r ↔ Deletable h.kvmm r

/-- What the release of a slab needs of the function that gives back the structure of the slab. -/
def FreesHeapStruct (e : Slack) (freeStruct : Heap W → Nat → Heap W) : Prop :=
  ∀ h held spare limbo a, HeapInv e h (a :: held) spare limbo →
    (h.slabs.cache h.slabs.cacheOfStructKslab).Allocated a →
    HeapInv e (freeStruct h a) held spare limbo ∧ HeapTouches (· = h.slabs.cacheOfStructKslab) h (freeStruct h a) ∧
      ∀ r, Deletable (freeStruct h a).kvmm r ↔ Deletable h.kvmm r

variable {freeStruct : Heap W → Nat → Heap W}

theorem HeapInv.rangeAt (hi : HeapInv e h held spare limbo) (hp : p ∈ h.slabs.ranges) :
    ∃ r, h.rangeAt p = some r ∧ Backs e h.kvmm p r := by
  obtain ⟨r, hr⟩ := hi.known p hp
  refine ⟨r, ?_, hr⟩
  unfold Heap.rangeAt
  cases hfind : h.kvmm.usedList.find? fun x => x.base = p.base with
  | none =>
    rw [List.find?_eq_none] at hfind
    exact absurd (by simpa using hr.base) (hfind r hr.foreign.1)
  | some x =>
    have hbase := List.find?_some hfind
    rw [decide_eq_true_eq] at hbase
    rw [hi.ranges.inv.used_ascending.eq_of_base (List.mem_of_find?_eq_some hfind) hr.foreign.1
      (hbase.trans hr.base.symm)]

/-- The end of `cache_release_slab`: the range of the slab is deleted. -/
theorem HeapInv.releaseRange (hi : HeapInv e h held (p :: spare) (p :: limbo)) (hp : p ∉ limbo) :
    ∃ r, h.rangeAt p = some r ∧ HeapInv e ((h.setSlab r none).delRange E r) held spare limbo ∧
      ∀ x, Deletable ((h.setSlab r none).delRange E r).kvmm x ↔ Deletable h.kvmm x := by
  obtain ⟨r, hrange, hb⟩ := hi.rangeAt (hi.slabs.spare_known p List.mem_cons_self)
  obtain ⟨hinv, -, hdel⟩ := (hi.setSlab_none hp hb).delRange (E := E) hp ⟨hb.foreign, hb.base, hb.nbPages, hb.last⟩
  refine ⟨r, hrange, hinv, fun x => (hdel x).trans ?_⟩
  obtain ⟨addr, htied⟩ := hi.limbo_tied p List.mem_cons_self
  have hslab := htied.slabOf hi hb
  have hother : ∀ {x}, x ∈ h.kvmm.usedList → x ≠ r →
      (h.setSlab r none).kvmm.slabOf x.addr = h.kvmm.slabOf x.addr := by
    intro x hx hne
    have haddr : x.addr ≠ r.addr := fun he => hne (hi.ranges.inv.used_nodup.eq_of_addr hx hb.foreign.1 he)
    exact Function.update_of_ne haddr ..
  constructor
  · rintro ⟨hx, hne⟩
    exact ⟨hx.used, (hother hx.used hne).symm.trans hx.slab⟩
  · intro hx
    have hne : x ≠ r := by
      intro he
      rw [he] at hx
      cases hslab.symm.trans hx.slab
    exact ⟨⟨hx.used, (hother hx.used hne).trans hx.slab⟩, hne⟩

theorem heapReleaseSlab_spec (hi : HeapInv e h held spare limbo) (hca : ca ∈ h.slabs.cacheList)
    (hs : slab ∈ (h.slabs.cache ca).slabList) (hfull : slab.nbFree ≥ (h.slabs.cache ca).nbObjPerSlab)
    (hfree : (h.slabs.cache ca).onSlab = false → FreesHeapStruct e freeStruct) :
    HeapInv e (h.cacheReleaseSlab freeStruct E ca slab) held spare limbo ∧
      HeapTouches (h.slabs.Scope ca) h (h.cacheReleaseSlab freeStruct E ca slab) ∧
      (h.cacheReleaseSlab freeStruct E ca slab).slabs.cache ca = cacheRemoveSlab (h.slabs.cache ca) slab ∧
      ∀ r, Deletable (h.cacheReleaseSlab freeStruct E ca slab).kvmm r ↔ Deletable h.kvmm r := by
  have hremove := hi.remove hca hs hfull
  have hpos : 0 < slab.range.nbPages := by
    rw [hi.slabs.range_of_mem hca hs]
    exact hi.slabs.nbPages_pos hca
  have hp : slab.range ∉ limbo := by
    intro hm
    have hap := hi.slabs.spare_apart _ (hi.limbo_spare _ hm) ca hca _ (mem_keys.mpr ⟨slab, hs, rfl⟩)
    exact PageRange.not_apart_self hpos hap
  have htouch : HeapTouches (h.slabs.Scope ca) h
      { h with slabs := h.slabs.setCache ca (cacheRemoveSlab (h.slabs.cache ca) slab) } :=
    heapTouches_setCache (.inl rfl) rfl
  have hself : (h.slabs.setCache ca (cacheRemoveSlab (h.slabs.cache ca) slab)).cache ca =
      cacheRemoveSlab (h.slabs.cache ca) slab := Function.update_self ..
  unfold Heap.cacheReleaseSlab
  cases hon : (h.slabs.cache ca).onSlab with
  | true =>
    rw [hon, if_pos rfl] at hremove
    simp only [if_true]
    obtain ⟨r, hrange, hinv, hdel⟩ := hremove.releaseRange (E := E) hp
    rw [hrange]
    exact ⟨hinv, htouch.trans (.of_cache rfl rfl rfl rfl rfl rfl), hself, hdel⟩
  | false =>
    rw [hon] at hremove
    simp only [Bool.false_eq_true, if_false] at hremove ⊢
    have hne := hi.slabs.ne_kslab hon
    have halloc : ((h.slabs.setCache ca (cacheRemoveSlab (h.slabs.cache ca) slab)).cache
        h.slabs.cacheOfStructKslab).Allocated slab.addr := by
      have hk : (h.slabs.setCache ca (cacheRemoveSlab (h.slabs.cache ca) slab)).cache h.slabs.cacheOfStructKslab =
          h.slabs.cache h.slabs.cacheOfStructKslab := Function.update_of_ne (Ne.symm hne) ..
      rw [hk]
      exact (hi.slabs.remove hca hs hfull).2 hon
    obtain ⟨hfreed, htouch', hdel'⟩ := hfree hon _ _ _ _ _ hremove halloc
    generalize freeStruct _ slab.addr = h₁ at hfreed htouch' hdel' ⊢
    obtain ⟨r, hrange, hinv, hdel⟩ := hfreed.releaseRange (E := E) hp
    rw [hrange]
    have hscope : HeapTouches (h.slabs.Scope ca) _ h₁ := htouch'.mono fun x hx => .inr ⟨hon, hx⟩
    exact ⟨hinv, (htouch.trans hscope).trans (.of_cache rfl rfl rfl rfl rfl rfl),
      (htouch'.slabs.other ca hne).trans hself, fun r => (hdel r).trans (hdel' r)⟩

theorem heapFreeWith_spec (hi : HeapInv e h (a :: held) spare limbo) (hca : ca ∈ h.slabs.cacheList)
    (ha : (h.slabs.cache ca).Allocated a) (hfree : (h.slabs.cache ca).onSlab = false → FreesHeapStruct e freeStruct) :
    HeapFree e h held spare limbo ca a (h.cacheFreeWith freeStruct E a) := by
  obtain ⟨slab, hs, hresolve, hobj, hmem, hall, hinv⟩ := hi.give hca ha
  have hself : (h.slabs.setCache ca (cacheGiveObject (h.slabs.cache ca) slab a)).cache ca =
      cacheGiveObject (h.slabs.cache ca) slab a := Function.update_self ..
  have htouch : HeapTouches (h.slabs.Scope ca) h
      { h with slabs := h.slabs.setCache ca (cacheGiveObject (h.slabs.cache ca) slab a) } :=
    heapTouches_setCache (.inl rfl) rfl
  unfold Heap.cacheFreeWith
  rw [hresolve]
  dsimp only
  rw [hobj, Bool.not_true, if_neg Bool.false_ne_true]
  by_cases hrel : (cacheGiveObject (h.slabs.cache ca) slab a).canRelease (slab.give a) = true
  · rw [if_pos hrel]
    simp only [canRelease, Bool.and_eq_true, decide_eq_true_eq] at hrel
    obtain ⟨hinv', htouch', hcache, hdel⟩ := @heapReleaseSlab_spec _ _ _ _ _ _ _ _ E freeStruct hinv hca
      (show slab.give a ∈ ((h.slabs.setCache ca _).cache ca).slabList by rwa [hself])
      (by rw [hself]; exact hrel.1) (by rw [hself]; exact hfree)
    have hscope : (h.slabs.setCache ca (cacheGiveObject (h.slabs.cache ca) slab a)).Scope ca = h.slabs.Scope ca :=
      scope_setCache rfl
    rw [hscope] at htouch'
    refine ⟨rfl, hinv', htouch.trans htouch', fun b => ?_, hdel⟩
    dsimp only at hcache ⊢
    rw [hcache, hself, ← hall b]
    have hok := (hinv.slabs.ok ca hca)
    rw [hself] at hok
    exact (hok.remove hmem hrel.1).2.2 b
  · rw [if_neg hrel]
    refine ⟨rfl, hinv, htouch, fun b => ?_, fun _ => Iff.rfl⟩
    show ((h.slabs.setCache ca _).cache ca).Allocated b ↔ _
    rw [hself]
    exact hall b

theorem freesHeapStruct_cacheFreeWith : FreesHeapStruct e fun h a => (h.cacheFreeWith freeStruct E a).2 := by
  intro h held spare limbo a hi ha
  have hon : (h.slabs.cache h.slabs.cacheOfStructKslab).onSlab ≠ false := by
    rw [hi.slabs.kslab_on]
    exact Bool.noConfusion
  have hpost := @heapFreeWith_spec _ _ _ _ _ _ _ _ E freeStruct hi hi.slabs.kslab ha fun hoff => absurd hoff hon
  exact ⟨hpost.inv, hpost.touches.mono fun x hx => hx.elim id fun hx => absurd hx.1 hon, hpost.deletable⟩

/-- **kvmm_cache_free** takes back an object in use. -/
theorem heapCacheFree_spec (hi : HeapInv e h (a :: held) spare limbo) (hca : ca ∈ h.slabs.cacheList)
    (ha : (h.slabs.cache ca).Allocated a) : HeapFree e h held spare limbo ca a (h.kvmmCacheFree E 1 a) :=
  heapFreeWith_spec hi hca ha fun _ => freesHeapStruct_cacheFreeWith

end Free

/-! ## kvmm_cache_alloc -/

section Alloc

structure HeapAlloc (e : Slack) (h : Heap W) (held : List Nat) (spare : List PageRange) (ca : Nat)
    (res : Option Nat × Heap W) : Prop where
  touches : HeapTouches (h.slabs.Scope ca) h res.2
  null : res.1 = none → HeapInv e res.2 held spare []
  object : ∀ a ∈ res.1, HeapInv e res.2 (a :: held) spare [] ∧ ¬ h.slabs.Live a
  keeps : ∀ q ∈ spare, ∀ x, Backs e h.kvmm q x → Backs e res.2.kvmm q x
  allocated : ∀ b, (res.2.slabs.cache ca).Allocated b ↔ (h.slabs.cache ca).Allocated b ∨ res.1 = some b

/-- What the growth of a cache needs of the function that allocates the structure of the slab. -/
def AllocatesHeapStruct (e : Slack) (allocStruct : Heap W → Option Nat × Heap W) : Prop :=
  ∀ h held spare, HeapInv e h held spare [] → HeapAlloc e h held spare h.slabs.cacheOfStructKslab (allocStruct h)

structure HeapGrow (e : Slack) (h : Heap W) (held : List Nat) (spare : List PageRange) (ca : Nat)
    (res : Bool × Heap W) : Prop where
  inv : HeapInv e res.2 held spare []
  touches : HeapTouches (h.slabs.Scope ca) h res.2
  live : ∀ b, h.slabs.Live b → res.2.slabs.Live b
  keeps : ∀ q ∈ spare, ∀ x, Backs e h.kvmm q x → Backs e res.2.kvmm q x
  allocated : ∀ b, (res.2.slabs.cache ca).Allocated b ↔ (h.slabs.cache ca).Allocated b
  grown : res.1 = true → 0 < (res.2.slabs.cache ca).nbFreeObj

variable {allocStruct : Heap W → Option Nat × Heap W} {free : Heap W → Nat → Heap W}

theorem HeapTouches.live (ht : HeapTouches T h h') (hT : ∀ ca b, T ca → (h.slabs.cache ca).Allocated b →
    (h'.slabs.cache ca).Allocated b) (hb : h.slabs.Live a) : h'.slabs.Live a := by
  obtain ⟨ca, hca, ha⟩ := hb
  refine ⟨ca, ht.slabs.cacheList ▸ hca, ?_⟩
  by_cases hc : T ca
  · exact hT ca a hc ha
  · rwa [ht.slabs.other ca hc]

/-- A slab added after the range and the structure are there. -/
theorem heapGrow_add {addr : Nat} (hca : ca ∈ h.slabs.cacheList) (htouch : HeapTouches (h.slabs.Scope ca) h h')
    (hcache : h'.slabs.cache ca = h.slabs.cache ca) (hlive : ∀ b, h.slabs.Live b → h'.slabs.Live b)
    (hkeeps : ∀ q ∈ spare, ∀ x, Backs e h.kvmm q x → Backs e h'.kvmm q x)
    (hpages : r.nbPages = (h.slabs.cache ca).nbPagesPerSlab)
    (hi : HeapInv e h' held' (⟨r.base, r.nbPages⟩ :: spare) []) (hb : Backs e h'.kvmm ⟨r.base, r.nbPages⟩ r)
    (hon : (h.slabs.cache ca).onSlab = true → held' = held ∧
      addr + sizeofKslab = r.base + (h.slabs.cache ca).slabBytes)
    (hoff : (h.slabs.cache ca).onSlab = false → held' = addr :: held ∧
      (h'.slabs.cache h'.slabs.cacheOfStructKslab).Allocated addr) :
    HeapGrow e h held spare ca (true, h'.addSlab ca addr r) := by
  have hca' : ca ∈ h'.slabs.cacheList := htouch.slabs.cacheList ▸ hca
  rw [← hcache] at hon hoff hpages
  obtain ⟨hinv, hall⟩ := hi.addSlab hpages hb hca' hon hoff
  have hadd : HeapTouches (h.slabs.Scope ca) h' (h'.addSlab ca addr r) := by
    have hsame : (h'.slabs.cache ca).SameParams (cacheAddSlab (h'.slabs.cache ca) r.base addr ⟨r.base, r.nbPages⟩) := rfl
    have hscope : h.slabs.Scope ca ca := .inl rfl
    obtain ⟨h1, h2, h3⟩ := heapTouches_setCache hscope hsame
    exact ⟨h1, h2, h3⟩
  have hself : (h'.addSlab ca addr r).slabs.cache ca =
      cacheAddSlab (h'.slabs.cache ca) r.base addr ⟨r.base, r.nbPages⟩ := Function.update_self ..
  refine ⟨hinv, htouch.trans hadd, fun b hb' => ?_, fun q hq x hx => ?_, fun b => ?_, fun _ => ?_⟩
  · have hsame := @live_setCache_of_allocated h'.slabs ca
      (cacheAddSlab (h'.slabs.cache ca) r.base addr ⟨r.base, r.nbPages⟩) fun b => by
        rw [← hself]
        exact hall b
    exact (hsame b).mpr (hlive b hb')
  · have hx' := hkeeps q hq x hx
    exact hx'.of_keeps hx'.foreign
  · rw [← hcache]
    exact hall b
  · show 0 < ((h'.addSlab ca addr r).slabs.cache ca).nbFreeObj
    rw [hself]
    exact Nat.lt_of_lt_of_le (hi.slabs.ok ca hca').shape.nbObj_pos (Nat.le_add_left _ _)

theorem heapGrow_spec (hi : HeapInv e h held spare []) (hca : ca ∈ h.slabs.cacheList)
    (halloc : (h.slabs.cache ca).onSlab = false → AllocatesHeapStruct e allocStruct) :
    HeapGrow e h held spare ca (h.cacheGrow allocStruct E ca) := by
  have hnew := hi.newRange (E := E) (h.slabs.cache ca).nbPagesPerSlab
    ((h.slabs.cache ca).flags &&& (kslabCreateMap ||| kslabCreateZero) != 0)
  unfold Heap.cacheGrow
  generalize h.newRange E (h.slabs.cache ca).nbPagesPerSlab
    ((h.slabs.cache ca).flags &&& (kslabCreateMap ||| kslabCreateZero) != 0) = res at hnew
  obtain ⟨o, h₁⟩ := res
  have hcache : h₁.slabs.cache ca = h.slabs.cache ca := (hnew.touches fun _ => False).slabs.other ca id
  have hlive₁ : ∀ b, h.slabs.Live b → h₁.slabs.Live b :=
    fun b hb => (hnew.touches fun _ => False).live (fun _ _ hf => absurd hf id) hb
  have hkeeps₁ : ∀ q ∈ spare, ∀ x, Backs e h.kvmm q x → Backs e h₁.kvmm q x := fun q _ x hx => hnew.keeps q x hx
  cases o with
  | none =>
    refine ⟨hnew.null rfl, hnew.touches _, hlive₁, hkeeps₁, fun b => ?_, fun ht => Bool.noConfusion ht⟩
    show (h₁.slabs.cache ca).Allocated b ↔ _
    rw [hcache]
  | some r =>
    obtain ⟨hpages, h₁inv, hb⟩ := hnew.range r rfl
    rw [← hpages] at h₁inv hb
    dsimp only
    cases hon : (h.slabs.cache ca).onSlab with
    | true =>
      rw [hcache, hon, if_pos rfl]
      have hfits := (hi.slabs.ok ca hca).shape.fits
      rw [if_pos hon] at hfits
      exact heapGrow_add hca (hnew.touches _) hcache hlive₁ hkeeps₁ hpages h₁inv hb (fun _ => ⟨rfl, by omega⟩)
        fun hoff => absurd (hon.symm.trans hoff) Bool.noConfusion
    | false =>
      rw [hcache, hon, if_neg Bool.false_ne_true]
      have hne := hi.slabs.ne_kslab hon
      have hkslab : h₁.slabs.cacheOfStructKslab = h.slabs.cacheOfStructKslab := (hnew.touches fun _ => False).slabs.kslab
      have hpost := halloc hon _ _ _ h₁inv
      have hscope : ∀ x, h₁.slabs.Scope h₁.slabs.cacheOfStructKslab x → h.slabs.Scope ca x := by
        intro x hx
        refine .inr ⟨hon, ?_⟩
        rw [← hkslab]
        cases hx with
        | inl hx => exact hx
        | inr hx => exact hx.2
      generalize allocStruct h₁ = res at hpost ⊢
      obtain ⟨o, h₂⟩ := res
      have htouch : HeapTouches (h.slabs.Scope ca) h h₂ := (hnew.touches _).trans (hpost.touches.mono hscope)
      have hcache₂ : h₂.slabs.cache ca = h.slabs.cache ca := by
        refine (hpost.touches.slabs.other ca fun hx => ?_).trans hcache
        cases hx with
        | inl hx => exact hne (hx.trans hkslab)
        | inr hx => exact hne (hx.2.trans hkslab)
      have hb₂ := hpost.keeps _ List.mem_cons_self r hb
      have hlive₂ : ∀ b, h.slabs.Live b → h₂.slabs.Live b := by
        intro b hb'
        refine hpost.touches.live (fun x c hx hc => ?_) (hlive₁ b hb')
        have hx' : x = h₁.slabs.cacheOfStructKslab := hx.elim id And.right
        rw [hx'] at hc ⊢
        exact (hpost.allocated c).mpr (.inl hc)
      have hkeeps₂ : ∀ q ∈ spare, ∀ x, Backs e h.kvmm q x → Backs e h₂.kvmm q x :=
        fun q hq x hx => hpost.keeps q (List.mem_cons_of_mem _ hq) x (hnew.keeps q x hx)
      cases o with
      | none =>
        have h₂inv := hpost.null rfl
        obtain ⟨hinv, hkeeps, -⟩ := h₂inv.delRange (E := E) List.not_mem_nil hb₂
        refine ⟨hinv, htouch.trans (.of_cache rfl rfl rfl rfl rfl rfl), hlive₂, fun q hq x hx => ?_, fun b => ?_,
          fun ht => Bool.noConfusion ht⟩
        · have hap := (List.pairwise_cons.mp h₂inv.slabs.spare_pairwise).1 q hq
          refine hkeeps q x (hap.base_ne ?_ ?_).symm (hkeeps₂ q hq x hx)
          · exact h₂inv.slabs.spare_pos _ List.mem_cons_self
          · exact h₂inv.slabs.spare_pos q (List.mem_cons_of_mem _ hq)
        · show (h₂.slabs.cache ca).Allocated b ↔ _
          rw [hcache₂]
      | some addr =>
        obtain ⟨h₂inv, -⟩ := hpost.object addr rfl
        have hk : h₂.slabs.cacheOfStructKslab = h₁.slabs.cacheOfStructKslab := hpost.touches.slabs.kslab
        refine heapGrow_add hca htouch hcache₂ hlive₂ hkeeps₂ hpages h₂inv hb₂
          (fun ho => absurd (ho.symm.trans hon) Bool.noConfusion) fun _ => ⟨rfl, ?_⟩
        rw [hk]
        exact (hpost.allocated addr).mpr (.inr rfl)

/-- A cache with a free object hands it out. -/
theorem heapTake_spec (hi : HeapInv e h held spare []) (hca : ca ∈ h.slabs.cacheList)
    (hneeds : (h.slabs.cache ca).needsSlab = false) :
    HeapAlloc e h held spare ca (h.cacheTakeEnsureMin allocStruct free E ca) ∧
      (h.cacheTakeEnsureMin allocStruct free E ca).1 ≠ none ∧
      ((h.cacheTakeEnsureMin allocStruct free E ca).2.slabs.cache ca).nbFreeObj + 1 =
        (h.slabs.cache ca).nbFreeObj := by
  obtain ⟨obj, c, ht⟩ := exists_cacheTakeObject hneeds
  obtain ⟨-, hparams, -, hcount, -, hall⟩ := (hi.slabs.ok ca hca).take ht
  obtain ⟨-, hnot, -⟩ := hi.slabs.take hca ht
  have hself : (h.slabs.setCache ca c).cache ca = c := Function.update_self ..
  have hmin : ¬ (c.minFreeObj > 0 ∧ c.nbFreeObj = c.minFreeObj - 1) := by
    rw [hparams.minFreeObj, hi.minFree ca hca]
    exact fun hf => Nat.lt_irrefl 0 hf.1
  have heq : h.cacheTakeEnsureMin allocStruct free E ca =
      (some obj, { h with slabs := h.slabs.setCache ca c }) := by
    unfold Heap.cacheTakeEnsureMin
    rw [ht]
    dsimp only
    unfold Heap.cacheEnsureMin
    rw [hself, if_neg hmin]
  rw [heq]
  refine ⟨⟨heapTouches_setCache (.inl rfl) hparams, fun hn => absurd hn (Option.some_ne_none obj), fun a ha => ?_,
    fun _ _ x hx => hx.of_keeps hx.foreign, fun b => ?_⟩, Option.some_ne_none obj, ?_⟩
  · obtain rfl := Option.some.inj ha
    exact ⟨hi.take hca ht, hnot⟩
  · show ((h.slabs.setCache ca c).cache ca).Allocated b ↔ _
    rw [hself, hall b, Option.some_inj, eq_comm (a := obj)]
  · show ((h.slabs.setCache ca c).cache ca).nbFreeObj + 1 = _
    rw [hself, hcount]

theorem heapAllocWith_spec (hi : HeapInv e h held spare []) (hca : ca ∈ h.slabs.cacheList)
    (halloc : (h.slabs.cache ca).onSlab = false → AllocatesHeapStruct e allocStruct) :
    HeapAlloc e h held spare ca (h.cacheAllocWith allocStruct free E ca) ∧
      (0 < (h.slabs.cache ca).nbFreeObj → (h.cacheAllocWith allocStruct free E ca).1 ≠ none ∧
        ((h.cacheAllocWith allocStruct free E ca).2.slabs.cache ca).nbFreeObj + 1 = (h.slabs.cache ca).nbFreeObj) := by
  unfold Heap.cacheAllocWith
  cases hneeds : (h.slabs.cache ca).needsSlab with
  | false =>
    rw [if_neg Bool.false_ne_true]
    obtain ⟨hpost, hsome⟩ := @heapTake_spec _ _ _ _ _ _ E allocStruct free hi hca hneeds
    exact ⟨hpost, fun _ => hsome⟩
  | true =>
    rw [if_pos rfl]
    refine ⟨?_, fun hpos => ?_⟩
    · have hgrow := heapGrow_spec (E := E) hi hca halloc
      generalize h.cacheGrow allocStruct E ca = res at hgrow ⊢
      obtain ⟨ok, h₁⟩ := res
      have hinv := hgrow.inv
      have hca₁ : ca ∈ h₁.slabs.cacheList := hgrow.touches.slabs.cacheList ▸ hca
      cases ok with
      | false =>
        refine ⟨hgrow.touches, fun _ => hinv, fun a ha => absurd ha (Option.not_mem_none a), hgrow.keeps, fun b => ?_⟩
        exact (hgrow.allocated b).trans (or_iff_left (Option.some_ne_none b).symm).symm
      | true =>
        have hneeds₁ := (hinv.slabs.ok ca hca₁).not_needsSlab (hgrow.grown rfl)
        obtain ⟨hpost, -⟩ := @heapTake_spec _ _ _ _ _ _ E allocStruct free hinv hca₁ hneeds₁
        dsimp only
        refine ⟨hgrow.touches.trans (hgrow.touches.slabs.scope ca ▸ hpost.touches), hpost.null, fun a ha => ?_,
          fun q hq x hx => hpost.keeps q hq x (hgrow.keeps q hq x hx), fun b => ?_⟩
        · obtain ⟨hobj, hnot⟩ := hpost.object a ha
          exact ⟨hobj, fun hl => hnot (hgrow.live a hl)⟩
        · rw [hpost.allocated b]
          exact or_congr_left (hgrow.allocated b)
    · rw [(hi.slabs.ok ca hca).not_needsSlab hpos] at hneeds
      cases hneeds

theorem allocatesHeapStruct_kvmmCacheAlloc :
    AllocatesHeapStruct e fun h => h.kvmmCacheAlloc E 0 h.slabs.cacheOfStructKslab := by
  intro h held spare hi
  refine (heapAllocWith_spec hi hi.slabs.kslab fun hoff => ?_).1
  rw [hi.slabs.kslab_on] at hoff
  cases hoff

/-- **kvmm_cache_alloc** hands out an object nobody has, or none. -/
theorem heapCacheAlloc_spec (hi : HeapInv e h held spare []) (hca : ca ∈ h.slabs.cacheList) :
    HeapAlloc e h held spare ca (h.kvmmCacheAlloc E 1 ca) ∧
      (0 < (h.slabs.cache ca).nbFreeObj → (h.kvmmCacheAlloc E 1 ca).1 ≠ none ∧
        ((h.kvmmCacheAlloc E 1 ca).2.slabs.cache ca).nbFreeObj + 1 = (h.slabs.cache ca).nbFreeObj) :=
  heapAllocWith_spec hi hca fun _ => allocatesHeapStruct_kvmmCacheAlloc

end Alloc

/-! ## Whole pages -/

theorem heapAlloc_pages (hi : HeapInv e h held spare []) (k : Nat) (map : Bool) :
    (∀ T, HeapTouches T h (h.kvmmAlloc E k map).2) ∧
      ((h.kvmmAlloc E k map).1 = none → HeapInv e (h.kvmmAlloc E k map).2 held spare []) ∧
      ∀ a ∈ (h.kvmmAlloc E k map).1, HeapInv e (h.kvmmAlloc E k map).2 held (⟨a, k⟩ :: spare) [] := by
  have hnew := hi.newRange (E := E) k map
  unfold Heap.kvmmAlloc
  generalize h.newRange E k map = res at hnew
  obtain ⟨o, h₁⟩ := res
  cases o with
  | none => exact ⟨hnew.touches, fun _ => hnew.null rfl, fun a ha => absurd ha (Option.not_mem_none a)⟩
  | some r =>
    refine ⟨hnew.touches, fun hn => absurd hn (Option.some_ne_none _), fun a ha => ?_⟩
    obtain rfl := Option.some.inj ha
    exact (hnew.range r rfl).2.1

/-- **kfree** of whole pages: `kvmm_cache_free` finds no slab there, and the range goes. -/
theorem kfree_pages (hi : HeapInv e h held (p :: spare) []) :
    (h.kfree E p.base).1 = 0 ∧ HeapInv e (h.kfree E p.base).2 held spare [] ∧
      (∀ T, HeapTouches T h (h.kfree E p.base).2) ∧
      ∀ r, Deletable (h.kfree E p.base).2.kvmm r ↔ Deletable h.kvmm r ∧ r.base ≠ p.base := by
  have hpos := hi.slabs.spare_pos p List.mem_cons_self
  have hcov : p.Covers p.base := by
    have : 0 < p.nbPages * nbBytesPerPage := Nat.mul_pos hpos (by decide)
    unfold PageRange.Covers
    omega
  obtain ⟨r, hb, hlookup, hnone, hresolve⟩ := hi.lookup_spare List.mem_cons_self List.not_mem_nil hcov
  have hcache : h.kvmmCacheFree E 1 p.base = (-3, h) := by
    unfold Heap.kvmmCacheFree Heap.cacheFreeWith
    rw [hresolve]
  have hfree : h.kfree E p.base = (0, h.delRange E r) := by
    unfold Heap.kfree
    rw [hcache]
    show h.kvmmFree E p.base = _
    unfold Heap.kvmmFree
    rw [hlookup]
    dsimp only
    rw [if_neg (not_not.mpr hb.base), if_neg (not_not.mpr hnone)]
  obtain ⟨hinv, -, hdel⟩ := hi.delRange (E := E) List.not_mem_nil hb
  rw [hfree]
  refine ⟨rfl, hinv, fun _ => .of_cache rfl rfl rfl rfl rfl rfl, fun x => (hdel x).trans ?_⟩
  refine and_congr_right fun hx => not_congr ⟨fun he => he ▸ hb.base, fun hbase => ?_⟩
  exact hi.ranges.inv.used_ascending.eq_of_base hx.used hb.foreign.1 (hbase.trans hb.base.symm)

/-- **kfree** of an object of a cache. -/
theorem kfree_object (hi : HeapInv e h (a :: held) spare []) (hca : ca ∈ h.slabs.cacheList)
    (ha : (h.slabs.cache ca).Allocated a) : HeapFree e h held spare [] ca a (h.kfree E a) := by
  have hpost := heapCacheFree_spec (E := E) hi hca ha
  have heq : h.kfree E a = h.kvmmCacheFree E 1 a := by
    have hret := hpost.ret
    unfold Heap.kfree
    generalize h.kvmmCacheFree E 1 a = res at hret
    obtain ⟨ret, h₁⟩ := res
    dsimp only at hret
    subst hret
    rfl
  rw [heq]
  exact hpost

end Desiros.Mem
