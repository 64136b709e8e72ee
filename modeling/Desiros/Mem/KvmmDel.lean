import Desiros.Mem.KvmmInvariant

/-!
# Deleting a range

`kvmm_del_range` keeps the invariant of the ranges and, at its end, no two free ranges touch. Each structure
it saves goes back to the range cache, which may empty a slab; the range of that slab is deleted too, in a
later iteration. The slabs and the ranges to free together never become more, so the loop ends.
-/

namespace Desiros.Mem

open Desiros.Library KslabCache Kvmm

variable {W : Type} {s s' : Kvmm W} {held : List Nat} {pending pending' : List KvmmRange}
  {r p q : KvmmRange} {pre post : List KvmmRange} {a : Nat} {e : Slack}

/-! ## Which structures go back, and which slabs that releases -/

/-- Structures given back one after the other: each is in use then, and the slab that it empties is released if the
other slabs have enough free objects. -/
inductive GivesBack : KslabCache (Option Nat) → List Nat → KslabCache (Option Nat) → List (Kslab (Option Nat)) → Prop
  | nil (c : KslabCache (Option Nat)) : GivesBack c [] c []
  | keep {c c' : KslabCache (Option Nat)} {slab : Kslab (Option Nat)} {a : Nat} {l : List Nat}
      {released : List (Kslab (Option Nat))} (hs : slab ∈ c.slabList) (hslot : c.IsSlot slab a) (hfree : a ∉ slab.free)
      (hcan : (cacheGiveObject c slab a).canRelease (slab.give a) = false)
      (h : GivesBack (cacheGiveObject c slab a) l c' released) : GivesBack c (a :: l) c' released
  | release {c c' : KslabCache (Option Nat)} {slab : Kslab (Option Nat)} {a : Nat} {l : List Nat}
      {released : List (Kslab (Option Nat))} (hs : slab ∈ c.slabList) (hslot : c.IsSlot slab a) (hfree : a ∉ slab.free)
      (hcan : (cacheGiveObject c slab a).canRelease (slab.give a) = true)
      (h : GivesBack (cacheRemoveSlab (cacheGiveObject c slab a) (slab.give a)) l c' released) :
      GivesBack c (a :: l) c' (slab.give a :: released)

theorem GivesBack.append {c c' c'' : KslabCache (Option Nat)} {l l' : List Nat}
    {released released' : List (Kslab (Option Nat))} (h : GivesBack c l c' released)
    (h' : GivesBack c' l' c'' released') : GivesBack c (l ++ l') c'' (released ++ released') := by
  induction h with
  | nil c => exact h'
  | keep hs hslot hfree hcan _ ih => exact .keep hs hslot hfree hcan (ih h')
  | release hs hslot hfree hcan _ ih => exact .release hs hslot hfree hcan (ih h')

/-- The structures `l` are those that are no range's any more, and the used ranges of the slabs `released` are to be
deleted. -/
structure Returns (s : Kvmm W) (held : List Nat) (pending : List KvmmRange) (s' : Kvmm W) (held' : List Nat)
    (pending' : List KvmmRange) (l : List Nat) (released : List (Kslab (Option Nat))) : Prop where
  gives : GivesBack s.rangeCache l s'.rangeCache released
  structs : ((s.all pending).map (·.addr) ++ held).Perm (l ++ ((s'.all pending').map (·.addr) ++ held'))
  used : ∀ x, x ∈ s'.usedList ↔ x ∈ s.usedList ∧ ∀ slab ∈ released, slab.range ≠ some x.addr
  pending : ∀ x, x ∈ pending' ↔ x ∈ pending ∨ x ∈ s.usedList ∧ ∃ slab ∈ released, slab.range = some x.addr
  world : s'.world = s.world

theorem Returns.refl (s : Kvmm W) (held : List Nat) (pending : List KvmmRange) :
    Returns s held pending s held pending [] [] := by
  refine ⟨.nil _, List.Perm.refl _, fun x => ?_, fun x => ?_, rfl⟩
  · simp
  · simp

theorem Returns.trans {s'' : Kvmm W} {held' held'' : List Nat} {pending'' : List KvmmRange} {l l' : List Nat}
    {released released' : List (Kslab (Option Nat))} (h : Returns s held pending s' held' pending' l released)
    (h' : Returns s' held' pending' s'' held'' pending'' l' released') :
    Returns s held pending s'' held'' pending'' (l ++ l') (released ++ released') := by
  refine ⟨h.gives.append h'.gives, ?_, fun x => ?_, fun x => ?_, h'.world.trans h.world⟩
  · rw [List.append_assoc]
    exact h.structs.trans (h'.structs.append_left l)
  · rw [h'.used x, h.used x]
    simp only [List.forall_mem_append, and_assoc]
  · rw [h'.pending x, h.pending x, h.used x]
    simp only [List.mem_append, or_and_right, exists_or]
    constructor
    · rintro ((hp | hx) | ⟨⟨hx, -⟩, hrel⟩)
      · exact .inl hp
      · exact .inr ⟨hx.1, .inl hx.2⟩
      · exact .inr ⟨hx, .inr hrel⟩
    · rintro (hp | ⟨hx, hrel | hrel⟩)
      · exact .inl (.inl hp)
      · exact .inl (.inr ⟨hx, hrel⟩)
      · by_cases hfirst : ∃ slab ∈ released, slab.range = some x.addr
        · exact .inl (.inr ⟨hx, hfirst⟩)
        · exact .inr ⟨⟨hx, fun slab hs he => hfirst ⟨slab, hs, he⟩⟩, hrel⟩

/-- The structure of a free range that is merged is one more that is held. -/
theorem Returns.of_merge {free free' : List KvmmRange} {held' : List Nat} {l : List Nat}
    {released : List (Kslab (Option Nat))}
    (h : Returns { s with freeList := free' } (a :: held) pending s' held' pending' l released)
    (hperm : (free.map (·.addr)).Perm (a :: free'.map (·.addr))) :
    Returns { s with freeList := free } held pending s' held' pending' l released := by
  refine ⟨h.gives, List.Perm.trans ?_ h.structs, h.used, h.pending, h.world⟩
  unfold all
  simp only [List.map_append, List.append_assoc]
  refine (hperm.append_right _).trans ?_
  rw [List.cons_append]
  refine List.perm_middle.symm.trans (List.Perm.append_left _ ?_)
  refine List.perm_middle.symm.trans (List.Perm.append_left _ ?_)
  exact List.perm_middle.symm

/-- What a part of `kvmm_del_range` keeps: the invariant, the addresses in the ranges, the used ranges but those of
the range cache, and the count of slabs and ranges to free. -/
structure DelPost (e : Slack) (s : Kvmm W) (held₀ : List Nat) (pending : List KvmmRange) (s' : Kvmm W)
    (held : List Nat) (pending' : List KvmmRange) : Prop where
  inv : KvmmInvWith e s' held pending'
  covered : ∀ a, s'.Covered pending' a ↔ s.Covered pending a
  count : s'.rangeCache.slabList.length + pending'.length ≤ s.rangeCache.slabList.length + pending.length
  low : min s.rangeCache.nbFreeObj 2 ≤ s'.rangeCache.nbFreeObj
  used : ∀ r ∈ s'.usedList, r ∈ s.usedList ∧ s'.slabOf r.addr = s.slabOf r.addr
  keeps : Keeps s s'
  returns : ∃ l released, Returns s held₀ pending s' held pending' l released

theorem DelPost.refl (h : KvmmInvWith e s held pending) : DelPost e s held pending s held pending :=
  ⟨h, fun _ => Iff.rfl, Nat.le_refl _, Nat.min_le_left _ _, fun _ hr => ⟨hr, rfl⟩, .refl s,
    [], [], .refl s held pending⟩

theorem DelPost.trans {s'' : Kvmm W} {held₀ held' : List Nat} {pending'' : List KvmmRange}
    (h : DelPost e s held₀ pending s' held pending') (h' : DelPost e s' held pending' s'' held' pending'') :
    DelPost e s held₀ pending s'' held' pending'' := by
  obtain ⟨l, released, hret⟩ := h.returns
  obtain ⟨l', released', hret'⟩ := h'.returns
  refine ⟨h'.inv, fun a => (h'.covered a).trans (h.covered a), Nat.le_trans h'.count h.count, ?_, fun r hr => ?_,
    h.keeps.trans h'.keeps, _, _, hret.trans hret'⟩
  · have h1 := h.low
    have h2 := h'.low
    omega
  · obtain ⟨hr', hslab'⟩ := h'.used r hr
    obtain ⟨hr'', hslab''⟩ := h.used r hr'
    exact ⟨hr'', hslab'.trans hslab''⟩

/-! ## Giving a structure back -/

theorem length_cacheGiveObject {c : KslabCache (Option Nat)} {slab : Kslab (Option Nat)} (hs : slab ∈ c.slabList) :
    (cacheGiveObject c slab a).slabList.length = c.slabList.length := by
  have hpos := List.length_pos_of_mem hs
  unfold cacheGiveObject
  dsimp only
  split
  · rw [List.length_cons, List.length_erase_of_mem hs]
    omega
  · rw [List.length_map]

section

variable {slab : Kslab (Option Nat)} (h : KvmmInvWith e s held pending) (hs : slab ∈ s.rangeCache.slabList)
  (hfull : slab.nbFree ≥ s.rangeCache.nbObjPerSlab)

include h hs hfull

/-- No structure of a range is lost with a slab without structures in use. -/
theorem KvmmInvWith.removeSlab : KvmmInvWith e { s with rangeCache := cacheRemoveSlab s.rangeCache slab } held pending := by
  obtain ⟨hok, hkeys, hall⟩ := h.cache.ok.remove hs hfull
  apply h.setCache hok rfl _ h.nodup fun a ha => (hall a).mpr (h.allocated a ha)
  intro k hk
  exact hkeys.mem_iff.mpr (List.mem_cons_of_mem _ hk)

/-- The other slabs have other ranges. -/
theorem KvmmInvWith.hasRange_of_removeSlab {slab' : Kslab (Option Nat)}
    (hs' : slab' ∈ (cacheRemoveSlab s.rangeCache slab).slabList) {r : KvmmRange} (hr : r ∈ s.usedList)
    (hbase : r.base = slab.firstObj) : ∃ r' ∈ s.usedList, r'.base = slab'.firstObj ∧ r'.nbPages = 1 ∧
      s.slabOf r'.addr = some slab'.addr ∧ (slab'.range = none ∨ slab'.range = some r'.addr) ∧ r'.addr ≠ r.addr := by
  obtain ⟨r', hr', hbase', hpages', hslab', hor'⟩ := (h.removeSlab hs hfull).slab slab' hs'
  refine ⟨r', hr', hbase', hpages', hslab', hor', fun he => ?_⟩
  obtain rfl : r' = r := h.used_nodup.eq_of_addr hr' hr he
  have hap := List.pairwise_cons.mp
    (((List.perm_cons_erase hs).pairwise_iff fun h => KslabCache.Apart.symm h).mp h.cache.ok.apart)
  have := hap.1 slab' hs'
  have hpos := h.cache.ok.shape.slabBytes_pos
  unfold KslabCache.Apart at this
  omega

/-- The range of a slab without structures in use leaves the used list with the slab. -/
theorem KvmmInvWith.releaseSlab {raddr : Nat} (hrange : slab.range = some raddr) :
    ∃ r ∈ s.usedList, r.addr = raddr ∧
      KvmmInvWith e { cacheReleaseSlab s slab with usedList := deleteRange s.usedList raddr } held (pending ++ [r]) ∧
      (∀ a, Covered { cacheReleaseSlab s slab with usedList := deleteRange s.usedList raddr } (pending ++ [r]) a ↔
        s.Covered pending a) ∧
      Keeps s { cacheReleaseSlab s slab with usedList := deleteRange s.usedList raddr } ∧
      ∀ x ∈ deleteRange s.usedList raddr, (cacheReleaseSlab s slab).slabOf x.addr = s.slabOf x.addr := by
  obtain ⟨r, hr, hbase, hpages, hslab, hor⟩ := h.slab slab hs
  obtain rfl : r.addr = raddr := by
    rcases hor with hnone | hsome
    · rw [hrange] at hnone
      cases hnone
    · rw [hrange] at hsome
      exact (Option.some.inj hsome).symm
  have h₁ := h.removeSlab hs hfull
  have hperm : (all { cacheReleaseSlab s slab with usedList := deleteRange s.usedList r.addr }
      (pending ++ [r])).Perm (all { s with rangeCache := cacheRemoveSlab s.rangeCache slab } pending) := by
    unfold all
    show (s.freeList ++ deleteRange s.usedList r.addr ++ (pending ++ [r])).Perm
      (s.freeList ++ s.usedList ++ pending)
    have hused := deleteRange_perm h.used_nodup hr
    rw [List.append_assoc, List.append_assoc]
    refine List.Perm.append_left _ ?_
    rw [← List.append_assoc]
    refine (List.perm_append_singleton r _).trans ?_
    exact (hused.append_right pending).symm
  have hslabOf : ∀ x : KvmmRange, x.addr ≠ r.addr → (cacheReleaseSlab s slab).slabOf x.addr = s.slabOf x.addr := by
    intro x hne
    unfold cacheReleaseSlab
    rw [hrange]
    exact Function.update_of_ne hne ..
  have hother : ∀ x, Foreign s x → x.addr ≠ r.addr := by
    intro x hx he
    rw [h.used_nodup.eq_of_addr hx.1 hr he] at hx
    exact hx.2 slab hs hbase.symm
  have hpos : ∀ x ∈ deleteRange s.usedList r.addr ++ (pending ++ [r]), 0 < x.nbPages := by
    intro x hx
    rw [← List.append_assoc, List.mem_append, List.mem_append, List.mem_singleton] at hx
    rcases hx with (hx | hx) | rfl
    · exact h.used_pos (List.mem_of_mem_filter hx)
    · exact h.pending_pos hx
    · exact h.used_pos hr
  have hfixed : ∀ x, e.fixed x → x ∈ deleteRange s.usedList r.addr := by
    intro x hx
    have hne : x.addr ≠ r.addr := by
      intro he
      rw [h.used_nodup.eq_of_addr (h.fixed_used x hx) hr he] at hx
      exact h.not_fixed_of_base hs hbase hx
    exact List.mem_filter.mpr ⟨h.fixed_used x hx, by simpa using hne⟩
  refine ⟨r, hr, rfl, h₁.move hperm hpos h.free_ascending (h.used_ascending.deleteRange _) hfixed rfl
    fun slab' hs' => ?_, covered_of_perm hperm, .of_used (fun x hx => ?_) (fun k hk => ?_) (fun x hx =>
      hslabOf x (hother x hx)), fun x hx => hslabOf x ?_⟩
  · obtain ⟨r', hr', hbase', hpages', hslab', hor', hne⟩ := h.hasRange_of_removeSlab hs hfull hs' hr hbase
    refine ⟨r', ?_, hbase', hpages', (hslabOf r' hne).trans hslab', hor'⟩
    show r' ∈ deleteRange s.usedList r.addr
    exact List.mem_filter.mpr ⟨hr', by simpa using hne⟩
  · show x ∈ deleteRange s.usedList r.addr
    exact List.mem_filter.mpr ⟨hx.1, by simpa using hother x hx⟩
  · exact (h.cache.ok.remove hs hfull).2.1.mem_iff.mpr (List.mem_cons_of_mem _ hk)
  · simpa using (List.mem_filter.mp hx).2

/-- A slab without a range of its own leaves its pages used. -/
theorem KvmmInvWith.releaseFirstSlab (hrange : slab.range = none) : cacheReleaseSlab s slab =
      { s with rangeCache := cacheRemoveSlab s.rangeCache slab } ∧
    KvmmInvWith e (cacheReleaseSlab s slab) held pending ∧ Keeps s (cacheReleaseSlab s slab) := by
  have heq : cacheReleaseSlab s slab = { s with rangeCache := cacheRemoveSlab s.rangeCache slab } := by
    unfold cacheReleaseSlab
    rw [hrange]
  rw [heq]
  refine ⟨rfl, h.removeSlab hs hfull, .of_used (fun x hx => hx.1) (fun k hk => ?_) fun _ _ => rfl⟩
  exact (h.cache.ok.remove hs hfull).2.1.mem_iff.mpr (List.mem_cons_of_mem _ hk)

end

/-- A structure goes back to the cache; where that empties a slab, the range of the slab is to be deleted. -/
theorem release_cases (h : KvmmInvWith e s (a :: held) pending) : ∃ s₁,
    s₁.freeList = s.freeList ∧ min (s.rangeCache.nbFreeObj + 1) 2 ≤ s₁.rangeCache.nbFreeObj ∧
      (kvmmCacheReleaseStructRange s a = (none, s₁) ∧ DelPost e s (a :: held) pending s₁ held pending ∨
        ∃ r, kvmmCacheReleaseStructRange s a = (some r.addr, s₁) ∧ findRange s₁.usedList r.addr = some r ∧
          DelPost e s (a :: held) pending { s₁ with usedList := deleteRange s₁.usedList r.addr } held (pending ++ [r])) := by
  obtain ⟨slab, hs, hobj, hmem, h₁, hkeep, -⟩ := h.give
  have hlen := @length_cacheGiveObject a s.rangeCache slab hs
  have hcount : (cacheGiveObject s.rangeCache slab a).nbFreeObj = s.rangeCache.nbFreeObj + 1 := rfl
  have hslab := h₁.cache.ok.slabs _ hmem
  have hslot : s.rangeCache.IsSlot slab a := hslab.slots a List.mem_cons_self
  have hnot : a ∉ slab.free := (List.nodup_cons.mp hslab.nodup).1
  have hstays := fun hcan => GivesBack.keep hs hslot hnot hcan (.nil _)
  have hgoes := fun hcan => GivesBack.release hs hslot hnot hcan (.nil _)
  generalize cacheGiveObject s.rangeCache slab a = c at hobj hmem h₁ hkeep hlen hcount hstays hgoes
  by_cases hcan : c.canRelease (slab.give a) = true
  · have hmin : c.minFreeObj = 2 := h₁.cache.minFree
    have hrelease := hcan
    simp only [canRelease, Bool.and_eq_true, decide_eq_true_eq] at hrelease
    obtain ⟨hfull, hleft⟩ := hrelease
    have hlow : min (s.rangeCache.nbFreeObj + 1) 2 ≤ c.nbFreeObj - (slab.give a).nbFree := by omega
    have herase : (c.slabList.erase (slab.give a)).length + 1 = c.slabList.length := by
      have hpos := List.length_pos_of_mem hmem
      rw [List.length_erase_of_mem hmem]
      omega
    have heq : kvmmCacheReleaseStructRange s a =
        ((slab.give a).range, cacheReleaseSlab { s with rangeCache := c } (slab.give a)) := by
      unfold kvmmCacheReleaseStructRange
      rw [hobj, if_pos hcan]
    refine ⟨cacheReleaseSlab { s with rangeCache := c } (slab.give a), rfl, hlow, ?_⟩
    cases hrange : (slab.give a).range with
    | none =>
      obtain ⟨heq₁, h₂, hkeep₂⟩ := h₁.releaseFirstSlab hmem hfull hrange
      refine Or.inl ⟨by rw [heq, hrange], h₂, fun a => ?_, ?_, ?_, fun r hr => ?_, hkeep.trans hkeep₂,
        [a], [slab.give a], hgoes hcan, ?_, fun x => ?_, fun x => ?_, rfl⟩
      · rw [heq₁]
        exact Iff.rfl
      · show (c.slabList.erase (slab.give a)).length + pending.length ≤ _
        omega
      · show _ ≤ c.nbFreeObj - (slab.give a).nbFree
        omega
      · rw [heq₁] at hr ⊢
        exact ⟨hr, rfl⟩
      · rw [heq₁]
        exact List.perm_middle
      · rw [heq₁]
        simp [hrange]
      · simp [hrange]
    | some raddr =>
      obtain ⟨r, hr, rfl, h₂, hcov, hkeep₂, hslabOf⟩ := h₁.releaseSlab hmem hfull hrange
      refine Or.inr ⟨r, by rw [heq, hrange], findRange_of_mem h.used_nodup hr, h₂, hcov, ?_, ?_,
        fun x hx => ⟨List.mem_of_mem_filter hx, hslabOf x hx⟩, hkeep.trans hkeep₂,
        [a], [slab.give a], hgoes hcan, ?_, fun x => ?_, fun x => ?_, rfl⟩
      · show (c.slabList.erase (slab.give a)).length + (pending ++ [r]).length ≤ _
        rw [List.length_append, List.length_singleton]
        omega
      · show _ ≤ c.nbFreeObj - (slab.give a).nbFree
        omega
      · show (s.all pending |>.map (·.addr) |>.append (a :: held)).Perm
          (a :: (((s.freeList ++ deleteRange s.usedList r.addr ++ (pending ++ [r])).map (·.addr)) ++ held))
        refine List.perm_middle.trans (List.Perm.cons a (List.Perm.append_right held (List.Perm.map _ ?_)))
        unfold all
        rw [List.append_assoc, List.append_assoc]
        refine List.Perm.append_left _ (((deleteRange_perm h.used_nodup hr).append_right pending).trans ?_)
        rw [← List.append_assoc]
        exact (List.perm_append_singleton r _).symm
      · show x ∈ deleteRange s.usedList r.addr ↔ _
        rw [deleteRange, List.mem_filter, bne_iff_ne]
        simp only [List.mem_singleton, forall_eq, hrange, ne_eq, Option.some.injEq]
        exact and_congr_right fun _ => not_congr eq_comm
      · rw [List.mem_append, List.mem_singleton]
        simp only [List.mem_singleton, exists_eq_left, hrange, Option.some.injEq]
        refine or_congr Iff.rfl ⟨?_, fun hx => h.used_nodup.eq_of_addr hx.1 hr hx.2.symm⟩
        rintro rfl
        exact ⟨hr, rfl⟩
  · have heq : kvmmCacheReleaseStructRange s a = (none, { s with rangeCache := c }) := by
      unfold kvmmCacheReleaseStructRange
      rw [hobj, if_neg hcan]
    refine ⟨{ s with rangeCache := c }, rfl, ?_, Or.inl ⟨heq, h₁, fun _ => Iff.rfl, ?_, ?_,
      fun _ hr => ⟨hr, rfl⟩, hkeep, [a], [],
      hstays (Bool.eq_false_iff.mpr hcan), List.perm_middle, fun x => by simp, fun x => by simp, rfl⟩⟩
    · show _ ≤ c.nbFreeObj
      omega
    · show c.slabList.length + pending.length ≤ _
      omega
    · show _ ≤ c.nbFreeObj
      omega

/-- **The structure a merge saves goes back**, possibly with a slab. -/
theorem freeStructRange_spec (h : KvmmInvWith e s (a :: held) pending) :
    DelPost e s (a :: held) pending (freeStructRange s a pending).1 held (freeStructRange s a pending).2 ∧
      (freeStructRange s a pending).1.freeList = s.freeList ∧
      min (s.rangeCache.nbFreeObj + 1) 2 ≤ (freeStructRange s a pending).1.rangeCache.nbFreeObj := by
  obtain ⟨s₁, hfree, hlow, ⟨hrel, hpost⟩ | ⟨r, hrel, hfind, hpost⟩⟩ := release_cases h
  · have heq : freeStructRange s a pending = (s₁, pending) := by
      unfold freeStructRange
      rw [hrel]
    rw [heq]
    exact ⟨hpost, hfree, hlow⟩
  · have heq : freeStructRange s a pending =
        ({ s₁ with usedList := deleteRange s₁.usedList r.addr }, pending ++ [r]) := by
      unfold freeStructRange
      rw [hrel]
      dsimp only
      rw [hfind]
      rfl
    rw [heq]
    exact ⟨hpost, hfree, hlow⟩

/-! ## The merges -/

/-- Two free neighbours. -/
def merged (p r : KvmmRange) : KvmmRange := { p with nbPages := p.nbPages + r.nbPages }

theorem merged_top (h : p.top = r.base) : (merged p r).top = r.top := by
  unfold KvmmRange.top at h
  show p.base + (p.nbPages + r.nbPages) * nbBytesPerPage = r.base + r.nbPages * nbBytesPerPage
  rw [Nat.add_mul]
  omega

theorem merged_structs (pre post : List KvmmRange) (p r : KvmmRange) :
    ((pre ++ p :: r :: post).map (·.addr)).Perm (r.addr :: (pre ++ merged p r :: post).map (·.addr)) := by
  simp only [List.map_append, List.map_cons]
  exact ((List.Perm.swap _ _ _).append_left _).trans List.perm_middle

theorem merge_list (hn : AddrNodup (pre ++ p :: r :: post)) :
    deleteRange (writeRange (pre ++ p :: r :: post) p.addr fun x => { x with nbPages := x.nbPages + r.nbPages })
      r.addr = pre ++ merged p r :: post := by
  have hne : AddrNodup (pre ++ [merged p r] ++ r :: post) := by
    unfold AddrNodup at hn ⊢
    simpa [merged] using hn
  rw [writeRange_append hn]
  have hdelete := deleteRange_append hne
  rw [List.append_assoc, List.singleton_append, List.append_assoc, List.singleton_append] at hdelete
  exact hdelete

/-- The ranges before and behind two neighbours start elsewhere. -/
theorem KvmmInvWith.mergeFree {pending' : List KvmmRange} (h : KvmmInvWith e s held pending')
    (hall : (s.all pending').Perm (p :: r :: (pre ++ post ++ s.usedList ++ pending)))
    (hpending : ∀ x ∈ pending, x ∈ pending') (hasc : Ascending (pre ++ p :: post))
    (hseam : ∀ x ∈ pre ++ post, x.base ≠ r.base) (htouch : p.top = r.base) (hp : ¬ e.fixed p) (hr : ¬ e.fixed r) :
    KvmmInvWith e { s with freeList := pre ++ merged p r :: post } (r.addr :: held) pending ∧
      ∀ a, Covered { s with freeList := pre ++ merged p r :: post } pending a ↔ s.Covered pending' a := by
  have hall' : (all { s with freeList := pre ++ merged p r :: post } pending).Perm
      (merged p r :: (pre ++ post ++ s.usedList ++ pending)) :=
    (List.perm_middle.append_right _).append_right _
  have hpos : ∀ x ∈ s.usedList ++ pending, 0 < x.nbPages := by
    intro x hx
    rcases List.mem_append.mp hx with hx | hx
    · exact h.used_pos hx
    · exact h.pending_pos (hpending x hx)
  have hfree : Ascending (pre ++ merged p r :: post) := by
    unfold Ascending at hasc ⊢
    rw [List.pairwise_append, List.pairwise_cons] at hasc ⊢
    obtain ⟨hpre, ⟨hp, hpost⟩, hcross⟩ := hasc
    refine ⟨hpre, ⟨hp, hpost⟩, fun x hx y hy => ?_⟩
    cases List.mem_cons.mp hy with
    | inl heq =>
      rw [heq]
      exact hcross x hx p List.mem_cons_self
    | inr hin => exact hcross x hx y (List.mem_cons_of_mem _ hin)
  refine h.merge hall hall' htouch rfl (fun x hx => ?_) hpos hp hr hfree h.used_ascending h.fixed_used rfl h.slab
  rw [List.append_assoc, List.mem_append] at hx
  rcases hx with hx | hx
  · exact Or.inr (hseam x hx)
  · exact Or.inl (hpos x hx)

/-- The list being circular, the range that is last stands before the first; it does not touch it. -/
theorem top_ne_base (hpost : ∀ x ∈ post, r.base < x.base) (hpos : 0 < r.nbPages) {x : KvmmRange}
    (hx : x ∈ r :: post) : x.top ≠ r.base := by
  have hle := KvmmRange.base_le_top x
  cases List.mem_cons.mp hx with
  | inl heq =>
    have hlt := KvmmRange.base_lt_top hpos
    rw [heq]
    omega
  | inr hin =>
    have := hpost x hin
    omega

/-- Free ranges next to each other do not touch unless the first ends where the second starts. -/
theorem KvmmInvWith.top_lt (h : KvmmInvWith e s held pending) (hp : p ∈ s.all pending) (hr : r ∈ s.all pending)
    (hf : ¬ e.fixed p) (hlt : p.base < r.base) (htouch : p.top ≠ r.base) : p.top < r.base := by
  have hne : p ≠ r := fun he => Nat.lt_irrefl _ (he ▸ hlt)
  have := (h.apart_of_ne hp hr hf hne).top_le hlt
  omega

theorem insert_perm (hlist : s.freeList = pre ++ post) :
    (all { s with freeList := pre ++ r :: post } pending).Perm (s.all (r :: pending)) := by
  unfold all
  rw [hlist]
  refine ((List.perm_middle.append_right _).append_right _).trans ?_
  exact List.perm_middle.symm

/-- A range on its way to the free list gets there, where no free range starts at the same address. -/
theorem KvmmInvWith.insertFree (h : KvmmInvWith e s held (r :: pending)) (hlist : s.freeList = pre ++ post)
    (hpre : ∀ x ∈ pre, x.base < r.base) (hpost : ∀ x ∈ post, r.base < x.base) :
    KvmmInvWith e { s with freeList := pre ++ r :: post } held pending := by
  have hasc := h.free_ascending
  rw [hlist] at hasc
  obtain ⟨hapre, hapost, hcross⟩ := List.pairwise_append.mp hasc
  refine h.move (insert_perm hlist) (fun x hx => ?_) ?_ h.used_ascending h.fixed_used rfl h.slab
  · rcases List.mem_append.mp hx with hx | hx
    · exact h.used_pos hx
    · exact h.pending_pos (List.mem_cons_of_mem _ hx)
  · refine List.pairwise_append.mpr ⟨hapre, List.pairwise_cons.mpr ⟨hpost, hapost⟩, fun x hx y hy => ?_⟩
    cases List.mem_cons.mp hy with
    | inl he =>
      rw [he]
      exact hpre x hx
    | inr hin => exact hcross x hx y hin

/-- The merge with the preceding range, which may have no page and start where the range does. -/
theorem mergePrev_spec (h : KvmmInvWith e s held (r :: pending)) (hlist : s.freeList = pre ++ post)
    (hgaps : Gaps s.freeList) (hpre : ∀ x ∈ pre, x.base ≤ r.base) (hpost : ∀ x ∈ post, r.base < x.base) :
    ∃ s' r' pending' pre', mergePrev { s with freeList := pre ++ r :: post } r pending = (s', r', pending') ∧
      DelPost e { s with freeList := pre ++ r :: post } held pending s' held pending' ∧
      s'.freeList = pre' ++ r' :: post ∧ Gaps (pre' ++ post) ∧ (∀ x ∈ pre', x.top < r'.base) ∧ r'.top = r.top ∧
      0 < r'.nbPages := by
  have hrpos : 0 < r.nbPages := h.pending_pos List.mem_cons_self
  have hrall : r ∈ s.all (r :: pending) := mem_all.mpr (.inr (.inr List.mem_cons_self))
  have hltr := KvmmRange.base_lt_top hrpos
  have hins := @insert_perm _ _ pending r _ _ hlist
  have hnodup : AddrNodup (pre ++ r :: post) := by
    have hall : AddrNodup (all { s with freeList := pre ++ r :: post } pending) :=
      (hins.map KvmmRange.addr).nodup_iff.mpr h.all_nodup
    unfold AddrNodup all at hall
    rw [List.map_append, List.map_append] at hall
    exact (List.nodup_append.mp (List.nodup_append.mp hall).1).1
  have hasc := h.free_ascending
  rw [hlist] at hgaps hasc
  rcases List.eq_nil_or_concat pre with rfl | ⟨pre₀, p, rfl⟩
  · have hstays : mergePrev { s with freeList := [] ++ r :: post } r pending =
        ({ s with freeList := [] ++ r :: post }, r, pending) := by
      unfold mergePrev
      dsimp only
      rw [List.nil_append, listPrev_head]
      cases hlast : (r :: post).getLast? with
      | none => rfl
      | some x =>
        have hne := top_ne_base hpost hrpos (List.mem_of_getLast? hlast)
        dsimp only
        rw [if_neg hne]
    exact ⟨_, r, pending, [], hstays, .refl (h.insertFree hlist (fun x hx => absurd hx List.not_mem_nil) hpost), rfl,
      hgaps, fun x hx => absurd hx List.not_mem_nil, rfl, hrpos⟩
  · rw [List.concat_eq_append, List.append_assoc, List.singleton_append] at *
    have hp : p ∈ s.all (r :: pending) := mem_all.mpr (.inl (hlist ▸ List.mem_append_right _ List.mem_cons_self))
    have hpf : ¬ e.fixed p := h.not_fixed (.inl (hlist ▸ List.mem_append_right _ List.mem_cons_self))
    have hrf : ¬ e.fixed r := h.not_fixed (.inr List.mem_cons_self)
    have hple : p.base ≤ r.base := hpre p (by simp)
    have hgaps₀ : ∀ x ∈ pre₀, x.top < p.base :=
      fun x hx => (List.pairwise_append.mp hgaps).2.2 x hx p List.mem_cons_self
    have hprev : listPrev (pre₀ ++ p :: r :: post) r = some p := listPrev_of_ne_nil hnodup
    by_cases htouch : p.top = r.base
    · have hall : (s.all (r :: pending)).Perm (p :: r :: (pre₀ ++ post ++ s.usedList ++ pending)) := by
        refine hins.symm.trans ?_
        unfold all
        dsimp only
        refine ((List.perm_middle.append_right _).append_right _).trans ?_
        rw [List.cons_append, List.cons_append]
        refine List.Perm.cons _ ?_
        exact (List.perm_middle.append_right _).append_right _
      have hseam : ∀ x ∈ pre₀ ++ post, x.base ≠ r.base := by
        intro x hx
        rcases List.mem_append.mp hx with hx | hx
        · have := hgaps₀ x hx
          have := KvmmRange.base_le_top x
          omega
        · have := hpost x hx
          omega
      obtain ⟨h₁, hcov⟩ := h.mergeFree hall (fun x hx => List.mem_cons_of_mem _ hx) hasc hseam htouch hpf hrf
      obtain ⟨hfreed, hfree, hlow⟩ := freeStructRange_spec h₁
      have heq : mergePrev { s with freeList := pre₀ ++ p :: r :: post } r pending =
          ((freeStructRange { s with freeList := pre₀ ++ merged p r :: post } r.addr pending).1, merged p r,
            (freeStructRange { s with freeList := pre₀ ++ merged p r :: post } r.addr pending).2) := by
        unfold mergePrev
        dsimp only
        rw [hprev]
        dsimp only
        rw [if_pos htouch, merge_list hnodup]
        rfl
      obtain ⟨l, released, hret⟩ := hfreed.returns
      refine ⟨_, _, _, pre₀, heq,
        ⟨hfreed.inv, fun a => ?_, hfreed.count, hfreed.low, hfreed.used, hfreed.keeps,
          l, released, hret.of_merge (merged_structs pre₀ post p r)⟩,
        hfree, ?_, hgaps₀, merged_top htouch, ?_⟩
      · rw [hfreed.covered a, hcov a]
        exact (covered_of_perm hins a).symm
      · exact hgaps.sublist ((List.Sublist.refl pre₀).append (List.sublist_cons_self p post))
      · exact Nat.lt_of_lt_of_le hrpos (Nat.le_add_left _ _)
    · have hstays : mergePrev { s with freeList := pre₀ ++ p :: r :: post } r pending =
          ({ s with freeList := pre₀ ++ p :: r :: post }, r, pending) := by
        unfold mergePrev
        dsimp only
        rw [hprev]
        dsimp only
        rw [if_neg htouch]
      have hpr : p ≠ r := by
        rintro rfl
        exact (addrNodup_split.mp hnodup).1 p (by simp) rfl
      have hplt : p.base < r.base := by
        have hap := h.apart_of_ne hp hrall hpf hpr
        have := KvmmRange.base_le_top p
        unfold KvmmRange.Apart at hap
        omega
      have htop := h.top_lt hp hrall hpf hplt htouch
      have hpre' : ∀ x ∈ pre₀ ++ [p], x.base < r.base := by
        intro x hx
        rcases List.mem_append.mp hx with hx | hx
        · have := hgaps₀ x hx
          have := KvmmRange.base_le_top x
          omega
        · rwa [List.mem_singleton.mp hx]
      have h₁ := @KvmmInvWith.insertFree _ _ _ _ _ (pre₀ ++ [p]) _ _ h (by rw [hlist, List.append_assoc]; rfl) hpre' hpost
      rw [List.append_assoc, List.singleton_append] at h₁
      refine ⟨_, r, pending, pre₀ ++ [p], hstays, .refl h₁, by simp, by simpa using hgaps, fun x hx => ?_, rfl, hrpos⟩
      cases List.mem_append.mp hx with
      | inl hin =>
        have := hgaps₀ x hin
        omega
      | inr hin =>
        rw [List.mem_singleton.mp hin]
        exact htop

theorem mergeNext_spec (h : KvmmInvWith e s held pending) (hlist : s.freeList = pre ++ r :: post)
    (hgaps : Gaps (pre ++ post)) (hbefore : ∀ x ∈ pre, x.top < r.base) (hrpos : 0 < r.nbPages) :
    DelPost e s held pending (mergeNext s r pending).1 held (mergeNext s r pending).2 ∧
      Gaps (mergeNext s r pending).1.freeList ∧
      ∀ q ∈ post.head?, r.top = q.base →
        min (s.rangeCache.nbFreeObj + 1) 2 ≤ (mergeNext s r pending).1.rangeCache.nbFreeObj := by
  have hmem : ∀ x ∈ pre ++ r :: post, x ∈ s.all pending := fun x hx => mem_all.mpr (.inl (hlist ▸ hx))
  have hr : r ∈ s.all pending := hmem r (by simp)
  have hnodup := h.free_nodup
  have hasc := h.free_ascending
  rw [hlist] at hnodup hasc
  have hltr := KvmmRange.base_lt_top hrpos
  obtain ⟨hgpre, hgpost, hgcross⟩ := List.pairwise_append.mp hgaps
  have hascr := (List.pairwise_append.mp hasc).2.1
  cases post with
  | nil =>
    have hstays : mergeNext s r pending = (s, pending) := by
      unfold mergeNext
      rw [hlist, listNext_last hnodup]
      cases hhead : (pre ++ [r]).head? with
      | none => rfl
      | some x =>
        have hx : x.base ≤ r.base := by
          cases List.mem_append.mp (List.mem_of_head? hhead) with
          | inl hin =>
            exact Nat.le_of_lt ((List.pairwise_append.mp hasc).2.2 x hin r List.mem_cons_self)
          | inr hin => rw [List.mem_singleton.mp hin]
        dsimp only
        rw [if_neg (by omega)]
    rw [hstays]
    refine ⟨.refl h, ?_, fun q hq => absurd hq (Option.not_mem_none q)⟩
    show Gaps s.freeList
    rw [hlist]
    exact List.pairwise_append.mpr ⟨hgpre, List.pairwise_singleton _ _, fun x hx y hy => by
      rw [List.mem_singleton.mp hy]
      exact hbefore x hx⟩
  | cons q post =>
    have hnext : listNext s.freeList r = some q := by
      rw [hlist]
      exact listNext_of_ne_nil hnodup
    have hq : q ∈ s.all pending := hmem q (by simp)
    have hrf : ¬ e.fixed r := h.not_fixed (.inl (by simp [hlist]))
    have hqf : ¬ e.fixed q := h.not_fixed (.inl (by simp [hlist]))
    obtain ⟨hgq, hgpost'⟩ := List.pairwise_cons.mp hgpost
    by_cases htouch : r.top = q.base
    · have hall : (s.all pending).Perm (r :: q :: (pre ++ post ++ s.usedList ++ pending)) := by
        unfold all
        rw [hlist]
        refine ((List.perm_middle.append_right _).append_right _).trans ?_
        rw [List.cons_append, List.cons_append]
        refine List.Perm.cons _ ?_
        exact (List.perm_middle.append_right _).append_right _
      have hascq : Ascending (pre ++ r :: post) :=
        hasc.sublist ((List.Sublist.refl pre).append (List.Sublist.cons_cons r (List.sublist_cons_self q post)))
      have hrq : r.base < q.base := (List.pairwise_cons.mp hascr).1 q List.mem_cons_self
      have hseam : ∀ x ∈ pre ++ post, x.base ≠ q.base := by
        intro x hx
        rcases List.mem_append.mp hx with hx | hx
        · have := (List.pairwise_append.mp hasc).2.2 x hx r List.mem_cons_self
          omega
        · have := (List.pairwise_cons.mp (List.pairwise_cons.mp hascr).2).1 x hx
          omega
      obtain ⟨h₁, hcov⟩ := h.mergeFree hall (fun _ hx => hx) hascq hseam htouch hrf hqf
      obtain ⟨hpost, hfree, hlow⟩ := freeStructRange_spec h₁
      have heq : mergeNext s r pending =
          freeStructRange { s with freeList := pre ++ merged r q :: post } q.addr pending := by
        unfold mergeNext
        rw [hnext]
        dsimp only
        rw [if_pos htouch, hlist, merge_list hnodup]
      obtain ⟨l, released, hret⟩ := hpost.returns
      have hret' := hret.of_merge (merged_structs pre post r q)
      rw [← hlist] at hret'
      rw [heq]
      refine ⟨⟨hpost.inv, fun a => (hpost.covered a).trans (hcov a), hpost.count, hpost.low, hpost.used, hpost.keeps,
        l, released, hret'⟩,
        ?_, fun _ _ _ => hlow⟩
      rw [hfree]
      refine List.pairwise_append.mpr ⟨hgpre, List.pairwise_cons.mpr ⟨fun y hy => ?_, hgpost'⟩, fun x hx y hy => ?_⟩
      · rw [merged_top htouch]
        exact hgq y hy
      · cases List.mem_cons.mp hy with
        | inl he =>
          rw [he]
          exact hbefore x hx
        | inr hin => exact hgcross x hx y (List.mem_cons_of_mem _ hin)
    · have hstays : mergeNext s r pending = (s, pending) := by
        unfold mergeNext
        rw [hnext]
        dsimp only
        rw [if_neg htouch]
      have htop := h.top_lt hr hq hrf ((List.pairwise_cons.mp hascr).1 q List.mem_cons_self) htouch
      rw [hstays]
      refine ⟨.refl h, ?_, fun x hx he => absurd (Option.some.inj hx ▸ he) htouch⟩
      show Gaps s.freeList
      rw [hlist]
      refine List.pairwise_append.mpr ⟨hgpre, List.pairwise_cons.mpr ⟨fun y hy => ?_, hgpost⟩, fun x hx y hy => ?_⟩
      · cases List.mem_cons.mp hy with
        | inl he =>
          rw [he]
          exact htop
        | inr hin =>
          have := hgq y hin
          have := KvmmRange.base_le_top q
          omega
      · cases List.mem_cons.mp hy with
        | inl he =>
          rw [he]
          exact hbefore x hx
        | inr hin => exact hgcross x hx y hin

/-! ## The loop -/

theorem KvmmRange.Apart.base_ne {p r : KvmmRange} (h : p.Apart r) (hp : 0 < p.nbPages) (hr : 0 < r.nbPages) :
    p.base ≠ r.base := by
  have h1 := KvmmRange.base_lt_top hp
  have h2 := KvmmRange.base_lt_top hr
  unfold KvmmRange.Apart at h
  omega

/-- Inserting a range between those before and those behind it. -/
theorem Ascending.insert {l : List KvmmRange} (h : Ascending l) (hn : AddrNodup l)
    (hne : ∀ x ∈ l, x.base ≠ r.base) : ∃ pre post, l = pre ++ post ∧ insertRange l r = pre ++ r :: post ∧
      Ascending (pre ++ r :: post) := by
  obtain ⟨pre, post, rfl, hinsert, hpre, hpost⟩ := insertRange_eq (a := r) h hn
  obtain ⟨hapre, hapost, hcross⟩ := List.pairwise_append.mp h
  refine ⟨pre, post, rfl, hinsert, List.pairwise_append.mpr ⟨hapre, List.pairwise_cons.mpr ⟨hpost, hapost⟩, ?_⟩⟩
  intro x hx y hy
  cases List.mem_cons.mp hy with
  | inl he =>
    rw [he]
    have := hpre x hx
    have := hne x (List.mem_append_left _ hx)
    omega
  | inr hin => exact hcross x hx y hin

theorem KvmmInvWith.setWorld (h : KvmmInvWith e s held pending) (w : W) :
    KvmmInvWith e { s with world := w } held pending :=
  ⟨h.apart, h.pos, h.free_pos, h.free_ascending, h.used_ascending, h.nodup, h.allocated, h.cache, h.slab, h.fixed_used,
    h.fixed_slab, h.structs⟩

/-- What the loop knows between two iterations, of the range it is at and those still to free. -/
structure DelInv (s : Kvmm W) (held : List Nat) (pending : List KvmmRange) : Prop where
  inv : KvmmInv s held pending
  gaps : Gaps s.freeList

structure DelInvWith (e : Slack) (s : Kvmm W) (held : List Nat) (pending : List KvmmRange) : Prop where
  inv : KvmmInvWith e s held pending
  gaps : Gaps s.freeList

theorem delInv_iff : DelInv s held pending ↔ DelInvWith .none s held pending :=
  ⟨fun h => ⟨kvmmInv_iff.mp h.inv, h.gaps⟩, fun h => ⟨kvmmInv_iff.mpr h.inv, h.gaps⟩⟩

/-- A free range starts where the range ends. -/
def TouchesNext (s : Kvmm W) (r : KvmmRange) : Prop := ∃ q ∈ s.freeList, q.base = r.top

/-- What becomes of a state with ranges to free: the invariant, the addresses, and the free objects of the cache. -/
structure Freed (e : Slack) (s : Kvmm W) (pending : List KvmmRange) (s' : Kvmm W) (held : List Nat)
    (pending' : List KvmmRange) : Prop where
  inv : DelInvWith e s' held pending'
  covered : ∀ a, s'.Covered pending' a ↔ s.Covered pending a
  low : min s.rangeCache.nbFreeObj 2 ≤ s'.rangeCache.nbFreeObj

theorem Freed.trans {s'' : Kvmm W} {held' : List Nat} {pending'' : List KvmmRange}
    (h : Freed e s pending s' held pending') (h' : Freed e s' pending' s'' held' pending'') :
    Freed e s pending s'' held' pending'' := by
  refine ⟨h'.inv, fun a => (h'.covered a).trans (h.covered a), ?_⟩
  have h1 := h.low
  have h2 := h'.low
  omega

/-- Of the used ranges some go, none of which the range cache does not own; the others keep their slab. -/
structure Shrinks (s s' : Kvmm W) : Prop where
  used : ∀ r ∈ s'.usedList, r ∈ s.usedList ∧ s'.slabOf r.addr = s.slabOf r.addr
  keeps : Keeps s s'

theorem Shrinks.trans {s'' : Kvmm W} (h : Shrinks s s') (h' : Shrinks s' s'') : Shrinks s s'' :=
  ⟨fun r hr => ⟨(h.used r (h'.used r hr).1).1, (h'.used r hr).2.trans (h.used r (h'.used r hr).1).2⟩,
    h.keeps.trans h'.keeps⟩

theorem DelPost.shrinks {held₀ : List Nat} (h : DelPost e s held₀ pending s' held pending') : Shrinks s s' := ⟨h.used, h.keeps⟩

/-- The first free range behind a range is the one it touches, if there is such a one. -/
theorem KvmmInvWith.head_of_touches (h : KvmmInvWith e s held (r :: pending)) (hlist : s.freeList = pre ++ post)
    (hpre : ∀ x ∈ pre, x.base ≤ r.base) (hpost : ∀ x ∈ post, r.base < x.base) (hq : q ∈ s.freeList)
    (htouch : q.base = r.top) : q ∈ post.head? := by
  have hasc := h.free_ascending
  rw [hlist] at hasc hq
  have hascpost := (List.pairwise_append.mp hasc).2.1
  have hltr := KvmmRange.base_lt_top (h.pending_pos List.mem_cons_self)
  cases List.mem_append.mp hq with
  | inl hin =>
    have := hpre q hin
    omega
  | inr hin =>
    cases post with
    | nil => exact absurd hin List.not_mem_nil
    | cons y post =>
      cases List.mem_cons.mp hin with
      | inl he =>
        rw [he]
        rfl
      | inr hin' =>
        -- nothing starts between the range and one that it touches
        have hlt := hpost y List.mem_cons_self
        have hy : y ∈ s.all (r :: pending) := mem_all.mpr (.inl (by simp [hlist]))
        have hr : r ∈ s.all (r :: pending) := mem_all.mpr (.inr (.inr List.mem_cons_self))
        have hyq := (List.pairwise_cons.mp hascpost).1 q hin'
        have hap := h.apart_of_ne hr hy (h.not_fixed (.inr List.mem_cons_self)) fun he => Nat.lt_irrefl _ (he ▸ hlt)
        have := hap.top_le hlt
        omega

theorem delRangeStep_spec (E : PageMap W) (h : DelInvWith e s held (r :: pending)) :
    Freed e s (r :: pending) (delRangeStep E s r pending).1 held (delRangeStep E s r pending).2 ∧
      Shrinks s (delRangeStep E s r pending).1 ∧
      (delRangeStep E s r pending).1.rangeCache.slabList.length + (delRangeStep E s r pending).2.length ≤
        s.rangeCache.slabList.length + pending.length ∧
      (TouchesNext s r →
        min (s.rangeCache.nbFreeObj + 1) 2 ≤ (delRangeStep E s r pending).1.rangeCache.nbFreeObj) ∧
      ∃ l released, Returns { s with
          freeList := insertRange s.freeList r
          world := unmapPages E r.base 0 r.nbPages s.world } held pending (delRangeStep E s r pending).1 held
        (delRangeStep E s r pending).2 l released := by
  obtain ⟨pre, post, hlist, hinsert, hpre, hpost⟩ := insertRange_eq (a := r) h.inv.free_ascending h.inv.free_nodup
  have h₁ := h.inv.setWorld (unmapPages E r.base 0 r.nbPages s.world)
  obtain ⟨s₁, r₁, pending₁, pre₁, hmerge, hprev, hlist₁, hgaps₁, hbefore₁, htop₁, hpos₁⟩ :=
    mergePrev_spec h₁ hlist h.gaps hpre hpost
  obtain ⟨hnext, hgaps₂, hplus⟩ := mergeNext_spec hprev.inv hlist₁ hgaps₁ hbefore₁ hpos₁
  have heq : delRangeStep E s r pending = mergeNext s₁ r₁ pending₁ := by
    unfold delRangeStep
    rw [hinsert]
    dsimp only at hmerge ⊢
    rw [hmerge]
  have hboth := hprev.trans hnext
  have hcov : ∀ a, Covered { s with freeList := pre ++ r :: post } pending a ↔ s.Covered (r :: pending) a :=
    covered_of_perm (insert_perm hlist)
  have hlow : min s.rangeCache.nbFreeObj 2 ≤ s₁.rangeCache.nbFreeObj := hprev.low
  rw [heq]
  refine ⟨⟨⟨hboth.inv, hgaps₂⟩, fun a => (hboth.covered a).trans (hcov a), hboth.low⟩, ⟨hboth.used, hboth.keeps⟩,
    hboth.count, ?_, hinsert ▸ hboth.returns⟩
  rintro ⟨q, hq, htouch⟩
  have hhead := h.inv.head_of_touches hlist hpre hpost hq htouch
  have := hplus q hhead (htop₁.trans htouch.symm)
  omega

/-- Each iteration frees one of the ranges of slabs that are still there, so the loop ends. -/
theorem delRangeLoop_spec (E : PageMap W) : ∀ (fuel : Nat) (s : Kvmm W) (r : KvmmRange) (pending : List KvmmRange),
    DelInvWith e s held (r :: pending) → s.rangeCache.slabList.length + pending.length < fuel →
    ∃ s', delRangeLoop E fuel s r pending = some s' ∧ Freed e s (r :: pending) s' held [] ∧ Shrinks s s' ∧
      (TouchesNext s r → min (s.rangeCache.nbFreeObj + 1) 2 ≤ s'.rangeCache.nbFreeObj) := by
  intro fuel
  induction fuel with
  | zero => intro s r pending _ hfuel; exact absurd hfuel (Nat.not_lt_zero _)
  | succ fuel ih =>
    intro s r pending h hfuel
    obtain ⟨hfreed, hshrinks, hcount, hplus, -⟩ := delRangeStep_spec E h
    unfold delRangeLoop
    generalize delRangeStep E s r pending = step at hfreed hshrinks hcount hplus ⊢
    obtain ⟨s₁, pending₁⟩ := step
    cases pending₁ with
    | nil => exact ⟨s₁, rfl, hfreed, hshrinks, hplus⟩
    | cons r₁ pending₁ =>
      obtain ⟨s', heq, hfreed', hshrinks', -⟩ := ih s₁ r₁ pending₁ hfreed.inv (by
        dsimp only [List.length_cons] at hcount
        omega)
      refine ⟨s', heq, hfreed.trans hfreed', hshrinks.trans hshrinks', fun htouch => ?_⟩
      have hlow := hfreed'.low
      have := hplus htouch
      dsimp only at this
      omega

/-- A range that is no slab's. -/
structure Deletable (s : Kvmm W) (r : KvmmRange) : Prop where
  used : r ∈ s.usedList
  slab : s.slabOf r.addr = none

/-- The range is gone, and the others stay that the range cache does not own. -/
structure Deleted (s : Kvmm W) (r : KvmmRange) (s' : Kvmm W) : Prop where
  used : ∀ x ∈ s'.usedList, x ∈ s.usedList ∧ x ≠ r ∧ s'.slabOf x.addr = s.slabOf x.addr
  keeps : ∀ x, Foreign s x → x ≠ r → Foreign s' x ∧ s'.slabOf x.addr = s.slabOf x.addr

/-- The range to delete leaves the used list. -/
theorem delete_perm (hn : AddrNodup s.usedList) (hr : r ∈ s.usedList) :
    (all { s with usedList := deleteRange s.usedList r.addr } [r]).Perm (s.all []) := by
  unfold all
  show (s.freeList ++ deleteRange s.usedList r.addr ++ [r]).Perm (s.freeList ++ s.usedList ++ [])
  rw [List.append_assoc, List.append_assoc, List.append_nil]
  refine List.Perm.append_left _ ?_
  exact (List.perm_append_singleton r _).trans (deleteRange_perm hn hr).symm

theorem DelInvWith.delete (h : DelInvWith e s held []) (hr : Deletable s r) (hf : ¬ e.fixed r) :
    DelInvWith e { s with usedList := deleteRange s.usedList r.addr } held [r] := by
  have hpos : ∀ x ∈ deleteRange s.usedList r.addr ++ [r], 0 < x.nbPages := by
    intro x hx
    rcases List.mem_append.mp hx with hx | hx
    · exact h.inv.used_pos (List.mem_of_mem_filter hx)
    · rw [List.mem_singleton.mp hx]
      exact h.inv.used_pos hr.used
  refine ⟨h.inv.move (delete_perm h.inv.used_nodup hr.used) hpos h.inv.free_ascending
    (h.inv.used_ascending.deleteRange _) (fun x hx => ?_) rfl fun slab hs => ?_, h.gaps⟩
  · refine List.mem_filter.mpr ⟨h.inv.fixed_used x hx, ?_⟩
    simpa using fun he => hf (h.inv.used_nodup.eq_of_addr (h.inv.fixed_used x hx) hr.used he ▸ hx)
  obtain ⟨r', hr', hbase, hpages, hslab, hor⟩ := h.inv.slab slab hs
  have hne : r'.addr ≠ r.addr := by
    intro he
    rw [he, hr.slab] at hslab
    cases hslab
  exact ⟨r', List.mem_filter.mpr ⟨hr', by simpa using hne⟩, hbase, hpages, hslab, hor⟩

/-- **`kvmm_del_range`** ends and keeps the lists as they should be. -/
theorem kvmmDelRange_spec (E : PageMap W) (h : DelInvWith e s held []) (hr : Deletable s r) (hf : ¬ e.fixed r) :
    ∃ s', kvmmDelRange E s r = some s' ∧ Freed e s [] s' held [] ∧ Deleted s r s' ∧
      (TouchesNext s r → min (s.rangeCache.nbFreeObj + 1) 2 ≤ s'.rangeCache.nbFreeObj) := by
  obtain ⟨s', heq, hfreed, hshrinks, hplus⟩ := delRangeLoop_spec E (s.rangeCache.slabList.length + 1)
    { s with usedList := deleteRange s.usedList r.addr } r [] (h.delete hr hf) (Nat.lt_succ_self _)
  have hperm := delete_perm h.inv.used_nodup hr.used
  refine ⟨s', heq, ⟨hfreed.inv, fun a => (hfreed.covered a).trans (covered_of_perm hperm a), hfreed.low⟩,
    ⟨fun x hx => ?_, fun x hx hne => ?_⟩, hplus⟩
  · obtain ⟨hin, hslab⟩ := hshrinks.used x hx
    obtain ⟨hin, hne⟩ := List.mem_filter.mp hin
    refine ⟨hin, ?_, hslab⟩
    rintro rfl
    simp at hne
  · have hin : x ∈ deleteRange s.usedList r.addr := by
      refine List.mem_filter.mpr ⟨hx.1, ?_⟩
      simpa using fun he => hne (h.inv.used_nodup.eq_of_addr hx.1 hr.used he)
    exact hshrinks.keeps x ⟨hin, hx.2⟩

/-- **A structure that is not needed** goes back, and the range of a slab this empties is deleted. -/
theorem kvmmCacheFree_freed (E : PageMap W) (h : DelInvWith e s (a :: held) []) :
    Freed e s [] (kvmmCacheFree E s a) held [] ∧ Shrinks s (kvmmCacheFree E s a) ∧
      min (s.rangeCache.nbFreeObj + 1) 2 ≤ (kvmmCacheFree E s a).rangeCache.nbFreeObj := by
  obtain ⟨s₁, hfree, hlow, ⟨hrel, hpost⟩ | ⟨r, hrel, hfind, hpost⟩⟩ := release_cases h.inv
  · have heq : kvmmCacheFree E s a = s₁ := by
      unfold kvmmCacheFree
      rw [hrel]
    rw [heq]
    exact ⟨⟨⟨hpost.inv, hfree ▸ h.gaps⟩, hpost.covered, hpost.low⟩, hpost.shrinks, hlow⟩
  · have hinv : DelInvWith e { s₁ with usedList := deleteRange s₁.usedList r.addr } held [r] :=
      ⟨hpost.inv, hfree ▸ h.gaps⟩
    obtain ⟨s', heq, hfreed, hshrinks, -⟩ := delRangeLoop_spec E (s₁.rangeCache.slabList.length + 1) _ r [] hinv
      (Nat.lt_succ_self _)
    have heq' : kvmmCacheFree E s a = s' := by
      unfold kvmmCacheFree
      rw [hrel]
      dsimp only
      rw [hfind]
      dsimp only
      unfold kvmmDelRange
      rw [heq]
      rfl
    have hlow' : min s₁.rangeCache.nbFreeObj 2 ≤ s'.rangeCache.nbFreeObj := hfreed.low
    rw [heq']
    refine ⟨⟨hfreed.inv, fun a => (hfreed.covered a).trans (hpost.covered a), ?_⟩, hpost.shrinks.trans hshrinks, ?_⟩
    · omega
    · omega

end Desiros.Mem
