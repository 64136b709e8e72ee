import Desiros.Mem.KvmmLists
import Desiros.Mem.SlabCache

/-!
# The invariant of the kernel ranges

`KvmmInv s held pending`: the lists ascend, all ranges are disjoint and have a page, the structures of the
ranges are different objects of the range cache, and the pages of each slab of the range cache are a used
range. `held` are structures taken from the cache that are no range yet, or no longer; `pending` are ranges
in neither list, on their way from the one to the other. That no two free ranges touch (`Gaps`) is not part
of it: between the insertion of a range and its merges it does not hold.
-/

namespace Desiros.Mem

open Desiros.Library KslabCache

/-- The range cache as `create_cache_of_ranges` sets it up. -/
structure RangeCacheOk (c : KslabCache (Option Nat)) : Prop where
  ok : c.Ok
  onSlab : c.onSlab = true
  pages : c.nbPagesPerSlab = 1
  minFree : c.minFreeObj = 2
  nbObj : 2 ≤ c.nbObjPerSlab

namespace Kvmm

variable {W : Type}

/-- All the ranges there are. -/
def all (s : Kvmm W) (pending : List KvmmRange) : List KvmmRange := s.freeList ++ s.usedList ++ pending

/-- The addresses in the ranges. -/
def Covered (s : Kvmm W) (pending : List KvmmRange) (a : Nat) : Prop := ∃ r ∈ s.all pending, r.Covers a

/-- The pages of the slab are a used range. -/
def HasRange (s : Kvmm W) (slab : Kslab (Option Nat)) : Prop :=
  ∃ r ∈ s.usedList, r.base = slab.firstObj ∧ r.nbPages = 1 ∧ s.slabOf r.addr = some slab.addr ∧
    (slab.range = none ∨ slab.range = some r.addr)

end Kvmm

open Kvmm

structure KvmmInv {W : Type} (s : Kvmm W) (held : List Nat) (pending : List KvmmRange) : Prop where
  apart : (s.all pending).Pairwise KvmmRange.Apart
  pos : ∀ r ∈ s.all pending, 0 < r.nbPages
  free_ascending : Ascending s.freeList
  used_ascending : Ascending s.usedList
  nodup : ((s.all pending).map (·.addr) ++ held).Nodup
  allocated : ∀ a ∈ (s.all pending).map (·.addr) ++ held, s.rangeCache.Allocated a
  cache : RangeCacheOk s.rangeCache
  slab : ∀ slab ∈ s.rangeCache.slabList, s.HasRange slab

/-- What ranges may do that `KvmmInv` forbids: free ranges may have lost their pages if `empty`, and the `fixed` used
ranges, which are never deleted, may overlap one another. What it leaves open: there are `structBytes` at least for
a structure. -/
structure Slack where
  empty : Prop
  fixed : KvmmRange → Prop
  structBytes : Nat

/-- No slack. -/
def Slack.none : Slack := ⟨False, fun _ => False, 0⟩

def Slack.Apart (e : Slack) (r r' : KvmmRange) : Prop := r.Apart r' ∨ e.fixed r ∧ e.fixed r'

theorem Slack.Apart.symm {e : Slack} {r r' : KvmmRange} (h : e.Apart r r') : e.Apart r' r :=
  h.imp KvmmRange.Apart.symm And.symm

structure KvmmInvWith {W : Type} (e : Slack) (s : Kvmm W) (held : List Nat) (pending : List KvmmRange) : Prop where
  apart : (s.all pending).Pairwise e.Apart
  pos : ∀ r ∈ s.usedList ++ pending, 0 < r.nbPages
  free_pos : ¬ e.empty → ∀ r ∈ s.freeList, 0 < r.nbPages
  free_ascending : Ascending s.freeList
  used_ascending : Ascending s.usedList
  nodup : ((s.all pending).map (·.addr) ++ held).Nodup
  allocated : ∀ a ∈ (s.all pending).map (·.addr) ++ held, s.rangeCache.Allocated a
  cache : RangeCacheOk s.rangeCache
  slab : ∀ slab ∈ s.rangeCache.slabList, s.HasRange slab
  fixed_used : ∀ r, e.fixed r → r ∈ s.usedList
  fixed_slab : ∀ r, e.fixed r → ∀ slab ∈ s.rangeCache.slabList, slab.firstObj ≠ r.base
  structs : e.structBytes ≤ s.rangeCache.allocObjSize

variable {W : Type} {s s' : Kvmm W} {held held' : List Nat} {pending pending' : List KvmmRange}
  {slab : Kslab (Option Nat)} {r p f : KvmmRange} {a : Nat} {e : Slack}

theorem mem_all : r ∈ s.all pending ↔ r ∈ s.freeList ∨ r ∈ s.usedList ∨ r ∈ pending := by
  rw [all, List.mem_append, List.mem_append, or_assoc]

theorem KvmmInvWith.used_pos (h : KvmmInvWith e s held pending) (hr : r ∈ s.usedList) : 0 < r.nbPages :=
  h.pos r (List.mem_append_left _ hr)

theorem KvmmInvWith.pending_pos (h : KvmmInvWith e s held pending) (hr : r ∈ pending) : 0 < r.nbPages :=
  h.pos r (List.mem_append_right _ hr)

theorem KvmmInvWith.all_pos (h : KvmmInvWith e s held pending) (he : ¬ e.empty) (hr : r ∈ s.all pending) :
    0 < r.nbPages := by
  rcases mem_all.mp hr with hfree | hused | hpending
  · exact h.free_pos he r hfree
  · exact h.used_pos hused
  · exact h.pending_pos hpending

theorem kvmmInv_iff : KvmmInv s held pending ↔ KvmmInvWith .none s held pending := by
  constructor
  · intro h
    refine ⟨h.apart.imp Or.inl, fun r hr => h.pos r ?_, fun _ r hr => h.pos r (mem_all.mpr (.inl hr)),
      h.free_ascending, h.used_ascending, h.nodup, h.allocated, h.cache, h.slab, fun _ hf => hf.elim,
      fun _ hf => hf.elim, Nat.zero_le _⟩
    exact mem_all.mpr (.inr (List.mem_append.mp hr))
  · intro h
    exact ⟨h.apart.imp fun hap => hap.resolve_right fun hf => hf.1, fun r hr => h.all_pos id hr, h.free_ascending,
      h.used_ascending, h.nodup, h.allocated, h.cache, h.slab⟩

theorem KvmmInvWith.all_nodup (h : KvmmInvWith e s held pending) : AddrNodup (s.all pending) :=
  (List.nodup_append.mp h.nodup).1

theorem KvmmInvWith.free_nodup (h : KvmmInvWith e s held pending) : AddrNodup s.freeList := by
  have := h.all_nodup
  unfold AddrNodup all at this
  rw [List.map_append, List.map_append] at this
  exact (List.nodup_append.mp (List.nodup_append.mp this).1).1

theorem KvmmInvWith.used_nodup (h : KvmmInvWith e s held pending) : AddrNodup s.usedList := by
  have := h.all_nodup
  unfold AddrNodup all at this
  rw [List.map_append, List.map_append] at this
  exact (List.nodup_append.mp (List.nodup_append.mp this).1).2.1

/-- A range that is free or on its way has another structure than a used one. -/
theorem KvmmInvWith.not_fixed (h : KvmmInvWith e s held pending) (hr : r ∈ s.freeList ∨ r ∈ pending) :
    ¬ e.fixed r := by
  intro hf
  have hused := List.mem_map_of_mem (f := KvmmRange.addr) (h.fixed_used r hf)
  have hnodup := h.all_nodup
  unfold AddrNodup all at hnodup
  rw [List.map_append, List.map_append] at hnodup
  obtain ⟨hleft, -, hright⟩ := List.nodup_append.mp hnodup
  rcases hr with hr | hr
  · exact (List.nodup_append.mp hleft).2.2 _ (List.mem_map_of_mem hr) _ hused rfl
  · exact hright _ (List.mem_append_right _ hused) _ (List.mem_map_of_mem hr) rfl

/-- The fixed ranges have other structures than those held. -/
theorem KvmmInvWith.not_fixed_of_held (h : KvmmInvWith e s held pending) (hr : r.addr ∈ held) : ¬ e.fixed r := by
  intro hf
  have hall : r.addr ∈ (s.all pending).map (·.addr) :=
    List.mem_map_of_mem (mem_all.mpr (.inr (.inl (h.fixed_used r hf))))
  exact (List.nodup_append.mp h.nodup).2.2 _ hall _ hr rfl

theorem KvmmInvWith.not_fixed_of_base (h : KvmmInvWith e s held pending) (hs : slab ∈ s.rangeCache.slabList)
    (hbase : r.base = slab.firstObj) : ¬ e.fixed r := fun hf => h.fixed_slab r hf slab hs hbase.symm

theorem KvmmInvWith.apart_of_ne (h : KvmmInvWith e s held pending) (hr : r ∈ s.all pending) (hp : p ∈ s.all pending)
    (hf : ¬ e.fixed r) (hne : r ≠ p) : r.Apart p :=
  (@List.Pairwise.forall _ _ _ ⟨fun _ _ => Slack.Apart.symm⟩ h.apart _ hr _ hp hne).resolve_right fun hfix => hf hfix.1

/-! ## Resolving an object of the range cache -/

theorem KvmmInvWith.slabBytes (h : KvmmInvWith e s held pending) : s.rangeCache.slabBytes = nbBytesPerPage := by
  rw [KslabCache.slabBytes, h.cache.pages, Nat.one_mul]

/-- No fixed range starts behind the range, if it is one. -/
def Slack.Last (e : Slack) (r : KvmmRange) : Prop := e.fixed r → ∀ x, e.fixed x → ¬ r.base < x.base

theorem Slack.last_of_not_fixed (hf : ¬ e.fixed r) : e.Last r := fun hr => absurd hr hf

/-- The used range that covers an address is found. -/
theorem KvmmInvWith.lookup (h : KvmmInvWith e s held pending) (hr : r ∈ s.usedList) (hlast : e.Last r)
    (hcov : r.Covers a) : lookupRange s a = some r := by
  have hfind : getClosestPrecedingKvmmRange s.usedList a = some r := by
    refine getClosestPrecedingKvmmRange_of_covers h.used_ascending hr (fun x hx hlt => ?_) hcov
    have hne : r ≠ x := fun he => Nat.lt_irrefl _ (he ▸ hlt)
    have hall : ∀ y ∈ s.usedList, y ∈ s.all pending := fun y hy => mem_all.mpr (.inr (.inl hy))
    by_cases hf : e.fixed r
    · have hfx : ¬ e.fixed x := fun hfx => hlast hf x hfx hlt
      exact h.apart_of_ne (hall x hx) (hall r hr) hfx (Ne.symm hne)
    · exact (h.apart_of_ne (hall r hr) (hall x hx) hf hne).symm
  have hin : ¬ (a < r.base ∨ a ≥ r.top) := by
    unfold KvmmRange.Covers at hcov
    omega
  unfold lookupRange
  rw [hfind]
  exact if_neg hin

/-- An object of a slab is found through the used range of the slab. -/
theorem KvmmInvWith.resolve (h : KvmmInvWith e s held pending) (hs : slab ∈ s.rangeCache.slabList)
    (ha : s.rangeCache.Covers slab a) : kvmmResolveSlab s a = some slab := by
  obtain ⟨r, hr, hbase, hpages, hslab, _⟩ := h.slab slab hs
  have hcov : r.Covers a := by
    unfold KvmmRange.Covers KvmmRange.top
    unfold KslabCache.Covers at ha
    rw [h.slabBytes] at ha
    rw [hbase, hpages, Nat.one_mul]
    exact ha
  unfold kvmmResolveSlab
  rw [h.lookup hr (Slack.last_of_not_fixed (h.not_fixed_of_base hs hbase)) hcov]
  simp only [hslab]
  -- the address of a structure on its slab tells the slab
  cases hf : s.rangeCache.slabList.find? (fun x => x.addr = slab.addr) with
  | none =>
    rw [List.find?_eq_none] at hf
    exact absurd (by simp) (hf slab hs)
  | some slab' =>
    have hs' := List.mem_of_find?_eq_some hf
    have haddr := List.find?_some hf
    rw [decide_eq_true_eq] at haddr
    have h1 := (h.cache.ok.slabs slab hs).addr h.cache.onSlab
    have h2 := (h.cache.ok.slabs slab' hs').addr h.cache.onSlab
    have hfirst : slab'.firstObj = slab.firstObj := by omega
    rw [h.cache.ok.eq_of_covers hs' hs (a := a) ?_ ha]
    unfold KslabCache.Covers at ha ⊢
    rwa [hfirst]

/-! ## Moving ranges between the lists -/

/-- The same ranges, in other lists. -/
theorem KvmmInvWith.move (h : KvmmInvWith e s held pending) (hall : (s'.all pending').Perm (s.all pending))
    (hpos : ∀ r ∈ s'.usedList ++ pending', 0 < r.nbPages) (hfree : Ascending s'.freeList)
    (hused : Ascending s'.usedList) (hfixed : ∀ r, e.fixed r → r ∈ s'.usedList) (hcache : s'.rangeCache = s.rangeCache)
    (hslab : ∀ slab ∈ s.rangeCache.slabList, s'.HasRange slab) : KvmmInvWith e s' held pending' := by
  have hmap := hall.map (·.addr)
  refine ⟨(hall.pairwise_iff Slack.Apart.symm).mpr h.apart, hpos,
    fun he r hr => h.all_pos he (hall.mem_iff.mp (mem_all.mpr (.inl hr))), hfree, hused,
    ((hmap.append_right held).nodup_iff).mpr h.nodup, fun a ha => ?_, hcache ▸ h.cache, hcache ▸ hslab, hfixed,
    hcache ▸ h.fixed_slab, hcache ▸ h.structs⟩
  rw [hcache]
  exact h.allocated a ((hmap.append_right held).mem_iff.mp ha)

theorem covered_of_perm (hall : (s'.all pending').Perm (s.all pending)) (a : Nat) :
    s'.Covered pending' a ↔ s.Covered pending a := by
  unfold Covered
  constructor
  · rintro ⟨r, hr, ha⟩
    exact ⟨r, hall.mem_iff.mp hr, ha⟩
  · rintro ⟨r, hr, ha⟩
    exact ⟨r, hall.mem_iff.mpr hr, ha⟩

/-- Two neighbours become one range; the caller holds the structure of the second. -/
theorem KvmmInvWith.merge {rest : List KvmmRange} {m : KvmmRange} (h : KvmmInvWith e s held pending)
    (hall : (s.all pending).Perm (p :: r :: rest)) (hall' : (s'.all pending').Perm (m :: rest))
    (htouch : p.top = r.base) (hm : m = { p with nbPages := p.nbPages + r.nbPages })
    (hseam : ∀ x ∈ rest, 0 < x.nbPages ∨ x.base ≠ r.base) (hpos : ∀ x ∈ s'.usedList ++ pending', 0 < x.nbPages)
    (hp : ¬ e.fixed p) (hr : ¬ e.fixed r) (hfree : Ascending s'.freeList) (hused : Ascending s'.usedList)
    (hfixed : ∀ r, e.fixed r → r ∈ s'.usedList) (hcache : s'.rangeCache = s.rangeCache)
    (hslab : ∀ slab ∈ s.rangeCache.slabList, s'.HasRange slab) :
    KvmmInvWith e s' (r.addr :: held) pending' ∧ ∀ a, s'.Covered pending' a ↔ s.Covered pending a := by
  subst hm
  have htop : KvmmRange.top { p with nbPages := p.nbPages + r.nbPages } = r.top := by
    unfold KvmmRange.top at htouch
    show p.base + (p.nbPages + r.nbPages) * nbBytesPerPage = r.base + r.nbPages * nbBytesPerPage
    rw [Nat.add_mul]
    omega
  have hpairs := List.pairwise_cons.mp ((hall.pairwise_iff Slack.Apart.symm).mp h.apart)
  have hrest := List.pairwise_cons.mp hpairs.2
  have hlep := KvmmRange.base_le_top p
  have hler := KvmmRange.base_le_top r
  have haddr : ((s.all pending).map (·.addr) ++ held).Perm
      ((s'.all pending').map (·.addr) ++ r.addr :: held) := by
    refine ((hall.map (·.addr)).append_right held).trans ?_
    refine List.Perm.trans ?_ ((hall'.map (·.addr)).append_right (r.addr :: held)).symm
    rw [List.map_cons, List.map_cons, List.map_cons, List.cons_append, List.cons_append, List.cons_append]
    exact List.Perm.cons _ List.perm_middle.symm
  refine ⟨⟨(hall'.pairwise_iff Slack.Apart.symm).mpr (List.pairwise_cons.mpr ⟨fun x hx => Or.inl ?_, hrest.2⟩), hpos, fun he x hx => ?_, hfree, hused, haddr.nodup_iff.mp h.nodup, fun a ha => ?_, hcache ▸ h.cache,
    hcache ▸ hslab, hfixed, hcache ▸ h.fixed_slab, hcache ▸ h.structs⟩, fun a => ?_⟩
  · -- a range apart from both is apart from their union, unless it is empty and lies between them
    have h1 := (hpairs.1 x (List.mem_cons_of_mem _ hx)).resolve_right fun hf => hp hf.1
    have h2 := (hrest.1 x hx).resolve_right fun hf => hr hf.1
    have hle := KvmmRange.base_le_top x
    unfold KvmmRange.Apart at h1 h2 ⊢
    rw [htop]
    show r.top ≤ x.base ∨ x.top ≤ p.base
    rcases hseam x hx with hposx | hne
    · have hlt := KvmmRange.base_lt_top hposx
      omega
    · omega
  · rcases List.mem_cons.mp (hall'.mem_iff.mp (mem_all.mpr (.inl hx))) with rfl | hx
    · have hposp := h.all_pos he (hall.mem_iff.mpr List.mem_cons_self)
      exact Nat.lt_of_lt_of_le hposp (Nat.le_add_right _ _)
    · exact h.all_pos he (hall.mem_iff.mpr (List.mem_cons_of_mem _ (List.mem_cons_of_mem _ hx)))
  · rw [hcache]
    exact h.allocated a (haddr.mem_iff.mpr ha)
  · unfold Covered
    simp only [hall.mem_iff, hall'.mem_iff, List.mem_cons]
    have hsplit : KvmmRange.Covers { p with nbPages := p.nbPages + r.nbPages } a ↔ p.Covers a ∨ r.Covers a := by
      unfold KvmmRange.Covers
      rw [htop]
      show p.base ≤ a ∧ a < r.top ↔ _
      omega
    constructor
    · rintro ⟨x, rfl | hx, ha⟩
      · rcases hsplit.mp ha with ha | ha
        · exact ⟨p, .inl rfl, ha⟩
        · exact ⟨r, .inr (.inl rfl), ha⟩
      · exact ⟨x, .inr (.inr hx), ha⟩
    · rintro ⟨x, rfl | rfl | hx, ha⟩
      · exact ⟨_, .inl rfl, hsplit.mpr (.inl ha)⟩
      · exact ⟨_, .inl rfl, hsplit.mpr (.inr ha)⟩
      · exact ⟨x, .inr hx, ha⟩

/-- One range becomes two; the structure of the new one was held by the caller. -/
theorem KvmmInvWith.split {rest : List KvmmRange} {n f' : KvmmRange} {k : Nat}
    (h : KvmmInvWith e s (n.addr :: held) pending) (hall : (s.all pending).Perm (f :: rest))
    (hall' : (s'.all pending).Perm (n :: f' :: rest)) (hn : n.base = f.base ∧ n.nbPages = k)
    (hf' : f' = { f with
      base := f.base + k * nbBytesPerPage
      nbPages := f.nbPages - k }) (hk : 0 < k) (hle : k ≤ f.nbPages) (hlt : ¬ e.empty → k < f.nbPages)
    (hpos : ∀ x ∈ s'.usedList ++ pending, 0 < x.nbPages) (hf : ¬ e.fixed f) (hfree : Ascending s'.freeList)
    (hused : Ascending s'.usedList) (hfixed : ∀ r, e.fixed r → r ∈ s'.usedList)
    (hcache : s'.rangeCache = s.rangeCache)
    (hslab : ∀ slab ∈ s.rangeCache.slabList, s'.HasRange slab) :
    KvmmInvWith e s' held pending ∧ ∀ a, s'.Covered pending a ↔ s.Covered pending a := by
  subst hf'
  have hntop : n.top = f.base + k * nbBytesPerPage := by rw [KvmmRange.top, hn.1, hn.2]
  have hftop : KvmmRange.top { f with
      base := f.base + k * nbBytesPerPage
      nbPages := f.nbPages - k } = f.top := by
    show f.base + k * nbBytesPerPage + (f.nbPages - k) * nbBytesPerPage = f.base + f.nbPages * nbBytesPerPage
    rw [Nat.add_assoc, ← Nat.add_mul, Nat.add_sub_cancel' hle]
  have hle : f.base + k * nbBytesPerPage ≤ f.top := by
    rw [← hftop]
    show _ ≤ f.base + k * nbBytesPerPage + (f.nbPages - k) * nbBytesPerPage
    omega
  have hpairs := List.pairwise_cons.mp ((hall.pairwise_iff Slack.Apart.symm).mp h.apart)
  have hapart : ∀ x ∈ rest, f.Apart x := fun x hx => (hpairs.1 x hx).resolve_right fun hfix => hf hfix.1
  have haddr : ((s.all pending).map (·.addr) ++ n.addr :: held).Perm
      ((s'.all pending).map (·.addr) ++ held) := by
    refine ((hall.map (·.addr)).append_right (n.addr :: held)).trans ?_
    refine List.Perm.trans ?_ ((hall'.map (·.addr)).append_right held).symm
    rw [List.map_cons, List.map_cons, List.map_cons, List.cons_append, List.cons_append, List.cons_append]
    exact (List.Perm.cons _ List.perm_middle).trans (List.Perm.swap _ _ _)
  refine ⟨⟨(hall'.pairwise_iff Slack.Apart.symm).mpr (List.pairwise_cons.mpr ⟨fun x hx => Or.inl ?_,
    List.pairwise_cons.mpr ⟨fun x hx => Or.inl ?_, hpairs.2⟩⟩), hpos, fun he x hx => ?_, hfree, hused,
    haddr.nodup_iff.mp h.nodup, fun a ha => ?_, hcache ▸ h.cache, hcache ▸ hslab, hfixed, hcache ▸ h.fixed_slab,
    hcache ▸ h.structs⟩, fun a => ?_⟩
  · rcases List.mem_cons.mp hx with rfl | hx
    · left
      rw [hntop]
    · have := hapart x hx
      unfold KvmmRange.Apart at this ⊢
      rw [hntop, hn.1]
      omega
  · have := hapart x hx
    unfold KvmmRange.Apart at this ⊢
    rw [hftop]
    show f.top ≤ x.base ∨ x.top ≤ f.base + k * nbBytesPerPage
    omega
  · rcases List.mem_cons.mp (hall'.mem_iff.mp (mem_all.mpr (.inl hx))) with rfl | hx
    · rwa [hn.2]
    · rcases List.mem_cons.mp hx with rfl | hx
      · exact Nat.sub_pos_of_lt (hlt he)
      · exact h.all_pos he (hall.mem_iff.mpr (List.mem_cons_of_mem _ hx))
  · rw [hcache]
    exact h.allocated a (haddr.mem_iff.mpr ha)
  · unfold Covered
    simp only [hall.mem_iff, hall'.mem_iff, List.mem_cons]
    have hsplit : f.Covers a ↔ n.Covers a ∨ KvmmRange.Covers { f with
        base := f.base + k * nbBytesPerPage
        nbPages := f.nbPages - k } a := by
      unfold KvmmRange.Covers
      rw [hftop, hntop, hn.1]
      show f.base ≤ a ∧ a < f.top ↔ _ ∨ f.base + k * nbBytesPerPage ≤ a ∧ a < f.top
      omega
    constructor
    · rintro ⟨x, rfl | rfl | hx, ha⟩
      · exact ⟨f, .inl rfl, hsplit.mpr (.inl ha)⟩
      · exact ⟨f, .inl rfl, hsplit.mpr (.inr ha)⟩
      · exact ⟨x, .inr hx, ha⟩
    · rintro ⟨x, rfl | hx, ha⟩
      · rcases hsplit.mp ha with ha | ha
        · exact ⟨n, .inl rfl, ha⟩
        · exact ⟨_, .inr (.inl rfl), ha⟩
      · exact ⟨x, .inr (.inr hx), ha⟩

/-! ## What the range cache leaves alone -/

/-- A used range that is no page of the range cache. -/
def Foreign (s : Kvmm W) (r : KvmmRange) : Prop :=
  r ∈ s.usedList ∧ ∀ slab ∈ s.rangeCache.slabList, slab.firstObj ≠ r.base

/-- Such ranges stay, with the slab they have. -/
def Keeps (s s' : Kvmm W) : Prop :=
  ∀ r, Foreign s r → Foreign s' r ∧ s'.slabOf r.addr = s.slabOf r.addr

theorem Keeps.refl (s : Kvmm W) : Keeps s s := fun _ hr => ⟨hr, rfl⟩

theorem Keeps.trans {s'' : Kvmm W} (h : Keeps s s') (h' : Keeps s' s'') : Keeps s s'' := by
  intro r hr
  obtain ⟨hr', hslab⟩ := h r hr
  obtain ⟨hr'', hslab'⟩ := h' r hr'
  exact ⟨hr'', hslab'.trans hslab⟩

/-- Where only slabs of the range cache go. -/
theorem Keeps.of_used (hused : ∀ r, Foreign s r → r ∈ s'.usedList)
    (hkeys : ∀ k ∈ s'.rangeCache.keys, k ∈ s.rangeCache.keys)
    (hslab : ∀ r, Foreign s r → s'.slabOf r.addr = s.slabOf r.addr) : Keeps s s' := by
  intro r hr
  refine ⟨⟨hused r hr, fun slab hs => ?_⟩, hslab r hr⟩
  obtain ⟨slab₀, hs₀, hkey⟩ := List.mem_map.mp (hkeys _ (List.mem_map_of_mem hs))
  rw [Prod.mk.injEq, Prod.mk.injEq] at hkey
  rw [← hkey.2.1]
  exact hr.2 slab₀ hs₀

/-! ## Structures taken from the range cache and given back -/

section Structures

variable {c' : KslabCache (Option Nat)} {slab' : Kslab (Option Nat)}

theorem HasRange.congr (h : s.HasRange slab) (hkey : (slab'.addr, slab'.firstObj, slab'.range) =
    (slab.addr, slab.firstObj, slab.range)) : s.HasRange slab' := by
  rw [Prod.mk.injEq, Prod.mk.injEq] at hkey
  unfold HasRange at h ⊢
  rwa [hkey.1, hkey.2.1, hkey.2.2]

theorem RangeCacheOk.of_params (h : RangeCacheOk s.rangeCache) (hok : c'.Ok)
    (hparams : s.rangeCache.SameParams c') : RangeCacheOk c' := by
  refine ⟨hok, hparams.onSlab.trans h.onSlab, hparams.nbPagesPerSlab.trans h.pages,
    hparams.minFreeObj.trans h.minFree, ?_⟩
  rw [hparams]
  exact h.nbObj

/-- The range cache changes its objects, not its slabs. -/
theorem KvmmInvWith.setCache (h : KvmmInvWith e s held pending) (hok : c'.Ok) (hparams : s.rangeCache.SameParams c')
    (hkeys : ∀ k ∈ c'.keys, k ∈ s.rangeCache.keys) (hnodup : ((s.all pending).map (·.addr) ++ held').Nodup)
    (hall : ∀ a ∈ (s.all pending).map (·.addr) ++ held', c'.Allocated a) :
    KvmmInvWith e { s with rangeCache := c' } held' pending := by
  have hsame : ∀ slab ∈ c'.slabList, ∃ slab₀ ∈ s.rangeCache.slabList,
      (slab₀.addr, slab₀.firstObj, slab₀.range) = (slab.addr, slab.firstObj, slab.range) :=
    fun slab hs => List.mem_map.mp (hkeys _ (List.mem_map_of_mem hs))
  refine ⟨h.apart, h.pos, h.free_pos, h.free_ascending, h.used_ascending, hnodup, hall,
    h.cache.of_params hok hparams, fun slab hs => ?_, h.fixed_used, fun r hr slab hs => ?_,
    hparams.allocObjSize.symm ▸ h.structs⟩
  · obtain ⟨slab₀, hs₀, hkey⟩ := hsame slab hs
    exact HasRange.congr (h.slab slab₀ hs₀) hkey.symm
  · obtain ⟨slab₀, hs₀, hkey⟩ := hsame slab hs
    rw [Prod.mk.injEq, Prod.mk.injEq] at hkey
    rw [← hkey.2.1]
    exact h.fixed_slab r hr slab₀ hs₀

/-- **Taking a structure.** -/
theorem KvmmInvWith.take (h : KvmmInvWith e s held pending) {obj : Nat}
    (ht : cacheTakeObject s.rangeCache = some (obj, c')) :
    KvmmInvWith e { s with rangeCache := c' } (obj :: held) pending := by
  obtain ⟨hok, hparams, hkeys, _, hfree, hall⟩ := h.cache.ok.take ht
  have hnew : obj ∉ (s.all pending).map (·.addr) ++ held := fun hm => hfree (h.allocated _ hm)
  have hperm : ((s.all pending).map (·.addr) ++ obj :: held).Perm
      (obj :: ((s.all pending).map (·.addr) ++ held)) := List.perm_middle
  refine h.setCache hok hparams (fun k hk => hkeys.mem_iff.mp hk)
    (hperm.nodup_iff.mpr (List.nodup_cons.mpr ⟨hnew, h.nodup⟩)) fun a ha => ?_
  rcases List.mem_cons.mp (hperm.mem_iff.mp ha) with rfl | ha
  · exact (hall a).mpr (.inr rfl)
  · exact (hall a).mpr (.inl (h.allocated a ha))

/-- **Giving a structure back**: its slab is found, and it is free again. -/
theorem KvmmInvWith.give (h : KvmmInvWith e s (a :: held) pending) :
    ∃ slab ∈ s.rangeCache.slabList, freeObject s a =
        some ({ s with rangeCache := cacheGiveObject s.rangeCache slab a },
          if (cacheGiveObject s.rangeCache slab a).canRelease (slab.give a) then some (slab.give a) else none) ∧
      slab.give a ∈ (cacheGiveObject s.rangeCache slab a).slabList ∧
      KvmmInvWith e { s with rangeCache := cacheGiveObject s.rangeCache slab a } held pending ∧
      Keeps s { s with rangeCache := cacheGiveObject s.rangeCache slab a } ∧
      (cacheGiveObject s.rangeCache slab a).keys.Perm s.rangeCache.keys := by
  have hperm : ((s.all pending).map (·.addr) ++ a :: held).Perm
      (a :: ((s.all pending).map (·.addr) ++ held)) := List.perm_middle
  have hnodup := List.nodup_cons.mp (hperm.nodup_iff.mp h.nodup)
  obtain ⟨slab, hs, hslot, hfree⟩ := h.allocated a (hperm.mem_iff.mpr List.mem_cons_self)
  have hcov := hslot.covers h.cache.ok.shape
  obtain ⟨hok, hkeys, hall⟩ := h.cache.ok.give hs hslot hfree
  refine ⟨slab, hs, ?_, ?_, h.setCache hok rfl (fun k hk => hkeys.mem_iff.mp hk) hnodup.2 fun b hb => ?_,
    .of_used (fun r hr => hr.1) (fun k hk => hkeys.mem_iff.mp hk) fun _ _ => rfl, hkeys⟩
  · unfold freeObject
    simp only [h.resolve hs hcov, isObject_of_isSlot hslot h.cache.ok.shape, Bool.not_true, Bool.false_eq_true,
      if_false]
  · unfold cacheGiveObject
    split
    · exact List.mem_cons_self
    · exact List.mem_map.mpr ⟨slab, hs, if_pos rfl⟩
  · refine (hall b).mpr ⟨h.allocated b (hperm.mem_iff.mpr (List.mem_cons_of_mem _ hb)), ?_⟩
    rintro rfl
    exact hnodup.1 hb

end Structures

end Desiros.Mem
