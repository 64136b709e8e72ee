import Desiros.Mem.Uvmm
import Desiros.Mem.ArenaMap
import Mathlib.Data.List.Flatten

/-!
# What `uvmm_unmap` leaves

`cut` says what unmapping `[uaddr, uaddr + size)` leaves of one arena, and `uvmmUnmap_list` that
`uvmm_unmap` cuts every arena of a well-formed list. An arena that ends at the top of the address space
is not cut: its 32-bit end is `0`, which the loop takes for the head of the circular list.

From the closed form: the list stays well-formed, its structures distinct, and the pages it denotes
are the old ones outside the region.
-/

namespace Desiros.Mem

open Desiros.Library

variable {W : Type}

/-- Whole pages of user space below the last page boundary: what the checks of `uvmm_unmap` let
through. The size is `0` when rounding it up wraps. -/
structure Region (uaddr size : UInt32) : Prop where
  aligned : uaddr.toNat % 4096 = 0
  size_aligned : size.toNat % 4096 = 0
  user : 1073741824 ≤ uaddr.toNat
  top : uaddr.toNat + size.toNat < 4294967296

namespace Region

variable {uaddr size : UInt32} (h : Region uaddr size)

include h

theorem toNat_end : (uaddr + size).toNat = uaddr.toNat + size.toNat := by
  have := h.top
  rw [word_add]
  omega

end Region

/-- What is left of an arena. -/
def cut (uaddr size : UInt32) (preId : Nat) (a : UvmmArena) : List UvmmArena :=
  if a.hi ≤ uaddr.toNat ∨ uaddr.toNat + size.toNat ≤ a.lo ∨ a.hi = 4294967296 then [a]
  else
    (if a.lo < uaddr.toNat then [splitLeft uaddr a] else []) ++
    if uaddr.toNat + size.toNat < a.hi then
      [if a.lo < uaddr.toNat then splitRight uaddr size preId a else shiftStart uaddr size a]
    else []

/-! ## The pieces -/

section Pieces

variable {uaddr size : UInt32} {preId : Nat} {a : UvmmArena}

theorem splitLeft_lo : (splitLeft uaddr a).lo = a.lo := rfl

theorem splitLeft_hi (h : a.lo < uaddr.toNat) : (splitLeft uaddr a).hi = uaddr.toNat := by
  have := word_lt uaddr
  have := word_lt a.start
  simp only [UvmmArena.hi, UvmmArena.lo, splitLeft, word_sub] at *
  omega

theorem splitRight_lo (hr : Region uaddr size) :
    (splitRight uaddr size preId a).lo = uaddr.toNat + size.toNat := hr.toNat_end

theorem splitRight_hi (hr : Region uaddr size) (h : uaddr.toNat + size.toNat < a.hi)
    (htop : a.hi < 4294967296) : (splitRight uaddr size preId a).hi = a.hi := by
  have := hr.toNat_end
  simp only [UvmmArena.hi, splitRight, word_sub, word_add] at *
  omega

theorem shiftStart_lo (hr : Region uaddr size) (h : a.lo < uaddr.toNat + size.toNat) :
    (shiftStart uaddr size a).lo = uaddr.toNat + size.toNat := by
  have := hr.top
  have := word_lt a.start
  simp only [UvmmArena.lo, shiftStart, word_sub, word_add] at *
  omega

theorem shiftStart_hi (hr : Region uaddr size) (h : a.lo < uaddr.toNat + size.toNat)
    (hv : uaddr.toNat + size.toNat < a.hi) : (shiftStart uaddr size a).hi = a.hi := by
  have := hr.top
  have := word_lt a.start
  have := word_lt a.size
  simp only [UvmmArena.lo, UvmmArena.hi, shiftStart, word_sub, word_add] at *
  omega

/-- The three ways to be a piece of `a`. -/
theorem mem_cut {b : UvmmArena} (hb : b ∈ cut uaddr size preId a) :
    (b = a ∧ (a.hi ≤ uaddr.toNat ∨ uaddr.toNat + size.toNat ≤ a.lo ∨ a.hi = 4294967296)) ∨
    (a.lo < uaddr.toNat ∧ uaddr.toNat < a.hi ∧ b = splitLeft uaddr a) ∨
    (a.lo < uaddr.toNat + size.toNat ∧ uaddr.toNat + size.toNat < a.hi ∧ a.hi ≠ 4294967296 ∧
      (a.lo < uaddr.toNat ∧ b = splitRight uaddr size preId a ∨
        uaddr.toNat ≤ a.lo ∧ b = shiftStart uaddr size a)) := by
  rw [cut] at hb
  by_cases h0 : a.hi ≤ uaddr.toNat ∨ uaddr.toNat + size.toNat ≤ a.lo ∨ a.hi = 4294967296
  · rw [if_pos h0, List.mem_singleton] at hb
    exact .inl ⟨hb, h0⟩
  · rw [if_neg h0, List.mem_append] at hb
    push Not at h0
    obtain ⟨h1, h2, h3⟩ := h0
    rcases hb with hb | hb
    · split_ifs at hb with hl
      · exact .inr (.inl ⟨hl, h1, List.mem_singleton.mp hb⟩)
      · cases hb
    · split_ifs at hb with hr hl
      · exact .inr (.inr ⟨h2, hr, h3, .inl ⟨hl, List.mem_singleton.mp hb⟩⟩)
      · exact .inr (.inr ⟨h2, hr, h3, .inr ⟨not_lt.mp hl, List.mem_singleton.mp hb⟩⟩)
      · cases hb

/-- Pieces lie inside the arena and are made of whole pages; only a piece behind the region of an arena
that also has one before it gets the preallocated structure. -/
theorem cut_piece (hr : Region uaddr size) (ha : a.Ok) {b : UvmmArena}
    (hb : b ∈ cut uaddr size preId a) :
    b.Ok ∧ a.lo ≤ b.lo ∧ b.hi ≤ a.hi ∧
      (b.id = a.id ∨
        b.id = preId ∧ a.lo < uaddr.toNat ∧ b.lo = uaddr.toNat + size.toNat ∧ b.lo < a.hi) := by
  have hlo := ha.lo_lt_hi
  have hla := ha.start_aligned
  have hha := ha.hi_aligned
  have hua := hr.aligned
  have hsa := hr.size_aligned
  have hus := ha.user
  have htop := ha.top
  have mk : ∀ c : UvmmArena, a.lo ≤ c.lo → c.hi ≤ a.hi → c.lo % 4096 = 0 → c.hi % 4096 = 0 →
      c.lo < c.hi → c.Ok := by
    intro c h1 h2 h3 h4 h5
    refine ⟨h3, ?_, ?_, by omega, by omega⟩ <;> simp only [UvmmArena.lo, UvmmArena.hi] at * <;> omega
  rcases mem_cut hb with ⟨rfl, _⟩ | ⟨h1, h2, rfl⟩ | ⟨h1, h2, h3, ⟨h4, rfl⟩ | ⟨h4, rfl⟩⟩
  · exact ⟨ha, le_rfl, le_rfl, .inl rfl⟩
  · have hh := splitLeft_hi h1
    have hl : (splitLeft uaddr a).lo = a.lo := splitLeft_lo
    refine ⟨mk _ ?_ ?_ ?_ ?_ ?_, ?_, ?_, .inl rfl⟩ <;> omega
  · have hl : (splitRight uaddr size preId a).lo = uaddr.toNat + size.toNat := splitRight_lo hr
    have hh : (splitRight uaddr size preId a).hi = a.hi := splitRight_hi hr h2 (by omega)
    refine ⟨mk _ ?_ ?_ ?_ ?_ ?_, ?_, ?_, .inr ⟨rfl, h4, hl, ?_⟩⟩ <;> omega
  · have hl := shiftStart_lo hr h1
    have hh := shiftStart_hi hr h1 h2
    refine ⟨mk _ ?_ ?_ ?_ ?_ ?_, ?_, ?_, .inl rfl⟩ <;> omega

/-- The order in which arenas follow each other on a list. -/
def Precedes (a b : UvmmArena) : Prop := a.hi ≤ b.lo ∧ a.id ≠ b.id

theorem cut_pairwise (hr : Region uaddr size) (hid : a.id ≠ preId) :
    (cut uaddr size preId a).Pairwise Precedes := by
  rw [cut]
  split_ifs with h0 hl hv hv
  · exact List.pairwise_singleton _ _
  · refine List.pairwise_pair.mpr ⟨?_, hid⟩
    rw [splitLeft_hi hl, splitRight_lo hr]
    omega
  · exact List.pairwise_singleton _ _
  · exact List.pairwise_singleton _ _
  · exact List.Pairwise.nil

theorem entryAt_splitLeft (h : a.lo < uaddr.toNat) (p : Nat) :
    (splitLeft uaddr a).entryAt p = if a.lo ≤ p ∧ p < uaddr.toNat then some (a.entry p) else none := by
  rw [UvmmArena.entryAt_eq, splitLeft_lo, splitLeft_hi h]
  rfl

theorem entryAt_splitRight (hr : Region uaddr size) (hlo : a.lo < uaddr.toNat)
    (h : uaddr.toNat + size.toNat < a.hi) (htop : a.hi < 4294967296) (p : Nat) :
    (splitRight uaddr size preId a).entryAt p =
      if uaddr.toNat + size.toNat ≤ p ∧ p < a.hi then some (a.entry p) else none := by
  have hx : (uaddr + size - a.start).toNat + a.lo = uaddr.toNat + size.toNat := by
    have := hr.toNat_end
    have := hr.top
    simp only [UvmmArena.lo, word_sub] at *
    omega
  have he : (splitRight uaddr size preId a).entry p = a.entry p := by
    rw [UvmmArena.entry, splitRight_lo hr, UvmmArena.entry, ← offset_shift _ _ p _ _ hx]
    rfl
  rw [UvmmArena.entryAt_eq, splitRight_lo hr, splitRight_hi hr h htop, he]

theorem entryAt_shiftStart (hr : Region uaddr size) (hlo : a.lo < uaddr.toNat + size.toNat)
    (h : uaddr.toNat + size.toNat < a.hi) (p : Nat) :
    (shiftStart uaddr size a).entryAt p =
      if uaddr.toNat + size.toNat ≤ p ∧ p < a.hi then some (a.entry p) else none := by
  have hx : (uaddr + size - a.start).toNat + a.lo = uaddr.toNat + size.toNat := by
    have := hr.toNat_end
    have := hr.top
    simp only [UvmmArena.lo, word_sub] at *
    omega
  have he : (shiftStart uaddr size a).entry p = a.entry p := by
    rw [UvmmArena.entry, shiftStart_lo hr hlo, UvmmArena.entry, ← offset_shift _ _ p _ _ hx]
    rfl
  rw [UvmmArena.entryAt_eq, shiftStart_lo hr hlo, shiftStart_hi hr hlo h, he]

/-- Inside the region nothing is left; elsewhere each page keeps its entry. -/
theorem entriesAt_cut (hr : Region uaddr size) (hok : a.Ok) (p : Nat) :
    entriesAt (cut uaddr size preId a) p =
      if a.hi ≠ 4294967296 ∧ uaddr.toNat ≤ p ∧ p < uaddr.toNat + size.toNat then []
      else (a.entryAt p).toList := by
  have htop := hok.top
  rw [cut]
  by_cases h0 : a.hi ≤ uaddr.toNat ∨ uaddr.toNat + size.toNat ≤ a.lo ∨ a.hi = 4294967296
  · rw [if_pos h0, entriesAt_cons, entriesAt_nil, List.append_nil]
    split_ifs with hp
    · rw [entryAt_of_not_contains fun hc => ?_]
      · rfl
      · have := hc.1
        have := hc.2
        omega
    · rfl
  rw [if_neg h0, entriesAt_append]
  push Not at h0
  obtain ⟨h1, h2, h3⟩ := h0
  have hleft : entriesAt (if a.lo < uaddr.toNat then [splitLeft uaddr a] else []) p =
      if a.lo ≤ p ∧ p < uaddr.toNat then [a.entry p] else [] := by
    split_ifs with hl hp hp
    · rw [entriesAt_cons, entryAt_splitLeft hl, if_pos hp]
      rfl
    · rw [entriesAt_cons, entryAt_splitLeft hl, if_neg hp]
      rfl
    · omega
    · rfl
  have hright : entriesAt (if uaddr.toNat + size.toNat < a.hi then
        [if a.lo < uaddr.toNat then splitRight uaddr size preId a else shiftStart uaddr size a]
        else []) p =
      if uaddr.toNat + size.toNat ≤ p ∧ p < a.hi then [a.entry p] else [] := by
    by_cases hv : uaddr.toNat + size.toNat < a.hi
    · rw [if_pos hv, entriesAt_cons, entriesAt_nil, List.append_nil]
      by_cases hl : a.lo < uaddr.toNat
      · rw [if_pos hl, entryAt_splitRight hr hl hv (by omega)]
        split_ifs <;> rfl
      · rw [if_neg hl, entryAt_shiftStart hr h2 hv]
        split_ifs <;> rfl
    · rw [if_neg hv, if_neg fun hp => hv (lt_of_le_of_lt hp.1 hp.2)]
      rfl
  rw [hleft, hright, UvmmArena.entryAt_eq]
  by_cases hp1 : p < uaddr.toNat
  · rw [if_neg (show ¬ (uaddr.toNat + size.toNat ≤ p ∧ p < a.hi) by omega), List.append_nil,
      if_neg (show ¬ (a.hi ≠ 4294967296 ∧ uaddr.toNat ≤ p ∧ p < uaddr.toNat + size.toNat) by omega)]
    by_cases hp2 : a.lo ≤ p
    · rw [if_pos ⟨hp2, hp1⟩, if_pos ⟨hp2, by omega⟩]
      rfl
    · rw [if_neg fun h => hp2 h.1, if_neg fun h => hp2 h.1]
      rfl
  · rw [if_neg (show ¬ (a.lo ≤ p ∧ p < uaddr.toNat) by omega), List.nil_append]
    by_cases hp2 : p < uaddr.toNat + size.toNat
    · rw [if_neg (show ¬ (uaddr.toNat + size.toNat ≤ p ∧ p < a.hi) by omega),
        if_pos ⟨h3, by omega, hp2⟩]
    · rw [if_neg (show ¬ (a.hi ≠ 4294967296 ∧ uaddr.toNat ≤ p ∧ p < uaddr.toNat + size.toNat)
        by omega)]
      by_cases hp3 : p < a.hi
      · rw [if_pos ⟨by omega, hp3⟩, if_pos ⟨by omega, hp3⟩]
        rfl
      · rw [if_neg fun h => hp3 h.2, if_neg fun h => hp3 h.2]
        rfl

end Pieces

/-! ## A whole list -/

section CutList

variable {uaddr size : UInt32} {preId : Nat} {l : List UvmmArena}

theorem cut_eq_self {a : UvmmArena} (h : uaddr.toNat + size.toNat ≤ a.lo) :
    cut uaddr size preId a = [a] := by
  rw [cut, if_pos (.inr (.inl h))]

theorem flatMap_cut_eq_self (h : ∀ a ∈ l, a.hi ≤ uaddr.toNat ∨ uaddr.toNat + size.toNat ≤ a.lo) :
    l.flatMap (cut uaddr size preId) = l := by
  induction l with
  | nil => rfl
  | cons a l ih =>
    rw [List.forall_mem_cons] at h
    rw [List.flatMap_cons, ih h.2, cut, if_pos (h.1.imp_right .inl)]
    rfl

theorem wellFormed_flatMap_cut (hr : Region uaddr size) (hwf : WellFormed l)
    (hid : DistinctIds l preId) :
    WellFormed (l.flatMap (cut uaddr size preId)) ∧
      DistinctIds (l.flatMap (cut uaddr size preId)) (preId + 1) := by
  have hpair : l.Pairwise fun a b => a.hi ≤ b.lo ∧ a.id ≠ b.id :=
    hwf.sorted.and (List.pairwise_map.mp hid.nodup)
  have hcut : (l.flatMap (cut uaddr size preId)).Pairwise Precedes := by
    refine List.pairwise_flatMap.mpr ⟨fun a ha => cut_pairwise hr (hid.lt a ha).ne, ?_⟩
    refine hpair.imp_of_mem fun {a b} ha hb hab x hx y hy => ?_
    obtain ⟨_, _, hxa, hxid⟩ := cut_piece hr (hwf.arenas a ha) hx
    obtain ⟨_, hyb, _, hyid⟩ := cut_piece hr (hwf.arenas b hb) hy
    have hbhi := (hwf.arenas b hb).lo_lt_hi
    have hida := hid.lt a ha
    have hidb := hid.lt b hb
    refine ⟨by omega, fun he => ?_⟩
    rcases hxid with hxid | ⟨hxid, _, _, _⟩ <;> rcases hyid with hyid | ⟨hyid, _, _, _⟩
    · exact hab.2 (by omega)
    · omega
    · omega
    · have := hab.1
      omega
  refine ⟨wellFormed_iff.mpr ⟨fun x hx => ?_, hcut.imp And.left⟩,
    ⟨List.pairwise_map.mpr (hcut.imp And.right), fun x hx => ?_⟩⟩
  · obtain ⟨a, ha, hxa⟩ := List.mem_flatMap.mp hx
    exact (cut_piece hr (hwf.arenas a ha) hxa).1
  · obtain ⟨a, ha, hxa⟩ := List.mem_flatMap.mp hx
    have := hid.lt a ha
    rcases (cut_piece hr (hwf.arenas a ha) hxa).2.2.2 with h | ⟨h, _⟩ <;> omega

end CutList

/-! ## The loop -/

section Walk

variable (E : UvmmEnv W) {uaddr size : UInt32} (preId : Nat)

theorem unmapWalk_list (hr : Region uaddr size) :
    ∀ (l : List UvmmArena) (k : UnmapWalk W), WellFormed l → (∀ a ∈ l, uaddr.toNat < a.hi) →
      (unmapWalk E uaddr size preId l k).1 = l.flatMap (cut uaddr size preId) := by
  intro l
  induction l with
  | nil => intro k _ _; rfl
  | cons a l ih =>
    intro k hwf hu
    obtain ⟨hok, hlt, hl⟩ := wellFormed_cons.mp hwf
    rw [List.forall_mem_cons] at hu
    have hend := hok.toNat_end
    have hv := hr.toNat_end
    have htop := hok.top
    have hlohi := hok.lo_lt_hi
    have hstart : a.start.toNat = a.lo := rfl
    rw [List.flatMap_cons, unmapWalk]
    by_cases htop' : a.hi = 4294967296
    · -- the end of the last arena wraps to 0
      have hnil : l = [] := List.eq_nil_iff_forall_not_mem.mpr fun b hb => by
        have := hlt b hb
        have := (hl.arenas b hb).lo_lt_hi
        have := (hl.arenas b hb).top
        omega
      rw [if_pos htop'] at hend
      rw [if_pos (word_le_iff.mpr (by omega)), cut, if_pos (.inr (.inr htop')), hnil]
      rfl
    rw [if_neg htop'] at hend
    rw [if_neg (by rw [word_le_iff]; omega)]
    by_cases h1 : uaddr.toNat + size.toNat ≤ a.lo
    · rw [if_pos (word_le_iff.mpr (by omega)), cut_eq_self h1, flatMap_cut_eq_self fun b hb => ?_]
      · rfl
      · have := hlt b hb
        omega
    rw [if_neg (by rw [word_le_iff]; omega)]
    have hrest : uaddr.toNat + size.toNat < a.hi → l.flatMap (cut uaddr size preId) = l := fun h =>
      flatMap_cut_eq_self fun b hb => .inr (by have := hlt b hb; omega)
    have hcut : ¬ (a.hi ≤ uaddr.toNat ∨ uaddr.toNat + size.toNat ≤ a.lo ∨ a.hi = 4294967296) := by
      omega
    rw [cut, if_neg hcut]
    by_cases h2 : uaddr.toNat ≤ a.lo <;> by_cases h3 : a.hi ≤ uaddr.toNat + size.toNat
    · rw [if_pos ⟨word_le_iff.mpr (by omega), word_le_iff.mpr (by omega)⟩, if_neg (by omega),
        if_neg (by omega)]
      exact ih _ hl hu.2
    · rw [if_neg (by rw [word_le_iff, word_le_iff]; omega),
        if_neg (by rw [word_lt_iff, word_lt_iff]; omega), if_pos (word_le_iff.mpr (by omega)),
        if_neg (by omega), if_pos (by omega), if_neg (by omega), hrest (by omega)]
      rfl
    · rw [if_neg (by rw [word_le_iff, word_le_iff]; omega),
        if_neg (by rw [word_lt_iff, word_lt_iff]; omega), if_neg (by rw [word_le_iff]; omega),
        if_pos (by omega), if_neg (by omega)]
      exact congrArg (splitLeft uaddr a :: ·) (ih _ hl hu.2)
    · rw [if_neg (by rw [word_le_iff, word_le_iff]; omega),
        if_pos ⟨word_lt_iff.mpr (by omega), word_lt_iff.mpr (by omega)⟩, if_pos (by omega),
        if_pos (by omega), if_pos (by omega), hrest (by omega)]
      rfl

theorem unmapWalk_nextId (uaddr size : UInt32) :
    ∀ (l : List UvmmArena) (k : UnmapWalk W),
      (unmapWalk E uaddr size preId l k).2.state.nextId = k.state.nextId := by
  intro l
  induction l with
  | nil => intro k; rfl
  | cons a l ih =>
    intro k
    rw [unmapWalk]
    split_ifs
    · rfl
    · rfl
    · exact ih _
    · rfl
    · rfl
    · exact ih _

end Walk

/-! ## The operation -/

theorem region_of_checks {uaddr size : UInt32} (h1 : isPageAligned uaddr = true)
    (h3 : ¬ uaddr < userOffset) (h4 : ¬ uaddr > pagingTopUserAddress - pageAlignSup size) :
    Region uaddr (pageAlignSup size) := by
  have hsz : (pageAlignSup size).toNat % 4096 = 0 ∧ (pageAlignSup size).toNat < 4294967296 := by
    rw [pageAlignSup, pageSize, toNat_alignSup]
    omega
  rw [gt_iff_lt, word_lt_iff, word_sub, toNat_pagingTopUserAddress] at h4
  rw [word_lt_iff, toNat_userOffset] at h3
  exact ⟨(isAligned_iff _).mp h1, hsz.1, by omega, by omega⟩

/-- The three outcomes of `uvmm_unmap`. -/
theorem uvmmUnmap_cases (E : UvmmEnv W) (s : UvmmState W) (uaddr size : UInt32) :
    uvmmUnmap E s uaddr size = (-1, s) ∨
    uvmmUnmap E s uaddr size = (-3, (s.allocArena E).2) ∨
    Region uaddr (pageAlignSup size) ∧ (s.allocArena E).1 = true ∧
      uvmmUnmap E s uaddr size =
        (0, unmapRegion E (s.allocArena E).2 uaddr (pageAlignSup size) s.nextId) := by
  rw [uvmmUnmap]
  split_ifs with h1 h2 h3 h4 h5
  · exact .inl rfl
  · exact .inl rfl
  · exact .inl rfl
  · exact .inl rfl
  · exact .inr (.inl rfl)
  · exact .inr (.inr ⟨region_of_checks (by simpa using h1) h3 h4, by simpa using h5, rfl⟩)

@[simp] theorem allocArena_listArena (E : UvmmEnv W) (s : UvmmState W) :
    (s.allocArena E).2.addressSpace.listArena = s.addressSpace.listArena := rfl

@[simp] theorem allocArena_nextId (E : UvmmEnv W) (s : UvmmState W) :
    (s.allocArena E).2.nextId = s.nextId + 1 := rfl

@[simp] theorem freePreallocated_listArena (E : UvmmEnv W) (s : UvmmState W) (preId : Nat) :
    (s.freePreallocated E preId).addressSpace.listArena = s.addressSpace.listArena := rfl

@[simp] theorem freePreallocated_nextId (E : UvmmEnv W) (s : UvmmState W) (preId : Nat) :
    (s.freePreallocated E preId).nextId = s.nextId := rfl

/-- The region is cut out of every arena. -/
theorem unmapRegion_list (E : UvmmEnv W) {s : UvmmState W} {uaddr size : UInt32}
    (hr : Region uaddr size) (hwf : WellFormed s.addressSpace.listArena) (preId : Nat) :
    (unmapRegion E s uaddr size preId).addressSpace.listArena =
      s.addressSpace.listArena.flatMap (cut uaddr size preId) := by
  have hbefore : (arenasBefore s.addressSpace.listArena uaddr).flatMap (cut uaddr size preId) =
      arenasBefore s.addressSpace.listArena uaddr :=
    flatMap_cut_eq_self fun a ha => .inl ((arenasFrom_hi hwf uaddr).1 a ha)
  have hfrom := unmapWalk_list E preId hr (arenasFrom s.addressSpace.listArena uaddr)
    { state := s, usedPreallocatedArena := false } (wellFormed_arenasFrom hwf uaddr).2
    (arenasFrom_hi hwf uaddr).2
  have hlist : (unmapRegion E s uaddr size preId).addressSpace.listArena =
      arenasBefore s.addressSpace.listArena uaddr ++
        (unmapWalk E uaddr size preId (arenasFrom s.addressSpace.listArena uaddr)
          { state := s, usedPreallocatedArena := false }).1 := by
    simp only [unmapRegion]
    split_ifs <;> rfl
  rw [hlist, hfrom]
  conv_rhs => rw [← arenasBefore_append_arenasFrom s.addressSpace.listArena uaddr,
    List.flatMap_append, hbefore]

theorem unmapRegion_nextId (E : UvmmEnv W) (s : UvmmState W) (uaddr size : UInt32) (preId : Nat) :
    (unmapRegion E s uaddr size preId).nextId = s.nextId := by
  have h := unmapWalk_nextId E preId uaddr size (arenasFrom s.addressSpace.listArena uaddr)
    { state := s, usedPreallocatedArena := false }
  simp only [unmapRegion]
  split_ifs <;> exact h

/-- What a successful `uvmm_unmap` of whole pages does. -/
theorem uvmmUnmap_zero (E : UvmmEnv W) {s : UvmmState W} (hwf : WellFormed s.addressSpace.listArena)
    {uaddr size : UInt32} (hsize : size.toNat % 4096 = 0) (hret : (uvmmUnmap E s uaddr size).1 = 0) :
    Region uaddr size ∧ 0 < size.toNat ∧ (uvmmUnmap E s uaddr size).2.nextId = s.nextId + 1 ∧
      (uvmmUnmap E s uaddr size).2.addressSpace.listArena =
        s.addressSpace.listArena.flatMap (cut uaddr size s.nextId) := by
  have halign : pageAlignSup size = size := by
    rw [word_eq_iff, pageAlignSup, pageSize, toNat_alignSup]
    have := word_lt size
    omega
  have hpos : 0 < size.toNat := by
    by_contra hz
    have hle : size ≤ 0 := word_le_iff.mpr (not_lt.mp hz)
    rw [uvmmUnmap] at hret
    by_cases h1 : isPageAligned uaddr = true <;> simp [h1, hle] at hret
  rcases uvmmUnmap_cases E s uaddr size with e | e | ⟨hr, _, e⟩
  · rw [e] at hret
    exact absurd hret (show ¬ (-1 : Int) = 0 by decide)
  · rw [e] at hret
    exact absurd hret (show ¬ (-3 : Int) = 0 by decide)
  · rw [halign] at hr e
    refine ⟨hr, hpos, ?_, ?_⟩
    · rw [e, unmapRegion_nextId, allocArena_nextId]
    · rw [e, unmapRegion_list (s := (s.allocArena E).2) E hr hwf, allocArena_listArena]

/-- The invariant of an address space: the list is well-formed and made of distinct structures. -/
structure Inv (s : UvmmState W) : Prop where
  wellFormed : WellFormed s.addressSpace.listArena
  distinct : DistinctIds s.addressSpace.listArena s.nextId

theorem Inv.allocArena {s : UvmmState W} (h : Inv s) (E : UvmmEnv W) : Inv (s.allocArena E).2 :=
  ⟨h.wellFormed, h.distinct.mono (Nat.le_succ _)⟩

theorem Inv.freePreallocated {s : UvmmState W} (h : Inv s) (E : UvmmEnv W) (preId : Nat) :
    Inv (s.freePreallocated E preId) := ⟨h.wellFormed, h.distinct⟩

/-- **`uvmm_unmap` keeps the invariant**, whatever its arguments. -/
theorem Inv.uvmmUnmap {s : UvmmState W} (h : Inv s) (E : UvmmEnv W) (uaddr size : UInt32) :
    Inv (uvmmUnmap E s uaddr size).2 := by
  rcases uvmmUnmap_cases E s uaddr size with e | e | ⟨hr, _, e⟩
  · rw [e]
    exact h
  · rw [e]
    exact h.allocArena E
  · rw [e]
    obtain ⟨hwf, hid⟩ := wellFormed_flatMap_cut hr h.wellFormed h.distinct
    have hlist := unmapRegion_list E hr (h.allocArena E).wellFormed s.nextId
    refine ⟨?_, ?_⟩
    · rw [hlist]
      exact hwf
    · rw [hlist, unmapRegion_nextId]
      exact hid

end Desiros.Mem
