import Desiros.Mem.MapAtHint
import Desiros.Mem.Resize

/-!
# A resize in place

An arena that need not move is resized by its ends: `uvmm_unmap` cuts what it loses, and two assignments add what it
gains. `InPlaceGood` says when the result is the arena asked for, with everything else as it was
(`uvmmResizeInPlace_list`): the source looks for a neighbour behind the arena in the wrong place, drops what `uvmm_unmap`
returns, and goes on with the structure of an arena that `uvmm_unmap` removed.
-/

namespace Desiros.Mem

open Desiros.Library

variable {W : Type}

/-- The arena after a resize. -/
def resized (a : UvmmArena) (newUaddr newSize : UInt32) : UvmmArena :=
  { a with start := newUaddr, size := newSize, offsetInResource := resizeOffset a newUaddr }

/-- The new range ends above the start of the arena and below the arenas behind it; an arena up to the top of the
address space keeps its end and does not lose its start; and there is memory for the structures `uvmm_unmap`
preallocates. -/
structure InPlaceGood (E : UvmmEnv W) (s : UvmmState W) (newUaddr : UInt32) (p : ResizePlan) : Prop where
  overlap : p.arena.lo < newUaddr.toNat + p.newSize.toNat
  top : if p.arena.hi = 4294967296 then
      newUaddr.toNat + p.newSize.toNat = 4294967296 ∧ newUaddr.toNat ≤ p.arena.lo
    else newUaddr.toNat + p.newSize.toNat < 4294967296
  room : ∀ b ∈ s.addressSpace.listArena, p.arena.hi ≤ b.lo → newUaddr.toNat + p.newSize.toNat ≤ b.lo
  allocEnd : newUaddr.toNat + p.newSize.toNat < p.arena.hi → (s.allocArena E).1 = true
  allocStart : p.arena.lo < newUaddr.toNat → ((uvmmResizeEnd E s newUaddr p).allocArena E).1 = true

/-- A call for whole pages of user space succeeds, if there is memory for the preallocated structure. -/
theorem uvmmUnmap_of_region (E : UvmmEnv W) (s : UvmmState W) {uaddr size : UInt32} (hr : Region uaddr size)
    (hpos : 0 < size.toNat) (halloc : (s.allocArena E).1 = true) :
    uvmmUnmap E s uaddr size = (0, unmapRegion E (s.allocArena E).2 uaddr size s.nextId) := by
  have halign : isPageAligned uaddr = true := (isAligned_iff _).mpr hr.aligned
  have hsup := pageAlignSup_of_aligned hr.size_aligned
  have hsize : ¬ size ≤ 0 := by
    rw [word_le_iff]
    exact Nat.not_le.mpr hpos
  have huser : ¬ uaddr < userOffset := by
    rw [word_lt_iff, toNat_userOffset]
    exact Nat.not_lt.mpr hr.user
  have htop : ¬ uaddr > pagingTopUserAddress - size := by
    have := hr.top
    rw [gt_iff_lt, word_lt_iff, word_sub, toNat_pagingTopUserAddress]
    omega
  rw [uvmmUnmap, hsup, if_neg (by simp [halign]), if_neg hsize, if_neg huser, if_neg htop, if_neg (by simp [halloc])]

theorem resizePlan_offset {l : List UvmmArena} {oldUaddr oldSize newUaddr newSize flags : UInt32} {p : ResizePlan}
    (h : uvmmResizePlan l oldUaddr oldSize newUaddr newSize flags = .ok p) :
    p.newOffsetInResource = resizeOffset p.arena newUaddr := by
  rw [uvmmResizePlan] at h
  split_ifs at h
  split at h
  · cases h
  · split_ifs at h
    rw [← Except.ok.inj h]

section

variable {E : UvmmEnv W} {s : UvmmState W} {oldUaddr newUaddr newSize : UInt32} {p : ResizePlan} {l₁ l₂ : List UvmmArena}

/-- What is cut off one end of the arena leaves the other arenas alone. -/
theorem flatMap_cut_splice {a : UvmmArena} {uaddr size : UInt32} {preId : Nat} (hwf : WellFormed (l₁ ++ a :: l₂))
    (hlo : a.lo ≤ uaddr.toNat) (hhi : uaddr.toNat + size.toNat ≤ a.hi) :
    (l₁ ++ a :: l₂).flatMap (cut uaddr size preId) = l₁ ++ cut uaddr size preId a ++ l₂ := by
  obtain ⟨_, _, _, h3, h4, _⟩ := wellFormed_insert.mp hwf
  have hbefore : l₁.flatMap (cut uaddr size preId) = l₁ :=
    flatMap_cut_eq_self fun b hb => Or.inl ((h3 b hb).trans hlo)
  have hafter : l₂.flatMap (cut uaddr size preId) = l₂ :=
    flatMap_cut_eq_self fun b hb => Or.inr (hhi.trans (h4 b hb))
  rw [List.flatMap_append, List.flatMap_cons, hbefore, hafter, List.append_assoc]

/-- The first half gives the arena its new end. -/
theorem uvmmResizeEnd_list (h : Inv s) (hp : Planned s.addressSpace.listArena oldUaddr newUaddr newSize p)
    (hgood : InPlaceGood E s newUaddr p) (hl : s.addressSpace.listArena = l₁ ++ p.arena :: l₂) :
    (uvmmResizeEnd E s newUaddr p).addressSpace.listArena =
        l₁ ++ { p.arena with size := newUaddr + p.newSize - p.arena.start } :: l₂ ∧
      Inv (uvmmResizeEnd E s newUaddr p) := by
  have hok := h.wellFormed.arenas _ hp.mem
  have hend := hok.toNat_end
  have hlo : p.arena.lo = p.arena.start.toNat := rfl
  have hhi : p.arena.hi = p.arena.start.toNat + p.arena.size.toNat := rfl
  have hlohi := hok.lo_lt_hi
  have hst := hok.start_aligned
  have hhal := hok.hi_aligned
  have htop := hok.top
  have huser := hok.user
  have hna := hp.aligned
  have hsa := hp.size_aligned
  have hover := hgood.overlap
  have hgtop := hgood.top
  have hnewEnd : (newUaddr + p.newSize).toNat = (newUaddr.toNat + p.newSize.toNat) % 4294967296 := word_add _ _
  have hwf := h.wellFormed
  have hid := h.distinct
  rw [hl] at hwf hid
  obtain ⟨h1, h2, _, h3, h4, h5⟩ := wellFormed_insert.mp hwf
  by_cases hshrink : newUaddr + p.newSize < p.arena.start + p.arena.size
  · rw [word_lt_iff, hend] at hshrink
    have hne : p.arena.hi ≠ 4294967296 := by
      intro he
      rw [if_pos he] at hshrink
      omega
    rw [if_neg hne] at hend hshrink hgtop
    have hsize : (p.arena.start + p.arena.size - (newUaddr + p.newSize)).toNat =
        p.arena.hi - (newUaddr.toNat + p.newSize.toNat) := by
      rw [word_sub, hend, hnewEnd]
      omega
    have hr : Region (newUaddr + p.newSize) (p.arena.start + p.arena.size - (newUaddr + p.newSize)) := by
      refine ⟨?_, ?_, ?_, ?_⟩ <;> omega
    have hunmap := uvmmUnmap_of_region E s hr (by omega) (hgood.allocEnd (by omega))
    have heq : uvmmResizeEnd E s newUaddr p = (uvmmUnmap E s (newUaddr + p.newSize)
        (p.arena.start + p.arena.size - (newUaddr + p.newSize))).2 := by
      rw [uvmmResizeEnd, if_pos (by rw [word_lt_iff, hend]; exact hshrink)]
    refine ⟨?_, heq ▸ h.uvmmUnmap E _ _⟩
    have hcut : cut (newUaddr + p.newSize) (p.arena.start + p.arena.size - (newUaddr + p.newSize)) s.nextId p.arena =
        [{ p.arena with size := newUaddr + p.newSize - p.arena.start }] := by
      rw [cut, if_neg (by omega), if_pos (by omega), if_neg (by omega)]
      rfl
    rw [heq, hunmap, unmapRegion_list (s := (s.allocArena E).2) E hr h.wellFormed, allocArena_listArena, hl,
      flatMap_cut_splice hwf (by omega) (by omega), hcut, List.append_assoc]
    rfl
  · -- the end of the arena moves up, or stays
    obtain ⟨s₁, hs₁⟩ : ∃ s₁, s₁ = uvmmResizeEnd E s newUaddr p := ⟨_, rfl⟩
    have hsize : p.arena.size + (newUaddr + p.newSize - (p.arena.start + p.arena.size)) =
        newUaddr + p.newSize - p.arena.start := by grind
    have hlist : s₁.addressSpace.listArena =
        l₁ ++ { p.arena with size := newUaddr + p.newSize - p.arena.start } :: l₂ := by
      rw [hs₁, uvmmResizeEnd, if_neg hshrink, modifyAt_listArena, asAccountChangeOfArenaProt_listArena, hl,
        modifyArena_splice hid.nodup, hsize]
    have hnext : s₁.nextId = s.nextId := by
      rw [hs₁, uvmmResizeEnd, if_neg hshrink]
      rfl
    rw [← hs₁]
    refine ⟨hlist, ?_, ?_⟩
    · rw [hlist]
      rw [word_lt_iff, hend] at hshrink
      have hnew : (newUaddr + p.newSize - p.arena.start).toNat =
          newUaddr.toNat + p.newSize.toNat - p.arena.lo := by
        rw [word_sub, hnewEnd]
        split_ifs at hgtop with he <;> omega
      refine wellFormed_insert.mpr ⟨h1, h2, ⟨hst, ?_, ?_, huser, ?_⟩, h3, fun c hc => ?_, h5⟩
      · show 0 < (newUaddr + p.newSize - p.arena.start).toNat
        omega
      · show (newUaddr + p.newSize - p.arena.start).toNat % 4096 = 0
        omega
      · show p.arena.lo + (newUaddr + p.newSize - p.arena.start).toNat ≤ _
        split_ifs at hgtop <;> omega
      · show p.arena.lo + (newUaddr + p.newSize - p.arena.start).toNat ≤ _
        have := hgood.room c (by simp [hl, hc]) (h4 c hc)
        omega
    · rw [hlist, hnext]
      exact distinctIds_replace (a := p.arena) rfl hid

/-- **A resize in place**: the arena is the one asked for, the others are as they were. -/
theorem uvmmResizeInPlace_list (h : Inv s) (hp : Planned s.addressSpace.listArena oldUaddr newUaddr newSize p)
    (hoff : p.newOffsetInResource = resizeOffset p.arena newUaddr) (hgood : InPlaceGood E s newUaddr p)
    (hl : s.addressSpace.listArena = l₁ ++ p.arena :: l₂) :
    (uvmmResizeStart E (uvmmResizeEnd E s newUaddr p) newUaddr p).addressSpace.listArena =
      l₁ ++ resized p.arena newUaddr p.newSize :: l₂ := by
  obtain ⟨hl₁, hinv⟩ := uvmmResizeEnd_list h hp hgood hl
  have halloc := hgood.allocStart
  obtain ⟨s₁, hs₁⟩ : ∃ s₁, s₁ = uvmmResizeEnd E s newUaddr p := ⟨_, rfl⟩
  rw [← hs₁] at hl₁ hinv halloc ⊢
  obtain ⟨a', ha'⟩ : ∃ a' : UvmmArena, a' = { p.arena with size := newUaddr + p.newSize - p.arena.start } := ⟨_, rfl⟩
  rw [← ha'] at hl₁
  have hok := h.wellFormed.arenas _ hp.mem
  have hlo : p.arena.lo = p.arena.start.toNat := rfl
  have hst := hok.start_aligned
  have huser := hok.user
  have hna := hp.aligned
  have hsp := hp.size_pos
  have hover := hgood.overlap
  have hgtop := hgood.top
  have hwu := word_lt newUaddr
  have hid : a'.id = p.arena.id := by rw [ha']
  have hstart : a'.start = p.arena.start := by rw [ha']
  have hat : s₁.arenaAt p.arena.id = some a' := by
    rw [← hid]
    exact arenaAt_of_mem hl₁ hinv.distinct.nodup
  have hlo' : a'.lo = p.arena.lo := by rw [ha']; rfl
  have hwf := hinv.wellFormed
  rw [hl₁] at hwf
  have hok' := (wellFormed_insert.mp hwf).2.2.1
  have hsize : a'.size = newUaddr + p.newSize - p.arena.start := by rw [ha']
  have hsize' : a'.size.toNat = newUaddr.toNat + p.newSize.toNat - p.arena.lo := by
    rw [hsize, word_sub, word_add]
    split_ifs at hgtop <;> omega
  have hhi' : a'.hi = newUaddr.toNat + p.newSize.toNat := by
    show a'.lo + a'.size.toNat = _
    omega
  by_cases hgt : newUaddr > p.arena.start
  · have hlt : p.arena.lo < newUaddr.toNat := word_lt_iff.mp hgt
    have hne : p.arena.hi ≠ 4294967296 := by
      intro he
      rw [if_pos he] at hgtop
      omega
    rw [if_neg hne] at hgtop
    have htrans : (newUaddr - p.arena.start).toNat = newUaddr.toNat - p.arena.lo := by
      rw [word_sub]
      omega
    have hr : Region p.arena.start (newUaddr - p.arena.start) := by
      refine ⟨hst, ?_, huser, ?_⟩ <;> omega
    have hunmap := uvmmUnmap_of_region E s₁ hr (by omega) (halloc hlt)
    have hcut : cut p.arena.start (newUaddr - p.arena.start) s₁.nextId a' = [resized p.arena newUaddr p.newSize] := by
      have hsz : newUaddr + p.newSize - p.arena.start - (newUaddr - p.arena.start) = p.newSize := by grind
      have hstart' : p.arena.start + (newUaddr - p.arena.start) = newUaddr := by grind
      rw [cut, if_neg (by omega), if_neg (by omega), if_pos (by omega), if_neg (by omega), ha']
      simp only [shiftStart, resized, resizeOffset, hsz, hstart',
        if_neg (show ¬ p.arena.start > newUaddr by rw [gt_iff_lt, word_lt_iff]; omega), List.nil_append]
    simp only [uvmmResizeStart, hat, Option.getD_some, hstart]
    rw [if_pos hgt, hunmap, unmapRegion_list (s := (s₁.allocArena E).2) E hr hinv.wellFormed,
      allocArena_listArena, hl₁, flatMap_cut_splice hwf (by omega) (by omega), hcut, List.append_assoc]
    rfl
  · have hnodup := hinv.distinct.nodup
    rw [hl₁] at hnodup
    have hres : { a' with
        size := a'.size + (a'.start - newUaddr)
        start := newUaddr
        offsetInResource := p.newOffsetInResource } = resized p.arena newUaddr p.newSize := by
      have hsz : newUaddr + p.newSize - p.arena.start + (p.arena.start - newUaddr) = p.newSize := by grind
      rw [ha', resized, hoff]
      simp only [hsz]
    simp only [uvmmResizeStart, hat, Option.getD_some, hstart]
    rw [if_neg hgt, modifyAt_listArena, asAccountChangeOfArenaProt_listArena, hl₁, ← hid,
      modifyArena_splice hnodup, hres]

end

end Desiros.Mem
