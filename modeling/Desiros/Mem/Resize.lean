import Desiros.Mem.Map

/-!
# `uvmm_resize` and `uvmm_brk` keep the invariant

`uvmm_resize` moves the arena (`uvmm_map` and `uvmm_unmap`) or changes its end and its start in place.
In place it looks at `prev_in_as` for both neighbours, so nothing stops the arena from growing over the
next one: `ResizeGood` says when it does not.
-/

namespace Desiros.Mem

open Desiros.Library

variable {W : Type}

/-! ## The checks -/

/-- The neighbour before an arena, when it does not force a move, ends at or below the new start; so do
all arenas before it. -/
theorem hi_le_of_not_mustMove {l₁ l₂ : List UvmmArena} {a : UvmmArena} {newUaddr newSize : UInt32}
    (hwf : WellFormed (l₁ ++ a :: l₂)) (hid : ((l₁ ++ a :: l₂).map (·.id)).Nodup)
    (h : mustMoveArena (l₁ ++ a :: l₂) a newUaddr newSize = false) :
    ∀ b ∈ l₁, b.hi ≤ newUaddr.toNat := by
  intro b hb
  obtain ⟨hne, _⟩ := id_ne_of_nodup hid
  obtain ⟨h1, _, hok, h3, _, _⟩ := wellFormed_insert.mp hwf
  have hprevIn : prevInAs (l₁ ++ a :: l₂) a.id = l₁.getLast?.or (l₁ ++ a :: l₂).getLast? := by
    rw [prevInAs, List.takeWhile_append_of_pos fun c hc => decide_eq_true (hne c hc),
      List.takeWhile_cons_of_neg (by simp), List.append_nil]
  rcases List.eq_nil_or_concat' l₁ with rfl | ⟨l, prev, rfl⟩
  · cases hb
  have hprev : prev ∈ l ++ [prev] := by simp
  have hphi := h3 prev hprev
  have hplo := (h1.arenas prev hprev).lo_lt_hi
  have hend := (h1.arenas prev hprev).toNat_end
  have hw : a.lo < 4294967296 := word_lt a.start
  have hps : prev.lo = prev.start.toNat := rfl
  have has : a.lo = a.start.toNat := rfl
  rw [if_neg (by omega)] at hend
  have hlast : (l ++ [prev]).getLast? = some prev := List.getLast?_concat
  have hfilter : (some prev).filter (fun c => !decide (c.start ≥ a.start)) = some prev := by
    rw [Option.filter_eq_some_iff]
    refine ⟨rfl, ?_⟩
    simp only [ge_iff_le, word_le_iff, Bool.not_eq_true', decide_eq_false_iff_not]
    omega
  simp only [mustMoveArena, Bool.or_eq_false_iff] at h
  have hle := h.1.1
  rw [hprevIn, hlast, Option.some_or, hfilter, Option.any_some, decide_eq_false_iff_not, gt_iff_lt,
    word_lt_iff] at hle
  have hbprev : b.hi ≤ prev.hi := by
    rw [List.mem_append, List.mem_singleton] at hb
    rcases hb with hb | rfl
    · have := (wellFormed_append.mp h1).2.2 b hb prev (by simp)
      omega
    · exact le_rfl
  omega

/-- What the checks of `uvmm_resize` establish. -/
structure Planned (l : List UvmmArena) (oldUaddr newUaddr newSize : UInt32) (p : ResizePlan) :
    Prop where
  mem : p.arena ∈ l
  contains : p.arena.Contains (pageAlignInf oldUaddr).toNat
  aligned : newUaddr.toNat % 4096 = 0
  user : 1073741824 ≤ newUaddr.toNat
  newSize_eq : p.newSize = pageAlignSup newSize
  size_pos : 0 < p.newSize.toNat
  size_aligned : p.newSize.toNat % 4096 = 0
  size_le : p.newSize.toNat ≤ 3221225472
  mustMove : p.mustMoveArena = mustMoveArena l p.arena newUaddr p.newSize

theorem uvmmResizePlan_ok {l : List UvmmArena} (hwf : WellFormed l)
    {oldUaddr oldSize newUaddr newSize flags : UInt32} {p : ResizePlan}
    (h : uvmmResizePlan l oldUaddr oldSize newUaddr newSize flags = .ok p) :
    Planned l oldUaddr newUaddr newSize p := by
  rw [uvmmResizePlan] at h
  by_cases h1 : pagingIsUserArea newUaddr newSize = true
  case neg => simp [h1] at h
  by_cases h2 : isPageAligned newUaddr = true
  case neg => simp [h1, h2] at h
  by_cases h3 : newSize ≤ 0
  case pos => simp [h1, h2, h3] at h
  simp only [h1, h2, h3, Bool.not_true, Bool.false_eq_true, if_false] at h
  rw [findFirstIntersectingArena, findEnclosingOrNextArena_eq] at h
  cases hhead : (arenasFrom l (pageAlignInf oldUaddr)).head? with
  | none =>
    rw [hhead] at h
    cases h
  | some arena =>
    rw [hhead] at h
    simp only at h
    split_ifs at h with h4 h5 h6
    have hp := (Except.ok.inj h).symm
    rw [hp]
    obtain ⟨rest, hcons⟩ := List.head?_eq_some_iff.mp hhead
    have hmemFrom : arena ∈ arenasFrom l (pageAlignInf oldUaddr) := by simp [hcons]
    have hmem : arena ∈ l := by
      rw [← arenasBefore_append_arenasFrom l (pageAlignInf oldUaddr)]
      exact List.mem_append_right _ hmemFrom
    have hhi := (arenasFrom_hi hwf _).2 arena hmemFrom
    simp only [pagingIsUserArea, Bool.and_eq_true, decide_eq_true_eq, word_le_iff] at h1
    have hsz : (pageAlignSup newSize).toNat = (newSize.toNat + 4095) / 4096 * 4096 % 4294967296 :=
      toNat_alignSup newSize
    have hmax : pagingUserSpaceSize.toNat = 3221225472 := rfl
    have hle := h1.2
    rw [word_le_iff] at h3
    have h30 : (0 : UInt32).toNat = 0 := rfl
    refine ⟨hmem, ⟨?_, hhi⟩, (isAligned_iff _).mp h2, h1.1, rfl, ?_, ?_, ?_, rfl⟩
    · rw [not_or, gt_iff_lt, word_lt_iff] at h4
      exact not_lt.mp h4.1
    · show 0 < (pageAlignSup newSize).toNat
      omega
    · exact pageAlignSup_aligned newSize
    · show (pageAlignSup newSize).toNat ≤ _
      omega

/-- Where `uvmm_resize` leaves a well-formed list, for the arena it acts on: a moved arena is placed
correctly; in place, the new end neither passes the start of a later arena nor, for an arena up to the top
of the address space, wraps back below it. -/
def ResizeGood (l : List UvmmArena) (a : UvmmArena) (newUaddr newSize : UInt32) : Prop :=
  if mustMoveArena l a newUaddr newSize then
    MapGood l newUaddr newSize (a.flags ||| internalMapCalledFromMremap)
  else if a.hi = 4294967296 then
    newUaddr.toNat + newSize.toNat ≤ 4294967296 ∨
      4294967296 + a.lo < newUaddr.toNat + newSize.toNat
  else
    (newUaddr + newSize).toNat < a.hi ∨ ∀ b ∈ l, a.hi ≤ b.lo → (newUaddr + newSize).toNat ≤ b.lo

/-! ## Moving -/

theorem Inv.setWorld {s : UvmmState W} (h : Inv s) (w : W) : Inv { s with world := w } :=
  ⟨h.wellFormed, h.distinct⟩

theorem Inv.uvmmResizeMove {s : UvmmState W} (h : Inv s) (E : UvmmEnv W) (newUaddr : UInt32)
    (p : ResizePlan)
    (hgood : MapGood s.addressSpace.listArena newUaddr p.newSize
      (p.arena.flags ||| internalMapCalledFromMremap)) :
    Inv (uvmmResizeMove E s newUaddr p).2.2 := by
  have hmap := h.uvmmMap E newUaddr p.newSize p.arena.accessRights
    (p.arena.flags ||| internalMapCalledFromMremap) (some p.arena.mappedResource)
    p.newOffsetInResource hgood
  simp only [Mem.uvmmResizeMove]
  split_ifs
  · exact hmap
  · exact (hmap.setWorld _).uvmmUnmap E _ _
  · exact ((hmap.setWorld _).uvmmUnmap E _ _).uvmmUnmap E _ _
  · exact (hmap.setWorld _).uvmmUnmap E _ _

/-! ## In place -/

/-- Below the structure `id` everything ends at or below `u`. -/
def RoomBelow (l : List UvmmArena) (id u : Nat) : Prop :=
  ∀ a ∈ l, a.id = id → ∀ b ∈ l, b.lo < a.lo → b.hi ≤ u

theorem roomBelow_flatMap_cut {l : List UvmmArena} {id u preId : Nat} {uaddr size : UInt32}
    (hr : Region uaddr size) (hwf : WellFormed l) (hlt : id < preId)
    (h : RoomBelow l id u) : RoomBelow (l.flatMap (cut uaddr size preId)) id u := by
  intro a' ha' haid b hb hblo
  obtain ⟨a, ha, haa⟩ := List.mem_flatMap.mp ha'
  obtain ⟨c, hc, hcb⟩ := List.mem_flatMap.mp hb
  obtain ⟨_, halo, hahi, hid'⟩ := cut_piece hr (hwf.arenas a ha) haa
  obtain ⟨hbok, hclo, hchi, _⟩ := cut_piece hr (hwf.arenas c hc) hcb
  have haid' : a.id = id := by
    rcases hid' with h1 | ⟨h1, _⟩
    · omega
    · omega
  rcases Nat.lt_trichotomy c.lo a.lo with hca | hca | hca
  · exact hchi.trans (h a ha haid' c hc hca)
  · -- two pieces of one arena: the later one has the preallocated structure
    obtain rfl := hwf.eq_of_lo hc ha hca
    rw [cut] at haa hcb
    split_ifs at haa hcb with h0 hl hv hv <;>
      simp only [List.nil_append, List.append_nil, List.singleton_append, List.mem_cons,
        List.not_mem_nil, or_false] at haa hcb
    · rw [haa, hcb] at hblo
      omega
    · rcases haa with rfl | rfl
      · rw [splitLeft_lo] at hblo
        omega
      · exact absurd haid (Nat.ne_of_gt hlt)
    · rw [haa, hcb] at hblo
      omega
    · rw [haa, hcb] at hblo
      omega
  · have := hwf.hi_le_lo ha hc hca
    have := (cut_piece hr (hwf.arenas a ha) haa).1.lo_lt_hi
    omega

theorem modifyAt_listArena (s : UvmmState W) (id : Nat) (f : UvmmArena → UvmmArena) :
    (s.modifyAt id f).addressSpace.listArena = modifyArena id f s.addressSpace.listArena := rfl

theorem arenaAt_of_mem {s : UvmmState W} {l₁ l₂ : List UvmmArena} {a : UvmmArena}
    (hl : s.addressSpace.listArena = l₁ ++ a :: l₂)
    (hid : (s.addressSpace.listArena.map (·.id)).Nodup) : s.arenaAt a.id = some a := by
  rw [hl] at hid
  obtain ⟨hne, _⟩ := id_ne_of_nodup hid
  rw [UvmmState.arenaAt, hl, List.append_assoc, List.find?_append,
    List.find?_eq_none.mpr fun b hb => by simpa using hne b hb]
  simp

/-- Moving the start of the structure `id` down to `u`, the end staying. -/
theorem Inv.modifyStart {s : UvmmState W} (h : Inv s) {id : Nat} {newUaddr : UInt32}
    (haligned : newUaddr.toNat % 4096 = 0) (huser : 1073741824 ≤ newUaddr.toNat)
    (hroom : RoomBelow s.addressSpace.listArena id newUaddr.toNat)
    (hle : ∀ a ∈ s.addressSpace.listArena, a.id = id → newUaddr.toNat ≤ a.lo) (offset : UInt64) :
    Inv (s.modifyAt id fun a => { a with
      size := a.size + (a.start - newUaddr)
      start := newUaddr
      offsetInResource := offset }) := by
  by_cases hmem : ∃ a ∈ s.addressSpace.listArena, a.id = id
  case neg =>
    have hnot : ∀ b ∈ s.addressSpace.listArena, b.id ≠ id := fun b hb he => hmem ⟨b, hb, he⟩
    refine ⟨?_, ?_⟩ <;> rw [modifyAt_listArena, modifyArena_of_ne hnot]
    · exact h.wellFormed
    · exact h.distinct
  obtain ⟨a, ha, rfl⟩ := hmem
  have hroom := hroom a ha rfl
  have hle := hle a ha rfl
  obtain ⟨l₁, l₂, hl⟩ := List.append_of_mem ha
  have hwf := h.wellFormed
  have hid := h.distinct
  rw [hl] at hwf hid hroom
  obtain ⟨h1, h2, hok, h3, h4, h5⟩ := wellFormed_insert.mp hwf
  have hpos := hok.size_pos
  have hal := hok.size_aligned
  have hst := hok.start_aligned
  have htop := hok.top
  have hlo : a.lo = a.start.toNat := rfl
  have hhi : a.hi = a.start.toNat + a.size.toNat := rfl
  have hsum : (a.size + (a.start - newUaddr)).toNat = a.hi - newUaddr.toNat := by
    rw [word_add, word_sub]
    omega
  refine ⟨?_, ?_⟩ <;> rw [modifyAt_listArena, hl, modifyArena_splice hid.nodup]
  · refine wellFormed_insert.mpr ⟨h1, h2, ⟨haligned, ?_, ?_, huser, ?_⟩, fun b hb => ?_,
      fun c hc => ?_, h5⟩
    · show 0 < (a.size + (a.start - newUaddr)).toNat
      omega
    · show (a.size + (a.start - newUaddr)).toNat % 4096 = 0
      omega
    · show newUaddr.toNat + (a.size + (a.start - newUaddr)).toNat ≤ _
      omega
    · refine hroom b (by simp [hb]) ?_
      have := h3 b hb
      have := (h1.arenas b hb).lo_lt_hi
      omega
    · have := h4 c hc
      show newUaddr.toNat + (a.size + (a.start - newUaddr)).toNat ≤ _
      omega
  · exact distinctIds_replace (a := a) rfl hid

/-- The second half of an in-place resize keeps the invariant. -/
theorem Inv.uvmmResizeStart {s : UvmmState W} (h : Inv s) (E : UvmmEnv W) {newUaddr : UInt32}
    {p : ResizePlan} (haligned : newUaddr.toNat % 4096 = 0) (huser : 1073741824 ≤ newUaddr.toNat)
    (hroom : RoomBelow s.addressSpace.listArena p.arena.id newUaddr.toNat) :
    Inv (uvmmResizeStart E s newUaddr p) := by
  simp only [Mem.uvmmResizeStart]
  split_ifs with hgt
  · exact h.uvmmUnmap E _ _
  · refine Inv.modifyStart (s := { s with addressSpace := _ }) ⟨?_, ?_⟩ haligned huser ?_ ?_ _
    · rw [asAccountChangeOfArenaProt_listArena]
      exact h.wellFormed
    · rw [asAccountChangeOfArenaProt_listArena]
      exact h.distinct
    · rw [asAccountChangeOfArenaProt_listArena]
      exact hroom
    · rw [asAccountChangeOfArenaProt_listArena]
      intro a ha hid
      obtain ⟨l₁, l₂, hl⟩ := List.append_of_mem ha
      rw [← hid, arenaAt_of_mem hl h.distinct.nodup, Option.getD_some, gt_iff_lt, word_lt_iff] at hgt
      exact not_lt.mp hgt

theorem roomBelow_splice {l₁ l₂ : List UvmmArena} {a : UvmmArena} {u : Nat}
    (hwf : WellFormed (l₁ ++ a :: l₂)) (hid : ((l₁ ++ a :: l₂).map (·.id)).Nodup)
    (h : ∀ b ∈ l₁, b.hi ≤ u) : RoomBelow (l₁ ++ a :: l₂) a.id u := by
  intro c hc hcid b hb hlt
  obtain ⟨hne1, hne2⟩ := id_ne_of_nodup hid
  obtain ⟨_, _, hok, _, h4, _⟩ := wellFormed_insert.mp hwf
  have hlohi := hok.lo_lt_hi
  have hca : c = a := by
    rcases List.mem_append.mp hc with hc | hc
    · exact absurd hcid (hne1 c hc)
    · rcases List.mem_cons.mp hc with rfl | hc
      · rfl
      · exact absurd hcid (hne2 c hc)
  rw [hca] at hlt
  rcases List.mem_append.mp hb with hb | hb
  · exact h b hb
  · rcases List.mem_cons.mp hb with rfl | hb
    · omega
    · have := h4 b hb
      omega

/-- **An in-place resize keeps the invariant** when the arena grows over no other one. -/
theorem Inv.uvmmResizeInPlace {s : UvmmState W} (h : Inv s) (E : UvmmEnv W)
    {oldUaddr newUaddr newSize : UInt32} {p : ResizePlan}
    (hp : Planned s.addressSpace.listArena oldUaddr newUaddr newSize p)
    (hmove : p.mustMoveArena = false)
    (hgood : ResizeGood s.addressSpace.listArena p.arena newUaddr p.newSize) :
    Inv (Mem.uvmmResizeStart E (uvmmResizeEnd E s newUaddr p) newUaddr p) := by
  obtain ⟨l₁, l₂, hl⟩ := List.append_of_mem hp.mem
  have hplt := h.distinct.lt _ hp.mem
  rw [hp.mustMove] at hmove
  have hwf := h.wellFormed
  have hid := h.distinct
  rw [ResizeGood, hmove, if_neg Bool.false_ne_true] at hgood
  rw [hl] at hwf hid hmove hgood
  have hbelow := hi_le_of_not_mustMove hwf hid.nodup hmove
  obtain ⟨h1, h2, hok, h3, h4, h5⟩ := wellFormed_insert.mp hwf
  have hroom := roomBelow_splice hwf hid.nodup hbelow
  have hend := hok.toNat_end
  simp only [uvmmResizeEnd]
  by_cases hshrink : newUaddr + p.newSize < p.arena.start + p.arena.size
  · rw [if_pos hshrink]
    refine (h.uvmmUnmap E _ _).uvmmResizeStart E hp.aligned hp.user ?_
    rcases uvmmUnmap_cases E s (newUaddr + p.newSize)
      (p.arena.start + p.arena.size - (newUaddr + p.newSize)) with e | e | ⟨hr, _, e⟩
    · rw [e, hl]
      exact hroom
    · rw [e, allocArena_listArena, hl]
      exact hroom
    · rw [e, unmapRegion_list E hr (h.allocArena E).wellFormed, allocArena_listArena]
      exact roomBelow_flatMap_cut hr h.wellFormed hplt (hl ▸ hroom)
  rw [if_neg hshrink]
  obtain ⟨s₁, hs₁⟩ : ∃ s₁ : UvmmState W, s₁ = UvmmState.modifyAt { s with
      addressSpace := asAccountChangeOfArenaProt s.addressSpace
        (hasFlag p.arena.flags arenaMapShared)
        (newUaddr + p.newSize - (p.arena.start + p.arena.size)) 0 p.arena.accessRights }
      p.arena.id fun a => { a with size := a.size + (newUaddr + p.newSize - (a.start + a.size)) } :=
    ⟨_, rfl⟩
  rw [← hs₁]
  obtain ⟨a', ha'⟩ : ∃ a', a' = { p.arena with
      size := p.arena.size + (newUaddr + p.newSize - (p.arena.start + p.arena.size)) } := ⟨_, rfl⟩
  have hl₁ : s₁.addressSpace.listArena = l₁ ++ a' :: l₂ := by
    rw [hs₁, modifyAt_listArena, asAccountChangeOfArenaProt_listArena, hl,
      modifyArena_splice hid.nodup, ha']
  have hid₁ : DistinctIds s₁.addressSpace.listArena s₁.nextId := by
    rw [hl₁, hs₁]
    exact distinctIds_replace (a := p.arena) (by rw [ha']) hid
  have hlo : p.arena.lo = p.arena.start.toNat := rfl
  have hhi : p.arena.hi = p.arena.start.toNat + p.arena.size.toNat := rfl
  have hpos := hok.size_pos
  have hal := hok.size_aligned
  have hst := hok.start_aligned
  have htop := hok.top
  have hus := hok.user
  have hnu := hp.user
  have hna := hp.aligned
  have hsp := hp.size_pos
  have hsa := hp.size_aligned
  have hsl := hp.size_le
  have hwu := word_lt newUaddr
  have hnewEnd : (newUaddr + p.newSize).toNat = (newUaddr.toNat + p.newSize.toNat) % 4294967296 :=
    word_add _ _
  have hsz : a'.size.toNat =
      ((newUaddr + p.newSize).toNat + 4294967296 - p.arena.lo) % 4294967296 := by
    rw [ha']
    show (p.arena.size + (newUaddr + p.newSize - (p.arena.start + p.arena.size))).toNat = _
    rw [word_add, word_sub, word_add p.arena.start]
    have := word_lt (newUaddr + p.newSize)
    omega
  have hlo' : a'.lo = p.arena.lo := by rw [ha']; rfl
  have ha'id : a'.id = p.arena.id := by rw [ha']
  rw [word_lt_iff, hend] at hshrink
  have htopnil : p.arena.hi = 4294967296 → ∀ c ∈ l₂, False := fun htop' c hc => by
    have := h4 c hc
    have : c.lo < 4294967296 := word_lt c.start
    omega
  have hgrow : p.arena.hi ≠ 4294967296 →
      p.arena.hi ≤ (newUaddr + p.newSize).toNat ∧ ∀ c ∈ l₂, (newUaddr + p.newSize).toNat ≤ c.lo := by
    intro hne
    rw [if_neg hne] at hgood hshrink
    refine ⟨not_lt.mp hshrink, fun c hc => ?_⟩
    rcases hgood with hlt | hall
    · exact absurd hlt hshrink
    · exact hall c (by simp [hc]) (h4 c hc)
  by_cases hgt : p.arena.lo < newUaddr.toNat
  · -- the end moves first, then the pages below the new start are unmapped
    have hsz' : 0 < a'.size.toNat ∧ a'.lo + a'.size.toNat ≤ 4294967296 ∧
        a'.size.toNat % 4096 = 0 ∧ ∀ c ∈ l₂, a'.lo + a'.size.toNat ≤ c.lo := by
      by_cases htop' : p.arena.hi = 4294967296
      · rw [if_pos htop'] at hgood
        exact ⟨by omega, by omega, by omega, fun c hc => (htopnil htop' c hc).elim⟩
      · obtain ⟨hge, hall⟩ := hgrow htop'
        refine ⟨by omega, by omega, by omega, fun c hc => ?_⟩
        have := hall c hc
        omega
    have hwf₁ : WellFormed (l₁ ++ a' :: l₂) := by
      refine wellFormed_insert.mpr ⟨h1, h2, ⟨?_, hsz'.1, hsz'.2.2.1, ?_, hsz'.2.1⟩, ?_, hsz'.2.2.2, h5⟩
      · rw [hlo']
        exact hst
      · rw [hlo']
        exact hus
      · rw [hlo']
        exact h3
    have hinv : Inv s₁ := ⟨by rw [hl₁]; exact hwf₁, hid₁⟩
    refine hinv.uvmmResizeStart E hp.aligned hp.user ?_
    rw [hl₁] at hid₁ ⊢
    rw [← ha'id]
    exact roomBelow_splice hwf₁ hid₁.nodup hbelow
  · -- both halves together leave `[newUaddr, newUaddr + newSize)`
    have hat : s₁.arenaAt p.arena.id = some a' := by
      rw [← ha'id]
      exact arenaAt_of_mem hl₁ hid₁.nodup
    have hstart : a'.start = p.arena.start := by rw [ha']
    simp only [Mem.uvmmResizeStart, hat, Option.getD_some]
    rw [if_neg (by rw [gt_iff_lt, word_lt_iff, hstart]; omega)]
    have hid' := hid₁.nodup
    rw [hl₁] at hid'
    have hsum : (a'.size + (a'.start - newUaddr)).toNat = p.newSize.toNat := by
      rw [word_add, word_sub, hsz, hstart]
      omega
    have hend' : newUaddr.toNat + p.newSize.toNat ≤ 4294967296 ∧
        ∀ c ∈ l₂, newUaddr.toNat + p.newSize.toNat ≤ c.lo := by
      by_cases htop' : p.arena.hi = 4294967296
      · rw [if_pos htop'] at hgood
        exact ⟨by omega, fun c hc => (htopnil htop' c hc).elim⟩
      · obtain ⟨hge, hall⟩ := hgrow htop'
        refine ⟨by omega, fun c hc => ?_⟩
        have := hall c hc
        omega
    refine ⟨?_, ?_⟩ <;> rw [modifyAt_listArena, asAccountChangeOfArenaProt_listArena, hl₁, ← ha'id,
      modifyArena_splice hid']
    · refine wellFormed_insert.mpr ⟨h1, h2, ⟨hna, ?_, ?_, hnu, ?_⟩, hbelow, fun c hc => ?_, h5⟩
      · show 0 < (a'.size + (a'.start - newUaddr)).toNat
        omega
      · show (a'.size + (a'.start - newUaddr)).toNat % 4096 = 0
        omega
      · show newUaddr.toNat + (a'.size + (a'.start - newUaddr)).toNat ≤ _
        omega
      · have := hend'.2 c hc
        show newUaddr.toNat + (a'.size + (a'.start - newUaddr)).toNat ≤ _
        omega
    · rw [hl₁] at hid₁
      exact distinctIds_replace (a := a') rfl hid₁

/-- The condition on a call of `uvmm_resize`: its arguments are refused, or it is good for the arena that
contains the old address. -/
def ResizeStepGood (l : List UvmmArena) (oldUaddr oldSize newUaddr newSize flags : UInt32) : Prop :=
  (∃ err, uvmmResizePlan l oldUaddr oldSize newUaddr newSize flags = .error err) ∨
    ∀ a ∈ l, a.Contains (pageAlignInf oldUaddr).toNat →
      ResizeGood l a newUaddr (pageAlignSup newSize)

/-- **`uvmm_resize` keeps the invariant.** -/
theorem Inv.uvmmResize {s : UvmmState W} (h : Inv s) (E : UvmmEnv W)
    (oldUaddr oldSize newUaddr newSize flags : UInt32)
    (hgood : ResizeStepGood s.addressSpace.listArena oldUaddr oldSize newUaddr newSize flags) :
    Inv (uvmmResize E s oldUaddr oldSize newUaddr newSize flags).2.2 := by
  rw [Mem.uvmmResize]
  cases hplan : uvmmResizePlan s.addressSpace.listArena oldUaddr oldSize newUaddr newSize flags with
  | error err => exact h
  | ok p =>
    have hp := uvmmResizePlan_ok h.wellFormed hplan
    rcases hgood with ⟨err, herr⟩ | hgood
    · rw [hplan] at herr
      cases herr
    have hgood := hgood p.arena hp.mem hp.contains
    rw [← hp.newSize_eq] at hgood
    by_cases hmove : p.mustMoveArena = true
    · rw [ResizeGood, ← hp.mustMove, if_pos hmove] at hgood
      simp only [hmove, if_true]
      exact h.uvmmResizeMove E newUaddr p hgood
    · rw [Bool.not_eq_true] at hmove
      simp only [hmove, Bool.false_eq_true, if_false]
      exact h.uvmmResizeInPlace E hp hmove hgood

end Desiros.Mem
