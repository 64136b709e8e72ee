import Desiros.Mem.ResizeInPlace
import Desiros.Mem.UvmmRuns

/-!
# The heap over runs of `uvmm_brk`

The heap of an address space is to be the arena `[heap_start, heap_start + heap_size)`. The first call passes the
address of `heap_start` itself to `dev_zero_map`, which writes there where it mapped `/dev/zero`, or `NULL`; the later
ones resize the arena or unmap it. `BrkGood` says of one call when that goes well, and `uvmmBrk_runs` that it then does
in every run of calls.
-/

namespace Desiros.Mem

open Desiros.Library

variable {W : Type}

/-- The heap arena: none while the heap is empty. -/
def HeapArena (as : UvmmAs) : Prop :=
  if as.heapSize = 0 then ∀ a ∈ as.listArena, ¬ a.Contains as.heapStart.toNat
  else ∃ a ∈ as.listArena, a.lo = as.heapStart.toNat ∧ a.hi = as.heapStart.toNat + as.heapSize.toNat

/-- What one call with the top `top` does: it keeps the start and the arena of the heap; it returns a top above the
current one rounded up to a page, as the top of the heap; and where it returns `NULL` it changes neither the heap nor
the arenas. -/
structure BrkLaw (s : UvmmState W) (top : UInt32) (r : UInt32 × UvmmState W) : Prop where
  start : r.2.addressSpace.heapStart = s.addressSpace.heapStart
  arena : HeapArena r.2.addressSpace
  grown : s.addressSpace.heapStart.toNat + s.addressSpace.heapSize.toNat < top.toNat → r.1 ≠ 0 →
    r.1 = pageAlignSup top ∧
      r.2.addressSpace.heapStart.toNat + r.2.addressSpace.heapSize.toNat = (pageAlignSup top).toNat
  failed : r.1 = 0 → r.2.addressSpace.heapSize = s.addressSpace.heapSize ∧
    r.2.addressSpace.listArena = s.addressSpace.listArena

/-- The first call maps the heap at its start: whole pages of user space below the last page boundary, free of arenas,
with memory for the arena; and no arena refers to the block `kmalloc` returns for the resource. -/
structure HeapPlace (E : UvmmEnv W) (s : UvmmState W) (top : UInt32) (addr : Nat) (w : W) : Prop where
  aligned : s.addressSpace.heapStart.toNat % 4096 = 0
  user : 1073741824 ≤ s.addressSpace.heapStart.toNat
  top_ne : pageAlignSup top ≠ 0
  free : Free s.addressSpace.listArena s.addressSpace.heapStart.toNat
    ((pageAlignSup top).toNat - s.addressSpace.heapStart.toNat)
  alloc : (E.allocArena w).1 = true
  fresh : ∀ a ∈ s.addressSpace.listArena, a.mappedResource.addr ≠ addr

/-- When a call keeps to the law: it asks for the current top or one below the heap; the first one finds no memory for
a resource, or its place; a later one empties the heap, is refused by the checks of `uvmm_resize`, or has room up to the
new top and memory for the structure that shrinking preallocates. -/
def BrkKeeps (E : UvmmEnv W) (s : UvmmState W) (top : UInt32) : Prop :=
  let heapStart := s.addressSpace.heapStart
  let heapSize := s.addressSpace.heapSize
  let newTop := pageAlignSup top
  top = 0 ∨ top = heapStart + heapSize ∨ top < heapStart ∨
    if heapSize = 0 then ∀ addr w, E.kmallocZeroResource s.world = (some addr, w) → HeapPlace E s top addr w
    else newTop = heapStart ∨
      (∃ err, uvmmResizePlan s.addressSpace.listArena heapStart heapSize heapStart (newTop - heapStart) 0 = .error err) ∨
      (newTop ≠ 0 ∧
        (∀ b ∈ s.addressSpace.listArena, heapStart.toNat + heapSize.toNat ≤ b.lo → newTop.toNat ≤ b.lo) ∧
        (newTop.toNat < heapStart.toNat + heapSize.toNat → (s.allocArena E).1 = true))

def brkStep (E : UvmmEnv W) (s : UvmmState W) (top : UInt32) : UvmmState W := (uvmmBrk E s top).2

/-- An address space with its heap, which ends below the top of the address space. -/
structure BrkInv (s : UvmmState W) : Prop where
  inv : Inv s
  arena : HeapArena s.addressSpace
  top : s.addressSpace.heapStart.toNat + s.addressSpace.heapSize.toNat < 4294967296

section

variable {E : UvmmEnv W} {s : UvmmState W} {top : UInt32}

theorem WellFormed.eq_of_contains {l : List UvmmArena} (hwf : WellFormed l) {a b : UvmmArena} (ha : a ∈ l) (hb : b ∈ l)
    {p : Nat} (hap : a.Contains p) (hbp : b.Contains p) : a = b := by
  rcases Nat.lt_trichotomy a.lo b.lo with hlt | heq | hlt
  · have := hwf.hi_le_lo ha hb hlt
    have := hap.2
    have := hbp.1
    omega
  · exact hwf.eq_of_lo ha hb heq
  · have := hwf.hi_le_lo hb ha hlt
    have := hbp.2
    have := hap.1
    omega

/-- A call that asks for nothing. -/
theorem brkLaw_idle (h : BrkInv s)
    (hidle : top = 0 ∨ top = s.addressSpace.heapStart + s.addressSpace.heapSize ∨ top < s.addressSpace.heapStart) :
    (uvmmBrk E s top).2 = s ∧ BrkLaw s top (uvmmBrk E s top) := by
  have heq : (uvmmBrk E s top).2 = s := by
    rw [uvmmBrk]
    dsimp only
    by_cases h1 : top = 0
    · rw [if_pos h1]
    by_cases h2 : top = s.addressSpace.heapStart + s.addressSpace.heapSize
    · rw [if_neg h1, if_pos h2]
    · rw [if_neg h1, if_neg h2, if_pos ((hidle.resolve_left h1).resolve_left h2)]
  refine ⟨heq, ⟨by rw [heq], by rw [heq]; exact h.arena, fun hlt _ => ?_, fun _ => by rw [heq]; exact ⟨rfl, rfl⟩⟩⟩
  have htop := h.top
  rcases hidle with h0 | hcur | hbelow
  · rw [h0] at hlt
    exact absurd hlt (Nat.not_lt_zero _)
  · rw [hcur, word_add] at hlt
    omega
  · rw [word_lt_iff] at hbelow
    omega

theorem toNat_pageAlignSup_of_ne {v : UInt32} (h : pageAlignSup v ≠ 0) :
    v.toNat ≤ (pageAlignSup v).toNat ∧ (pageAlignSup v).toNat % 4096 = 0 := by
  have hv := word_lt v
  have heq := toNat_pageAlignSup v
  have hne : (pageAlignSup v).toNat ≠ 0 := fun h0 => h (word_eq_iff.mpr h0)
  omega

/-! ## The first call -/

/-- A fresh resource is merged with no neighbour. -/
theorem Inserted.new_of_fresh {m : NewMapping} {l l' : List UvmmArena} (hins : Inserted m l l')
    (hfresh : ∀ a ∈ l, a.mappedResource.addr ≠ m.resource.addr) :
    ∃ a ∈ l', a.lo = m.uaddr.toNat ∧ a.hi = m.uaddr.toNat + m.size.toNat := by
  cases hins with
  | both hprev hnext =>
    simp only [mergeWithPreceding, Bool.and_eq_true, beq_iff_eq] at hprev
    exact absurd hprev.1.1.1.1 (hfresh _ (by simp))
  | preceding hprev hnext =>
    simp only [mergeWithPreceding, Bool.and_eq_true, beq_iff_eq] at hprev
    exact absurd hprev.1.1.1.1 (hfresh _ (by simp))
  | next hprev hnext =>
    simp only [mergeWithNext, Bool.and_eq_true, beq_iff_eq] at hnext
    exact absurd hnext.1.1.1.1 (hfresh _ (by simp))
  | new ops hlo hhi hprev hnext => exact ⟨{ m.arena with ops := ops }, by simp, rfl, rfl⟩

/-- `dev_zero_map` at a place that is free. -/
theorem devZeroMap_at (h : BrkInv s) (hzero : ∀ a w, (E.mmap E.zeroMmap a w).1 = 0)
    (hlt : s.addressSpace.heapStart.toNat < top.toNat) {addr : Nat} {w : W}
    (hk : E.kmallocZeroResource s.world = (some addr, w)) (hplace : HeapPlace E s top addr w) :
    ∃ s', devZeroMap E s s.addressSpace.heapStart (pageAlignSup top - s.addressSpace.heapStart) (pRead ||| pWrite) 0 =
        (0, s.addressSpace.heapStart, s') ∧ Inv s' ∧
      ∃ a ∈ s'.addressSpace.listArena, a.lo = s.addressSpace.heapStart.toNat ∧ a.hi = (pageAlignSup top).toNat := by
  obtain ⟨s₁, hs₁⟩ : ∃ s₁ : UvmmState W, s₁ = { s with world := w } := ⟨_, rfl⟩
  have hinv₁ : Inv s₁ := hs₁ ▸ h.inv.setWorld w
  have hl₁ : s₁.addressSpace = s.addressSpace := by rw [hs₁]
  obtain ⟨hle, hal⟩ := toNat_pageAlignSup_of_ne hplace.top_ne
  have hstart := hplace.aligned
  have hwt := word_lt (pageAlignSup top)
  have hsize : (pageAlignSup top - s.addressSpace.heapStart).toNat =
      (pageAlignSup top).toNat - s.addressSpace.heapStart.toNat := by
    rw [word_sub]
    omega
  have hsup : pageAlignSup (pageAlignSup top - s.addressSpace.heapStart) = pageAlignSup top - s.addressSpace.heapStart :=
    pageAlignSup_of_aligned (by omega)
  obtain ⟨resource, hres⟩ : ∃ r : UvmmMappedResource,
      r = ⟨addr, pRead ||| pWrite ||| pUser, mappedResourceAnonymous, some E.zeroMmap⟩ := ⟨_, rfl⟩
  have hcheck : uvmmMapCheck s.addressSpace.heapStart (pageAlignSup top - s.addressSpace.heapStart) (pRead ||| pWrite) 0
      (some resource) 0 = .ok resource := by
    have halign : isPageAligned s.addressSpace.heapStart = true := (isAligned_iff _).mpr hstart
    have hne : ¬ pageAlignSup top - s.addressSpace.heapStart ≤ 0 := by
      rw [word_le_iff, hsize]
      exact Nat.not_le.mpr (show 0 < _ by omega)
    have hshared : hasFlag 0 arenaMapShared = false := by decide
    have hanonymous : (!hasFlag 0 internalMapCalledFromMremap &&
        hasFlag mappedResourceAnonymous mappedResourceAnonymous) = true := by decide
    rw [uvmmMapCheck, hres]
    simp only [Option.isNone_some, halign, Bool.not_true, Bool.false_eq_true, if_false, hne, hshared, Bool.false_and,
      hanonymous, if_true]
  have hpos : 0 < (pageAlignSup (pageAlignSup top - s.addressSpace.heapStart)).toNat := by
    rw [hsup, hsize]
    omega
  have htop : s.addressSpace.heapStart.toNat +
      (pageAlignSup (pageAlignSup top - s.addressSpace.heapStart)).toNat ≤ 4294967296 := by
    rw [hsup, hsize]
    omega
  have hfree : Free s₁.addressSpace.listArena s.addressSpace.heapStart.toNat
      (pageAlignSup (pageAlignSup top - s.addressSpace.heapStart)).toNat := by
    rw [hsup, hsize, hl₁]
    exact hplace.free
  have halloc : (s₁.allocArena E).1 = true := by
    rw [hs₁]
    exact hplace.alloc
  obtain ⟨heq, hm, _⟩ := @uvmmMap_free_hint W E s₁ hinv₁ s.addressSpace.heapStart
    (pageAlignSup top - s.addressSpace.heapStart) (pRead ||| pWrite) 0 resource 0 (by decide) hcheck
    halloc hpos hplace.user htop hfree
  have hmmap : ∀ a w, (E.mmap (resource.mmap.getD 0) a w).1 = 0 := by
    rw [hres]
    exact hzero
  obtain ⟨m, hmdef⟩ : ∃ m, m = askedMapping s.addressSpace.heapStart (pageAlignSup top - s.addressSpace.heapStart)
    (pRead ||| pWrite) 0 resource 0 s₁.nextId := ⟨_, rfl⟩
  rw [← hmdef] at heq hm
  have hms : m.size = pageAlignSup top - s.addressSpace.heapStart := by
    rw [hmdef]
    exact hsup
  have hmu : m.uaddr = s.addressSpace.heapStart := by rw [hmdef]; rfl
  obtain ⟨l', hins, ⟨h0, hu, hlist, _⟩ | ⟨_, _, _, ⟨a, w', hfail⟩, _⟩⟩ :=
    uvmmMapInsert_inserted E (hinv₁.allocArena E) hm
  · obtain ⟨a, ha, halo, hahi⟩ := hins.new_of_fresh (by
      rw [allocArena_listArena, hl₁, hmdef]
      show ∀ a ∈ s.addressSpace.listArena, a.mappedResource.addr ≠ resource.addr
      rw [hres]
      exact hplace.fresh)
    rw [hmu] at halo hahi hu
    rw [hms, hsize] at hahi
    refine ⟨(uvmmMapInsert E (s₁.allocArena E).2 m).2.2, ?_, (hinv₁.allocArena E).uvmmMapInsert E hm, a, hlist ▸ ha, halo, ?_⟩
    · rw [devZeroMap, hk]
      dsimp only
      rw [← hs₁, ← hres, heq, if_neg (not_not.mpr h0), hu]
    · omega
  · rw [hmdef] at hfail
    exact absurd (hmmap a w') hfail

/-! ## The fields of the heap -/

@[simp] theorem asAccountChangeOfArenaProt_heapStart (as : UvmmAs) (isShared : Bool) (size prev new : UInt32) :
    (asAccountChangeOfArenaProt as isShared size prev new).heapStart = as.heapStart := by
  unfold asAccountChangeOfArenaProt
  split_ifs <;> rfl

@[simp] theorem accountUnmapped_heapStart (s : UvmmState W) (a : UvmmArena) (size : UInt32) :
    (s.accountUnmapped a size).addressSpace.heapStart = s.addressSpace.heapStart := by
  simp [UvmmState.accountUnmapped]

theorem unmapWalk_heapStart (E : UvmmEnv W) (preId : Nat) (uaddr size : UInt32) (l : List UvmmArena) : ∀ k : UnmapWalk W,
    (unmapWalk E uaddr size preId l k).2.state.addressSpace.heapStart = k.state.addressSpace.heapStart := by
  induction l with
  | nil => exact fun k => rfl
  | cons a l ih =>
    intro k
    rw [unmapWalk]
    split_ifs
    · rfl
    · rfl
    · rw [ih]
      simp [UvmmState.removeArena]
    · simp
    · simp
    · rw [ih]
      simp

theorem uvmmUnmap_heapStart (E : UvmmEnv W) (s : UvmmState W) (uaddr size : UInt32) :
    (uvmmUnmap E s uaddr size).2.addressSpace.heapStart = s.addressSpace.heapStart := by
  rcases uvmmUnmap_cases E s uaddr size with heq | heq | ⟨_, _, heq⟩
  · rw [heq]
  · rw [heq]
    rfl
  · have hwalk := unmapWalk_heapStart E s.nextId uaddr (pageAlignSup size)
      (arenasFrom s.addressSpace.listArena uaddr) ⟨(s.allocArena E).2, false⟩
    rw [heq]
    simp only [unmapRegion]
    split_ifs
    · exact hwalk
    · exact hwalk

theorem uvmmResizeInPlace_heapStart (E : UvmmEnv W) (s : UvmmState W) (newUaddr : UInt32) (p : ResizePlan) :
    (uvmmResizeStart E (uvmmResizeEnd E s newUaddr p) newUaddr p).addressSpace.heapStart =
      s.addressSpace.heapStart := by
  have hend : (uvmmResizeEnd E s newUaddr p).addressSpace.heapStart = s.addressSpace.heapStart := by
    simp only [uvmmResizeEnd]
    split_ifs
    · exact uvmmUnmap_heapStart E s _ _
    · exact asAccountChangeOfArenaProt_heapStart ..
  simp only [uvmmResizeStart]
  split_ifs
  · rw [uvmmUnmap_heapStart, hend]
  · exact (asAccountChangeOfArenaProt_heapStart ..).trans hend

/-! ## The later calls -/

theorem resizePlan_error {l : List UvmmArena} {oldUaddr oldSize newUaddr newSize flags : UInt32} {err : Int}
    (h : uvmmResizePlan l oldUaddr oldSize newUaddr newSize flags = .error err) : err ≠ 0 := by
  have hneg : (-1 : Int) ≠ 0 := by decide
  rw [uvmmResizePlan] at h
  split_ifs at h
  · exact Except.error.inj h ▸ hneg
  · exact Except.error.inj h ▸ hneg
  · exact Except.error.inj h ▸ hneg
  · split at h
    · exact Except.error.inj h ▸ hneg
    · split_ifs at h
      · exact Except.error.inj h ▸ hneg
      · exact Except.error.inj h ▸ hneg
      · exact Except.error.inj h ▸ hneg

/-- Without `ARENA_REMAP_MAYMOVE` no arena is moved. -/
theorem resizePlan_stays {l : List UvmmArena} {oldUaddr oldSize newUaddr newSize flags : UInt32} {p : ResizePlan}
    (h : uvmmResizePlan l oldUaddr oldSize newUaddr newSize flags = .ok p)
    (hflags : hasFlag flags arenaRemapMaymove = false) : p.mustMoveArena = false := by
  rw [uvmmResizePlan] at h
  split_ifs at h
  split at h
  · cases h
  · split_ifs at h with h1 h2 h3
    rw [← Except.ok.inj h]
    simpa [hflags] using h3

/-- The heap arena of a heap that is not empty. -/
theorem BrkInv.exists_arena (h : BrkInv s) (hsize : s.addressSpace.heapSize ≠ 0) :
    ∃ a ∈ s.addressSpace.listArena, a.lo = s.addressSpace.heapStart.toNat ∧
      a.hi = s.addressSpace.heapStart.toNat + s.addressSpace.heapSize.toNat := by
  have harena := h.arena
  rw [HeapArena, if_neg hsize] at harena
  exact harena

/-- Unmapping the heap arena leaves nothing at its start. -/
theorem not_contains_of_unmapped (h : BrkInv s) (hsize : s.addressSpace.heapSize ≠ 0)
    (hr : Region s.addressSpace.heapStart s.addressSpace.heapSize) (preId : Nat) :
    ∀ b ∈ s.addressSpace.listArena.flatMap (cut s.addressSpace.heapStart s.addressSpace.heapSize preId),
      ¬ b.Contains s.addressSpace.heapStart.toNat := by
  obtain ⟨a, ha, halo, hahi⟩ := h.exists_arena hsize
  have hok := h.inv.wellFormed.arenas a ha
  have hlohi := hok.lo_lt_hi
  have htop := h.top
  intro b hb hcontains
  obtain ⟨c, hc, hbc⟩ := List.mem_flatMap.mp hb
  obtain ⟨_, hclo, hchi, _⟩ := cut_piece hr (h.inv.wellFormed.arenas c hc) hbc
  obtain ⟨hb1, hb2⟩ := hcontains
  obtain rfl : c = a := h.inv.wellFormed.eq_of_contains hc ha (p := s.addressSpace.heapStart.toNat)
    ⟨by omega, by omega⟩ ⟨by omega, by omega⟩
  rcases mem_cut hbc with ⟨_, h1⟩ | ⟨h1, _⟩ | ⟨_, h2, _⟩
  · omega
  · omega
  · omega

/-- `uvmm_resize` of the heap arena, where it does not fail. -/
theorem uvmmResize_heap (h : BrkInv s) (hsize : s.addressSpace.heapSize ≠ 0) {newTop : UInt32}
    (hal : newTop.toNat % 4096 = 0) (hgt : s.addressSpace.heapStart.toNat < newTop.toNat)
    (hroom : ∀ b ∈ s.addressSpace.listArena,
      s.addressSpace.heapStart.toNat + s.addressSpace.heapSize.toNat ≤ b.lo → newTop.toNat ≤ b.lo)
    (halloc : newTop.toNat < s.addressSpace.heapStart.toNat + s.addressSpace.heapSize.toNat → (s.allocArena E).1 = true)
    {p : ResizePlan} (hplan : uvmmResizePlan s.addressSpace.listArena s.addressSpace.heapStart s.addressSpace.heapSize
      s.addressSpace.heapStart (newTop - s.addressSpace.heapStart) 0 = .ok p) :
    ∃ s', uvmmResize E s s.addressSpace.heapStart s.addressSpace.heapSize s.addressSpace.heapStart
        (newTop - s.addressSpace.heapStart) 0 = (0, s.addressSpace.heapStart, s') ∧ Inv s' ∧
      s'.addressSpace.heapStart = s.addressSpace.heapStart ∧
      ∃ a ∈ s'.addressSpace.listArena, a.lo = s.addressSpace.heapStart.toNat ∧ a.hi = newTop.toNat := by
  obtain ⟨a, ha, halo, hahi⟩ := h.exists_arena hsize
  have hok := h.inv.wellFormed.arenas a ha
  have hlohi := hok.lo_lt_hi
  have hstart := hok.start_aligned
  have htop := h.top
  have hwt := word_lt newTop
  have hp := uvmmResizePlan_ok h.inv.wellFormed hplan
  have hstays := resizePlan_stays hplan (by decide)
  have hinf : (pageAlignInf s.addressSpace.heapStart).toNat = s.addressSpace.heapStart.toNat := by
    rw [toNat_pageAlignInf]
    omega
  obtain hpa : p.arena = a := h.inv.wellFormed.eq_of_contains hp.mem ha hp.contains ⟨by omega, by omega⟩
  have hnew : (newTop - s.addressSpace.heapStart).toNat = newTop.toNat - s.addressSpace.heapStart.toNat := by
    rw [word_sub]
    omega
  have hpsize : p.newSize.toNat = newTop.toNat - s.addressSpace.heapStart.toNat := by
    rw [hp.newSize_eq, pageAlignSup_of_aligned (by omega), hnew]
  have hgood : InPlaceGood E s s.addressSpace.heapStart p := by
    refine ⟨?_, ?_, ?_, fun hlt => halloc ?_, fun hlt => ?_⟩
    · rw [hpa]
      omega
    · rw [hpa, if_neg (by omega)]
      omega
    · rw [hpa, hahi]
      intro b hb hbhi
      have := hroom b hb hbhi
      omega
    · rw [hpa] at hlt
      omega
    · rw [hpa] at hlt
      omega
  obtain ⟨l₁, l₂, hl⟩ := List.append_of_mem hp.mem
  have hlist := uvmmResizeInPlace_list h.inv hp (resizePlan_offset hplan) hgood hl
  have heq : uvmmResize E s s.addressSpace.heapStart s.addressSpace.heapSize s.addressSpace.heapStart
      (newTop - s.addressSpace.heapStart) 0 = (0, s.addressSpace.heapStart,
        uvmmResizeStart E (uvmmResizeEnd E s s.addressSpace.heapStart p) s.addressSpace.heapStart p) := by
    simp only [uvmmResize, hplan, hstays, Bool.false_eq_true, if_false]
  have hinv : Inv (uvmmResizeStart E (uvmmResizeEnd E s s.addressSpace.heapStart p) s.addressSpace.heapStart p) := by
    refine h.inv.uvmmResizeInPlace E hp hstays ?_
    have hmust := hp.mustMove
    rw [hstays] at hmust
    rw [ResizeGood, ← hmust, if_neg Bool.false_ne_true, if_neg (by rw [hpa]; omega)]
    refine Or.inr fun b hb hbhi => ?_
    have hroom' := hgood.room b hb hbhi
    have hword : (s.addressSpace.heapStart + p.newSize).toNat = s.addressSpace.heapStart.toNat + p.newSize.toNat := by
      rw [word_add]
      omega
    omega
  refine ⟨_, heq, hinv, uvmmResizeInPlace_heapStart E s _ p, resized p.arena s.addressSpace.heapStart p.newSize, by rw [hlist]; simp, rfl, ?_⟩
  show s.addressSpace.heapStart.toNat + p.newSize.toNat = newTop.toNat
  omega

/-! ## A call, and runs of calls -/

/-- A heap with a size and the arena for it. -/
theorem brkInv_of_arena {s' : UvmmState W} (hinv : Inv s') {newTop : UInt32}
    (hgt : s'.addressSpace.heapStart.toNat < newTop.toNat)
    (hsize : s'.addressSpace.heapSize = newTop - s'.addressSpace.heapStart)
    (harena : ∃ a ∈ s'.addressSpace.listArena, a.lo = s'.addressSpace.heapStart.toNat ∧ a.hi = newTop.toNat) :
    BrkInv s' ∧ s'.addressSpace.heapStart.toNat + s'.addressSpace.heapSize.toNat = newTop.toNat := by
  have hwt := word_lt newTop
  have hsum : s'.addressSpace.heapStart.toNat + s'.addressSpace.heapSize.toNat = newTop.toNat := by
    rw [hsize, word_sub]
    omega
  have hne : s'.addressSpace.heapSize ≠ 0 := by
    intro h0
    have hz : s'.addressSpace.heapSize.toNat = 0 := congrArg UInt32.toNat h0
    omega
  refine ⟨⟨hinv, ?_, by omega⟩, hsum⟩
  rw [HeapArena, if_neg hne, hsum]
  exact harena

/-- A call that returns the top rounded up to a page, in a state whose heap ends there. -/
theorem brkLaw_grown {s' : UvmmState W} (htop : pageAlignSup top ≠ 0)
    (hstart : s'.addressSpace.heapStart = s.addressSpace.heapStart) (hheap : BrkInv s')
    (hsum : s'.addressSpace.heapStart.toNat + s'.addressSpace.heapSize.toNat = (pageAlignSup top).toNat) :
    BrkLaw s top (pageAlignSup top, s') where
  start := hstart
  arena := hheap.arena
  grown := fun _ _ => ⟨rfl, hsum⟩
  failed := fun h0 => absurd h0 htop

theorem setHeap_setHeap (s : UvmmState W) (heapStart heapSize heapStart' heapSize' : UInt32) :
    (s.setHeap heapStart heapSize).setHeap heapStart' heapSize' = s.setHeap heapStart' heapSize' := rfl

/-- The first call. -/
theorem brk_first (h : BrkInv s) (hzero : ∀ a w, (E.mmap E.zeroMmap a w).1 = 0) (h1 : top ≠ 0)
    (h2 : top ≠ s.addressSpace.heapStart + s.addressSpace.heapSize) (h3 : ¬ top < s.addressSpace.heapStart)
    (hsize : s.addressSpace.heapSize = 0)
    (hgood : ∀ addr w, E.kmallocZeroResource s.world = (some addr, w) → HeapPlace E s top addr w) :
    BrkLaw s top (uvmmBrk E s top) ∧ BrkInv (brkStep E s top) := by
  have hlt : s.addressSpace.heapStart.toNat < top.toNat := by
    rw [hsize] at h2
    rw [word_lt_iff] at h3
    have hne : top.toNat ≠ s.addressSpace.heapStart.toNat := fun he => h2 (by rw [word_eq_iff.mpr he]; grind)
    omega
  rw [brkStep]
  obtain ⟨r, hr⟩ : ∃ r, r = uvmmBrk E s top := ⟨_, rfl⟩
  rw [← hr]
  rw [uvmmBrk] at hr
  dsimp only at hr
  rw [if_neg h1, if_neg h2, if_neg h3, if_pos hsize] at hr
  cases hk : E.kmallocZeroResource s.world with
  | mk block w =>
    cases block with
    | none =>
      have hzmap : devZeroMap E s s.addressSpace.heapStart (pageAlignSup top - s.addressSpace.heapStart)
          (pRead ||| pWrite) 0 = (-3, s.addressSpace.heapStart, { s with world := w }) := by
        rw [devZeroMap, hk]
      rw [hzmap] at hr
      rw [if_pos (show (-3 : Int) ≠ 0 by decide)] at hr
      rw [hr]
      exact ⟨⟨rfl, h.arena, fun _ hne => absurd rfl hne, fun _ => ⟨rfl, rfl⟩⟩, h.inv.setWorld w, h.arena, h.top⟩
    | some addr =>
      have hplace := hgood addr w hk
      obtain ⟨hle, _⟩ := toNat_pageAlignSup_of_ne hplace.top_ne
      obtain ⟨s', hzmap, hinv, harena⟩ := devZeroMap_at h hzero hlt hk hplace
      rw [hzmap] at hr
      dsimp only at hr
      rw [if_neg (not_not.mpr rfl)] at hr
      have hsum : s.addressSpace.heapStart + (pageAlignSup top - s.addressSpace.heapStart) = pageAlignSup top := by
        grind
      obtain ⟨hheap, htop⟩ := @brkInv_of_arena W
        (s'.setHeap s.addressSpace.heapStart (pageAlignSup top - s.addressSpace.heapStart)) (hinv.setHeap _ _)
        (pageAlignSup top) (show s.addressSpace.heapStart.toNat < (pageAlignSup top).toNat by omega) rfl harena
      rw [hsum, setHeap_setHeap] at hr
      rw [hr]
      exact ⟨brkLaw_grown hplace.top_ne rfl hheap htop, hheap⟩

/-- A call that empties the heap. -/
theorem brk_empty (h : BrkInv s) (h1 : top ≠ 0) (h2 : top ≠ s.addressSpace.heapStart + s.addressSpace.heapSize)
    (h3 : ¬ top < s.addressSpace.heapStart) (hsize : s.addressSpace.heapSize ≠ 0)
    (hempty : pageAlignSup top = s.addressSpace.heapStart) :
    BrkLaw s top (uvmmBrk E s top) ∧ BrkInv (brkStep E s top) := by
  obtain ⟨a, ha, halo, hahi⟩ := h.exists_arena hsize
  have hok := h.inv.wellFormed.arenas a ha
  have huser := hok.user
  have hwf := h.inv.wellFormed
  have hne : s.addressSpace.heapStart ≠ 0 := by
    intro h0
    have hz : s.addressSpace.heapStart.toNat = 0 := congrArg UInt32.toNat h0
    omega
  obtain ⟨hle, _⟩ := toNat_pageAlignSup_of_ne (hempty.trans_ne hne)
  rw [hempty] at hle
  have hnot : ¬ s.addressSpace.heapStart.toNat + s.addressSpace.heapSize.toNat < top.toNat := by omega
  rw [brkStep]
  obtain ⟨r, hr⟩ : ∃ r, r = uvmmBrk E s top := ⟨_, rfl⟩
  rw [← hr]
  rw [uvmmBrk] at hr
  dsimp only at hr
  have hzero : s.addressSpace.heapStart - s.addressSpace.heapStart ≤ 0 := by
    rw [show s.addressSpace.heapStart - s.addressSpace.heapStart = 0 by grind]
    exact UInt32.le_refl 0
  rw [if_neg h1, if_neg h2, if_neg h3, if_neg hsize, hempty, if_pos hzero] at hr
  rcases uvmmUnmap_cases E s s.addressSpace.heapStart s.addressSpace.heapSize with heq | heq | ⟨hreg, _, heq⟩
  · rw [heq, if_pos (show (-1 : Int) ≠ 0 by decide)] at hr
    rw [hr]
    exact ⟨⟨rfl, h.arena, fun hlt => absurd hlt hnot, fun _ => ⟨rfl, rfl⟩⟩, h⟩
  · rw [heq, if_pos (show (-3 : Int) ≠ 0 by decide)] at hr
    rw [hr]
    exact ⟨⟨rfl, h.arena, fun hlt => absurd hlt hnot, fun _ => ⟨rfl, rfl⟩⟩, h.inv.allocArena E, h.arena, h.top⟩
  · have hal : pageAlignSup s.addressSpace.heapSize = s.addressSpace.heapSize := by
      have := hok.start_aligned
      have := hok.hi_aligned
      exact pageAlignSup_of_aligned (by omega)
    have hstart := uvmmUnmap_heapStart E s s.addressSpace.heapStart s.addressSpace.heapSize
    have hinv := h.inv.uvmmUnmap E s.addressSpace.heapStart s.addressSpace.heapSize
    have hlist : (uvmmUnmap E s s.addressSpace.heapStart s.addressSpace.heapSize).2.addressSpace.listArena =
        s.addressSpace.listArena.flatMap (cut s.addressSpace.heapStart s.addressSpace.heapSize s.nextId) := by
      rw [hal] at hreg heq
      rw [heq, unmapRegion_list (s := (s.allocArena E).2) E hreg h.inv.wellFormed, allocArena_listArena]
    rw [hal] at hreg
    have hnone := not_contains_of_unmapped h hsize hreg s.nextId
    rw [← hlist] at hnone
    have hret : (uvmmUnmap E s s.addressSpace.heapStart s.addressSpace.heapSize).1 = 0 := by rw [heq]
    rw [if_neg (not_not.mpr hret), hstart] at hr
    have hheapEmpty : HeapArena ((uvmmUnmap E s s.addressSpace.heapStart s.addressSpace.heapSize).2.setHeap
        s.addressSpace.heapStart (s.addressSpace.heapStart - s.addressSpace.heapStart)).addressSpace := by
      have hsub : s.addressSpace.heapStart - s.addressSpace.heapStart = 0 := by grind
      rw [HeapArena]
      exact (if_pos hsub).mpr hnone
    rw [hr]
    refine ⟨⟨rfl, hheapEmpty, fun hlt => absurd hlt hnot, fun h0 => absurd h0 hne⟩, hinv.setHeap _ _, hheapEmpty, ?_⟩
    show s.addressSpace.heapStart.toNat + (s.addressSpace.heapStart - s.addressSpace.heapStart).toNat < 4294967296
    have := word_lt s.addressSpace.heapStart
    rw [show s.addressSpace.heapStart - s.addressSpace.heapStart = 0 by grind]
    exact this

/-- A call that resizes the heap. -/
theorem brk_resize (h : BrkInv s) (h1 : top ≠ 0) (h2 : top ≠ s.addressSpace.heapStart + s.addressSpace.heapSize)
    (h3 : ¬ top < s.addressSpace.heapStart) (hsize : s.addressSpace.heapSize ≠ 0)
    (hne : pageAlignSup top ≠ s.addressSpace.heapStart)
    (hgood : (∃ err, uvmmResizePlan s.addressSpace.listArena s.addressSpace.heapStart s.addressSpace.heapSize
        s.addressSpace.heapStart (pageAlignSup top - s.addressSpace.heapStart) 0 = .error err) ∨
      (pageAlignSup top ≠ 0 ∧
        (∀ b ∈ s.addressSpace.listArena, s.addressSpace.heapStart.toNat + s.addressSpace.heapSize.toNat ≤ b.lo →
          (pageAlignSup top).toNat ≤ b.lo) ∧
        ((pageAlignSup top).toNat < s.addressSpace.heapStart.toNat + s.addressSpace.heapSize.toNat →
          (s.allocArena E).1 = true))) :
    BrkLaw s top (uvmmBrk E s top) ∧ BrkInv (brkStep E s top) := by
  have hpos : ¬ pageAlignSup top - s.addressSpace.heapStart ≤ 0 := by
    intro hle
    apply hne
    rw [word_le_iff, word_sub] at hle
    have := word_lt (pageAlignSup top)
    have := word_lt s.addressSpace.heapStart
    have hz : (0 : UInt32).toNat = 0 := rfl
    rw [word_eq_iff]
    omega
  rw [brkStep]
  obtain ⟨r, hr⟩ : ∃ r, r = uvmmBrk E s top := ⟨_, rfl⟩
  rw [← hr]
  rw [uvmmBrk] at hr
  dsimp only at hr
  rw [if_neg h1, if_neg h2, if_neg h3, if_neg hsize, if_neg hpos] at hr
  cases hplan : uvmmResizePlan s.addressSpace.listArena s.addressSpace.heapStart s.addressSpace.heapSize
      s.addressSpace.heapStart (pageAlignSup top - s.addressSpace.heapStart) 0 with
  | error err =>
    have heq : uvmmResize E s s.addressSpace.heapStart s.addressSpace.heapSize s.addressSpace.heapStart
        (pageAlignSup top - s.addressSpace.heapStart) 0 = (err, s.addressSpace.heapStart, s) := by
      rw [uvmmResize, hplan]
    rw [heq, if_pos (resizePlan_error hplan)] at hr
    rw [hr]
    exact ⟨⟨rfl, h.arena, fun _ hne => absurd rfl hne, fun _ => ⟨rfl, rfl⟩⟩, h⟩
  | ok p =>
    obtain ⟨htop, hroom, halloc⟩ := hgood.resolve_left <| by
      rintro ⟨err, herr⟩
      rw [hplan] at herr
      cases herr
    obtain ⟨hle, hal⟩ := toNat_pageAlignSup_of_ne htop
    have hgt : s.addressSpace.heapStart.toNat < (pageAlignSup top).toNat := by
      rw [word_lt_iff] at h3
      have : (pageAlignSup top).toNat ≠ s.addressSpace.heapStart.toNat := fun he => hne (word_eq_iff.mpr he)
      omega
    obtain ⟨s', heq, hinv, hstart, harena⟩ := uvmmResize_heap h hsize hal hgt hroom halloc hplan
    rw [heq] at hr
    dsimp only at hr
    rw [if_neg (not_not.mpr rfl), hstart] at hr
    obtain ⟨hheap, hsum⟩ := @brkInv_of_arena W
      (s'.setHeap s.addressSpace.heapStart (pageAlignSup top - s.addressSpace.heapStart)) (hinv.setHeap _ _)
      (pageAlignSup top) hgt rfl harena
    rw [hr]
    exact ⟨brkLaw_grown htop rfl hheap hsum, hheap⟩

/-- A call that meets its condition obeys the law. -/
theorem brk_step (h : BrkInv s) (hzero : ∀ a w, (E.mmap E.zeroMmap a w).1 = 0) (hgood : BrkKeeps E s top) :
    BrkLaw s top (uvmmBrk E s top) ∧ BrkInv (brkStep E s top) := by
  by_cases hidle : top = 0 ∨ top = s.addressSpace.heapStart + s.addressSpace.heapSize ∨ top < s.addressSpace.heapStart
  · obtain ⟨heq, hlaw⟩ := @brkLaw_idle W E s top h hidle
    refine ⟨hlaw, ?_⟩
    rw [brkStep, heq]
    exact h
  · rw [not_or, not_or] at hidle
    obtain ⟨h1, h2, h3⟩ := hidle
    simp only [BrkKeeps, h1, h2, h3, false_or] at hgood
    by_cases hsize : s.addressSpace.heapSize = 0
    · rw [if_pos hsize] at hgood
      exact brk_first h hzero h1 h2 h3 hsize hgood
    · rw [if_neg hsize] at hgood
      by_cases hempty : pageAlignSup top = s.addressSpace.heapStart
      · exact brk_empty h h1 h2 h3 hsize hempty
      · exact brk_resize h h1 h2 h3 hsize hempty (hgood.resolve_left hempty)

/-- **The heap over runs of `uvmm_brk`**: every call of a run whose calls meet their condition obeys the law. -/
theorem uvmmBrk_runs (E : UvmmEnv W) (hzero : ∀ a w, (E.mmap E.zeroMmap a w).1 = 0) (s : UvmmState W) (h : Inv s)
    (hheap : HeapArena s.addressSpace) (hempty : s.addressSpace.heapSize = 0) (tops : List UInt32)
    (hgood : Guarded (brkStep E) (BrkKeeps E) s tops) :
    Guarded (brkStep E) (fun s top => BrkLaw s top (uvmmBrk E s top)) s tops := by
  refine @guarded_of_invariant _ _ _ _ _ BrkInv (fun s top hinv hop => brk_step hinv hzero hop) tops s ⟨h, hheap, ?_⟩ hgood
  rw [hempty]
  exact word_lt _

end

/-- An address space without arenas whose heap starts at the second page. -/
def emptyHeap : UvmmState Unit := (uvmmCreateEmptyAs ()).setHeap 0x40001000 0

/-- The first call maps two pages, the second asks for the top. -/
theorem uvmmBrk_runs_two : Guarded (brkStep quietEnv) (fun s top => BrkLaw s top (uvmmBrk quietEnv s top)) emptyHeap
    [0x40002010, 0] := by
  refine uvmmBrk_runs quietEnv (fun _ _ => rfl) emptyHeap ⟨wellFormed_nil, List.nodup_nil, fun _ h => by cases h⟩ ?_ rfl _
    ⟨Or.inr (Or.inr (Or.inr ?_)), Or.inl rfl, trivial⟩
  · rw [HeapArena, if_pos (show emptyHeap.addressSpace.heapSize = 0 from rfl)]
    exact fun a ha => absurd ha List.not_mem_nil
  · rw [if_pos (show emptyHeap.addressSpace.heapSize = 0 from rfl)]
    rintro addr w hk
    refine ⟨by decide, by decide, by decide, fun a ha => absurd ha List.not_mem_nil, rfl,
      fun a ha => absurd ha List.not_mem_nil⟩

/-- A page of another mapping behind the start of the heap. -/
def pageBehindHeap : UvmmState Unit where
  addressSpace := { listArena := [⟨0, 0x40002000, 0x1000, 3, 0, some 1, zeroResource, 0x40002000⟩], heapStart := 0x40001000 }
  freed := []
  nextId := 1
  world := ()

/-- A first call that does not fit below the page fails, and the heap starts at 0 from then on. -/
theorem uvmmBrk_loses_start : Inv pageBehindHeap ∧ HeapArena pageBehindHeap.addressSpace ∧
    (uvmmBrk quietEnv pageBehindHeap 0x40003000).1 = 0 ∧
    (uvmmBrk quietEnv pageBehindHeap 0x40003000).2.addressSpace.heapStart = 0 ∧
    ¬ BrkLaw pageBehindHeap 0x40003000 (uvmmBrk quietEnv pageBehindHeap 0x40003000) := by
  have hstart : (uvmmBrk quietEnv pageBehindHeap 0x40003000).2.addressSpace.heapStart = 0 := by decide
  refine ⟨⟨wellFormed_cons.mpr ⟨⟨by decide, by decide, by decide, by decide, by decide⟩,
    fun _ hb => absurd hb List.not_mem_nil, wellFormed_nil⟩, by decide, by decide⟩, ?_, by decide, hstart, fun h => ?_⟩
  · rw [HeapArena, if_pos (show pageBehindHeap.addressSpace.heapSize = 0 from rfl)]
    exact List.forall_mem_singleton.mpr (by decide)
  · have hkept := h.start
    rw [hstart] at hkept
    exact absurd hkept (by decide)

end Desiros.Mem
