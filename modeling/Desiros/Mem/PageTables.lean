import Desiros.Mem.PageDirectory
import Desiros.Mem.PagingRuns

/-!
# Page tables in memory (`mem/paging.c`)

`Paging` keeps the entries of all pages in one function. Here they are words of page tables, which `paging_map` and
`paging_unmap` reach through the mirror of the directory that is loaded. `ShowsPaging` relates the two: whatever is mapped
and unmapped in pages that have a table, no call faults, the processor translates as the entries say, and no other word of
memory changes (`tables_refine_paging`).
-/

namespace Desiros.Mem

open Desiros.Library

/-! ## The code -/

/-- `*vaddr = word`; the kernel writes to pages of all kinds. -/
def storeWord (memory : UInt32 → UInt32) (cr3 vaddr word : UInt32) : Option (UInt32 → UInt32) :=
  (mmuTranslate memory cr3 vaddr).map fun paddr => Function.update memory paddr word

/-- Where `paging.c` finds the entry of the directory, -/
def pdeVaddr (virtual : UInt32) : UInt32 := 0xFFFFF000 ||| ((virtual &&& 0xFFC00000) >>> (20 : UInt32))

/-- and the entry of the page table. -/
def pteVaddr (virtual : UInt32) : UInt32 := 0xFFC00000 ||| ((virtual &&& 0xFFFFF000) >>> (10 : UInt32))

/-- `paging_map` under the directory at `cr3`, `none` for a page fault. A directory entry that is absent is read and
reported; the table is written to all the same. -/
def tablesMap (cr3 : UInt32) (k : PdState) (virtual physical : UInt32) (user : Bool) : Option PdState := do
  let k := { k with physmem := (physmemRefPhyspageAt k.physmem physical).2 }
  let _ ← loadWord k.memory cr3 (pdeVaddr virtual)
  let memory ← storeWord k.memory cr3 (pteVaddr virtual) (physical ||| 1 ||| 2 ||| if user then 4 else 0)
  return { k with memory }

/-- `paging_unmap` -/
def tablesUnmap (cr3 : UInt32) (k : PdState) (virtual : UInt32) : Option (UInt32 × PdState) := do
  let phys ← virtualToPhysical k.memory cr3 virtual
  if virtual &&& 0xfff ≠ 0 then return (1, k)
  let pte ← loadWord k.memory cr3 (pteVaddr virtual)
  let memory ← storeWord k.memory cr3 (pteVaddr virtual) (pte &&& ~~~pPresent)
  return (0, { k with memory, physmem := (physmemUnrefPhyspage k.physmem phys).2 })

/-- The loop of `paging_unmap_interval` over `n` pages. -/
def tablesUnmapLoop (cr3 : UInt32) : Nat → UInt32 → UInt32 → PdState → Option (UInt32 × PdState)
  | 0, _, retval, k => some (retval, k)
  | n + 1, vaddr, retval, k => do
    let (r, k) ← tablesUnmap cr3 k vaddr
    tablesUnmapLoop cr3 n (vaddr + pageSize) (if 0 = r then retval + pageSize else retval) k

def tablesUnmapInterval (cr3 : UInt32) (k : PdState) (vaddr size : UInt32) : Option (UInt32 × PdState) :=
  if !isPageAligned vaddr then some (-1, k)
  else if !isPageAligned size then some (-1, k)
  else tablesUnmapLoop cr3 (size / pageSize).toNat vaddr 0 k

def tablesStep (cr3 : UInt32) (k : PdState) : PagingOp → Option PdState
  | .map virtual physical user => tablesMap cr3 k virtual physical user
  | .unmap virtual => (tablesUnmap cr3 k virtual).map Prod.snd
  | .unmapInterval vaddr size => (tablesUnmapInterval cr3 k vaddr size).map Prod.snd

/-! ## Tables that do not overlap -/

/-- The directory has a page table for the page. -/
def HasTable (memory : UInt32 → UInt32) (cr3 v : UInt32) : Prop :=
  ¬ memory (entryAddr cr3 (v >>> 22).toNat) &&& pPresent = 0

/-- The page table that entry `i` of a directory points to. -/
def tableAt (memory : UInt32 → UInt32) (cr3 : UInt32) (i : Nat) : UInt32 := memory (entryAddr cr3 i) &&& 0xFFFFF000

/-- The address of the entry of a page. -/
def pteAddr (memory : UInt32 → UInt32) (cr3 v : UInt32) : UInt32 :=
  entryAddr (tableAt memory cr3 (v >>> 22).toNat) ((v >>> 12) &&& 0x3FF).toNat

/-- A directory with its mirror, whose tables are pages of their own. The mirror makes the directory one of them. -/
structure Tables (memory : UInt32 → UInt32) (cr3 : UInt32) : Prop where
  aligned : isPageAligned cr3 = true
  self : SelfMapped memory cr3
  apart : ∀ i < 1024, ∀ j < 1024, ¬ memory (entryAddr cr3 i) &&& pPresent = 0 →
    ¬ memory (entryAddr cr3 j) &&& pPresent = 0 → tableAt memory cr3 i = tableAt memory cr3 j → i = j

section

variable {memory : UInt32 → UInt32} {cr3 u v w addr : UInt32}

theorem tableAt_aligned (memory : UInt32 → UInt32) (cr3 : UInt32) (i : Nat) :
    isPageAligned (tableAt memory cr3 i) = true := by
  apply (isAligned_iff _).mpr
  unfold tableAt
  rw [@toNat_mask _ 0xFFFFF000 12 (by decide) (by decide)]
  omega

theorem pdeIndex_lt (v : UInt32) : (v >>> 22).toNat < 1024 := by
  have := word_lt v
  rw [shiftRight_pde]
  omega

theorem pteIndex_lt (v : UInt32) : ((v >>> 12) &&& 0x3FF).toNat < 1024 := by
  rw [shiftRight_pte]
  omega

theorem pdeIndex_of_lt (hv : v < pageTableMap) : (v >>> 22).toNat < 1023 := by
  have hmap : pageTableMap.toNat = 4290772992 := rfl
  rw [word_lt_iff, hmap] at hv
  rw [shiftRight_pde]
  omega

/-- The indices of a page name it. -/
theorem page_eq_iff (u v : UInt32) : ((u >>> 22).toNat = (v >>> 22).toNat ∧
    ((u >>> 12) &&& 0x3FF).toNat = ((v >>> 12) &&& 0x3FF).toNat) ↔ pageAlignInf u = pageAlignInf v := by
  have halign : ∀ w, (pageAlignInf w).toNat = w.toNat / 4096 * 4096 := toNat_alignInf
  rw [shiftRight_pde, shiftRight_pde, shiftRight_pte, shiftRight_pte, word_eq_iff, halign, halign]
  omega

namespace Tables

variable (h : Tables memory cr3)

include h

theorem tableAt_mirror : tableAt memory cr3 1023 = cr3 := by
  unfold tableAt
  rw [h.self]
  exact (entry_present h.aligned).2

theorem mirror_present : ¬ memory (entryAddr cr3 1023) &&& pPresent = 0 := by
  rw [h.self]
  exact (entry_present h.aligned).1

/-- No entry of a table is an entry of the directory, -/
theorem pteAddr_ne_pde (hv : v < pageTableMap) (ht : HasTable memory cr3 v) {i : Nat} (hi : i < 1024) :
    entryAddr cr3 i ≠ pteAddr memory cr3 v := by
  intro heq
  have hindex := pdeIndex_of_lt hv
  have hsame := (entryAddr_inj h.aligned (tableAt_aligned memory cr3 _) hi (pteIndex_lt v) heq).1
  have := h.apart _ (pdeIndex_lt v) 1023 (by decide) ht h.mirror_present (hsame.symm.trans h.tableAt_mirror.symm)
  omega

/-- and different pages have different entries. -/
theorem pteAddr_inj (hu : HasTable memory cr3 u) (hv : HasTable memory cr3 v) :
    pteAddr memory cr3 u = pteAddr memory cr3 v ↔ pageAlignInf u = pageAlignInf v := by
  rw [← page_eq_iff]
  constructor
  · intro heq
    obtain ⟨htable, hindex⟩ := entryAddr_inj (tableAt_aligned memory cr3 _) (tableAt_aligned memory cr3 _)
      (pteIndex_lt u) (pteIndex_lt v) heq
    exact ⟨h.apart _ (pdeIndex_lt u) _ (pdeIndex_lt v) hu hv htable, hindex⟩
  · rintro ⟨hpde, hpte⟩
    unfold pteAddr
    rw [hpde, hpte]

/-- A word is written that is no entry of the directory. -/
theorem update (hne : ∀ i < 1024, entryAddr cr3 i ≠ addr) : Tables (Function.update memory addr w) cr3 := by
  have hdir : ∀ i < 1024, Function.update memory addr w (entryAddr cr3 i) = memory (entryAddr cr3 i) :=
    fun i hi => Function.update_of_ne (hne i hi) _ _
  refine ⟨h.aligned, (hdir 1023 (by decide)).trans h.self, fun i hi j hj => ?_⟩
  unfold tableAt
  rw [hdir i hi, hdir j hj]
  exact h.apart i hi j hj

end Tables

theorem hasTable_update (hne : ∀ i < 1024, entryAddr cr3 i ≠ addr) :
    HasTable (Function.update memory addr w) cr3 v ↔ HasTable memory cr3 v := by
  unfold HasTable
  rw [Function.update_of_ne (hne _ (pdeIndex_lt v))]

theorem pteAddr_update (hne : ∀ i < 1024, entryAddr cr3 i ≠ addr) :
    pteAddr (Function.update memory addr w) cr3 v = pteAddr memory cr3 v := by
  unfold pteAddr tableAt
  rw [Function.update_of_ne (hne _ (pdeIndex_lt v))]

/-- The processor's translation by the entry of the page. -/
theorem mmuTranslate_eq (memory : UInt32 → UInt32) (cr3 v : UInt32) : mmuTranslate memory cr3 v =
    if memory (entryAddr cr3 (v >>> 22).toNat) &&& pPresent = 0 then none
    else if memory (pteAddr memory cr3 v) &&& pPresent = 0 then none
    else some ((memory (pteAddr memory cr3 v) &&& 0xFFFFF000) + (v &&& 0xFFF)) := rfl

end

/-! ## What an entry shows -/

/-- The word shows the entry. -/
structure Pte.Shown (w : UInt32) (e : Pte) : Prop where
  present : e.present = (w &&& pPresent != 0)
  writable : e.writable = (w &&& pdWrite != 0)
  user : e.user = (w &&& pdUser != 0)
  frame : e.frame = w &&& 0xFFFFF000

theorem Pte.shown_map (physical : UInt32) (user : Bool) :
    Pte.Shown (physical ||| 1 ||| 2 ||| if user then 4 else 0) ⟨physical, true, true, user || physical &&& 4 != 0⟩ := by
  have hbits : ∀ mask : UInt32, (physical ||| 1 ||| 2 ||| if user then 4 else 0) &&& mask =
      physical &&& mask ||| 1 &&& mask ||| 2 &&& mask ||| (if user then 4 else 0) &&& mask := by
    intro mask
    rw [word_or_and, word_or_and, word_or_and]
  have hset : ∀ mask : UInt32, 1 &&& mask ≠ 0 ∨ 2 &&& mask ≠ 0 →
      true = ((physical ||| 1 ||| 2 ||| if user then 4 else 0) &&& mask != 0) := by
    intro mask hmask
    rw [eq_comm, bne_iff_ne, hbits, word_or_ne_zero, word_or_ne_zero, word_or_ne_zero]
    tauto
  refine ⟨hset _ (.inl (by decide)), hset _ (.inr (by decide)), ?_, ?_⟩
  · rw [Bool.eq_iff_iff, Bool.or_eq_true, bne_iff_ne, bne_iff_ne, hbits, word_or_ne_zero, word_or_ne_zero,
      word_or_ne_zero]
    show user = true ∨ physical &&& 4 ≠ 0 ↔ _
    have hone : ¬ (1 &&& pdUser ≠ 0) := by decide
    have htwo : ¬ (2 &&& pdUser ≠ 0) := by decide
    cases user with
    | true => exact iff_of_true (.inl rfl) (.inr (by decide))
    | false =>
      have hzero : ¬ ((if false = true then (4 : UInt32) else 0) &&& pdUser ≠ 0) := by decide
      rw [or_iff_right Bool.false_ne_true, or_iff_left hzero, or_iff_left htwo, or_iff_left hone]
      rfl
  · show pageAlignInf physical = _
    have hlow : ∀ user : Bool, (if user then (4 : UInt32) else 0) &&& 0xFFFFF000 = 0 := by decide
    rw [hbits, hlow, show (1 : UInt32) &&& 0xFFFFF000 = 0 from rfl, show (2 : UInt32) &&& 0xFFFFF000 = 0 from rfl,
      UInt32.or_zero, UInt32.or_zero, UInt32.or_zero]
    rfl

theorem Pte.Shown.unmap {w : UInt32} {e : Pte} (h : Pte.Shown w e) :
    Pte.Shown (w &&& ~~~pPresent) { e with present := false } := by
  have hand : ∀ mask : UInt32, w &&& ~~~pPresent &&& mask = w &&& (~~~pPresent &&& mask) := UInt32.and_assoc _ _
  refine ⟨?_, h.writable.trans ?_, h.user.trans ?_, h.frame.trans ?_⟩
  · rw [hand, show ~~~pPresent &&& pPresent = 0 from rfl, UInt32.and_zero]
    rfl
  · rw [hand]
    rfl
  · rw [hand]
    rfl
  · rw [hand]
    rfl

/-! ## The two levels -/

/-- The translation that the entries stand for. -/
def Paging.translate (g : Paging) (v : UInt32) : Option UInt32 :=
  if (g.pte (pageAlignInf v)).present then some ((g.pte (pageAlignInf v)).frame + vaddrPgOffset v) else none

theorem pagingVirtualToPhysical_translate (g : Paging) (v : UInt32) :
    pagingVirtualToPhysical g v = (g.translate v).getD 0 := by
  unfold pagingVirtualToPhysical Paging.translate
  split <;> rfl

/-- Memory shows the entries of all pages in front of the mirror; those of pages without a table are absent. -/
structure ShowsPaging (cr3 : UInt32) (k : PdState) (g : Paging) : Prop where
  tables : Tables k.memory cr3
  physmem : k.physmem = g.physmem
  entry : ∀ v < pageTableMap, HasTable k.memory cr3 v →
    Pte.Shown (k.memory (pteAddr k.memory cr3 v)) (g.pte (pageAlignInf v))
  absent : ∀ v < pageTableMap, ¬ HasTable k.memory cr3 v → (g.pte (pageAlignInf v)).present = false

section

variable {cr3 v : UInt32} {k k' : PdState} {g : Paging}

theorem ShowsPaging.translate (h : ShowsPaging cr3 k g) (hv : v < pageTableMap) :
    mmuTranslate k.memory cr3 v = g.translate v := by
  rw [mmuTranslate_eq]
  unfold Paging.translate
  by_cases ht : HasTable k.memory cr3 v
  · have hshown := h.entry v hv ht
    rw [if_neg ht, hshown.present, hshown.frame]
    by_cases hpresent : k.memory (pteAddr k.memory cr3 v) &&& pPresent = 0
    · rw [if_pos hpresent, hpresent]
      rfl
    · rw [if_neg hpresent, if_pos (bne_iff_ne.mpr hpresent)]
      rfl
  · rw [if_pos (not_not.mp ht), h.absent v hv ht]
    rfl

/-- The entry of a page is written. -/
theorem ShowsPaging.write {w : UInt32} {e : Pte} (h : ShowsPaging cr3 k g) (hv : v < pageTableMap)
    (ht : HasTable k.memory cr3 v) (hshown : Pte.Shown w e) (m : Physmem) :
    ShowsPaging cr3 { k with physmem := m, memory := Function.update k.memory (pteAddr k.memory cr3 v) w }
      ⟨m, Function.update g.pte (pageAlignInf v) e⟩ := by
  have hne : ∀ i < 1024, entryAddr cr3 i ≠ pteAddr k.memory cr3 v := fun i => h.tables.pteAddr_ne_pde hv ht
  refine ⟨h.tables.update hne, rfl, fun u hu htable => ?_, fun u hu htable => ?_⟩
  · show Pte.Shown (Function.update k.memory _ w (pteAddr (Function.update k.memory _ w) cr3 u))
      (Function.update g.pte (pageAlignInf v) e (pageAlignInf u))
    have hut : HasTable k.memory cr3 u := (hasTable_update hne).mp htable
    rw [pteAddr_update hne]
    by_cases hpage : pageAlignInf u = pageAlignInf v
    · rw [(h.tables.pteAddr_inj hut ht).mpr hpage, hpage, Function.update_self, Function.update_self]
      exact hshown
    · rw [Function.update_of_ne fun heq => hpage ((h.tables.pteAddr_inj hut ht).mp heq), Function.update_of_ne hpage]
      exact h.entry u hu hut
  · have hut : ¬ HasTable k.memory cr3 u := fun hut => htable ((hasTable_update hne).mpr hut)
    have hpage : pageAlignInf u ≠ pageAlignInf v := by
      intro heq
      have hindex := ((page_eq_iff u v).mpr heq).1
      unfold HasTable at hut
      rw [hindex] at hut
      exact hut ht
    show (Function.update g.pte (pageAlignInf v) e (pageAlignInf u)).present = false
    rw [Function.update_of_ne hpage]
    exact h.absent u hu hut

/-- What a call leaves: the tables show the new entries, and only the entries of its pages have been written. -/
structure TablesAfter (cr3 : UInt32) (k : PdState) (pages : List UInt32) (k' : PdState) (g' : Paging) : Prop where
  shows : ShowsPaging cr3 k' g'
  pageDirectory : k'.pageDirectory = k.pageDirectory
  hasTable : ∀ u, HasTable k'.memory cr3 u ↔ HasTable k.memory cr3 u
  pteAddr : ∀ u, pteAddr k'.memory cr3 u = pteAddr k.memory cr3 u
  frame : ∀ a, (∀ v ∈ pages, a ≠ Mem.pteAddr k.memory cr3 v) → k'.memory a = k.memory a

theorem TablesAfter.refl (h : ShowsPaging cr3 k g) : TablesAfter cr3 k [] k g :=
  ⟨h, rfl, fun _ => Iff.rfl, fun _ => rfl, fun _ _ => rfl⟩

theorem TablesAfter.trans {k'' : PdState} {g' g'' : Paging} {pages pages' : List UInt32}
    (h : TablesAfter cr3 k pages k' g') (h' : TablesAfter cr3 k' pages' k'' g'') :
    TablesAfter cr3 k (pages ++ pages') k'' g'' := by
  refine ⟨h'.shows, h'.pageDirectory.trans h.pageDirectory, fun u => (h'.hasTable u).trans (h.hasTable u),
    fun u => (h'.pteAddr u).trans (h.pteAddr u), fun a ha => ?_⟩
  rw [List.forall_mem_append] at ha
  refine (h'.frame a fun v hv => ?_).trans (h.frame a ha.1)
  rw [h.pteAddr]
  exact ha.2 v hv

theorem ShowsPaging.after_write {w : UInt32} {e : Pte} (h : ShowsPaging cr3 k g) (hv : v < pageTableMap)
    (ht : HasTable k.memory cr3 v) (hshown : Pte.Shown w e) (m : Physmem) :
    TablesAfter cr3 k [v] { k with physmem := m, memory := Function.update k.memory (pteAddr k.memory cr3 v) w }
      ⟨m, Function.update g.pte (pageAlignInf v) e⟩ := by
  have hne : ∀ i < 1024, entryAddr cr3 i ≠ pteAddr k.memory cr3 v := fun i => h.tables.pteAddr_ne_pde hv ht
  exact ⟨h.write hv ht hshown m, rfl, fun u => hasTable_update hne, fun u => pteAddr_update hne,
    fun a ha => Function.update_of_ne (ha v List.mem_cons_self) _ _⟩

theorem Tables.map_eq (h : Tables k.memory cr3) (ht : HasTable k.memory cr3 v) (physical : UInt32) (user : Bool) :
    tablesMap cr3 k v physical user = some { k with
      physmem := (physmemRefPhyspageAt k.physmem physical).2
      memory := Function.update k.memory (pteAddr k.memory cr3 v)
        (physical ||| 1 ||| 2 ||| if user then 4 else 0) } := by
  have hpde : loadWord k.memory cr3 (pdeVaddr v) = _ := loadWord_pde h.self h.aligned v
  have hpte : mmuTranslate k.memory cr3 (pteVaddr v) = _ := mmuTranslate_pte h.self h.aligned ht
  unfold tablesMap storeWord
  dsimp only [Option.bind_eq_bind]
  rw [hpde, hpte]
  rfl

theorem Tables.unmap_eq (h : Tables k.memory cr3) (ht : HasTable k.memory cr3 v) (hv : isPageAligned v = true)
    {phys : UInt32} (hphys : virtualToPhysical k.memory cr3 v = some phys) :
    tablesUnmap cr3 k v = some (0, { k with
      physmem := (physmemUnrefPhyspage k.physmem phys).2
      memory := Function.update k.memory (pteAddr k.memory cr3 v)
        (k.memory (pteAddr k.memory cr3 v) &&& ~~~pPresent) }) := by
  have hload : loadWord k.memory cr3 (pteVaddr v) = _ := loadWord_pte h.self h.aligned ht
  have hpte : mmuTranslate k.memory cr3 (pteVaddr v) = _ := mmuTranslate_pte h.self h.aligned ht
  have hmask : v &&& 0xfff = 0 := beq_iff_eq.mp hv
  unfold tablesUnmap storeWord
  dsimp only [Option.bind_eq_bind]
  rw [hphys, Option.bind_some, if_neg (not_not.mpr hmask), hload, hpte]
  rfl

/-- `paging_map` -/
theorem ShowsPaging.map (h : ShowsPaging cr3 k g) (hv : v < pageTableMap) (ht : HasTable k.memory cr3 v)
    (physical : UInt32) (user : Bool) :
    ∃ k', tablesMap cr3 k v physical user = some k' ∧ TablesAfter cr3 k [v] k' (pagingMap g v physical user).2 := by
  refine ⟨_, h.tables.map_eq ht physical user, ?_⟩
  unfold pagingMap
  rw [← h.physmem]
  exact h.after_write hv ht (Pte.shown_map physical user) _

/-- `paging_unmap` -/
theorem ShowsPaging.unmap (h : ShowsPaging cr3 k g) (hv : v < pageTableMap)
    (ht : isPageAligned v = true → HasTable k.memory cr3 v) :
    ∃ k', tablesUnmap cr3 k v = some ((pagingUnmap g v).1, k') ∧
      TablesAfter cr3 k (if isPageAligned v then [v] else []) k' (pagingUnmap g v).2 := by
  have hphys : virtualToPhysical k.memory cr3 v = some (pagingVirtualToPhysical g v) := by
    rw [virtualToPhysical_eq h.tables.self h.tables.aligned, h.translate hv, pagingVirtualToPhysical_translate]
  by_cases halign : isPageAligned v = true
  · have hentry := h.entry v hv (ht halign)
    have hafter := h.after_write hv (ht halign) hentry.unmap
      (physmemUnrefPhyspage k.physmem (pagingVirtualToPhysical g v)).2
    rw [pagingUnmap_of_aligned halign, if_pos halign]
    rw [(isPageAligned_iff v).mp halign] at hafter
    exact ⟨_, h.tables.unmap_eq (ht halign) halign hphys, h.physmem ▸ hafter⟩
  · have hmask : v &&& 0xfff ≠ 0 := fun hz => halign (beq_iff_eq.mpr hz)
    unfold tablesUnmap pagingUnmap
    dsimp only [Option.bind_eq_bind]
    rw [hphys, Option.bind_some, if_pos hmask, if_pos hmask, if_neg halign]
    exact ⟨k, rfl, .refl h⟩

/-- The loop of `paging_unmap_interval`. -/
theorem ShowsPaging.unmapLoop : ∀ (n : Nat) {v : UInt32} {k : PdState} {g : Paging} (retval : UInt32),
    ShowsPaging cr3 k g → isPageAligned v = true → v.toNat + n * 4096 ≤ pageTableMap.toNat →
    (∀ u ∈ pagesFrom n v, HasTable k.memory cr3 u) →
    ∃ k', tablesUnmapLoop cr3 n v retval k = some ((pagingUnmapLoop n v retval g).1, k') ∧
      TablesAfter cr3 k (pagesFrom n v) k' (pagingUnmapLoop n v retval g).2 := by
  intro n
  induction n with
  | zero => exact fun retval h _ _ _ => ⟨_, rfl, .refl h⟩
  | succ n ih =>
    intro v k g retval h halign htop ht
    have hmap : pageTableMap.toNat = 4290772992 := rfl
    have hpage : pageSize.toNat = 4096 := rfl
    have hv : v < pageTableMap := by
      rw [word_lt_iff]
      omega
    obtain ⟨htv, hrest⟩ := List.forall_mem_cons.mp (show ∀ u ∈ v :: pagesFrom n (v + pageSize), _ from ht)
    obtain ⟨k₁, heq, hafter⟩ := h.unmap hv fun _ => htv
    rw [if_pos halign] at hafter
    have hnext : (v + pageSize).toNat = v.toNat + 4096 := by
      rw [word_add, hpage]
      omega
    obtain ⟨k', heq', hafter'⟩ := ih (if 0 = (pagingUnmap g v).1 then retval + pageSize else retval) hafter.shows
      (isPageAligned_add_pageSize halign) (by omega) fun u hu => (hafter.hasTable u).mpr (hrest u hu)
    refine ⟨k', ?_, hafter.trans hafter'⟩
    unfold tablesUnmapLoop
    dsimp only [Option.bind_eq_bind]
    rw [heq]
    exact heq'

/-! ## Runs -/

/-- The pages whose entries a call may write. -/
def PagingOp.touched : PagingOp → List UInt32
  | .map virt _ _ => [virt]
  | op => op.cleared

theorem PagingOp.touched_lt {op : PagingOp} (hin : op.InTables) : ∀ u ∈ op.touched, u < pageTableMap := by
  have hmap : pageTableMap.toNat = 4290772992 := rfl
  have hmirror : pagingMirror.toNat = 4290772992 := rfl
  intro u hu
  cases op with
  | map virt physical user => exact List.mem_singleton.mp hu ▸ hin
  | unmap virt =>
    have hvirt : u ∈ if isPageAligned virt then [virt] else [] := hu
    split_ifs at hvirt
    · exact List.mem_singleton.mp hvirt ▸ hin
    · cases hvirt
  | unmapInterval vaddr size =>
    have hpages : u ∈ if isPageAligned vaddr ∧ isPageAligned size then pagesFrom (size / pageSize).toNat vaddr else [] := hu
    split_ifs at hpages with halign
    · have htop : vaddr.toNat + size.toNat ≤ pagingMirror.toNat := hin
      have hdiv : (size / pageSize).toNat = size.toNat / 4096 := UInt32.toNat_div ..
      have hbounds := (mem_pagesFrom _ _ halign.1 (by omega) u).mp hpages
      rw [word_lt_iff]
      omega
    · cases hpages

/-- One call. -/
theorem ShowsPaging.step (h : ShowsPaging cr3 k g) (op : PagingOp) (hin : op.InTables)
    (ht : ∀ u ∈ op.touched, HasTable k.memory cr3 u) :
    ∃ k', tablesStep cr3 k op = some k' ∧ TablesAfter cr3 k op.touched k' (pagingStep g op) := by
  cases op with
  | map virt physical user => exact h.map hin (ht virt List.mem_cons_self) physical user
  | unmap virt =>
    obtain ⟨k', heq, hafter⟩ := h.unmap hin fun halign => ht virt (by
      show virt ∈ if isPageAligned virt then [virt] else []
      rw [if_pos halign]
      exact List.mem_cons_self)
    refine ⟨k', ?_, hafter⟩
    show (tablesUnmap cr3 k virt).map Prod.snd = some k'
    rw [heq]
    rfl
  | unmapInterval vaddr size =>
    by_cases halign : isPageAligned vaddr = true ∧ isPageAligned size = true
    · have htouched : (PagingOp.unmapInterval vaddr size).touched = pagesFrom (size / pageSize).toNat vaddr :=
        if_pos halign
      have hsize : (size / pageSize).toNat * 4096 ≤ size.toNat := by
        rw [UInt32.toNat_div]
        exact Nat.div_mul_le_self _ _
      have htop : vaddr.toNat + size.toNat ≤ pageTableMap.toNat := hin
      rw [htouched] at ht
      obtain ⟨k', heq, hafter⟩ := h.unmapLoop _ 0 halign.1 (by omega) ht
      refine ⟨k', ?_, ?_⟩
      · show (tablesUnmapInterval cr3 k vaddr size).map Prod.snd = some k'
        unfold tablesUnmapInterval
        rw [halign.1, halign.2, Bool.not_true, if_neg Bool.false_ne_true, if_neg Bool.false_ne_true, heq]
        rfl
      · have hstep : pagingStep g (.unmapInterval vaddr size) =
            (pagingUnmapLoop (size / pageSize).toNat vaddr 0 g).2 := by
          show (pagingUnmapInterval g vaddr size).2 = _
          unfold pagingUnmapInterval
          rw [halign.1, halign.2, Bool.not_true, if_neg Bool.false_ne_true, if_neg Bool.false_ne_true]
        rw [htouched, hstep]
        exact hafter
    · have htouched : (PagingOp.unmapInterval vaddr size).touched = [] := if_neg halign
      have hunchanged : (tablesUnmapInterval cr3 k vaddr size).map Prod.snd = some k ∧
          (pagingUnmapInterval g vaddr size).2 = g := by
        unfold tablesUnmapInterval pagingUnmapInterval
        cases ha : isPageAligned vaddr with
        | false => exact ⟨rfl, rfl⟩
        | true =>
          cases hs : isPageAligned size with
          | false => exact ⟨rfl, rfl⟩
          | true => exact absurd ⟨ha, hs⟩ halign
      refine ⟨k, hunchanged.1, ?_⟩
      rw [htouched]
      show TablesAfter cr3 k [] k (pagingUnmapInterval g vaddr size).2
      rw [hunchanged.2]
      exact .refl h

theorem ShowsPaging.run (ops : List PagingOp) : ∀ {k : PdState} {g : Paging}, ShowsPaging cr3 k g →
    (∀ op ∈ ops, op.InTables ∧ ∀ u ∈ op.touched, HasTable k.memory cr3 u) →
    ∃ k', ops.foldlM (tablesStep cr3) k = some k' ∧
      TablesAfter cr3 k (ops.flatMap PagingOp.touched) k' (run pagingStep g ops) := by
  induction ops with
  | nil => exact fun h _ => ⟨_, rfl, .refl h⟩
  | cons op ops ih =>
    intro k g h hops
    obtain ⟨⟨hin, ht⟩, hrest⟩ := List.forall_mem_cons.mp hops
    obtain ⟨k₁, heq, hafter⟩ := h.step op hin ht
    obtain ⟨k', heq', hafter'⟩ := ih hafter.shows fun op' hop' =>
      ⟨(hrest op' hop').1, fun u hu => (hafter.hasTable u).mpr ((hrest op' hop').2 u hu)⟩
    refine ⟨k', ?_, hafter.trans hafter'⟩
    rw [List.foldlM_cons, heq]
    exact heq'

/-- **The page tables in memory refine the entries of `Paging`** over any run of calls for pages in front of the mirror
that have a table: no call faults, the processor translates every address as the entries say, and no word changes but the
entries of the pages of the calls. -/
theorem tables_refine_paging (h : ShowsPaging cr3 k g) (ops : List PagingOp)
    (hops : ∀ op ∈ ops, op.InTables ∧ ∀ u ∈ op.touched, HasTable k.memory cr3 u) :
    ∃ k', ops.foldlM (tablesStep cr3) k = some k' ∧ k'.physmem = (run pagingStep g ops).physmem ∧
      (∀ v < pageTableMap, mmuTranslate k'.memory cr3 v = (run pagingStep g ops).translate v) ∧
      ∀ a, (∀ op ∈ ops, ∀ u ∈ op.touched, a ≠ pteAddr k.memory cr3 u) → k'.memory a = k.memory a := by
  obtain ⟨k', heq, hafter⟩ := h.run ops hops
  refine ⟨k', heq, hafter.shows.physmem, fun v => hafter.shows.translate, fun a ha => hafter.frame a fun v hv => ?_⟩
  obtain ⟨op, hop, hu⟩ := List.mem_flatMap.mp hv
  exact ha op hop v hu

end

/-- A directory at `0x100000` with an empty table at `0x300000`, for the pages from `0x40000000` on. -/
def oneTable : PdState where
  physmem := ⟨0x1000, 0x400000, fun _ => 0, [], [], 0⟩
  pageDirectory := 0x100000
  memory a := if a = 0x100FFC then 0x100003 else if a = 0x100400 then 0x300007 else 0

theorem oneTable_pde {i : Nat} (hi : i < 1024) : oneTable.memory (entryAddr 0x100000 i) =
    if i = 1023 then 0x100003 else if i = 256 then 0x300007 else 0 := by
  have haddr : (entryAddr 0x100000 i).toNat = 1048576 + 4 * i := entryAddr_toNat (by decide) hi
  have hmirror : entryAddr 0x100000 i = 0x100FFC ↔ i = 1023 := by
    rw [word_eq_iff, haddr]
    show 1048576 + 4 * i = 1052668 ↔ _
    omega
  have htable : entryAddr 0x100000 i = 0x100400 ↔ i = 256 := by
    rw [word_eq_iff, haddr]
    show 1048576 + 4 * i = 1049600 ↔ _
    omega
  show (if entryAddr 0x100000 i = 0x100FFC then (0x100003 : UInt32) else
    if entryAddr 0x100000 i = 0x100400 then 0x300007 else 0) = _
  simp only [hmirror, htable]

theorem oneTable_pte {i : Nat} (hi : i < 1024) : oneTable.memory (entryAddr 0x300000 i) = 0 := by
  have haddr : (entryAddr 0x300000 i).toNat = 3145728 + 4 * i := entryAddr_toNat (by decide) hi
  have hne : ∀ a : UInt32, a.toNat < 3145728 → entryAddr 0x300000 i ≠ a := by
    intro a ha heq
    rw [heq] at haddr
    omega
  show (if entryAddr 0x300000 i = 0x100FFC then (0x100003 : UInt32) else
    if entryAddr 0x300000 i = 0x100400 then 0x300007 else 0) = 0
  rw [if_neg (hne _ (by decide)), if_neg (hne _ (by decide))]

theorem oneTable_shows : ShowsPaging 0x100000 oneTable ⟨oneTable.physmem, fun _ => ⟨0, false, false, false⟩⟩ := by
  have hpresent : ∀ i < 1024, ¬ oneTable.memory (entryAddr 0x100000 i) &&& pPresent = 0 → i = 1023 ∨ i = 256 := by
    intro i hi hp
    rw [oneTable_pde hi] at hp
    split_ifs at hp with hlast hfirst
    · exact .inl hlast
    · exact .inr hfirst
    · exact absurd rfl hp
  have hmirror : tableAt oneTable.memory 0x100000 1023 = 0x100000 := by decide +kernel
  have htable : tableAt oneTable.memory 0x100000 256 = 0x300000 := by decide +kernel
  have hself : SelfMapped oneTable.memory 0x100000 := by
    unfold SelfMapped
    decide +kernel
  refine ⟨⟨by decide, hself, fun i hi j hj hpi hpj heq => ?_⟩, rfl, fun v hv ht => ?_, fun v _ _ => rfl⟩
  · rcases hpresent i hi hpi with rfl | rfl <;> rcases hpresent j hj hpj with rfl | rfl
    · rfl
    · rw [hmirror, htable] at heq
      exact absurd heq (by decide)
    · rw [hmirror, htable] at heq
      exact absurd heq (by decide)
    · rfl
  · have hindex := (hpresent _ (pdeIndex_lt v) ht).resolve_left (Nat.ne_of_lt (pdeIndex_of_lt hv))
    have hword : oneTable.memory (pteAddr oneTable.memory 0x100000 v) = 0 := by
      unfold pteAddr
      rw [hindex, htable, oneTable_pte (pteIndex_lt v)]
    rw [hword]
    exact ⟨rfl, rfl, rfl, rfl⟩

/-- Two pages are mapped, and an interval cleared that begins with the second one. -/
theorem oneTable_refines : ∃ k', [PagingOp.map 0x40000000 0x200000 true, .map 0x40001000 0x201000 false,
      .unmapInterval 0x40001000 0x2000].foldlM (tablesStep 0x100000) oneTable = some k' ∧
    mmuTranslate k'.memory 0x100000 0x40000123 = some 0x200123 ∧
    mmuTranslate k'.memory 0x100000 0x40001123 = none := by
  have hpages : ∀ u ∈ [(0x40000000 : UInt32), 0x40001000, 0x40002000], HasTable oneTable.memory 0x100000 u := by
    rw [List.forall_mem_cons, List.forall_mem_cons, List.forall_mem_singleton]
    unfold HasTable
    decide +kernel
  obtain ⟨k', heq, -, htranslate, -⟩ := tables_refine_paging oneTable_shows
    [.map 0x40000000 0x200000 true, .map 0x40001000 0x201000 false, .unmapInterval 0x40001000 0x2000] (by
      rw [List.forall_mem_cons, List.forall_mem_cons, List.forall_mem_singleton]
      have hfirst : (0x40000000 : UInt32) < pagingMirror := by decide
      have hsecond : (0x40001000 : UInt32) < pagingMirror := by decide
      have hthird : (0x40001000 : UInt32).toNat + (0x2000 : UInt32).toNat ≤ pagingMirror.toNat := by decide
      refine ⟨⟨hfirst, fun u hu => hpages u ?_⟩, ⟨hsecond, fun u hu => hpages u ?_⟩, hthird, fun u hu => hpages u ?_⟩
      · exact List.mem_cons.mpr (.inl (List.mem_singleton.mp hu))
      · exact List.mem_cons_of_mem _ (List.mem_cons.mpr (.inl (List.mem_singleton.mp hu)))
      · exact List.mem_cons_of_mem _ hu)
  exact ⟨k', heq, (htranslate _ (by decide)).trans (by decide +kernel),
    (htranslate _ (by decide)).trans (by decide +kernel)⟩

end Desiros.Mem
