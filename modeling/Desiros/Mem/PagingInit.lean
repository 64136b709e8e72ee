import Desiros.Mem.PageTables
import Desiros.Mem.KvmmPages

/-!
# The first page tables (`paging_init`)

The directory and its tables are pages as `physmem_ref_physpage_new` hands them out, one after the other. With 1025 free
pages the tables are separate, each address in front of the mirror translates to itself, and memory shows `identityPages`,
the state that the kernel ranges are set up in (`pagingInit_identity`).
-/

namespace Desiros.Mem

open Desiros.Library

/-! ## The code -/

/-- `memset(base, 0, 4 * n)` -/
def clearEntries (base : UInt32) (memory : UInt32 → UInt32) : Nat → UInt32 → UInt32
  | 0 => memory
  | i + 1 => Function.update (clearEntries base memory i) (entryAddr base i) 0

/-- The inner loop, `n` turns: memory and `address`. -/
def fillTable (table : UInt32) : Nat → (UInt32 → UInt32) × UInt32 → (UInt32 → UInt32) × UInt32
  | 0, s => s
  | tblI + 1, s =>
    let (memory, address) := fillTable table tblI s
    (Function.update memory (entryAddr table tblI) (address ||| pdRead ||| pdWrite), address + 4096)

/-- The outer loop, `n` turns; paging is off, so the addresses are physical. -/
def fillTables (pd : UInt32) : Nat → PdState × UInt32 → PdState × UInt32
  | 0, s => s
  | dirI + 1, s =>
    let (k, address) := fillTables pd dirI s
    let (table, physmem) := physmemRefPhyspageNew k.physmem
    let memory := Function.update k.memory (entryAddr pd dirI) (table ||| pdRead ||| pdWrite ||| pdUser)
    let (memory, address) := fillTable table 1024 (memory, address)
    ({ k with physmem, memory }, address)

def pagingInit (k : PdState) : PdState :=
  let (pd, physmem) := physmemRefPhyspageNew k.physmem
  let k : PdState := ⟨physmem, pd, clearEntries pd k.memory 1024⟩
  let k := (fillTables pd 1024 (k, 0)).1
  { k with memory := Function.update k.memory (entryAddr pd 1023) (pd ||| (pPresent ||| pdWrite)) }

/-! ## The loops -/

section

variable {base table : UInt32}

theorem clearEntries_of_ne (memory : UInt32 → UInt32) {addr : UInt32} (n : Nat) (hne : ∀ i < n, addr ≠ entryAddr base i) :
    clearEntries base memory n addr = memory addr := by
  induction n with
  | zero => rfl
  | succ n ih =>
    unfold clearEntries
    rw [Function.update_of_ne (hne n (Nat.lt_succ_self n)), ih fun i hi => hne i (Nat.lt_succ_of_lt hi)]

theorem fillTable_address (s : (UInt32 → UInt32) × UInt32) (n : Nat) :
    (fillTable table n s).2 = s.2 + 4096 * UInt32.ofNat n := by
  induction n with
  | zero => exact (UInt32.add_zero s.2).symm
  | succ n ih =>
    show (fillTable table n s).2 + 4096 * UInt32.ofNat 1 = _
    rw [ih, UInt32.ofNat_add, UInt32.mul_add, UInt32.add_assoc]

theorem fillTable_of_ne (s : (UInt32 → UInt32) × UInt32) {addr : UInt32} (n : Nat)
    (hne : ∀ i < n, addr ≠ entryAddr table i) : (fillTable table n s).1 addr = s.1 addr := by
  induction n with
  | zero => rfl
  | succ n ih =>
    show Function.update (fillTable table n s).1 _ _ addr = _
    rw [Function.update_of_ne (hne n (Nat.lt_succ_self n)), ih fun i hi => hne i (Nat.lt_succ_of_lt hi)]

theorem fillTable_entry (h : isPageAligned table = true) (s : (UInt32 → UInt32) × UInt32) (n : Nat) (hn : n ≤ 1024)
    {i : Nat} (hi : i < n) :
    (fillTable table n s).1 (entryAddr table i) = (s.2 + 4096 * UInt32.ofNat i) ||| pdRead ||| pdWrite := by
  induction n with
  | zero => exact absurd hi (Nat.not_lt_zero i)
  | succ n ih =>
    show Function.update (fillTable table n s).1 _ _ _ = _
    by_cases hin : i = n
    · rw [hin, Function.update_self, fillTable_address]
    · rw [Function.update_of_ne, ih (by omega) (by omega)]
      exact fun heq => hin (entryAddr_inj h h (by omega) (by omega) heq).2

end

/-- The entry of page `n` of the address space. -/
def identityEntry (n : Nat) : UInt32 := 4096 * UInt32.ofNat n ||| pdRead ||| pdWrite

/-- What `n` turns of the outer loop have written. `pages` are the pages that were free before them. -/
structure TablesFilled (total pd : UInt32) (pages : List UInt32) (memory : UInt32 → UInt32) (n : Nat)
    (s : PdState × UInt32) : Prop where
  inv : PhysmemInv total s.1.physmem
  free : s.1.physmem.freePpage = pages.drop n
  pageDirectory : s.1.pageDirectory = pd
  address : s.2 = 4096 * UInt32.ofNat (1024 * n)
  pde : ∀ i (hi : i < pages.length), i < n →
    s.1.memory (entryAddr pd i) = pages[i] ||| pdRead ||| pdWrite ||| pdUser
  pte : ∀ i (hi : i < pages.length), i < n → ∀ j < 1024,
    s.1.memory (entryAddr pages[i] j) = identityEntry (1024 * i + j)
  frame : ∀ addr, (∀ i < n, addr ≠ entryAddr pd i) → (∀ i (hi : i < pages.length), i < n → ∀ j < 1024,
    addr ≠ entryAddr pages[i] j) → s.1.memory addr = memory addr

section

variable {total pd : UInt32} {pages : List UInt32} {k : PdState}

/-- The directory and the pages that are free behind it. -/
structure SeparatePages (pd : UInt32) (pages : List UInt32) : Prop where
  pd_aligned : isPageAligned pd = true
  aligned : ∀ p ∈ pages, isPageAligned p = true
  pd_notMem : pd ∉ pages
  nodup : pages.Nodup

namespace SeparatePages

variable (h : SeparatePages pd pages)

include h

theorem pde_ne_pte {i j m : Nat} (hm : m < pages.length) (hi : i < 1024) (hj : j < 1024) :
    entryAddr pd i ≠ entryAddr pages[m] j := by
  intro heq
  have hpage := (entryAddr_inj h.pd_aligned (h.aligned _ (List.getElem_mem hm)) hi hj heq).1
  exact h.pd_notMem (hpage ▸ List.getElem_mem hm)

theorem pte_inj {i j m n : Nat} (hm : m < pages.length) (hn : n < pages.length) (hi : i < 1024) (hj : j < 1024)
    (heq : entryAddr pages[m] i = entryAddr pages[n] j) : m = n ∧ i = j := by
  obtain ⟨hpage, hindex⟩ := entryAddr_inj (h.aligned _ (List.getElem_mem hm)) (h.aligned _ (List.getElem_mem hn))
    hi hj heq
  exact ⟨(List.Nodup.getElem_inj_iff h.nodup).mp hpage, hindex⟩

end SeparatePages

/-- One turn of the outer loop. -/
theorem TablesFilled.next (hsep : SeparatePages pd pages) {memory : UInt32 → UInt32} {n : Nat} {s₀ : PdState × UInt32}
    (h : TablesFilled total pd pages memory n (fillTables pd n s₀)) (hn : n < 1024) (hroom : n < pages.length) :
    TablesFilled total pd pages memory (n + 1) (fillTables pd (n + 1) s₀) := by
  have hfree : (fillTables pd n s₀).1.physmem.freePpage = pages[n] :: pages.drop (n + 1) := by
    rw [h.free, List.drop_eq_getElem_cons hroom]
  have hnew := physmemRefPhyspageNew_eq h.inv hfree
  have hmem : pages[n] ∈ (fillTables pd n s₀).1.physmem.freePpage := hfree ▸ List.mem_cons_self
  have haligned := hsep.aligned _ (List.getElem_mem hroom)
  unfold fillTables
  dsimp only
  rw [hnew]
  generalize fillTables pd n s₀ = s at h hfree hmem
  obtain ⟨k, address⟩ := s
  obtain ⟨filled, hfilled⟩ := @exists_eq _ (fillTable pages[n] 1024
    (Function.update k.memory (entryAddr pd n) (pages[n] ||| pdRead ||| pdWrite ||| pdUser), address))
  have haddress : filled.2 = 4096 * UInt32.ofNat (1024 * (n + 1)) := by
    rw [hfilled, fillTable_address, h.address, Nat.mul_succ, UInt32.ofNat_add, UInt32.mul_add]
  have hpde : ∀ i (hi : i < pages.length), i < n + 1 →
      filled.1 (entryAddr pd i) = pages[i] ||| pdRead ||| pdWrite ||| pdUser := by
    intro i hi hin
    rw [hfilled, fillTable_of_ne _ _ fun j hj => hsep.pde_ne_pte hroom (by omega) hj]
    by_cases hlast : i = n
    · subst hlast
      exact Function.update_self ..
    · have hne : entryAddr pd i ≠ entryAddr pd n :=
        fun heq => hlast (entryAddr_inj hsep.pd_aligned hsep.pd_aligned (by omega) hn heq).2
      exact (Function.update_of_ne hne _ _).trans (h.pde i hi (by omega))
  have hpte : ∀ i (hi : i < pages.length), i < n + 1 → ∀ j < 1024,
      filled.1 (entryAddr pages[i] j) = identityEntry (1024 * i + j) := by
    intro i hi hin j hj
    rw [hfilled]
    by_cases hlast : i = n
    · subst hlast
      rw [fillTable_entry haligned _ _ le_rfl hj, h.address, identityEntry, UInt32.ofNat_add (1024 * i) j,
        UInt32.mul_add]
    · rw [fillTable_of_ne _ _ fun j' hj' heq => hlast (hsep.pte_inj hi hroom hj hj' heq).1]
      exact (Function.update_of_ne (hsep.pde_ne_pte hi hn hj).symm _ _).trans (h.pte i hi (by omega) j hj)
  have hframe : ∀ addr, (∀ i < n + 1, addr ≠ entryAddr pd i) → (∀ i (hi : i < pages.length), i < n + 1 → ∀ j < 1024,
      addr ≠ entryAddr pages[i] j) → filled.1 addr = memory addr := by
    intro addr hpde hpte
    rw [hfilled, fillTable_of_ne _ _ fun j hj => hpte n hroom (Nat.lt_succ_self n) j hj]
    refine (Function.update_of_ne (hpde n (Nat.lt_succ_self n)) _ _).trans ?_
    exact h.frame addr (fun i hi => hpde i (Nat.lt_succ_of_lt hi)) fun i hi hin => hpte i hi (Nat.lt_succ_of_lt hin)
  dsimp only
  rw [← hfilled]
  refine ⟨h.inv.take hmem ?_ rfl rfl rfl (fun _ => rfl) rfl, rfl, h.pageDirectory, haddress, hpde, hpte, hframe⟩
  show pages.drop (n + 1) = k.physmem.freePpage.erase pages[n]
  rw [hfree, List.erase_cons_head]

theorem fillTables_filled (hsep : SeparatePages pd pages) (h : PhysmemInv total k.physmem)
    (hfree : k.physmem.freePpage = pages) (hpd : k.pageDirectory = pd) (n : Nat) (hn : n ≤ 1024) (hroom : n ≤ pages.length) :
    TablesFilled total pd pages k.memory n (fillTables pd n (k, 0)) := by
  induction n with
  | zero =>
    exact ⟨h, hfree, hpd, rfl, fun i _ hi => absurd hi (Nat.not_lt_zero i), fun i _ hi => absurd hi (Nat.not_lt_zero i),
      fun _ _ _ => rfl⟩
  | succ n ih => exact (ih (by omega) (by omega)).next hsep (by omega) (by omega)

end

/-! ## The address space of the kernel -/

theorem identityEntry_shown {v : UInt32} :
    Pte.Shown (identityEntry (v.toNat / 4096)) ⟨pageAlignInf v, true, true, false⟩ := by
  have hlt := word_lt v
  have halign : (pageAlignInf v).toNat = v.toNat / 4096 * 4096 := toNat_alignInf v
  have hpage : pageAlignInf v = 4096 * UInt32.ofNat (v.toNat / 4096) := by
    have hsize : UInt32.size = 4294967296 := rfl
    have h4096 : (4096 : UInt32).toNat = 4096 := rfl
    rw [word_eq_iff, halign, UInt32.toNat_mul, h4096, UInt32.toNat_ofNat_of_lt' (by omega)]
    omega
  have huser : pageAlignInf v &&& 4 = 0 := by
    rw [word_eq_iff, UInt32.toNat_and]
    apply Nat.eq_of_testBit_eq
    intro i
    rw [halign, Nat.testBit_and, show (4 : UInt32).toNat = 2 ^ 2 from rfl, Nat.testBit_two_pow,
      show (4096 : Nat) = 2 ^ 12 from rfl, Nat.testBit_mul_two_pow]
    by_cases hi : i = 2
    · subst hi
      rfl
    · rw [decide_eq_false (Ne.symm hi), Bool.and_false]
      exact (Nat.zero_testBit i).symm
  have hshown := Pte.shown_map (pageAlignInf v) false
  rw [huser, if_neg Bool.false_ne_true, UInt32.or_zero] at hshown
  unfold identityEntry
  rw [← hpage]
  exact hshown

/-- What `paging_init` leaves, from the pages it took. -/
structure InitialTables (total : UInt32) (k k' : PdState) : Prop where
  inv : PhysmemInv total k'.physmem
  free : k'.physmem.freePpage = k.physmem.freePpage.drop 1025
  tables : Tables k'.memory k'.pageDirectory
  hasTable : ∀ v < pageTableMap, HasTable k'.memory k'.pageDirectory v
  pte : ∀ v < pageTableMap, k'.memory (pteAddr k'.memory k'.pageDirectory v) = identityEntry (v.toNat / 4096)
  frame : ∀ addr, pageAlignInf addr ∉ k.physmem.freePpage.take 1025 → k'.memory addr = k.memory addr

theorem tableWord_frame {table : UInt32} (h : isPageAligned table = true) :
    ¬ (table ||| pdRead ||| pdWrite ||| pdUser) &&& pPresent = 0 ∧
      (table ||| pdRead ||| pdWrite ||| pdUser) &&& 0xFFFFF000 = table := by
  have hshown := Pte.shown_map table true
  have hword : (table ||| pdRead ||| pdWrite ||| pdUser) = (table ||| 1 ||| 2 ||| if true = true then 4 else 0) := rfl
  rw [hword]
  refine ⟨fun hzero => ?_, hshown.frame.symm.trans ((isPageAligned_iff table).mp h)⟩
  have := hshown.present
  rw [hzero] at this
  cases this

/-- The entries of a page lie in it. -/
theorem pageAlignInf_entryAddr {base : UInt32} (h : isPageAligned base = true) {i : Nat} (hi : i < 1024) :
    pageAlignInf (entryAddr base i) = base := by
  have halign : (pageAlignInf (entryAddr base i)).toNat = (entryAddr base i).toNat / 4096 * 4096 := toNat_alignInf _
  have hbase : base.toNat % 4096 = 0 := (isAligned_iff base).mp h
  rw [word_eq_iff, halign, entryAddr_toNat h hi]
  omega

section

variable {total pd : UInt32} {k : PdState} {pages : List UInt32}

theorem PhysmemInv.separate (h : PhysmemInv total k.physmem) (hfree : k.physmem.freePpage = pd :: pages) :
    SeparatePages pd pages := by
  have haligned := (@PdState.aligned_of_inv ⟨k.physmem, 0, k.memory⟩ total h (by decide : isPageAligned 0 = true)).free
  rw [hfree, List.forall_mem_cons] at haligned
  have hnodup := h.free_nodup
  rw [hfree, List.nodup_cons] at hnodup
  exact ⟨haligned.1, haligned.2, hnodup.1, hnodup.2⟩

/-- What the directory and the tables hold once the last entry of the directory is the mirror. -/
structure MirrorSet (pd : UInt32) (pages : List UInt32) (memory : UInt32 → UInt32) : Prop where
  pde : ∀ i (hi : i < pages.length), i < 1023 → memory (entryAddr pd i) = pages[i] ||| pdRead ||| pdWrite ||| pdUser
  mirror : memory (entryAddr pd 1023) = pd ||| (pPresent ||| pdWrite)
  pte : ∀ i (hi : i < pages.length), i < 1023 → ∀ j < 1024, memory (entryAddr pages[i] j) = identityEntry (1024 * i + j)

theorem TablesFilled.mirrorSet (hsep : SeparatePages pd pages) {memory : UInt32 → UInt32} {s : PdState × UInt32}
    (h : TablesFilled total pd pages memory 1024 s) :
    MirrorSet pd pages (Function.update s.1.memory (entryAddr pd 1023) (pd ||| (pPresent ||| pdWrite))) := by
  refine ⟨fun i hi hlast => ?_, Function.update_self .., fun i hi hlast j hj => ?_⟩
  · have hne : entryAddr pd i ≠ entryAddr pd 1023 := fun heq =>
      absurd (entryAddr_inj hsep.pd_aligned hsep.pd_aligned (by omega) (by omega) heq).2 (by omega)
    rw [Function.update_of_ne hne]
    exact h.pde i hi (by omega)
  · rw [Function.update_of_ne (hsep.pde_ne_pte hi (by decide) hj).symm]
    exact h.pte i hi (by omega) j hj

namespace MirrorSet

variable {memory : UInt32 → UInt32} (h : MirrorSet pd pages memory) (hsep : SeparatePages pd pages)

include h

theorem selfMapped : SelfMapped memory pd := h.mirror.trans (congrArg (pd ||| ·) (by decide))

include hsep

theorem tableAt {i : Nat} (hi : i < pages.length) (hlast : i < 1023) : Mem.tableAt memory pd i = pages[i] := by
  unfold Mem.tableAt
  rw [h.pde i hi hlast]
  exact (tableWord_frame (hsep.aligned _ (List.getElem_mem hi))).2

theorem tableAt_last : Mem.tableAt memory pd 1023 = pd := by
  unfold Mem.tableAt
  rw [h.selfMapped]
  exact (entry_present hsep.pd_aligned).2

/-- Each entry of the directory has a table of its own. -/
theorem tables (hlen : 1024 ≤ pages.length) : Tables memory pd := by
  refine ⟨hsep.pd_aligned, h.selfMapped, fun i hi j hj _ _ heq => ?_⟩
  have hlast := h.tableAt_last hsep
  rcases Nat.lt_succ_iff_lt_or_eq.mp hi with hi' | rfl <;> rcases Nat.lt_succ_iff_lt_or_eq.mp hj with hj' | rfl
  · rw [h.tableAt hsep (by omega) hi', h.tableAt hsep (by omega) hj'] at heq
    exact (List.Nodup.getElem_inj_iff hsep.nodup).mp heq
  · rw [h.tableAt hsep (by omega) hi', hlast] at heq
    exact absurd (heq ▸ List.getElem_mem _) hsep.pd_notMem
  · rw [h.tableAt hsep (by omega) hj', hlast] at heq
    exact absurd (heq ▸ List.getElem_mem _) hsep.pd_notMem
  · rfl

theorem hasTable (hlen : 1024 ≤ pages.length) {v : UInt32} (hv : v < pageTableMap) : HasTable memory pd v := by
  have hindex := pdeIndex_of_lt hv
  show ¬ memory (entryAddr pd (v >>> 22).toNat) &&& pPresent = 0
  rw [h.pde _ (by omega) hindex]
  exact (tableWord_frame (hsep.aligned _ (List.getElem_mem _))).1

theorem pteAddr (hlen : 1024 ≤ pages.length) {v : UInt32} (hv : v < pageTableMap) :
    memory (Mem.pteAddr memory pd v) = identityEntry (v.toNat / 4096) := by
  have hindex := pdeIndex_of_lt hv
  show memory (entryAddr (Mem.tableAt memory pd (v >>> 22).toNat) ((v >>> 12) &&& 0x3FF).toNat) = _
  rw [h.tableAt hsep (by omega) hindex, h.pte _ (by omega) hindex _ (pteIndex_lt v), shiftRight_pde, shiftRight_pte]
  congr 1
  omega

end MirrorSet

theorem pagingInit_tables (h : PhysmemInv total k.physmem) (hroom : 1025 ≤ k.physmem.freePpage.length) :
    InitialTables total k (pagingInit k) := by
  obtain ⟨pd, pages, hfree⟩ := List.exists_cons_of_length_pos (show 0 < k.physmem.freePpage.length by omega)
  have hlen : 1024 ≤ pages.length := by
    rw [hfree, List.length_cons] at hroom
    omega
  have hsep := h.separate hfree
  have hnew := physmemRefPhyspageNew_eq h hfree
  -- the directory is taken and cleared
  have hfirst : PhysmemInv total (physmemRefPhyspageNew k.physmem).2 := by
    rw [hnew]
    refine h.take (hfree ▸ List.mem_cons_self) ?_ rfl rfl rfl (fun _ => rfl) rfl
    show pages = k.physmem.freePpage.erase pd
    rw [hfree, List.erase_cons_head]
  have hfilled := fillTables_filled (k := ⟨(physmemRefPhyspageNew k.physmem).2, pd, clearEntries pd k.memory 1024⟩)
    hsep hfirst (by rw [hnew]) rfl 1024 le_rfl hlen
  unfold pagingInit
  dsimp only
  rw [hnew] at hfilled ⊢
  dsimp only at hfilled ⊢
  generalize fillTables pd 1024 _ = s at hfilled
  obtain ⟨k', address⟩ := s
  have hpd : k'.pageDirectory = pd := hfilled.pageDirectory
  rw [hpd]
  obtain ⟨memory, hmemory⟩ := @exists_eq _ (Function.update k'.memory (entryAddr pd 1023) (pd ||| (pPresent ||| pdWrite)))
  have hmirror : MirrorSet pd pages memory := hmemory ▸ hfilled.mirrorSet hsep
  dsimp only
  rw [← hmemory]
  refine ⟨hfilled.inv, ?_, hmirror.tables hsep hlen, fun v hv => hmirror.hasTable hsep hlen hv,
    fun v hv => hmirror.pteAddr hsep hlen hv, fun addr haddr => ?_⟩
  · show k'.physmem.freePpage = _
    rw [hfree]
    exact hfilled.free
  · rw [hfree] at haddr
    have hpage : ∀ p ∈ (pd :: pages).take 1025, isPageAligned p = true → ∀ i < 1024, addr ≠ entryAddr p i := by
      intro p hp haligned i hi heq
      rw [heq, pageAlignInf_entryAddr haligned hi] at haddr
      exact haddr hp
    have hpd : ∀ i < 1024, addr ≠ entryAddr pd i := hpage pd List.mem_cons_self hsep.pd_aligned
    show memory addr = k.memory addr
    rw [hmemory, Function.update_of_ne (hpd 1023 (by decide)), hfilled.frame addr hpd]
    · exact clearEntries_of_ne _ _ hpd
    · intro i hi hin
      refine hpage _ (List.mem_cons_of_mem _ ?_) (hsep.aligned _ (List.getElem_mem hi))
      show _ ∈ pages.take 1024
      exact List.mem_take_iff_getElem.mpr ⟨i, by omega, rfl⟩

end

namespace InitialTables

variable {total : UInt32} {k k' : PdState} (h : InitialTables total k k')

include h

theorem shows : ShowsPaging k'.pageDirectory k' (identityPages k'.physmem).paging := by
  refine ⟨h.tables, rfl, fun v hv _ => ?_, fun v hv ht => absurd (h.hasTable v hv) ht⟩
  rw [h.pte v hv]
  exact identityEntry_shown

theorem translate {v : UInt32} (hv : v < pageTableMap) : mmuTranslate k'.memory k'.pageDirectory v = some v := by
  rw [h.shows.translate hv]
  show some (pageAlignInf (pageAlignInf v) + vaddrPgOffset v) = some v
  have halign : (pageAlignInf v).toNat = v.toNat / 4096 * 4096 := toNat_alignInf v
  have hoffset : (vaddrPgOffset v).toNat = v.toNat % 4096 := @toNat_lowMask v 0xFFF 12 rfl
  have hv' := word_lt v
  rw [pageAlignInf_pageAlignInf, Option.some_inj, word_eq_iff, word_add, halign, hoffset]
  omega

end InitialTables

/-- **The kernel's address space**: from 1025 free pages on, `paging_init` leaves separate tables in which each address in
front of the mirror translates to itself; they show `identityPages`. It takes the first 1025 free pages, and no other page
changes. -/
theorem pagingInit_identity (total : UInt32) (k : PdState) (h : PhysmemInv total k.physmem)
    (hroom : 1025 ≤ k.physmem.freePpage.length) :
    PhysmemInv total (pagingInit k).physmem ∧
      (pagingInit k).physmem.freePpage = k.physmem.freePpage.drop 1025 ∧
      ShowsPaging (pagingInit k).pageDirectory (pagingInit k) (identityPages (pagingInit k).physmem).paging ∧
      (∀ v < pageTableMap, mmuTranslate (pagingInit k).memory (pagingInit k).pageDirectory v = some v) ∧
      ∀ addr, pageAlignInf addr ∉ k.physmem.freePpage.take 1025 → (pagingInit k).memory addr = k.memory addr := by
  have hinit : InitialTables total k (pagingInit k) := pagingInit_tables h hroom
  exact ⟨hinit.inv, hinit.free, hinit.shows, fun v hv => hinit.translate hv, hinit.frame⟩

/-- A machine with `n` pages of RAM behind the first one, all of them free. -/
def allFree (n : Nat) : PdState where
  physmem := ⟨0x1000, UInt32.ofNat (4096 * (n + 1)), fun _ => 0, pagesFrom n 0x1000, [], 0⟩
  pageDirectory := 0
  memory _ := 0

theorem pagesFrom_length (n : Nat) : ∀ v, (pagesFrom n v).length = n := by
  induction n with
  | zero => exact fun _ => rfl
  | succ n ih => exact fun v => congrArg (· + 1) (ih _)

theorem allFree_length (n : Nat) : (allFree n).physmem.freePpage.length = n := pagesFrom_length n _

theorem allFree_inv {n : Nat} (hn : n < 1048575) : PhysmemInv (UInt32.ofNat (n + 1)) (allFree n).physmem := by
  have hstart : (0x1000 : UInt32).toNat = 4096 := rfl
  have hsize : UInt32.size = 4294967296 := rfl
  have hmem := mem_pagesFrom n 0x1000 (by decide) (by rw [hstart]; omega)
  have hnil : (allFree n).physmem.freePpage ++ (allFree n).physmem.usedPpage = pagesFrom n 0x1000 := List.append_nil _
  refine ⟨?_, fun p => ?_, fun _ _ => rfl, fun p hp => (nomatch hp), rfl, ?_, rfl⟩
  · rw [hnil]
    exact pagesFrom_nodup n 0x1000 (by decide) (by rw [hstart]; omega)
  · have htop : (allFree n).physmem.physmemTop.toNat = 4096 * (n + 1) := UInt32.toNat_ofNat_of_lt' (by omega)
    have haligned : isPageAligned p = true ↔ p.toNat % 4096 = 0 := isAligned_iff p
    rw [hnil, hmem, hasDescr_iff rfl, htop, haligned, hstart]
    omega
  · show (pagesFrom n 0x1000).length + 0 + 1 = (UInt32.ofNat (n + 1)).toNat
    rw [pagesFrom_length, UInt32.toNat_ofNat_of_lt' (by omega)]

theorem allFree_identity :
    mmuTranslate (pagingInit (allFree 1100)).memory (pagingInit (allFree 1100)).pageDirectory 0x12345678 =
      some 0x12345678 :=
  (pagingInit_identity _ (allFree 1100) (allFree_inv (by decide)) (by
    rw [allFree_length]
    decide)).2.2.2.1 _ (by decide)

end Desiros.Mem
