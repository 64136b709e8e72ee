import Desiros.Exec.Elf32
import Desiros.Mem.UvmmRuns

/-!
# Malformed programs

`binfmt_elf32_map` is meant to read the headers inside of the block, and `elf32prog_no_page` to copy at most a page
out of it, whatever the file holds (`ElfSafe`). Neither checks an offset of the file against its size:
`elf_malformed_iff` says which fields a file must have for both to stay inside.
-/

namespace Desiros.Exec

open Desiros.Library Desiros.Mem

variable {W : Type}

/-! ## What is promised, and of which files it holds -/

/-- The copy for a page at an offset of the file is at most a page of the block. -/
def OffsetInside (prog : ElfProgram) (offset : UInt64) : Prop :=
  (sizeToCopy prog offset).toNat ≤ 4096 ∧ prog.Inside ⟨offset.toNat, (sizeToCopy prog offset).toNat⟩

/-- The loader and the page faults in the arenas of the program, whose resource is at `addr`. -/
structure ElfSafe (E : UvmmEnv W) (cb : ElfCallbacks) (prog : ElfProgram) (addr : Nat) (s : UvmmState W) : Prop where
  reads : ∀ x ∈ (binfmtElf32Map E cb prog (some addr) s).2.reads, prog.Inside x
  copies : ∀ a ∈ (binfmtElf32Map E cb prog (some addr) s).2.uvmm.addressSpace.listArena,
    a.mappedResource.addr = addr → ∀ uaddr : UInt32, a.Contains uaddr.toNat →
      (elfCopy prog a uaddr).len ≤ 4096 ∧ prog.Inside (elfCopy prog a uaddr)

/-- The fields that are read of a program header lie in the block, and so does the last page of the part of the
file the segment maps, up to less than a page. -/
def PhdrInside (E : UvmmEnv W) (prog : ElfProgram) (mr : UvmmMappedResource) (s : ElfLoad W) (i : Nat) : Prop :=
  prog.phdrPos i % 2 ^ 32 + 24 ≤ prog.size.toNat ∧
    ((prog.phdr i).pType = ptLoad → prog.phdrPos i % 2 ^ 32 + 28 ≤ prog.size.toNat ∧
      ((mapSegment E mr s.uvmm (prog.phdr i)).1 = 0 →
        (prog.phdr i).pOffset.toNat + (pageAlignSup (prog.phdr i).pFilesz).toNat ≤ prog.size.toNat + 4096))

/-- A segment that is mapped is mapped as asked. -/
def PhdrMaps (E : UvmmEnv W) (prog : ElfProgram) (mr : UvmmMappedResource) (s : ElfLoad W) (i : Nat) : Prop :=
  (prog.phdr i).pType = ptLoad → (mapSegment E mr s.uvmm (prog.phdr i)).1 = 0 →
    MapRefines s.uvmm.addressSpace.listArena (prog.phdr i).pVaddr (pageAlignSup (prog.phdr i).pFilesz)
      (prog.phdr i).protFlags 0 mr (prog.phdr i).pOffset.toUInt64

/-- The state of the loader before the first program header. -/
def elfStart (prog : ElfProgram) (s : UvmmState W) : ElfLoad W :=
  ⟨s, (runChecks prog elfChecks).2 ++ [ePhoff, ePhnum], 0⟩

/-- The header passes its checks. -/
def ElfProgram.Checked (prog : ElfProgram) : Prop := ∀ c ∈ elfChecks, prog.field c.field = c.expected

instance (prog : ElfProgram) : Decidable prog.Checked := inferInstanceAs (Decidable (∀ c ∈ elfChecks, _ = _))

structure FieldsInside (E : UvmmEnv W) (prog : ElfProgram) (mr : UvmmMappedResource) (s : UvmmState W) : Prop where
  /-- Each field that is checked, up to the first that is wrong. -/
  checks : ∀ pre c post, elfChecks = pre ++ c :: post → (∀ d ∈ pre, prog.field d.field = d.expected) →
    c.field.pos + c.field.len ≤ prog.size.toNat
  header : prog.Checked → ePhnum.pos + ePhnum.len ≤ prog.size.toNat
  phdrs : prog.Checked → Guarded (loadPhdr E prog mr) (PhdrInside E prog mr) (elfStart prog s) (List.range prog.phnum)

/-! ## Single accesses -/

section

variable {prog : ElfProgram}

theorem ElfProgram.size_le (prog : ElfProgram) : prog.size.toNat ≤ 1073741824 := prog.inKernel

/-- An access inside is one that ends inside. -/
theorem inside_iff {pos len : Nat} (hlen : 0 < len) (hlt : len < 4096) :
    prog.Inside ⟨pos, len⟩ ↔ pos % 2 ^ 32 + len ≤ prog.size.toNat := by
  have hsize := prog.size_le
  constructor
  · intro h
    have hfirst := h 0 hlen
    have hlast := h (len - 1) (Nat.sub_lt hlen Nat.one_pos)
    dsimp only at hfirst hlast
    omega
  · intro h i hi
    dsimp only at hi ⊢
    omega

theorem offsetInside_iff {offset : UInt64} (hlt : offset.toNat < 2 ^ 33) :
    OffsetInside prog offset ↔ offset.toNat + 4096 ≤ prog.size.toNat ∨
      (offset.toNat % 2 ^ 32 ≤ prog.size.toNat ∧ prog.size.toNat ≤ offset.toNat % 2 ^ 32 + 4096) := by
  have hsize := prog.size_le
  have hcmp : offset + 4096 > prog.size.toUInt64 ↔ prog.size.toNat < offset.toNat + 4096 := by
    have h4096 : (4096 : UInt64).toNat = 4096 := rfl
    rw [gt_iff_lt, UInt64.lt_iff_toNat_lt, UInt32.toNat_toUInt64, UInt64.toNat_add, h4096]
    omega
  by_cases hend : offset.toNat + 4096 ≤ prog.size.toNat
  · refine iff_of_true ?_ (Or.inl hend)
    have hcopy : (sizeToCopy prog offset).toNat = 4096 := by
      unfold sizeToCopy
      rw [if_neg fun h => Nat.not_lt.mpr hend (hcmp.mp h)]
      rfl
    rw [OffsetInside, hcopy]
    refine ⟨Nat.le_refl _, fun i hi => ?_⟩
    dsimp only at hi ⊢
    omega
  · have hcopy : (sizeToCopy prog offset).toNat =
        (4294967296 - offset.toNat % 2 ^ 32 + prog.size.toNat) % 4294967296 := by
      unfold sizeToCopy
      rw [if_pos (hcmp.mpr (Nat.not_le.mp hend)), UInt64.toNat_toUInt32, UInt64.toNat_sub, UInt32.toNat_toUInt64]
      omega
    rw [or_iff_right hend, OffsetInside, hcopy]
    constructor
    · rintro ⟨hle, hin⟩
      by_cases hq : offset.toNat % 2 ^ 32 ≤ prog.size.toNat
      · omega
      · have hfirst := hin 0 (by dsimp only; omega)
        dsimp only at hfirst
        omega
    · rintro ⟨hq, hle⟩
      refine ⟨by omega, fun i hi => ?_⟩
      dsimp only at hi ⊢
      omega

/-- The pages of a segment are inside if the last one starts there. -/
theorem pages_inside_iff {offset len : Nat} (hlt : offset < 2 ^ 32) (hlen : len < 2 ^ 32) (hpos : 0 < len)
    (haligned : len % 4096 = 0) :
    (∀ k, 4096 * k < len → OffsetInside prog (UInt64.ofNat (offset + 4096 * k))) ↔
      offset + len ≤ prog.size.toNat + 4096 := by
  have hsize := prog.size_le
  have hnat : ∀ k, 4096 * k < len → (UInt64.ofNat (offset + 4096 * k)).toNat = offset + 4096 * k := by
    intro k hk
    apply UInt64.toNat_ofNat_of_lt'
    have h64 : UInt64.size = 18446744073709551616 := rfl
    omega
  have hpage : ∀ k, 4096 * k < len → (OffsetInside prog (UInt64.ofNat (offset + 4096 * k)) ↔
      offset + 4096 * k + 4096 ≤ prog.size.toNat ∨ ((offset + 4096 * k) % 2 ^ 32 ≤ prog.size.toNat ∧
        prog.size.toNat ≤ (offset + 4096 * k) % 2 ^ 32 + 4096)) := by
    intro k hk
    have hbound : (UInt64.ofNat (offset + 4096 * k)).toNat < 2 ^ 33 := by
      rw [hnat k hk]
      omega
    rw [offsetInside_iff hbound, hnat k hk]
  constructor
  · intro h
    -- No page starts behind the block: the offsets go up from below `2 ^ 32` in steps of a page.
    have hstart : ∀ k, 4096 * k < len → offset + 4096 * k ≤ prog.size.toNat := by
      intro k
      induction k with
      | zero =>
        intro hk
        have hin := (hpage 0 hk).mp (h 0 hk)
        omega
      | succ k ih =>
        intro hk
        have hprev := ih (by omega)
        have hin := (hpage (k + 1) hk).mp (h (k + 1) hk)
        omega
    have hlast := hstart (len / 4096 - 1) (by omega)
    omega
  · intro h k hk
    rw [hpage k hk]
    omega

end

/-! ## The arenas of the program -/

/-- Every page of the program is copied from inside. -/
def CopiesInside (prog : ElfProgram) (addr : Nat) (l : List UvmmArena) : Prop :=
  ∀ p e, p % 4096 = 0 → meaning l p = some e → e.resource = addr → OffsetInside prog e.offsetInResource

section

variable {E : UvmmEnv W} {cb : ElfCallbacks} {prog : ElfProgram} {addr : Nat} {l l' : List UvmmArena}

/-- The offset of a fault is that of its page. -/
theorem offsetInProg_eq {a : UvmmArena} (hok : a.Ok) {uaddr : UInt32} (h : a.Contains uaddr.toNat) :
    a.Contains (pageAlignInf uaddr).toNat ∧
      offsetInProg a uaddr = (a.entry (pageAlignInf uaddr).toNat).offsetInResource := by
  have hpage := toNat_pageAlignInf uaddr
  have hal := hok.start_aligned
  have hlo : a.lo = a.start.toNat := rfl
  have h1 := h.1
  have h2 := h.2
  refine ⟨⟨by omega, by omega⟩, ?_⟩
  have hsub : (pageAlignInf uaddr - a.start).toNat = (pageAlignInf uaddr).toNat - a.lo := by
    have := word_lt (pageAlignInf uaddr)
    rw [word_sub]
    omega
  have hsplit : UInt64.ofNat (pageAlignInf uaddr).toNat =
      UInt64.ofNat ((pageAlignInf uaddr).toNat - a.lo) + UInt64.ofNat a.lo := by
    rw [← UInt64.ofNat_add, Nat.sub_add_cancel (by omega)]
  unfold offsetInProg UvmmArena.entry
  rw [toUInt64_eq, hsub, hsplit]
  grind

theorem elfCopy_inside {a : UvmmArena} {uaddr : UInt32} :
    ((elfCopy prog a uaddr).len ≤ 4096 ∧ prog.Inside (elfCopy prog a uaddr)) ↔
      OffsetInside prog (offsetInProg a uaddr) := by
  unfold OffsetInside elfCopy
  dsimp only
  exact Iff.rfl

theorem copies_iff (hwf : WellFormed l) :
    (∀ a ∈ l, a.mappedResource.addr = addr → ∀ uaddr : UInt32, a.Contains uaddr.toNat →
      (elfCopy prog a uaddr).len ≤ 4096 ∧ prog.Inside (elfCopy prog a uaddr)) ↔ CopiesInside prog addr l := by
  constructor
  · intro h p e hp he hres
    obtain ⟨a, ha, hc, rfl⟩ := exists_of_meaning he
    have hok := hwf.arenas a ha
    have hlt : p < 4294967296 := Nat.lt_of_lt_of_le hc.2 hok.top
    have hnat : (UInt32.ofNat p).toNat = p := UInt32.toNat_ofNat_of_lt' hlt
    have hpage : (pageAlignInf (UInt32.ofNat p)).toNat = p := by
      rw [toNat_pageAlignInf, hnat]
      omega
    have hc' : a.Contains (UInt32.ofNat p).toNat := by
      rw [hnat]
      exact hc
    have hcopy := h a ha hres (UInt32.ofNat p) hc'
    rw [elfCopy_inside, (offsetInProg_eq hok hc').2, hpage] at hcopy
    exact hcopy
  · intro h a ha hres uaddr hc
    obtain ⟨hpage, hoff⟩ := offsetInProg_eq (hwf.arenas a ha) hc
    have haligned : (pageAlignInf uaddr).toNat % 4096 = 0 := by
      rw [toNat_pageAlignInf]
      omega
    rw [elfCopy_inside, hoff]
    exact h _ _ haligned (hwf.meaning_of_mem ha hpage) hres

theorem copiesInside_of_fresh (hfresh : ∀ a ∈ l, a.mappedResource.addr ≠ addr) : CopiesInside prog addr l := by
  intro p e _ he hres
  obtain ⟨a, ha, -, rfl⟩ := exists_of_meaning he
  exact absurd hres (hfresh a ha)

/-- A new mapping adds its pages. -/
theorem copiesInside_override {u size off rights flags : UInt32}
    (hden : Denotes l' (override (meaning l) u.toNat size.toNat
      (askedEntry u rights flags (elfResource cb addr) off.toUInt64)))
    (hfree : Free l u.toNat size.toNat) (hu : u.toNat % 4096 = 0) (hpos : 0 < size.toNat)
    (haligned : size.toNat % 4096 = 0) :
    CopiesInside prog addr l' ↔
      CopiesInside prog addr l ∧ off.toNat + size.toNat ≤ prog.size.toNat + 4096 := by
  have hshow : ∀ k, (askedEntry u rights flags (elfResource cb addr) off.toUInt64
      (u.toNat + 4096 * k)).offsetInResource = UInt64.ofNat (off.toNat + 4096 * k) := by
    intro k
    have hanon : hasFlag (elfResource cb addr).flags mappedResourceAnonymous = false :=
      (show hasFlag 0 mappedResourceAnonymous = false by decide)
    unfold askedEntry
    dsimp only
    rw [hanon, if_neg Bool.false_ne_true, toUInt64_eq, UInt64.ofNat_add, UInt64.ofNat_add]
    grind
  rw [← pages_inside_iff (word_lt off) (word_lt size) hpos haligned]
  constructor
  · intro h
    refine ⟨fun p e hp he hres => ?_, fun k hk => ?_⟩
    · -- The pages that were mapped are outside of the new ones.
      apply h p e hp _ hres
      rw [meaning_of_denotes hden hp, override, if_neg]
      · exact he
      · rintro ⟨h1, h2⟩
        unfold meaning at he
        rw [entriesAt_of_free hfree h1 h2] at he
        cases he
    · rw [← hshow k]
      have hp : (u.toNat + 4096 * k) % 4096 = 0 := by omega
      apply h (u.toNat + 4096 * k) _ hp _ rfl
      rw [meaning_of_denotes hden hp, override, if_pos ⟨by omega, by omega⟩]
  · rintro ⟨hold, hnew⟩ p e hp he hres
    rw [meaning_of_denotes hden hp, override] at he
    split_ifs at he with hin
    · have hk : p = u.toNat + 4096 * ((p - u.toNat) / 4096) := by omega
      rw [← Option.some.inj he, hk, hshow]
      apply hnew
      omega
    · exact hold p e hp he hres

/-! ## The loop over the program headers -/

theorem phdrReads_inside_iff (i : Nat) : (∀ x ∈ prog.phdrReads i, prog.Inside x) ↔
    prog.phdrPos i % 2 ^ 32 + 24 ≤ prog.size.toNat ∧
      ((prog.phdr i).pType = ptLoad → prog.phdrPos i % 2 ^ 32 + 28 ≤ prog.size.toNat) := by
  have hsize := prog.size_le
  have hword : ∀ pos, prog.Inside ⟨pos, 4⟩ ↔ pos % 2 ^ 32 + 4 ≤ prog.size.toNat :=
    fun pos => inside_iff (by decide) (by decide)
  unfold ElfProgram.phdrReads
  dsimp only
  by_cases hload : (prog.phdr i).pType = ptLoad
  · rw [if_neg (not_not.mpr hload)]
    simp only [List.forall_mem_cons, List.not_mem_nil, false_implies, implies_true, and_true, hword, hload,
      eq_self, true_implies]
    omega
  · rw [if_pos hload]
    simp only [List.forall_mem_cons, List.not_mem_nil, false_implies, implies_true, and_true, hword, hload]
    omega

variable (hcall : CallsElf E cb)

include hcall

theorem CallsElf.mmap_zero (addr : Nat) (a : UvmmArena) (w : W) :
    (E.mmap ((elfResource cb addr).mmap.getD 0) a w).1 = 0 := by
  show (E.mmap cb.mmap a w).1 = 0
  rw [hcall.mmap]

/-- What the loader has read and mapped so far is inside. -/
def LoadInside (prog : ElfProgram) (addr : Nat) (s : ElfLoad W) : Prop :=
  (∀ x ∈ s.reads, prog.Inside x) ∧ CopiesInside prog addr s.uvmm.addressSpace.listArena

theorem loadPhdr_inside {s : ElfLoad W} {i : Nat} (h : Inv s.uvmm)
    (hmaps : PhdrMaps E prog (elfResource cb addr) s i) :
    Inv (loadPhdr E prog (elfResource cb addr) s i).uvmm ∧
      (LoadInside prog addr (loadPhdr E prog (elfResource cb addr) s i) ↔
        LoadInside prog addr s ∧ PhdrInside E prog (elfResource cb addr) s i) := by
  have hreads : (∀ x ∈ s.reads ++ prog.phdrReads i, prog.Inside x) ↔
      (∀ x ∈ s.reads, prog.Inside x) ∧ prog.phdrPos i % 2 ^ 32 + 24 ≤ prog.size.toNat ∧
        ((prog.phdr i).pType = ptLoad → prog.phdrPos i % 2 ^ 32 + 28 ≤ prog.size.toNat) := by
    rw [List.forall_mem_append, phdrReads_inside_iff]
  unfold loadPhdr LoadInside PhdrInside
  dsimp only
  by_cases hload : (prog.phdr i).pType = ptLoad
  · rw [if_neg (not_not.mpr hload)]
    dsimp only
    rw [hreads]
    have hzero := hcall.mmap_zero addr
    by_cases hret : (mapSegment E (elfResource cb addr) s.uvmm (prog.phdr i)).1 = 0
    · have hret' : mapSegment E (elfResource cb addr) s.uvmm (prog.phdr i) =
          (0, (mapSegment E (elfResource cb addr) s.uvmm (prog.phdr i)).2) := Prod.ext hret rfl
      have hmapped := uvmmMap_override E h hzero (by decide) hret' (hmaps hload hret)
      have haligned := pageAlignSup_aligned (pageAlignSup (prog.phdr i).pFilesz)
      have hsup := pageAlignSup_of_aligned (pageAlignSup_aligned (prog.phdr i).pFilesz)
      rw [copiesInside_override hmapped.denotes hmapped.free hmapped.aligned hmapped.size_pos haligned, hsup]
      refine ⟨hmapped.inv, ?_⟩
      constructor
      · rintro ⟨⟨hr, h24, h28⟩, hcopies, hbound⟩
        exact ⟨⟨hr, hcopies⟩, h24, fun hl => ⟨h28 hl, fun _ => hbound⟩⟩
      · rintro ⟨⟨hr, hcopies⟩, h24, hrest⟩
        exact ⟨⟨hr, h24, fun hl => (hrest hl).1⟩, hcopies, (hrest hload).2 hret⟩
    · obtain ⟨-, has, hinv⟩ := uvmmMap_failed E h hzero (by decide) hret
      refine ⟨hinv, ?_⟩
      unfold mapSegment
      rw [has]
      constructor
      · rintro ⟨⟨hr, h24, h28⟩, hcopies⟩
        exact ⟨⟨hr, hcopies⟩, h24, fun hl => ⟨h28 hl, fun h0 => absurd h0 hret⟩⟩
      · rintro ⟨⟨hr, hcopies⟩, h24, hrest⟩
        exact ⟨⟨hr, h24, fun hl => (hrest hl).1⟩, hcopies⟩
  · rw [if_pos hload]
    refine ⟨h, ?_⟩
    rw [hreads]
    constructor
    · rintro ⟨⟨hr, h24, -⟩, hcopies⟩
      exact ⟨⟨hr, hcopies⟩, h24, fun hl => absurd hl hload⟩
    · rintro ⟨⟨hr, hcopies⟩, h24, -⟩
      exact ⟨⟨hr, h24, fun hl => absurd hl hload⟩, hcopies⟩

end

/-! ## The whole loader -/

section

variable {E : UvmmEnv W} {cb : ElfCallbacks} {prog : ElfProgram} {addr : Nat} {s : UvmmState W}

theorem runChecks_true (cs : List ElfCheck) :
    (runChecks prog cs).1 = true ↔ ∀ c ∈ cs, prog.field c.field = c.expected := by
  induction cs with
  | nil => simp [runChecks]
  | cons c cs ih =>
    unfold runChecks
    rw [List.forall_mem_cons]
    by_cases hc : prog.field c.field = c.expected
    · rw [if_neg (not_not.mpr hc), ih, and_iff_right hc]
    · rw [if_pos hc]
      exact iff_of_false Bool.false_ne_true fun h => hc h.1

/-- The checks read the fields up to the first that is wrong. -/
theorem runChecks_reads (P : Access → Prop) (cs : List ElfCheck) : (∀ x ∈ (runChecks prog cs).2, P x) ↔
    ∀ pre c post, cs = pre ++ c :: post → (∀ d ∈ pre, prog.field d.field = d.expected) → P c.field := by
  induction cs with
  | nil =>
    refine iff_of_true (fun x hx => absurd hx List.not_mem_nil) fun pre c post h => ?_
    exact absurd h.symm (List.append_ne_nil_of_right_ne_nil _ (List.cons_ne_nil _ _))
  | cons c cs ih =>
    have hcons : (∀ pre d post, c :: cs = pre ++ d :: post →
        (∀ e ∈ pre, prog.field e.field = e.expected) → P d.field) ↔
        P c.field ∧ (prog.field c.field = c.expected → ∀ pre d post, cs = pre ++ d :: post →
          (∀ e ∈ pre, prog.field e.field = e.expected) → P d.field) := by
      constructor
      · intro h
        refine ⟨h [] c cs rfl fun e he => absurd he List.not_mem_nil, fun hc pre d post heq hpre => ?_⟩
        exact h (c :: pre) d post (congrArg (c :: ·) heq) (List.forall_mem_cons.mpr ⟨hc, hpre⟩)
      · rintro ⟨hc, hrest⟩ pre d post heq hpre
        cases pre with
        | nil =>
          rw [← (List.cons.inj heq).1]
          exact hc
        | cons e pre =>
          obtain ⟨rfl, htail⟩ := List.cons.inj heq
          obtain ⟨he, hpre⟩ := List.forall_mem_cons.mp hpre
          exact hrest he pre d post htail hpre
    rw [hcons, ← ih]
    by_cases hc : prog.field c.field = c.expected
    · have heq : runChecks prog (c :: cs) = ((runChecks prog cs).1, c.field :: (runChecks prog cs).2) :=
        if_neg (not_not.mpr hc)
      rw [heq, List.forall_mem_cons]
      exact and_congr_right fun _ => ⟨fun h _ => h, fun h => h hc⟩
    · have heq : runChecks prog (c :: cs) = (false, [c.field]) := if_pos hc
      rw [heq, List.forall_mem_singleton]
      exact (and_iff_left fun h => absurd h hc).symm

theorem checks_inside_iff : (∀ x ∈ (runChecks prog elfChecks).2, prog.Inside x) ↔
    ∀ pre c post, elfChecks = pre ++ c :: post → (∀ d ∈ pre, prog.field d.field = d.expected) →
      c.field.pos + c.field.len ≤ prog.size.toNat := by
  have hfields : ∀ c ∈ elfChecks, 0 < c.field.len ∧ c.field.len < 4096 ∧ c.field.pos < 2 ^ 32 := by decide
  rw [runChecks_reads]
  refine forall_congr' fun pre => forall_congr' fun c => forall_congr' fun post => forall_congr' fun heq =>
    imp_congr_right fun _ => ?_
  obtain ⟨hpos, hlt, hword⟩ := hfields c (heq ▸ List.mem_append_right _ List.mem_cons_self)
  rw [show c.field = ⟨c.field.pos, c.field.len⟩ from rfl, inside_iff hpos hlt, Nat.mod_eq_of_lt hword]

/-- The rest of the header is read up to `e_phnum`. -/
theorem header_inside_iff : (prog.Inside ePhoff ∧ prog.Inside ePhnum ∧ prog.Inside eEntry) ↔
    ePhnum.pos + ePhnum.len ≤ prog.size.toNat := by
  have hphoff : prog.Inside ePhoff ↔ 28 % 2 ^ 32 + 4 ≤ prog.size.toNat := inside_iff (by decide) (by decide)
  have hphnum : prog.Inside ePhnum ↔ 44 % 2 ^ 32 + 2 ≤ prog.size.toNat := inside_iff (by decide) (by decide)
  have hentry : prog.Inside eEntry ↔ 24 % 2 ^ 32 + 4 ≤ prog.size.toNat := inside_iff (by decide) (by decide)
  rw [hphoff, hphnum, hentry]
  show _ ↔ 44 + 2 ≤ prog.size.toNat
  omega

theorem binfmtElf32Map_unchecked (h : ¬ prog.Checked) :
    binfmtElf32Map E cb prog (some addr) s = (0, ⟨s, (runChecks prog elfChecks).2, 0⟩) := by
  have hchecks : (!(runChecks prog elfChecks).1) = true := by
    rw [Bool.not_eq_true', ← Bool.not_eq_true]
    exact fun htrue => h ((runChecks_true elfChecks).mp htrue)
  unfold binfmtElf32Map
  exact if_pos hchecks

theorem binfmtElf32Map_checked (h : prog.Checked) : binfmtElf32Map E cb prog (some addr) s =
    (let r := run (loadPhdr E prog (elfResource cb addr)) (elfStart prog s) (List.range prog.phnum)
    (UInt32.ofNat (prog.field eEntry),
      { r with uvmm := uvmmInitHeap r.uvmm r.top, reads := r.reads ++ [eEntry] })) := by
  have hchecks : ¬ (!(runChecks prog elfChecks).1) = true := by
    rw [Bool.not_eq_true', (runChecks_true elfChecks).mpr h]
    exact Bool.noConfusion
  unfold binfmtElf32Map
  exact if_neg hchecks

/-- **The loader stays inside of the file**, where the segments it maps are mapped as asked, exactly if the fields
it reads and the pages it maps lie there. -/
theorem elf_malformed_iff (E : UvmmEnv W) (cb : ElfCallbacks) (hcall : CallsElf E cb) (prog : ElfProgram) (addr : Nat)
    (s : UvmmState W) (h : Inv s) (hfresh : ∀ a ∈ s.addressSpace.listArena, a.mappedResource.addr ≠ addr)
    (hmaps : Guarded (loadPhdr E prog (elfResource cb addr)) (PhdrMaps E prog (elfResource cb addr))
      (elfStart prog s) (List.range prog.phnum)) :
    ElfSafe E cb prog addr s ↔ FieldsInside E prog (elfResource cb addr) s := by
  by_cases hchecked : prog.Checked
  · have heq := @binfmtElf32Map_checked W E cb prog addr s hchecked
    obtain ⟨r, hr⟩ : ∃ r, r = run (loadPhdr E prog (elfResource cb addr)) (elfStart prog s)
      (List.range prog.phnum) := ⟨_, rfl⟩
    rw [← hr] at heq
    have hinv : Inv r.uvmm := by
      rw [hr]
      exact @invariant_run _ _ _ _ (fun t => Inv t.uvmm) (fun t i ht hi => (loadPhdr_inside hcall ht hi).1) _
        (elfStart prog s) h hmaps
    have hrun : LoadInside prog addr r ↔ LoadInside prog addr (elfStart prog s) ∧
        Guarded (loadPhdr E prog (elfResource cb addr)) (PhdrInside E prog (elfResource cb addr))
          (elfStart prog s) (List.range prog.phnum) := by
      rw [hr]
      exact @run_iff_guarded _ _ _ _ _ (fun t => Inv t.uvmm) _ (fun t i ht hi => (loadPhdr_inside hcall ht hi).1)
        (fun t i ht hi => (loadPhdr_inside hcall ht hi).2) _ (elfStart prog s) h hmaps
    have hstart : LoadInside prog addr (elfStart prog s) ↔ (∀ x ∈ (runChecks prog elfChecks).2, prog.Inside x) ∧
        prog.Inside ePhoff ∧ prog.Inside ePhnum := by
      unfold LoadInside elfStart
      rw [and_iff_left (copiesInside_of_fresh hfresh), List.forall_mem_append, List.forall_mem_cons,
        List.forall_mem_singleton]
    have hsafe : ElfSafe E cb prog addr s ↔ LoadInside prog addr r ∧ prog.Inside eEntry := by
      have hreads : (∀ x ∈ r.reads ++ [eEntry], prog.Inside x) ↔ (∀ x ∈ r.reads, prog.Inside x) ∧ prog.Inside eEntry := by
        rw [List.forall_mem_append, List.forall_mem_singleton]
      constructor
      · rintro ⟨hr', hcopies⟩
        rw [heq] at hr' hcopies
        exact ⟨⟨(hreads.mp hr').1, (copies_iff hinv.wellFormed).mp hcopies⟩, (hreads.mp hr').2⟩
      · rintro ⟨⟨hr', hcopies⟩, hentry⟩
        refine ⟨?_, ?_⟩
        · rw [heq]
          exact hreads.mpr ⟨hr', hentry⟩
        · rw [heq]
          exact (copies_iff hinv.wellFormed).mpr hcopies
    rw [hsafe, hrun, hstart, checks_inside_iff]
    constructor
    · rintro ⟨⟨⟨hchecks, hphoff, hphnum⟩, hphdrs⟩, hentry⟩
      exact ⟨hchecks, fun _ => header_inside_iff.mp ⟨hphoff, hphnum, hentry⟩, fun _ => hphdrs⟩
    · rintro ⟨hchecks, hheader, hphdrs⟩
      obtain ⟨hphoff, hphnum, hentry⟩ := header_inside_iff.mpr (hheader hchecked)
      exact ⟨⟨⟨hchecks, hphoff, hphnum⟩, hphdrs hchecked⟩, hentry⟩
  · have heq := @binfmtElf32Map_unchecked W E cb prog addr s hchecked
    constructor
    · rintro ⟨hreads, -⟩
      rw [heq] at hreads
      exact ⟨checks_inside_iff.mp hreads, fun hc => absurd hc hchecked, fun hc => absurd hc hchecked⟩
    · rintro ⟨hchecks, -, -⟩
      refine ⟨?_, fun a ha hres => ?_⟩
      · rw [heq]
        exact checks_inside_iff.mpr hchecks
      · rw [heq] at ha
        exact absurd hres (hfresh a ha)

end

/-! ## A program of one segment -/

/-- A file of 84 bytes: the header and one segment for all of it at `0x40000000`; `p_offset` is 256 times
`offset`. -/
def elfFile (offset : UInt8) : ElfProgram where
  mem := fun n => ([(0, 0x7f), (1, 0x45), (2, 0x4c), (3, 0x46), (4, 1), (5, 1), (16, 2), (20, 1), (27, 0x40), (28, 52),
    (44, 1), (52, 1), (57, offset), (63, 0x40), (68, 84), (72, 84), (76, 7)].lookup n).getD 0
  size := 84
  inKernel := by decide

def emptyFile : ElfProgram where
  mem := fun _ => 0
  size := 0
  inKernel := by decide

theorem quietEnv_callsElf : CallsElf quietEnv ⟨7, 1⟩ := ⟨fun _ _ => rfl⟩

/-- The loader reads behind the end of an empty file, and copies more than a page for a segment that starts behind
the end of the file. -/
theorem elf_reads_and_copies_outside :
    ¬ ElfSafe quietEnv ⟨7, 1⟩ emptyFile 2 (uvmmCreateEmptyAs ()) ∧
      ¬ ElfSafe quietEnv ⟨7, 1⟩ (elfFile 0x20) 2 (uvmmCreateEmptyAs ()) := by
  constructor
  · intro h
    have hread := h.reads ⟨0, 1⟩ (by decide) 0 (by decide)
    exact absurd hread (by decide)
  · intro h
    have hcopy := (h.copies ⟨0, 0x40000000, 0x1000, 7, 0, some 1, elfResource ⟨7, 1⟩ 2, 0x2000⟩ (by decide +kernel) rfl
      0x40000000 ⟨by decide, by decide⟩).1
    exact absurd hcopy (by decide +kernel)

theorem elfFile_phdr : (elfFile 0).phdr 0 = ⟨1, 0, 0x40000000, 84, 84, 7⟩ := by decide +kernel

theorem elf_one_segment_safe : ElfSafe quietEnv ⟨7, 1⟩ (elfFile 0) 2 (uvmmCreateEmptyAs ()) := by
  have hnum : List.range (elfFile 0).phnum = [0] := by decide
  refine (elf_malformed_iff quietEnv ⟨7, 1⟩ quietEnv_callsElf (elfFile 0) 2 (uvmmCreateEmptyAs ())
    (inv_uvmmCreateEmptyAs ()) (fun a ha => absurd ha List.not_mem_nil) ?_).mpr ⟨?_, fun _ => by decide, fun _ => ?_⟩
  · rw [hnum]
    refine ⟨fun _ _ => ?_, trivial⟩
    rw [elfFile_phdr]
    refine ⟨0x40000000, ?_, by decide, fun hc => ?_⟩
    · rw [MapsAt, if_neg (by decide)]
      exact findable_hint fun a ha => absurd ha List.not_mem_nil
    · cases hc.1
  · intro pre c post heq _
    have hall : ∀ c ∈ elfChecks, c.field.pos + c.field.len ≤ 84 := by decide
    exact hall c (heq ▸ List.mem_append_right _ List.mem_cons_self)
  · rw [hnum]
    refine ⟨⟨by decide, fun _ => ⟨by decide, fun _ => ?_⟩⟩, trivial⟩
    rw [elfFile_phdr]
    decide

end Desiros.Exec
