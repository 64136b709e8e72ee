import Desiros.Exec.ElfBounds
import Desiros.Mem.PageFault

/-!
# The image of a program

`binfmt_elf32_map` is meant to build the image a well-formed file describes: every page fault in a segment brings
in the bytes of the file, and zeros behind them (`ElfImage`). It maps a segment only up to the end of its last page
of file, from the file, and `elf32prog_no_page` clears what is behind the end of the file from the fault address
on. `elf_image_iff` says which files get their image.
-/

namespace Desiros.Exec

open Desiros.Library Desiros.Mem

variable {W : Type}

/-! ## Well-formed programs and their images -/

def ElfProgram.Loads (prog : ElfProgram) (i : Nat) : Prop := (prog.phdr i).pType = ptLoad

instance (prog : ElfProgram) (i : Nat) : Decidable (prog.Loads i) := inferInstanceAs (Decidable (_ = _))

/-- The addresses `[p_vaddr, p_vaddr + p_memsz)`. -/
def Elf32Phdr.Covers (ph : Elf32Phdr) (v : Nat) : Prop :=
  ph.pVaddr.toNat ≤ v ∧ v < ph.pVaddr.toNat + ph.pMemsz.toNat

structure SegmentOk (prog : ElfProgram) (ph : Elf32Phdr) : Prop where
  aligned : ph.pVaddr.toNat % 4096 = 0
  user : userOffset.toNat ≤ ph.pVaddr.toNat
  top : ph.pVaddr.toNat + ph.pMemsz.toNat ≤ 2 ^ 32
  filesz : ph.pFilesz.toNat ≤ ph.pMemsz.toNat
  inFile : ph.pOffset.toNat + ph.pFilesz.toNat ≤ prog.size.toNat

structure WellFormedElf (prog : ElfProgram) : Prop where
  checked : prog.Checked
  segment : ∀ i < prog.phnum, prog.Loads i → SegmentOk prog (prog.phdr i)
  disjoint : ∀ i < prog.phnum, ∀ j < prog.phnum, prog.Loads i → prog.Loads j → i ≠ j →
    ∀ v, ¬ ((prog.phdr i).Covers v ∧ (prog.phdr j).Covers v)

section

variable (E : UvmmEnv W) (cb : ElfCallbacks) (prog : ElfProgram) (addr : Nat)

/-- The address lies in an arena of the program, and a fault anywhere in its page makes `elf32prog_no_page` leave
the byte there, whatever the new page and the memory around it hold. -/
def Delivers (as : UvmmAs) (v : Nat) (b : UInt8) : Prop :=
  ∃ a ∈ as.listArena, a.Contains v ∧ a.mappedResource.addr = addr ∧ a.ops = some cb.ops ∧
    ∀ uaddr : UInt32, uaddr.toNat / 4096 = v / 4096 →
      (∀ w writeAccess userAccess,
        (uvmmLazyLoading E ⟨some (some as), w⟩ uaddr writeAccess userAccess).noPageCall = some (a, uaddr)) ∧
      ∀ page user, page.ppagePaddr ≠ 0 →
        (elf32progNoPage prog a uaddr page user).1 = 0 ∧ (elf32progNoPage prog a uaddr page user).2 v = b

def SegmentImage (as : UvmmAs) (ph : Elf32Phdr) : Prop :=
  ∀ x < ph.pMemsz.toNat, Delivers E cb prog addr as (ph.pVaddr.toNat + x)
    (if x < ph.pFilesz.toNat then prog.mem (ph.pOffset.toNat + x) else 0)

/-- What the loader is meant to leave, the structure of the program being at `addr`. -/
structure ElfImage (s : UvmmState W) : Prop where
  entry : (binfmtElf32Map E cb prog (some addr) s).1 = UInt32.ofNat (prog.field eEntry)
  segments : ∀ i < prog.phnum, prog.Loads i →
    SegmentImage E cb prog addr (binfmtElf32Map E cb prog (some addr) s).2.uvmm.addressSpace (prog.phdr i)
  heap : ∀ i < prog.phnum, prog.Loads i → (prog.phdr i).pVaddr.toNat + (prog.phdr i).pMemsz.toNat ≤
    (binfmtElf32Map E cb prog (some addr) s).2.uvmm.addressSpace.heapStart.toNat

end

/-! ## When a program gets its image -/

/-- The last page of file is the last page of memory, and the bytes of the file behind the segment's are zeros up to
its end in memory. -/
def SegmentFits (prog : ElfProgram) (ph : Elf32Phdr) : Prop :=
  ph.pMemsz.toNat ≤ (pageAlignSup ph.pFilesz).toNat ∧
    ∀ x, ph.pFilesz.toNat ≤ x → x < ph.pMemsz.toNat →
      ph.pOffset.toNat + x < prog.size.toNat ∧ prog.mem (ph.pOffset.toNat + x) = 0

/-- There is memory for the arena of a segment that fits. -/
def SegmentBuilt (E : UvmmEnv W) (prog : ElfProgram) (s : ElfLoad W) (i : Nat) : Prop :=
  prog.Loads i → 0 < (prog.phdr i).pMemsz.toNat →
    (s.uvmm.allocArena E).1 = true ∧ SegmentFits prog (prog.phdr i)

/-- What a segment raises `prog_top_user_address` to, if it is mapped where it has bytes in the file. -/
def Elf32Phdr.heapEnd (ph : Elf32Phdr) : UInt32 :=
  (if ph.pFilesz = 0 then 0 else ph.pVaddr) + pageAlignSup ph.pFilesz + pageAlignSup ph.pMemsz

def HeapAbove (prog : ElfProgram) : Prop :=
  ∀ j < prog.phnum, prog.Loads j → ∃ i < prog.phnum, prog.Loads i ∧
    (prog.phdr j).pVaddr.toNat + (prog.phdr j).pMemsz.toNat ≤ (prog.phdr i).heapEnd.toNat

/-- The entries the pages of a segment are asked for. -/
def Elf32Phdr.entry (ph : Elf32Phdr) (mr : UvmmMappedResource) (p : Nat) : PageEntry :=
  askedEntry ph.pVaddr ph.protFlags 0 mr ph.pOffset.toUInt64 p

/-- The segment is not continued by the arena after it alone. -/
def SegmentApart (prog : ElfProgram) (mr : UvmmMappedResource) (s : ElfLoad W) (i : Nat) : Prop :=
  prog.Loads i → 0 < (prog.phdr i).pFilesz.toNat →
    ¬ ContinuesAfter (meaning s.uvmm.addressSpace.listArena) (prog.phdr i).pVaddr.toNat
      (pageAlignSup (prog.phdr i).pFilesz).toNat ((prog.phdr i).entry mr)

/-! ## A page fault in the program -/

theorem uvmmLazyLoading_noPageCall (E : UvmmEnv W) (as : UvmmAs) (w : W) (uaddr : UInt32)
    (writeAccess userAccess : Bool) :
    (uvmmLazyLoading E ⟨some (some as), w⟩ uaddr writeAccess userAccess).noPageCall =
      (as.listArena.find? (·.reaches uaddr)).map (·, uaddr) := by
  rw [← findFirstIntersectingArena_eq as.listArena uaddr 1]
  unfold uvmmLazyLoading
  cases h : findFirstIntersectingArena as.listArena uaddr 1 with
  | none => simp only [h, Option.map_none]
  | some a =>
    simp only [h, Option.map_some]
    split_ifs <;> rfl

theorem find_of_contains {l : List UvmmArena} (hwf : WellFormed l) {a : UvmmArena} (ha : a ∈ l) {uaddr : UInt32}
    (hc : a.Contains uaddr.toNat) : l.find? (·.reaches uaddr) = some a := by
  rw [List.find?_eq_some_iff_append]
  obtain ⟨l₁, l₂, rfl⟩ := List.append_of_mem ha
  refine ⟨((hwf.arenas a ha).reaches_iff uaddr).mpr hc.2, l₁, l₂, rfl, fun b hb => ?_⟩
  have hb' : b ∈ l₁ ++ a :: l₂ := List.mem_append_left _ hb
  have hle : b.hi ≤ a.lo := (Sorted.append.mp hwf.sorted).2.2 b hb a List.mem_cons_self
  rw [Bool.not_eq_true', ← Bool.not_eq_true, (hwf.arenas b hb').reaches_iff]
  have := hc.1
  omega

theorem sizeToCopy_inside {prog : ElfProgram} {offset : UInt64} (h : offset.toNat ≤ prog.size.toNat) :
    (sizeToCopy prog offset).toNat = min 4096 (prog.size.toNat - offset.toNat) := by
  have hsize := prog.size_le
  have h4096 : (4096 : UInt64).toNat = 4096 := rfl
  have hcmp : offset + 4096 > prog.size.toUInt64 ↔ prog.size.toNat < offset.toNat + 4096 := by
    rw [gt_iff_lt, UInt64.lt_iff_toNat_lt, UInt32.toNat_toUInt64, UInt64.toNat_add, h4096]
    omega
  unfold sizeToCopy
  by_cases hend : prog.size.toNat < offset.toNat + 4096
  · rw [if_pos (hcmp.mpr hend), UInt64.toNat_toUInt32, UInt64.toNat_sub, UInt32.toNat_toUInt64]
    omega
  · have hpage : (4096 : UInt32).toNat = 4096 := rfl
    rw [if_neg fun hlt => hend (hcmp.mp hlt), hpage]
    omega

theorem fillBytes_of_mem {m f : Bytes} {pos len v : Nat} (h : pos ≤ v ∧ v < pos + len) :
    fillBytes m pos len f v = f (v - pos) := if_pos h

theorem fillBytes_of_not_mem {m f : Bytes} {pos len v : Nat} (h : ¬ (pos ≤ v ∧ v < pos + len)) :
    fillBytes m pos len f v = m v := if_neg h

/-- What a fault at `uaddr` leaves at an address of the page, for a page that starts inside of the file. -/
theorem elf32progNoPage_byte {prog : ElfProgram} {a : UvmmArena} {uaddr : UInt32} {page : NewPage} {user : Bytes}
    {v offset : Nat} (hpage : page.ppagePaddr ≠ 0) (hv : uaddr.toNat / 4096 = v / 4096)
    (hoff : (offsetInProg a uaddr).toNat = offset) (hin : offset < prog.size.toNat) :
    (elf32progNoPage prog a uaddr page user).1 = 0 ∧ (elf32progNoPage prog a uaddr page user).2 v =
      if offset + v % 4096 < prog.size.toNat then prog.mem (offset + v % 4096)
      else if uaddr.toNat + (prog.size.toNat - offset) ≤ v then 0 else page.contents (v % 4096) := by
  have hsize := prog.size_le
  have hupage := toNat_pageAlignInf uaddr
  have hlen : (elfCopy prog a uaddr).len = min 4096 (prog.size.toNat - offset) := by
    rw [← hoff] at hin ⊢
    rw [← sizeToCopy_inside hin.le]
    unfold elfCopy
    dsimp only
  have hpos : (elfCopy prog a uaddr).pos = offset := by
    rw [← hoff]
    unfold elfCopy
    dsimp only
  have hmod : v - (pageAlignInf uaddr).toNat = v % 4096 := by omega
  unfold elf32progNoPage
  dsimp only
  rw [if_neg hpage, hlen, hpos]
  by_cases hend : offset + v % 4096 < prog.size.toNat
  · rw [if_pos hend]
    have hbyte : prog.byte (offset + v % 4096) = prog.mem (offset + v % 4096) := by
      unfold ElfProgram.byte
      rw [Nat.mod_eq_of_lt (by omega)]
    split_ifs with hshort
    · refine ⟨rfl, ?_⟩
      dsimp only
      rw [fillBytes_of_not_mem (by omega), fillBytes_of_mem (by omega), hmod, hbyte]
    · refine ⟨rfl, ?_⟩
      dsimp only
      rw [fillBytes_of_mem (by omega), hmod, hbyte]
  · rw [if_neg hend, if_pos (by omega)]
    refine ⟨rfl, ?_⟩
    dsimp only
    by_cases hclear : uaddr.toNat + (prog.size.toNat - offset) ≤ v
    · rw [fillBytes_of_mem (by omega), if_pos hclear]
    · rw [fillBytes_of_not_mem (by omega), fillBytes_of_not_mem (by omega), fillBytes_of_mem (by omega),
        if_neg hclear, hmod]

/-- Arenas are made of whole pages. -/
theorem contains_page_iff {a : UvmmArena} (hok : a.Ok) {v v' : Nat} (h : v / 4096 = v' / 4096) :
    a.Contains v ↔ a.Contains v' := by
  have hlo := hok.start_aligned
  have hhi := hok.hi_aligned
  unfold UvmmArena.Contains
  omega

section

variable {E : UvmmEnv W} {cb : ElfCallbacks} {prog : ElfProgram} {addr : Nat} {as : UvmmAs}

/-- The callbacks of the program are set in its arenas. -/
def ProgramOps (cb : ElfCallbacks) (addr : Nat) (l : List UvmmArena) : Prop :=
  ∀ a ∈ l, a.mappedResource.addr = addr → a.ops = some cb.ops

theorem not_delivers {v : Nat} {b : UInt8} (hwf : WellFormed as.listArena)
    (h : meaning as.listArena (v / 4096 * 4096) = none) : ¬ Delivers E cb prog addr as v b := by
  rintro ⟨a, ha, hc, -⟩
  have hpage : a.Contains (v / 4096 * 4096) := (contains_page_iff (hwf.arenas a ha) (by omega)).mp hc
  rw [hwf.meaning_of_mem ha hpage] at h
  cases h

/-- In a page that is mapped at an offset inside of the file, exactly the bytes of the file are delivered: what lies
behind its end is left over from the new page, where the fault is there. -/
theorem delivers_iff {v offset : Nat} {b : UInt8} {e : PageEntry} (hwf : WellFormed as.listArena)
    (hops : ProgramOps cb addr as.listArena) (hv : v < 2 ^ 32)
    (he : meaning as.listArena (v / 4096 * 4096) = some e) (hres : e.resource = addr)
    (hoff : e.offsetInResource.toNat = offset) (hin : offset < prog.size.toNat) :
    Delivers E cb prog addr as v b ↔
      offset + v % 4096 < prog.size.toNat ∧ prog.mem (offset + v % 4096) = b := by
  obtain ⟨a, ha, hc, hentry⟩ := exists_of_meaning he
  have hok := hwf.arenas a ha
  have hres' : a.mappedResource.addr = addr := by
    rw [← hres, ← hentry]
    rfl
  have hfault : ∀ uaddr : UInt32, uaddr.toNat / 4096 = v / 4096 →
      a.Contains uaddr.toNat ∧ (offsetInProg a uaddr).toNat = offset := by
    intro uaddr hu
    have hcu : a.Contains uaddr.toNat := (contains_page_iff hok (by omega)).mp hc
    refine ⟨hcu, ?_⟩
    rw [(offsetInProg_eq hok hcu).2, toNat_pageAlignInf, hu, hentry, hoff]
  have hcall : ∀ (uaddr : UInt32) (w : W) (writeAccess userAccess : Bool), a.Contains uaddr.toNat →
      (uvmmLazyLoading E ⟨some (some as), w⟩ uaddr writeAccess userAccess).noPageCall = some (a, uaddr) := by
    intro uaddr w writeAccess userAccess hcu
    rw [uvmmLazyLoading_noPageCall, find_of_contains hwf ha hcu]
    rfl
  have hnat : (UInt32.ofNat v).toNat = v := UInt32.toNat_ofNat_of_lt' hv
  have hcv : a.Contains v := (contains_page_iff hok (by omega)).mp hc
  constructor
  · rintro ⟨a', ha', hc', -, -, h⟩
    obtain rfl : a' = a := by
      rw [← hnat] at hc' hcv
      have hfirst := find_of_contains hwf ha' hc'
      rw [find_of_contains hwf ha hcv] at hfirst
      exact (Option.some.inj hfirst).symm
    -- A fault at the address itself, on a page that held anything else there.
    have hpage : (⟨1, fun _ => b + 1⟩ : NewPage).ppagePaddr ≠ 0 := show (1 : UInt32) ≠ 0 by decide
    have hbyte := ((h (UInt32.ofNat v) (by rw [hnat])).2 ⟨1, fun _ => b + 1⟩ (fun _ => 0) hpage).2
    rw [(elf32progNoPage_byte hpage (by rw [hnat]) (hfault _ (by rw [hnat])).2 hin).2, hnat] at hbyte
    split_ifs at hbyte with hend hclear
    · exact ⟨hend, hbyte⟩
    · omega
    · exact absurd hbyte (by grind)
  · rintro ⟨hend, hbyte⟩
    refine ⟨a, ha, hcv, hres', hops a ha hres', fun uaddr hu => ?_⟩
    obtain ⟨hcu, hoffset⟩ := hfault uaddr hu
    refine ⟨fun w writeAccess userAccess => hcall uaddr w writeAccess userAccess hcu, fun page user hpage => ?_⟩
    obtain ⟨hzero, hleft⟩ := @elf32progNoPage_byte prog a uaddr page user v offset hpage hu hoffset hin
    rw [if_pos hend, hbyte] at hleft
    exact ⟨hzero, hleft⟩

/-! ## The image of one segment -/

variable {ph : Elf32Phdr}

theorem entry_offset {p : Nat} (hlo : ph.pVaddr.toNat ≤ p) (hhi : p < 2 ^ 32) :
    (ph.entry (elfResource cb addr) p).offsetInResource.toNat = ph.pOffset.toNat + (p - ph.pVaddr.toNat) := by
  have hoff := word_lt ph.pOffset
  have hsplit : UInt64.ofNat p = UInt64.ofNat (p - ph.pVaddr.toNat) + UInt64.ofNat ph.pVaddr.toNat := by
    rw [← UInt64.ofNat_add, Nat.sub_add_cancel hlo]
  have heq : (ph.entry (elfResource cb addr) p).offsetInResource =
      ph.pOffset.toUInt64 + UInt64.ofNat (p - ph.pVaddr.toNat) := by
    have hflag : hasFlag (elfResource cb addr).flags mappedResourceAnonymous = false :=
      show hasFlag 0 mappedResourceAnonymous = false by decide
    unfold Elf32Phdr.entry askedEntry
    dsimp only
    rw [hflag, if_neg Bool.false_ne_true, hsplit]
    grind
  have h64 : UInt64.size = 18446744073709551616 := rfl
  rw [heq, UInt64.toNat_add, UInt32.toNat_toUInt64, UInt64.toNat_ofNat_of_lt' (by omega)]
  omega

/-- The pages of the segment show what they were asked for up to the last page of file. -/
def Shown (mr : UvmmMappedResource) (ph : Elf32Phdr) (l : List UvmmArena) : Prop :=
  ∀ p, p % 4096 = 0 → ph.Covers p → meaning l p =
    if p < ph.pVaddr.toNat + (pageAlignSup ph.pFilesz).toNat then some (ph.entry mr p) else none

def Unmapped (ph : Elf32Phdr) (l : List UvmmArena) : Prop := ∀ p, p % 4096 = 0 → ph.Covers p → meaning l p = none

section

variable (hok : SegmentOk prog ph) (hwf : WellFormed as.listArena) (hops : ProgramOps cb addr as.listArena)

include hok

theorem SegmentOk.toNat_filesz : (pageAlignSup ph.pFilesz).toNat = (ph.pFilesz.toNat + 4095) / 4096 * 4096 := by
  have huser : 1073741824 ≤ ph.pVaddr.toNat := hok.user
  have htop := hok.top
  have hfilesz := hok.filesz
  rw [toNat_pageAlignSup]
  omega

include hwf

theorem not_segmentImage (hpos : 0 < ph.pMemsz.toNat) (h : Unmapped ph as.listArena) :
    ¬ SegmentImage E cb prog addr as ph := by
  intro himage
  have haligned := hok.aligned
  have hpage : (ph.pVaddr.toNat + 0) / 4096 * 4096 = ph.pVaddr.toNat := by omega
  refine not_delivers hwf ?_ (himage 0 hpos)
  rw [hpage]
  exact h _ haligned ⟨Nat.le_refl _, by omega⟩

include hops

/-- Up to the last page of file, a fault delivers what follows in the file. -/
theorem shown_delivers_iff (h : Shown (elfResource cb addr) ph as.listArena) {x : Nat} {b : UInt8}
    (hx : x < ph.pMemsz.toNat) (hfile : x < (pageAlignSup ph.pFilesz).toNat) :
    Delivers E cb prog addr as (ph.pVaddr.toNat + x) b ↔
      ph.pOffset.toNat + x < prog.size.toNat ∧ prog.mem (ph.pOffset.toNat + x) = b := by
  have haligned := hok.aligned
  have htop := hok.top
  have hin := hok.inFile
  have hsup := hok.toNat_filesz
  have hpage : (ph.pVaddr.toNat + x) / 4096 * 4096 = ph.pVaddr.toNat + x / 4096 * 4096 := by omega
  have hmod : (ph.pVaddr.toNat + x) % 4096 = x % 4096 := by omega
  have hsum : ph.pOffset.toNat + x / 4096 * 4096 + x % 4096 = ph.pOffset.toNat + x := by omega
  have hmeaning : meaning as.listArena ((ph.pVaddr.toNat + x) / 4096 * 4096) =
      some (ph.entry (elfResource cb addr) (ph.pVaddr.toNat + x / 4096 * 4096)) := by
    rw [hpage, h _ (by omega) ⟨by omega, by omega⟩, if_pos (by omega)]
  have hoffset : (ph.entry (elfResource cb addr) (ph.pVaddr.toNat + x / 4096 * 4096)).offsetInResource.toNat =
      ph.pOffset.toNat + x / 4096 * 4096 := by
    rw [entry_offset (by omega) (by omega)]
    omega
  rw [delivers_iff hwf hops (by omega) hmeaning rfl hoffset (by omega), hmod, hsum]

theorem segmentImage_iff (h : Shown (elfResource cb addr) ph as.listArena) :
    SegmentImage E cb prog addr as ph ↔ SegmentFits prog ph := by
  have haligned := hok.aligned
  have hsup := hok.toNat_filesz
  have hin := hok.inFile
  have hfilesz := hok.filesz
  constructor
  · intro himage
    have hfit : ph.pMemsz.toNat ≤ (pageAlignSup ph.pFilesz).toNat := by
      by_contra hlt
      -- The page behind the last page of file is in no arena.
      have hpage : (ph.pVaddr.toNat + (pageAlignSup ph.pFilesz).toNat) / 4096 * 4096 =
          ph.pVaddr.toNat + (pageAlignSup ph.pFilesz).toNat := by omega
      refine not_delivers hwf ?_ (himage (pageAlignSup ph.pFilesz).toNat (by omega))
      rw [hpage, h _ (by omega) ⟨by omega, by omega⟩, if_neg (by omega)]
    refine ⟨hfit, fun x hlo hhi => ?_⟩
    have hzero := himage x hhi
    rw [if_neg (by omega), shown_delivers_iff hok hwf hops h hhi (by omega)] at hzero
    exact hzero
  · rintro ⟨hfit, hzero⟩ x hx
    rw [shown_delivers_iff hok hwf hops h hx (by omega)]
    split_ifs with hfile
    · exact ⟨by omega, rfl⟩
    · exact hzero x (by omega) hx

end

end

/-! ## Loading one segment -/

/-- The state of the loader between two program headers. -/
structure LoadInv (cb : ElfCallbacks) (addr : Nat) (t : ElfLoad W) : Prop where
  inv : Inv t.uvmm
  ops : ProgramOps cb addr t.uvmm.addressSpace.listArena

section

variable {E : UvmmEnv W} {cb : ElfCallbacks} {prog : ElfProgram} {addr : Nat} {ph : Elf32Phdr} {s : UvmmState W}

theorem mapSegment_check (hok : SegmentOk prog ph) (hpos : 0 < ph.pFilesz.toNat) :
    uvmmMapCheck ph.pVaddr (pageAlignSup ph.pFilesz) ph.protFlags 0 (some (elfResource cb addr))
      ph.pOffset.toUInt64 = .ok (elfResource cb addr) := by
  have hsup := hok.toNat_filesz
  have halign := pageAlignSup_of_aligned (pageAlignSup_aligned ph.pFilesz)
  have hoff := word_lt ph.pOffset
  have hsize := word_lt (pageAlignSup ph.pFilesz)
  have haligned : isPageAligned ph.pVaddr = true := (isAligned_iff _).mpr hok.aligned
  have hnone : (elfResource cb addr).mmap.isNone = false := rfl
  have hshared : hasFlag 0 arenaMapShared = false := by decide
  have hflag : hasFlag (elfResource cb addr).flags mappedResourceAnonymous = false :=
    show hasFlag 0 mappedResourceAnonymous = false by decide
  have hempty : ¬ pageAlignSup ph.pFilesz ≤ 0 := by
    have h0 : (0 : UInt32).toNat = 0 := rfl
    rw [word_le_iff, h0]
    omega
  have hover : ¬ ph.pOffset.toUInt64 + (pageAlignSup ph.pFilesz).toUInt64 ≤ ph.pOffset.toUInt64 := by
    rw [UInt64.le_iff_toNat_le, UInt64.toNat_add, UInt32.toNat_toUInt64, UInt32.toNat_toUInt64]
    omega
  simp [uvmmMapCheck, hnone, haligned, hshared, hflag, hempty, halign, hover]

/-- With memory for the arena, a segment whose pages are in no arena is mapped where it asks for. -/
theorem mapSegment_mapped (hcall : CallsElf E cb) (h : Inv s) (hok : SegmentOk prog ph)
    (hfree : Unmapped ph s.addressSpace.listArena) (hpos : 0 < ph.pFilesz.toNat) (halloc : (s.allocArena E).1 = true)
    (hapart : ¬ ContinuesAfter (meaning s.addressSpace.listArena) ph.pVaddr.toNat (pageAlignSup ph.pFilesz).toNat
      (ph.entry (elfResource cb addr))) :
    (mapSegment E (elfResource cb addr) s ph).2.1 = ph.pVaddr ∧
      MappedAt s (mapSegment E (elfResource cb addr) s ph).2.2 ph.pVaddr (pageAlignSup ph.pFilesz)
        (ph.entry (elfResource cb addr)) := by
  have hsup := hok.toNat_filesz
  have haligned := hok.aligned
  have huser : 1073741824 ≤ ph.pVaddr.toNat := hok.user
  have htop := hok.top
  have hfilesz := hok.filesz
  have halign := pageAlignSup_of_aligned (pageAlignSup_aligned ph.pFilesz)
  have hplace : Free s.addressSpace.listArena ph.pVaddr.toNat (pageAlignSup (pageAlignSup ph.pFilesz)).toNat := by
    intro a ha
    by_contra hin
    rw [halign] at hin
    have haok := h.wellFormed.arenas a ha
    have hlo := haok.start_aligned
    have hlt := haok.lo_lt_hi
    -- The first page they share.
    have hpage : (max a.lo ph.pVaddr.toNat) % 4096 = 0 := by omega
    have hnone := hfree _ hpage ⟨by omega, by omega⟩
    rw [h.wellFormed.meaning_of_mem ha ⟨by omega, by omega⟩] at hnone
    cases hnone
  obtain ⟨hzero, huaddr, hat⟩ := uvmmMap_at_hint E h (hcall.mmap_zero addr) (by decide)
    (mapSegment_check hok hpos) halloc (by rw [halign]; omega) huser (by rw [halign]; omega) hplace
  refine ⟨huaddr, ?_⟩
  have hret : mapSegment E (elfResource cb addr) s ph =
      (0, ph.pVaddr, (mapSegment E (elfResource cb addr) s ph).2.2) := Prod.ext hzero (Prod.ext huaddr rfl)
  have hrefines : MapRefines s.addressSpace.listArena ph.pVaddr (pageAlignSup ph.pFilesz) ph.protFlags 0
      (elfResource cb addr) ph.pOffset.toUInt64 := by
    refine ⟨ph.pVaddr, hat, fun _ hmremap => absurd hmremap (by decide), ?_⟩
    rw [halign]
    exact hapart
  have hmapped := uvmmMap_override E h (hcall.mmap_zero addr) (by decide) hret hrefines
  rw [halign] at hmapped
  exact hmapped

/-- A segment without bytes in the file is not mapped, and none is without memory for the arena. -/
theorem mapSegment_failed (hcall : CallsElf E cb) (h : Inv s)
    (hfail : ¬ (0 < ph.pFilesz.toNat ∧ (s.allocArena E).1 = true)) :
    (mapSegment E (elfResource cb addr) s ph).2.1 = 0 ∧
      (mapSegment E (elfResource cb addr) s ph).2.2.addressSpace = s.addressSpace ∧
      Inv (mapSegment E (elfResource cb addr) s ph).2.2 := by
  apply uvmmMap_failed E h (hcall.mmap_zero addr) (by decide)
  rcases uvmmMap_cases E s ph.pVaddr (pageAlignSup ph.pFilesz) ph.protFlags 0 (some (elfResource cb addr))
    ph.pOffset.toUInt64 with ⟨hne, -⟩ | ⟨res, -, halloc, ⟨hfixed, -⟩ | ⟨-, hne, -⟩⟩
  · exact hne
  · exact absurd hfixed (by decide)
  · have hzero : (pageAlignSup (pageAlignSup ph.pFilesz)).toNat = 0 := by
      have hempty : ph.pFilesz.toNat = 0 := by
        by_contra hpos
        exact hfail ⟨Nat.pos_of_ne_zero hpos, halloc⟩
      rw [pageAlignSup_of_aligned (pageAlignSup_aligned ph.pFilesz), toNat_pageAlignSup, hempty]
    exact absurd (findFirstFreeInterval_zero _ _ hzero) hne

theorem mapSegment_ops (hcall : CallsElf E cb) (h : Inv s) (hops : ProgramOps cb addr s.addressSpace.listArena) :
    ProgramOps cb addr (mapSegment E (elfResource cb addr) s ph).2.2.addressSpace.listArena := by
  intro a ha hres
  rcases @uvmmMap_hint_cases W E s ph.pVaddr (pageAlignSup ph.pFilesz) ph.protFlags 0 (elfResource cb addr)
    ph.pOffset.toUInt64 (hcall.mmap_zero addr) (by decide) with ⟨-, -, has⟩ | ⟨-, uaddr, hr⟩
  · unfold mapSegment at ha
    rw [has] at ha
    exact hops a ha hres
  · unfold mapSegment at ha
    rw [hr] at ha
    have hfresh : ∀ b ∈ (s.allocArena E).2.addressSpace.listArena, b.id ≠ s.nextId := by
      intro b hb
      exact Nat.ne_of_lt (h.distinct.lt b hb)
    rcases uvmmMapInsert_ops E (s.allocArena E).2 (hcall.mmap_zero addr) hfresh ha with
      ⟨b, hb, hresource, heq⟩ | ⟨-, b, w, heq⟩
    · rw [hresource] at hres
      rw [heq]
      exact hops b hb hres
    · have hmmap : (E.mmap cb.mmap b w).2.1 = some cb.ops := by rw [hcall.mmap]
      exact heq.trans hmmap

end

/-! ## The loop over the program headers -/

/-- What is known of a segment before it is loaded. -/
structure SegmentReady (prog : ElfProgram) (mr : UvmmMappedResource) (s : ElfLoad W) (i : Nat) : Prop where
  ok : SegmentOk prog (prog.phdr i)
  unmapped : Unmapped (prog.phdr i) s.uvmm.addressSpace.listArena
  apart : SegmentApart prog mr s i

/-- No address belongs to two segments. -/
def SegmentsDisjoint (prog : ElfProgram) (i j : Nat) : Prop :=
  prog.Loads i → prog.Loads j → ∀ v, ¬ ((prog.phdr i).Covers v ∧ (prog.phdr j).Covers v)

section

variable {E : UvmmEnv W} {cb : ElfCallbacks} {prog : ElfProgram} {addr : Nat} {s : ElfLoad W} {i : Nat}

theorem loadPhdr_skips (mr : UvmmMappedResource) (h : ¬ prog.Loads i) :
    (loadPhdr E prog mr s i).uvmm = s.uvmm ∧ (loadPhdr E prog mr s i).top = s.top := by
  have heq : loadPhdr E prog mr s i = { s with reads := s.reads ++ prog.phdrReads i } := if_pos h
  rw [heq]
  exact ⟨rfl, rfl⟩

theorem loadPhdr_loads (mr : UvmmMappedResource) (h : prog.Loads i) :
    (loadPhdr E prog mr s i).uvmm = (mapSegment E mr s.uvmm (prog.phdr i)).2.2 ∧
      (loadPhdr E prog mr s i).top = raiseTop s.top (mapSegment E mr s.uvmm (prog.phdr i)).2.1 (prog.phdr i) := by
  have hnot : ¬ (prog.phdr i).pType ≠ ptLoad := not_not.mpr h
  unfold loadPhdr
  dsimp only
  rw [if_neg hnot]
  dsimp only
  exact ⟨rfl, rfl⟩

theorem le_raiseTop_iff {top uaddr : UInt32} {ph : Elf32Phdr} {n : Nat} : n ≤ (raiseTop top uaddr ph).toNat ↔
    n ≤ top.toNat ∨ n ≤ (uaddr + pageAlignSup ph.pFilesz + pageAlignSup ph.pMemsz).toNat := by
  unfold raiseTop
  dsimp only
  split_ifs with hlt
  · rw [word_lt_iff] at hlt
    omega
  · rw [word_lt_iff] at hlt
    omega

section

variable (hcall : CallsElf E cb) (h : LoadInv cb addr s)
  (hready : prog.Loads i → SegmentReady prog (elfResource cb addr) s i)

include hcall h hready

/-- A segment is mapped as asked, or not at all. -/
theorem loadPhdr_cases (hload : prog.Loads i) :
    (0 < (prog.phdr i).pFilesz.toNat ∧ (s.uvmm.allocArena E).1 = true ∧
      (mapSegment E (elfResource cb addr) s.uvmm (prog.phdr i)).2.1 = (prog.phdr i).pVaddr ∧
      MappedAt s.uvmm (mapSegment E (elfResource cb addr) s.uvmm (prog.phdr i)).2.2 (prog.phdr i).pVaddr
        (pageAlignSup (prog.phdr i).pFilesz) ((prog.phdr i).entry (elfResource cb addr))) ∨
    (¬ (0 < (prog.phdr i).pFilesz.toNat ∧ (s.uvmm.allocArena E).1 = true) ∧
      (mapSegment E (elfResource cb addr) s.uvmm (prog.phdr i)).2.1 = 0 ∧
      (mapSegment E (elfResource cb addr) s.uvmm (prog.phdr i)).2.2.addressSpace = s.uvmm.addressSpace ∧
      Inv (mapSegment E (elfResource cb addr) s.uvmm (prog.phdr i)).2.2) := by
  have hr := hready hload
  by_cases hmaps : 0 < (prog.phdr i).pFilesz.toNat ∧ (s.uvmm.allocArena E).1 = true
  · exact Or.inl ⟨hmaps.1, hmaps.2,
      mapSegment_mapped hcall h.inv hr.ok hr.unmapped hmaps.1 hmaps.2 (hr.apart hload hmaps.1)⟩
  · exact Or.inr ⟨hmaps, mapSegment_failed hcall h.inv hmaps⟩

theorem loadPhdr_inv : LoadInv cb addr (loadPhdr E prog (elfResource cb addr) s i) := by
  by_cases hload : prog.Loads i
  · have hinv : Inv (mapSegment E (elfResource cb addr) s.uvmm (prog.phdr i)).2.2 := by
      rcases loadPhdr_cases hcall h hready hload with ⟨-, -, -, hmapped⟩ | ⟨-, -, -, hinv⟩
      · exact hmapped.inv
      · exact hinv
    have hops := @mapSegment_ops W E cb addr (prog.phdr i) s.uvmm hcall h.inv h.ops
    rw [← (loadPhdr_loads (elfResource cb addr) hload).1] at hinv hops
    exact ⟨hinv, hops⟩
  · have heq := (@loadPhdr_skips W E prog s i (elfResource cb addr) hload).1
    refine ⟨?_, ?_⟩
    · rw [heq]
      exact h.inv
    · rw [heq]
      exact h.ops

/-- The pages of other segments stay as they are. -/
theorem loadPhdr_frame {p : Nat} (hp : p % 4096 = 0) (hout : prog.Loads i → ¬ (prog.phdr i).Covers p) :
    meaning (loadPhdr E prog (elfResource cb addr) s i).uvmm.addressSpace.listArena p =
      meaning s.uvmm.addressSpace.listArena p := by
  by_cases hload : prog.Loads i
  · rw [(loadPhdr_loads (elfResource cb addr) hload).1]
    rcases loadPhdr_cases hcall h hready hload with ⟨-, -, -, hmapped⟩ | ⟨-, -, has, -⟩
    · have hok := (hready hload).ok
      have haligned := hok.aligned
      have hsup := hok.toNat_filesz
      have hfilesz := hok.filesz
      have hnot := hout hload
      unfold Elf32Phdr.Covers at hnot
      rw [meaning_of_denotes hmapped.denotes hp, override, if_neg (by omega)]
    · rw [has]
  · rw [(loadPhdr_skips (elfResource cb addr) hload).1]

/-- The image of a segment in an address space whose pages there are as the loader left them. -/
theorem loadPhdr_image (hload : prog.Loads i) {as : UvmmAs} (hwf : WellFormed as.listArena)
    (hops : ProgramOps cb addr as.listArena)
    (hagree : ∀ p, p % 4096 = 0 → (prog.phdr i).Covers p → meaning as.listArena p =
      meaning (loadPhdr E prog (elfResource cb addr) s i).uvmm.addressSpace.listArena p) :
    SegmentImage E cb prog addr as (prog.phdr i) ↔ SegmentBuilt E prog s i := by
  have hr := hready hload
  by_cases hpos : 0 < (prog.phdr i).pMemsz.toNat
  · unfold SegmentBuilt
    rw [(loadPhdr_loads (elfResource cb addr) hload).1] at hagree
    rcases loadPhdr_cases hcall h hready hload with ⟨-, halloc, -, hmapped⟩ | ⟨hfail, -, has, -⟩
    · have hshown : Shown (elfResource cb addr) (prog.phdr i) as.listArena := by
        intro p hp hcovers
        rw [hagree p hp hcovers, meaning_of_denotes hmapped.denotes hp, override, hr.unmapped p hp hcovers]
        simp only [hcovers.1, true_and]
      rw [segmentImage_iff hr.ok hwf hops hshown]
      constructor
      · intro hfits _ _
        exact ⟨halloc, hfits⟩
      · intro hbuilt
        exact (hbuilt hload hpos).2
    · have hunmapped : Unmapped (prog.phdr i) as.listArena := by
        intro p hp hcovers
        rw [hagree p hp hcovers, has]
        exact hr.unmapped p hp hcovers
      refine iff_of_false (not_segmentImage hr.ok hwf hpos hunmapped) fun hbuilt => ?_
      obtain ⟨halloc, hfits, -⟩ := hbuilt hload hpos
      have hsup := hr.ok.toNat_filesz
      exact hfail ⟨by omega, halloc⟩
  · exact iff_of_true (fun x hx => absurd hx (by omega)) fun _ h0 => absurd h0 hpos

theorem loadPhdr_top (hbuilt : SegmentBuilt E prog s i) {n : Nat} :
    n ≤ (loadPhdr E prog (elfResource cb addr) s i).top.toNat ↔
      n ≤ s.top.toNat ∨ prog.Loads i ∧ n ≤ (prog.phdr i).heapEnd.toNat := by
  by_cases hload : prog.Loads i
  · have hfilesz := (hready hload).ok.filesz
    have hzero : (prog.phdr i).pFilesz = 0 ↔ (prog.phdr i).pFilesz.toNat = 0 := word_eq_iff
    have huaddr : (mapSegment E (elfResource cb addr) s.uvmm (prog.phdr i)).2.1 =
        if (prog.phdr i).pFilesz = 0 then 0 else (prog.phdr i).pVaddr := by
      rcases loadPhdr_cases hcall h hready hload with ⟨hpos, -, huaddr, -⟩ | ⟨hfail, huaddr, -⟩
      · rw [huaddr, if_neg fun h0 => Nat.ne_of_gt hpos (hzero.mp h0)]
      · rw [huaddr, if_pos]
        by_contra hne
        have hpos := Nat.pos_of_ne_zero (mt hzero.mpr hne)
        exact hfail ⟨hpos, (hbuilt hload (by omega)).1⟩
    rw [(loadPhdr_loads (elfResource cb addr) hload).2, le_raiseTop_iff, huaddr, and_iff_right hload]
    rfl
  · rw [(loadPhdr_skips (elfResource cb addr) hload).2]
    exact (or_iff_left fun hin => hload hin.1).symm

end

variable (hcall : CallsElf E cb) {is : List Nat}

include hcall

/-- Segments that do not overlap stay ready. -/
theorem guarded_ready (h : LoadInv cb addr s) (hok : ∀ i ∈ is, prog.Loads i → SegmentOk prog (prog.phdr i))
    (hunmapped : ∀ i ∈ is, prog.Loads i → Unmapped (prog.phdr i) s.uvmm.addressSpace.listArena)
    (hdisjoint : is.Pairwise (SegmentsDisjoint prog))
    (hapart : Guarded (loadPhdr E prog (elfResource cb addr)) (SegmentApart prog (elfResource cb addr)) s is) :
    Guarded (loadPhdr E prog (elfResource cb addr))
      (fun s i => prog.Loads i → SegmentReady prog (elfResource cb addr) s i) s is := by
  induction is generalizing s with
  | nil => trivial
  | cons i is ih =>
    rw [List.forall_mem_cons] at hok hunmapped
    obtain ⟨hhead, htail⟩ := List.pairwise_cons.mp hdisjoint
    have hready : prog.Loads i → SegmentReady prog (elfResource cb addr) s i :=
      fun hload => ⟨hok.1 hload, hunmapped.1 hload, hapart.1⟩
    refine ⟨hready, ih (loadPhdr_inv hcall h hready) hok.2 (fun j hj hload p hp hcovers => ?_) htail hapart.2⟩
    rw [loadPhdr_frame hcall h hready hp fun hi hc => hhead j hj hi hload p ⟨hc, hcovers⟩]
    exact hunmapped.2 j hj hload p hp hcovers

/-- Segments in ascending order are never continued by what is loaded before them. -/
theorem guarded_apart_of_ascending (h : LoadInv cb addr s)
    (hok : ∀ i ∈ is, prog.Loads i → SegmentOk prog (prog.phdr i))
    (hunmapped : ∀ i ∈ is, prog.Loads i → Unmapped (prog.phdr i) s.uvmm.addressSpace.listArena)
    (hascending : is.Pairwise fun i j => prog.Loads i → prog.Loads j →
      (prog.phdr i).pVaddr.toNat + (prog.phdr i).pMemsz.toNat ≤ (prog.phdr j).pVaddr.toNat)
    (hbelow : ∀ p e, p % 4096 = 0 → meaning s.uvmm.addressSpace.listArena p = some e → e.resource = addr →
      ∀ i ∈ is, prog.Loads i → p < (prog.phdr i).pVaddr.toNat) :
    Guarded (loadPhdr E prog (elfResource cb addr)) (SegmentApart prog (elfResource cb addr)) s is := by
  induction is generalizing s with
  | nil => trivial
  | cons i is ih =>
    rw [List.forall_mem_cons] at hok hunmapped
    obtain ⟨hhead, htail⟩ := List.pairwise_cons.mp hascending
    have hapart : SegmentApart prog (elfResource cb addr) s i := by
      intro hload _ hcont
      have haligned := (hok.1 hload).aligned
      have hsup := (hok.1 hload).toNat_filesz
      have := hbelow _ _ (by omega) hcont.1 rfl i List.mem_cons_self hload
      omega
    have hready : prog.Loads i → SegmentReady prog (elfResource cb addr) s i :=
      fun hload => ⟨hok.1 hload, hunmapped.1 hload, hapart⟩
    refine ⟨hapart, ih (loadPhdr_inv hcall h hready) hok.2 (fun j hj hload p hp hcovers => ?_) htail
      fun p e hp he hres j hj hload => ?_⟩
    · rw [loadPhdr_frame hcall h hready hp fun hi hc => ?_]
      · exact hunmapped.2 j hj hload p hp hcovers
      · have := hhead j hj hi hload
        have := hcovers.1
        have := hc.2
        omega
    · by_cases hin : prog.Loads i ∧ (prog.phdr i).Covers p
      · have := hhead j hj hin.1 hload
        have := hin.2.2
        omega
      · rw [loadPhdr_frame hcall h hready hp fun hi hc => hin ⟨hi, hc⟩] at he
        exact hbelow p e hp he hres j (List.mem_cons_of_mem _ hj) hload

variable (h : LoadInv cb addr s)
  (hready : Guarded (loadPhdr E prog (elfResource cb addr))
    (fun s i => prog.Loads i → SegmentReady prog (elfResource cb addr) s i) s is)

include h hready

theorem run_inv : LoadInv cb addr (run (loadPhdr E prog (elfResource cb addr)) s is) :=
  invariant_run (fun _ _ h hready => loadPhdr_inv hcall h hready) is s h hready

theorem run_frame {p : Nat} (hp : p % 4096 = 0) (hout : ∀ i ∈ is, prog.Loads i → ¬ (prog.phdr i).Covers p) :
    meaning (run (loadPhdr E prog (elfResource cb addr)) s is).uvmm.addressSpace.listArena p =
      meaning s.uvmm.addressSpace.listArena p := by
  induction is generalizing s with
  | nil => rfl
  | cons i is ih =>
    rw [List.forall_mem_cons] at hout
    rw [run_cons, ih (loadPhdr_inv hcall h hready.1) hready.2 hout.2, loadPhdr_frame hcall h hready.1 hp hout.1]

theorem run_image (hdisjoint : is.Pairwise (SegmentsDisjoint prog)) {as : UvmmAs}
    (has : as.listArena = (run (loadPhdr E prog (elfResource cb addr)) s is).uvmm.addressSpace.listArena) :
    (∀ i ∈ is, prog.Loads i → SegmentImage E cb prog addr as (prog.phdr i)) ↔
      Guarded (loadPhdr E prog (elfResource cb addr)) (SegmentBuilt E prog) s is := by
  have hinv := run_inv hcall h hready
  induction is generalizing s with
  | nil => exact iff_of_true (fun i hi => absurd hi List.not_mem_nil) trivial
  | cons i is ih =>
    obtain ⟨hhead, htail⟩ := List.pairwise_cons.mp hdisjoint
    have hnext := loadPhdr_inv hcall h hready.1
    have hbehind : (∀ i ∈ is, prog.Loads i → SegmentImage E cb prog addr as (prog.phdr i)) ↔ _ :=
      ih hnext hready.2 htail has hinv
    rw [List.forall_mem_cons, hbehind, guarded_cons]
    refine and_congr_left fun _ => ?_
    -- The segments behind leave the pages of this one alone.
    by_cases hload : prog.Loads i
    · rw [forall_prop_of_true hload]
      apply loadPhdr_image hcall h hready.1 hload (has ▸ hinv.inv.wellFormed) (has ▸ hinv.ops)
      intro p hp hcovers
      rw [has, run_cons]
      exact run_frame hcall hnext hready.2 hp fun j hj hloadj hc => hhead j hj hload hloadj p ⟨hcovers, hc⟩
    · exact iff_of_true (fun hl => absurd hl hload) fun hl => absurd hl hload

theorem run_top (hbuilt : Guarded (loadPhdr E prog (elfResource cb addr)) (SegmentBuilt E prog) s is) {n : Nat} :
    n ≤ (run (loadPhdr E prog (elfResource cb addr)) s is).top.toNat ↔
      n ≤ s.top.toNat ∨ ∃ i ∈ is, prog.Loads i ∧ n ≤ (prog.phdr i).heapEnd.toNat := by
  induction is generalizing s with
  | nil => simp
  | cons i is ih =>
    rw [run_cons, ih (loadPhdr_inv hcall h hready.1) hready.2 hbuilt.2, loadPhdr_top hcall h hready.1 hbuilt.1,
      or_assoc, List.exists_mem_cons_iff]

end

/-! ## The whole loader -/

section

variable {E : UvmmEnv W} {cb : ElfCallbacks} {prog : ElfProgram} {addr : Nat} {s : UvmmState W}

theorem WellFormedElf.pairwise (hwf : WellFormedElf prog) :
    (List.range prog.phnum).Pairwise (SegmentsDisjoint prog) := by
  refine List.pairwise_lt_range.imp_of_mem fun {i j} hi hj hlt hloadi hloadj v => ?_
  exact hwf.disjoint i (List.mem_range.mp hi) j (List.mem_range.mp hj) hloadi hloadj (Nat.ne_of_lt hlt) v

/-- **The image of a program is built** exactly if each of its segments with bytes in memory finds memory for its
arena and fits, and the heap is put above all of them. -/
theorem elf_image_iff (E : UvmmEnv W) (cb : ElfCallbacks) (hcall : CallsElf E cb) (prog : ElfProgram) (addr : Nat)
    (s : UvmmState W) (hwf : WellFormedElf prog) (h : Inv s)
    (hfresh : ∀ a ∈ s.addressSpace.listArena, a.mappedResource.addr ≠ addr)
    (hfree : ∀ i < prog.phnum, prog.Loads i → ∀ v, (prog.phdr i).Covers v →
      ∀ a ∈ s.addressSpace.listArena, ¬ a.Contains v)
    (hapart : Guarded (loadPhdr E prog (elfResource cb addr)) (SegmentApart prog (elfResource cb addr))
      (elfStart prog s) (List.range prog.phnum)) :
    ElfImage E cb prog addr s ↔ Guarded (loadPhdr E prog (elfResource cb addr)) (SegmentBuilt E prog)
      (elfStart prog s) (List.range prog.phnum) ∧ HeapAbove prog := by
  have hinv : LoadInv cb addr (elfStart prog s) := ⟨h, fun a ha hres => absurd hres (hfresh a ha)⟩
  have hready := guarded_ready hcall hinv (fun i hi => hwf.segment i (List.mem_range.mp hi))
    (fun i hi hload p _ hcovers => by
      have hnone := entriesAt_eq_nil fun a ha => hfree i (List.mem_range.mp hi) hload p hcovers a ha
      show meaning s.addressSpace.listArena p = none
      rw [meaning, hnone]
      rfl) hwf.pairwise hapart
  obtain ⟨r, hr⟩ : ∃ r, r = run (loadPhdr E prog (elfResource cb addr)) (elfStart prog s)
    (List.range prog.phnum) := ⟨_, rfl⟩
  have heq := @binfmtElf32Map_checked W E cb prog addr s hwf.checked
  rw [← hr] at heq
  have hsegments := @run_image W E cb prog addr (elfStart prog s) hcall _ hinv hready hwf.pairwise
    (uvmmInitHeap r.uvmm r.top).addressSpace (by rw [← hr]; rfl)
  have hheap : Guarded (loadPhdr E prog (elfResource cb addr)) (SegmentBuilt E prog) (elfStart prog s)
      (List.range prog.phnum) → ((∀ i < prog.phnum, prog.Loads i →
        (prog.phdr i).pVaddr.toNat + (prog.phdr i).pMemsz.toNat ≤ r.top.toNat) ↔ HeapAbove prog) := by
    intro hbuilt
    refine forall_congr' fun j => imp_congr_ctx Iff.rfl fun hj => imp_congr_ctx Iff.rfl fun hload => ?_
    have huser : 1073741824 ≤ (prog.phdr j).pVaddr.toNat := (hwf.segment j hj hload).user
    have hzero : (elfStart prog s).top.toNat = 0 := rfl
    rw [hr, run_top hcall hinv hready hbuilt, or_iff_right (by rw [hzero]; omega)]
    simp only [List.mem_range]
  constructor
  · rintro ⟨-, hsegs, hheaps⟩
    rw [heq] at hsegs hheaps
    have hbuilt := hsegments.mp fun i hi => hsegs i (List.mem_range.mp hi)
    exact ⟨hbuilt, (hheap hbuilt).mp hheaps⟩
  · rintro ⟨hbuilt, habove⟩
    refine ⟨?_, ?_, ?_⟩
    · rw [heq]
    · rw [heq]
      exact fun i hi => hsegments.mpr hbuilt i (List.mem_range.mpr hi)
    · rw [heq]
      exact (hheap hbuilt).mpr habove

end

/-! ## A program with and one without uninitialised data -/

/-- A file of 84 bytes, whose segment has a second page in memory. -/
theorem bssFile_inKernel : (84 : UInt32).toNat ≤ userOffset.toNat := by decide

def bssFile : ElfProgram where
  mem := fun n => ([(0, 0x7f), (1, 0x45), (2, 0x4c), (3, 0x46), (4, 1), (5, 1), (16, 2), (20, 1), (27, 0x40), (28, 52),
    (44, 1), (52, 1), (63, 0x40), (68, 84), (73, 0x20), (76, 7)].lookup n).getD 0
  size := 84
  inKernel := bssFile_inKernel

theorem wellFormedElf_one {prog : ElfProgram} (hchecked : prog.Checked) (hnum : prog.phnum = 1)
    (hok : SegmentOk prog (prog.phdr 0)) : WellFormedElf prog := by
  refine ⟨hchecked, fun i hi _ => ?_, fun i hi j hj _ _ hne => ?_⟩
  · obtain rfl : i = 0 := by omega
    exact hok
  · omega

theorem bssFile_phdr : bssFile.phdr 0 = ⟨1, 0, 0x40000000, 84, 0x2000, 7⟩ := by decide +kernel

/-- The second page of the segment is in no arena. -/
theorem elf_bss_not_mapped : WellFormedElf bssFile ∧ CallsElf quietEnv ⟨7, 1⟩ ∧
    ¬ ElfImage quietEnv ⟨7, 1⟩ bssFile 2 (uvmmCreateEmptyAs ()) := by
  refine ⟨wellFormedElf_one (by decide) (by decide) ?_, quietEnv_callsElf, fun h => ?_⟩
  · rw [bssFile_phdr]
    exact ⟨by decide, by decide, by decide, by decide, by decide⟩
  · have himage := h.segments 0 (by decide) (by decide +kernel)
    rw [bssFile_phdr] at himage
    obtain ⟨a, ha, hc, -⟩ := himage 0x1000 (by decide)
    have harenas : (binfmtElf32Map quietEnv ⟨7, 1⟩ bssFile (some 2)
        (uvmmCreateEmptyAs ())).2.uvmm.addressSpace.listArena =
        [⟨0, 0x40000000, 0x1000, 7, 0, some 1, elfResource ⟨7, 1⟩ 2, 0⟩] := by decide +kernel
    rw [harenas, List.mem_singleton] at ha
    rw [ha] at hc
    exact absurd hc (by decide)

theorem elf_one_segment_image : ElfImage quietEnv ⟨7, 1⟩ (elfFile 0) 2 (uvmmCreateEmptyAs ()) := by
  have hnum : List.range (elfFile 0).phnum = [0] := by decide
  have hwf : WellFormedElf (elfFile 0) := by
    apply wellFormedElf_one (by decide) (by decide)
    rw [elfFile_phdr]
    exact ⟨by decide, by decide, by decide, by decide, by decide⟩
  have hok : ∀ i ∈ List.range (elfFile 0).phnum, (elfFile 0).Loads i → SegmentOk (elfFile 0) ((elfFile 0).phdr i) :=
    fun i hi => hwf.segment i (List.mem_range.mp hi)
  refine (elf_image_iff quietEnv ⟨7, 1⟩ quietEnv_callsElf (elfFile 0) 2 (uvmmCreateEmptyAs ()) hwf
    (inv_uvmmCreateEmptyAs ()) (fun a ha => absurd ha List.not_mem_nil)
    (fun i _ _ v _ a ha => absurd ha List.not_mem_nil) ?_).mpr ⟨?_, ?_⟩
  · refine guarded_apart_of_ascending quietEnv_callsElf
      ⟨inv_uvmmCreateEmptyAs (), fun a ha => absurd ha List.not_mem_nil⟩ hok (fun _ _ _ _ _ _ => rfl) ?_
      fun p e _ he => ?_
    · rw [hnum]
      exact List.pairwise_singleton _ _
    · cases he
  · rw [hnum]
    refine ⟨fun _ _ => ⟨rfl, ?_⟩, trivial⟩
    rw [elfFile_phdr]
    exact ⟨by decide, fun x hlo hhi => absurd hhi (Nat.not_lt.mpr hlo)⟩
  · intro j hj _
    obtain rfl : j = 0 := by
      have hone : (elfFile 0).phnum = 1 := by decide
      omega
    refine ⟨0, hj, by decide +kernel, ?_⟩
    rw [elfFile_phdr]
    decide

end Desiros.Exec
