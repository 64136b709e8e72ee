import Desiros.Library.Bytes
import Desiros.Library.Runs
import Desiros.Mem.MapAtHint

/-!
# The ELF loader (`elf32.c`)

`binfmtElf32Map` maps a program that was read into a block of kernel memory, `elf32progNoPage` brings in a page of
it. Positions count from the start of the block; as pointers are 32-bit words, a position and its remainder by
`2 ^ 32` are the same byte. The loader records what it reads of the block.
-/

namespace Desiros.Exec

open Desiros.Library Desiros.Mem

/-- The program in memory: the block of `prog_size` bytes, in the kernel's part of the address space, and the
bytes from its start on. -/
structure ElfProgram where
  mem : Bytes
  size : UInt32
  inKernel : size.toNat ≤ userOffset.toNat

/-- Addresses of `elf32prog_mmap` and `elf32prog_ops`. -/
structure ElfCallbacks where
  mmap : Nat
  ops : Nat

def ptLoad : UInt32 := 1

/-- The byte at a position. -/
def ElfProgram.byte (prog : ElfProgram) (pos : Nat) : UInt8 := prog.mem (pos % 2 ^ 32)

/-- An access of `len` bytes. -/
structure Access where
  pos : Nat
  len : Nat
deriving DecidableEq, Repr

/-- The accessed bytes are bytes of the block. -/
def ElfProgram.Inside (prog : ElfProgram) (x : Access) : Prop :=
  ∀ i < x.len, (x.pos + i) % 2 ^ 32 < prog.size.toNat

/-! ## The headers -/

/-- `ELF_CHECK(hdr, field, expected)`. -/
structure ElfCheck where
  field : Access
  expected : Nat

/-- The checks of the header in the order of the source, from `e_ident[EI_MAG0]` to `e_version`. -/
def elfChecks : List ElfCheck :=
  [⟨⟨0, 1⟩, 0x7f⟩, ⟨⟨1, 1⟩, 0x45⟩, ⟨⟨2, 1⟩, 0x4c⟩, ⟨⟨3, 1⟩, 0x46⟩, ⟨⟨4, 1⟩, 1⟩, ⟨⟨5, 1⟩, 1⟩, ⟨⟨16, 2⟩, 2⟩,
    ⟨⟨20, 4⟩, 1⟩]

def eEntry : Access := ⟨24, 4⟩
def ePhoff : Access := ⟨28, 4⟩
def ePhnum : Access := ⟨44, 2⟩

structure Elf32Phdr where
  pType : UInt32
  pOffset : UInt32
  pVaddr : UInt32
  pFilesz : UInt32
  pMemsz : UInt32
  pFlags : UInt32
deriving DecidableEq, Repr

section

variable (prog : ElfProgram)

/-- The value of a field. -/
def ElfProgram.field (x : Access) : Nat := leWord prog.byte x.pos x.len

/-- The checks up to the first one that fails: whether all hold, and what they read. -/
def runChecks : List ElfCheck → Bool × List Access
  | [] => (true, [])
  | c :: cs =>
    if prog.field c.field ≠ c.expected then (false, [c.field])
    else ((runChecks cs).1, c.field :: (runChecks cs).2)

def ElfProgram.phnum : Nat := prog.field ePhnum

/-- `&elf_phdrs[i]` -/
def ElfProgram.phdrPos (i : Nat) : Nat := prog.field ePhoff + 32 * i

def ElfProgram.phdr (i : Nat) : Elf32Phdr where
  pType := UInt32.ofNat (prog.field ⟨prog.phdrPos i, 4⟩)
  pOffset := UInt32.ofNat (prog.field ⟨prog.phdrPos i + 4, 4⟩)
  pVaddr := UInt32.ofNat (prog.field ⟨prog.phdrPos i + 8, 4⟩)
  pFilesz := UInt32.ofNat (prog.field ⟨prog.phdrPos i + 16, 4⟩)
  pMemsz := UInt32.ofNat (prog.field ⟨prog.phdrPos i + 20, 4⟩)
  pFlags := UInt32.ofNat (prog.field ⟨prog.phdrPos i + 24, 4⟩)

/-- Reads of `p_type`, and of `p_memsz` where the segment is skipped, else of `p_vaddr`, `p_flags`, `p_filesz`,
`p_offset` and `p_memsz`. -/
def ElfProgram.phdrReads (i : Nat) : List Access :=
  let p := prog.phdrPos i
  if (prog.phdr i).pType ≠ ptLoad then [⟨p, 4⟩, ⟨p + 20, 4⟩]
  else [⟨p, 4⟩, ⟨p + 8, 4⟩, ⟨p + 24, 4⟩, ⟨p + 16, 4⟩, ⟨p + 4, 4⟩, ⟨p + 20, 4⟩]

end

/-- `prot_flags`. -/
def Elf32Phdr.protFlags (ph : Elf32Phdr) : UInt32 :=
  (if hasFlag ph.pFlags pRead then pRead else 0) ||| (if hasFlag ph.pFlags pWrite then pWrite else 0) |||
    (if hasFlag ph.pFlags pUser then pUser else 0)

/-! ## Loading -/

variable {W : Type}

/-- `mapped_prog->mr`, with the structure at address `addr`. -/
def elfResource (cb : ElfCallbacks) (addr : Nat) : UvmmMappedResource where
  addr := addr
  allowedAccessRights := pRead ||| pWrite ||| pUser
  flags := 0
  mmap := some cb.mmap

structure ElfLoad (W : Type) where
  uvmm : UvmmState W
  reads : List Access
  /-- `prog_top_user_address` -/
  top : UInt32

/-- `uvmm_map` for a segment. -/
def mapSegment (E : UvmmEnv W) (mr : UvmmMappedResource) (s : UvmmState W) (ph : Elf32Phdr) :
    Int × UInt32 × UvmmState W :=
  uvmmMap E s ph.pVaddr (pageAlignSup ph.pFilesz) ph.protFlags 0 (some mr) ph.pOffset.toUInt64

/-- The end of the loop body: `uaddr` is what `uvmm_map` left there. -/
def raiseTop (top uaddr : UInt32) (ph : Elf32Phdr) : UInt32 :=
  let uaddr := uaddr + pageAlignSup ph.pFilesz
  if top < uaddr + pageAlignSup ph.pMemsz then uaddr + pageAlignSup ph.pMemsz else top

/-- The body of the loop over the program headers. -/
def loadPhdr (E : UvmmEnv W) (prog : ElfProgram) (mr : UvmmMappedResource) (s : ElfLoad W) (i : Nat) : ElfLoad W :=
  let s := { s with reads := s.reads ++ prog.phdrReads i }
  if (prog.phdr i).pType ≠ ptLoad then s
  else
    let r := mapSegment E mr s.uvmm (prog.phdr i)
    { s with uvmm := r.2.2, top := raiseTop s.top r.2.1 (prog.phdr i) }

def uvmmInitHeap (s : UvmmState W) (heapStart : UInt32) : UvmmState W := s.setHeap heapStart 0

/-- Behind the checks of the header. -/
def loadSegments (E : UvmmEnv W) (prog : ElfProgram) (mr : UvmmMappedResource) (s : ElfLoad W) : UInt32 × ElfLoad W :=
  let s := run (loadPhdr E prog mr) { s with reads := s.reads ++ [ePhoff, ePhnum] } (List.range prog.phnum)
  (UInt32.ofNat (prog.field eEntry),
    { s with
      uvmm := uvmmInitHeap s.uvmm s.top
      reads := s.reads ++ [eEntry] })

/-- `binfmt_elf32_map` behind `sys_read`; `mappedProg` is the structure `kmalloc` gives it, if any. -/
def binfmtElf32Map (E : UvmmEnv W) (cb : ElfCallbacks) (prog : ElfProgram) (mappedProg : Option Nat)
    (s : UvmmState W) : UInt32 × ElfLoad W :=
  match mappedProg with
  | none => (0 - 3, ⟨s, [], 0⟩)
  | some addr =>
    let checks := runChecks prog elfChecks
    if !checks.1 then (0, ⟨s, checks.2, 0⟩)
    else loadSegments E prog (elfResource cb addr) ⟨s, checks.2, 0⟩

/-- What `elf32prog_mmap` does, where `mmap` callbacks are dispatched by their addresses. -/
structure CallsElf (E : UvmmEnv W) (cb : ElfCallbacks) : Prop where
  mmap : ∀ arena w, E.mmap cb.mmap arena w = (0, some cb.ops, w)

/-! ## Page faults -/

/-- `offset_in_prog` -/
def offsetInProg (arena : UvmmArena) (uaddr : UInt32) : UInt64 :=
  (pageAlignInf uaddr - arena.start).toUInt64 + arena.offsetInResource

/-- `size_to_copy` -/
def sizeToCopy (prog : ElfProgram) (offset : UInt64) : UInt32 :=
  if offset + 4096 > prog.size.toUInt64 then (prog.size.toUInt64 - offset).toUInt32 else 4096

/-- What the `memcpy` reads of the block. -/
def elfCopy (prog : ElfProgram) (arena : UvmmArena) (uaddr : UInt32) : Access :=
  ⟨(offsetInProg arena uaddr).toNat, (sizeToCopy prog (offsetInProg arena uaddr)).toNat⟩

/-- `physmem_ref_physpage_new(false)`: a page, 0 if there is none, and what it holds. -/
structure NewPage where
  ppagePaddr : UInt32
  contents : Bytes

/-- Bytes `[pos, pos + len)` of a memory replaced. -/
def fillBytes (m : Bytes) (pos len : Nat) (f : Bytes) : Bytes :=
  fun v => if pos ≤ v ∧ v < pos + len then f (v - pos) else m v

/-- The result and the user's memory, where `paging_map` maps the page. -/
def elf32progNoPage (prog : ElfProgram) (arena : UvmmArena) (uaddr : UInt32) (page : NewPage) (user : Bytes) :
    Int × Bytes :=
  if page.ppagePaddr = 0 then (-3, user)
  else
    let upage := (pageAlignInf uaddr).toNat
    let copy := elfCopy prog arena uaddr
    let user := fillBytes user upage 4096 page.contents
    let user := fillBytes user upage copy.len fun i => prog.byte (copy.pos + i)
    if copy.len < 4096 then (0, fillBytes user (uaddr.toNat + copy.len) (4096 - copy.len) fun _ => 0)
    else (0, user)

end Desiros.Exec
