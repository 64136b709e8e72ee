import Desiros.Mem.Uvmm
import Desiros.Library.Words

/-!
# The heap of a user program (`userland/libc.c`, `syscalls.c`)

`malloc` asks the kernel for the top of the heap with `_brk(0)`, hands out blocks from there on, and tells the kernel the
new top after each. `do_syscalls` drops what the call it serves returns, so `_brk` returns 0 to the program: the first
block is `NULL`, and the later ones stand at the sums of the sizes before them.

`mallocRun_law` says when the blocks are nevertheless blocks of the heap.
-/

namespace Desiros.Mem

variable {W : Type}

/-! ## `malloc` -/

/-- `do_syscalls` for `SYSCALL_ID_BRK`, in a process that has an address space. -/
def doSyscallsBrk (E : UvmmEnv W) (s : UvmmState W) (newTopHeap : UInt32) : Int32 × UvmmState W :=
  let (_ret, s) := uvmmBrk E s newTopHeap
  (0, s)

/-- `_brk` of the C library of the programs. -/
def userBrk (E : UvmmEnv W) (s : UvmmState W) (newTopAddress : UInt32) : UInt32 × UvmmState W :=
  let (ret, s) := doSyscallsBrk E s newTopAddress
  (ret.toUInt32, s)

/-- The two variables of `libc.c`. -/
structure UserHeap where
  kernelHeapTop : UInt32 := 0
  mallocHeapTop : UInt32 := 0

/-- A size rounded up to a multiple of 4, in 32 bits. -/
def mallocSize (size : UInt32) : UInt32 := ((size - 1) &&& ~~~3) + 4

def malloc (E : UvmmEnv W) (s : UvmmState W) (u : UserHeap) (size : UInt32) : UInt32 × UserHeap × UvmmState W :=
  if size ≤ 0 then (0, u, s)
  else
    let size := mallocSize size
    let (u, s) :=
      if u.kernelHeapTop = 0 then
        let (top, s) := userBrk E s 0
        ({ u with kernelHeapTop := top }, s)
      else (u, s)
    let u := if u.mallocHeapTop = 0 then { u with mallocHeapTop := u.kernelHeapTop } else u
    let retval := u.mallocHeapTop
    let u := { u with mallocHeapTop := u.mallocHeapTop + size }
    let (_, s) := userBrk E s u.mallocHeapTop
    (retval, u, s)

/-- A call: what was asked for, what was returned, and the heap arena then. -/
structure MallocCall where
  request : UInt32
  block : UInt32
  heapStart : UInt32
  heapSize : UInt32
deriving DecidableEq, Repr

/-- The bytes `malloc` sets aside. -/
def MallocCall.size (c : MallocCall) : Nat := (mallocSize c.request).toNat

def mallocRun (E : UvmmEnv W) (s : UvmmState W) (u : UserHeap) : List UInt32 → List MallocCall
  | [] => []
  | size :: sizes =>
    let (block, u, s) := malloc E s u size
    ⟨size, block, s.addressSpace.heapStart, s.addressSpace.heapSize⟩ :: mallocRun E s u sizes

/-! ## The law -/

/-- A block is aligned, large enough, and lies in the heap arena. -/
structure MallocCall.InHeap (c : MallocCall) : Prop where
  aligned : c.block.toNat % 4 = 0
  large : c.request.toNat ≤ c.size
  start : c.heapStart.toNat ≤ c.block.toNat
  stop : c.block.toNat + c.size ≤ c.heapStart.toNat + c.heapSize.toNat

def MallocCall.Apart (c d : MallocCall) : Prop :=
  c.block.toNat + c.size ≤ d.block.toNat ∨ d.block.toNat + d.size ≤ c.block.toNat

/-- The blocks returned that are not `NULL` lie in the heap, apart from each other. -/
def HeapLaw (calls : List MallocCall) : Prop :=
  (∀ c ∈ calls, c.block ≠ 0 → c.InHeap) ∧
    calls.Pairwise fun c d => c.block ≠ 0 → d.block ≠ 0 → c.Apart d

/-- Nothing is asked for after the first size that does not round to 0. -/
def OneBlock : List UInt32 → Prop
  | [] => True
  | size :: sizes => if mallocSize size = 0 then OneBlock sizes else ∀ t ∈ sizes, t = 0

/-! ## Runs -/

section

variable {E : UvmmEnv W} {s : UvmmState W} {sizes : List UInt32}

theorem malloc_zero (u : UserHeap) : malloc E s u 0 = (0, u, s) := if_pos (UInt32.le_refl 0)

/-- The kernel's answer never arrives: the block is the top the program remembers. -/
theorem malloc_eq (top : UInt32) {size : UInt32} (hsize : size ≠ 0) :
    malloc E s ⟨0, top⟩ size = (top, ⟨0, top + mallocSize size⟩, (uvmmBrk E s (top + mallocSize size)).2) := by
  have hpos : ¬ size ≤ 0 := by
    rw [UInt32.le_iff_toNat_le]
    intro hle
    exact hsize (UInt32.toNat_inj.mp (Nat.le_zero.mp hle))
  have hzero : userBrk E s 0 = (0, s) := rfl
  rw [malloc, if_neg hpos]
  dsimp only
  rw [if_pos rfl, hzero]
  by_cases htop : top = 0
  · simp only [htop, if_true]
    rfl
  · simp only [htop, if_false]
    rfl

theorem mallocSize_zero : mallocSize 0 = 0 := by decide

/-- A run whose sizes are all zero returns `NULL` throughout. -/
theorem mallocRun_zeros (u : UserHeap) (h : ∀ t ∈ sizes, t = 0) : ∀ c ∈ mallocRun E s u sizes, c.block = 0 := by
  induction sizes with
  | nil => exact fun c hc => absurd hc List.not_mem_nil
  | cons size sizes ih =>
    intro c hc
    obtain rfl := h size List.mem_cons_self
    rw [mallocRun, malloc_zero] at hc
    rcases List.mem_cons.mp hc with rfl | hc
    · rfl
    · exact ih (fun t ht => h t (List.mem_cons_of_mem _ ht)) c hc

theorem mallocRun_oneBlock (h : OneBlock sizes) : ∀ s : UvmmState W, ∀ c ∈ mallocRun E s {} sizes, c.block = 0 := by
  induction sizes with
  | nil => exact fun s c hc => absurd hc List.not_mem_nil
  | cons size sizes ih =>
    intro s c hc
    rw [mallocRun] at hc
    by_cases hsize : size = 0
    · subst hsize
      rw [malloc_zero] at hc
      rcases List.mem_cons.mp hc with rfl | hc
      · rfl
      · exact ih h s c hc
    · rw [malloc_eq 0 hsize, UInt32.zero_add] at hc
      rcases List.mem_cons.mp hc with rfl | hc
      · rfl
      · rw [OneBlock] at h
        by_cases hround : mallocSize size = 0
        · rw [if_pos hround] at h
          rw [hround] at hc
          exact ih h _ c hc
        · rw [if_neg hround] at h
          exact mallocRun_zeros _ h c hc

theorem heapLaw_of_null {calls : List MallocCall} (h : ∀ c ∈ calls, c.block = 0) : HeapLaw calls :=
  ⟨fun c hc hne => absurd (h c hc) hne,
    List.pairwise_of_forall_mem_list fun c hc _ _ hne => absurd (h c hc) hne⟩

theorem HeapLaw.tail {c : MallocCall} {calls : List MallocCall} (h : HeapLaw (c :: calls)) : HeapLaw calls :=
  ⟨fun d hd => h.1 d (List.mem_cons_of_mem _ hd), (List.pairwise_cons.mp h.2).2⟩

/-- A top below the heap changes nothing. -/
theorem uvmmBrk_below {top : UInt32} (h : top < s.addressSpace.heapStart) : (uvmmBrk E s top).2 = s := by
  rw [uvmmBrk]
  dsimp only
  split_ifs <;> rfl

/-- Behind the first block, every further one lies below the heap. -/
theorem zeros_of_law (sizes : List UInt32) : ∀ top : UInt32, top ≠ 0 →
    top.toNat + (sizes.map fun t => (mallocSize t).toNat).sum < s.addressSpace.heapStart.toNat →
    HeapLaw (mallocRun E s ⟨0, top⟩ sizes) → ∀ t ∈ sizes, t = 0 := by
  induction sizes with
  | nil => exact fun _ _ _ _ t ht => absurd ht List.not_mem_nil
  | cons size sizes ih =>
    intro top htop hsum hlaw
    rw [List.map_cons, List.sum_cons] at hsum
    have hsize : size = 0 := by
      by_contra hne
      rw [mallocRun, malloc_eq top hne] at hlaw
      have hnext : top + mallocSize size < s.addressSpace.heapStart := by
        have hword := UInt32.toNat_lt s.addressSpace.heapStart
        rw [UInt32.lt_iff_toNat_lt, Library.word_add]
        omega
      rw [uvmmBrk_below hnext] at hlaw
      have hin := (hlaw.1 _ List.mem_cons_self htop).start
      dsimp only at hin
      omega
    intro t ht
    rcases List.mem_cons.mp ht with rfl | hrest
    · exact hsize
    · rw [hsize, mallocRun, malloc_zero] at hlaw
      exact ih top htop (by omega) hlaw.tail t hrest

theorem oneBlock_of_law (sizes : List UInt32)
    (hsum : (sizes.map fun t => (mallocSize t).toNat).sum < s.addressSpace.heapStart.toNat)
    (hlaw : HeapLaw (mallocRun E s {} sizes)) : OneBlock sizes := by
  induction sizes with
  | nil => trivial
  | cons size sizes ih =>
    rw [List.map_cons, List.sum_cons] at hsum
    rw [OneBlock]
    by_cases hsize : size = 0
    · subst hsize
      rw [mallocRun, malloc_zero] at hlaw
      rw [if_pos mallocSize_zero]
      exact ih (by omega) hlaw.tail
    · have hbelow : mallocSize size < s.addressSpace.heapStart := by
        rw [UInt32.lt_iff_toNat_lt]
        omega
      rw [mallocRun, malloc_eq 0 hsize, UInt32.zero_add, uvmmBrk_below hbelow] at hlaw
      by_cases hround : mallocSize size = 0
      · rw [if_pos hround]
        rw [hround] at hlaw
        exact ih (by omega) hlaw.tail
      · rw [if_neg hround]
        exact zeros_of_law sizes _ hround hsum hlaw.tail

/-- **The blocks of a program lie in its heap** if nothing is asked for after the first size that does not round to 0,
since all of them are `NULL` then; and where the sizes together stay below the start of the heap, in no other run. -/
theorem mallocRun_law (E : UvmmEnv W) (s : UvmmState W) (sizes : List UInt32) :
    (OneBlock sizes → HeapLaw (mallocRun E s {} sizes)) ∧
    ((sizes.map fun t => (mallocSize t).toNat).sum < s.addressSpace.heapStart.toNat →
      (HeapLaw (mallocRun E s {} sizes) ↔ OneBlock sizes)) := by
  have hone : OneBlock sizes → HeapLaw (mallocRun E s {} sizes) := fun h => heapLaw_of_null (mallocRun_oneBlock h s)
  exact ⟨hone, fun hsum => ⟨oneBlock_of_law sizes hsum, hone⟩⟩

end

/-- A program whose heap starts at `0x40001000`. -/
def freshProgram : UvmmState Unit := (uvmmCreateEmptyAs ()).setHeap 0x40001000 0

/-- One block of 8 bytes. -/
theorem mallocRun_law_one : HeapLaw (mallocRun quietEnv freshProgram {} [0, 5, 0]) := by
  apply ((mallocRun_law quietEnv freshProgram [0, 5, 0]).2 (by decide)).mpr
  rw [OneBlock, if_pos mallocSize_zero, OneBlock, if_neg (by decide)]
  simp

/-- The second of two blocks of 8 bytes is the address 8. -/
theorem mallocRun_second :
    mallocRun quietEnv freshProgram {} [8, 8] = [⟨8, 0, 0x40001000, 0⟩, ⟨8, 8, 0x40001000, 0⟩] ∧
      ¬ HeapLaw (mallocRun quietEnv freshProgram {} [8, 8]) := by
  have hrun : mallocRun quietEnv freshProgram {} [8, 8] = [⟨8, 0, 0x40001000, 0⟩, ⟨8, 8, 0x40001000, 0⟩] := by
    decide +kernel
  refine ⟨hrun, fun h => ?_⟩
  rw [hrun] at h
  have hin := (h.1 ⟨8, 8, 0x40001000, 0⟩ (by decide) (by decide)).start
  exact absurd hin (by decide)

end Desiros.Mem
