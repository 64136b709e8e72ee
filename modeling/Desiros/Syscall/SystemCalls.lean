import Desiros.Proc.Cpu

/-!
# System calls (`init.S`, `cpu_context.c`, `userland/crt.c`)

`_syscall3` passes a number and three words in registers, `_syscall4` and `_syscall7` the address of an array for those
that are left. `_asm_syscalls` saves the registers and calls `do_syscalls` with their address; the functions
`syscall_get3args`, ... find the arguments there. What `do_syscalls` returns becomes the `eax` of the program, which goes
on with its other registers (`syscall_returns`). `do_syscalls` is a parameter that leaves the saved registers alone.
-/

namespace Desiros.Syscall.Entry

open Desiros.Library Proc

/-! ## The program -/

/-- `_syscall3`, in front of `int 0x80`. -/
def syscall3 (c : Cpu) (id arg1 arg2 arg3 : UInt32) : Cpu :=
  { c with regs := { c.regs with eax := id, ebx := arg1, ecx := arg2, edx := arg3 } }

def syscall0 (c : Cpu) (id : UInt32) : Cpu := syscall3 c id 0 0 0

def syscall1 (c : Cpu) (id arg1 : UInt32) : Cpu := syscall3 c id arg1 0 0

def syscall2 (c : Cpu) (id arg1 arg2 : UInt32) : Cpu := syscall3 c id arg1 arg2 0

/-- The array of the other arguments, on the stack of the program. -/
def syscallArray (c : Cpu) (id arg1 arg2 : UInt32) (args : List UInt32) : Cpu :=
  let c := c.pushAll args.reverse
  syscall3 c id arg1 arg2 c.regs.esp

def syscall4 (c : Cpu) (id arg1 arg2 arg3 arg4 : UInt32) : Cpu := syscallArray c id arg1 arg2 [arg3, arg4]

def syscall7 (c : Cpu) (id arg1 arg2 arg3 arg4 arg5 arg6 arg7 : UInt32) : Cpu :=
  syscallArray c id arg1 arg2 [arg3, arg4, arg5, arg6, arg7]

/-! ## The kernel -/

/-- `struct cpu_state` holds `ebx` at 32, `edx` at 36, `ecx` at 40 and `eax` at 44. -/
def syscallGet3args (m : Bytes) (userCtxt : UInt32) : UInt32 × UInt32 × UInt32 :=
  (wordAt m (userCtxt + UInt32.ofNat (4 * 8)), wordAt m (userCtxt + UInt32.ofNat (4 * 10)),
    wordAt m (userCtxt + UInt32.ofNat (4 * 9)))

def syscallGet1arg (m : Bytes) (userCtxt : UInt32) : UInt32 := (syscallGet3args m userCtxt).1

def syscallGet2args (m : Bytes) (userCtxt : UInt32) : UInt32 × UInt32 :=
  let (arg1, arg2, _) := syscallGet3args m userCtxt
  (arg1, arg2)

/-- `other_args`, which `memcpy` fills from the array. -/
def otherArgs (m : Bytes) (uaddrOtherArgs : UInt32) (i : Nat) : UInt32 :=
  wordAt m (uaddrOtherArgs + UInt32.ofNat (4 * i))

def syscallGet4args (m : Bytes) (userCtxt : UInt32) : UInt32 × UInt32 × UInt32 × UInt32 :=
  let (arg1, arg2, uaddr) := syscallGet3args m userCtxt
  (arg1, arg2, otherArgs m uaddr 0, otherArgs m uaddr 1)

def syscallGet7args (m : Bytes) (userCtxt : UInt32) :
    UInt32 × UInt32 × UInt32 × UInt32 × UInt32 × UInt32 × UInt32 :=
  let (arg1, arg2, uaddr) := syscallGet3args m userCtxt
  (arg1, arg2, otherArgs m uaddr 0, otherArgs m uaddr 1, otherArgs m uaddr 2, otherArgs m uaddr 3, otherArgs m uaddr 4)

/-- The CPU in `do_syscalls`, called with `user_ctxt` and the number of the call. -/
def enterSyscall (c : Cpu) (ret : UInt32) : Cpu :=
  let c := c.interrupt.saveRegs
  (c.pushAll [c.regs.esp, c.regs.eax]).call ret

/-- `do_syscalls` has returned to `_asm_syscalls`, which stores the result over the `eax` of the program. -/
def leaveSyscall (c : Cpu) (result : UInt32) : Cpu :=
  let c := c.leave
  let c := { c with regs := { c.regs with eax := result, esp := c.regs.esp + UInt32.ofNat (4 * 2) } }
  let c := { c with memory := storeLe c.memory (c.regs.esp + UInt32.ofNat (4 * 11)).toNat 4 c.regs.eax.toNat }
  c.restoreRegs.iret

/-- `_asm_syscalls`. `do_syscalls` is given the number of the call, `user_ctxt` and the memory. -/
def asmSyscalls (doSyscalls : UInt32 → UInt32 → Bytes → UInt32 × Bytes) (ret : UInt32) (c : Cpu) : Cpu :=
  let k := enterSyscall c ret
  let (result, m) := doSyscalls (k.word 2) (k.word 3) k.memory
  leaveSyscall { k with memory := m } result

section

variable {c k : Cpu} {m : Bytes} {args : List UInt32} {top : UInt32}

/-! ## The saved registers -/

/-- `user_ctxt` -/
def userCtxt (c : Cpu) : UInt32 := c.kernelTop - UInt32.ofNat (4 * (frameWords c.regs c.kernelTop).length)

/-- Where the saved registers stand. -/
def Saved (c : Cpu) (m : Bytes) : Prop := WordsBelow m c.kernelTop (frameWords c.regs c.kernelTop)

/-- The CPU in `do_syscalls`. -/
structure InSyscall (c k : Cpu) : Prop where
  saved : Saved c k.memory
  id : k.word 2 = c.regs.eax
  ctxt : k.word 3 = userCtxt c
  ebp : k.regs.ebp.toNat + 4 * ((frameWords c.regs c.kernelTop).length + 4) = c.kernelTop.toNat
  tss : k.tss = c.tss
  cr3 : k.cr3 = c.cr3
  ss : c.regs.Kernel → k.regs.ss = c.regs.ss
  memory : ∀ v, v < c.kernelTop.toNat - 4 * 21 ∨ c.kernelTop.toNat ≤ v → k.memory v = c.memory v

theorem frameWords_length_le (r : Regs) (top : UInt32) : (frameWords r top).length ≤ 17 := by
  have hlength := frameWords_length r top
  have hhard := hardWords_length_le r
  omega

theorem enterSyscall_inSyscall (c : Cpu) (ret : UInt32) (hroom : 4 * 21 ≤ c.kernelTop.toNat) :
    InSyscall c (enterSyscall c ret) := by
  have hlength := frameWords_length_le c.regs c.kernelTop
  have hframe := saveRegs_entered c
  have heax : c.interrupt.saveRegs.regs.eax = c.regs.eax := by
    have hregs := (interrupt_entered c).2
    show c.interrupt.regs.eax = _
    rw [hregs]
  obtain ⟨k, hk⟩ : ∃ k, k = c.interrupt.saveRegs := ⟨_, rfl⟩
  unfold enterSyscall
  dsimp only
  rw [← hk] at hframe heax ⊢
  obtain ⟨pushed, hpushed⟩ : ∃ pushed : Cpu, pushed = k.pushAll [k.regs.esp, k.regs.eax] := ⟨_, rfl⟩
  obtain ⟨words, hwords⟩ : ∃ words, words = [k.regs.esp, k.regs.eax] ++ [ret, pushed.regs.ebp] := ⟨_, rfl⟩
  have hentered := (hframe.pushAll [k.regs.esp, k.regs.eax]).pushAll [ret, pushed.regs.ebp]
  rw [List.append_assoc, ← hwords, ← hpushed] at hentered
  have hall : (frameWords c.regs c.kernelTop ++ words).length = (frameWords c.regs c.kernelTop).length + 4 := by
    rw [List.length_append, hwords]
    rfl
  have hesp : (pushed.pushAll [ret, pushed.regs.ebp]).regs.esp.toNat +
      4 * ((frameWords c.regs c.kernelTop).length + 4) = c.kernelTop.toNat := by
    rw [hentered.esp, sub_ofNat (by omega), hall]
    omega
  have hbelow : WordsBelow (pushed.pushAll [ret, pushed.regs.ebp]).memory c.kernelTop (frameWords c.regs c.kernelTop ++ words) := by
    rw [hentered.memory]
    exact wordsBelow_pushWords (by omega)
  -- the words above the frame of the function are its arguments
  have harg : ∀ i < 4, (pushed.call ret).word i = words.getD (3 - i) 0 := by
    intro i hi
    rw [show (pushed.call ret).word i = _ from Cpu.word_below hbelow hesp hall.ge (show i < _ by omega)]
    rw [List.getD_append_right _ _ _ _ (by omega)]
    congr 1
    omega
  rw [← hpushed]
  refine ⟨hbelow.left, ?_, ?_, hesp, hentered.tss, hentered.cr3, hentered.ss, fun v hv => ?_⟩
  · rw [harg 2 (by decide), hwords]
    exact heax
  · rw [harg 3 (by decide), hwords]
    exact hframe.esp
  · show (pushed.pushAll [ret, pushed.regs.ebp]).memory v = _
    rw [hentered.memory]
    exact pushWords_of_ne (by omega) (by omega)

theorem userCtxt_toNat (hroom : 4 * 21 ≤ c.kernelTop.toNat) :
    (userCtxt c).toNat + 4 * (frameWords c.regs c.kernelTop).length = c.kernelTop.toNat := by
  have hlength := frameWords_length_le c.regs c.kernelTop
  unfold userCtxt
  rw [sub_ofNat (by omega)]
  omega

/-- **The arguments are found in the saved registers.** -/
theorem syscallGet3args_eq (h : Saved c m) (hroom : 4 * 21 ≤ c.kernelTop.toNat) :
    syscallGet3args m (userCtxt c) = (c.regs.ebx, c.regs.ecx, c.regs.edx) := by
  have hctxt := userCtxt_toNat hroom
  have hword : ∀ i < 12, wordAt m (userCtxt c + UInt32.ofNat (4 * i)) =
      (savedWords c.regs (c.kernelTop - UInt32.ofNat (4 * (hardWords c.regs).length))).getD (11 - i) 0 := by
    intro i hi
    have hlength := frameWords_length c.regs c.kernelTop
    rw [h.word hctxt (Nat.le_refl _) (show i < (frameWords c.regs c.kernelTop).length by omega),
      frameWords_saved c.regs c.kernelTop hi]
  unfold syscallGet3args
  rw [hword 8 (by decide), hword 10 (by decide), hword 9 (by decide)]
  rfl

/-! ## The way back -/

theorem frameWords_eax (r : Regs) (top eax : UInt32) :
    frameWords { r with eax := eax } top = (frameWords r top).set (hardWords r).length eax := by
  unfold frameWords
  rw [List.set_append_right _ _ (Nat.le_refl _), Nat.sub_self]
  rfl

theorem leaveSyscall_eq (h : InSyscall c k) (hm : Saved c m) (hroom : 4 * 21 ≤ c.kernelTop.toNat) (result : UInt32) :
    ∃ m', leaveSyscall { k with memory := m } result =
        { c with regs := { c.regs with eax := result }, memory := m' } ∧
      ∀ v, v < (userCtxt c).toNat ∨ c.kernelTop.toNat ≤ v → m' v = m v := by
  have hlength := frameWords_length c.regs c.kernelTop
  have hle := frameWords_length_le c.regs c.kernelTop
  have htop := word_lt c.kernelTop
  have hebp := h.ebp
  have hctxt := userCtxt_toNat hroom
  -- the stack pointer is at the saved registers
  obtain ⟨left, hleft⟩ : ∃ left : Cpu, left = ({ k with memory := m } : Cpu).leave := ⟨_, rfl⟩
  have hesp : left.regs.esp + UInt32.ofNat (4 * 2) = userCtxt c := by
    apply word_eq_iff.mpr
    have hup : left.regs.esp = k.regs.ebp + UInt32.ofNat (4 * 2) := by
      rw [hleft]
      rfl
    have hback : left.regs.esp.toNat = k.regs.ebp.toNat + 4 * 2 := by
      rw [hup, add_ofNat (by omega)]
    rw [add_ofNat (by omega), hback]
    omega
  have heax : (userCtxt c + UInt32.ofNat (4 * 11)).toNat + 4 * ((hardWords c.regs).length + 1) = c.kernelTop.toNat := by
    rw [add_ofNat (by omega)]
    omega
  obtain ⟨m', hm'⟩ : ∃ m', m' = storeLe m (userCtxt c + UInt32.ofNat (4 * 11)).toNat 4 result.toNat := ⟨_, rfl⟩
  obtain ⟨k', hk'⟩ : ∃ k' : Cpu, k' = { left with
      memory := m', regs := { left.regs with eax := result, esp := userCtxt c } } := ⟨_, rfl⟩
  have hwords : WordsBelow k'.memory c.kernelTop (frameWords { c.regs with eax := result } c.kernelTop) := by
    rw [hk', frameWords_eax, hm']
    exact hm.set (by omega) heax result
  have hreturn := @restoreRegs_iret k' { c.regs with eax := result } c.kernelTop hwords (by
      rw [hk', frameWords_eax, List.length_set]
      exact hctxt) (fun hkernel => by
      rw [hk', hleft]
      exact ⟨h.ss hkernel, if_pos hkernel⟩)
  refine ⟨m', ?_, fun v hv => ?_⟩
  · have hleave : leaveSyscall { k with memory := m } result = k'.restoreRegs.iret := by
      unfold leaveSyscall
      dsimp only
      rw [← hleft, hesp, hk', hm', hleft]
      rfl
    rw [hleave, hreturn, hk', hleft]
    show Cpu.mk _ k.cr3 k.tss m' = _
    rw [h.cr3, h.tss]
  · rw [hm']
    exact storeLe_of_ne (by omega)

/-- **A system call returns to the program**, which finds the result in `eax` and its other registers as they were, if
`do_syscalls` leaves those alone that were saved. It is given the number and the arguments. -/
theorem syscall_returns (doSyscalls : UInt32 → UInt32 → Bytes → UInt32 × Bytes) (ret : UInt32) (c : Cpu)
    (hroom : 4 * 21 ≤ c.kernelTop.toNat)
    (hkeeps : Saved c (doSyscalls c.regs.eax (userCtxt c) (enterSyscall c ret).memory).2) :
    ∃ m', asmSyscalls doSyscalls ret c =
        { c with
          regs := { c.regs with eax := (doSyscalls c.regs.eax (userCtxt c) (enterSyscall c ret).memory).1 }
          memory := m' } ∧
      syscallGet3args (enterSyscall c ret).memory (userCtxt c) = (c.regs.ebx, c.regs.ecx, c.regs.edx) ∧
      (∀ v, v < c.kernelTop.toNat - 4 * 21 ∨ c.kernelTop.toNat ≤ v → (enterSyscall c ret).memory v = c.memory v) ∧
      ∀ v, v < (userCtxt c).toNat ∨ c.kernelTop.toNat ≤ v →
        m' v = (doSyscalls c.regs.eax (userCtxt c) (enterSyscall c ret).memory).2 v := by
  have hin := enterSyscall_inSyscall c ret hroom
  obtain ⟨k, hk⟩ : ∃ k, k = enterSyscall c ret := ⟨_, rfl⟩
  rw [← hk] at hin hkeeps ⊢
  obtain ⟨m', heq, hm'⟩ := leaveSyscall_eq hin hkeeps hroom (doSyscalls c.regs.eax (userCtxt c) k.memory).1
  refine ⟨m', ?_, syscallGet3args_eq hin.saved hroom, hin.memory, hm'⟩
  unfold asmSyscalls
  dsimp only
  rw [← hk, hin.id, hin.ctxt]
  exact heq

end

/-- A program of which only the registers matter, with its kernel stack below `0x2000`. -/
def bareProgram : Cpu where
  regs := ⟨0, 0, 0, 0, 0xFF000000, 0, 0, 0, 0x40000000, 0x200, 0x23, 0x33, 0x2B, 0x2B, 0x2B, 0x2B⟩
  cr3 := 0x100000
  tss := ⟨0x2000, 0x18⟩
  memory _ := 0

/-- A call with the number 5 that returns its number. -/
theorem bareProgram_returns : ∃ m', asmSyscalls (fun id _ m => (id, m)) 0x1234 (syscall3 bareProgram 5 1 2 3) =
    { syscall3 bareProgram 5 1 2 3 with memory := m' } := by
  have hroom : 4 * 21 ≤ (syscall3 bareProgram 5 1 2 3).kernelTop.toNat := by decide
  obtain ⟨m', heq, -⟩ := syscall_returns (fun id _ m => (id, m)) 0x1234 (syscall3 bareProgram 5 1 2 3) hroom
    (enterSyscall_inSyscall _ _ hroom).saved
  exact ⟨m', heq⟩

end Desiros.Syscall.Entry
