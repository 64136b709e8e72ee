import Desiros.Library.WordStack

/-!
# Interrupts (`init.S`, `sched.S`)

What the CPU does with its stack on an interrupt and on `iret`, and the code around the handlers of the kernel:
`SAVE_REGS` and `RESTORE_REGS` of `init.S` with a call of a C function between them, and `do_switch` of `sched.S`.
Behind `SAVE_REGS` the stack holds `frameWords`; what holds them is restored (`restoreRegs_iret`), and `do_switch`
loads the registers that it is given (`doSwitch_eq`). Of the flags and the instruction pointer in the kernel nothing is
said.
-/

namespace Desiros.Proc

open Desiros.Library

/-! ## The CPU -/

@[ext]
structure Regs where
  eax : UInt32
  ecx : UInt32
  edx : UInt32
  ebx : UInt32
  esp : UInt32
  ebp : UInt32
  esi : UInt32
  edi : UInt32
  eip : UInt32
  eflags : UInt32
  cs : UInt16
  ss : UInt16
  ds : UInt16
  es : UInt16
  fs : UInt16
  gs : UInt16
deriving DecidableEq

/-- `default_tss`, or `kstack` of a process. -/
structure Tss where
  esp0 : UInt32
  ss0 : UInt16
deriving DecidableEq

structure Cpu where
  regs : Regs
  cr3 : UInt32
  tss : Tss
  memory : Bytes

/-- Code of privilege level 0. -/
def Regs.Kernel (r : Regs) : Prop := r.cs % 4 = 0

instance (r : Regs) : Decidable r.Kernel := inferInstanceAs (Decidable (_ = _))

/-- Word `i` of the stack. -/
def Cpu.word (c : Cpu) (i : Nat) : UInt32 := wordAt c.memory (c.regs.esp + UInt32.ofNat (4 * i))

def Cpu.pushAll (c : Cpu) (ws : List UInt32) : Cpu :=
  { c with
    regs := { c.regs with esp := c.regs.esp - UInt32.ofNat (4 * ws.length) }
    memory := pushWords c.memory c.regs.esp ws }

/-- What the CPU pushes on an interrupt. -/
def hardWords (r : Regs) : List UInt32 :=
  (if r.Kernel then [] else [r.ss.toUInt32, r.esp]) ++ [r.eflags, r.cs.toUInt32, r.eip]

/-- The CPU goes to a gate of the kernel, on the stack of the TSS if it comes from a program. -/
def Cpu.interrupt (c : Cpu) : Cpu :=
  let k := if c.regs.Kernel then c else { c with regs := { c.regs with ss := c.tss.ss0, esp := c.tss.esp0 } }
  let k := k.pushAll (hardWords c.regs)
  { k with regs := { k.regs with cs := 0x08 } }

/-- `iret`, which takes the stack of the program too if it goes back to one. -/
def Cpu.iret (c : Cpu) : Cpu :=
  let cs := (c.word 1).toUInt16
  let r := { c.regs with
    eip := c.word 0, cs := cs, eflags := c.word 2, esp := c.regs.esp + UInt32.ofNat (4 * 3) }
  { c with regs := if cs % 4 = 0 then r else { r with esp := c.word 3, ss := (c.word 4).toUInt16 } }

/-- What `pushal` and the pushes of the segment registers put on the stack. -/
def savedWords (r : Regs) (esp : UInt32) : List UInt32 :=
  [r.eax, r.ecx, r.edx, r.ebx, esp, r.ebp, r.esi, r.edi, r.ds.toUInt32, r.es.toUInt32, r.fs.toUInt32, r.gs.toUInt32]

/-- `SAVE_REGS`, which then loads the segments of the kernel. -/
def Cpu.saveRegs (c : Cpu) : Cpu :=
  let c := c.pushAll (savedWords c.regs c.regs.esp)
  { c with regs := { c.regs with
    ebx := c.regs.ebx &&& 0xFFFF0000 ||| 0x10, ds := 0x10, es := 0x10, fs := 0x10, gs := 0x10 } }

/-- `RESTORE_REGS`: `popal` passes over the stack pointer. -/
def Cpu.restoreRegs (c : Cpu) : Cpu :=
  { c with regs := { c.regs with
    gs := (c.word 0).toUInt16, fs := (c.word 1).toUInt16, es := (c.word 2).toUInt16, ds := (c.word 3).toUInt16
    edi := c.word 4, esi := c.word 5, ebp := c.word 6, ebx := c.word 8, edx := c.word 9, ecx := c.word 10
    eax := c.word 11, esp := c.regs.esp + UInt32.ofNat (4 * 12) } }

/-- A call of a C function, up to the end of its prologue. -/
def Cpu.call (c : Cpu) (ret : UInt32) : Cpu :=
  let c := c.pushAll [ret, c.regs.ebp]
  { c with regs := { c.regs with ebp := c.regs.esp } }

/-- The function returns. -/
def Cpu.leave (c : Cpu) : Cpu :=
  let c := { c with regs := { c.regs with esp := c.regs.ebp } }
  { c with regs := { c.regs with ebp := c.word 0, esp := c.regs.esp + UInt32.ofNat (4 * 2) } }

/-- What C code with `n` bytes of variables leaves below the stack pointer. -/
def Cpu.scratch (c : Cpu) (n : Nat) (garbage : Bytes) : Cpu :=
  { c with memory := fun v => if c.regs.esp.toNat - n ≤ v ∧ v < c.regs.esp.toNat then garbage v else c.memory v }

/-- `regs` of a `struct process`. -/
structure SavedRegs extends Regs where
  cr3 : UInt32

/-- Two neighbouring 16-bit fields, as `push` reads them. -/
def pair (low high : UInt16) : UInt32 := low.toUInt32 ||| high.toUInt32 <<< 16

/-- What `do_switch` pushes. -/
def switchWords (p : SavedRegs) : List UInt32 :=
  [p.eax, p.ecx, p.edx, p.ebx, p.ebp, p.esi, p.edi,
    pair p.ds p.es, pair p.es p.fs, pair p.fs p.gs, pair p.gs p.cr3.toUInt16]

/-- `do_switch`; the word on the stack is the address of the process. -/
def Cpu.doSwitch (c : Cpu) (p : SavedRegs) : Cpu :=
  let c := { c with regs := { c.regs with esp := c.regs.esp + UInt32.ofNat (4 * 1) } }
  let c := c.pushAll (switchWords p)
  let c := { c with cr3 := p.cr3, regs := { c.regs with
    gs := (c.word 0).toUInt16, fs := (c.word 1).toUInt16, es := (c.word 2).toUInt16, ds := (c.word 3).toUInt16
    edi := c.word 4, esi := c.word 5, ebp := c.word 6, ebx := c.word 7, edx := c.word 8, ecx := c.word 9
    eax := c.word 10, esp := c.regs.esp + UInt32.ofNat (4 * 11) } }
  c.iret

/-! ## The frame of an interrupt -/

/-- Where the frame of an interrupt starts. -/
def Cpu.kernelTop (c : Cpu) : UInt32 := if c.regs.Kernel then c.regs.esp else c.tss.esp0

/-- The words on the stack in a handler of the registers `r`, from `top` on. -/
def frameWords (r : Regs) (top : UInt32) : List UInt32 :=
  hardWords r ++ savedWords r (top - UInt32.ofNat (4 * (hardWords r).length))

section

variable {c : Cpu} {r : Regs} {top ret : UInt32} {ws : List UInt32} {m : Bytes} {n i : Nat}

theorem hardWords_kernel (h : r.Kernel) : hardWords r = [r.eflags, r.cs.toUInt32, r.eip] := by
  unfold hardWords
  rw [if_pos h]
  rfl

theorem hardWords_user (h : ¬ r.Kernel) :
    hardWords r = [r.ss.toUInt32, r.esp, r.eflags, r.cs.toUInt32, r.eip] := by
  unfold hardWords
  rw [if_neg h]
  rfl

theorem hardWords_length_le (r : Regs) : (hardWords r).length ≤ 5 := by
  by_cases h : r.Kernel
  · rw [hardWords_kernel h]
    exact Nat.le_of_ble_eq_true rfl
  · rw [hardWords_user h]
    exact Nat.le_refl 5

theorem sub_ofNat (h : 4 * n ≤ top.toNat) : (top - UInt32.ofNat (4 * n)).toNat = top.toNat - 4 * n := by
  have hlt := word_lt top
  rw [word_sub, UInt32.toNat_ofNat_of_lt' (show 4 * n < 4294967296 by omega)]
  omega

theorem add_ofNat (h : top.toNat + 4 * n < 4294967296) :
    (top + UInt32.ofNat (4 * n)).toNat = top.toNat + 4 * n := by
  rw [word_add, UInt32.toNat_ofNat_of_lt' (show 4 * n < 4294967296 by omega)]
  omega

/-- The stack of the CPU, word by word. -/
theorem Cpu.word_below (h : WordsBelow c.memory top ws) (hesp : c.regs.esp.toNat + 4 * n = top.toNat)
    (hn : n ≤ ws.length) (hi : i < n) : c.word i = ws.getD (n - 1 - i) 0 :=
  h.word hesp hn hi

/-- The stack pointer after words were pushed from the start of the frame on, and where they stand. -/
structure Entered (c k : Cpu) (ws : List UInt32) : Prop where
  memory : k.memory = pushWords c.memory c.kernelTop ws
  esp : k.regs.esp = c.kernelTop - UInt32.ofNat (4 * ws.length)
  tss : k.tss = c.tss
  cr3 : k.cr3 = c.cr3
  ss : c.regs.Kernel → k.regs.ss = c.regs.ss

theorem sub_ofNat_add (top : UInt32) (n n' : Nat) :
    top - UInt32.ofNat (4 * n) - UInt32.ofNat (4 * n') = top - UInt32.ofNat (4 * (n + n')) := by
  rw [Nat.mul_add, UInt32.ofNat_add, sub_add_eq_sub_sub]

theorem Entered.pushAll {k : Cpu} (h : Entered c k ws) (ws' : List UInt32) : Entered c (k.pushAll ws') (ws ++ ws') where
  memory := by
    rw [pushWords_append, ← h.memory, ← h.esp]
    rfl
  esp := by
    rw [List.length_append, ← sub_ofNat_add, ← h.esp]
    rfl
  tss := h.tss
  cr3 := h.cr3
  ss := h.ss

theorem interrupt_entered (c : Cpu) : Entered c c.interrupt (hardWords c.regs) ∧
    c.interrupt.regs = { c.regs with
      cs := 0x08, ss := c.interrupt.regs.ss, esp := c.kernelTop - UInt32.ofNat (4 * (hardWords c.regs).length) } := by
  unfold Cpu.interrupt Cpu.kernelTop
  by_cases h : c.regs.Kernel
  · rw [if_pos h, if_pos h]
    exact ⟨⟨by rw [Cpu.kernelTop, if_pos h]; rfl, by rw [Cpu.kernelTop, if_pos h]; rfl, rfl, rfl, fun _ => rfl⟩, rfl⟩
  · rw [if_neg h, if_neg h]
    exact ⟨⟨by rw [Cpu.kernelTop, if_neg h]; rfl, by rw [Cpu.kernelTop, if_neg h]; rfl, rfl, rfl,
      fun hk => absurd hk h⟩, rfl⟩

theorem Entered.saveRegs {k : Cpu} (h : Entered c k ws) :
    Entered c k.saveRegs (ws ++ savedWords k.regs k.regs.esp) := by
  obtain ⟨words, hwords⟩ : ∃ words, words = savedWords k.regs k.regs.esp := ⟨_, rfl⟩
  have hpushed := h.pushAll words
  unfold Cpu.saveRegs
  rw [← hwords]
  exact ⟨hpushed.memory, hpushed.esp, hpushed.tss, hpushed.cr3, hpushed.ss⟩

/-- **The frame of an interrupt.** -/
theorem saveRegs_entered (c : Cpu) : Entered c c.interrupt.saveRegs (frameWords c.regs c.kernelTop) := by
  obtain ⟨hentered, hregs⟩ := interrupt_entered c
  have hwords : savedWords c.interrupt.regs c.interrupt.regs.esp =
      savedWords c.regs (c.kernelTop - UInt32.ofNat (4 * (hardWords c.regs).length)) := by
    rw [hregs]
    rfl
  have hpushed := hentered.saveRegs
  rw [hwords] at hpushed
  exact hpushed

/-- `iret` takes back what the CPU pushed. -/
theorem iret_eq (h : WordsBelow c.memory top (hardWords r ++ ws))
    (hesp : c.regs.esp.toNat + 4 * (hardWords r).length = top.toNat)
    (hkernel : r.Kernel → c.regs.ss = r.ss ∧ top = r.esp) :
    c.iret = { c with regs := { c.regs with
      eip := r.eip, cs := r.cs, eflags := r.eflags, esp := r.esp, ss := r.ss } } := by
  have hword : ∀ i < (hardWords r).length, c.word i = (hardWords r).getD ((hardWords r).length - 1 - i) 0 :=
    fun i hi => Cpu.word_below h.left hesp (Nat.le_refl _) hi
  have htop := word_lt top
  by_cases hk : r.Kernel
  · obtain ⟨hss, hend⟩ := hkernel hk
    have hlength : (hardWords r).length = 3 := congrArg List.length (hardWords_kernel hk)
    rw [hlength, hardWords_kernel hk] at hword
    rw [hlength] at hesp
    have hesp' : c.regs.esp + UInt32.ofNat (4 * 3) = r.esp := by
      rw [← hend]
      exact word_eq_iff.mpr ((add_ofNat (by omega)).trans hesp)
    have hcs : (c.word 1).toUInt16 = r.cs := by
      rw [hword 1 (by decide)]
      exact UInt16.toUInt16_toUInt32 _
    have heip : c.word 0 = r.eip := hword 0 (by decide)
    have hflags : c.word 2 = r.eflags := hword 2 (by decide)
    unfold Cpu.iret
    dsimp only
    rw [hcs, heip, hflags, hesp', if_pos (show r.cs % 4 = 0 from hk), ← hss]
  · have hlength : (hardWords r).length = 5 := congrArg List.length (hardWords_user hk)
    rw [hlength, hardWords_user hk] at hword
    have hcs : (c.word 1).toUInt16 = r.cs := by
      rw [hword 1 (by decide)]
      exact UInt16.toUInt16_toUInt32 _
    have heip : c.word 0 = r.eip := hword 0 (by decide)
    have hflags : c.word 2 = r.eflags := hword 2 (by decide)
    have huser : c.word 3 = r.esp := hword 3 (by decide)
    have hss : (c.word 4).toUInt16 = r.ss := by
      rw [hword 4 (by decide)]
      exact UInt16.toUInt16_toUInt32 _
    unfold Cpu.iret
    dsimp only
    rw [hcs, heip, hflags, huser, hss, if_neg (show ¬ r.cs % 4 = 0 from hk)]

theorem frameWords_length (r : Regs) (top : UInt32) : (frameWords r top).length = (hardWords r).length + 12 :=
  List.length_append

/-- The words of `SAVE_REGS` lie below those of the CPU. -/
theorem frameWords_saved (r : Regs) (top : UInt32) (hi : i < 12) :
    (frameWords r top).getD ((frameWords r top).length - 1 - i) 0 =
      (savedWords r (top - UInt32.ofNat (4 * (hardWords r).length))).getD (11 - i) 0 := by
  rw [frameWords_length, frameWords, List.getD_append_right _ _ _ _ (by omega)]
  congr 1
  omega

theorem frameWords_hard (r : Regs) (top : UInt32) (hi : i < (hardWords r).length) :
    (frameWords r top).getD ((frameWords r top).length - 1 - (i + 12)) 0 =
      (hardWords r).getD ((hardWords r).length - 1 - i) 0 := by
  rw [frameWords_length, frameWords, List.getD_append _ _ _ _ (by omega)]
  congr 1
  omega

/-- **An interrupted program goes on with its registers.** -/
theorem restoreRegs_iret (h : WordsBelow c.memory top (frameWords r top))
    (hesp : c.regs.esp.toNat + 4 * (frameWords r top).length = top.toNat)
    (hkernel : r.Kernel → c.regs.ss = r.ss ∧ top = r.esp) : c.restoreRegs.iret = { c with regs := r } := by
  have htop := word_lt top
  have hlength := frameWords_length r top
  have hword : ∀ i < 12, c.word i =
      (savedWords r (top - UInt32.ofNat (4 * (hardWords r).length))).getD (11 - i) 0 := by
    intro i hi
    rw [Cpu.word_below h hesp (Nat.le_refl _) (show i < (frameWords r top).length by omega), frameWords_saved r top hi]
  have hrestored : c.restoreRegs.regs.esp.toNat + 4 * (hardWords r).length = top.toNat := by
    show (c.regs.esp + UInt32.ofNat (4 * 12)).toNat + _ = _
    rw [add_ofNat (by omega)]
    omega
  rw [iret_eq (c := c.restoreRegs) h hrestored hkernel]
  unfold Cpu.restoreRegs
  dsimp only
  rw [hword 0 (by decide), hword 1 (by decide), hword 2 (by decide), hword 3 (by decide), hword 4 (by decide),
    hword 5 (by decide), hword 6 (by decide), hword 8 (by decide), hword 9 (by decide), hword 10 (by decide),
    hword 11 (by decide)]
  simp [savedWords]

/-! ## `do_switch` -/

@[simp] theorem pair_low (low high : UInt16) : (pair low high).toUInt16 = low := by
  unfold pair
  apply UInt16.toNat_inj.mp
  simp [Nat.shiftLeft_eq]

/-- **`do_switch` loads the registers of a process**, with the flags that lie on the stack: it changes nothing in memory
but the words below the address of the process. -/
theorem doSwitch_eq {p : SavedRegs} (h : WordsBelow c.memory top (hardWords r ++ ws))
    (hp : r = { p.toRegs with eflags := r.eflags })
    (hesp : c.regs.esp.toNat + 4 * ((hardWords r).length + 1) = top.toNat)
    (hroom : 4 * ((hardWords r).length + 11) ≤ top.toNat) (hkernel : r.Kernel → c.regs.ss = r.ss ∧ top = r.esp) :
    ∃ m, c.doSwitch p = ⟨r, p.cr3, c.tss, m⟩ ∧
      ∀ v, v < top.toNat - 4 * ((hardWords r).length + 11) ∨ top.toNat ≤ v → m v = c.memory v := by
  have htop := word_lt top
  have hbase : (c.regs.esp + UInt32.ofNat (4 * 1)).toNat = c.regs.esp.toNat + 4 * 1 := add_ofNat (by omega)
  obtain ⟨b, hb⟩ : ∃ b, b = c.regs.esp + UInt32.ofNat (4 * 1) := ⟨_, rfl⟩
  rw [← hb] at hbase
  obtain ⟨pushed, hpushed⟩ : ∃ pushed, pushed = switchWords p := ⟨_, rfl⟩
  have hlength : pushed.length = 11 := by
    rw [hpushed]
    rfl
  have hdown : 4 * pushed.length ≤ b.toNat := by omega
  have htoNat : (b - UInt32.ofNat (4 * pushed.length)).toNat = b.toNat - 4 * pushed.length := sub_ofNat hdown
  obtain ⟨c', hc'⟩ : ∃ c', c' = { c with regs := { c.regs with esp := b } }.pushAll pushed := ⟨_, rfl⟩
  have hmemory : c'.memory = pushWords c.memory b pushed := by
    rw [hc']
    rfl
  have hbottom : c'.regs.esp.toNat + 4 * 11 = b.toNat := by
    rw [hc']
    show (b - UInt32.ofNat (4 * pushed.length)).toNat + _ = _
    omega
  have hword : ∀ i < 11, c'.word i = pushed.getD (10 - i) 0 := by
    intro i hi
    have hbelow := wordsBelow_pushWords (m := c.memory) hdown
    rw [← hmemory] at hbelow
    exact Cpu.word_below hbelow hbottom hlength.ge hi
  have hpopped : c'.regs.esp + UInt32.ofNat (4 * 11) = b :=
    word_eq_iff.mpr ((add_ofNat (by omega)).trans hbottom)
  -- the frame of `iret` lies above what is pushed
  have habove : WordsBelow c'.memory top (hardWords r ++ []) := by
    rw [hmemory, List.append_nil]
    exact h.left.congr fun v hv _ => pushWords_of_ne hdown (by omega)
  obtain ⟨k, hk⟩ : ∃ k : Cpu, k = { c' with cr3 := p.cr3, regs := { c'.regs with
      gs := p.gs, fs := p.fs, es := p.es, ds := p.ds, edi := p.edi, esi := p.esi, ebp := p.ebp, ebx := p.ebx
      edx := p.edx, ecx := p.ecx, eax := p.eax, esp := b } } := ⟨_, rfl⟩
  have hloaded : c.doSwitch p = k.iret := by
    unfold Cpu.doSwitch
    dsimp only
    rw [← hb, ← hpushed, ← hc', hpopped, hword 0 (by decide), hword 1 (by decide), hword 2 (by decide),
      hword 3 (by decide), hword 4 (by decide), hword 5 (by decide), hword 6 (by decide), hword 7 (by decide),
      hword 8 (by decide), hword 9 (by decide), hword 10 (by decide), hpushed, hk]
    simp [switchWords]
  have hresumed : k.iret = { k with regs := { k.regs with
      eip := r.eip, cs := r.cs, eflags := r.eflags, esp := r.esp, ss := r.ss } } := by
    refine @iret_eq k r top [] ?_ ?_ ?_
    · rw [hk]
      exact habove
    · rw [hk]
      dsimp only
      omega
    · rw [hk, hc']
      exact hkernel
  refine ⟨c'.memory, ?_, fun v hv => ?_⟩
  · rw [hloaded, hresumed, hp, hk, hc']
    rfl
  · rw [hmemory]
    exact pushWords_of_ne hdown (by omega)

/-! ## Handlers in C -/

/-- The CPU in a C function that a handler called, with `n` bytes of its variables. -/
structure InHandler (c k : Cpu) (n : Nat) : Prop where
  words : ∃ ws, ws.length = 2 ∧ WordsBelow k.memory c.kernelTop (frameWords c.regs c.kernelTop ++ ws)
  ebp : k.regs.ebp.toNat + 4 * ((frameWords c.regs c.kernelTop).length + 2) = c.kernelTop.toNat
  tss : k.tss = c.tss
  cr3 : k.cr3 = c.cr3
  ss : c.regs.Kernel → k.regs.ss = c.regs.ss
  memory : ∀ v, v < c.kernelTop.toNat - (4 * 19 + n) ∨ c.kernelTop.toNat ≤ v → k.memory v = c.memory v

theorem inHandler (c : Cpu) (ret : UInt32) (n : Nat) (garbage : Bytes) (hroom : 4 * 19 + n ≤ c.kernelTop.toNat) :
    InHandler c ((c.interrupt.saveRegs.call ret).scratch n garbage) n := by
  have hlength := frameWords_length c.regs c.kernelTop
  have hhard := hardWords_length_le c.regs
  obtain ⟨k, hk⟩ : ∃ k, k = c.interrupt.saveRegs := ⟨_, rfl⟩
  have hframe := saveRegs_entered c
  rw [← hk] at hframe ⊢
  have hcall := hframe.pushAll [ret, k.regs.ebp]
  obtain ⟨k', hk'⟩ : ∃ k', k' = k.pushAll [ret, k.regs.ebp] := ⟨_, rfl⟩
  rw [← hk'] at hcall
  have hscratch : (k.call ret).scratch n garbage = { k' with
      regs := { k'.regs with ebp := k'.regs.esp }
      memory := fun v => if k'.regs.esp.toNat - n ≤ v ∧ v < k'.regs.esp.toNat then garbage v else k'.memory v } := by
    rw [hk']
    rfl
  have hlen : (frameWords c.regs c.kernelTop ++ [ret, k.regs.ebp]).length =
      (frameWords c.regs c.kernelTop).length + 2 := List.length_append
  have hesp : k'.regs.esp.toNat = c.kernelTop.toNat - 4 * ((frameWords c.regs c.kernelTop).length + 2) := by
    rw [hcall.esp, hlen, sub_ofNat (by omega)]
  rw [hscratch]
  refine ⟨⟨[ret, k.regs.ebp], rfl, ?_⟩, ?_, hcall.tss, hcall.cr3, hcall.ss, fun v hv => ?_⟩
  · refine (wordsBelow_pushWords (m := c.memory) (by omega)).congr fun v hv _ => ?_
    rw [← hcall.memory]
    exact if_neg (by omega)
  · show k'.regs.esp.toNat + _ = _
    omega
  · show (if k'.regs.esp.toNat - n ≤ v ∧ v < k'.regs.esp.toNat then garbage v else k'.memory v) = _
    rw [if_neg (by omega), hcall.memory]
    exact pushWords_of_ne (by omega) (by omega)

/-- **The handler returns**, and nothing has happened to the registers. -/
theorem InHandler.returns {k : Cpu} (h : InHandler c k n) : k.leave.restoreRegs.iret = { k with regs := c.regs } := by
  obtain ⟨ws, -, hwords⟩ := h.words
  have htop := word_lt c.kernelTop
  have hebp := h.ebp
  have hesp : k.leave.regs.esp.toNat + 4 * (frameWords c.regs c.kernelTop).length = c.kernelTop.toNat := by
    show (k.regs.ebp + UInt32.ofNat (4 * 2)).toNat + _ = _
    rw [add_ofNat (by omega)]
    omega
  exact restoreRegs_iret (c := k.leave) hwords.left hesp fun hk => ⟨h.ss hk, if_pos hk⟩

end

end Desiros.Proc
