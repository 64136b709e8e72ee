import Desiros.Library.Runs
import Desiros.Proc.Cpu
import Desiros.Proc.RoundRobin

/-!
# Processes as CPUs (`schedule.c`, `interrupt.c`)

Every process has a CPU of its own: whatever the clock interrupts, in a program or in a system call, and whichever
processes run in between, a process goes on with the registers it had and with its kernel stack as it was
(`processes_are_cpus`). The registers are saved from the frame of the interrupt, and `switch_to_task` sets `IF` and
clears `NT` in the flags it loads. The switches are those of the clock and of `sys_exit`; the kernel stacks of the
processes do not overlap, and an interrupt finds room on each of them.
-/

namespace Desiros.Proc

open Desiros.Library

/-! ## The code -/

structure Machine where
  cpu : Cpu
  sched : Sched
  /-- `p_list[i].regs` and `p_list[i].kstack` -/
  regs : Nat → SavedRegs
  kstack : Nat → Tss
  tic : Nat

/-- What the compiler and the linker decide. -/
structure CodeLayout where
  /-- Where `_asm_irq_0` goes on behind `call isr_clock_int`. -/
  returnAddress : UInt32
  processAddress : Nat → UInt32
  /-- The bytes of stack that `isr_clock_int` and `schedule` use behind the frame. -/
  stackBytes : Nat

section

variable (L : CodeLayout)

/-- `switch_to_task`; the mode is `USERMODE` or `KERNELMODE`. -/
def Machine.switchToTask (m : Machine) (n : Nat) (user : Bool) : Machine :=
  let p := m.regs n
  let k := m.kstack n
  let eflags := (p.eflags ||| 0x200) &&& 0xFFFFBFFF
  let c : Cpu := { m.cpu with tss := k, regs := { m.cpu.regs with
    ss := if user then k.ss0 else p.ss
    esp := if user then k.esp0 else p.esp } }
  let c := c.pushAll ((if user then [p.ss.toUInt32, p.esp] else []) ++ [eflags, p.cs.toUInt32, p.eip] ++
    [L.processAddress n])
  { m with sched := Proc.switchToTask m.sched n, cpu := c.doSwitch p }

/-- `schedule` saves the registers of the current process from `stack_ptr` on, and the TSS. -/
def Machine.save (m : Machine) : Machine :=
  let w i := wordAt m.cpu.memory (m.cpu.regs.ebp + UInt32.ofNat (4 * i))
  let cs := (w 15).toUInt16
  let p : SavedRegs := { m.regs m.sched.current with
    eflags := w 16, cs := cs, eip := w 14, eax := w 13, ecx := w 12, edx := w 11, ebx := w 10, ebp := w 8
    esi := w 7, edi := w 6, ds := (w 5).toUInt16, es := (w 4).toUInt16, fs := (w 3).toUInt16, gs := (w 2).toUInt16
    esp := if cs ≠ 0x08 then w 17 else w 9 + 12
    ss := if cs ≠ 0x08 then (w 18).toUInt16 else m.cpu.tss.ss0 }
  { m with
    regs := Function.update m.regs m.sched.current p
    kstack := Function.update m.kstack m.sched.current m.cpu.tss }

/-- The handler returns to the interrupted code. -/
def Machine.returns (m : Machine) : Machine := { m with cpu := m.cpu.leave.restoreRegs.iret }

/-- `schedule`, called by the handler of the clock. -/
def Machine.schedule (m : Machine) : Machine :=
  let m := { m with sched := m.sched.setState m.sched.current .ready }
  if m.sched.staysOnCpu then m.returns
  else
    let m := m.save
    let newpid := scheduleSearch m.sched
    m.switchToTask L newpid ((m.regs newpid).cs != 0x08)

/-- An interrupt of the clock: `_asm_irq_0` and `isr_clock_int`. -/
def Machine.clockInterrupt (m : Machine) (garbage : Bytes) : Machine :=
  let c := (m.cpu.interrupt.saveRegs.call L.returnAddress).scratch L.stackBytes garbage
  let m := { m with cpu := c, tic := m.tic + 1 }
  if m.tic % 100 = 0 then { m with tic := 0 }.schedule L else m.returns

/-- The registers that `sys_exec` gives to a new process. -/
def execRegs (startUaddr ustack pd : UInt32) : SavedRegs where
  eax := 0
  ecx := 0
  edx := 0
  ebx := 0
  esp := ustack
  ebp := 0
  esi := 0
  edi := 0
  eip := startUaddr
  eflags := 0
  cs := 0x23
  ss := 0x33
  ds := 0x2B
  es := 0x2B
  fs := 0x2B
  gs := 0x2B
  cr3 := pd

/-- `p_list[pid].kstack` of a new process. -/
def execStackTss (kstack : UInt32) : Tss := ⟨kstack + 4096, 0x18⟩

/-- What happens on the CPU. -/
inductive CpuOp where
  /-- The clock interrupts. -/
  | tick (garbage : Bytes)
  /-- The process on the CPU runs, in its program or in the kernel. -/
  | exec (regs : Regs) (memory : Bytes)
  | sysExec (pid : Nat) (startUaddr ustack pd kstack : UInt32)
  /-- `do_syscalls` goes back to the address space of the process behind `sys_exec`. -/
  | reloadCr3
  | sysExit

def Machine.step (m : Machine) : CpuOp → Machine
  | .tick garbage => m.clockInterrupt L garbage
  | .exec regs memory => { m with cpu := { m.cpu with regs := regs, memory := memory } }
  | .sysExec pid startUaddr ustack pd kstack =>
    { m with
      cpu := { m.cpu with cr3 := pd }
      sched := { m.sched.setState pid .ready with numProc := m.sched.numProc + 1 }
      regs := Function.update m.regs pid (execRegs startUaddr ustack pd)
      kstack := Function.update m.kstack pid (execStackTss kstack) }
  | .reloadCr3 => { m with cpu := { m.cpu with cr3 := (m.regs m.sched.current).cr3 } }
  | .sysExit => { m with sched := m.sched.setState m.sched.current .stopped }.switchToTask L 0 false

end

/-! ## A CPU for each process -/

/-- The flags that `switch_to_task` loads. -/
def Regs.resumed (r : Regs) : Regs := { r with eflags := (r.eflags ||| 0x200) &&& 0xFFFFBFFF }

structure Processes where
  sched : Sched
  regs : Nat → Regs
  /-- The kernel stacks: what they hold, and where they lie. -/
  stack : Nat → Bytes
  region : Nat → Nat × Nat
  tss : Nat → Tss
  pd : Nat → UInt32
  cr3 : UInt32
  tic : Nat

/-- The process that has just got the CPU goes on in its address space. -/
def Processes.resume (s : Processes) : Processes :=
  { s with
    regs := Function.update s.regs s.sched.current (s.regs s.sched.current).resumed
    cr3 := s.pd s.sched.current }

def Processes.step (s : Processes) : CpuOp → Processes
  | .tick _ =>
    if (s.tic + 1) % 100 = 0 then
      let s' := { s with sched := scheduleCall s.sched, tic := 0 }
      if (s.sched.setState s.sched.current .ready).staysOnCpu then s' else s'.resume
    else { s with tic := s.tic + 1 }
  | .exec regs memory =>
    { s with
      regs := Function.update s.regs s.sched.current regs
      stack := Function.update s.stack s.sched.current memory }
  | .sysExec pid startUaddr ustack pd kstack =>
    { s with
      cr3 := pd
      sched := { s.sched.setState pid .ready with numProc := s.sched.numProc + 1 }
      regs := Function.update s.regs pid (execRegs startUaddr ustack pd).toRegs
      region := Function.update s.region pid (kstack.toNat, kstack.toNat + 4096)
      tss := Function.update s.tss pid (execStackTss kstack)
      pd := Function.update s.pd pid pd }
  | .reloadCr3 => { s with cr3 := s.pd s.sched.current }
  | .sysExit => { s with sched := switchToTask (s.sched.setState s.sched.current .stopped) 0 }.resume

/-- The kernel task, and the slots that are in use. -/
def Processes.Alive (s : Processes) (p : Nat) : Prop := p = 0 ∨ s.sched.state p ≠ .stopped

/-- What a process in the kernel has on its stack. -/
def Processes.Live (s : Processes) (p v : Nat) : Prop :=
  (s.regs p).Kernel ∧ (s.regs p).esp.toNat ≤ v ∧ v < (s.region p).2

/-- Where the kernel goes on with the stack of a process. -/
def stackTop (r : Regs) (tss : Tss) : UInt32 := if r.Kernel then r.esp else tss.esp0

section

variable (L : CodeLayout)

/-- The selectors of the kernel, and room for an interrupt on the stack. -/
structure StackOk (region : Nat × Nat) (tss : Tss) (r : Regs) : Prop where
  kernel : r.Kernel → r.cs = 0x08 ∧ r.ss = tss.ss0
  room : region.1 + (4 * 19 + L.stackBytes) ≤ (stackTop r tss).toNat
  within : (stackTop r tss).toNat ≤ region.2

structure StacksOk (memory : Bytes) (s : Processes) : Prop where
  ok : ∀ p, s.Alive p → StackOk L (s.region p) (s.tss p) (s.regs p)
  apart : ∀ p q, s.Alive p → s.Alive q → p ≠ q → (s.region p).2 ≤ (s.region q).1 ∨ (s.region q).2 ≤ (s.region p).1
  live : ∀ p, s.Alive p → ∀ v, s.Live p v → memory v = s.stack p v

/-- The CPU is that of the current process, and the others are in the process table. -/
structure ShowsProcesses (m : Machine) (s : Processes) : Prop where
  sched : m.sched = s.sched
  tic : m.tic = s.tic
  cr3 : m.cpu.cr3 = s.cr3
  alive : s.Alive s.sched.current
  cpu : m.cpu.regs = s.regs s.sched.current
  tss : m.cpu.tss = s.tss s.sched.current
  pd : (m.regs s.sched.current).cr3 = s.pd s.sched.current
  saved : ∀ p, s.Alive p → p ≠ s.sched.current → m.regs p = ⟨s.regs p, s.pd p⟩ ∧ m.kstack p = s.tss p
  kernelStacks : StacksOk L m.cpu.memory s

/-- A process stays on its own stack, a new one gets a slot and a page that nobody has, and the kernel task does not
exit. -/
def CpuOpOk (s : Processes) : CpuOp → Prop
  | .tick _ => True
  | .exec regs memory =>
    StackOk L (s.region s.sched.current) (s.tss s.sched.current) regs ∧
      ∀ p, s.Alive p → p ≠ s.sched.current → ∀ v, s.Live p v → memory v = s.stack p v
  | .sysExec pid _ _ _ kstack =>
    ¬ s.Alive pid ∧ 4 * 19 + L.stackBytes ≤ 4096 ∧ kstack.toNat + 4096 < 4294967296 ∧
      ∀ p, s.Alive p → (s.region p).2 ≤ kstack.toNat ∨ kstack.toNat + 4096 ≤ (s.region p).1
  | .reloadCr3 => True
  | .sysExit => s.sched.current ≠ 0 ∧ (s.regs 0).Kernel

end

section

variable {L : CodeLayout} {m : Machine} {s s' : Processes} {memory memory' : Bytes} {c k : Cpu} {p n : Nat}

/-! ## The kernel stacks -/

/-- Code that stays below the stack pointer of a process, on its stack. -/
theorem StacksOk.writes (h : StacksOk L memory s) (hp : s.Alive p)
    (hsame : ∀ v, v < (s.region p).1 ∨ (stackTop (s.regs p) (s.tss p)).toNat ≤ v → memory' v = memory v) :
    StacksOk L memory' s := by
  refine ⟨h.ok, h.apart, fun q hq v hv => ?_⟩
  rw [← h.live q hq v hv]
  apply hsame
  obtain ⟨hkernel, hesp, hend⟩ := hv
  have htop : stackTop (s.regs q) (s.tss q) = (s.regs q).esp := if_pos hkernel
  by_cases hqp : q = p
  · subst hqp
    rw [htop]
    exact .inr hesp
  · have hroom := (h.ok q hq).room
    have hwithin := (h.ok p hp).within
    have hapart := h.apart q p hq hp hqp
    rw [htop] at hroom
    omega

theorem StacksOk.same (h : StacksOk L memory s) (hregion : s'.region = s.region) (htss : s'.tss = s.tss)
    (hstack : s'.stack = s.stack) (halive : ∀ q, s'.Alive q → s.Alive q)
    (hregs : ∀ q, s'.regs q = s.regs q ∨ s'.regs q = (s.regs q).resumed) : StacksOk L memory s' := by
  refine ⟨fun q hq => ?_, fun q q' hq hq' hne => ?_, fun q hq v hv => ?_⟩
  · have hok := h.ok q (halive q hq)
    rw [hregion, htss]
    rcases hregs q with heq | heq <;> rw [heq]
    · exact hok
    · exact ⟨hok.kernel, hok.room, hok.within⟩
  · rw [hregion]
    exact h.apart q q' (halive q hq) (halive q' hq') hne
  · rw [hstack]
    apply h.live q (halive q hq)
    unfold Processes.Live at hv ⊢
    rw [hregion] at hv
    rcases hregs q with heq | heq <;> rw [heq] at hv
    · exact hv
    · exact hv

/-! ## Giving the CPU to a process -/

/-- Nobody is on the CPU. -/
structure AtRest (L : CodeLayout) (m : Machine) (s : Processes) : Prop where
  sched : m.sched = s.sched
  tic : m.tic = s.tic
  saved : ∀ p, s.Alive p → m.regs p = ⟨s.regs p, s.pd p⟩ ∧ m.kstack p = s.tss p
  kernelStacks : StacksOk L m.cpu.memory s

theorem hardWords_resumed (r : Regs) {user : Bool} (huser : user = true ↔ ¬ r.Kernel) : hardWords r.resumed =
    (if user then [r.ss.toUInt32, r.esp] else []) ++ [r.resumed.eflags, r.cs.toUInt32, r.eip] := by
  cases user with
  | true => exact hardWords_user (r := r.resumed) (huser.mp rfl)
  | false => exact hardWords_kernel (r := r.resumed) (not_not.mp fun hk => absurd (huser.mpr hk) Bool.false_ne_true)

/-- What `switch_to_task` leaves, for a process with room on its stack. -/
theorem switchToTask_eq (L : CodeLayout) (m : Machine) {r : Regs} {tss : Tss} {pd : UInt32}
    (hregs : m.regs n = ⟨r, pd⟩) (hkstack : m.kstack n = tss) {user : Bool} (huser : user = true ↔ ¬ r.Kernel)
    (hroom : 4 * 19 ≤ (stackTop r tss).toNat) :
    ∃ memory', m.switchToTask L n user =
        { m with sched := Proc.switchToTask m.sched n, cpu := ⟨r.resumed, pd, tss, memory'⟩ } ∧
      ∀ v, v < (stackTop r tss).toNat - 4 * 19 ∨ (stackTop r tss).toNat ≤ v → memory' v = m.cpu.memory v := by
  obtain ⟨top, htop⟩ : ∃ top, top = stackTop r tss := ⟨_, rfl⟩
  rw [← htop] at hroom ⊢
  have hstart : (if user then tss.esp0 else r.esp) = top := by
    rw [htop]
    unfold stackTop
    by_cases hk : r.Kernel
    · rw [if_pos hk, if_neg fun hu => huser.mp hu hk]
    · rw [if_neg hk, if_pos (huser.mpr hk)]
  have hlength := hardWords_length_le r.resumed
  obtain ⟨ws, hws⟩ : ∃ ws, ws = hardWords r.resumed ++ [L.processAddress n] := ⟨_, rfl⟩
  have hpushed : ws.length = (hardWords r.resumed).length + 1 := by
    rw [hws]
    exact List.length_append
  -- the stack of the process with what `iret` takes from it
  obtain ⟨c, hc⟩ : ∃ c : Cpu, c = Cpu.pushAll { m.cpu with tss := tss, regs := { m.cpu.regs with
      ss := if user then tss.ss0 else r.ss, esp := top } } ws := ⟨_, rfl⟩
  have hmemory : c.memory = pushWords m.cpu.memory top ws := by
    rw [hc]
    rfl
  have hesp : c.regs.esp.toNat + 4 * ((hardWords r.resumed).length + 1) = top.toNat := by
    rw [hc]
    show (top - UInt32.ofNat (4 * ws.length)).toNat + _ = _
    rw [hpushed, sub_ofNat (by omega)]
    omega
  have hbelow : WordsBelow c.memory top (hardWords r.resumed ++ [L.processAddress n]) := by
    rw [hmemory, ← hws]
    exact wordsBelow_pushWords (by omega)
  have hkernel : r.resumed.Kernel → c.regs.ss = r.ss ∧ top = r.esp := by
    intro hk
    have hno : ¬ user = true := fun hu => huser.mp hu hk
    rw [hc]
    exact ⟨if_neg hno, htop.trans (if_pos hk)⟩
  obtain ⟨memory', hdo, hsame⟩ := doSwitch_eq (p := ⟨r, pd⟩) hbelow rfl hesp (by omega) hkernel
  refine ⟨memory', ?_, fun v hv => ?_⟩
  · have hswitch : m.switchToTask L n user =
        { m with sched := Proc.switchToTask m.sched n, cpu := c.doSwitch ⟨r, pd⟩ } := by
      unfold Machine.switchToTask
      dsimp only
      rw [hregs, hkstack, hc, hws, hardWords_resumed r huser, ← hstart]
      rfl
    rw [hswitch, hdo, hc]
    rfl
  · rw [hsame v (by omega), hmemory]
    exact pushWords_of_ne (by omega) (by omega)

/-- **`switch_to_task` puts a process on the CPU.** -/
theorem AtRest.switchToTask (h : AtRest L m s) (hn : s.Alive n) {user : Bool}
    (huser : user = true ↔ ¬ (s.regs n).Kernel) :
    ShowsProcesses L (m.switchToTask L n user) { s with sched := Proc.switchToTask s.sched n }.resume := by
  obtain ⟨hregs, hkstack⟩ := h.saved n hn
  obtain ⟨-, hroom, hwithin⟩ := h.kernelStacks.ok n hn
  obtain ⟨memory', hswitch, hsame⟩ := switchToTask_eq L m hregs hkstack huser (by omega)
  have hwritten : StacksOk L memory' s :=
    h.kernelStacks.writes hn fun v hv => hsame v (by omega)
  have halive : ∀ q, Processes.Alive { s with sched := Proc.switchToTask s.sched n }.resume q → s.Alive q := by
    intro q hq
    by_cases hqn : q = n
    · rw [hqn]
      exact hn
    · refine hq.imp_right fun hne => ?_
      rw [← switchToTask_of_ne (s := s.sched) hqn]
      exact hne
  rw [hswitch]
  refine ⟨by rw [h.sched]; rfl, h.tic, rfl, .inr ?_, ?_, rfl, congrArg SavedRegs.cr3 hregs, fun q hq hne => ?_, ?_⟩
  · show (Proc.switchToTask s.sched n).state n ≠ .stopped
    rw [switchToTask_self]
    decide
  · exact (Function.update_self n _ s.regs).symm
  · have hqn : q ≠ n := hne
    show m.regs q = ⟨Function.update s.regs n _ q, s.pd q⟩ ∧ m.kstack q = s.tss q
    rw [Function.update_of_ne hqn]
    exact h.saved q (halive q hq)
  · refine hwritten.same rfl rfl rfl halive fun q => ?_
    show Function.update s.regs n (s.regs n).resumed q = s.regs q ∨ _
    by_cases hqn : q = n
    · rw [hqn]
      exact .inr (Function.update_self _ _ _)
    · exact .inl (Function.update_of_ne hqn _ _)

/-! ## The handler of the clock -/

/-- `schedule` saves the registers that the clock interrupted. -/
theorem InHandler.saved (h : InHandler c k n) (hcpu : m.cpu = k)
    (hkernel : c.regs.Kernel → c.regs.cs = 0x08 ∧ c.regs.ss = c.tss.ss0) :
    m.save = { m with
      regs := Function.update m.regs m.sched.current ⟨c.regs, (m.regs m.sched.current).cr3⟩
      kstack := Function.update m.kstack m.sched.current c.tss } := by
  obtain ⟨ws, hws, hwords⟩ := h.words
  have hlength := frameWords_length c.regs c.kernelTop
  have hall : (frameWords c.regs c.kernelTop ++ ws).length = (frameWords c.regs c.kernelTop).length + 2 := by
    rw [List.length_append, hws]
  obtain ⟨w, hw⟩ : ∃ w : Nat → UInt32, w = fun i => wordAt k.memory (k.regs.ebp + UInt32.ofNat (4 * i)) := ⟨_, rfl⟩
  -- the frame starts two words above `stack_ptr`
  have hword : ∀ i < (frameWords c.regs c.kernelTop).length, w (i + 2) =
      (frameWords c.regs c.kernelTop).getD ((frameWords c.regs c.kernelTop).length - 1 - i) 0 := by
    intro i hi
    rw [hw]
    show wordAt k.memory _ = _
    rw [hwords.word h.ebp hall.ge (show i + 2 < (frameWords c.regs c.kernelTop).length + 2 by omega),
      List.getD_append _ _ _ _ (by omega)]
    congr 1
    omega
  have hsave : m.save = { m with
      regs := Function.update m.regs m.sched.current { m.regs m.sched.current with
        eflags := w 16, cs := (w 15).toUInt16, eip := w 14, eax := w 13, ecx := w 12, edx := w 11, ebx := w 10
        ebp := w 8, esi := w 7, edi := w 6, ds := (w 5).toUInt16, es := (w 4).toUInt16, fs := (w 3).toUInt16
        gs := (w 2).toUInt16, esp := if (w 15).toUInt16 ≠ 0x08 then w 17 else w 9 + 12
        ss := if (w 15).toUInt16 ≠ 0x08 then (w 18).toUInt16 else k.tss.ss0 }
      kstack := Function.update m.kstack m.sched.current k.tss } := by
    rw [hw, ← hcpu]
    rfl
  rw [hsave, h.tss]
  congr 2
  have hsaved : ∀ i < 12, w (i + 2) =
      (savedWords c.regs (c.kernelTop - UInt32.ofNat (4 * (hardWords c.regs).length))).getD (11 - i) 0 := fun i hi => by
    rw [hword i (by omega), frameWords_saved _ _ hi]
  have hhard : ∀ i < (hardWords c.regs).length, w (i + 14) =
      (hardWords c.regs).getD ((hardWords c.regs).length - 1 - i) 0 := fun i hi => by
    rw [show i + 14 = i + 12 + 2 from rfl, hword _ (by omega), frameWords_hard _ _ hi]
  rw [hsaved 0 (by decide), hsaved 1 (by decide), hsaved 2 (by decide), hsaved 3 (by decide), hsaved 4 (by decide),
    hsaved 5 (by decide), hsaved 6 (by decide), hsaved 7 (by decide), hsaved 8 (by decide), hsaved 9 (by decide),
    hsaved 10 (by decide), hsaved 11 (by decide)]
  by_cases hk : c.regs.Kernel
  · obtain ⟨hcs, hss⟩ := hkernel hk
    have hlen : (hardWords c.regs).length = 3 := congrArg List.length (hardWords_kernel hk)
    rw [hlen, hardWords_kernel hk] at hhard
    have hesp : c.kernelTop - UInt32.ofNat (4 * 3) + 12 = c.regs.esp := by
      rw [Cpu.kernelTop, if_pos hk]
      exact sub_add_cancel _ _
    have hcode : (w 15).toUInt16 = c.regs.cs := by
      rw [hhard 1 (by decide)]
      exact UInt16.toUInt16_toUInt32 _
    have heip : w 14 = c.regs.eip := hhard 0 (by decide)
    have hflags : w 16 = c.regs.eflags := hhard 2 (by decide)
    rw [hlen, hcode, heip, hflags, if_neg (not_not.mpr hcs), if_neg (not_not.mpr hcs), ← hss]
    simp only [savedWords, Nat.reduceSub, List.getD_cons_succ, List.getD_cons_zero, UInt16.toUInt16_toUInt32, hesp]
  · have hlen : (hardWords c.regs).length = 5 := congrArg List.length (hardWords_user hk)
    rw [hlen, hardWords_user hk] at hhard
    have hcode : (w 15).toUInt16 = c.regs.cs := by
      rw [hhard 1 (by decide)]
      exact UInt16.toUInt16_toUInt32 _
    have hcs : c.regs.cs ≠ 0x08 := by
      intro heq
      apply hk
      unfold Regs.Kernel
      rw [heq]
      rfl
    have heip : w 14 = c.regs.eip := hhard 0 (by decide)
    have hflags : w 16 = c.regs.eflags := hhard 2 (by decide)
    have hesp : w 17 = c.regs.esp := hhard 3 (by decide)
    have hss : w 18 = c.regs.ss.toUInt32 := hhard 4 (by decide)
    rw [hcode, heip, hflags, if_pos hcs, if_pos hcs, hesp, hss]
    simp only [savedWords, Nat.reduceSub, List.getD_cons_succ, List.getD_cons_zero, UInt16.toUInt16_toUInt32]

theorem ShowsProcesses.kernelTop_eq (h : ShowsProcesses L m s) :
    m.cpu.kernelTop = stackTop (s.regs s.sched.current) (s.tss s.sched.current) := by
  rw [← h.cpu, ← h.tss]
  rfl

/-- The handler stays on the stack of the process that it interrupts. -/
theorem ShowsProcesses.entered (h : ShowsProcesses L m s) (garbage : Bytes) :
    ∃ k, (m.cpu.interrupt.saveRegs.call L.returnAddress).scratch L.stackBytes garbage = k ∧
      InHandler m.cpu k L.stackBytes ∧ StacksOk L k.memory s := by
  obtain ⟨-, hroom, hwithin⟩ := h.kernelStacks.ok _ h.alive
  rw [← h.kernelTop_eq] at hroom hwithin
  have hhandler := inHandler m.cpu L.returnAddress L.stackBytes garbage (by omega)
  refine ⟨_, rfl, hhandler, h.kernelStacks.writes h.alive fun v hv => hhandler.memory v ?_⟩
  rw [← h.kernelTop_eq] at hv
  omega

/-- The handler returns to the process, whose state may be another one. -/
theorem ShowsProcesses.returns (h : ShowsProcesses L m s) (hk : InHandler m.cpu k n) (hstacks : StacksOk L k.memory s)
    (sched : Sched) (tic : Nat) (hcurrent : sched.current = s.sched.current)
    (halive : ∀ q, (q = 0 ∨ sched.state q ≠ .stopped) ↔ s.Alive q) :
    ShowsProcesses L { m with cpu := k, sched := sched, tic := tic }.returns
      { s with sched := sched, tic := tic } := by
  have hreturned : { m with cpu := k, sched := sched, tic := tic }.returns =
      { m with cpu := { k with regs := m.cpu.regs }, sched := sched, tic := tic } := by
    unfold Machine.returns
    dsimp only
    rw [hk.returns]
  rw [hreturned]
  refine ⟨rfl, rfl, hk.cr3.trans h.cr3, (halive _).mpr (hcurrent ▸ h.alive), ?_, ?_, ?_, fun q hq hne => ?_, ?_⟩
  · show m.cpu.regs = s.regs sched.current
    rw [hcurrent]
    exact h.cpu
  · show k.tss = s.tss sched.current
    rw [hcurrent, hk.tss]
    exact h.tss
  · show (m.regs sched.current).cr3 = s.pd sched.current
    rw [hcurrent]
    exact h.pd
  · exact h.saved q ((halive q).mp hq) fun heq => hne (heq.trans hcurrent.symm)
  · exact hstacks.same rfl rfl rfl (fun q hq => (halive q).mp hq) fun _ => .inl rfl

/-- `schedule` puts the process back into the table. -/
theorem ShowsProcesses.atRest (h : ShowsProcesses L m s) (hk : InHandler m.cpu k n) (hstacks : StacksOk L k.memory s)
    (sched : Sched) (tic : Nat) (hcurrent : sched.current = s.sched.current)
    (halive : ∀ q, (q = 0 ∨ sched.state q ≠ .stopped) ↔ s.Alive q) :
    AtRest L { m with cpu := k, sched := sched, tic := tic }.save { s with sched := sched, tic := tic } := by
  have hkernel : m.cpu.regs.Kernel → m.cpu.regs.cs = 0x08 ∧ m.cpu.regs.ss = m.cpu.tss.ss0 := by
    rw [h.cpu, h.tss]
    exact (h.kernelStacks.ok _ h.alive).kernel
  have hsaved := hk.saved (m := { m with cpu := k, sched := sched, tic := tic }) rfl hkernel
  dsimp only at hsaved
  rw [hsaved, hcurrent, h.pd, h.cpu, h.tss]
  refine ⟨rfl, rfl, fun q hq => ?_, hstacks.same rfl rfl rfl (fun q hq => (halive q).mp hq) fun _ => .inl rfl⟩
  by_cases hqc : q = s.sched.current
  · subst hqc
    exact ⟨Function.update_self _ _ _, Function.update_self _ _ _⟩
  · have hothers := h.saved q ((halive q).mp hq) hqc
    dsimp only
    rw [Function.update_of_ne hqc, Function.update_of_ne hqc]
    exact hothers

/-- **An interrupt of the clock**: the process goes on, or another one does. -/
theorem ShowsProcesses.tick (h : ShowsProcesses L m s) (garbage : Bytes) :
    ShowsProcesses L (m.clockInterrupt L garbage) (s.step (.tick garbage)) := by
  obtain ⟨k, hentered, hk, hstacks⟩ := h.entered garbage
  have hready : ∀ q, (q = 0 ∨ (s.sched.setState s.sched.current .ready).state q ≠ .stopped) ↔ s.Alive q := by
    intro q
    by_cases hq : q = s.sched.current
    · rw [hq, setState_self]
      exact iff_of_true (.inr (by decide)) h.alive
    · rw [setState_of_ne hq]
      rfl
  unfold Machine.clockInterrupt Processes.step
  dsimp only
  rw [hentered, h.tic]
  by_cases htic : (s.tic + 1) % 100 = 0
  swap
  · rw [if_neg htic, if_neg htic, h.sched]
    exact h.returns hk hstacks s.sched (s.tic + 1) rfl fun _ => Iff.rfl
  rw [if_pos htic, if_pos htic]
  unfold Machine.schedule scheduleCall Proc.schedule
  dsimp only
  rw [h.sched]
  by_cases hstays : (s.sched.setState s.sched.current .ready).staysOnCpu = true
  · rw [if_pos hstays, if_pos hstays, if_pos hstays]
    exact h.returns hk hstacks _ 0 rfl hready
  rw [if_neg hstays, if_neg hstays, if_neg hstays]
  have hrest := h.atRest hk hstacks (s.sched.setState s.sched.current .ready) 0 rfl hready
  obtain ⟨n', hn'⟩ : ∃ n', n' = scheduleSearch (s.sched.setState s.sched.current .ready) := ⟨_, rfl⟩
  have halive : Processes.Alive { s with sched := s.sched.setState s.sched.current .ready, tic := 0 } n' := by
    rcases scheduleSearch_selectable (s.sched.setState s.sched.current .ready) with hzero | ⟨-, hstate⟩
    · exact .inl (hn'.trans hzero)
    · refine .inr ?_
      rw [hn', hstate]
      decide
  obtain ⟨hregs, -⟩ := hrest.saved n' halive
  rw [hrest.sched, ← hn']
  refine hrest.switchToTask halive ?_
  rw [hregs, bne_iff_ne]
  exact ⟨fun hne hkernel => hne ((hrest.kernelStacks.ok n' halive).kernel hkernel).1, fun hno hcs => hno (by
    unfold Regs.Kernel
    rw [show (s.regs n').cs = 0x08 from hcs]
    rfl)⟩

/-! ## The other steps -/

theorem ShowsProcesses.exec (h : ShowsProcesses L m s) {regs : Regs} (hok : CpuOpOk L s (.exec regs memory)) :
    ShowsProcesses L (m.step L (.exec regs memory)) (s.step (.exec regs memory)) := by
  obtain ⟨hstack, hothers⟩ := hok
  refine ⟨h.sched, h.tic, h.cr3, h.alive, (Function.update_self _ _ s.regs).symm, h.tss, h.pd, fun q hq hne => ?_,
    ⟨fun q hq => ?_, h.kernelStacks.apart, fun q hq v hv => ?_⟩⟩
  · have hqc : q ≠ s.sched.current := hne
    show m.regs q = ⟨Function.update s.regs s.sched.current regs q, s.pd q⟩ ∧ _
    rw [Function.update_of_ne hqc]
    exact h.saved q hq hqc
  · show StackOk L (s.region q) (s.tss q) (Function.update s.regs s.sched.current regs q)
    by_cases hqc : q = s.sched.current
    · rw [hqc, Function.update_self]
      exact hstack
    · rw [Function.update_of_ne hqc]
      exact h.kernelStacks.ok q hq
  · show memory v = Function.update s.stack s.sched.current memory q v
    by_cases hqc : q = s.sched.current
    · rw [hqc, Function.update_self]
    · rw [Function.update_of_ne hqc]
      apply hothers q hq hqc
      have hv' : (Function.update s.regs s.sched.current regs q).Kernel ∧
        (Function.update s.regs s.sched.current regs q).esp.toNat ≤ v ∧ v < (s.region q).2 := hv
      rw [Function.update_of_ne hqc] at hv'
      exact hv'

theorem execRegs_user (startUaddr ustack pd : UInt32) : ¬ (execRegs startUaddr ustack pd).toRegs.Kernel := by
  show ¬ (0x23 : UInt16) % 4 = 0
  decide

/-- A new process, in a program, has nothing on its kernel stack. -/
theorem stackOk_new {kstack : UInt32} (hbytes : 4 * 19 + L.stackBytes ≤ 4096)
    (hword : kstack.toNat + 4096 < 4294967296) (startUaddr ustack pd : UInt32) :
    StackOk L (kstack.toNat, kstack.toNat + 4096) (execStackTss kstack) (execRegs startUaddr ustack pd).toRegs := by
  have huser := execRegs_user startUaddr ustack pd
  have htop : (stackTop (execRegs startUaddr ustack pd).toRegs (execStackTss kstack)).toNat = kstack.toNat + 4096 := by
    rw [stackTop, if_neg huser]
    show (kstack + 4096).toNat = _
    rw [word_add, show (4096 : UInt32).toNat = 4096 from rfl]
    omega
  refine ⟨fun hk => absurd hk huser, ?_, ?_⟩
  · rw [htop]
    exact Nat.add_le_add_left hbytes _
  · rw [htop]

/-- A process comes with a stack of its own, on which it has nothing. -/
theorem StacksOk.join (h : StacksOk L memory s) (halive : ∀ q, s'.Alive q → q ≠ p → s.Alive q)
    (hothers : ∀ q, q ≠ p → s'.regs q = s.regs q ∧ s'.region q = s.region q ∧ s'.tss q = s.tss q)
    (hstack : s'.stack = s.stack) (huser : ¬ (s'.regs p).Kernel) (hok : StackOk L (s'.region p) (s'.tss p) (s'.regs p))
    (hapart : ∀ q, s.Alive q → (s.region q).2 ≤ (s'.region p).1 ∨ (s'.region p).2 ≤ (s.region q).1) :
    StacksOk L memory s' := by
  refine ⟨fun q hq => ?_, fun q q' hq hq' hne => ?_, fun q hq v hv => ?_⟩
  · by_cases hqp : q = p
    · rw [hqp]
      exact hok
    · obtain ⟨hr, hg, ht⟩ := hothers q hqp
      rw [hr, hg, ht]
      exact h.ok q (halive q hq hqp)
  · by_cases hqp : q = p
    · have hne' : q' ≠ p := fun heq => hne (hqp.trans heq.symm)
      rw [hqp, (hothers q' hne').2.1]
      exact (hapart q' (halive q' hq' hne')).symm
    · rw [(hothers q hqp).2.1]
      by_cases hqp' : q' = p
      · rw [hqp']
        exact hapart q (halive q hq hqp)
      · rw [(hothers q' hqp').2.1]
        exact h.apart q q' (halive q hq hqp) (halive q' hq' hqp') hne
  · by_cases hqp : q = p
    · exact absurd (hqp ▸ hv.1) huser
    · obtain ⟨hr, hg, -⟩ := hothers q hqp
      rw [hstack]
      apply h.live q (halive q hq hqp)
      unfold Processes.Live at hv ⊢
      rw [hr, hg] at hv
      exact hv

theorem ShowsProcesses.sysExec (h : ShowsProcesses L m s) {pid : Nat} {startUaddr ustack pd kstack : UInt32}
    (hok : CpuOpOk L s (.sysExec pid startUaddr ustack pd kstack)) :
    ShowsProcesses L (m.step L (.sysExec pid startUaddr ustack pd kstack))
      (s.step (.sysExec pid startUaddr ustack pd kstack)) := by
  obtain ⟨hdead, hbytes, hword, hapart⟩ := hok
  have hcurrent : s.sched.current ≠ pid := fun heq => hdead (heq ▸ h.alive)
  obtain ⟨s', hs'⟩ : ∃ s', s' = s.step (.sysExec pid startUaddr ustack pd kstack) := ⟨_, rfl⟩
  have halive : ∀ q, q ≠ pid → (s'.Alive q ↔ s.Alive q) := by
    intro q hne
    rw [hs']
    show q = 0 ∨ (s.sched.setState pid .ready).state q ≠ .stopped ↔ _
    rw [setState_of_ne hne]
    rfl
  -- what the others have is as before
  have hothers : ∀ q, q ≠ pid → s'.regs q = s.regs q ∧ s'.region q = s.region q ∧ s'.tss q = s.tss q ∧
      s'.pd q = s.pd q := by
    intro q hne
    rw [hs']
    exact ⟨Function.update_of_ne hne _ _, Function.update_of_ne hne _ _, Function.update_of_ne hne _ _,
      Function.update_of_ne hne _ _⟩
  have hnew : s'.regs pid = (execRegs startUaddr ustack pd).toRegs ∧
      s'.region pid = (kstack.toNat, kstack.toNat + 4096) ∧ s'.tss pid = execStackTss kstack ∧ s'.pd pid = pd := by
    rw [hs']
    exact ⟨Function.update_self _ _ _, Function.update_self _ _ _, Function.update_self _ _ _,
      Function.update_self _ _ _⟩
  have hnow : s'.sched.current = s.sched.current := by
    rw [hs']
    rfl
  have hstack : s'.stack = s.stack := by
    rw [hs']
    rfl
  obtain ⟨hregs, -, htss, hpd⟩ := hothers _ hcurrent
  have hstays : s'.Alive s.sched.current := (halive _ hcurrent).mpr h.alive
  rw [← hs']
  have hsched : (m.step L (.sysExec pid startUaddr ustack pd kstack)).sched = s'.sched := by
    rw [hs']
    show ({ m.sched.setState pid .ready with numProc := m.sched.numProc + 1 } : Sched) = _
    rw [h.sched]
    rfl
  refine ⟨hsched, by rw [hs']; exact h.tic, by rw [hs']; rfl, by rw [hnow]; exact hstays,
    by rw [hnow, hregs]; exact h.cpu, by rw [hnow, htss]; exact h.tss, ?_, fun q hq hne => ?_, ?_⟩
  · rw [hnow, hpd]
    show (Function.update m.regs pid _ s.sched.current).cr3 = _
    rw [Function.update_of_ne hcurrent]
    exact h.pd
  · rw [hnow] at hne
    show Function.update m.regs pid _ q = _ ∧ Function.update m.kstack pid _ q = _
    by_cases hqp : q = pid
    · rw [hqp, hnew.1, hnew.2.2.1, hnew.2.2.2, Function.update_self, Function.update_self]
      exact ⟨rfl, rfl⟩
    · obtain ⟨hr, -, ht, hp⟩ := hothers q hqp
      rw [hr, ht, hp, Function.update_of_ne hqp, Function.update_of_ne hqp]
      exact h.saved q ((halive q hqp).mp hq) hne
  · refine h.kernelStacks.join (fun q hq hqp => (halive q hqp).mp hq)
      (fun q hqp => ⟨(hothers q hqp).1, (hothers q hqp).2.1, (hothers q hqp).2.2.1⟩) hstack ?_ ?_ ?_
    · rw [hnew.1]
      exact execRegs_user startUaddr ustack pd
    · rw [hnew.1, hnew.2.1, hnew.2.2.1]
      exact stackOk_new hbytes hword startUaddr ustack pd
    · rw [hnew.2.1]
      exact hapart

theorem ShowsProcesses.sysExit (h : ShowsProcesses L m s) (hok : CpuOpOk L s .sysExit) :
    ShowsProcesses L (m.step L .sysExit) (s.step .sysExit) := by
  obtain ⟨hcurrent, hkernel⟩ := hok
  have halive : ∀ q, (q = 0 ∨ (s.sched.setState s.sched.current .stopped).state q ≠ .stopped) →
      s.Alive q ∧ q ≠ s.sched.current := by
    intro q hq
    by_cases hqc : q = s.sched.current
    · rw [hqc, setState_self] at hq
      rcases hq with hzero | hstate
      · exact absurd hzero hcurrent
      · exact absurd rfl hstate
    · rw [setState_of_ne hqc] at hq
      exact ⟨hq, hqc⟩
  have hrest : AtRest L { m with sched := m.sched.setState m.sched.current .stopped }
      { s with sched := s.sched.setState s.sched.current .stopped } := by
    refine ⟨by rw [h.sched], h.tic, fun q hq => ?_, ?_⟩
    · obtain ⟨hlives, hne⟩ := halive q hq
      exact h.saved q hlives hne
    · exact h.kernelStacks.same rfl rfl rfl (fun q hq => (halive q hq).1) fun _ => .inl rfl
  exact hrest.switchToTask (.inl rfl) (iff_of_false Bool.false_ne_true (not_not.mpr hkernel))

/-- One step. -/
theorem ShowsProcesses.step (h : ShowsProcesses L m s) {op : CpuOp} (hok : CpuOpOk L s op) :
    ShowsProcesses L (m.step L op) (s.step op) := by
  cases op with
  | tick garbage => exact h.tick garbage
  | exec regs memory => exact h.exec hok
  | sysExec pid startUaddr ustack pd kstack => exact h.sysExec hok
  | reloadCr3 =>
    have hcr3 : (m.regs m.sched.current).cr3 = s.pd s.sched.current := by
      rw [h.sched]
      exact h.pd
    exact ⟨h.sched, h.tic, hcr3, h.alive, h.cpu, h.tss, h.pd, h.saved, h.kernelStacks.ok, h.kernelStacks.apart,
      h.kernelStacks.live⟩
  | sysExit => exact h.sysExit hok

end

/-- **Every process has a CPU of its own**: in every run, whatever order the clock, the programs and the system calls
come in, the process on the CPU has the registers that it had when it lost it, with `IF` set and `NT` clear, in its own
address space, and the kernel stack of each process that is in the kernel is as that process left it. -/
theorem processes_are_cpus (L : CodeLayout) (ops : List CpuOp) (m : Machine) (s : Processes)
    (h : ShowsProcesses L m s) (hrun : Guarded Processes.step (CpuOpOk L) s ops) :
    ShowsProcesses L (run (Machine.step L) m ops) (run Processes.step s ops) := by
  induction ops generalizing m s with
  | nil => exact h
  | cons op ops ih => exact ih _ _ (h.step hrun.1) hrun.2

/-! ## The kernel task and a program -/

def smallLayout : CodeLayout := ⟨0x100, fun _ => 0, 64⟩

/-- The kernel task, interrupted with its stack pointer at `0x9000`. -/
def kernelRegs : Regs := ⟨1, 2, 3, 4, 0x9000, 6, 7, 8, 9, 0x202, 0x08, 0x18, 0x10, 0x10, 0x10, 0x10⟩

def bootSched : Sched := ⟨fun p => if p = 0 then .ready else .stopped, 0, 0⟩

def bootMachine : Machine :=
  ⟨⟨kernelRegs, 0x1000, ⟨0, 0x18⟩, fun _ => 0⟩, bootSched, fun _ => ⟨kernelRegs, 0x1000⟩, fun _ => ⟨0, 0x18⟩, 99⟩

def bootProcesses : Processes where
  sched := bootSched
  regs := fun _ => kernelRegs
  stack := fun _ _ => 0
  region := fun _ => (0x8000, 0x9000)
  tss := fun _ => ⟨0, 0x18⟩
  pd := fun _ => 0x1000
  cr3 := 0x1000
  tic := 99

theorem bootProcesses_alive {p : Nat} (h : bootProcesses.Alive p) : p = 0 := by
  by_contra hne
  rcases h with hzero | hstate
  · exact hne hzero
  · exact hstate (if_neg hne)

theorem bootMachine_shows : ShowsProcesses smallLayout bootMachine bootProcesses where
  sched := rfl
  tic := rfl
  cr3 := rfl
  alive := .inl rfl
  cpu := rfl
  tss := rfl
  pd := rfl
  saved := fun p hp hne => absurd (bootProcesses_alive hp) hne
  kernelStacks := by
    refine ⟨fun p _ => ⟨fun _ => ⟨rfl, rfl⟩, ?_, ?_⟩, fun p q hp hq hne => ?_, fun _ _ _ _ => rfl⟩
    · show 0x8000 + (4 * 19 + 64) ≤ (stackTop kernelRegs ⟨0, 0x18⟩).toNat
      decide
    · show (stackTop kernelRegs ⟨0, 0x18⟩).toNat ≤ 0x9000
      decide
    · exact absurd ((bootProcesses_alive hp).trans (bootProcesses_alive hq).symm) hne

/-- A program starts, the clock gives it the CPU, and it exits: the kernel task goes on. -/
theorem bootMachine_goes_on : (run (Machine.step smallLayout) bootMachine
    [.sysExec 1 0x40000000 0x80000000 0x2000 0xA000, .tick fun _ => 7, .sysExit]).cpu.regs = kernelRegs := by
  have hshows := processes_are_cpus smallLayout [.sysExec 1 0x40000000 0x80000000 0x2000 0xA000, .tick fun _ => 7,
    .sysExit] bootMachine bootProcesses bootMachine_shows
      ⟨⟨fun h => absurd (bootProcesses_alive h) (by decide), by decide, by decide, fun p _ =>
        .inl (show 0x9000 ≤ (0xA000 : UInt32).toNat by decide)⟩, trivial,
        ⟨by decide +kernel, by decide +kernel⟩, trivial⟩
  exact hshows.cpu.trans (by decide +kernel)

end Desiros.Proc
