import Desiros.Klibc.Strings
import Desiros.Mem.Arena
import Desiros.Syscall.SystemCalls

/-!
# What programs ask for (`userland/crt.c`, `syscalls.c`)

The functions of `crt.c` pass a request to the kernel: numbers, and the addresses of strings with their lengths.
`doSyscalls` finds the arguments, copies the strings to buffers of `kmalloc` and calls a service. The service is called
with what the program asked for, and the copies have changed nothing of the program (`requests_arrive`); of the type of a
file system there is room for 255 bytes. The buffers lie in kernel space, apart from one another and from the saved
registers.
-/

namespace Desiros.Syscall.Entry

open Desiros.Library Proc Klibc Mem

/-! ## The program -/

/-- A call of a function of `crt.c`. -/
inductive UserCall where
  | exit
  | consoleWrite (str : UInt32)
  | mount (source target filesystemtype mountflags args : UInt32)
  | open (pathname flags : UInt32)
  | read (fd buf len : UInt32)
  | write (fd buf len : UInt32)
  | brk (newTopAddress : UInt32)
  | exec (prog args arglen : UInt32)

/-- `while (*str++) retval++;` -/
def strlenLibcTurn (m : Bytes) : UInt32 × UInt32 → Option (UInt32 × UInt32)
  | (str, retval) => if m str.toNat = 0 then none else some (str + 1, retval + 1)

/-- `strlen` of `libc.c`. -/
def strlenLibc (m : Bytes) (str : UInt32) : Option UInt32 := (loop (strlenLibcTurn m) addressSpace (str, 0)).map (·.2)

/-- `source?strlen(source):0` -/
def sourceLength (m : Bytes) (source : UInt32) : Option UInt32 := if source = 0 then some 0 else strlenLibc m source

/-- The program in front of `int 0x80`; a function that finds a null pointer makes no system call. -/
def crt (c : Cpu) : UserCall → Option Cpu
  | .exit => some (syscall0 c 3)
  | .consoleWrite str => do
    let len ← strlenLibc c.memory str
    some (syscall2 c 2 str len)
  | .mount source target filesystemtype mountflags args =>
    if target = 0 ∨ filesystemtype = 0 then none
    else do
      let srclen ← sourceLength c.memory source
      let targetLen ← strlenLibc c.memory target
      some (syscall7 c 555 source srclen target targetLen filesystemtype mountflags args)
  | .open pathname flags =>
    if pathname = 0 then none
    else do
      let len ← strlenLibc c.memory pathname
      some (syscall3 c 559 pathname len flags)
  | .read fd buf len => some (syscall3 c 561 fd buf len)
  | .write fd buf len => some (syscall3 c 563 fd buf len)
  | .brk newTopAddress => some (syscall1 c 303 newTopAddress)
  | .exec prog args arglen => do
    let len ← strlenLibc c.memory prog
    some (syscall4 c 258 prog len args arglen)

/-! ## The kernel -/

/-- The memory, and how often `kmalloc` was called. -/
structure Heap where
  memory : Bytes
  allocs : Nat

/-- What `do_syscalls` calls. -/
inductive Service where
  | sysExec (str param : UInt32)
  | kprintf (str : UInt32)
  | sysExit
  | vfsMount (src target fstype : UInt32)
  | sysOpen (path openFlags : UInt32)
  | sysWrite (fd buf buflen : UInt32)
  | sysRead (fd buf buflen : UInt32)
  | uvmmBrk (newTopHeap : UInt32)
  | nothing

section

variable (alloc : Nat → UInt32 → UInt32)

def kmalloc (s : Heap) (size : UInt32) : UInt32 × Heap := (alloc s.allocs size, { s with allocs := s.allocs + 1 })

def Heap.strzcpyFromUser (s : Heap) (kernelTo userFrom maxLen : UInt32) : Int × Heap :=
  let (ret, m) := Klibc.strzcpyFromUser s.memory kernelTo userFrom maxLen
  (ret, { s with memory := m })

/-- `while (*ap++) argc++;` -/
def argcTurn (m : Bytes) : UInt32 × UInt32 → Option (UInt32 × UInt32)
  | (ap, argc) => if wordAt m ap = 0 then none else some (ap + 4, argc + 1)

def argcOf (m : Bytes) (srcArgaddr : UInt32) : Option UInt32 :=
  (loop (argcTurn m) addressSpace (srcArgaddr, 0)).map (·.2)

/-- Element `i` of a vector. -/
def element (vector : UInt32) (i : Nat) : UInt32 := vector + UInt32.ofNat (4 * i)

def storeElement (s : Heap) (vector : UInt32) (i : Nat) (w : UInt32) : Heap :=
  { s with memory := storeLe s.memory (element vector i).toNat 4 w.toNat }

/-- The loop that copies the strings, for the next `n` of them. -/
def copyStrings (param srcArgaddr : UInt32) : Nat → Nat → Heap → Option Heap
  | 0, _, s => some s
  | n + 1, i, s => do
    let len ← strlen s.memory (wordAt s.memory (element srcArgaddr i))
    let (buf, s) := kmalloc alloc s (len + 1)
    let s := storeElement s param i buf
    let m ← strcpy s.memory (wordAt s.memory (element param i)) (wordAt s.memory (element srcArgaddr i))
    copyStrings param srcArgaddr n (i + 1) { s with memory := m }

/-- `stray` is what `param` holds before it is set. -/
def copyArgs (stray srcArgaddr : UInt32) (s : Heap) : Option (UInt32 × Heap) := do
  let argc ← argcOf s.memory srcArgaddr
  if argc = 0 then some (stray, s)
  else
    let (param, s) := kmalloc alloc s (4 * (argc + 1))
    let s ← copyStrings alloc param srcArgaddr argc.toNat 0 s
    some (param, storeElement s param argc.toNat 0)

/-- The first copy of `SYSCALL_ID_MOUNT`, whose result is not looked at. -/
def copySource (s : Heap) (userSrc srclen : UInt32) : UInt32 × Heap :=
  if userSrc ≠ 0 then
    let (kernelSrc, s) := kmalloc alloc s (srclen + 1)
    (kernelSrc, (s.strzcpyFromUser kernelSrc userSrc (srclen + 1)).2)
  else (0, s)

/-- The last one, of data that the file systems are not given. -/
def copyData (s : Heap) (userArgs : UInt32) : Int × Heap :=
  if userArgs ≠ 0 then
    let (kernelArgs, s) := kmalloc alloc s 1024
    s.strzcpyFromUser kernelArgs userArgs 1024
  else (0, s)

/-- The service that `do_syscalls` calls, and the memory then. -/
def doSyscalls (stray syscallId userCtxt : UInt32) (s : Heap) : Option (Service × Heap) :=
  if syscallId = 258 then do
    let (userStr, len, srcArgaddr, _) := syscallGet4args s.memory userCtxt
    let (param, s) ← copyArgs alloc stray srcArgaddr s
    let (str, s) := kmalloc alloc s (len + 1)
    if str = 0 then some (.nothing, s)
    else
      let (ret, s) := s.strzcpyFromUser str userStr (len + 1)
      some (if 0 > ret then .nothing else .sysExec str param, s)
  else if syscallId = 2 then
    let (uStr, len) := syscallGet2args s.memory userCtxt
    let (str, s) := kmalloc alloc s (len + 1)
    if str = 0 then some (.nothing, s)
    else
      let (ret, s) := s.strzcpyFromUser str uStr (len + 1)
      some (if 0 > ret then .nothing else .kprintf str, s)
  else if syscallId = 3 then some (.sysExit, s)
  else if syscallId = 555 then
    let (userSrc, srclen, userTarget, targetLen, userFstype, _, userArgs) := syscallGet7args s.memory userCtxt
    let (kernelSrc, s) := copySource alloc s userSrc srclen
    let (kernelTarget, s) := kmalloc alloc s (targetLen + 1)
    let (ret, s) := s.strzcpyFromUser kernelTarget userTarget (targetLen + 1)
    if ret ≠ 0 then some (.nothing, s)
    else
      let (kernelFstype, s) := kmalloc alloc s 256
      let (ret, s) := s.strzcpyFromUser kernelFstype userFstype 256
      if ret ≠ 0 then some (.nothing, s)
      else
        let (ret, s) := copyData alloc s userArgs
        some (if ret ≠ 0 then .nothing else .vfsMount kernelSrc kernelTarget kernelFstype, s)
  else if syscallId = 559 then
    let (userStr, len, openFlags) := syscallGet3args s.memory userCtxt
    let (path, s) := kmalloc alloc s (len + 1)
    let (ret, s) := s.strzcpyFromUser path userStr (len + 1)
    some (if ret ≠ 0 then .nothing else .sysOpen path openFlags, s)
  else if syscallId = 563 then
    let (fd, buf, buflen) := syscallGet3args s.memory userCtxt
    some (.sysWrite fd buf buflen, s)
  else if syscallId = 561 then
    let (fd, buf, buflen) := syscallGet3args s.memory userCtxt
    some (.sysRead fd buf buflen, s)
  else if syscallId = 303 then some (.uvmmBrk (syscallGet1arg s.memory userCtxt), s)
  else some (.nothing, s)

end

/-! ## What is asked for -/

/-- What a program asks for, whatever the addresses. -/
inductive Request where
  | exit
  | print (str : List UInt8)
  | mount (source : Option (List UInt8)) (target fstype : List UInt8) (args : Option (List UInt8))
  | open (path : List UInt8) (flags : UInt32)
  | read (fd buf len : UInt32)
  | write (fd buf len : UInt32)
  | brk (newTopHeap : UInt32)
  | exec (prog : List UInt8) (args : List (List UInt8))

/-- A pointer that may be null. -/
def OrNull (P : UInt32 → List UInt8 → Prop) (a : UInt32) : Option (List UInt8) → Prop
  | none => a = 0
  | some s => a ≠ 0 ∧ P a s

/-- Memory of the program, beside the array of `_syscall7` below the stack pointer. -/
def UserPart (c : Cpu) (lo n : Nat) : Prop :=
  userOffset.toNat ≤ lo ∧ (lo + n + 20 ≤ c.regs.esp.toNat ∨ c.regs.esp.toNat ≤ lo)

def UserString (c : Cpu) (a : UInt32) (s : List UInt8) : Prop :=
  CStringAt c.memory a s ∧ UserPart c a.toNat (s.length + 1)

def UserStrings (c : Cpu) (a : UInt32) (ss : List (List UInt8)) : Prop :=
  ∃ ps, WordsAt c.memory a (ps ++ [0]) ∧ UserPart c a.toNat (4 * (ps ++ [(0 : UInt32)]).length) ∧
    List.Forall₂ (UserString c) ps ss

/-- What a call asks for; a program has at least one argument. -/
def UserCall.Asks (c : Cpu) : UserCall → Request → Prop
  | .exit, .exit => True
  | .consoleWrite str, .print s => UserString c str s
  | .mount source target filesystemtype _ args, .mount src tgt fstype data =>
    OrNull (UserString c) source src ∧ UserString c target tgt ∧ UserString c filesystemtype fstype ∧
      OrNull (UserString c) args data
  | .open pathname flags, .open path flags' => UserString c pathname path ∧ flags = flags'
  | .read fd buf len, .read fd' buf' len' => fd = fd' ∧ buf = buf' ∧ len = len'
  | .write fd buf len, .write fd' buf' len' => fd = fd' ∧ buf = buf' ∧ len = len'
  | .brk newTopAddress, .brk newTopHeap => newTopAddress = newTopHeap
  | .exec prog args _, .exec str argv => UserString c prog str ∧ UserStrings c args argv ∧ argv ≠ []
  | _, _ => False

/-- The service that a request gets. -/
def Service.Serves (m : Bytes) : Service → Request → Prop
  | .sysExit, .exit => True
  | .kprintf str, .print s => CStringAt m str s
  | .vfsMount src target fstype, .mount s t f _ =>
    OrNull (CStringAt m) src s ∧ CStringAt m target t ∧ CStringAt m fstype (f.take 255)
  | .sysOpen path openFlags, .open s flags => CStringAt m path s ∧ openFlags = flags
  | .sysRead fd buf buflen, .read fd' buf' len' => fd = fd' ∧ buf = buf' ∧ buflen = len'
  | .sysWrite fd buf buflen, .write fd' buf' len' => fd = fd' ∧ buf = buf' ∧ buflen = len'
  | .uvmmBrk newTopHeap, .brk newTop => newTopHeap = newTop
  | .sysExec str param, .exec prog args => CStringAt m str prog ∧ CStringsAt m param args
  | _, _ => False

/-- The sizes of the buffers of a request, in the order of the allocations. -/
def Request.sizes : Request → List Nat
  | .print s => [s.length + 1]
  | .mount source target _ args =>
    (source.toList.map fun s => s.length + 1) ++ [target.length + 1, 256] ++ args.toList.map fun _ => 1024
  | .open path _ => [path.length + 1]
  | .exec prog args => 4 * (args.length + 1) :: (args.map fun s => s.length + 1) ++ [prog.length + 1]
  | _ => []

/-! ## Buffers -/

/-- A buffer and its size. -/
abbrev Buffer := UInt32 × Nat

def Buffer.Apart (b b' : Buffer) : Prop := b.1.toNat + b.2 ≤ b'.1.toNat ∨ b'.1.toNat + b'.2 ≤ b.1.toNat

/-- A buffer in kernel space, beside the registers that are saved below `top`. -/
def Buffer.InHeap (top : Nat) (b : Buffer) : Prop :=
  b.1 ≠ 0 ∧ b.1.toNat + b.2 ≤ userOffset.toNat ∧ (b.1.toNat + b.2 + 84 ≤ top ∨ top ≤ b.1.toNat)

/-- `kmalloc` has buffers of these sizes, beside those that are taken. -/
def Room (alloc : Nat → UInt32 → UInt32) (top : Nat) : List Buffer → Nat → List Nat → Prop
  | _, _, [] => True
  | taken, n, size :: sizes =>
    let b : Buffer := (alloc n (UInt32.ofNat size), size)
    b.InHeap top ∧ (∀ b' ∈ taken, b.Apart b') ∧ Room alloc top (b :: taken) (n + 1) sizes

/-- What a copy to a new buffer leaves alone: the program, the saved registers and the other buffers. -/
def Protected (top : Nat) (taken : List Buffer) (v : Nat) : Prop :=
  userOffset.toNat ≤ v ∨ (v < top ∧ top ≤ v + 84) ∨ ∃ b ∈ taken, b.1.toNat ≤ v ∧ v < b.1.toNat + b.2

def Keeps (top : Nat) (taken : List Buffer) (m m' : Bytes) : Prop := ∀ v, Protected top taken v → m' v = m v

/-- A string that a program passes. -/
def Passed (m : Bytes) (a : UInt32) (s : List UInt8) : Prop := userOffset.toNat ≤ a.toNat ∧ CStringAt m a s

section

variable {alloc : Nat → UInt32 → UInt32} {top size : Nat} {taken taken' : List Buffer} {sizes : List Nat} {m m' : Bytes}
  {s s' : Heap} {b vec : Buffer} {a p src stray ret : UInt32} {str : List UInt8} {ss : List (List UInt8)} {ps : List UInt32}

theorem Protected.mono {v : Nat} (h : Protected top taken v) (hsub : taken ⊆ taken') : Protected top taken' v := by
  rcases h with huser | hsaved | ⟨b, hb, hv⟩
  · exact .inl huser
  · exact .inr (.inl hsaved)
  · exact .inr (.inr ⟨b, hsub hb, hv⟩)

theorem Keeps.passed (h : Keeps top taken m m') (hp : Passed m a str) : Passed m' a str :=
  ⟨hp.1, hp.2.congr fun v hv _ => h v (.inl (Nat.le_trans hp.1 hv))⟩

/-- Nothing of a new buffer is in use. -/
theorem Room.fresh (h : Room alloc top taken s.allocs (size :: sizes)) {v : Nat} (hv : Protected top taken v) :
    v < (alloc s.allocs (UInt32.ofNat size)).toNat ∨ (alloc s.allocs (UInt32.ofNat size)).toNat + size ≤ v := by
  obtain ⟨⟨-, hkernel, hsaved⟩, hapart, -⟩ := h
  dsimp only at hkernel hsaved
  rcases hv with huser | hv | ⟨b, hb, hv⟩
  · omega
  · omega
  · have hb' := hapart b hb
    unfold Buffer.Apart at hb'
    dsimp only at hb'
    omega

/-- A string in a buffer that was new, and what there is room for now. -/
structure Copied (alloc : Nat → UInt32 → UInt32) (top : Nat) (taken : List Buffer) (m : Bytes) (s' : Heap) (b : Buffer)
    (str : List UInt8) (sizes : List Nat) : Prop where
  ne : b.1 ≠ 0
  string : CStringAt s'.memory b.1 str
  length : str.length < b.2
  keeps : Keeps top taken m s'.memory
  room : Room alloc top (b :: taken) s'.allocs sizes

theorem Keeps.trans {m'' : Bytes} (h : Keeps top taken m m') (h' : Keeps top taken' m' m'') (hsub : taken ⊆ taken') :
    Keeps top taken m m'' := fun v hv => (h' v (hv.mono hsub)).trans (h v hv)

/-- The string stays in its buffer. -/
theorem Copied.after (h : Copied alloc top taken m s' b str sizes) (hkeeps : Keeps top (b :: taken) s'.memory m') :
    CStringAt m' b.1 str := by
  have hlength := h.length
  exact h.string.congr fun v hv hle => hkeeps v (.inr (.inr ⟨b, List.mem_cons_self, hv, by omega⟩))

/-- What `kmalloc` and `strzcpy_from_user` do with a string of a program. -/
theorem strzcpy_copied (hroom : Room alloc top taken s.allocs (size :: sizes)) (h : Passed s.memory a str) (hpos : 0 < size)
    (hmax : size ≤ 3221225472) : ∃ s', (⟨s.memory, s.allocs + 1⟩ : Heap).strzcpyFromUser
        (alloc s.allocs (UInt32.ofNat size)) a (UInt32.ofNat size) = (0, s') ∧
      Copied alloc top taken s.memory s' (alloc s.allocs (UInt32.ofNat size), size) (str.take (size - 1)) sizes := by
  have hfresh := fun v => hroom.fresh (v := v)
  obtain ⟨⟨hne, hkernel, hsaved⟩, hapart, hrest⟩ := hroom
  have huser : userOffset.toNat = 1073741824 := rfl
  have hsize : (UInt32.ofNat size).toNat = size := UInt32.toNat_ofNat_of_lt' (show size < 4294967296 by omega)
  dsimp only at hne hkernel hsaved
  obtain ⟨m', hcopy, hstring, hframe⟩ := @strzcpyFromUser_eq s.memory (alloc s.allocs (UInt32.ofNat size)) a
    (UInt32.ofNat size) str h.2 (by omega) (word_le_iff.mpr (hsize.trans_le hmax)) (.inl (by have := h.1; omega)) (by omega)
  rw [hsize] at hstring hframe
  refine ⟨⟨m', s.allocs + 1⟩, ?_, hne, hstring, ?_, fun v hv => hframe v (hfresh v hv), hrest⟩
  · unfold Heap.strzcpyFromUser
    dsimp only
    rw [hcopy]
  · rw [List.length_take]
    dsimp only
    omega

/-! ## Loops over strings and vectors -/

theorem strlenLibc_eq (h : CStringAt m a str) : strlenLibc m a = some (UInt32.ofNat str.length) := by
  have hloop := @loop_states _ (strlenLibcTurn m) (fun i => (a + UInt32.ofNat i, UInt32.ofNat i)) str.length addressSpace
    (fun i hi => by
      have hbyte : ¬ m (a + UInt32.ofNat i).toNat = 0 := by
        rw [h.toNat_add (Nat.le_of_lt hi)]
        exact h.byte_ne hi
      refine (if_neg hbyte).trans ?_
      rw [add_ofNat_succ, UInt32.ofNat_add i 1]
      rfl) (by
      have hbyte : m (a + UInt32.ofNat str.length).toNat = 0 := by
        rw [h.toNat_add (Nat.le_refl _)]
        exact h.nul
      exact if_pos hbyte) (by
      have hfits := h.fits
      show str.length < 4294967296
      omega)
  have hstart : (a + UInt32.ofNat 0, UInt32.ofNat 0) = (a, (0 : UInt32)) := by
    rw [show a + UInt32.ofNat 0 = a from UInt32.add_zero a]
    rfl
  rw [hstart] at hloop
  exact congrArg (Option.map (·.2)) hloop

theorem argcOf_eq (h : WordsAt m a (ps ++ [0])) (hps : ∀ p ∈ ps, p ≠ 0) : argcOf m a = some (UInt32.ofNat ps.length) := by
  have hlength : (ps ++ [(0 : UInt32)]).length = ps.length + 1 := List.length_append
  have hloop := @loop_states _ (argcTurn m) (fun i => (element a i, UInt32.ofNat i)) ps.length addressSpace
    (fun i hi => by
      have hword : ¬ wordAt m (element a i) = 0 := by
        rw [element, h.word i (by omega), List.getD_append _ _ _ _ hi, List.getD_eq_getElem _ _ hi]
        exact hps _ (List.getElem_mem hi)
      refine (if_neg hword).trans ?_
      rw [UInt32.ofNat_add i 1, element, element, Nat.mul_add, UInt32.ofNat_add, ← UInt32.add_assoc]
      rfl) (by
      have hword : wordAt m (element a ps.length) = 0 := by
        rw [element, h.word _ (by omega), List.getD_append_right _ _ _ _ (Nat.le_refl _), Nat.sub_self]
        rfl
      exact if_pos hword) (by
      have hfits := h.fits
      show ps.length < 4294967296
      omega)
  have hstart : (element a 0, UInt32.ofNat 0) = (a, (0 : UInt32)) := by
    rw [show element a 0 = a from UInt32.add_zero a]
    rfl
  rw [hstart] at hloop
  exact congrArg (Option.map (·.2)) hloop

/-- A string in a buffer of its own, beside the vector. -/
structure InBuffer (taken : List Buffer) (vec : Buffer) (m : Bytes) (p : UInt32) (str : List UInt8) : Prop where
  ne : p ≠ 0
  string : CStringAt m p str
  mem : (p, str.length + 1) ∈ taken
  apart : Buffer.Apart (p, str.length + 1) vec

theorem element_toNat {i : Nat} (h : a.toNat + 4 * i < 4294967296) : (element a i).toNat = a.toNat + 4 * i := add_ofNat h

/-- One turn of the loop: a string goes to a new buffer, and the address of the buffer into the vector. -/
theorem copyStrings_turn {i : Nat} (hp : Passed s.memory p str) (hlow : userOffset.toNat ≤ (element src i).toNat)
    (hptr : wordAt s.memory (element src i) = p) (hvec : vec ∈ taken) (hkernel : vec.1.toNat + vec.2 ≤ userOffset.toNat)
    (hsize : 4 * (i + 1) ≤ vec.2) (hroom : Room alloc top taken s.allocs ((str.length + 1) :: sizes)) (n : Nat) :
    ∃ buf m', copyStrings alloc vec.1 src (n + 1) i s = copyStrings alloc vec.1 src n (i + 1) ⟨m', s.allocs + 1⟩ ∧
      buf ≠ 0 ∧ Buffer.Apart (buf, str.length + 1) vec ∧ CStringAt m' buf str ∧ wordAt m' (element vec.1 i) = buf ∧
      Room alloc top ((buf, str.length + 1) :: taken) (s.allocs + 1) sizes ∧
      ∀ v, Protected top taken v → v < vec.1.toNat + 4 * i ∨ vec.1.toNat + 4 * (i + 1) ≤ v → m' v = s.memory v := by
  have huser : userOffset.toNat = 1073741824 := rfl
  have hfresh := fun v => hroom.fresh (v := v)
  obtain ⟨⟨hne, hbelow, -⟩, hapart, hrest⟩ := hroom
  obtain ⟨buf, hbuf⟩ : ∃ buf, buf = alloc s.allocs (UInt32.ofNat (str.length + 1)) := ⟨_, rfl⟩
  rw [← hbuf] at hfresh hne hbelow hapart hrest
  dsimp only at hbelow hne
  have hbeside := hapart vec hvec
  unfold Buffer.Apart at hbeside
  dsimp only at hbeside
  have helem : (element vec.1 i).toNat = vec.1.toNat + 4 * i := element_toNat (by omega)
  -- the word of the vector
  obtain ⟨stored, hstored⟩ : ∃ stored, stored = storeLe s.memory (element vec.1 i).toNat 4 buf.toNat := ⟨_, rfl⟩
  have hother : ∀ v, v < vec.1.toNat + 4 * i ∨ vec.1.toNat + 4 * (i + 1) ≤ v → stored v = s.memory v := by
    intro v hv
    rw [hstored]
    exact storeLe_of_ne (by omega)
  have hstoredUser : ∀ v, userOffset.toNat ≤ v → stored v = s.memory v := fun v hv => hother v (by omega)
  have hword : wordAt stored (element vec.1 i) = buf := by rw [hstored, wordAt_storeLe]
  -- the string
  have hpassed : CStringAt stored p str := hp.2.congr fun v hv _ => hstoredUser v (Nat.le_trans hp.1 hv)
  obtain ⟨m', hcopy, hstring, hframe⟩ := @strcpy_eq stored buf p str hpassed (.inl (by have := hp.1; omega)) (by omega)
  refine ⟨buf, m', ?_, hne, hbeside, hstring, ?_, hrest, fun v hv hout => ?_⟩
  · have hsecond : wordAt stored (element src i) = p := by
      rw [← hptr]
      exact wordAt_congr fun v hv _ => hstoredUser v (Nat.le_trans hlow hv)
    have hlen : UInt32.ofNat str.length + 1 = UInt32.ofNat (str.length + 1) := (UInt32.ofNat_add str.length 1).symm
    conv => lhs; unfold copyStrings
    rw [hptr, strlen_eq hp.2]
    unfold kmalloc storeElement
    dsimp only [bind, Option.bind]
    rw [hlen, ← hbuf, ← hstored, hsecond, hword, hcopy]
  · have hkept : wordAt m' (element vec.1 i) = wordAt stored (element vec.1 i) :=
      wordAt_congr fun v hv hlt => hframe v (by omega)
    exact hkept.trans hword
  · have hbufv := hfresh v hv
    exact (hframe v (by omega)).trans (hother v hout)

/-- **The loop copies the strings of a program**, each to a buffer of its own. -/
theorem copyStrings_eq (hps : List.Forall₂ (Passed s.memory) ps ss) {i : Nat} (hvec : vec ∈ taken)
    (hkernel : vec.1.toNat + vec.2 ≤ userOffset.toNat) (hsize : 4 * (i + ps.length) ≤ vec.2)
    (hptrs : ∀ k < ps.length, userOffset.toNat ≤ (element src (i + k)).toNat ∧
      wordAt s.memory (element src (i + k)) = ps.getD k 0)
    (hroom : Room alloc top taken s.allocs (ss.map (fun str => str.length + 1) ++ sizes)) :
    ∃ s' bufs taken', copyStrings alloc vec.1 src ps.length i s = some s' ∧ Room alloc top taken' s'.allocs sizes ∧
      taken ⊆ taken' ∧ bufs.length = ps.length ∧
      (∀ k < bufs.length, wordAt s'.memory (element vec.1 (i + k)) = bufs.getD k 0) ∧
      List.Forall₂ (InBuffer taken' vec s'.memory) bufs ss ∧
      ∀ v, Protected top taken v → v < vec.1.toNat + 4 * i ∨ vec.1.toNat + 4 * (i + ps.length) ≤ v →
        s'.memory v = s.memory v := by
  have huser : userOffset.toNat = 1073741824 := rfl
  induction ss generalizing ps s i taken with
  | nil =>
    cases hps
    exact ⟨s, [], taken, rfl, hroom, fun _ hb => hb, rfl, fun k hk => absurd hk (Nat.not_lt_zero k), .nil, fun _ _ _ => rfl⟩
  | cons str ss ih =>
    obtain ⟨p, ps, hp, hothers, rfl⟩ := List.forall₂_cons_right_iff.mp hps
    rw [List.length_cons] at hsize hptrs
    obtain ⟨hlow, hptr⟩ := hptrs 0 (Nat.succ_pos _)
    obtain ⟨buf, m', hturn, hne, hbeside, hstring, hword, hrest, hframe⟩ :=
      copyStrings_turn hp hlow hptr hvec hkernel (by omega) hroom ps.length
    have helem : (element vec.1 i).toNat = vec.1.toNat + 4 * i := element_toNat (by omega)
    have hm'User : ∀ v, userOffset.toNat ≤ v → m' v = s.memory v := fun v hv => hframe v (.inl hv) (by omega)
    have hpassed : List.Forall₂ (Passed m') ps ss :=
      hothers.imp fun q _ hq => ⟨hq.1, hq.2.congr fun v hv _ => hm'User v (Nat.le_trans hq.1 hv)⟩
    obtain ⟨s', bufs, taken', heq, hroom', hsub, hlength, hwords, hstrings, hframe'⟩ := @ih
      ((buf, str.length + 1) :: taken) ⟨m', s.allocs + 1⟩ ps hpassed (i + 1) (List.mem_cons_of_mem _ hvec) (by omega) (fun k hk => by
        obtain ⟨hlow', hptr'⟩ := hptrs (k + 1) (by omega)
        rw [Nat.add_assoc, Nat.add_comm 1 k]
        refine ⟨hlow', ?_⟩
        rw [wordAt_congr fun v hv _ => hm'User v (Nat.le_trans hlow' hv)]
        exact hptr') hrest
    refine ⟨s', buf :: bufs, taken', hturn.trans heq, hroom', fun b hb => hsub (List.mem_cons_of_mem _ hb),
      congrArg Nat.succ hlength, fun k hk => ?_, .cons ⟨hne, ?_, hsub List.mem_cons_self, hbeside⟩ hstrings,
      fun v hv hout => ?_⟩
    · cases k with
      | zero =>
        have hkept : wordAt s'.memory (element vec.1 i) = wordAt m' (element vec.1 i) :=
          wordAt_congr fun v hv hlt =>
            hframe' v (.inr (.inr ⟨vec, List.mem_cons_of_mem _ hvec, by omega, by omega⟩)) (.inl (by omega))
        exact hkept.trans hword
      | succ k =>
        have hk' := hwords k (Nat.lt_of_succ_lt_succ hk)
        rwa [Nat.add_assoc, Nat.add_comm 1 k] at hk'
    · exact hstring.congr fun v hv hle =>
        hframe' v (.inr (.inr ⟨(buf, str.length + 1), List.mem_cons_self, hv, Nat.lt_succ_of_le hle⟩)) (by
          unfold Buffer.Apart at hbeside
          dsimp only at hbeside
          omega)
    · rw [List.length_cons] at hout
      rw [hframe' v (hv.mono fun b hb => List.mem_cons_of_mem _ hb) (by omega)]
      exact hframe v hv (by omega)

/-- A vector of strings that a program passes. -/
def PassedStrings (m : Bytes) (a : UInt32) (ss : List (List UInt8)) : Prop :=
  userOffset.toNat ≤ a.toNat ∧ ∃ ps, WordsAt m a (ps ++ [0]) ∧ List.Forall₂ (Passed m) ps ss

/-- The vector with its strings and the null pointer behind them stays in its buffers. -/
theorem vector_kept {bufs : List UInt32} (hmem : vec ∈ taken) (hsize : vec.2 = 4 * (bufs.length + 1))
    (hkernel : vec.1.toNat + vec.2 ≤ userOffset.toNat)
    (hptrs : ∀ k < bufs.length, wordAt s.memory (element vec.1 k) = bufs.getD k 0)
    (hin : List.Forall₂ (InBuffer taken vec s.memory) bufs ss)
    (hkeeps : Keeps top taken (storeElement s vec.1 bufs.length 0).memory m') : CStringsAt m' vec.1 ss := by
  have huser : userOffset.toNat = 1073741824 := rfl
  have helem : ∀ k ≤ bufs.length, (element vec.1 k).toNat = vec.1.toNat + 4 * k := fun k hk => element_toNat (by omega)
  have hlast := helem bufs.length (Nat.le_refl _)
  have hstore : ∀ v, v < vec.1.toNat + 4 * bufs.length ∨ vec.1.toNat + vec.2 ≤ v →
      (storeElement s vec.1 bufs.length 0).memory v = s.memory v := fun v hv => storeLe_of_ne (by omega)
  have hlength : (bufs ++ [(0 : UInt32)]).length = bufs.length + 1 := List.length_append
  refine ⟨bufs, ⟨fun k hk => ?_, by omega⟩, hin.imp fun p str hp => ⟨hp.ne, ?_⟩⟩
  · have hk' := helem k (by omega)
    have hkept : wordAt m' (element vec.1 k) = wordAt (storeElement s vec.1 bufs.length 0).memory (element vec.1 k) :=
      wordAt_congr fun v hv hlt => hkeeps v (.inr (.inr ⟨vec, hmem, by omega, by omega⟩))
    refine hkept.trans ?_
    by_cases hend : k = bufs.length
    · rw [List.getD_append_right _ _ _ _ (by omega), hend, Nat.sub_self]
      exact wordAt_storeLe
    · have hother : wordAt (storeElement s vec.1 bufs.length 0).memory (element vec.1 k) = wordAt s.memory (element vec.1 k) :=
        wordAt_congr fun v hv hlt => hstore v (by omega)
      rw [hother, List.getD_append _ _ _ _ (by omega), ← hptrs k (by omega)]
  · have hapart := hp.apart
    unfold Buffer.Apart at hapart
    dsimp only at hapart
    refine hp.string.congr fun v hv hle => (hkeeps v (.inr (.inr ⟨_, hp.mem, hv, Nat.lt_succ_of_le hle⟩))).trans ?_
    exact hstore v (by omega)

/-- **The arguments of a program are copied**, and stay until another buffer is taken from them. -/
theorem copyArgs_eq (h : PassedStrings s.memory a ss) (hne : ss ≠ []) (hroom : Room alloc top taken s.allocs
      (4 * (ss.length + 1) :: (ss.map (fun str => str.length + 1) ++ sizes))) :
    ∃ param s' taken', copyArgs alloc stray a s = some (param, s') ∧ Room alloc top taken' s'.allocs sizes ∧
      taken ⊆ taken' ∧ Keeps top taken s.memory s'.memory ∧
      ∀ m', Keeps top taken' s'.memory m' → CStringsAt m' param ss := by
  have huser : userOffset.toNat = 1073741824 := rfl
  obtain ⟨hlow, ps, hps, hstrings⟩ := h
  have hlength : ps.length = ss.length := hstrings.length_eq
  have hwords : (ps ++ [(0 : UInt32)]).length = ps.length + 1 := List.length_append
  have hargc : argcOf s.memory a = some (UInt32.ofNat ps.length) := by
    have huserPtrs : ∀ p ∈ ps, userOffset.toNat ≤ p.toNat := (List.forall₂_and_left ps ss).mp hstrings |>.1
    refine argcOf_eq hps fun p hp h0 => ?_
    have hp' := huserPtrs p hp
    rw [h0] at hp'
    exact absurd hp' (by decide)
  have hfits := hps.fits
  have hcount : (UInt32.ofNat ps.length).toNat = ps.length := UInt32.toNat_ofNat_of_lt' (show _ < 4294967296 by omega)
  have hargc0 : UInt32.ofNat ps.length ≠ 0 := by
    intro h0
    rw [h0, hlength] at hcount
    exact hne (List.length_eq_zero_iff.mp hcount.symm)
  have hsize : 4 * (UInt32.ofNat ps.length + 1) = UInt32.ofNat (4 * (ss.length + 1)) := by
    rw [hlength, UInt32.ofNat_mul, UInt32.ofNat_add]
    rfl
  have hfresh := fun v => hroom.fresh (v := v)
  obtain ⟨hvec, -, hrest⟩ := hroom
  obtain ⟨vec, hvec'⟩ : ∃ vec : Buffer, vec = (alloc s.allocs (UInt32.ofNat (4 * (ss.length + 1))), 4 * (ss.length + 1)) :=
    ⟨_, rfl⟩
  rw [← hvec'] at hvec hrest
  have hvecSize : vec.2 = 4 * (ss.length + 1) := by rw [hvec']
  have hvecAddr : alloc s.allocs (UInt32.ofNat (4 * (ss.length + 1))) = vec.1 := by rw [hvec']
  rw [hvecAddr] at hfresh
  obtain ⟨s₁, bufs, taken', hcopied, hroom', hsub, hbufs, hptrs, hin, hframe⟩ := @copyStrings_eq alloc top
    (vec :: taken) sizes ⟨s.memory, s.allocs + 1⟩ vec a ss ps hstrings 0 List.mem_cons_self hvec.2.1 (by omega)
    (fun k hk => by
      have hk' : k < (ps ++ [(0 : UInt32)]).length := by omega
      have hword := hps.word k hk'
      rw [List.getD_append _ _ _ _ hk] at hword
      rw [Nat.zero_add, element, hps.toNat_add hk']
      exact ⟨by omega, hword⟩) hrest
  rw [Nat.zero_add] at hframe
  refine ⟨vec.1, storeElement s₁ vec.1 ps.length 0, taken', ?_, hroom', fun b hb => hsub (List.mem_cons_of_mem _ hb),
    fun v hv => ?_, fun m' hm' => ?_⟩
  · unfold copyArgs
    rw [hargc]
    dsimp only [bind, Option.bind]
    rw [if_neg hargc0, hsize, hcount]
    unfold kmalloc
    dsimp only
    rw [hvecAddr, hcopied]
  · have hv' := hfresh v hv
    have hlast : (element vec.1 ps.length).toNat = vec.1.toNat + 4 * ps.length := by
      have := hvec.2.1
      exact element_toNat (by omega)
    have hstore : (storeElement s₁ vec.1 ps.length 0).memory v = s₁.memory v := storeLe_of_ne (by omega)
    rw [hstore]
    exact hframe v (hv.mono fun b hb => List.mem_cons_of_mem _ hb) (by omega)
  · rw [← hbufs] at hm'
    refine vector_kept (hsub List.mem_cons_self) (by omega) hvec.2.1 (fun k hk => ?_) hin hm'
    rw [← hptrs k hk, Nat.zero_add]

end

/-! ## The way into the kernel -/

/-- A program with its stack in user space, and room for an interrupt on its kernel stack. -/
structure Program (c : Cpu) : Prop where
  user : ¬ c.regs.Kernel
  room : 4 * 21 ≤ c.tss.esp0.toNat
  kernel : c.tss.esp0.toNat ≤ userOffset.toNat
  stack : userOffset.toNat + 20 ≤ c.regs.esp.toNat

/-- `do_syscalls` is called with the arguments of a system call, and finds the strings of the program. -/
structure Called (c c₁ : Cpu) (m : Bytes) (arg1 arg2 arg3 : UInt32) : Prop where
  room : 4 * 21 ≤ c₁.kernelTop.toNat
  top : c₁.kernelTop = c.tss.esp0
  saved : Saved c₁ m
  args : syscallGet3args m (userCtxt c₁) = (arg1, arg2, arg3)
  user : ∀ v, userOffset.toNat ≤ v → v + 20 < c.regs.esp.toNat ∨ c.regs.esp.toNat ≤ v → m v = c.memory v

section

variable {c c₁ : Cpu} {arg1 arg2 arg3 id ret : UInt32} {args : List UInt32}

theorem called_of (hc : Program c) (hcs : c₁.regs.cs = c.regs.cs) (htss : c₁.tss = c.tss)
    (hmemory : ∀ v, v + 20 < c.regs.esp.toNat ∨ c.regs.esp.toNat ≤ v → c₁.memory v = c.memory v) (ret : UInt32) :
    Called c c₁ (enterSyscall c₁ ret).memory c₁.regs.ebx c₁.regs.ecx c₁.regs.edx := by
  have huser : ¬ c₁.regs.Kernel := by
    unfold Regs.Kernel
    rw [hcs]
    exact hc.user
  have htop : c₁.kernelTop = c.tss.esp0 := by
    unfold Cpu.kernelTop
    rw [if_neg huser, htss]
  have hroom : 4 * 21 ≤ c₁.kernelTop.toNat := by
    rw [htop]
    exact hc.room
  have hin := enterSyscall_inSyscall c₁ ret hroom
  refine ⟨hroom, htop, hin.saved, syscallGet3args_eq hin.saved hroom, fun v hv hout => ?_⟩
  have hkernel := hc.kernel
  rw [hin.memory v (by rw [htop]; omega)]
  exact hmemory v hout

theorem called_syscall3 (hc : Program c) (ret : UInt32) : Called c (syscall3 c id arg1 arg2 arg3)
    (enterSyscall (syscall3 c id arg1 arg2 arg3) ret).memory arg1 arg2 arg3 :=
  @called_of c (syscall3 c id arg1 arg2 arg3) hc rfl rfl (fun _ _ => rfl) ret

/-- The other arguments are in the array. -/
theorem called_syscallArray (hc : Program c) (hlength : args.length ≤ 5) (ret : UInt32) : ∃ uaddr,
    Called c (syscallArray c id arg1 arg2 args) (enterSyscall (syscallArray c id arg1 arg2 args) ret).memory arg1 arg2 uaddr ∧
      ∀ i < args.length, otherArgs (enterSyscall (syscallArray c id arg1 arg2 args) ret).memory uaddr i = args.getD i 0 := by
  have hstack := hc.stack
  have hkernel := hc.kernel
  have hrev : args.reverse.length = args.length := List.length_reverse
  obtain ⟨c₁, hc₁⟩ : ∃ c₁, c₁ = syscallArray c id arg1 arg2 args := ⟨_, rfl⟩
  have hmemory : c₁.memory = pushWords c.memory c.regs.esp args.reverse := by
    rw [hc₁]
    rfl
  have hesp : c₁.regs.esp.toNat + 4 * args.reverse.length = c.regs.esp.toNat := by
    rw [hc₁]
    show (c.regs.esp - UInt32.ofNat (4 * args.reverse.length)).toNat + _ = _
    rw [sub_ofNat (by omega)]
    omega
  have hcalled := @called_of c c₁ hc (by rw [hc₁]; rfl) (by rw [hc₁]; rfl) (fun v hv => by
    rw [hmemory]
    exact pushWords_of_ne (by omega) (by omega)) ret
  have hin := enterSyscall_inSyscall c₁ ret hcalled.room
  have hbelow : WordsBelow (enterSyscall c₁ ret).memory c.regs.esp args.reverse := by
    refine (wordsBelow_pushWords (m := c.memory) (by omega)).congr fun v hv _ => ?_
    rw [hin.memory v (by rw [hcalled.top]; omega), hmemory]
  rw [← hc₁]
  refine ⟨c₁.regs.esp, ?_, fun i hi => ?_⟩
  · have hregs : c₁.regs.ebx = arg1 ∧ c₁.regs.ecx = arg2 ∧ c₁.regs.edx = c₁.regs.esp := by
      rw [hc₁]
      exact ⟨rfl, rfl, rfl⟩
    rw [hregs.1, hregs.2.1, hregs.2.2] at hcalled
    exact hcalled
  · unfold otherArgs
    rw [hbelow.word hesp (Nat.le_refl _) (by omega), List.getD_eq_getElem _ _ (by omega), List.getElem_reverse,
      List.getD_eq_getElem _ _ hi]
    congr 1
    omega

theorem Called.passed {m : Bytes} {a : UInt32} {str : List UInt8} (h : Called c c₁ m arg1 arg2 arg3) (hstr : UserString c a str) :
    Passed m a str := by
  obtain ⟨hstring, hlow, hpart⟩ := hstr
  exact ⟨hlow, hstring.congr fun v hv hle => h.user v (Nat.le_trans hlow hv) (by omega)⟩

theorem Called.passedStrings {m : Bytes} {a : UInt32} {ss : List (List UInt8)} (h : Called c c₁ m arg1 arg2 arg3)
    (hstrs : UserStrings c a ss) : PassedStrings m a ss := by
  obtain ⟨ps, hps, ⟨hlow, hpart⟩, hstrings⟩ := hstrs
  exact ⟨hlow, ps, hps.congr fun v hv hlt => h.user v (Nat.le_trans hlow hv) (by omega),
    hstrings.imp fun _ _ hp => h.passed hp⟩

/-! ## The services -/

/-- `do_syscalls` calls the service of a request, and leaves the program and its saved registers alone. -/
def Served (alloc : Nat → UInt32 → UInt32) (stray : UInt32) (top : Nat) (syscallId ctxt : UInt32) (m : Bytes) (q : Request) :
    Prop :=
  ∃ svc s, doSyscalls alloc stray syscallId ctxt ⟨m, 0⟩ = some (svc, s) ∧ svc.Serves s.memory q ∧ Keeps top [] m s.memory

variable {alloc : Nat → UInt32 → UInt32} {stray ctxt a p : UInt32} {top : Nat} {m : Bytes} {str : List UInt8} {s : Heap}
  {taken : List Buffer} {sizes : List Nat}

theorem Passed.length_lt (h : Passed m a str) : str.length + 1 ≤ 3221225472 := by
  have huser : userOffset.toNat = 1073741824 := rfl
  have hlow := h.1
  have hfits := h.2.fits
  omega

/-- A whole string is copied to a buffer of its size. -/
theorem copied_whole (hroom : Room alloc top taken s.allocs ((str.length + 1) :: sizes)) (h : Passed s.memory a str) :
    ∃ s', (⟨s.memory, s.allocs + 1⟩ : Heap).strzcpyFromUser (alloc s.allocs (UInt32.ofNat str.length + 1)) a
        (UInt32.ofNat str.length + 1) = (0, s') ∧
      Copied alloc top taken s.memory s' (alloc s.allocs (UInt32.ofNat str.length + 1), str.length + 1) str sizes := by
  have hcopied := strzcpy_copied hroom h (Nat.succ_pos _) h.length_lt
  rw [Nat.add_sub_cancel, List.take_length, UInt32.ofNat_add] at hcopied
  exact hcopied

/-- The calls that need no buffer. -/
theorem doSyscalls_plain {id : UInt32} {svc : Service} (hargs : syscallGet3args m ctxt = (arg1, arg2, arg3))
    (hsvc : (id, svc) ∈ [(3, .sysExit), (563, .sysWrite arg1 arg2 arg3), (561, .sysRead arg1 arg2 arg3), (303, .uvmmBrk arg1)]) :
    doSyscalls alloc stray id ctxt ⟨m, 0⟩ = some (svc, ⟨m, 0⟩) := by
  simp only [List.mem_cons, Prod.mk.injEq, List.not_mem_nil, or_false] at hsvc
  rcases hsvc with ⟨rfl, rfl⟩ | ⟨rfl, rfl⟩ | ⟨rfl, rfl⟩ | ⟨rfl, rfl⟩ <;>
    simp [doSyscalls, syscallGet1arg, hargs]

theorem plain_served {id : UInt32} {q : Request} (svc : Service) (hargs : syscallGet3args m ctxt = (arg1, arg2, arg3))
    (hsvc : (id, svc) ∈ [(3, .sysExit), (563, .sysWrite arg1 arg2 arg3), (561, .sysRead arg1 arg2 arg3), (303, .uvmmBrk arg1)])
    (hserves : ∀ m, svc.Serves m q) : Served alloc stray top id ctxt m q :=
  ⟨svc, ⟨m, 0⟩, doSyscalls_plain hargs hsvc, hserves m, fun _ _ => rfl⟩

theorem print_served (hargs : syscallGet3args m ctxt = (a, UInt32.ofNat str.length, arg3)) (h : Passed m a str)
    (hroom : Room alloc top [] 0 (Request.print str).sizes) : Served alloc stray top 2 ctxt m (.print str) := by
  obtain ⟨s', hcopy, hcopied⟩ := @copied_whole alloc a top str ⟨m, 0⟩ [] [] hroom h
  refine ⟨.kprintf _, s', ?_, hcopied.string, hcopied.keeps⟩
  unfold doSyscalls syscallGet2args kmalloc
  rw [if_neg (by decide), if_pos rfl]
  dsimp only
  rw [hargs]
  dsimp only
  rw [if_neg hcopied.ne, hcopy]
  rfl

theorem open_served {flags : UInt32} (hargs : syscallGet3args m ctxt = (a, UInt32.ofNat str.length, flags))
    (h : Passed m a str) (hroom : Room alloc top [] 0 (Request.open str flags).sizes) :
    Served alloc stray top 559 ctxt m (.open str flags) := by
  obtain ⟨s', hcopy, hcopied⟩ := @copied_whole alloc a top str ⟨m, 0⟩ [] [] hroom h
  refine ⟨.sysOpen _ flags, s', ?_, ⟨hcopied.string, rfl⟩, hcopied.keeps⟩
  unfold doSyscalls kmalloc
  rw [if_neg (by decide), if_neg (by decide), if_neg (by decide), if_neg (by decide), if_pos rfl]
  dsimp only
  rw [hargs]
  dsimp only
  rw [hcopy]
  rfl

theorem exec_served {args : UInt32} {prog : List UInt8} {ss : List (List UInt8)}
    (hargs : syscallGet3args m ctxt = (p, UInt32.ofNat prog.length, arg3)) (harray : otherArgs m arg3 0 = args)
    (hprog : Passed m p prog) (hss : PassedStrings m args ss) (hne : ss ≠ [])
    (hroom : Room alloc top [] 0 (Request.exec prog ss).sizes) : Served alloc stray top 258 ctxt m (.exec prog ss) := by
  obtain ⟨param, s₁, taken', hargs', hroom', hsub, hkeeps, hafter⟩ := @copyArgs_eq alloc top [] [prog.length + 1] ⟨m, 0⟩
    args stray ss hss hne hroom
  obtain ⟨s', hcopy, hcopied⟩ := copied_whole hroom' (hkeeps.passed hprog)
  refine ⟨.sysExec _ param, s', ?_, ⟨hcopied.string, hafter _ hcopied.keeps⟩, hkeeps.trans hcopied.keeps hsub⟩
  unfold doSyscalls syscallGet4args
  rw [if_pos rfl]
  dsimp only
  rw [hargs]
  dsimp only
  rw [harray, hargs']
  unfold kmalloc
  dsimp only [bind, Option.bind]
  rw [if_neg hcopied.ne, hcopy]
  rfl

/-- The length that `_mount` passes with a source that may be null. -/
def lengthOf : Option (List UInt8) → UInt32
  | none => 0
  | some str => UInt32.ofNat str.length

theorem source_copied {o : Option (List UInt8)} (h : OrNull (Passed s.memory) a o)
    (hroom : Room alloc top taken s.allocs ((o.toList.map fun str => str.length + 1) ++ sizes)) :
    ∃ kernel s' taken', copySource alloc s a (lengthOf o) = (kernel, s') ∧
      Room alloc top taken' s'.allocs sizes ∧ taken ⊆ taken' ∧ Keeps top taken s.memory s'.memory ∧
      ∀ m', Keeps top taken' s'.memory m' → OrNull (CStringAt m') kernel o := by
  cases o with
  | none => exact ⟨0, s, taken, if_neg (not_not.mpr h), hroom, fun _ hb => hb, fun _ _ => rfl, fun _ _ => rfl⟩
  | some str =>
    obtain ⟨s', hcopy, hcopied⟩ := copied_whole hroom h.2
    refine ⟨_, s', _, ?_, hcopied.room, List.subset_cons_self _ _, hcopied.keeps,
      fun m' hm' => ⟨hcopied.ne, hcopied.after hm'⟩⟩
    unfold copySource kmalloc lengthOf
    rw [if_pos h.1]
    dsimp only
    rw [hcopy]

theorem mount_served {source target fstype data flags : UInt32} {src args : Option (List UInt8)} {tgt ty : List UInt8}
    (hargs : syscallGet3args m ctxt = (source, lengthOf src, a))
    (harray : ∀ i < 5, otherArgs m a i = [target, UInt32.ofNat tgt.length, fstype, flags, data].getD i 0)
    (hsource : OrNull (Passed m) source src) (htarget : Passed m target tgt) (htype : Passed m fstype ty)
    (hdata : OrNull (Passed m) data args) (hroom : Room alloc top [] 0 (Request.mount src tgt ty args).sizes) :
    Served alloc stray top 555 ctxt m (.mount src tgt ty args) := by
  have htgtLength : otherArgs m a 1 = UInt32.ofNat tgt.length := harray 1 (by decide)
  obtain rfl : otherArgs m a 0 = target := harray 0 (by decide)
  obtain rfl : otherArgs m a 2 = fstype := harray 2 (by decide)
  obtain rfl : otherArgs m a 4 = data := harray 4 (by decide)
  unfold Request.sizes at hroom
  dsimp only at hroom
  rw [List.append_assoc] at hroom
  obtain ⟨kernelSrc, s₁, taken₁, hsrc, hroom₁, -, hkeeps₁, hafter⟩ := @source_copied alloc source top ⟨m, 0⟩ [] _ src hsource hroom
  obtain ⟨s₂, hcopy₂, htgt⟩ := copied_whole hroom₁ (hkeeps₁.passed htarget)
  have hkeeps₂ := hkeeps₁.trans htgt.keeps (List.nil_subset _)
  obtain ⟨s₃, hcopy₃, hty⟩ := strzcpy_copied htgt.room (hkeeps₂.passed htype) (by decide) (by decide)
  rw [show UInt32.ofNat 256 = 256 from rfl] at hcopy₃ hty
  have hkeeps₃ := hkeeps₂.trans hty.keeps (List.nil_subset _)
  -- the data of the file system, which nobody gets
  obtain ⟨s₄, hcopy₄, hkeeps₄⟩ : ∃ s₄, copyData alloc s₃ (otherArgs m a 4) = (0, s₄) ∧
      Keeps top ((alloc s₂.allocs 256, 256) :: (alloc s₁.allocs (UInt32.ofNat tgt.length + 1), tgt.length + 1) ::
        taken₁) s₃.memory s₄.memory := by
    cases args with
    | none => exact ⟨s₃, if_neg (not_not.mpr hdata), fun _ _ => rfl⟩
    | some str =>
      obtain ⟨s₄, hcopy, hcopied⟩ := @strzcpy_copied alloc top 1024 _ [] s₃ _ str hty.room (hkeeps₃.passed hdata.2)
        (by decide) (by decide)
      exact ⟨s₄, (if_pos hdata.1).trans hcopy, hcopied.keeps⟩
  have hlater := hty.keeps.trans hkeeps₄ (List.subset_cons_self _ _)
  refine ⟨.vfsMount kernelSrc _ _, s₄, ?_, ⟨hafter _ (htgt.keeps.trans hlater (List.subset_cons_self _ _)),
    htgt.after hlater, hty.after hkeeps₄⟩, hkeeps₃.trans hkeeps₄ (List.nil_subset _)⟩
  unfold doSyscalls syscallGet7args kmalloc
  rw [if_neg (by decide), if_neg (by decide), if_neg (by decide), if_pos rfl]
  dsimp only
  rw [hargs]
  dsimp only
  rw [htgtLength, hsrc]
  dsimp only
  rw [hcopy₂]
  dsimp only
  rw [if_neg (not_not.mpr rfl), hcopy₃]
  dsimp only
  rw [if_neg (not_not.mpr rfl), hcopy₄]
  rfl

/-- The function of `crt.c` makes a system call, and `do_syscalls` calls the service of the request with nothing changed
for the program, nor in its saved registers. -/
def Arrives (alloc : Nat → UInt32 → UInt32) (stray ret : UInt32) (c : Cpu) (u : UserCall) (q : Request) : Prop :=
  ∃ c₁ svc s, crt c u = some c₁ ∧
    doSyscalls alloc stray c₁.regs.eax (userCtxt c₁) ⟨(enterSyscall c₁ ret).memory, 0⟩ = some (svc, s) ∧
    svc.Serves s.memory q ∧ Saved c₁ s.memory ∧
    ∀ v, userOffset.toNat ≤ v → v + 20 < c.regs.esp.toNat ∨ c.regs.esp.toNat ≤ v → s.memory v = c.memory v

theorem Called.arrives {u : UserCall} {q : Request} (h : Called c c₁ (enterSyscall c₁ ret).memory arg1 arg2 arg3)
    (hcrt : crt c u = some c₁) (hserved : Served alloc stray c.tss.esp0.toNat c₁.regs.eax (userCtxt c₁)
      (enterSyscall c₁ ret).memory q) : Arrives alloc stray ret c u q := by
  obtain ⟨svc, s, heq, hserves, hkeeps⟩ := hserved
  have hctxt := userCtxt_toNat h.room
  have hlength := frameWords_length_le c₁.regs c₁.kernelTop
  have htop := congrArg UInt32.toNat h.top
  exact ⟨c₁, svc, s, hcrt, heq, hserves, h.saved.congr fun v hv hlt => hkeeps v (.inr (.inl ⟨by omega, by omega⟩)),
    fun v hv hout => (hkeeps v (.inl hv)).trans (h.user v hv hout)⟩

theorem OrNull.imp {P Q : UInt32 → List UInt8 → Prop} {o : Option (List UInt8)} (h : OrNull P a o)
    (himp : ∀ s, P a s → Q a s) : OrNull Q a o := by
  cases o with
  | none => exact h
  | some s => exact ⟨h.1, himp s h.2⟩

theorem UserString.ne (h : UserString c a str) : a ≠ 0 := by
  intro h0
  have hlow := h.2.1
  rw [h0] at hlow
  exact absurd hlow (by decide)

theorem sourceLength_eq {o : Option (List UInt8)} (h : OrNull (UserString c) a o) :
    sourceLength c.memory a = some (lengthOf o) := by
  cases o with
  | none => exact if_pos h
  | some str => exact (if_neg h.1).trans (strlenLibc_eq h.2.1)

end

/-- A program with the string `a` at `0x50000000`, and a vector with a pointer to it at `0x50000010`. -/
def execProgram : Cpu :=
  { bareProgram with memory := fun v => if v = 0x50000000 then 0x61 else if v = 0x50000013 then 0x50 else 0 }

theorem execProgram_string : UserString execProgram 0x50000000 [0x61] :=
  ⟨⟨by decide +kernel, by decide, by decide⟩, by decide, by decide⟩

end Desiros.Syscall.Entry
