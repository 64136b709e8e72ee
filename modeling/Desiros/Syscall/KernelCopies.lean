import Desiros.Library.Ledger
import Mathlib.Data.UInt

/-!
# Kernel copies of what a program passes (`syscalls.c`, `syscall/exec.c`)

`do_syscalls` copies strings of the program to buffers from `kmalloc`. The buffers are kept in a `Ledger`, and
everything else that decides how a call goes is an outcome (`Outcomes`). `copies_settled_iff` says in which outcomes
every buffer is given back. What `mount` and the other services are given they copy themselves, so that no buffer
outlives a call; address 0 is mapped, so that a copy to a buffer that could not be had goes on.
-/

namespace Desiros.Syscall.Copies

open Desiros.Library Ledger

/-! ## The functions -/

/-- How a call goes: the result of the `syscall_get` function, whether call `n` of `kmalloc` has a buffer of some
size, the results of `strzcpy_from_user` in their order, the arguments, what `param` holds before it is set, and what
`sys_exec` finds. -/
structure Outcomes where
  getArgs : Int
  kmalloc : Nat → UInt32 → Bool
  strzcpyFromUser : Nat → Int
  len : UInt32
  /-- The lengths of the strings at `src_argaddr`. -/
  srcArgs : List UInt32
  param : UInt32
  userSrc : UInt32
  srclen : UInt32
  targetLen : UInt32
  userArgs : UInt32
  hasAddressSpace : Bool
  /-- `sys_exec` finds a slot. -/
  slot : Bool
  /-- The result of `binfmt_elf32_map`. -/
  startUaddr : UInt32

def kmalloc (o : Outcomes) (s : Ledger) (size : UInt32) : Option Nat × Ledger := s.take (o.kmalloc s.next size)

/-- The vector of the arguments of a program, `stray` for a pointer that was never set. -/
inductive ArgVector where
  | null
  | filled (vector : Nat) (strings : List (Option Nat))
  | stray
deriving DecidableEq, Repr

/-- The vector that was allocated, with its strings. -/
def ArgVector.of : Option Nat → List (Option Nat) → ArgVector
  | none, _ => .null
  | some vector, strings => .filled vector strings

/-- The loop that copies the strings. -/
def copyStrings (o : Outcomes) (s : Ledger) : List UInt32 → List (Option Nat) × Ledger
  | [] => ([], s)
  | strlen :: lens =>
    let (param, s) := kmalloc o s (strlen + 1)
    ((param :: (copyStrings o s lens).1), (copyStrings o s lens).2)

def copyArgs (o : Outcomes) (s : Ledger) : ArgVector × Ledger :=
  if o.srcArgs = [] then (if o.param = 0 then .null else .stray, s)
  else
    let (vector, s) := kmalloc o s (4 * (UInt32.ofNat o.srcArgs.length + 1))
    let (strings, s) := copyStrings o s o.srcArgs
    (ArgVector.of vector strings, s)

/-- `fill_stack`, which finds the strings in front of the first null pointer. -/
def fillStack (o : Outcomes) (s : Ledger) (argv : Nat) (strings : List (Option Nat)) : Ledger :=
  let found := strings.takeWhile Option.isSome
  let (uparam, s) := kmalloc o s (4 * UInt32.ofNat found.length)
  ((s.giveAll found).give (some argv)).give uparam

/-- `sys_exec`; there is no result where it follows a stray pointer. -/
def sysExec (o : Outcomes) (s : Ledger) (str : Nat) (argv : ArgVector) : Option Ledger :=
  if !o.slot then some s
  else
    match argv with
    | .stray => none
    | .null => some (if o.startUaddr = 0 then s.give (some str) else s)
    | .filled vector strings =>
      let s := fillStack o s vector strings
      some (if o.startUaddr = 0 then s.give (some str) else s)

/-- The name of the program is copied, and `sys_exec` called. -/
def execProgram (o : Outcomes) (s : Ledger) (param : ArgVector) : Option Ledger :=
  match kmalloc o s (o.len + 1) with
  | (none, s) => some s
  | (some str, s) => if 0 > o.strzcpyFromUser 0 then some (s.give (some str)) else sysExec o s str param

/-- `SYSCALL_ID_EXEC` -/
def execCall (o : Outcomes) (s : Ledger) : Option Ledger :=
  if o.getArgs ≠ 0 then some s else execProgram o (copyArgs o s).2 (copyArgs o s).1

/-- The call that prints a string. -/
def printCall (o : Outcomes) (s : Ledger) : Ledger :=
  if o.getArgs ≠ 0 then s
  else
    match kmalloc o s (o.len + 1) with
    | (none, s) => s
    | (some str, s) => if 0 > o.strzcpyFromUser 0 then s.give (some str) else s.give (some str)

/-- The first copy of `SYSCALL_ID_MOUNT`, whose result is not looked at. -/
def copySrc (o : Outcomes) (s : Ledger) : Option Nat × Ledger :=
  if o.userSrc ≠ 0 then kmalloc o s (o.srclen + 1) else (none, s)

/-- `SYSCALL_ID_MOUNT`, which does not look at the result of `syscall_get7args` either. -/
def mountCall (o : Outcomes) (s : Ledger) : Ledger :=
  let (kernelSrc, s) := copySrc o s
  let (kernelTarget, s) := kmalloc o s (o.targetLen + 1)
  if o.strzcpyFromUser 1 ≠ 0 then s.give kernelSrc
  else
    let (kernelFstype, s) := kmalloc o s 256
    if o.strzcpyFromUser 2 ≠ 0 then (s.give kernelSrc).give kernelTarget
    else if o.userArgs = 0 then s
    else
      let (_, s) := kmalloc o s 1024
      if o.strzcpyFromUser 3 ≠ 0 then ((s.give kernelSrc).give kernelTarget).give kernelFstype
      else s

/-- `SYSCALL_ID_OPEN` -/
def openCall (o : Outcomes) (s : Ledger) : Ledger :=
  let (path, s) := kmalloc o s (o.len + 1)
  if o.strzcpyFromUser 0 ≠ 0 then s else s.give path

def syscallIdExec : Int := 258
def syscallIdMount : Int := 555
def syscallIdOpen : Int := 559
def syscallIdBrk : Int := 303

/-- The result and the buffers. `sys_exit`, `sys_write`, `sys_read` and `uvmm_brk` are called without a copy. -/
def doSyscalls (o : Outcomes) (syscallId : Int) : Option (Int × Ledger) :=
  if syscallId = syscallIdExec then (execCall o start).map fun s => (0, s)
  else if syscallId = 2 then some (0, printCall o start)
  else if syscallId = syscallIdMount then some (0, mountCall o start)
  else if syscallId = syscallIdOpen then some (0, openCall o start)
  else if syscallId = syscallIdBrk ∧ o.hasAddressSpace = false then some (-7, start)
  else some (0, start)

/-! ## The outcomes without a leak -/

def Outcomes.VectorCopied (o : Outcomes) : Prop := o.kmalloc 0 (4 * (UInt32.ofNat o.srcArgs.length + 1)) = true

/-- There is a buffer for string `i` of the arguments. -/
def Outcomes.StringCopied (o : Outcomes) (i : Nat) : Prop := o.kmalloc (i + 1) (o.srcArgs.getD i 0 + 1) = true

/-- The name of the program could be copied. -/
def Outcomes.StrCopied (o : Outcomes) : Prop :=
  o.kmalloc (if o.srcArgs = [] then 0 else o.srcArgs.length + 1) (o.len + 1) = true ∧ 0 ≤ o.strzcpyFromUser 0

/-- There are no copies of the arguments. -/
def NoArgs (o : Outcomes) : Prop := o.srcArgs = [] ∨ ¬ o.VectorCopied ∧ ∀ i < o.srcArgs.length, ¬ o.StringCopied i

/-- `fill_stack` reaches all the copies of the arguments. -/
def ArgsReached (o : Outcomes) : Prop :=
  (o.srcArgs = [] ∧ o.param = 0) ∨
    o.srcArgs ≠ [] ∧ ¬ o.VectorCopied ∧ (∀ i < o.srcArgs.length, ¬ o.StringCopied i) ∨
    o.srcArgs ≠ [] ∧ o.VectorCopied ∧ ∀ i j, i < j → j < o.srcArgs.length → o.StringCopied j → o.StringCopied i

/-- A program with an argument vector that is rejected, or a failure before anything was copied. -/
def ExecReturns (o : Outcomes) : Prop :=
  o.getArgs ≠ 0 ∨ ¬ o.StrCopied ∧ NoArgs o ∨ o.StrCopied ∧ o.slot = true ∧ o.startUaddr = 0 ∧ ArgsReached o

/-- The buffer whose copy fails is none; nothing is given back where all copies succeed. -/
def MountReturns (o : Outcomes) : Prop :=
  let k := if o.userSrc ≠ 0 then 1 else 0
  if o.strzcpyFromUser 1 ≠ 0 then o.kmalloc k (o.targetLen + 1) = false
  else if o.strzcpyFromUser 2 ≠ 0 then o.kmalloc (k + 1) 256 = false
  else if o.userArgs ≠ 0 ∧ o.strzcpyFromUser 3 ≠ 0 then o.kmalloc (k + 2) 1024 = false
  else (o.userSrc ≠ 0 → o.kmalloc 0 (o.srclen + 1) = false) ∧ o.kmalloc k (o.targetLen + 1) = false ∧
    o.kmalloc (k + 1) 256 = false ∧ (o.userArgs ≠ 0 → o.kmalloc (k + 2) 1024 = false)

def OpenReturns (o : Outcomes) : Prop := o.strzcpyFromUser 0 = 0 ∨ o.kmalloc 0 (o.len + 1) = false

/-- The outcomes in which a call gives everything back. -/
def CopiesReturned (o : Outcomes) (syscallId : Int) : Prop :=
  (syscallId = syscallIdExec → ExecReturns o) ∧ (syscallId = syscallIdMount → MountReturns o) ∧
    (syscallId = syscallIdOpen → OpenReturns o)

/-- The call comes back, with every buffer freed once. -/
def CopiesSettled (o : Outcomes) (syscallId : Int) : Prop := ∃ r, doSyscalls o syscallId = some r ∧ r.2.Settled

/-! ## One buffer after another -/

/-- `n` calls of `kmalloc` were made for the buffers `l`, and none of them was given back. -/
structure Holds (s : Ledger) (n : Nat) (l : List Nat) : Prop where
  numbered : s.Numbered
  next : s.next = n
  obtained : s.obtained = l
  freed : s.freed = []

theorem holds_start : Holds start 0 [] := ⟨start_numbered, rfl, rfl, rfl⟩

section

variable {o : Outcomes} {s : Ledger} {n : Nat} {l : List Nat}

theorem Holds.kmalloc (h : Holds s n l) (size : UInt32) :
    Holds (kmalloc o s size).2 (n + 1) (l ++ (kmalloc o s size).1.toList) ∧
      ((kmalloc o s size).1.toList = [] ↔ o.kmalloc n size = false) := by
  have hnext := h.next
  unfold Copies.kmalloc
  refine ⟨⟨h.numbered.take, ?_, ?_, ?_⟩, ?_⟩
  · rw [take_next, hnext]
  · rw [take_obtained, h.obtained]
  · rw [take_freed, h.freed]
  · rw [take_toList, hnext]

theorem Holds.copySrc : Holds (copySrc o start).2 (if o.userSrc ≠ 0 then 1 else 0) (copySrc o start).1.toList ∧
    ((copySrc o start).1.toList = [] ↔ (o.userSrc ≠ 0 → o.kmalloc 0 (o.srclen + 1) = false)) := by
  unfold Copies.copySrc
  split_ifs with hsrc
  · obtain ⟨hholds, hnone⟩ := @Holds.kmalloc o start 0 [] holds_start (o.srclen + 1)
    exact ⟨hholds, hnone.trans ⟨fun h _ => h, fun h => h hsrc⟩⟩
  · exact ⟨holds_start, iff_of_true rfl fun h => absurd h hsrc⟩

theorem Holds.settled_iff (h : Holds s n l) {t : Ledger} (given kept : List Nat) (hnumbered : t.Numbered)
    (hobtained : t.obtained = s.obtained) (hfreed : t.freed = s.freed ++ given) (hl : l.Perm (given ++ kept)) :
    t.Settled ↔ kept = [] := by
  rw [h.freed, List.nil_append] at hfreed
  refine Ledger.settled_iff hnumbered ?_ (List.Perm.of_eq hfreed)
  rw [hobtained, h.obtained]
  exact hl

/-- Nothing is given back. -/
theorem Holds.settled_nil (h : Holds s n l) : s.Settled ↔ l = [] :=
  h.settled_iff [] l h.numbered rfl (List.append_nil _).symm (List.Perm.refl l)

/-! ## The calls -/

theorem printCall_settled : (printCall o start).Settled := by
  have hnone : ∀ b ∈ start.obtained, start.freed.count b = 1 := fun b hb => absurd hb List.not_mem_nil
  unfold printCall
  by_cases hget : o.getArgs ≠ 0
  · rw [if_pos hget]
    exact hnone
  · rw [if_neg hget]
    unfold Copies.kmalloc take
    cases o.kmalloc start.next (o.len + 1) with
    | false => exact hnone
    | true =>
      show (if 0 > o.strzcpyFromUser 0 then _ else _ : Ledger).Settled
      rw [ite_self]
      decide

theorem openCall_settled : (openCall o start).Settled ↔ OpenReturns o := by
  obtain ⟨hpath, hnone⟩ := @Holds.kmalloc o start 0 [] holds_start (o.len + 1)
  unfold openCall OpenReturns
  dsimp only
  by_cases hcopy : o.strzcpyFromUser 0 = 0
  · rw [if_neg (not_not.mpr hcopy), hpath.settled_iff _ [] hpath.numbered.give rfl rfl (by rw [List.append_nil]; rfl)]
    exact iff_of_true rfl (Or.inl hcopy)
  · rw [if_pos hcopy, hpath.settled_nil, List.nil_append, hnone]
    exact (or_iff_right hcopy).symm

theorem mountCall_settled : (mountCall o start).Settled ↔ MountReturns o := by
  obtain ⟨hsrc, hsrcNone⟩ := @Holds.copySrc o
  unfold mountCall MountReturns
  generalize copySrc o start = src at hsrc hsrcNone
  obtain ⟨kernelSrc, s⟩ := src
  obtain ⟨htarget, htargetNone⟩ := @Holds.kmalloc o _ _ _ hsrc (o.targetLen + 1)
  dsimp only at *
  generalize kmalloc o s (o.targetLen + 1) = target at htarget htargetNone
  obtain ⟨kernelTarget, s₁⟩ := target
  obtain ⟨hfstype, hfstypeNone⟩ := @Holds.kmalloc o _ _ _ htarget 256
  dsimp only at *
  generalize kmalloc o s₁ 256 = fstype at hfstype hfstypeNone
  obtain ⟨kernelFstype, s₂⟩ := fstype
  obtain ⟨hargs, hargsNone⟩ := @Holds.kmalloc o _ _ _ hfstype 1024
  dsimp only at *
  generalize kmalloc o s₂ 1024 = args at hargs hargsNone
  obtain ⟨kernelArgs, s₃⟩ := args
  dsimp only at *
  by_cases h1 : o.strzcpyFromUser 1 ≠ 0
  · -- `kernel_target` is kept.
    rw [if_pos h1, if_pos h1, htarget.settled_iff _ kernelTarget.toList htarget.numbered.give rfl rfl (List.Perm.refl _),
      htargetNone]
  · rw [if_neg h1, if_neg h1]
    by_cases h2 : o.strzcpyFromUser 2 ≠ 0
    · -- `kernel_fstype` is kept.
      rw [if_pos h2, if_pos h2, hfstype.settled_iff (kernelSrc.toList ++ kernelTarget.toList) kernelFstype.toList
        hfstype.numbered.give.give rfl (List.append_assoc _ _ _) (List.Perm.refl _), hfstypeNone]
    · rw [if_neg h2, if_neg h2]
      by_cases h3 : o.userArgs = 0
      · rw [if_pos h3, if_neg fun h => h.1 h3, hfstype.settled_nil, List.append_eq_nil_iff, List.append_eq_nil_iff,
          hsrcNone, htargetNone, hfstypeNone, and_assoc]
        exact and_congr_right fun _ => and_congr_right fun _ => (and_iff_left fun h => absurd h3 h).symm
      · rw [if_neg h3]
        by_cases h4 : o.strzcpyFromUser 3 ≠ 0
        · -- `kernel_args` is kept.
          rw [if_pos h4, if_pos ⟨h3, h4⟩, hargs.settled_iff (kernelSrc.toList ++ kernelTarget.toList ++ kernelFstype.toList)
            kernelArgs.toList hargs.numbered.give.give.give rfl ?_ (List.Perm.refl _), hargsNone]
          rw [give_freed, give_freed, give_freed, List.append_assoc, List.append_assoc, List.append_assoc]
        · rw [if_neg h4, if_neg fun h => h4 h.2, hargs.settled_nil, List.append_eq_nil_iff, List.append_eq_nil_iff,
            List.append_eq_nil_iff, hsrcNone, htargetNone, hfstypeNone, hargsNone, and_assoc, and_assoc]
          exact and_congr_right fun _ => and_congr_right fun _ => and_congr_right fun _ =>
            ⟨fun h _ => h, fun h => h h3⟩

/-! ## exec -/

/-- The copies of the strings. -/
theorem Holds.copyStrings (lens : List UInt32) (h : Holds s n l) :
    Holds (copyStrings o s lens).2 (n + lens.length) (l ++ (copyStrings o s lens).1.reduceOption) ∧
      (copyStrings o s lens).1.length = lens.length ∧
      ∀ i < lens.length, ((copyStrings o s lens).1.getD i none).isSome = o.kmalloc (n + i) (lens.getD i 0 + 1) := by
  induction lens generalizing s n l with
  | nil =>
    refine ⟨?_, rfl, fun i hi => absurd hi (Nat.not_lt_zero i)⟩
    show Holds s n (l ++ [])
    rwa [List.append_nil]
  | cons strlen lens ih =>
    obtain ⟨hparam, -⟩ := @Holds.kmalloc o s n l h (strlen + 1)
    obtain ⟨hrest, hlen, hsome⟩ := ih hparam
    refine ⟨?_, congrArg Nat.succ hlen, fun i hi => ?_⟩
    · show Holds (Copies.copyStrings o (Copies.kmalloc o s (strlen + 1)).2 lens).2 (n + (lens.length + 1))
        (l ++ ((Copies.kmalloc o s (strlen + 1)).1 ::
          (Copies.copyStrings o (Copies.kmalloc o s (strlen + 1)).2 lens).1).reduceOption)
      rw [reduceOption_cons, ← List.append_assoc, show n + (lens.length + 1) = n + 1 + lens.length by omega]
      exact hrest
    · cases i with
      | zero =>
        show (Copies.kmalloc o s (strlen + 1)).1.isSome = o.kmalloc n (strlen + 1)
        unfold Copies.kmalloc
        rw [take_isSome, h.next]
      | succ i =>
        rw [show n + (i + 1) = n + 1 + i by omega]
        exact hsome i (Nat.lt_of_succ_lt_succ hi)

/-- The copies of the arguments. -/
theorem copyArgs_filled (hargs : o.srcArgs ≠ []) : ∃ vector strings s,
    copyArgs o start = (ArgVector.of vector strings, s) ∧
      Holds s (o.srcArgs.length + 1) (vector.toList ++ strings.reduceOption) ∧
      (vector.isSome = true ↔ o.VectorCopied) ∧ strings.length = o.srcArgs.length ∧
      ∀ i < o.srcArgs.length, (strings.getD i none).isSome = true ↔ o.StringCopied i := by
  obtain ⟨hvector, -⟩ := @Holds.kmalloc o start 0 [] holds_start (4 * (UInt32.ofNat o.srcArgs.length + 1))
  obtain ⟨hstrings, hlen, hsome⟩ := Holds.copyStrings (o := o) o.srcArgs hvector
  rw [List.nil_append, Nat.zero_add, Nat.add_comm] at hstrings
  refine ⟨_, _, _, ?_, hstrings, ?_, hlen, fun i hi => ?_⟩
  · unfold copyArgs
    rw [if_neg hargs]
  · unfold Copies.kmalloc
    rw [take_isSome]
    rfl
  · rw [hsome i hi, Nat.zero_add, Nat.add_comm]
    rfl

/-- `fill_stack` gives back the strings up to the first that is missing, the vector, and its own table. -/
theorem Holds.fillStack (h : Holds s n l) (vector : Nat) (strings : List (Option Nat)) :
    ∃ uparam : Option Nat, (fillStack o s vector strings).Numbered ∧
      (fillStack o s vector strings).obtained = l ++ uparam.toList ∧
      (fillStack o s vector strings).freed = (strings.takeWhile Option.isSome).reduceOption ++ [vector] ++
        uparam.toList := by
  obtain ⟨huparam, -⟩ := @Holds.kmalloc o s n l h (4 * UInt32.ofNat (strings.takeWhile Option.isSome).length)
  refine ⟨(Copies.kmalloc o s (4 * UInt32.ofNat (strings.takeWhile Option.isSome).length)).1,
    ((huparam.numbered.giveAll _).give).give, ?_, ?_⟩
  · exact (giveAll_obtained _).trans huparam.obtained
  · unfold Copies.fillStack
    dsimp only
    rw [give_freed, give_freed, giveAll_freed, huparam.freed, List.nil_append]
    rfl

theorem sysExec_null {str : Nat} (h : Holds s n (l ++ [str])) :
    (∃ t, sysExec o s str .null = some t ∧ t.Settled) ↔ o.slot = true ∧ o.startUaddr = 0 ∧ l = [] := by
  have hkept : ¬ s.Settled := by
    rw [h.settled_nil]
    exact List.append_ne_nil_of_right_ne_nil _ (List.cons_ne_nil _ _)
  unfold sysExec
  cases o.slot with
  | false => exact iff_of_false (fun ⟨t, ht, hs⟩ => hkept (Option.some.inj ht ▸ hs)) fun hw => Bool.noConfusion hw.1
  | true =>
    rw [if_neg (by decide)]
    dsimp only
    by_cases hstart : o.startUaddr = 0
    · rw [if_pos hstart]
      have hsettled := @Holds.settled_iff s n _ h (s.give (some str)) [str] l h.numbered.give rfl rfl List.perm_append_comm
      exact ⟨fun ⟨t, ht, hs⟩ => ⟨rfl, hstart, hsettled.mp (Option.some.inj ht ▸ hs)⟩,
        fun hw => ⟨_, rfl, hsettled.mpr hw.2.2⟩⟩
    · rw [if_neg hstart]
      exact iff_of_false (fun ⟨t, ht, hs⟩ => hkept (Option.some.inj ht ▸ hs)) fun hw => hstart hw.2.1

theorem sysExec_filled {str vector : Nat} {strings : List (Option Nat)}
    (h : Holds s n (vector :: strings.reduceOption ++ [str])) :
    (∃ t, sysExec o s str (.filled vector strings) = some t ∧ t.Settled) ↔
      o.slot = true ∧ o.startUaddr = 0 ∧ (strings.dropWhile Option.isSome).reduceOption = [] := by
  have hkept : ¬ s.Settled := by
    rw [h.settled_nil]
    exact List.append_ne_nil_of_right_ne_nil _ (List.cons_ne_nil _ _)
  have hstrings : strings.reduceOption = (strings.takeWhile Option.isSome).reduceOption ++
      (strings.dropWhile Option.isSome).reduceOption := by
    rw [← List.reduceOption_append, List.takeWhile_append_dropWhile]
  obtain ⟨uparam, hnumbered, hobtained, hfreed⟩ := @Holds.fillStack o s n _ h vector strings
  unfold sysExec
  cases o.slot with
  | false => exact iff_of_false (fun ⟨t, ht, hs⟩ => hkept (Option.some.inj ht ▸ hs)) fun hw => Bool.noConfusion hw.1
  | true =>
    rw [if_neg (by decide)]
    dsimp only
    generalize fillStack o s vector strings = filled at hnumbered hobtained hfreed
    generalize (strings.takeWhile Option.isSome).reduceOption = found at hstrings hfreed
    generalize (strings.dropWhile Option.isSome).reduceOption = rest at hstrings
    by_cases hstart : o.startUaddr = 0
    · rw [if_pos hstart]
      have hsettled : (filled.give (some str)).Settled ↔ rest = [] := by
        refine @Ledger.settled_iff (filled.give (some str)) hnumbered.give (found ++ [vector] ++ uparam.toList ++ [str])
          rest ?_ (List.Perm.of_eq ?_)
        · rw [give_obtained, hobtained, hstrings]
          apply List.perm_iff_count.mpr
          intro b
          simp only [List.count_append, List.count_cons, List.count_nil]
          omega
        · rw [give_freed, hfreed]
          rfl
      exact ⟨fun ⟨t, ht, hs⟩ => ⟨rfl, hstart, hsettled.mp (Option.some.inj ht ▸ hs)⟩,
        fun hw => ⟨_, rfl, hsettled.mpr hw.2.2⟩⟩
    · rw [if_neg hstart]
      have hleak : ¬ filled.Settled := by
        rw [@Ledger.settled_iff filled hnumbered (found ++ [vector] ++ uparam.toList) (rest ++ [str]) ?_
          (List.Perm.of_eq hfreed)]
        · exact List.append_ne_nil_of_right_ne_nil _ (List.cons_ne_nil _ _)
        · rw [hobtained, hstrings]
          apply List.perm_iff_count.mpr
          intro b
          simp only [List.count_append, List.count_cons, List.count_nil]
          omega
      exact iff_of_false (fun ⟨t, ht, hs⟩ => hleak (Option.some.inj ht ▸ hs)) fun hw => hstart hw.2.1

/-- `str` is given back where it could not be copied, and left to `sys_exec` otherwise. -/
theorem execProgram_settled {param : ArgVector} {reached : Prop} (h : Holds s n l)
    (hsys : ∀ t str, Holds t (n + 1) (l ++ [str]) → ((∃ u, sysExec o t str param = some u ∧ u.Settled) ↔
      o.slot = true ∧ o.startUaddr = 0 ∧ reached)) :
    (∃ t, execProgram o s param = some t ∧ t.Settled) ↔
      ¬ (o.kmalloc n (o.len + 1) = true ∧ 0 ≤ o.strzcpyFromUser 0) ∧ l = [] ∨
        (o.kmalloc n (o.len + 1) = true ∧ 0 ≤ o.strzcpyFromUser 0) ∧ o.slot = true ∧ o.startUaddr = 0 ∧ reached := by
  obtain ⟨hstr, hnone⟩ := @Holds.kmalloc o s n l h (o.len + 1)
  unfold execProgram
  generalize Copies.kmalloc o s (o.len + 1) = r at hstr hnone
  obtain ⟨str, t⟩ := r
  cases str with
  | none =>
    have hfail : ¬ (o.kmalloc n (o.len + 1) = true ∧ 0 ≤ o.strzcpyFromUser 0) := by
      rw [hnone.mp rfl]
      exact fun hc => Bool.noConfusion hc.1
    change Holds t (n + 1) (l ++ []) at hstr
    rw [List.append_nil] at hstr
    have hsettled := hstr.settled_nil
    exact ⟨fun ⟨u, hu, hs⟩ => Or.inl ⟨hfail, hsettled.mp (Option.some.inj hu ▸ hs)⟩,
      fun hw => ⟨t, rfl, hsettled.mpr (hw.resolve_right fun hc => hfail hc.1).2⟩⟩
  | some str =>
    have hsome : o.kmalloc n (o.len + 1) = true :=
      Bool.of_not_eq_false fun hc => List.cons_ne_nil str [] (hnone.mpr hc)
    dsimp only
    by_cases hcopy : 0 > o.strzcpyFromUser 0
    · rw [if_pos hcopy]
      have hfail : ¬ (o.kmalloc n (o.len + 1) = true ∧ 0 ≤ o.strzcpyFromUser 0) := fun hc => not_le.mpr hcopy hc.2
      have hsettled := @Holds.settled_iff t _ _ hstr (t.give (some str)) [str] l hstr.numbered.give rfl rfl
        List.perm_append_comm
      exact ⟨fun ⟨u, hu, hs⟩ => Or.inl ⟨hfail, hsettled.mp (Option.some.inj hu ▸ hs)⟩,
        fun hw => ⟨_, rfl, hsettled.mpr (hw.resolve_right fun hc => hfail hc.1).2⟩⟩
    · rw [if_neg hcopy, hsys t str hstr]
      have hdone : o.kmalloc n (o.len + 1) = true ∧ 0 ≤ o.strzcpyFromUser 0 := ⟨hsome, not_lt.mp hcopy⟩
      exact ⟨fun hw => Or.inr ⟨hdone, hw⟩, fun hw => (hw.resolve_left fun hc => hc.1 hdone).2⟩

theorem execCall_nil (hargs : o.srcArgs = []) (hget : o.getArgs = 0) :
    (∃ t, execCall o start = some t ∧ t.Settled) ↔
      ¬ o.StrCopied ∨ o.StrCopied ∧ o.slot = true ∧ o.startUaddr = 0 ∧ o.param = 0 := by
  have hexec : execCall o start = execProgram o start (if o.param = 0 then .null else .stray) := by
    unfold execCall copyArgs
    rw [if_neg (not_not.mpr hget), if_pos hargs]
  have hcopied : o.StrCopied ↔ o.kmalloc 0 (o.len + 1) = true ∧ 0 ≤ o.strzcpyFromUser 0 := by
    unfold Outcomes.StrCopied
    rw [if_pos hargs]
  rw [hexec, hcopied, @execProgram_settled o start 0 [] _ (o.param = 0) holds_start ?_, and_iff_left rfl]
  intro t str ht
  by_cases hparam : o.param = 0
  · rw [if_pos hparam, sysExec_null ht]
    exact and_congr_right fun _ => and_congr_right fun _ => iff_of_true rfl hparam
  · rw [if_neg hparam]
    refine iff_of_false ?_ fun hw => hparam hw.2.2
    rintro ⟨u, hu, hs⟩
    unfold sysExec at hu
    cases hslot : o.slot with
    | false =>
      rw [hslot, if_pos (by decide)] at hu
      rw [← Option.some.inj hu, ht.settled_nil] at hs
      cases hs
    | true =>
      rw [hslot, if_neg (by decide)] at hu
      cases hu

theorem execCall_cons (hargs : o.srcArgs ≠ []) (hget : o.getArgs = 0) :
    (∃ t, execCall o start = some t ∧ t.Settled) ↔
      ¬ o.StrCopied ∧ (¬ o.VectorCopied ∧ ∀ i < o.srcArgs.length, ¬ o.StringCopied i) ∨
        o.StrCopied ∧ o.slot = true ∧ o.startUaddr = 0 ∧
          (¬ o.VectorCopied ∧ (∀ i < o.srcArgs.length, ¬ o.StringCopied i) ∨
            o.VectorCopied ∧ ∀ i j, i < j → j < o.srcArgs.length → o.StringCopied j → o.StringCopied i) := by
  obtain ⟨vector, strings, s, hcopy, hholds, hvector, hlen, hsome⟩ := copyArgs_filled hargs
  have hexec : execCall o start = execProgram o s (ArgVector.of vector strings) := by
    unfold execCall
    rw [if_neg (not_not.mpr hget), hcopy]
  have hcopied : o.StrCopied ↔ o.kmalloc (o.srcArgs.length + 1) (o.len + 1) = true ∧ 0 ≤ o.strzcpyFromUser 0 := by
    unfold Outcomes.StrCopied
    rw [if_neg hargs]
  have hnone : strings.reduceOption = [] ↔ ∀ i < o.srcArgs.length, ¬ o.StringCopied i := by
    rw [reduceOption_eq_nil, hlen]
    refine forall_congr' fun i => forall_congr' fun hi => ?_
    rw [← hsome i hi, Bool.not_eq_true]
  rw [hexec, hcopied]
  cases vector with
  | none =>
    have hvector' : ¬ o.VectorCopied := fun hc => Bool.false_ne_true (hvector.mpr hc)
    rw [Option.toList_none, List.nil_append] at hholds
    rw [@execProgram_settled o s _ _ (ArgVector.of none strings) (strings.reduceOption = []) hholds fun t str ht => sysExec_null ht, hnone]
    refine or_congr (and_congr_right fun _ => (and_iff_right hvector').symm) ?_
    refine and_congr_right fun _ => and_congr_right fun _ => and_congr_right fun _ => ?_
    exact ⟨fun hw => Or.inl ⟨hvector', hw⟩, fun hw => (hw.resolve_right fun hc => hvector' hc.1).2⟩
  | some v =>
    have hvector' : o.VectorCopied := hvector.mp rfl
    have hreached : (strings.dropWhile Option.isSome).reduceOption = [] ↔
        ∀ i j, i < j → j < o.srcArgs.length → o.StringCopied j → o.StringCopied i := by
      rw [reduceOption_dropWhile, hlen]
      refine forall_congr' fun i => forall_congr' fun j => forall_congr' fun hij => forall_congr' fun hj => ?_
      rw [hsome j hj, hsome i (Nat.lt_trans hij hj)]
    rw [@execProgram_settled o s _ _ (ArgVector.of (some v) strings)
      ((strings.dropWhile Option.isSome).reduceOption = []) hholds fun t str ht => sysExec_filled ht, hreached]
    refine or_congr (and_congr_right fun _ => iff_of_false (List.cons_ne_nil _ _) fun hc => hc.1 hvector') ?_
    refine and_congr_right fun _ => and_congr_right fun _ => and_congr_right fun _ => ?_
    exact ⟨fun hw => Or.inr ⟨hvector', hw⟩, fun hw => (hw.resolve_left fun hc => hc.1 hvector').2⟩

end

/-! ## Every call -/

theorem execCall_settled (o : Outcomes) : (∃ t, execCall o start = some t ∧ t.Settled) ↔ ExecReturns o := by
  unfold ExecReturns
  by_cases hget : o.getArgs = 0
  · rw [or_iff_right (not_not.mpr hget)]
    unfold NoArgs ArgsReached
    by_cases hargs : o.srcArgs = []
    · rw [execCall_nil hargs hget]
      simp only [hargs, true_or, and_true, true_and, ne_eq, not_true_eq_false, false_and, or_false]
    · rw [execCall_cons hargs hget]
      simp only [hargs, false_or, false_and, ne_eq, not_false_eq_true, true_and]
  · refine iff_of_true ⟨start, ?_, fun b hb => absurd hb List.not_mem_nil⟩ (Or.inl hget)
    unfold execCall
    rw [if_pos hget]

/-- **Every buffer that `do_syscalls` takes is freed once** exactly in the outcomes of `CopiesReturned`. -/
theorem copies_settled_iff (o : Outcomes) (syscallId : Int) :
    CopiesSettled o syscallId ↔ CopiesReturned o syscallId := by
  have hstart : start.Settled := fun b hb => absurd hb List.not_mem_nil
  have hsome : ∀ r : Int × Ledger, (∃ t, some r = some t ∧ t.2.Settled) ↔ r.2.Settled :=
    fun r => ⟨fun ⟨t, ht, hs⟩ => Option.some.inj ht ▸ hs, fun hs => ⟨r, rfl, hs⟩⟩
  unfold CopiesSettled doSyscalls CopiesReturned
  by_cases hexec : syscallId = syscallIdExec
  · subst hexec
    rw [if_pos rfl, and_iff_left ⟨fun h => absurd h (by decide), fun h => absurd h (by decide)⟩, forall_prop_of_true rfl,
      ← execCall_settled]
    constructor
    · rintro ⟨r, hr, hs⟩
      obtain ⟨t, ht, rfl⟩ := Option.map_eq_some_iff.mp hr
      exact ⟨t, ht, hs⟩
    · rintro ⟨t, ht, hs⟩
      exact ⟨(0, t), by rw [ht]; rfl, hs⟩
  · rw [if_neg hexec, and_iff_right fun h => absurd h hexec]
    by_cases hprint : syscallId = 2
    · subst hprint
      rw [if_pos rfl, hsome]
      exact iff_of_true printCall_settled ⟨fun h => absurd h (by decide), fun h => absurd h (by decide)⟩
    · rw [if_neg hprint]
      by_cases hmount : syscallId = syscallIdMount
      · subst hmount
        rw [if_pos rfl, hsome, mountCall_settled, and_iff_left fun h => absurd h (by decide), forall_prop_of_true rfl]
      · rw [if_neg hmount, and_iff_right fun h => absurd h hmount]
        by_cases hopen : syscallId = syscallIdOpen
        · subst hopen
          rw [if_pos rfl, hsome, openCall_settled, forall_prop_of_true rfl]
        · rw [if_neg hopen]
          by_cases hbrk : syscallId = syscallIdBrk ∧ o.hasAddressSpace = false
          · rw [if_pos hbrk, hsome]
            exact iff_of_true hstart fun h => absurd h hopen
          · rw [if_neg hbrk, hsome]
            exact iff_of_true hstart fun h => absurd h hopen

/-- Every buffer is there, and every copy and service succeeds. -/
def allSucceed : Outcomes where
  getArgs := 0
  kmalloc := fun _ _ => true
  strzcpyFromUser := fun _ => 0
  len := 4
  srcArgs := []
  param := 0
  userSrc := 0x40000000
  srclen := 4
  targetLen := 4
  userArgs := 0
  hasAddressSpace := true
  slot := true
  startUaddr := 0x40000000

/-- A mount that succeeds keeps its three buffers. -/
theorem mount_keeps_buffers : ¬ CopiesSettled allSucceed syscallIdMount := by
  rintro ⟨r, hr, hs⟩
  obtain rfl := Option.some.inj hr
  exact absurd hs (by decide)

end Desiros.Syscall.Copies
