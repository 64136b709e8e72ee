import Desiros.Library.Words
import Mathlib.Data.List.Basic
import Mathlib.Logic.Function.Basic

/-!
# File descriptors (`syscalls.c`, `syscall/kunistd.c`)

One process opens, reads and writes files by number. `sysOpen`, `sysRead` and `sysWrite` work on the
descriptor table of the process; `doSyscalls` dispatches to them and `asmSyscalls` is the interrupt stub, which
stores what `do_syscalls` returns in the `eax` of the process. `DescriptorLaw` says what the numbers are for,
`syscalls_descriptorLaw_iff` when the process gets numbers that keep it.
-/

namespace Desiros.Syscall

open Desiros.Library

/-! ## The system calls -/

def fopenMax : Nat := 500

/-- `PAGING_USER_SPACE_SIZE`. -/
def userSpaceSize : UInt32 := 0xC0000000

/-- The file system under the descriptors: `F` is an open file, `W` the state of everything else. -/
structure FileEnv (F W : Type) where
  vfsOpen : List UInt8 → UInt32 → W → Option F × W
  /-- `f_ops->read` is not `NULL`. -/
  hasRead : F → Bool
  read : F → UInt32 → UInt32 → W → Int × W
  write : F → UInt32 → UInt32 → W → Int × W

/-- The words from `current->fd` on, `none` for `NULL`: the first `FOPEN_MAX` are the table. -/
structure ProcState (F W : Type) where
  fd : Nat → Option F
  world : W

variable {F W : Type}

/-- `while (process->fd[i]) i++` over `n` words; it stops nowhere if none of them is `NULL`. -/
def fdSearch (fd : Nat → Option F) : Nat → Nat → Option Nat
  | 0, _ => none
  | n + 1, i => if (fd i).isSome then fdSearch fd n (i + 1) else some i

/-- The words of the address space. -/
def addressableWords : Nat := 1073741824

/-- The descriptor number and the file, if it was opened. -/
def sysOpen (E : FileEnv F W) (s : ProcState F W) (path : List UInt8) (flags : UInt32) :
    Option (Int × Option F × ProcState F W) :=
  match fdSearch s.fd addressableWords 0 with
  | none => none
  | some i =>
    let (ofd, w) := E.vfsOpen path flags s.world
    some (if ofd.isSome then i else -1, ofd, { fd := Function.update s.fd i ofd, world := w })

/-- The result and the file the call chose. -/
def sysRead (E : FileEnv F W) (s : ProcState F W) (fd buf c : UInt32) : Int × Option F × ProcState F W :=
  match s.fd fd.toNat with
  | none => (-1, none, s)
  | some ofd =>
    if !E.hasRead ofd then (-1, some ofd, s)
    else
      let (ret, w) := E.read ofd buf c s.world
      (ret, some ofd, { s with world := w })

/-- The test is for the `read` method here too. -/
def sysWrite (E : FileEnv F W) (s : ProcState F W) (fd buf c : UInt32) : Int × Option F × ProcState F W :=
  match s.fd fd.toNat with
  | none => (-1, none, s)
  | some ofd =>
    if !E.hasRead ofd then (-1, some ofd, s)
    else
      let (ret, w) := E.write ofd buf c s.world
      (ret, some ofd, { s with world := w })

/-- A system call with its registers; `path` is the memory at the user's string. -/
inductive UserCall where
  | open (path : Nat → UInt8) (len flags : UInt32)
  | read (fd buf buflen : UInt32)
  | write (fd buf buflen : UInt32)

/-- `strzcpy_from_user` takes this `max_len`. -/
def validMaxLen (maxLen : UInt32) : Bool := !(decide (maxLen < 1) || decide (maxLen > userSpaceSize))

/-- The string `strzcpy_from_user(path, user_str, len + 1)` leaves in `path`. -/
def copiedPath (path : Nat → UInt8) (len : UInt32) : List UInt8 :=
  ((List.range len.toNat).map path).takeWhile (· ≠ 0)

/-- What a call did: the file it opened and gave a descriptor, and the file it read or wrote. -/
structure Outcome (F : Type) where
  opened : Option F
  target : Option F

/-- `do_syscalls`: whatever `ret` the call left, the function returns 0. -/
def doSyscalls (E : FileEnv F W) (s : ProcState F W) : UserCall → Option (Int × Outcome F × ProcState F W)
  | .open path len flags =>
    if !validMaxLen (len + 1) then some (0, ⟨none, none⟩, s)
    else
      match sysOpen E s (copiedPath path len) flags with
      | none => none
      | some (_, ofd, s) => some (0, ⟨ofd, none⟩, s)
  | .read fd buf buflen =>
    let r := sysRead E s fd buf buflen
    some (0, ⟨none, r.2.1⟩, r.2.2)
  | .write fd buf buflen =>
    let r := sysWrite E s fd buf buflen
    some (0, ⟨none, r.2.1⟩, r.2.2)

/-- A call that returned to the process, with the `eax` it sees. -/
structure Event (F : Type) where
  call : UserCall
  eax : UInt32
  opened : Option F
  target : Option F

/-- `_asm_syscalls`. -/
def asmSyscalls (E : FileEnv F W) (s : ProcState F W) (call : UserCall) : Option (Event F × ProcState F W) :=
  match doSyscalls E s call with
  | none => none
  | some (ret, out, s) => some (⟨call, UInt32.ofInt ret, out.opened, out.target⟩, s)

/-- The calls of a process in order, up to one that does not return. -/
def syscalls (E : FileEnv F W) : ProcState F W → List UserCall → List (Event F)
  | _, [] => []
  | s, call :: calls =>
    match asmSyscalls E s call with
    | none => []
    | some (e, s) => e :: syscalls E s calls

/-! ## What the numbers are for -/

def UserCall.isOpen : UserCall → Bool
  | .open .. => true
  | _ => false

/-- The descriptor number a call is given. -/
def UserCall.number : UserCall → Option UInt32
  | .open .. => none
  | .read fd .. | .write fd .. => some fd

/-- The number of an open chooses the file it opened, and no two opens return the same number. -/
structure DescriptorLaw (es : List (Event F)) : Prop where
  acts : es.Pairwise fun e e' => ∀ f, e.opened = some f → e'.call.number = some e.eax → e'.target = some f
  distinct : es.Pairwise fun e e' => e.opened.isSome → e'.opened.isSome → e.eax ≠ e'.eax

/-- Every open of the sequence has a path the kernel copies and names an existing file. -/
def OpensExisting (E : FileEnv F W) (named : List UInt8 → F) (calls : List UserCall) : Prop :=
  ∀ path len flags, UserCall.open path len flags ∈ calls → validMaxLen (len + 1) = true ∧
    ∀ w, (E.vfsOpen (copiedPath path len) flags w).1 = some (named (copiedPath path len))

/-! ## One call -/

section

variable {E : FileEnv F W} {s : ProcState F W}

/-- The search finds the first free word. -/
theorem fdSearch_spec {fd : Nat → Option F} {j : Nat} (hj : fd j = none) :
    ∀ n i, i ≤ j → j < i + n →
      ∃ k, fdSearch fd n i = some k ∧ k ≤ j ∧ fd k = none ∧ ∀ m, i ≤ m → m < k → fd m ≠ none := by
  intro n
  induction n with
  | zero => intro i hi hlt; omega
  | succ n ih =>
    intro i hi hlt
    unfold fdSearch
    by_cases hfd : fd i = none
    · refine ⟨i, by simp [hfd], hi, hfd, fun m hm hmi => by omega⟩
    · have hne : i ≠ j := fun he => hfd (he ▸ hj)
      obtain ⟨k, hk, hkj, hnone, hfirst⟩ := ih (i + 1) (by omega) (by omega)
      refine ⟨k, ?_, hkj, hnone, fun m hm hmk => ?_⟩
      · rw [if_pos (Option.isSome_iff_ne_none.mpr hfd), hk]
      · by_cases hmi : m = i
        · exact hmi ▸ hfd
        · exact hfirst m (by omega) hmk

theorem sysRead_state (fd buf c : UInt32) : (sysRead E s fd buf c).2.1 = s.fd fd.toNat ∧
    ∃ w, (sysRead E s fd buf c).2.2 = { s with world := w } := by
  unfold sysRead
  cases hfd : s.fd fd.toNat with
  | none => exact ⟨rfl, s.world, rfl⟩
  | some ofd =>
    dsimp only
    split_ifs
    · exact ⟨rfl, s.world, rfl⟩
    · exact ⟨rfl, _, rfl⟩

theorem sysWrite_state (fd buf c : UInt32) : (sysWrite E s fd buf c).2.1 = s.fd fd.toNat ∧
    ∃ w, (sysWrite E s fd buf c).2.2 = { s with world := w } := by
  unfold sysWrite
  cases hfd : s.fd fd.toNat with
  | none => exact ⟨rfl, s.world, rfl⟩
  | some ofd =>
    dsimp only
    split_ifs
    · exact ⟨rfl, s.world, rfl⟩
    · exact ⟨rfl, _, rfl⟩

/-- A read or write returns 0 to the process and leaves the table as it is. -/
theorem asmSyscalls_use {call : UserCall} (h : call.isOpen = false) :
    ∃ n e s', call.number = some n ∧ asmSyscalls E s call = some (e, s') ∧ s'.fd = s.fd ∧
      e.call = call ∧ e.eax = 0 ∧ e.opened = none ∧ e.target = s.fd n.toNat := by
  cases call with
  | «open» path len flags => cases h
  | read fd buf buflen =>
    obtain ⟨htarget, w, hw⟩ := @sysRead_state _ _ E s fd buf buflen
    exact ⟨fd, _, _, rfl, rfl, by rw [hw], rfl, rfl, rfl, htarget⟩
  | write fd buf buflen =>
    obtain ⟨htarget, w, hw⟩ := @sysWrite_state _ _ E s fd buf buflen
    exact ⟨fd, _, _, rfl, rfl, by rw [hw], rfl, rfl, rfl, htarget⟩

/-- An open of an existing file returns 0 too, and fills the first free entry. -/
theorem asmSyscalls_open {path : Nat → UInt8} {len flags : UInt32} {f : F} {j : Nat}
    (hlen : validMaxLen (len + 1) = true)
    (hopen : (E.vfsOpen (copiedPath path len) flags s.world).1 = some f)
    (hfree : s.fd j = none) (hj : j < fopenMax) :
    ∃ e s' k, asmSyscalls E s (.open path len flags) = some (e, s') ∧
      s'.fd = Function.update s.fd k (some f) ∧ k ≤ j ∧ s.fd k = none ∧ (∀ m < k, s.fd m ≠ none) ∧
      e.eax = 0 ∧ e.opened = some f ∧ e.call = .open path len flags := by
  obtain ⟨k, hk, hkj, hnone, hfirst⟩ := fdSearch_spec hfree addressableWords 0 (by omega)
    (by unfold fopenMax at hj; unfold addressableWords; omega)
  have hsys : sysOpen E s (copiedPath path len) flags = some ((k : Int), some f,
      { fd := Function.update s.fd k (some f)
        world := (E.vfsOpen (copiedPath path len) flags s.world).2 }) := by
    unfold sysOpen
    rw [hk]
    simp [hopen]
  refine ⟨⟨.open path len flags, 0, some f, none⟩,
    { fd := Function.update s.fd k (some f)
      world := (E.vfsOpen (copiedPath path len) flags s.world).2 }, k, ?_, rfl, hkj, hnone,
    fun m hm => hfirst m (by omega) hm, rfl, rfl, rfl⟩
  unfold asmSyscalls doSyscalls
  simp only [hlen, hsys]
  rfl

/-! ## A sequence of calls -/

/-- What the process sees of a read or write with the table `fd`. -/
structure UseEvent (fd : Nat → Option F) (e : Event F) : Prop where
  eax : e.eax = 0
  opened : e.opened = none
  target : ∀ n, e.call.number = some n → e.target = fd n.toNat

theorem syscalls_cons {s s' : ProcState F W} {call : UserCall} {e : Event F}
    (h : asmSyscalls E s call = some (e, s')) (calls : List UserCall) :
    syscalls E s (call :: calls) = e :: syscalls E s' calls := by
  rw [syscalls, h]

/-- Reads and writes return one after the other. -/
theorem syscalls_uses (pre : List UserCall) :
    ∀ s : ProcState F W, (∀ c ∈ pre, c.isOpen = false) →
      ∃ es s', s'.fd = s.fd ∧ es.map Event.call = pre ∧ (∀ e ∈ es, UseEvent s.fd e) ∧
        ∀ cs, syscalls E s (pre ++ cs) = es ++ syscalls E s' cs := by
  induction pre with
  | nil => exact fun s _ => ⟨[], s, rfl, rfl, fun e he => absurd he List.not_mem_nil, fun cs => rfl⟩
  | cons c pre ih =>
    intro s hpre
    obtain ⟨n, e, s₁, hnum, hstep, hfd₁, hcall, heax, hopened, htarget⟩ :=
      @asmSyscalls_use _ _ E s c (hpre c List.mem_cons_self)
    obtain ⟨es, s₂, hfd₂, hmap, huse, hrun⟩ := ih s₁ fun c hc => hpre c (List.mem_cons_of_mem _ hc)
    refine ⟨e :: es, s₂, hfd₂.trans hfd₁, by rw [List.map_cons, hcall, hmap], fun e' he' => ?_, fun cs => ?_⟩
    · cases List.mem_cons.mp he' with
      | inl heq =>
        rw [heq]
        refine ⟨heax, hopened, fun m hm => ?_⟩
        rw [hcall, hnum] at hm
        rw [htarget, Option.some.inj hm]
      | inr hmem => exact hfd₁ ▸ huse e' hmem
    · rw [List.cons_append, syscalls_cons hstep, hrun, List.cons_append]

/-- The calls of a process up to its first open. -/
theorem first_open (calls : List UserCall) :
    (∀ c ∈ calls, c.isOpen = false) ∨
      ∃ pre path len flags post, calls = pre ++ .open path len flags :: post ∧ ∀ c ∈ pre, c.isOpen = false := by
  induction calls with
  | nil => exact Or.inl fun c hc => absurd hc List.not_mem_nil
  | cons c calls ih =>
    cases hc : c.isOpen with
    | true =>
      cases c with
      | «open» path len flags => exact Or.inr ⟨[], path, len, flags, calls, rfl, by simp⟩
      | read => cases hc
      | write => cases hc
    | false =>
      rcases ih with hall | ⟨pre, path, len, flags, post, heq, hpre⟩
      · left
        intro d hd
        cases List.mem_cons.mp hd with
        | inl he => rw [he]; exact hc
        | inr hmem => exact hall d hmem
      · right
        refine ⟨c :: pre, path, len, flags, post, by rw [heq, List.cons_append], fun d hd => ?_⟩
        cases List.mem_cons.mp hd with
        | inl he => rw [he]; exact hc
        | inr hmem => exact hpre d hmem

/-- An open after reads and writes. -/
theorem syscalls_open {named : List UInt8 → F} {pre post : List UserCall} {path : Nat → UInt8}
    {len flags : UInt32} {j : Nat} (hpre : ∀ c ∈ pre, c.isOpen = false)
    (hexist : OpensExisting E named (pre ++ .open path len flags :: post))
    (hfree : s.fd j = none) (hj : j < fopenMax) :
    ∃ es e s' k, syscalls E s (pre ++ .open path len flags :: post) = es ++ e :: syscalls E s' post ∧
      (∀ e ∈ es, UseEvent s.fd e) ∧ e.eax = 0 ∧ e.opened = some (named (copiedPath path len)) ∧
      s'.fd = Function.update s.fd k (some (named (copiedPath path len))) ∧ k ≤ j ∧ s.fd k = none ∧
      ∀ m < k, s.fd m ≠ none := by
  obtain ⟨es, s₁, hfd₁, _, huse, hrun⟩ := @syscalls_uses _ _ E pre s hpre
  obtain ⟨hlen, hopen⟩ := hexist path len flags (List.mem_append_right _ List.mem_cons_self)
  obtain ⟨e, s₂, k, hstep, hfd₂, hkj, hnone, hfirst, heax, hopened, _⟩ :=
    @asmSyscalls_open _ _ E s₁ path len flags _ j hlen (hopen s₁.world) (hfd₁ ▸ hfree) hj
  rw [hfd₁] at hfd₂ hnone hfirst
  exact ⟨es, e, s₂, k, by rw [hrun, syscalls_cons hstep], huse, heax, hopened, hfd₂, hkj, hnone, hfirst⟩

/-- A relation that only an element in the middle puts on those after it. -/
theorem pairwise_middle {α : Type} {R : α → α → Prop} {l l' : List α} {x : α} (hl : ∀ a ∈ l, ∀ b, R a b)
    (hl' : ∀ a ∈ l', ∀ b, R a b) (hx : ∀ b ∈ l', R x b) : (l ++ x :: l').Pairwise R := by
  rw [List.pairwise_append, List.pairwise_cons]
  exact ⟨List.pairwise_of_forall_mem_list fun a ha b _ => hl a ha b,
    ⟨hx, List.pairwise_of_forall_mem_list fun a ha b _ => hl' a ha b⟩, fun a ha b _ => hl a ha b⟩

/-- What the law asks of the uses after the only open. -/
theorem descriptorLaw_open {fd fd' : Nat → Option F} {es es' : List (Event F)} {e : Event F} {f : F}
    (huse : ∀ e ∈ es, UseEvent fd e) (huse' : ∀ e ∈ es', UseEvent fd' e) (heax : e.eax = 0)
    (hopened : e.opened = some f) :
    DescriptorLaw (es ++ e :: es') ↔ ((∃ e' ∈ es', e'.call.number = some 0) → fd' 0 = some f) := by
  constructor
  · intro hlaw hzero
    obtain ⟨e', he', hnum⟩ := hzero
    have hacts := (List.pairwise_append.mp hlaw.acts).2.1
    have htarget := (List.pairwise_cons.mp hacts).1 e' he' f hopened (heax.symm ▸ hnum)
    rw [(huse' e' he').target 0 hnum] at htarget
    exact htarget
  · intro hzero
    have hnone : ∀ {table : Nat → Option F} {a : Event F}, UseEvent table a → ∀ g, a.opened ≠ some g := by
      intro table a ha g hg
      rw [ha.opened] at hg
      cases hg
    constructor
    · apply pairwise_middle
      · exact fun a ha b g hg => absurd hg (hnone (huse a ha) g)
      · exact fun a ha b g hg => absurd hg (hnone (huse' a ha) g)
      · intro b hb g hg hnum
        rw [heax] at hnum
        rw [(huse' b hb).target 0 hnum, ← hg, hopened]
        exact hzero ⟨b, hb, hnum⟩
    · apply pairwise_middle
      · intro a ha b hsome
        rw [(huse a ha).opened] at hsome
        cases hsome
      · intro a ha b hsome
        rw [(huse' a ha).opened] at hsome
        cases hsome
      · intro b hb _ hsome
        rw [(huse' b hb).opened] at hsome
        cases hsome

/-- A second open returns the same number. -/
theorem not_descriptorLaw_of_opens {es es' : List (Event F)} {e e' : Event F} (heax : e.eax = 0)
    (heax' : e'.eax = 0) (hopened : e.opened.isSome = true) (hopened' : e'.opened.isSome = true)
    (he' : e' ∈ es') : ¬ DescriptorLaw (es ++ e :: es') := by
  intro hlaw
  have hdistinct := (List.pairwise_append.mp hlaw.distinct).2.1
  exact (List.pairwise_cons.mp hdistinct).1 e' he' hopened hopened' (heax.trans heax'.symm)

/-- The one element of a list that satisfies `p` splits it in one way. -/
theorem split_unique {α : Type} {p : α → Bool} {a b : α} {l l₁ l₂ : List α} (hl : ∀ c ∈ l, p c = false)
    (hl₁ : ∀ c ∈ l₁, p c = false) (hb : p b = true) :
    ∀ l', l ++ a :: l₁ = l' ++ b :: l₂ → a = b ∧ l₁ = l₂ := by
  induction l with
  | nil =>
    intro l' heq
    cases l' with
    | nil => exact List.cons.inj heq
    | cons c l' =>
      have hmem : b ∈ l₁ := by
        rw [(List.cons.inj heq).2]
        exact List.mem_append_right _ List.mem_cons_self
      rw [hl₁ b hmem] at hb
      cases hb
  | cons c l ih =>
    intro l' heq
    cases l' with
    | nil =>
      have hcb : c = b := (List.cons.inj heq).1
      rw [← hcb, hl c List.mem_cons_self] at hb
      cases hb
    | cons d l' => exact ih (fun c hc => hl c (List.mem_cons_of_mem _ hc)) l' (List.cons.inj heq).2

theorem descriptorLaw_uses {fd : Nat → Option F} {es : List (Event F)} (huse : ∀ e ∈ es, UseEvent fd e) :
    DescriptorLaw es := by
  constructor
  · apply List.pairwise_of_forall_mem_list
    intro a ha b _ g hg
    rw [(huse a ha).opened] at hg
    cases hg
  · apply List.pairwise_of_forall_mem_list
    intro a ha b _ hsome
    rw [(huse a ha).opened] at hsome
    cases hsome

/-- **Descriptor numbers work for a process that opens one file**, unless it inherited descriptor 0. -/
theorem syscalls_descriptorLaw_iff (E : FileEnv F W) (named : List UInt8 → F) (s : ProcState F W)
    (calls : List UserCall) (hexist : OpensExisting E named calls)
    (hroom : ∃ i j, i < j ∧ j < fopenMax ∧ s.fd i = none ∧ s.fd j = none) :
    DescriptorLaw (syscalls E s calls) ↔
      calls.countP UserCall.isOpen ≤ 1 ∧
        ∀ pre path len flags post, calls = pre ++ .open path len flags :: post →
          (∃ c ∈ post, c.number = some 0) → s.fd 0 = none ∨ s.fd 0 = some (named (copiedPath path len)) := by
  obtain ⟨i, j, hij, hj, hi_free, hj_free⟩ := hroom
  rcases first_open calls with hall | ⟨pre, path, len, flags, post, heq, hpre⟩
  · -- Reads and writes only.
    obtain ⟨es, s', _, _, huse, hrun⟩ := @syscalls_uses _ _ E calls s hall
    have hes := hrun []
    rw [List.append_nil, syscalls, List.append_nil] at hes
    refine iff_of_true (hes ▸ descriptorLaw_uses huse) ⟨?_, ?_⟩
    · rw [List.countP_eq_zero.mpr fun c hc => by rw [hall c hc]; exact Bool.false_ne_true]
      exact Nat.zero_le 1
    · intro pre path len flags post heq
      have hopen := hall (.open path len flags) (heq ▸ List.mem_append_right _ List.mem_cons_self)
      cases hopen
  subst heq
  obtain ⟨es, e, s', k, hrun, huse, heax, hopened, hfd, hki, hk_free, hfirst⟩ :=
    @syscalls_open _ _ E s named pre post path len flags i hpre hexist hi_free (by omega)
  have hcount : (pre ++ UserCall.open path len flags :: post).countP UserCall.isOpen =
      post.countP UserCall.isOpen + 1 := by
    rw [List.countP_append, List.countP_eq_zero.mpr fun c hc => by rw [hpre c hc]; exact Bool.false_ne_true,
      List.countP_cons_of_pos rfl, Nat.zero_add]
  rw [hrun, hcount]
  rcases first_open post with hpost | ⟨pre₂, path₂, len₂, flags₂, post₂, heq₂, hpre₂⟩
  · -- One open: the uses after it read the table with the new entry.
    obtain ⟨es', s'', _, hmap, huse', hrun'⟩ := @syscalls_uses _ _ E post s' hpost
    have hes' := hrun' []
    rw [List.append_nil, syscalls, List.append_nil] at hes'
    rw [hes', descriptorLaw_open huse huse' heax hopened, hfd,
      List.countP_eq_zero.mpr fun c hc => by rw [hpost c hc]; exact Bool.false_ne_true]
    have hzero : Function.update s.fd k (some (named (copiedPath path len))) 0 =
        some (named (copiedPath path len)) ↔
          s.fd 0 = none ∨ s.fd 0 = some (named (copiedPath path len)) := by
      by_cases hk : k = 0
      · rw [hk, Function.update_self]
        exact iff_of_true rfl (Or.inl (hk ▸ hk_free))
      · rw [Function.update_of_ne (Ne.symm hk)]
        exact ⟨Or.inr, fun h => h.resolve_left (hfirst 0 (by omega))⟩
    have hcalls : (∃ e' ∈ es', e'.call.number = some 0) ↔ ∃ c ∈ post, c.number = some 0 := by
      rw [← hmap]
      simp only [List.mem_map, exists_exists_and_eq_and]
    rw [hzero, hcalls]
    constructor
    · intro himp
      refine ⟨Nat.le_refl 1, fun pre₃ path₃ len₃ flags₃ post₃ heq₃ => ?_⟩
      obtain ⟨hcall, hrest⟩ := split_unique hpre hpost rfl pre₃ heq₃
      injection hcall with hpath hlen
      rw [← hrest, ← hpath, ← hlen]
      exact himp
    · exact fun h => h.2 pre path len flags post rfl
  · -- Two opens.
    obtain ⟨es₂, e₂, s₂, _, hrun₂, _, heax₂, hopened₂, _⟩ :=
      @syscalls_open _ _ E s' named pre₂ post₂ path₂ len₂ flags₂ j hpre₂
        (fun p l fl hmem => hexist p l fl
          (List.mem_append_right _ (List.mem_cons_of_mem _ (heq₂ ▸ hmem))))
        (by rw [hfd, Function.update_of_ne (by omega), hj_free]) hj
    have hpos : 1 ≤ post.countP UserCall.isOpen := by
      apply List.countP_pos_iff.mpr
      exact ⟨.open path₂ len₂ flags₂, heq₂ ▸ List.mem_append_right _ List.mem_cons_self, rfl⟩
    refine iff_of_false ?_ (fun h => by omega)
    rw [heq₂, hrun₂]
    exact not_descriptorLaw_of_opens heax heax₂ (by rw [hopened]; rfl) (by rw [hopened₂]; rfl)
      (List.mem_append_right _ List.mem_cons_self)

end

/-! ## A process with two files -/

/-- Every path is a file and names it. -/
def pathEnv : FileEnv (List UInt8) Unit where
  vfsOpen := fun path _ w => (some path, w)
  hasRead := fun _ => true
  read := fun _ _ c w => (c.toNat, w)
  write := fun _ _ c w => (c.toNat, w)

/-- A process with no descriptors. -/
def noDescriptors : ProcState (List UInt8) Unit := ⟨fun _ => none, ()⟩

/-- The string of one letter in the memory of the process. -/
def letter (c : UInt8) : Nat → UInt8 := fun i => if i = 0 then c else 0

theorem pathEnv_opensExisting (calls : List UserCall)
    (h : ∀ path len flags, UserCall.open path len flags ∈ calls → validMaxLen (len + 1) = true) :
    OpensExisting pathEnv id calls := fun path len flags hmem => ⟨h path len flags hmem, fun _ => rfl⟩

/-- The process opens `a` and `b` and writes to the number it got for `b`: both numbers are 0 and the write
goes to `a`. -/
theorem syscalls_open_twice :
    ¬ DescriptorLaw (syscalls pathEnv noDescriptors
      [.open (letter 97) 1 0, .open (letter 98) 1 0, .write 0 0x40000000 5]) ∧
    (syscalls pathEnv noDescriptors
      [.open (letter 97) 1 0, .open (letter 98) 1 0, .write 0 0x40000000 5]).map
        (fun e => (e.eax, e.opened, e.target)) =
      [(0, some [97], none), (0, some [98], none), (0, none, some [97])] := by
  have hrun : (syscalls pathEnv noDescriptors
      [.open (letter 97) 1 0, .open (letter 98) 1 0, .write 0 0x40000000 5]).map
        (fun e => (e.eax, e.opened, e.target)) =
      [(0, some [97], none), (0, some [98], none), (0, none, some [97])] := by decide +kernel
  refine ⟨fun hlaw => ?_, hrun⟩
  have hdistinct : ((syscalls pathEnv noDescriptors
      [.open (letter 97) 1 0, .open (letter 98) 1 0, .write 0 0x40000000 5]).map
        (fun e => (e.eax, e.opened, e.target))).Pairwise
      (fun a b => a.2.1.isSome → b.2.1.isSome → a.1 ≠ b.1) := List.pairwise_map.mpr hlaw.distinct
  rw [hrun] at hdistinct
  exact (List.pairwise_cons.mp hdistinct).1 _ List.mem_cons_self rfl rfl rfl

/-- A process that only opens `a`, reads and writes it. -/
theorem syscalls_open_once :
    DescriptorLaw (syscalls pathEnv noDescriptors
      [.read 3 0x40000000 5, .open (letter 97) 1 0, .write 0 0x40000000 5, .read 0 0x40000000 5]) := by
  apply (syscalls_descriptorLaw_iff pathEnv id noDescriptors _ (pathEnv_opensExisting _ ?_)
    ⟨0, 1, by decide, by decide, rfl, rfl⟩).mpr
  · exact ⟨by decide, fun _ _ _ _ _ _ _ => Or.inl rfl⟩
  · intro path len flags hmem
    simp only [List.mem_cons, List.not_mem_nil, reduceCtorEq, false_or, or_false, UserCall.open.injEq] at hmem
    rw [hmem.2.1]
    decide

end Desiros.Syscall
