import Desiros.Library.Runs
import Desiros.Syscall.FileDescriptors

/-!
# Bounds of the descriptor table (`syscall/kunistd.c`)

`fd[FOPEN_MAX]` is followed by the other fields of `struct process`. The system calls of `FileDescriptors.lean`, and
`sys_seek`, are given here with what they touch: the entries they index, the entries they write and the operations
they call. `fileCalls_bounded_iff` says which runs stay inside the table and call no `NULL` operation.
-/

namespace Desiros.Syscall

open Desiros.Library

/-- The operations of `f_ops` that the system calls use. -/
inductive FileOp | read | write | seek
deriving DecidableEq, Repr

/-- The file system with its operation tables. -/
structure OpsEnv (F W : Type) extends FileEnv F W where
  /-- `f_ops->write` and `f_ops->seek` are not `NULL`. -/
  hasWrite : F → Bool
  hasSeek : F → Bool
  seek : F → Int → Int → W → W
  currentOctet : F → W → Int
  /-- What `sys_seek` finds in `ofd` when it has not assigned to it. -/
  unassigned : W → F

variable {F W : Type}

def OpsEnv.hasOp (E : OpsEnv F W) : FileOp → F → Bool
  | .read => E.hasRead
  | .write => E.hasWrite
  | .seek => E.hasSeek

/-- What a system call does to the table, and the operations it calls. -/
inductive Access (F : Type) where
  | index (i : Nat)
  | assign (i : Nat)
  | call (op : FileOp) (ofd : F)

/-- What a call returns and leaves, `none` if it does not return, and what it touched. -/
structure Traced (F W : Type) where
  accesses : List (Access F)
  result : Option (Int × ProcState F W)

/-! ## The system calls -/

/-- The search of `sys_open` with the entries it tests. -/
def fdSearchTraced (fd : Nat → Option F) : Nat → Nat → List (Access F) × Option Nat
  | 0, _ => ([], none)
  | n + 1, i =>
    if (fd i).isSome then (.index i :: (fdSearchTraced fd n (i + 1)).1, (fdSearchTraced fd n (i + 1)).2)
    else ([.index i], some i)

def sysOpenTraced (E : OpsEnv F W) (s : ProcState F W) (path : List UInt8) (flags : UInt32) : Traced F W :=
  match fdSearchTraced s.fd addressableWords 0 with
  | (accesses, none) => ⟨accesses, none⟩
  | (accesses, some i) =>
    let (ofd, w) := E.vfsOpen path flags s.world
    ⟨accesses ++ [.assign i],
      some (if ofd.isSome then i else -1, { fd := Function.update s.fd i ofd, world := w })⟩

def sysReadTraced (E : OpsEnv F W) (s : ProcState F W) (fd buf c : UInt32) : Traced F W :=
  match s.fd fd.toNat with
  | none => ⟨[.index fd.toNat], some (-1, s)⟩
  | some ofd =>
    if !E.hasRead ofd then ⟨[.index fd.toNat], some (-1, s)⟩
    else
      let (ret, w) := E.read ofd buf c s.world
      ⟨[.index fd.toNat, .call .read ofd], some (ret, { s with world := w })⟩

/-- The test is for the `read` operation here too. -/
def sysWriteTraced (E : OpsEnv F W) (s : ProcState F W) (fd buf c : UInt32) : Traced F W :=
  match s.fd fd.toNat with
  | none => ⟨[.index fd.toNat], some (-1, s)⟩
  | some ofd =>
    if !E.hasRead ofd then ⟨[.index fd.toNat], some (-1, s)⟩
    else
      let (ret, w) := E.write ofd buf c s.world
      ⟨[.index fd.toNat, .call .write ofd], some (ret, { s with world := w })⟩

/-- The value is the one left in `*offset`. -/
def sysSeekTraced (E : OpsEnv F W) (s : ProcState F W) (fd : UInt32) (offset whence : Int) : Traced F W :=
  let ofd := (s.fd fd.toNat).getD (E.unassigned s.world)
  if !E.hasSeek ofd then ⟨[.index fd.toNat], some (-1, s)⟩
  else
    let w := E.seek ofd offset whence s.world
    ⟨[.index fd.toNat, .call .seek ofd], some (E.currentOctet ofd w, { s with world := w })⟩

inductive FileCall where
  | open (path : List UInt8) (flags : UInt32)
  | read (fd buf c : UInt32)
  | write (fd buf c : UInt32)
  | seek (fd : UInt32) (offset whence : Int)

def fileCall (E : OpsEnv F W) (s : ProcState F W) : FileCall → Traced F W
  | .open path flags => sysOpenTraced E s path flags
  | .read fd buf c => sysReadTraced E s fd buf c
  | .write fd buf c => sysWriteTraced E s fd buf c
  | .seek fd offset whence => sysSeekTraced E s fd offset whence

/-- The state after a call; a call that does not return changes nothing more. -/
def fileCallStep (E : OpsEnv F W) (s : ProcState F W) (call : FileCall) : ProcState F W :=
  match (fileCall E s call).result with
  | none => s
  | some (_, s') => s'

/-! ## What they touch is all that is new -/

theorem fdSearchTraced_snd (fd : Nat → Option F) (n : Nat) : ∀ i, (fdSearchTraced fd n i).2 = fdSearch fd n i := by
  induction n with
  | zero => exact fun i => rfl
  | succ n ih =>
    intro i
    rw [fdSearchTraced, fdSearch]
    split_ifs
    · exact ih (i + 1)
    · rfl

theorem sysOpenTraced_result (E : OpsEnv F W) (s : ProcState F W) (path : List UInt8) (flags : UInt32) :
    (sysOpenTraced E s path flags).result = (sysOpen E.toFileEnv s path flags).map fun r => (r.1, r.2.2) := by
  have hsearch := fdSearchTraced_snd s.fd addressableWords 0
  rw [sysOpenTraced, sysOpen, ← hsearch]
  rcases fdSearchTraced s.fd addressableWords 0 with ⟨accesses, found⟩
  cases found <;> rfl

theorem sysReadTraced_result (E : OpsEnv F W) (s : ProcState F W) (fd buf c : UInt32) :
    (sysReadTraced E s fd buf c).result =
      some ((sysRead E.toFileEnv s fd buf c).1, (sysRead E.toFileEnv s fd buf c).2.2) := by
  rw [sysReadTraced, sysRead]
  cases s.fd fd.toNat with
  | none => rfl
  | some ofd =>
    dsimp only
    split_ifs <;> rfl

theorem sysWriteTraced_result (E : OpsEnv F W) (s : ProcState F W) (fd buf c : UInt32) :
    (sysWriteTraced E s fd buf c).result =
      some ((sysWrite E.toFileEnv s fd buf c).1, (sysWrite E.toFileEnv s fd buf c).2.2) := by
  rw [sysWriteTraced, sysWrite]
  cases s.fd fd.toNat with
  | none => rfl
  | some ofd =>
    dsimp only
    split_ifs <;> rfl

/-! ## Bounds -/

/-- The call stays inside the table, fails when there is no room, and calls operations that exist. -/
structure CallBounded (E : OpsEnv F W) (s : ProcState F W) (call : FileCall) : Prop where
  index : ∀ i, Access.index i ∈ (fileCall E s call).accesses → i < fopenMax
  assign : ∀ i, Access.assign i ∈ (fileCall E s call).accesses → i < fopenMax
  full : ∀ path flags, call = .open path flags → (∀ i < fopenMax, s.fd i ≠ none) →
    ∃ s', (fileCall E s call).result = some (-1, s')
  exists_op : ∀ op ofd, Access.call op ofd ∈ (fileCall E s call).accesses → E.hasOp op ofd = true

/-- An open finds an entry, a number is one of the table, and a file that can be read can be written when it is. -/
def CallGood (E : OpsEnv F W) (s : ProcState F W) : FileCall → Prop
  | .open _ _ => ∃ i < fopenMax, s.fd i = none
  | .read fd _ _ => fd.toNat < fopenMax
  | .write fd _ _ => fd.toNat < fopenMax ∧ ∀ ofd, s.fd fd.toNat = some ofd → E.hasRead ofd = true → E.hasWrite ofd = true
  | .seek fd _ _ => fd.toNat < fopenMax

section

variable {E : OpsEnv F W} {s : ProcState F W}

/-- The search tests every entry up to the first free one. -/
theorem index_mem_fdSearchTraced {fd : Nat → Option F} {j : Nat} (n : Nat) : ∀ i, i ≤ j → j < i + n →
    (∀ m, i ≤ m → m < j → fd m ≠ none) → Access.index j ∈ (fdSearchTraced fd n i).1 := by
  induction n with
  | zero => intro i hi hlt; omega
  | succ n ih =>
    intro i hi hlt hbusy
    rw [fdSearchTraced]
    by_cases hij : i = j
    · split_ifs
      · exact hij ▸ List.mem_cons_self
      · exact hij ▸ List.mem_cons_self
    · have hi_busy := hbusy i (Nat.le_refl i) (by omega)
      rw [if_pos (Option.isSome_iff_ne_none.mpr hi_busy)]
      apply List.mem_cons_of_mem
      exact ih (i + 1) (by omega) (by omega) fun m hm hmj => hbusy m (by omega) hmj

/-- It goes no further than a free entry. -/
theorem fdSearchTraced_le {fd : Nat → Option F} {j : Nat} (hj : fd j = none) (n : Nat) : ∀ i, i ≤ j → j < i + n →
    (∀ k, Access.index k ∈ (fdSearchTraced fd n i).1 → k ≤ j) ∧ ∃ k ≤ j, (fdSearchTraced fd n i).2 = some k := by
  induction n with
  | zero => intro i hi hlt; omega
  | succ n ih =>
    intro i hi hlt
    rw [fdSearchTraced]
    by_cases hfree : fd i = none
    · rw [if_neg (by simp [hfree])]
      refine ⟨fun k hk => ?_, i, hi, rfl⟩
      cases List.mem_singleton.mp hk
      exact hi
    · have hne : i ≠ j := fun he => hfree (he ▸ hj)
      rw [if_pos (Option.isSome_iff_ne_none.mpr hfree)]
      obtain ⟨hle, k, hk, hfound⟩ := ih (i + 1) (by omega) (by omega)
      refine ⟨fun m hm => ?_, k, hk, hfound⟩
      cases List.mem_cons.mp hm with
      | inl heq =>
        cases heq
        exact hi
      | inr hmem => exact hle m hmem

/-- The search itself assigns nothing and calls nothing. -/
theorem fdSearchTraced_index {fd : Nat → Option F} (n : Nat) : ∀ i, ∀ a ∈ (fdSearchTraced fd n i).1,
    ∃ k, a = .index k := by
  induction n with
  | zero => exact fun i a ha => absurd ha List.not_mem_nil
  | succ n ih =>
    intro i a ha
    rw [fdSearchTraced] at ha
    split_ifs at ha
    · cases List.mem_cons.mp ha with
      | inl heq => exact ⟨i, heq⟩
      | inr hmem => exact ih (i + 1) a hmem
    · exact ⟨i, List.mem_singleton.mp ha⟩

theorem open_bounded_iff (path : List UInt8) (flags : UInt32) :
    CallBounded E s (.open path flags) ↔ ∃ i < fopenMax, s.fd i = none := by
  have hsearch : (sysOpenTraced E s path flags).accesses = (fdSearchTraced s.fd addressableWords 0).1 ∨
      ∃ i, (fdSearchTraced s.fd addressableWords 0).2 = some i ∧
        (sysOpenTraced E s path flags).accesses = (fdSearchTraced s.fd addressableWords 0).1 ++ [.assign i] := by
    rw [sysOpenTraced]
    rcases fdSearchTraced s.fd addressableWords 0 with ⟨accesses, found⟩
    cases found with
    | none => exact Or.inl rfl
    | some i => exact Or.inr ⟨i, rfl, rfl⟩
  have hindex : ∀ i, Access.index i ∈ (sysOpenTraced E s path flags).accesses ↔
      Access.index i ∈ (fdSearchTraced s.fd addressableWords 0).1 := by
    intro i
    rcases hsearch with heq | ⟨j, -, heq⟩
    · rw [heq]
    · rw [heq, List.mem_append]
      simp
  constructor
  · intro h
    by_contra hfull
    push Not at hfull
    have hmem := @index_mem_fdSearchTraced _ s.fd fopenMax addressableWords 0 (Nat.zero_le _) (by decide)
      fun m _ hm => hfull m hm
    exact absurd (h.index fopenMax ((hindex _).mpr hmem)) (Nat.lt_irrefl _)
  · rintro ⟨j, hj, hfree⟩
    have hwords : fopenMax < addressableWords := by decide
    obtain ⟨hle, k, hk, hfound⟩ := fdSearchTraced_le hfree addressableWords 0 (Nat.zero_le _) (by omega)
    refine ⟨fun i hi => ?_, fun i hi => ?_, fun _ _ _ hbusy => absurd hfree (hbusy j hj), fun op ofd hcall => ?_⟩
    · exact Nat.lt_of_le_of_lt (hle i ((hindex i).mp hi)) hj
    · have hassign : i = k := by
        rcases hsearch with heq | ⟨m, hm, heq⟩
        · obtain ⟨m, hm⟩ := fdSearchTraced_index _ _ _ (heq ▸ hi)
          cases hm
        · rw [hfound] at hm
          cases hm
          rcases List.mem_append.mp (heq ▸ hi) with hold | hnew
          · obtain ⟨m, hm⟩ := fdSearchTraced_index _ _ _ hold
            cases hm
          · cases List.mem_singleton.mp hnew
            rfl
      omega
    · rcases hsearch with heq | ⟨m, hm, heq⟩
      · obtain ⟨m, hm⟩ := fdSearchTraced_index _ _ _ (heq ▸ hcall)
        cases hm
      · rcases List.mem_append.mp (heq ▸ hcall) with hold | hnew
        · obtain ⟨m, hm⟩ := fdSearchTraced_index _ _ _ hold
          cases hm
        · cases List.mem_singleton.mp hnew

/-- A call that indexes one entry and then calls at most one operation. -/
theorem bounded_of_entry {call : FileCall} {i : Nat} {op : FileOp} {called : Option F}
    (hopen : ∀ path flags, call ≠ .open path flags)
    (haccesses : (fileCall E s call).accesses = .index i :: (called.map (Access.call op)).toList) :
    CallBounded E s call ↔ i < fopenMax ∧ ∀ ofd, called = some ofd → E.hasOp op ofd = true := by
  constructor
  · intro h
    refine ⟨h.index i (haccesses ▸ List.mem_cons_self), fun ofd hofd => h.exists_op op ofd ?_⟩
    rw [haccesses, hofd]
    exact List.mem_cons_of_mem _ List.mem_cons_self
  · rintro ⟨hi, hop⟩
    refine ⟨fun j hj => ?_, fun j hj => ?_, fun path flags he => absurd he (hopen path flags), fun op' ofd hcall => ?_⟩
    · rw [haccesses] at hj
      cases called with
      | none =>
        cases List.mem_singleton.mp hj
        exact hi
      | some ofd =>
        simp only [Option.map_some, Option.toList_some, List.mem_cons, Access.index.injEq, reduceCtorEq,
          List.not_mem_nil, or_false] at hj
        exact hj ▸ hi
    · rw [haccesses] at hj
      cases called <;> simp at hj
    · rw [haccesses] at hcall
      cases called with
      | none => simp at hcall
      | some ofd' =>
        simp only [Option.map_some, Option.toList_some, List.mem_cons, reduceCtorEq, Access.call.injEq,
          List.not_mem_nil, or_false, false_or] at hcall
        rw [hcall.1, hcall.2]
        exact hop ofd' rfl

/-- Which calls are bounded. -/
theorem callBounded_iff (call : FileCall) : CallBounded E s call ↔ CallGood E s call := by
  cases call with
  | «open» path flags => exact open_bounded_iff path flags
  | read fd buf c =>
    have haccesses : (fileCall E s (.read fd buf c)).accesses =
        .index fd.toNat :: (((s.fd fd.toNat).filter E.hasRead).map (Access.call .read)).toList := by
      show (sysReadTraced E s fd buf c).accesses = _
      rw [sysReadTraced]
      cases s.fd fd.toNat with
      | none => rfl
      | some ofd => cases h : E.hasRead ofd <;> simp [h, Option.filter_some]
    rw [bounded_of_entry (fun _ _ he => by cases he) haccesses]
    exact and_iff_left fun ofd hofd => (Option.filter_eq_some_iff.mp hofd).2
  | write fd buf c =>
    have haccesses : (fileCall E s (.write fd buf c)).accesses =
        .index fd.toNat :: (((s.fd fd.toNat).filter E.hasRead).map (Access.call .write)).toList := by
      show (sysWriteTraced E s fd buf c).accesses = _
      rw [sysWriteTraced]
      cases s.fd fd.toNat with
      | none => rfl
      | some ofd => cases h : E.hasRead ofd <;> simp [h, Option.filter_some]
    rw [bounded_of_entry (fun _ _ he => by cases he) haccesses]
    simp only [Option.filter_eq_some_iff, and_imp]
    exact Iff.rfl
  | seek fd offset whence =>
    have haccesses : (fileCall E s (.seek fd offset whence)).accesses = .index fd.toNat ::
        (((some ((s.fd fd.toNat).getD (E.unassigned s.world))).filter E.hasSeek).map (Access.call .seek)).toList := by
      show (sysSeekTraced E s fd offset whence).accesses = _
      rw [sysSeekTraced]
      cases h : E.hasSeek ((s.fd fd.toNat).getD (E.unassigned s.world)) <;> simp [h, Option.filter_some]
    rw [bounded_of_entry (fun _ _ he => by cases he) haccesses]
    exact and_iff_left fun ofd hofd => (Option.filter_eq_some_iff.mp hofd).2

end

/-- Every call of the run is bounded. -/
def Bounded (E : OpsEnv F W) (s : ProcState F W) (calls : List FileCall) : Prop :=
  Guarded (fileCallStep E) (CallBounded E) s calls

/-- **The descriptor table is kept within its bounds by exactly the runs** in which every open finds a free entry, every
number is below `FOPEN_MAX`, and no file that can be read but not written is written. -/
theorem fileCalls_bounded_iff (E : OpsEnv F W) (s : ProcState F W) (calls : List FileCall) :
    Bounded E s calls ↔ Guarded (fileCallStep E) (CallGood E) s calls := by
  have hguard : CallBounded E = CallGood E := funext fun s => funext fun call => propext (callBounded_iff call)
  rw [Bounded, hguard]

/-! ## A process without files -/

/-- Every path is a file that can be read only. -/
def readOnlyEnv : OpsEnv (List UInt8) Unit where
  toFileEnv := pathEnv
  hasWrite := fun _ => false
  hasSeek := fun _ => false
  seek := fun _ _ _ _ => ()
  currentOctet := fun _ _ => 0
  unassigned := fun _ => []

/-- A read of descriptor 500 takes `state` for an open file, and a write calls the `NULL` operation of a file that can be
read only. -/
theorem fileCalls_out_of_bounds : ¬ Bounded readOnlyEnv noDescriptors [.read 500 0x40000000 1] ∧
    ¬ Bounded readOnlyEnv ⟨fun i => if i = 0 then some [97] else none, ()⟩ [.write 0 0x40000000 1] := by
  refine ⟨fun h => ?_, fun h => ?_⟩
  · exact absurd (h.1.index 500 List.mem_cons_self) (by decide)
  · have hnull := h.1.exists_op .write [97] (List.mem_cons_of_mem _ List.mem_cons_self)
    exact Bool.false_ne_true hnull

end Desiros.Syscall
