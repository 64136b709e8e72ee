import Desiros.Library.DownStack
import Desiros.Mem.BrkRuns

/-!
# The arguments of a program (`syscall/exec.c`)

`fill_stack` pushes the strings, the vector of pointers, its address and its length below the address it is given, and
leaves them as a program expects them (`fillStack_selfDescribing`). `sys_exec` gives it the address that
`dev_zero_map` returns, which is where the arena of the stack starts, so that nothing of it lies in the arena:
`execStack_outside`.
-/

namespace Desiros.Exec

open Desiros.Library Desiros.Mem

/-! ## The functions -/

/-- A string in the memory of the kernel. -/
structure ArgString where
  addr : UInt32
  bytes : List UInt8
  addr_ne : addr ≠ 0
  noNul : 0 ∉ bytes

/-- `*dest++ = ...` for the bytes of `bs`. -/
def storeBytes (m : Bytes) (dest : UInt32) : List UInt8 → Bytes
  | [] => m
  | b :: bs => storeBytes (Function.update m dest.toNat b) (dest + 1) bs

/-- The user's memory; `writes` records where `fill_stack` stored how many bytes. -/
structure ExecStack where
  ustack : UInt32
  mem : Bytes
  writes : List (Nat × Nat)

/-- `ustack -= size`, and a store there. -/
def ExecStack.push (st : ExecStack) (bs : List UInt8) : ExecStack where
  ustack := st.ustack - UInt32.ofNat bs.length
  mem := storeBytes st.mem (st.ustack - UInt32.ofNat bs.length) bs
  writes := st.writes ++ [((st.ustack - UInt32.ofNat bs.length).toNat, bs.length)]

def ExecStack.pushWord (st : ExecStack) (w : UInt32) : ExecStack := st.push (leBytes w.toNat 4)

/-- The loop over the strings, which fills `uparam`. -/
def pushStrings (st : ExecStack) : List ArgString → ExecStack × List UInt32
  | [] => (st, [])
  | arg :: argv =>
    let st := st.push (arg.bytes ++ [0])
    ((pushStrings st argv).1, st.ustack :: (pushStrings st argv).2)

/-- The stack that `fill_stack` leaves, and what it gave to `kfree`. -/
structure FilledStack where
  stack : ExecStack
  frees : List UInt32

/-- The pushes of `fill_stack`: the strings, a zero, the pointers, `argv` and `argc`. -/
def pushArgs (ustack : UInt32) (mem : Bytes) (args : List ArgString) : ExecStack :=
  let (st, params) := pushStrings ⟨ustack, mem, []⟩ args
  let st := params.reverse.foldl ExecStack.pushWord (st.pushWord 0)
  let st := st.pushWord (st.ustack - 4 + 4)
  let st := st.pushWord (UInt32.ofNat args.length)
  { st with ustack := st.ustack - 4 }

/-- `fill_stack` for the strings of the vector at `argv`, with `uparam` from `kmalloc`; no result stands for a write
through a null pointer. -/
def fillStack (ustack : UInt32) (mem : Bytes) (argv uparam : UInt32) (args : List ArgString) : Option FilledStack :=
  if uparam = 0 ∧ args ≠ [] then none
  else some ⟨pushArgs ustack mem args, args.map ArgString.addr ++ [argv, uparam]⟩

/-- `DEFAULT_USER_STACK_SIZE` -/
def defaultUserStackSize : UInt32 := (8 : UInt32) <<< (20 : UInt32)

def stackHint : UInt32 := 0xFFBFFFFF - defaultUserStackSize + 1

variable {W : Type}

/-- `dev_zero_map` in `sys_exec`: its result, the address it wrote to `ustack`, and the new address space. -/
def execStackMap (E : UvmmEnv W) (w : W) : Int × UInt32 × UvmmState W :=
  devZeroMap E (uvmmCreateEmptyAs w) stackHint defaultUserStackSize (pRead ||| pWrite) 0

/-- `fill_stack` in `sys_exec`. -/
def execStack (E : UvmmEnv W) (w : W) (mem : Bytes) (argv uparam : UInt32) (args : List ArgString) :
    Option FilledStack :=
  fillStack (execStackMap E w).2.1 mem argv uparam args

/-! ## What is meant -/

/-- `argc` and `argv` stand above the stack pointer, and `argv` leads to copies of the strings. -/
structure SelfDescribing (mem : Bytes) (sp : UInt32) (args : List ArgString) : Prop where
  argc : le32 mem (sp.toNat + 4) = args.length
  strings : ∀ i (h : i < args.length),
    slice mem (le32 mem (le32 mem (sp.toNat + 8) + 4 * i)) (args[i].bytes.length + 1) = args[i].bytes ++ [0]
  last : le32 mem (le32 mem (sp.toNat + 8) + 4 * args.length) = 0

/-- A byte that was written. -/
def ExecStack.Written (st : ExecStack) (v : Nat) : Prop :=
  ∃ w ∈ st.writes, ∃ i < w.2, v = (w.1 + i) % 4294967296

/-- The stack describes itself and lies in the arena that was mapped, its parts do not overlap, and each source was
freed once. -/
def ArgumentsPassed (E : UvmmEnv W) (w : W) (mem : Bytes) (argv uparam : UInt32) (args : List ArgString) : Prop :=
  ∃ r, execStack E w mem argv uparam args = some r ∧ SelfDescribing r.stack.mem r.stack.ustack args ∧
    (∀ v, r.stack.Written v → ∃ a ∈ (execStackMap E w).2.2.addressSpace.listArena, a.lo ≤ v ∧ v < a.hi) ∧
    (r.stack.writes.Pairwise fun p q => q.1 + q.2 ≤ p.1) ∧ r.frees = args.map ArgString.addr ++ [argv, uparam]

/-- The strings with their ends. -/
def argBlocks (args : List ArgString) : List (List UInt8) := args.map fun arg => arg.bytes ++ [0]

/-- The strings and the pointers to them fit in the stack. -/
def ArgsFit (args : List ArgString) : Prop :=
  DownStack.size (argBlocks args) + 4 * args.length ≤ defaultUserStackSize.toNat

/-! ## The pushes -/

theorem storeBytes_eq {m : Bytes} {dest : UInt32} {bs : List UInt8} (h : dest.toNat + bs.length ≤ 4294967296) :
    storeBytes m dest bs = storeList m dest.toNat bs := by
  induction bs generalizing m dest with
  | nil =>
    funext v
    exact (storeList_of_ne (by rw [List.length_nil]; omega)).symm
  | cons b bs ih =>
    rw [List.length_cons] at h
    have hnext : bs.length = 0 ∨ (dest + 1).toNat = dest.toNat + 1 := by
      rw [word_add, show (1 : UInt32).toNat = 1 from rfl]
      omega
    funext v
    show storeBytes (Function.update m dest.toNat b) (dest + 1) bs v = _
    rw [ih (by have := word_lt (dest + 1); omega)]
    by_cases hv : v = dest.toNat
    · rw [storeList_of_ne (by omega), hv, Function.update_self]
      exact (@storeList_at m dest.toNat (b :: bs) 0 (Nat.succ_pos _)).symm
    · unfold storeList
      rw [List.length_cons, Function.update_of_ne hv]
      by_cases hin : dest.toNat ≤ v ∧ v < dest.toNat + (bs.length + 1)
      · rw [if_pos hin, if_pos (by omega), show v - dest.toNat = (v - (dest + 1).toNat) + 1 by omega,
          List.getD_cons_succ]
      · rw [if_neg hin, if_neg (by omega)]

/-- The stack with the addresses as numbers. -/
def ExecStack.toDown (st : ExecStack) : DownStack := ⟨st.ustack.toNat, st.mem, st.writes⟩

variable {st : ExecStack} {args : List ArgString}

theorem push_ustack {bs : List UInt8} (h : bs.length ≤ st.ustack.toNat) :
    (st.ustack - UInt32.ofNat bs.length).toNat = st.ustack.toNat - bs.length := by
  have hlt := word_lt st.ustack
  rw [word_sub, UInt32.toNat_ofNat_of_lt' (show bs.length < 4294967296 by omega)]
  omega

/-- **A push** that does not wrap around is one of a stack that grows down. -/
theorem push_toDown {bs : List UInt8} (h : bs.length ≤ st.ustack.toNat) : (st.push bs).toDown = st.toDown.push bs := by
  have hlt := word_lt st.ustack
  have hstore := @storeBytes_eq st.mem (st.ustack - UInt32.ofNat bs.length) bs (by rw [push_ustack h]; omega)
  rw [push_ustack h] at hstore
  show DownStack.mk (st.ustack - UInt32.ofNat bs.length).toNat (storeBytes st.mem _ bs) (st.writes ++ [_]) = _
  rw [hstore, push_ustack h]
  rfl

theorem pushWord_toDown {w : UInt32} (h : 4 ≤ st.ustack.toNat) :
    (st.pushWord w).toDown = st.toDown.pushAll (DownStack.wordBlocks [w.toNat]) :=
  push_toDown (by rwa [leBytes_length])

theorem pushWords_toDown {words : List UInt32} (h : 4 * words.length ≤ st.ustack.toNat) :
    (words.foldl ExecStack.pushWord st).toDown =
      st.toDown.pushAll (DownStack.wordBlocks (words.map UInt32.toNat)) := by
  induction words generalizing st with
  | nil => rfl
  | cons w words ih =>
    rw [List.length_cons] at h
    have hword := @pushWord_toDown st w (by omega)
    have htop : (st.pushWord w).ustack.toNat = st.ustack.toNat - 4 := by
      show (st.pushWord w).toDown.top = _
      rw [hword]
      exact congrArg (st.ustack.toNat - ·) leBytes_length
    rw [List.foldl_cons, ih (by omega), hword]
    rfl

theorem pushStrings_toDown (h : DownStack.size (argBlocks args) ≤ st.ustack.toNat) :
    (pushStrings st args).1.toDown = st.toDown.pushAll (argBlocks args) := by
  induction args generalizing st with
  | nil => rfl
  | cons arg args ih =>
    rw [argBlocks, List.map_cons, DownStack.size_cons] at h
    have hpush := @push_toDown st (arg.bytes ++ [0]) (by omega)
    have htop : (st.push (arg.bytes ++ [0])).ustack.toNat = st.ustack.toNat - (arg.bytes ++ [0]).length :=
      congrArg DownStack.top hpush
    show (pushStrings (st.push (arg.bytes ++ [0])) args).1.toDown = _
    rw [ih (by rw [htop, argBlocks]; omega), hpush]
    rfl

theorem pushStrings_length : (pushStrings st args).2.length = args.length := by
  induction args generalizing st with
  | nil => rfl
  | cons arg args ih => exact congrArg Nat.succ ih

/-- The pointers lead to the strings, above what is pushed behind them. -/
theorem pushStrings_params (h : DownStack.size (argBlocks args) ≤ st.ustack.toNat) {i : Nat} (hi : i < args.length) :
    (pushStrings st args).1.ustack.toNat ≤ ((pushStrings st args).2.getD i 0).toNat ∧
      slice (pushStrings st args).1.mem ((pushStrings st args).2.getD i 0).toNat (args[i].bytes.length + 1) =
        args[i].bytes ++ [0] := by
  induction args generalizing st i with
  | nil => exact absurd hi (Nat.not_lt_zero i)
  | cons arg args ih =>
    rw [argBlocks, List.map_cons, DownStack.size_cons] at h
    have hpush := @push_toDown st (arg.bytes ++ [0]) (by omega)
    have htop : (st.push (arg.bytes ++ [0])).ustack.toNat = st.ustack.toNat - (arg.bytes ++ [0]).length :=
      congrArg DownStack.top hpush
    have hrest : DownStack.size (argBlocks args) ≤ (st.push (arg.bytes ++ [0])).ustack.toNat := by
      rw [htop, argBlocks]
      omega
    cases i with
    | zero =>
      have hall := pushStrings_toDown hrest
      have hend : (pushStrings (st.push (arg.bytes ++ [0])) args).1.ustack.toNat =
          (st.push (arg.bytes ++ [0])).ustack.toNat - DownStack.size (argBlocks args) :=
        (congrArg DownStack.top hall).trans DownStack.pushAll_top
      have hblock := @DownStack.pushAll_block st.toDown (arg.bytes ++ [0]) (argBlocks args) h
      rw [← hpush, ← hall, List.length_append] at hblock
      refine ⟨?_, ?_⟩
      · show (pushStrings (st.push (arg.bytes ++ [0])) args).1.ustack.toNat ≤ (st.push (arg.bytes ++ [0])).ustack.toNat
        rw [hend]
        exact Nat.sub_le _ _
      · show slice _ (st.push (arg.bytes ++ [0])).ustack.toNat _ = _
        rw [htop, List.length_append]
        exact hblock
    | succ i => exact ih hrest (Nat.lt_of_succ_lt_succ hi)

/-- The words that are pushed behind the strings. -/
def argWords (params : List UInt32) (argv : UInt32) (argc : Nat) : List UInt32 :=
  0 :: (params.reverse ++ [argv, UInt32.ofNat argc])

/-- The address of the first pointer. -/
def vectorOf (st : ExecStack) (params : List UInt32) : UInt32 :=
  ((0 :: params.reverse).foldl ExecStack.pushWord st).ustack

theorem pushArgs_words (ustack : UInt32) (mem : Bytes) (args : List ArgString) :
    let p := pushStrings ⟨ustack, mem, []⟩ args
    let st := (argWords p.2 (vectorOf p.1 p.2) args.length).foldl ExecStack.pushWord p.1
    pushArgs ustack mem args = { st with ustack := st.ustack - 4 } := by
  intro p st
  have hst : st = (((0 :: p.2.reverse).foldl ExecStack.pushWord p.1).pushWord (vectorOf p.1 p.2)).pushWord
      (UInt32.ofNat args.length) := by
    show (0 :: (p.2.reverse ++ [_, _])).foldl ExecStack.pushWord p.1 = _
    rw [List.foldl_cons, List.foldl_append]
    rfl
  have hvector : vectorOf p.1 p.2 - 4 + 4 = vectorOf p.1 p.2 := sub_add_cancel _ _
  rw [hst]
  unfold pushArgs
  rw [← hvector]
  rfl

section

variable {params : List UInt32} {vector : UInt32} {argc : Nat}

theorem argWords_length : (argWords params vector argc).length = params.length + 3 := by
  rw [argWords, List.length_cons, List.length_append, List.length_reverse]
  rfl

theorem argWords_param {i : Nat} (hi : i < params.length) :
    (argWords params vector argc).getD (params.length - i) 0 = params.getD i 0 := by
  have hrev : params.length - i - 1 < params.reverse.length := by
    rw [List.length_reverse]
    omega
  rw [argWords, show params.length - i = params.length - i - 1 + 1 by omega, List.getD_cons_succ,
    List.getD_append _ _ _ _ hrev, List.getD_eq_getElem _ _ hrev, List.getElem_reverse, List.getD_eq_getElem _ _ hi]
  congr 1
  omega

theorem argWords_vector : (argWords params vector argc).getD (params.length + 1) 0 = vector := by
  rw [argWords, List.getD_cons_succ, List.getD_append_right _ _ _ _ (List.length_reverse).le, List.length_reverse,
    Nat.sub_self]
  rfl

theorem argWords_argc : (argWords params vector argc).getD (params.length + 2) 0 = UInt32.ofNat argc := by
  rw [argWords, List.getD_cons_succ, List.getD_append_right _ _ _ _ (by rw [List.length_reverse]; omega),
    List.length_reverse, Nat.add_sub_cancel_left]
  rfl

end

theorem vectorOf_toNat {params : List UInt32} (h : 4 * (params.length + 1) ≤ st.ustack.toNat) :
    (vectorOf st params).toNat = st.ustack.toNat - 4 * (params.length + 1) := by
  have hlen : (0 :: params.reverse).length = params.length + 1 := by rw [List.length_cons, List.length_reverse]
  have hdown := congrArg DownStack.top (@pushWords_toDown st (0 :: params.reverse) (by rw [hlen]; exact h))
  rw [DownStack.pushAll_top, DownStack.size_wordBlocks, List.length_map, hlen] at hdown
  exact hdown

/-- Word `k` below the strings. -/
theorem pushWords_read {words : List UInt32} (h : 4 * words.length ≤ st.ustack.toNat) {k : Nat}
    (hk : k < words.length) : le32 (words.foldl ExecStack.pushWord st).mem (st.ustack.toNat - 4 * (k + 1)) =
      (words.getD k 0).toNat := by
  have hmap : 4 * (words.map UInt32.toNat).length ≤ st.toDown.top := by
    rw [List.length_map]
    exact h
  have hk' : k < (words.map UInt32.toNat).length := by rwa [List.length_map]
  have hread := DownStack.pushAll_words hmap hk'
  rw [← pushWords_toDown h, List.getElem_map, Nat.mod_eq_of_lt (word_lt _)] at hread
  rw [List.getD_eq_getElem _ _ hk]
  exact hread

/-- The words below the strings: `argc`, `argv`, the pointers and a zero. -/
structure VectorBelow (p : ExecStack) (params : List UInt32) (st : ExecStack) : Prop where
  sp : st.ustack.toNat = p.ustack.toNat - 4 * (params.length + 3)
  argc : le32 st.mem st.ustack.toNat = params.length
  argv : le32 st.mem (st.ustack.toNat + 4) = p.ustack.toNat - 4 * (params.length + 1)
  param : ∀ i < params.length,
    le32 st.mem (p.ustack.toNat - 4 * (params.length + 1) + 4 * i) = (params.getD i 0).toNat
  last : le32 st.mem (p.ustack.toNat - 4 * (params.length + 1) + 4 * params.length) = 0
  kept : ∀ v, p.ustack.toNat ≤ v → st.mem v = p.mem v

theorem argWords_below (p : ExecStack) (params : List UInt32) (h : 4 * (params.length + 4) ≤ p.ustack.toNat) :
    VectorBelow p params ((argWords params (vectorOf p params) params.length).foldl ExecStack.pushWord p) := by
  have hlength : (argWords params (vectorOf p params) params.length).length = params.length + 3 := argWords_length
  have hroom : 4 * (argWords params (vectorOf p params) params.length).length ≤ p.ustack.toNat := by omega
  have hdown := pushWords_toDown hroom
  have hsp : ((argWords params (vectorOf p params) params.length).foldl ExecStack.pushWord p).ustack.toNat =
      p.ustack.toNat - 4 * (params.length + 3) := by
    have htop := congrArg DownStack.top hdown
    rw [DownStack.pushAll_top, DownStack.size_wordBlocks, List.length_map, hlength] at htop
    exact htop
  have hread := fun k hk => pushWords_read hroom (k := k) hk
  have hargc := word_lt p.ustack
  refine ⟨hsp, ?_, ?_, fun i hi => ?_, ?_, fun v hv => ?_⟩
  · rw [hsp, show p.ustack.toNat - 4 * (params.length + 3) = p.ustack.toNat - 4 * (params.length + 2 + 1) by omega,
      hread _ (by omega), argWords_argc, UInt32.toNat_ofNat_of_lt' (show params.length < 4294967296 by omega)]
  · rw [hsp, show p.ustack.toNat - 4 * (params.length + 3) + 4 = p.ustack.toNat - 4 * (params.length + 1 + 1) by omega,
      hread _ (by omega), argWords_vector, vectorOf_toNat (by omega)]
  · rw [show p.ustack.toNat - 4 * (params.length + 1) + 4 * i = p.ustack.toNat - 4 * (params.length - i + 1) by omega,
      hread _ (by omega), argWords_param hi]
  · rw [show p.ustack.toNat - 4 * (params.length + 1) + 4 * params.length = p.ustack.toNat - 4 * (0 + 1) by omega,
      hread 0 (by omega)]
    rfl
  · have hkept := @DownStack.pushAll_mem p.toDown
      (DownStack.wordBlocks ((argWords params (vectorOf p params) params.length).map UInt32.toNat)) v
      (by rw [DownStack.size_wordBlocks, List.length_map]; exact hroom) hv
    rw [← hdown] at hkept
    exact hkept

/-- **Where everything stands**, if there is room for it below `ustack`. -/
structure Laid (ustack : UInt32) (mem : Bytes) (args : List ArgString) : Prop where
  within : ∀ w ∈ (pushArgs ustack mem args).writes, w.1 + w.2 ≤ ustack.toNat
  apart : (pushArgs ustack mem args).writes.Pairwise fun p q => q.1 + q.2 ≤ p.1
  selfDescribing : SelfDescribing (pushArgs ustack mem args).mem (pushArgs ustack mem args).ustack args

/-- The strings and the words are blocks of a stack that grows down. -/
theorem pushArgs_writes {ustack : UInt32} {mem : Bytes}
    (h : DownStack.size (argBlocks args) + 4 * (args.length + 4) ≤ ustack.toNat) :
    ∃ blocks, DownStack.size blocks ≤ ustack.toNat ∧
      (pushArgs ustack mem args).writes = DownStack.spans ustack.toNat blocks := by
  have hargs := pushArgs_words ustack mem args
  have hstrings : (pushStrings ⟨ustack, mem, []⟩ args).1.toDown =
      (⟨ustack.toNat, mem, []⟩ : DownStack).pushAll (argBlocks args) :=
    pushStrings_toDown (show DownStack.size (argBlocks args) ≤ ustack.toNat by omega)
  have htop : (pushStrings ⟨ustack, mem, []⟩ args).1.ustack.toNat = ustack.toNat - DownStack.size (argBlocks args) :=
    (congrArg DownStack.top hstrings).trans DownStack.pushAll_top
  have hlen : (pushStrings ⟨ustack, mem, []⟩ args).2.length = args.length := pushStrings_length
  dsimp only at hargs
  generalize pushStrings ⟨ustack, mem, []⟩ args = p at hargs hstrings htop hlen
  obtain ⟨words, hwords⟩ : ∃ words, words = argWords p.2 (vectorOf p.1 p.2) args.length := ⟨_, rfl⟩
  have hcount : words.length = args.length + 3 := by rw [hwords, argWords_length, hlen]
  rw [← hwords] at hargs
  refine ⟨argBlocks args ++ DownStack.wordBlocks (words.map UInt32.toNat), ?_, ?_⟩
  · rw [DownStack.size_append, DownStack.size_wordBlocks, List.length_map, hcount]
    omega
  · have hall : (words.foldl ExecStack.pushWord p.1).toDown = (⟨ustack.toNat, mem, []⟩ : DownStack).pushAll
        (argBlocks args ++ DownStack.wordBlocks (words.map UInt32.toNat)) := by
      rw [pushWords_toDown (by omega), hstrings, DownStack.pushAll_append]
    rw [hargs]
    exact (congrArg DownStack.writes hall).trans (DownStack.pushAll_writes.trans (List.nil_append _))

theorem pushArgs_selfDescribing {ustack : UInt32} {mem : Bytes}
    (h : DownStack.size (argBlocks args) + 4 * (args.length + 4) ≤ ustack.toNat) :
    SelfDescribing (pushArgs ustack mem args).mem (pushArgs ustack mem args).ustack args := by
  have hsize : DownStack.size (argBlocks args) ≤ (⟨ustack, mem, []⟩ : ExecStack).ustack.toNat :=
    show DownStack.size (argBlocks args) ≤ ustack.toNat by omega
  have hparams : ∀ i (hi : i < args.length), _ := fun i hi => pushStrings_params hsize hi
  have hargs := pushArgs_words ustack mem args
  have htop : (pushStrings ⟨ustack, mem, []⟩ args).1.ustack.toNat = ustack.toNat - DownStack.size (argBlocks args) :=
    (congrArg DownStack.top (pushStrings_toDown hsize)).trans DownStack.pushAll_top
  have hlen : (pushStrings ⟨ustack, mem, []⟩ args).2.length = args.length := pushStrings_length
  dsimp only at hargs
  generalize pushStrings ⟨ustack, mem, []⟩ args = p at hargs hparams htop hlen
  rw [← hlen] at hargs
  have hbelow := argWords_below p.1 p.2 (by omega)
  generalize (argWords p.2 (vectorOf p.1 p.2) p.2.length).foldl ExecStack.pushWord p.1 = st at hargs hbelow
  have hsp : (st.ustack - 4).toNat = st.ustack.toNat - 4 := by
    rw [word_sub, show (4 : UInt32).toNat = 4 from rfl]
    have := word_lt st.ustack
    have := hbelow.sp
    omega
  have hroom : 4 ≤ st.ustack.toNat := by
    have := hbelow.sp
    omega
  have hargv : le32 st.mem ((st.ustack - 4).toNat + 8) = p.1.ustack.toNat - 4 * (p.2.length + 1) := by
    rw [show (st.ustack - 4).toNat + 8 = st.ustack.toNat + 4 by omega, hbelow.argv]
  rw [hargs]
  refine ⟨?_, fun i hi => ?_, ?_⟩
  · dsimp only
    rw [show (st.ustack - 4).toNat + 4 = st.ustack.toNat by omega, hbelow.argc, hlen]
  · obtain ⟨hle, hslice⟩ := hparams i hi
    dsimp only
    rw [hargv, hbelow.param i (hlen ▸ hi), ← hslice]
    exact slice_congr fun j _ => hbelow.kept _ (Nat.le_trans hle (Nat.le_add_right _ j))
  · dsimp only
    rw [hargv, ← hlen, hbelow.last]

theorem pushArgs_laid {ustack : UInt32} {mem : Bytes}
    (h : DownStack.size (argBlocks args) + 4 * (args.length + 4) ≤ ustack.toNat) : Laid ustack mem args := by
  obtain ⟨blocks, hroom, hwrites⟩ := @pushArgs_writes args ustack mem h
  refine ⟨?_, ?_, pushArgs_selfDescribing h⟩
  · rw [hwrites]
    exact fun w hw => (DownStack.spans_within hroom w hw).2
  · rw [hwrites]
    exact DownStack.spans_apart hroom

/-! ## The arena of the stack -/

theorem inserted_nil {m : NewMapping} {l l' : List UvmmArena} (h : Inserted m l l') (hl : l = []) :
    ∃ ops, l' = [{ m.arena with ops := ops }] := by
  cases h with
  | both => exact absurd hl (by simp)
  | preceding => exact absurd hl (by simp)
  | next => exact absurd hl (by simp)
  | new ops =>
    obtain ⟨rfl, rfl⟩ := List.append_eq_nil_iff.mp hl
    exact ⟨ops, rfl⟩

/-- `uvmm_map` of the stack in an address space without arenas. -/
theorem uvmmMap_stack (E : UvmmEnv W) {s : UvmmState W} (hinv : Inv s) (hempty : s.addressSpace.listArena = [])
    {resource : UvmmMappedResource} (hmmap : ∀ a w, (E.mmap (resource.mmap.getD 0) a w).1 = 0) :
    let r := uvmmMap E s stackHint defaultUserStackSize (pRead ||| pWrite) 0 (some resource) 0
    (r.1 ≠ 0 ∧ r.2.2.addressSpace.listArena = []) ∨
      (r.1 = 0 ∧ r.2.1 = stackHint ∧ ∃ a, r.2.2.addressSpace.listArena = [a] ∧ a.lo = stackHint.toNat ∧
        a.hi = stackHint.toNat + defaultUserStackSize.toNat) := by
  intro r
  cases hcheck : uvmmMapCheck stackHint defaultUserStackSize (pRead ||| pWrite) 0 (some resource) 0 with
  | error err =>
    have hr : r = (err, 0, s) := by
      show uvmmMap E s _ _ _ _ _ _ = _
      rw [uvmmMap, hcheck]
    rw [hr]
    exact Or.inl ⟨uvmmMapCheck_error hcheck, hempty⟩
  | ok res =>
    obtain rfl : resource = res := Option.some.inj (uvmmMapCheck_ok hcheck).1
    cases halloc : (s.allocArena E).1 with
    | false =>
      have hr : r = (-3, 0, (s.allocArena E).2) := by
        show uvmmMap E s _ _ _ _ _ _ = _
        rw [uvmmMap, hcheck]
        dsimp only
        rw [if_pos (by rw [halloc]; rfl)]
      rw [hr]
      exact Or.inl ⟨show (-3 : Int) ≠ 0 by decide, hempty⟩
    | true =>
      have hfree : Free s.addressSpace.listArena stackHint.toNat (pageAlignSup defaultUserStackSize).toNat := by
        rw [hempty]
        exact fun a ha => absurd ha List.not_mem_nil
      obtain ⟨heq, hm, -⟩ := uvmmMap_free_hint E hinv (by decide) hcheck halloc (by decide) (by decide) (by decide) hfree
      have hr : r = uvmmMapInsert E (s.allocArena E).2 _ := heq
      obtain ⟨l', hins, ⟨h0, huaddr, hlist, -⟩ | ⟨-, -, -, ⟨a, w', hfail⟩, -⟩⟩ :=
        uvmmMapInsert_inserted E (hinv.allocArena E) hm
      · obtain ⟨ops, rfl⟩ := inserted_nil hins hempty
        have hsize : pageAlignSup defaultUserStackSize = defaultUserStackSize := by decide
        rw [hr]
        refine Or.inr ⟨h0, huaddr, _, hlist, rfl, ?_⟩
        show stackHint.toNat + (pageAlignSup defaultUserStackSize).toNat = _
        rw [hsize]
      · exact absurd (hmmap a w') hfail

/-- The arena starts at the address that `fill_stack` is given, if it could be mapped. -/
theorem execStackMap_cases (E : UvmmEnv W) (hzero : ∀ a w, (E.mmap E.zeroMmap a w).1 = 0) (w : W) :
    ((execStackMap E w).1 ≠ 0 ∧ (execStackMap E w).2.2.addressSpace.listArena = []) ∨
      ((execStackMap E w).1 = 0 ∧ (execStackMap E w).2.1 = stackHint ∧
        ∃ a, (execStackMap E w).2.2.addressSpace.listArena = [a] ∧ a.lo = stackHint.toNat ∧
          a.hi = stackHint.toNat + defaultUserStackSize.toNat) := by
  have hinv : ∀ w : W, Inv (uvmmCreateEmptyAs w) :=
    fun w => ⟨wellFormed_nil, List.nodup_nil, fun a ha => absurd ha List.not_mem_nil⟩
  unfold execStackMap devZeroMap
  cases hk : E.kmallocZeroResource (uvmmCreateEmptyAs w).world with
  | mk o w' =>
    cases o with
    | none => exact Or.inl ⟨show (-3 : Int) ≠ 0 by decide, rfl⟩
    | some addr =>
      dsimp only
      have hmap := @uvmmMap_stack W E (uvmmCreateEmptyAs w') (hinv w') rfl
        ⟨addr, pRead ||| pWrite ||| pUser, mappedResourceAnonymous, some E.zeroMmap⟩ hzero
      dsimp only at hmap
      rw [show ({ uvmmCreateEmptyAs w with world := w' } : UvmmState W) = uvmmCreateEmptyAs w' from rfl]
      generalize uvmmMap E (uvmmCreateEmptyAs w') _ _ _ _ _ _ = r at hmap ⊢
      rcases hmap with ⟨hne, hlist⟩ | ⟨h0, huaddr, harena⟩
      · rw [if_pos hne]
        exact Or.inl ⟨hne, hlist⟩
      · rw [if_neg (not_not.mpr h0)]
        exact Or.inr ⟨rfl, huaddr, harena⟩

/-! ## The arguments of a program -/

theorem ExecStack.Written.mono {st st' : ExecStack} {v : Nat} (h : st.Written v) (hsub : st.writes ⊆ st'.writes) :
    st'.Written v := by
  obtain ⟨w, hw, i, hi, hv⟩ := h
  exact ⟨w, hsub hw, i, hi, hv⟩

/-- A push writes the byte right below the top. -/
theorem push_written {bs : List UInt8} (h : 0 < bs.length) :
    (st.push bs).Written ((st.ustack.toNat + 4294967295) % 4294967296) := by
  refine ⟨_, List.mem_append_right _ List.mem_cons_self, bs.length - 1, Nat.sub_one_lt_of_lt h, ?_⟩
  dsimp only
  rw [word_sub, UInt32.toNat_ofNat']
  omega

theorem pushWords_writes (words : List UInt32) : st.writes ⊆ (words.foldl ExecStack.pushWord st).writes := by
  induction words generalizing st with
  | nil => exact List.Subset.refl _
  | cons w words ih => exact List.Subset.trans (List.subset_append_left _ _) (@ih (st.pushWord w))

theorem pushStrings_writes (args : List ArgString) : st.writes ⊆ (pushStrings st args).1.writes := by
  induction args generalizing st with
  | nil => exact List.Subset.refl _
  | cons arg args ih => exact List.Subset.trans (List.subset_append_left _ _) (@ih (st.push (arg.bytes ++ [0])))

/-- The byte right below the address that `fill_stack` is given is always written. -/
theorem pushArgs_below (ustack : UInt32) (mem : Bytes) (args : List ArgString) :
    (pushArgs ustack mem args).Written ((ustack.toNat + 4294967295) % 4294967296) := by
  have hargs := pushArgs_words ustack mem args
  dsimp only at hargs
  rw [hargs]
  cases args with
  | nil =>
    have hfirst := @push_written ⟨ustack, mem, []⟩ (leBytes (0 : UInt32).toNat 4) (by rw [leBytes_length]; decide)
    exact hfirst.mono (pushWords_writes _)
  | cons arg args =>
    have hfirst := @push_written ⟨ustack, mem, []⟩ (arg.bytes ++ [0]) (by rw [List.length_append]; exact Nat.succ_pos _)
    exact hfirst.mono (List.Subset.trans (pushStrings_writes args) (pushWords_writes _))

theorem not_argumentsPassed (E : UvmmEnv W) (hzero : ∀ a w, (E.mmap E.zeroMmap a w).1 = 0) (w : W) (mem : Bytes)
    (argv uparam : UInt32) (args : List ArgString) : ¬ ArgumentsPassed E w mem argv uparam args := by
  rintro ⟨r, hr, -, hinside, -⟩
  unfold execStack fillStack at hr
  split_ifs at hr with hnull
  obtain rfl := Option.some.inj hr
  obtain ⟨a, ha, hlo, hhi⟩ := hinside _ (pushArgs_below _ mem args)
  rcases execStackMap_cases E hzero w with ⟨-, hlist⟩ | ⟨-, huaddr, b, hlist, hb, -⟩
  · rw [hlist] at ha
    exact List.not_mem_nil ha
  · rw [hlist] at ha
    rw [List.mem_singleton.mp ha, hb, huaddr] at hlo
    exact absurd hlo (by decide)

/-- **The arguments of a program** describe themselves and are freed once, but lie outside of the arena of the stack,
below its start: never is everything in order. -/
theorem execStack_outside (E : UvmmEnv W) (hzero : ∀ a w, (E.mmap E.zeroMmap a w).1 = 0) (w : W) (mem : Bytes)
    (argv uparam : UInt32) (args : List ArgString) (hfit : ArgsFit args) :
    ¬ ArgumentsPassed E w mem argv uparam args ∧
      ((execStackMap E w).1 = 0 → uparam ≠ 0 → ∃ r, execStack E w mem argv uparam args = some r ∧
        SelfDescribing r.stack.mem r.stack.ustack args ∧ (r.stack.writes.Pairwise fun p q => q.1 + q.2 ≤ p.1) ∧
        r.frees = args.map ArgString.addr ++ [argv, uparam] ∧
        ∀ v, r.stack.Written v → ∀ a ∈ (execStackMap E w).2.2.addressSpace.listArena, v < a.lo) := by
  refine ⟨not_argumentsPassed E hzero w mem argv uparam args, fun hmapped hparam => ?_⟩
  rcases execStackMap_cases E hzero w with ⟨hfailed, -⟩ | ⟨-, huaddr, b, hlist, hb, -⟩
  · exact absurd hmapped hfailed
  · have hroom : DownStack.size (argBlocks args) + 4 * (args.length + 4) ≤ stackHint.toNat := by
      have hsize : defaultUserStackSize.toNat + 16 ≤ stackHint.toNat := by decide
      unfold ArgsFit at hfit
      omega
    have hlaid := @pushArgs_laid args stackHint mem hroom
    refine ⟨⟨pushArgs stackHint mem args, args.map ArgString.addr ++ [argv, uparam]⟩, ?_, hlaid.selfDescribing,
      hlaid.apart, rfl, ?_⟩
    · unfold execStack fillStack
      rw [huaddr, if_neg fun h => hparam h.1]
    · rintro v ⟨p, hp, i, hi, hv⟩ a ha
      have hend := hlaid.within p hp
      have htop := word_lt stackHint
      rw [hlist] at ha
      rw [List.mem_singleton.mp ha, hb, hv, Nat.mod_eq_of_lt (by omega)]
      omega

/-- The argument `"a"`, at 0x100. -/
def argA : ArgString := ⟨0x100, [97], by decide, by decide⟩

theorem execStack_outside_a : ¬ ArgumentsPassed quietEnv () (fun _ => 0) 0x200 0x300 [argA] ∧
    ((execStackMap quietEnv ()).1 = 0 → (0x300 : UInt32) ≠ 0 →
      ∃ r, execStack quietEnv () (fun _ => 0) 0x200 0x300 [argA] = some r ∧
        SelfDescribing r.stack.mem r.stack.ustack [argA] ∧ (r.stack.writes.Pairwise fun p q => q.1 + q.2 ≤ p.1) ∧
        r.frees = [argA].map ArgString.addr ++ [0x200, 0x300] ∧
        ∀ v, r.stack.Written v → ∀ a ∈ (execStackMap quietEnv ()).2.2.addressSpace.listArena, v < a.lo) :=
  execStack_outside quietEnv (fun _ _ => rfl) () (fun _ => 0) 0x200 0x300 [argA] (by unfold ArgsFit; decide)

/-- The NUL behind `"a"` is at 0xFF3FFFFF, and the arena starts at 0xFF400000. -/
theorem execStack_writes_below : (execStackMap quietEnv ()).1 = 0 ∧
    ¬ ArgumentsPassed quietEnv () (fun _ => 0) 0x200 0x300 [argA] :=
  ⟨by decide, not_argumentsPassed quietEnv (fun _ _ => rfl) () (fun _ => 0) 0x200 0x300 [argA]⟩

end Desiros.Exec
