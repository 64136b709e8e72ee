import Desiros.Library.Numeral
import Mathlib.Data.List.TakeWhile
import Mathlib.Data.UInt

/-!
# Formatted printing (`do_printf` of `klibc.c`)

The format is scanned by a machine whose states fall through to the next ones: `afterPercent` goes on with `width`,
`width` with `modifiers`, and `modifiers` with `conversion`. `Printf` holds the local variables, the bytes handed to
`fn`, and the places of the format that have been read. `conversion_eq` says what a conversion prints.
-/

namespace Desiros.Klibc

open Desiros.Library

/-! ## Data -/

def ch (c : Char) : UInt8 := c.toUInt8

/-- A string in memory, without its NUL. -/
structure CString where
  bytes : List UInt8
  noNul : 0 ∉ bytes
  short : bytes.length < 4294967296

/-- What `do_printf` finds in memory: from the start of the format on, in the words of its arguments, and at an
address. -/
structure Call where
  fmt : Nat → UInt8
  args : Nat → UInt32
  string : UInt32 → CString

/-- `PR_LJ` to `PR_FP` -/
structure Flags where
  prLJ : Bool := false
  prCA : Bool := false
  prSG : Bool := false
  pr32 : Bool := false
  pr16 : Bool := false
  prWS : Bool := false
  prLZ : Bool := false
  prFP : Bool := false
deriving DecidableEq, Repr

structure Printf where
  fmt : Nat := 0
  state : Nat := 0
  flags : Flags := {}
  count : UInt32 := 0
  givenWd : UInt32 := 0
  /-- The words of `args` that have been taken. -/
  args : Nat := 0
  /-- The bytes handed to `fn`. -/
  out : List UInt8 := []
  /-- The places of the format that have been read. -/
  reads : List Nat := [0]
deriving DecidableEq, Repr

inductive PrintfFault where
  /-- `where` has left `buf`. -/
  | overrun
  /-- The scan did not end in time. -/
  | endless
deriving DecidableEq, Repr

/-- `PR_BUFLEN` -/
def prBuflen : Nat := 16

namespace Printf

/-- `fn(c); count++;` -/
def fn (s : Printf) (c : UInt8) : Printf :=
  { s with
    out := s.out ++ [c]
    count := s.count + 1 }

/-- `fmt++`, and the reading of `*fmt` that follows. -/
def next (s : Printf) : Printf :=
  { s with
    fmt := s.fmt + 1
    reads := (s.fmt + 1) :: s.reads }

/-- `state = flags = given_wd = 0` -/
def reset (s : Printf) : Printf :=
  { s with
    state := 0
    flags := {}
    givenWd := 0 }

def setWd (s : Printf) (givenWd : UInt32) : Printf := { s with givenWd := givenWd }

/-- `while(given_wd > wd) { fn(c); count++; given_wd--; }`, in at most `n` turns. -/
def pad (c : UInt8) (wd : UInt32) : Nat → Printf → Printf
  | 0, s => s
  | n + 1, s => if s.givenWd > wd then pad c wd n ((s.fn c).setWd (s.givenWd - 1)) else s

/-- The sign in front of blanks, the text, and the blanks on the right. -/
def emitText (s : Printf) (actualWd : UInt32) (digits : List UInt8) : Printf :=
  let s := if s.flags.prWS && !s.flags.prLZ then s.fn (ch '-') else s
  let s := (digits.takeWhile (· ≠ 0)).foldl fn s
  let s := s.setWd (if s.givenWd < actualWd then 0 else s.givenWd - actualWd)
  s.pad (ch ' ') 0 s.givenWd.toNat

/-- From `EMIT2` on. -/
def emit2 (s : Printf) (actualWd : UInt32) (digits : List UInt8) : Printf :=
  let s := if s.flags.prLJ then s else s.pad (if s.flags.prLZ then ch '0' else ch ' ') actualWd s.givenWd.toNat
  s.emitText actualWd digits

/-- From `EMIT` on; `digits` is what stands from `where` up to the NUL. -/
def emit (s : Printf) (digits : List UInt8) : Printf :=
  let actualWd := UInt32.ofNat digits.length
  let actualWd := if s.flags.prWS then actualWd + 1 else actualWd
  let s := if s.flags.prWS && s.flags.prLZ then s.fn (ch '-') else s
  s.emit2 actualWd digits

end Printf

/-! ## Numbers -/

/-- The character of a digit; `ca` is `PR_CA`. -/
def digitChar (ca : Bool) (temp : UInt32) : UInt8 :=
  if temp < 10 then temp.toUInt8 + ch '0' else if ca then temp.toUInt8 - 10 + ch 'A' else temp.toUInt8 - 10 + ch 'a'

/-- The loop that writes the digits into `buf`, downwards from `where`. -/
def putDigits (radix : UInt32) (ca : Bool) : Nat → UInt32 → List UInt8 → Option (List UInt8)
  | 0, _, _ => none
  | place + 1, num, digits =>
    let digits := digitChar ca (num % radix) :: digits
    let num := num / radix
    if num = 0 then some digits else putDigits radix ca place num digits

/-- `num = va_arg(args, ...)` -/
def loadNum (flags : Flags) (word : UInt32) : Int32 :=
  if flags.pr32 then word.toInt32
  else if flags.pr16 then
    if flags.prSG then word.toUInt16.toInt16.toInt32 else word.toUInt16.toUInt32.toInt32
  else word.toInt32

variable (e : Call)

/-- From `DO_NUM` on. -/
def doNum (s : Printf) (radix : UInt32) : Option Printf :=
  let num := loadNum s.flags (e.args s.args)
  let s := { s with args := s.args + 1 }
  let negative := s.flags.prSG && decide (num < 0)
  let s := { s with flags := { s.flags with prWS := s.flags.prWS || negative } }
  let num := if negative then -num else num
  (putDigits radix s.flags.prCA (prBuflen - 1) num.toUInt32 []).map s.emit

/-! ## The scan -/

/-- `switch(*fmt)` of `case 4` -/
def convert (s : Printf) : Option Printf :=
  let c := e.fmt s.fmt
  if c = ch 'X' then doNum e { s with flags := { s.flags with prCA := true } } 16
  else if c = ch 'x' ∨ c = ch 'p' ∨ c = ch 'n' then doNum e s 16
  else if c = ch 'd' ∨ c = ch 'i' then doNum e { s with flags := { s.flags with prSG := true } } 10
  else if c = ch 'u' then doNum e s 10
  else if c = ch 'o' then doNum e s 8
  else if c = ch 'c' then
    let value := (e.args s.args).toUInt8
    some (Printf.emit2 { s with
      flags := { s.flags with prLZ := false }
      args := s.args + 1 } 1 [value])
  else if c = ch 's' then
    let string := e.string (e.args s.args)
    some (Printf.emit { s with
      flags := { s.flags with prLZ := false }
      args := s.args + 1 } string.bytes)
  else some s

/-- `case 4` -/
def conversion (s : Printf) : Option Printf := (convert e s).map Printf.reset

/-- `case 3` -/
def modifiers (s : Printf) : Option Printf :=
  let c := e.fmt s.fmt
  if c = ch 'F' then some { s with flags := { s.flags with prFP := true } }
  else if c = ch 'N' then some s
  else if c = ch 'l' then some { s with flags := { s.flags with pr32 := true } }
  else if c = ch 'h' then some { s with flags := { s.flags with pr16 := true } }
  else conversion e { s with state := s.state + 1 }

/-- `case 2` -/
def width (s : Printf) : Option Printf :=
  let c := e.fmt s.fmt
  if c ≥ ch '0' ∧ c ≤ ch '9' then some { s with givenWd := 10 * s.givenWd + (c - ch '0').toUInt32 }
  else modifiers e { s with state := s.state + 1 }

/-- `case 1` -/
def afterPercent (s : Printf) : Option Printf :=
  let c := e.fmt s.fmt
  if c = ch '%' then some (s.fn c).reset
  else if c = ch '-' then
    if s.flags.prLJ then some s.reset else some { s with flags := { s.flags with prLJ := true } }
  else
    let s := { s with state := s.state + 1 }
    if c = ch '0' then width e { s with flags := { s.flags with prLZ := true } }.next
    else width e s

/-- `case 0` -/
def ordinary (s : Printf) : Option Printf :=
  let c := e.fmt s.fmt
  if c ≠ ch '%' then
    let s := s.fn c
    some { s with count := if c = ch '\n' then 0 else s.count }
  else afterPercent e { s with state := s.state + 1 }.next

/-- `switch(state)` -/
def switchState (s : Printf) : Option Printf :=
  match s.state with
  | 0 => ordinary e s
  | 1 => afterPercent e s
  | 2 => width e s
  | 3 => modifiers e s
  | 4 => conversion e s
  | _ => some s.reset

/-- `for(; *fmt; fmt++)` -/
def scan : Nat → Printf → Except PrintfFault Printf
  | 0, _ => .error .endless
  | fuel + 1, s =>
    if e.fmt s.fmt = 0 then .ok s
    else
      match switchState e s with
      | none => .error .overrun
      | some s => scan fuel s.next

/-- `do_printf`: the local variables at its end, `count` among them, which it returns. -/
def doPrintf (fuel : Nat) : Except PrintfFault Printf := scan e fuel {}

theorem noNul_nil : (0 : UInt8) ∉ ([] : List UInt8) := List.not_mem_nil

theorem short_nil : ([] : List UInt8).length < 4294967296 := by
  decide

/-- No argument is a string. -/
def noStrings (_ : UInt32) : CString := ⟨[], noNul_nil, short_nil⟩

/-- The format, up to its NUL and behind it. -/
def textAt (text : List UInt8) (after : Nat → UInt8) (i : Nat) : UInt8 :=
  if h : i < text.length then text[i] else if i = text.length then 0 else after i

theorem textAt_of_lt {format : List UInt8} {after : Nat → UInt8} {p : Nat} (hp : p < format.length) :
    textAt format after p = format[p] :=
  dif_pos hp

theorem textAt_length (format : List UInt8) (after : Nat → UInt8) : textAt format after format.length = 0 := by
  unfold textAt
  rw [dif_neg (lt_irrefl _), if_pos rfl]

section

variable {s : Printf}

theorem switchState_ordinary (h : s.state = 0) : switchState e s = ordinary e s := by
  simp only [switchState, h]

theorem switchState_afterPercent (h : s.state = 1) : switchState e s = afterPercent e s := by
  simp only [switchState, h]

theorem switchState_width (h : s.state = 2) : switchState e s = width e s := by
  simp only [switchState, h]

theorem switchState_modifiers (h : s.state = 3) : switchState e s = modifiers e s := by
  simp only [switchState, h]

theorem ordinary_percent (h : e.fmt s.fmt = ch '%') :
    ordinary e s = afterPercent e (Printf.next { s with state := s.state + 1 }) := by
  unfold ordinary
  exact if_neg (not_not.mpr h)

end

/-! ## What is printed -/

namespace Printf

variable {s : Printf}

/-- The bytes of `l`, handed to `fn`. -/
def puts (s : Printf) (l : List UInt8) : Printf :=
  { s with
    out := s.out ++ l
    count := s.count + UInt32.ofNat l.length }

theorem fn_eq (s : Printf) (c : UInt8) : s.fn c = s.puts [c] := rfl

theorem puts_nil (s : Printf) : s.puts [] = s := by
  unfold puts
  rw [List.append_nil, List.length_nil, show UInt32.ofNat 0 = 0 from rfl, UInt32.add_zero]

theorem puts_puts (s : Printf) (l l' : List UInt8) : (s.puts l).puts l' = s.puts (l ++ l') := by
  unfold puts
  dsimp only
  rw [List.append_assoc, List.length_append, UInt32.ofNat_add, UInt32.add_assoc]

theorem foldl_fn (l : List UInt8) (s : Printf) : l.foldl fn s = s.puts l := by
  induction l generalizing s with
  | nil => exact (puts_nil s).symm
  | cons c l ih =>
    rw [List.foldl_cons, ih, fn_eq, puts_puts]
    rfl

theorem puts_setWd (s : Printf) (l : List UInt8) (g : UInt32) : (s.puts l).setWd g = (s.setWd g).puts l := rfl

theorem setWd_setWd (s : Printf) (g g' : UInt32) : (s.setWd g).setWd g' = s.setWd g' := rfl

theorem pad_eq (c : UInt8) (wd : UInt32) {n : Nat} {s : Printf} (hn : s.givenWd.toNat - wd.toNat ≤ n) :
    s.pad c wd n =
      (s.setWd (if s.givenWd > wd then wd else s.givenWd)).puts
        (List.replicate (s.givenWd.toNat - wd.toNat) c) := by
  induction n generalizing s with
  | zero =>
    have hle : ¬ s.givenWd > wd := by
      rw [gt_iff_lt, UInt32.lt_iff_toNat_lt]
      omega
    rw [if_neg hle, Nat.le_zero.mp hn, List.replicate_zero, puts_nil]
    rfl
  | succ n ih =>
    unfold pad
    by_cases hgt : s.givenWd > wd
    · have hlt := UInt32.lt_iff_toNat_lt.mp hgt
      have hless : (s.givenWd - 1).toNat = s.givenWd.toNat - 1 :=
        UInt32.toNat_sub_of_le _ _ (UInt32.le_iff_toNat_le.mpr (by
          rw [show (1 : UInt32).toNat = 1 from rfl]
          omega))
      have hgiven : (if s.givenWd - 1 > wd then wd else s.givenWd - 1) = wd := by
        split_ifs with hmore
        · rfl
        · rw [gt_iff_lt, UInt32.lt_iff_toNat_lt] at hmore
          exact UInt32.toNat_inj.mp (by omega)
      have hwd : ((s.fn c).setWd (s.givenWd - 1)).givenWd = s.givenWd - 1 := rfl
      rw [if_pos hgt, if_pos hgt, ih (by rw [hwd]; omega), hwd, hgiven, hless,
        show s.givenWd.toNat - wd.toNat = s.givenWd.toNat - 1 - wd.toNat + 1 by omega, List.replicate_succ,
        setWd_setWd, fn_eq, puts_setWd, puts_puts]
      rfl
    · have hle := not_lt.mp (fun h => hgt (UInt32.lt_iff_toNat_lt.mpr h))
      rw [if_neg hgt, if_neg hgt, Nat.sub_eq_zero_of_le hle, List.replicate_zero, puts_nil]
      rfl

/-- The last lines: the blanks on the right. -/
theorem padRight_eq (s : Printf) (wd : UInt32) :
    (s.setWd (if s.givenWd < wd then 0 else s.givenWd - wd)).pad (ch ' ') 0
        (if s.givenWd < wd then 0 else s.givenWd - wd).toNat =
      (s.setWd 0).puts (List.replicate (s.givenWd.toNat - wd.toNat) (ch ' ')) := by
  have hleft : (if s.givenWd < wd then 0 else s.givenWd - wd).toNat = s.givenWd.toNat - wd.toNat := by
    split_ifs with hlt
    · exact (Nat.sub_eq_zero_of_le (le_of_lt (UInt32.lt_iff_toNat_lt.mp hlt))).symm
    · exact UInt32.toNat_sub_of_le _ _ (UInt32.not_lt.mp hlt)
  have hzero : ∀ g : UInt32, (if g > 0 then 0 else g) = 0 := by
    intro g
    split_ifs with hg
    · rfl
    · rw [gt_iff_lt, UInt32.lt_iff_toNat_lt, not_lt] at hg
      exact UInt32.toNat_inj.mp (Nat.le_zero.mp hg)
  have hwd : ∀ g, (s.setWd g).givenWd = g := fun _ => rfl
  rw [pad_eq _ _ (by rw [hwd]; exact Nat.sub_le _ _), hwd, hzero, setWd_setWd, hleft]
  rfl

theorem emitText_eq (s : Printf) (wd : UInt32) (digits : List UInt8) :
    s.emitText wd digits =
      (s.setWd 0).puts ((if s.flags.prWS && !s.flags.prLZ then [ch '-'] else []) ++ digits.takeWhile (· ≠ 0) ++
        List.replicate (s.givenWd.toNat - wd.toNat) (ch ' ')) := by
  have hsign : (if s.flags.prWS && !s.flags.prLZ then s.fn (ch '-') else s) =
      s.puts (if s.flags.prWS && !s.flags.prLZ then [ch '-'] else []) := by
    split_ifs
    · rfl
    · exact (puts_nil s).symm
  unfold emitText
  dsimp only
  rw [hsign, foldl_fn, puts_puts]
  refine (padRight_eq (s.puts _) wd).trans ?_
  rw [puts_setWd, puts_puts]
  rfl

/-- On the left, the flags say what stands in front of the text. -/
theorem emit2_eq (s : Printf) (wd : UInt32) (digits : List UInt8) :
    s.emit2 wd digits =
      (s.setWd 0).puts ((if s.flags.prLJ then []
            else List.replicate (s.givenWd.toNat - wd.toNat) (if s.flags.prLZ then ch '0' else ch ' ')) ++
          ((if s.flags.prWS && !s.flags.prLZ then [ch '-'] else []) ++ digits.takeWhile (· ≠ 0) ++
            if s.flags.prLJ then List.replicate (s.givenWd.toNat - wd.toNat) (ch ' ') else [])) := by
  unfold emit2
  dsimp only
  rw [emitText_eq]
  cases hleft : s.flags.prLJ with
  | true => rfl
  | false =>
    have hnone : (if s.givenWd > wd then wd else s.givenWd).toNat - wd.toNat = 0 := by
      split_ifs with hgt
      · exact Nat.sub_self _
      · exact Nat.sub_eq_zero_of_le (not_lt.mp hgt)
    rw [if_neg Bool.false_ne_true, if_neg Bool.false_ne_true, if_neg Bool.false_ne_true, pad_eq _ _ (Nat.sub_le _ _),
      show ∀ t : Printf, ∀ l, (t.puts l).givenWd = t.givenWd from fun _ _ => rfl,
      show ∀ g, (s.setWd g).givenWd = g from fun _ => rfl, hnone, List.replicate_zero, puts_setWd, puts_puts]
    rfl

theorem takeWhile_of_noNul {l : List UInt8} (h : 0 ∉ l) : l.takeWhile (· ≠ 0) = l := by
  rw [List.takeWhile_eq_self_iff]
  intro c hc
  exact decide_eq_true fun hzero => h (hzero ▸ hc)

/-- **What `EMIT` prints** is a field of the given width. -/
theorem emit_eq (s : Printf) {digits : List UInt8} (hnul : 0 ∉ digits)
    (hshort : digits.length + (if s.flags.prWS then 1 else 0) < 4294967296) :
    s.emit digits =
      (s.setWd 0).puts (field (ch ' ') (ch '0') s.flags.prLJ s.flags.prLZ s.givenWd.toNat
        (if s.flags.prWS then [ch '-'] else []) digits) := by
  have hlength : (UInt32.ofNat digits.length).toNat = digits.length := by
    rw [UInt32.toNat_ofNat']
    omega
  unfold emit field
  dsimp only
  cases hsign : s.flags.prWS with
  | false =>
    rw [if_neg Bool.false_ne_true, Bool.false_and, if_neg Bool.false_ne_true, if_neg Bool.false_ne_true, emit2_eq,
      takeWhile_of_noNul hnul, hlength, hsign, List.length_nil, Nat.zero_add]
    cases s.flags.prLJ <;> cases s.flags.prLZ <;> simp
  | true =>
    rw [hsign, if_pos rfl] at hshort
    have hsucc : (UInt32.ofNat digits.length + 1).toNat = [ch '-'].length + digits.length := by
      rw [UInt32.toNat_add, hlength, show (1 : UInt32).toNat = 1 from rfl, List.length_singleton]
      omega
    rw [if_pos rfl, Bool.true_and, if_pos rfl]
    cases hzeros : s.flags.prLZ with
    | false =>
      rw [if_neg Bool.false_ne_true, emit2_eq, takeWhile_of_noNul hnul, hsucc, hsign, hzeros]
      cases s.flags.prLJ <;> simp
    | true =>
      rw [if_pos rfl, emit2_eq, takeWhile_of_noNul hnul, hsucc, fn_eq, puts_setWd, puts_puts,
        show (s.puts [ch '-']).flags = s.flags from rfl, show (s.puts [ch '-']).givenWd = s.givenWd from rfl, hsign,
        hzeros]
      cases s.flags.prLJ <;> simp

end Printf

theorem digitChar_ne_zero (ca : Bool) : ∀ d < 16, digitChar ca (UInt32.ofNat d) ≠ 0 := by
  cases ca <;> decide

/-- The text of a number. -/
def numberText (radix : UInt32) (ca : Bool) (n : Nat) : List UInt8 :=
  numeral radix.toNat (fun d => digitChar ca (UInt32.ofNat d)) n

section

variable {radix : UInt32} {ca : Bool}

theorem putDigits_eq (hradix : 1 < radix.toNat) {place : Nat} {num : UInt32} {digits : List UInt8}
    (hplace : (numberText radix ca num.toNat).length ≤ place) :
    putDigits radix ca place num digits = some (numberText radix ca num.toNat ++ digits) := by
  have hdigit : ∀ n : UInt32, digitChar ca (UInt32.ofNat (n.toNat % radix.toNat)) = digitChar ca (n % radix) := by
    intro n
    rw [← UInt32.toNat_mod, UInt32.ofNat_toNat]
  induction place generalizing num digits with
  | zero =>
    have hnil := List.length_eq_zero_iff.mp (Nat.le_zero.mp hplace)
    unfold numberText at hnil
    by_cases hlast : num.toNat / radix.toNat = 0
    · rw [numeral_of_lt ((Nat.div_eq_zero_iff_lt (by omega)).mp hlast)] at hnil
      cases hnil
    · rw [numeral_eq hradix hlast, List.append_eq_nil_iff] at hnil
      cases hnil.2
  | succ place ih =>
    unfold putDigits
    dsimp only
    by_cases hlast : num / radix = 0
    · have hlt : num.toNat < radix.toNat := by
        rw [← Nat.div_eq_zero_iff_lt (by omega), ← UInt32.toNat_div, hlast]
        rfl
      rw [if_pos hlast, ← hdigit, Nat.mod_eq_of_lt hlt]
      unfold numberText
      rw [numeral_of_lt hlt]
      rfl
    · have hmore : num.toNat / radix.toNat ≠ 0 := by
        rw [← UInt32.toNat_div]
        exact fun h => hlast (UInt32.toNat_inj.mp h)
      have htext : numberText radix ca num.toNat =
          numberText radix ca (num / radix).toNat ++ [digitChar ca (num % radix)] := by
        unfold numberText
        rw [numeral_eq hradix hmore, hdigit, UInt32.toNat_div]
      rw [htext, List.length_append, List.length_singleton] at hplace
      rw [if_neg hlast, ih (Nat.le_of_succ_le_succ hplace), htext, List.append_assoc]
      rfl

/-- A number of 32 bits has eleven digits at most. -/
theorem numberText_length (ca : Bool) (hradix : 8 ≤ radix.toNat) (num : UInt32) :
    (numberText radix ca num.toNat).length ≤ 11 := by
  refine numeral_length_le (by omega) (by decide) ?_
  calc num.toNat < 8 ^ 11 := lt_trans num.toNat_lt (by decide)
    _ ≤ radix.toNat ^ 11 := Nat.pow_le_pow_left hradix 11

theorem numberText_noNul (hradix : 1 < radix.toNat) (hradix' : radix.toNat ≤ 16) (n : Nat) :
    0 ∉ numberText radix ca n := by
  intro hzero
  obtain ⟨d, hd, hchar⟩ := mem_numeral hradix hzero
  exact digitChar_ne_zero ca d (by omega) hchar

end

/-! ## The sign -/

theorem toInt_cases (x : Int32) :
    (x.toUInt32.toNat < 2147483648 ∧ x.toInt = x.toUInt32.toNat) ∨
      (2147483648 ≤ x.toUInt32.toNat ∧ x.toInt = x.toUInt32.toNat - 4294967296) := by
  have h : x.toInt = if 2 * x.toUInt32.toNat < 2 ^ 32 then (x.toUInt32.toNat : Int)
      else x.toUInt32.toNat - (2 ^ 32 : Nat) := BitVec.toInt_eq_toNat_cond x.toBitVec
  split_ifs at h with hsmall
  · left
    omega
  · right
    omega

/-- `num = -num` is right for the most negative number too: from there on the digits are those of an unsigned one. -/
theorem magnitude_toNat (x : Int32) : (if x < 0 then -x else x).toUInt32.toNat = x.toInt.natAbs := by
  have hlt : x < 0 ↔ x.toInt < 0 := Int32.lt_iff_toInt_lt
  have hneg : (-x).toUInt32.toNat = (4294967296 - x.toUInt32.toNat) % 4294967296 := UInt32.toNat_neg x.toUInt32
  have hbound := x.toUInt32.toNat_lt
  rcases toInt_cases x with ⟨hsmall, hint⟩ | ⟨hlarge, hint⟩
  · rw [if_neg (by rw [hlt]; omega)]
    omega
  · rw [if_pos (by rw [hlt]; omega), hneg]
    omega

/-- The number that a conversion prints. -/
def argValue (flags : Flags) (word : UInt32) : Int :=
  if flags.prSG then (loadNum flags word).toInt else (loadNum flags word).toUInt32.toNat

/-- **What `DO_NUM` prints**; `buf` is large enough. -/
theorem doNum_eq (e : Call) (s : Printf) {radix : UInt32} (hlow : 8 ≤ radix.toNat) (hhigh : radix.toNat ≤ 16)
    (hsign : s.flags.prWS = false) :
    ∃ flags, doNum e s radix =
      some (({ s with flags := flags, args := s.args + 1, givenWd := 0 } : Printf).puts
        (field (ch ' ') (ch '0') s.flags.prLJ s.flags.prLZ s.givenWd.toNat
          (if argValue s.flags (e.args s.args) < 0 then [ch '-'] else [])
          (numberText radix s.flags.prCA (argValue s.flags (e.args s.args)).natAbs))) := by
  have hmagnitude : (if s.flags.prSG && decide (loadNum s.flags (e.args s.args) < 0) then
      -loadNum s.flags (e.args s.args) else loadNum s.flags (e.args s.args)).toUInt32.toNat =
      (argValue s.flags (e.args s.args)).natAbs := by
    unfold argValue
    cases s.flags.prSG with
    | false => rfl
    | true =>
      simp only [Bool.true_and, decide_eq_true_iff, if_true]
      exact magnitude_toNat _
  have hnegative : (s.flags.prSG && decide (loadNum s.flags (e.args s.args) < 0)) =
      decide (argValue s.flags (e.args s.args) < 0) := by
    unfold argValue
    cases s.flags.prSG with
    | false => exact (decide_eq_false (not_lt.mpr (Int.natCast_nonneg _))).symm
    | true =>
      rw [Bool.true_and, if_pos rfl, decide_eq_decide]
      exact Int32.lt_iff_toInt_lt
  have hlength := numberText_length s.flags.prCA hlow (if s.flags.prSG &&
    decide (loadNum s.flags (e.args s.args) < 0) then -loadNum s.flags (e.args s.args) else
      loadNum s.flags (e.args s.args)).toUInt32
  refine ⟨{ s.flags with prWS := decide (argValue s.flags (e.args s.args) < 0) }, ?_⟩
  unfold doNum
  dsimp only
  rw [putDigits_eq (by omega) (le_trans hlength (by decide)), List.append_nil, Option.map_some, hmagnitude, hnegative,
    hsign, Bool.false_or]
  rw [hmagnitude] at hlength
  refine congrArg some ((Printf.emit_eq _ (numberText_noNul (by omega) hhigh _) ?_).trans ?_)
  · dsimp only
    split_ifs <;> omega
  · simp only [decide_eq_true_iff]
    rfl

end Desiros.Klibc
