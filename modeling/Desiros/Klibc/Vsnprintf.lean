import Desiros.Klibc.PrintfFormats

/-!
# Formatted printing into a buffer (`vsnprintf` of `klibc.c`)

`PUTCHAR` is a parameter of the scan: `put` is what it does to the state `out` that it writes. With `putchar` it stores
into the buffer as long as there is room, and with `List.concat` into a buffer without end. The strings and the format
are those that the call finds in memory; none of them lies in the buffer.
-/

namespace Desiros.Klibc

open Desiros.Library

/-- The local variables of `vsnprintf`; `ap` counts the words of the arguments that have been taken. -/
structure Vsnprintf (σ : Type) where
  fmtModifiers : Bool := false
  prefixLong : Bool := false
  prefixLongLong : Bool := false
  ap : Nat := 0
  out : σ

/-- An argument of two words. -/
def longArg (args : Nat → UInt32) (i : Nat) : UInt64 :=
  UInt64.ofNat ((args i).toNat + 4294967296 * (args (i + 1)).toNat)

/-- `buff_int`, filled with the digits of an unsigned number, the last one first; a list from its last element on. -/
def unsignedDigits : Nat → Nat → List UInt8 → Option (List UInt8)
  | 0, _, _ => none
  | room + 1, integer, digits =>
    let m10 := integer % 10
    let digits := (ch '0' + UInt8.ofNat m10) :: digits
    let integer := integer / 10
    if integer = 0 then some digits else unsignedDigits room integer digits

/-- `buff_int`, filled with the digits of a signed number; the remainders have its sign. -/
def signedDigits : Nat → Int → List UInt8 → Option (List UInt8)
  | 0, _, _ => none
  | room + 1, integer, digits =>
    let m10 := integer.tmod 10
    let m10 := if m10 < 0 then -m10 else m10
    let digits := (ch '0' + UInt8.ofNat m10.toNat) :: digits
    let integer := integer.tdiv 10
    if integer = 0 then some digits else signedDigits room integer digits

section

variable {σ : Type} (put : σ → UInt8 → σ) (args : Nat → UInt32) (string : UInt32 → CString)

/-- `case 'u'` -/
def unsignedCase (s : Vsnprintf σ) : Option (Vsnprintf σ) :=
  if !s.prefixLongLong then do
    let buffInt ← unsignedDigits 16 (args s.ap).toNat []
    some { s with
      ap := s.ap + 1
      out := buffInt.foldl put s.out
      fmtModifiers := false }
  else do
    let buffInt ← unsignedDigits 32 (longArg args s.ap).toNat []
    some { s with
      ap := s.ap + 2
      out := buffInt.foldl put s.out
      fmtModifiers := false }

/-- `case 'i': case 'd'` -/
def signedCase (s : Vsnprintf σ) : Option (Vsnprintf σ) :=
  if !s.prefixLongLong then do
    let integer := (args s.ap).toInt32.toInt
    let out := if integer < 0 then put s.out (ch '-') else s.out
    let buffInt ← signedDigits 16 integer []
    some { s with
      ap := s.ap + 1
      out := buffInt.foldl put out
      fmtModifiers := false }
  else do
    let integer := (longArg args s.ap).toInt64.toInt
    let out := if integer < 0 then put s.out (ch '-') else s.out
    let buffInt ← signedDigits 32 integer []
    some { s with
      ap := s.ap + 2
      out := buffInt.foldl put out
      fmtModifiers := false }

/-- `case 'c'` -/
def charCase (s : Vsnprintf σ) : Vsnprintf σ :=
  { s with
    ap := s.ap + 1
    out := put s.out (args s.ap).toUInt8
    fmtModifiers := false }

/-- `case 's'` -/
def stringCase (s : Vsnprintf σ) : Vsnprintf σ :=
  let pointer := args s.ap
  let bytes := if pointer = 0 then ['(', 'n', 'u', 'l', 'l', ')'].map ch else (string pointer).bytes
  { s with
    ap := s.ap + 1
    out := bytes.foldl put s.out
    fmtModifiers := false }

/-- A turn of the loop over the sixteen digits, with `had_nonzero`. -/
def hexTurn (hexa : UInt64) (t : σ × Bool) (x : Nat) : σ × Bool :=
  let nb := hexa <<< UInt64.ofNat (x * 4)
  let nb := (nb >>> 60) &&& 0xf
  if nb = 0 then (if t.2 then put t.1 (ch '0') else t.1, t.2)
  else if nb < 10 then (put t.1 (ch '0' + nb.toUInt8), true)
  else (put t.1 (ch 'a' + (nb - 10).toUInt8), true)

/-- `case 'x'` -/
def hexCase (s : Vsnprintf σ) : Vsnprintf σ :=
  let hexa := if s.prefixLongLong then longArg args s.ap else (args s.ap).toUInt64
  let t := (List.range 16).foldl (hexTurn put hexa) (s.out, false)
  { s with
    ap := if s.prefixLongLong then s.ap + 2 else s.ap + 1
    out := if !t.2 then put t.1 (ch '0') else t.1
    fmtModifiers := false }

/-- `case 'p'` falls through to `case 'x'`. -/
def pointerCase (s : Vsnprintf σ) : Vsnprintf σ :=
  hexCase put args { s with out := put (put s.out (ch '0')) (ch 'x') }

/-- `default` -/
def defaultCase (c : UInt8) (s : Vsnprintf σ) : Vsnprintf σ :=
  let out := put s.out (ch '%')
  let out := if s.prefixLong then put out (ch 'l') else out
  let out := if s.prefixLongLong then put out (ch 'l') else out
  { s with
    out := put out c
    fmtModifiers := false }

/-- A turn of the loop over the format. -/
def formatTurn (s : Vsnprintf σ) (c : UInt8) : Option (Vsnprintf σ) :=
  if !s.fmtModifiers && c ≠ ch '%' then some { s with out := put s.out c }
  else if c = ch '%' then
    if s.fmtModifiers then
      some { s with
        out := put s.out (ch '%')
        fmtModifiers := false }
    else
      some { s with
        fmtModifiers := true
        prefixLong := false
        prefixLongLong := false }
  else if c = ch 'l' then
    if s.prefixLong then some { s with prefixLongLong := true } else some { s with prefixLong := true }
  else if c = ch 'u' then unsignedCase put args s
  else if c = ch 'i' ∨ c = ch 'd' then signedCase put args s
  else if c = ch 'c' then some (charCase put args s)
  else if c = ch 's' then some (stringCase put args string s)
  else if c = ch 'p' then some (pointerCase put args s)
  else if c = ch 'x' then some (hexCase put args s)
  else some (defaultCase put c s)

/-- `for(i=0 ; format[i] != '\0' ; i++)` -/
def formatLoop (format : CString) (out : σ) : Option (Vsnprintf σ) :=
  format.bytes.foldlM (formatTurn put args string) { out := out }

end

/-! ## The buffer -/

/-- Memory, the pointer into it, and the number of characters; `writes` are the addresses that have been written. -/
structure Buffer where
  mem : UInt32 → UInt8
  buff : UInt32
  result : UInt32 := 0
  writes : List UInt32 := []

namespace Buffer

/-- `*buff = c` -/
def store (b : Buffer) (c : UInt8) : Buffer :=
  { b with
    mem := Function.update b.mem b.buff c
    writes := b.buff :: b.writes }

/-- `PUTCHAR` -/
def putchar (len : UInt32) (b : Buffer) (c : UInt8) : Buffer :=
  let b := if b.result < len - 1 then { b.store c with buff := b.buff + 1 } else b
  { b with result := b.result + 1 }

end Buffer

variable (args : Nat → UInt32) (string : UInt32 → CString)

/-- `vsnprintf`: what it returns, and what it leaves in memory. -/
def vsnprintf (buff len format : UInt32) (mem : UInt32 → UInt8) : Option (Int32 × Buffer) :=
  let b : Buffer :=
    { mem := mem
      buff := buff }
  if buff = 0 ∨ format = 0 ∨ len ≤ 0 then some (-1, b)
  else do
    let s ← formatLoop (Buffer.putchar len) args string (string format) b
    some (s.out.result.toInt32, s.out.store 0)

/-- `snprintf`, whose `len` takes the result. -/
def snprintf (buff len format : UInt32) (mem : UInt32 → UInt8) : Option (Int32 × Buffer) := do
  let r ← vsnprintf args string buff len format mem
  let len := r.1.toUInt32
  some (len.toInt32, r.2)

/-- The text in a buffer without end. -/
def unlimitedText (format : CString) : Option (List UInt8) := do
  let s ← formatLoop (fun out c => out ++ [c]) args string format []
  some s.out

end Desiros.Klibc
