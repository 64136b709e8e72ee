import Desiros.Block.DeviceNames
import Desiros.Klibc.VsnprintfTruncates

/-!
# Names in memory (`snprintf` in `drivers/partition.c` and `drivers/ide.c`)

`BlockWorld.snprintf` gives a buffer a string. `snprintf_partName` and `snprintf_hdName` show that the `snprintf` of
`klibc.c`, called with the formats of the two drivers, leaves this string in memory, as far as `len` allows.
-/

namespace Desiros.Block

open Desiros.Library Desiros.Klibc

theorem digitChar_byte : ∀ d < 10, UInt8.ofNat d.digitChar.toNat = ch ((Conversion.numerals false).getD d '0') := by
  decide

/-- The last digit stands behind those of the quotient. -/
theorem decimal_eq (n : Nat) :
    decimal n = (if n < 10 then [] else decimal (n / 10)) ++ [ch ((Conversion.numerals false).getD (n % 10) '0')] := by
  unfold decimal
  rw [Nat.toDigits_eq_if (by decide)]
  split_ifs with hlt
  · rw [Nat.mod_eq_of_lt hlt, ← digitChar_byte n hlt]
    rfl
  · rw [List.map_append, ← digitChar_byte (n % 10) (Nat.mod_lt n (by decide))]
    rfl

theorem decimal_digitsOf (n : Nat) : decimal n = digitsOf 10 n := by
  induction n using Nat.strongRecOn with
  | ind n ih =>
    rw [decimal_eq]
    split_ifs with hlt
    · rw [digitsOf, numeral_of_lt hlt, Nat.mod_eq_of_lt hlt, List.nil_append]
    · have hdiv : n / 10 ≠ 0 := by omega
      rw [ih (n / 10) (by omega), digitsOf, digitsOf, numeral_eq (by decide) hdiv]

/-! ## The calls -/

section

variable {args : Nat → UInt32} {string : UInt32 → CString} {buff len format : UInt32} {n : Nat}

/-- The text of `%s%d`. -/
theorem fullText_partName (hformat : (string format).bytes = ['%', 's', '%', 'd'].map ch) (hname : args 0 ≠ 0)
    (hnumber : args 1 = UInt32.ofNat n) (hn : n < 2147483648) :
    fullText args string (string format) = (string (args 0)).bytes ++ decimal n := by
  have hpieces : pieces none (['%', 's', '%', 'd'].map ch) = [.directive 0 (ch 's'), .directive 0 (ch 'd')] := by
    decide
  have hvalue : (args 1).toInt32.toInt = n := by
    rw [hnumber, UInt32.toInt32_ofNat', Int32.toInt_ofNat_of_lt hn]
  have hstring : (Piece.directive 0 (ch 's')).text args string 0 = (string (args 0)).bytes := if_neg hname
  have hdecimal : (Piece.directive 0 (ch 'd')).text args string 1 = decimal n := by
    show signedText (args 1).toInt32.toInt = _
    unfold signedText
    rw [hvalue, if_neg (by omega), Int.natAbs_natCast, decimal_digitsOf, List.nil_append]
  rw [fullText, hformat, hpieces, textOfPieces, textOfPieces, textOfPieces, hstring, List.append_nil]
  exact congrArg _ hdecimal

/-- The text of `hd%c`. -/
theorem fullText_hdName (hformat : (string format).bytes = ['h', 'd', '%', 'c'].map ch)
    (hletter : args 0 = UInt32.ofNat (97 + n)) : fullText args string (string format) = hdName n := by
  have hpieces : pieces none (['h', 'd', '%', 'c'].map ch) =
      [.ordinary (ch 'h'), .ordinary (ch 'd'), .directive 0 (ch 'c')] := by
    decide
  have hchar : (Piece.directive 0 (ch 'c')).text args string 0 = [UInt8.ofNat (97 + n)] := by
    show [(args 0).toUInt8] = _
    rw [hletter, UInt32.toUInt8_ofNat']
  rw [fullText, hformat, hpieces, textOfPieces, textOfPieces, textOfPieces, textOfPieces, List.append_nil]
  exact congrArg (fun l => ch 'h' :: ch 'd' :: l) hchar

/-- The call leaves a text in the buffer that `BlockWorld.snprintf` gives it. -/
theorem snprintf_stringAt {text : List UInt8} (w : BlockWorld) (q : Nat) (mem : UInt32 → UInt8) (hbuff : buff ≠ 0)
    (hformat : format ≠ 0) (hlen : 1 ≤ len) (htext : fullText args string (string format) = text)
    (hshort : text.length < 4294967296) :
    ∃ b, Klibc.snprintf args string buff len format mem = some (Int32.ofNat text.length, b) ∧
      StringAt b.mem buff ((w.snprintf q len.toNat text).strings q) := by
  obtain ⟨b, hcall, hstored⟩ := vsnprintf_stored args string mem hbuff hformat hlen (htext ▸ hshort)
  rw [htext] at hcall hstored
  have hstrings : (w.snprintf q len.toNat text).strings q = text.take (len.toNat - 1) := Function.update_self ..
  rw [hstrings]
  exact ⟨b, (snprintf_eq args string buff len format mem).trans hcall, hstored.stringAt⟩

/-- **The name of a partition.** -/
theorem snprintf_partName (w : BlockWorld) (q : Nat) (mem : UInt32 → UInt8) (hbuff : buff ≠ 0) (hnull : format ≠ 0)
    (hlen : 1 ≤ len) (hformat : (string format).bytes = ['%', 's', '%', 'd'].map ch) (hname : args 0 ≠ 0)
    (hnumber : args 1 = UInt32.ofNat n) (hn : n < 2147483648)
    (hshort : ((string (args 0)).bytes ++ decimal n).length < 4294967296) :
    ∃ b, Klibc.snprintf args string buff len format mem =
        some (Int32.ofNat ((string (args 0)).bytes ++ decimal n).length, b) ∧
      StringAt b.mem buff ((w.snprintf q len.toNat ((string (args 0)).bytes ++ decimal n)).strings q) :=
  snprintf_stringAt w q mem hbuff hnull hlen (fullText_partName hformat hname hnumber hn) hshort

/-- **The name of a disk.** -/
theorem snprintf_hdName (w : BlockWorld) (q : Nat) (mem : UInt32 → UInt8) (hbuff : buff ≠ 0) (hnull : format ≠ 0)
    (hlen : 1 ≤ len) (hformat : (string format).bytes = ['h', 'd', '%', 'c'].map ch)
    (hletter : args 0 = UInt32.ofNat (97 + n)) :
    ∃ b, Klibc.snprintf args string buff len format mem = some (3, b) ∧
      StringAt b.mem buff ((w.snprintf q len.toNat (hdName n)).strings q) :=
  snprintf_stringAt w q mem hbuff hnull hlen (fullText_hdName hformat hletter) (show 3 < 4294967296 by decide)

end

end Desiros.Block
