import Desiros.Klibc.VsnprintfTruncates

/-!
# The two formatters (`do_printf` and `vsnprintf` of `klibc.c`)

On the formats that both know, `do_printf` prints what `vsnprintf` writes: `formatters_agree`. The items of such a format
are pieces of `vsnprintf` (`pieces_items`) and stand for the same text (`Plain.text_eq`).
-/

namespace Desiros.Klibc

open Desiros.Library

theorem plain_flag : false = true ∨ ([] : List (Fin 10)).head? ≠ some 0 := by
  decide

/-- A conversion without flags, width and modifier. -/
def plainConversion (verb : Verb) : Conversion where
  left := false
  zero := false
  width := []
  length := .none
  verb := verb
  flag := plain_flag

/-- An element of a format that both know. -/
inductive Plain where
  | ordinary (c : UInt8) (h : c ≠ 0 ∧ c ≠ ch '%')
  | percent
  | conversion (verb : Verb) (h : verb ∈ [Verb.d, .i, .u, .x, .s])

namespace Plain

/-- The item of a format of `do_printf`. -/
def item : Plain → Item
  | ordinary c h => .ordinary c h
  | percent => .percent
  | conversion verb _ => .conversion (plainConversion verb)

/-- The piece of a format of `vsnprintf`. -/
def piece : Plain → Piece
  | ordinary c _ => .ordinary c
  | percent => .directive 0 (ch '%')
  | conversion verb _ => .directive 0 verb.char

/-- The argument is not a null pointer where a string is asked for. -/
def Given (word : UInt32) : Plain → Prop
  | conversion verb _ => verb = .s → word ≠ 0
  | _ => True

end Plain

/-- The arguments match, from behind `taken` words on. -/
def Matching (args : Nat → UInt32) : List Plain → Nat → Prop
  | [], _ => True
  | plain :: l, taken => plain.Given (args taken) ∧ Matching args l (taken + plain.item.arity)

def plainFormat (l : List Plain) : List UInt8 := formatOf (l.map Plain.item)

section

variable {args : Nat → UInt32} {string : UInt32 → CString} {taken : Nat}

theorem Plain.words_eq (plain : Plain) : plain.piece.words = plain.item.arity := by
  cases plain with
  | ordinary c h => rfl
  | percent => rfl
  | conversion verb h =>
    simp only [List.mem_cons, List.not_mem_nil, or_false] at h
    rcases h with rfl | rfl | rfl | rfl | rfl <;> rfl

theorem plainConversion_text (verb : Verb) (word : UInt32) :
    (plainConversion verb).text string word 0 =
      (plainConversion verb).sign word ++ (plainConversion verb).body string word := by
  unfold Conversion.text field
  rw [Nat.zero_sub]
  rfl

/-- A number prints its sign and its digits. -/
theorem plainConversion_sign {verb : Verb} (hverb : verb ≠ .s) (word : UInt32) :
    (plainConversion verb).sign word = if (plainConversion verb).value word < 0 then [ch '-'] else [] := by
  unfold Conversion.sign
  simp only [show (plainConversion verb).verb = verb from rfl, ne_eq, hverb, not_false_eq_true, true_and]

theorem Plain.text_eq (plain : Plain) (h : plain.Given (args taken)) :
    plain.piece.text args string taken = plain.item.text string (args taken) := by
  have hunsigned : ¬ ((args taken).toNat : Int) < 0 := not_lt.mpr (Int.natCast_nonneg _)
  cases plain with
  | ordinary c h => rfl
  | percent => rfl
  | conversion verb hverb =>
    show _ = (plainConversion verb).text string (args taken) 0
    rw [plainConversion_text]
    simp only [List.mem_cons, List.not_mem_nil, or_false] at hverb
    rcases hverb with rfl | rfl | rfl | rfl | rfl
    · rw [plainConversion_sign (by decide)]
      rfl
    · rw [plainConversion_sign (by decide)]
      rfl
    · rw [plainConversion_sign (by decide), if_neg (show ¬ (plainConversion .u).value (args taken) < 0 from hunsigned)]
      rfl
    · rw [plainConversion_sign (by decide), if_neg (show ¬ (plainConversion .x).value (args taken) < 0 from hunsigned)]
      rfl
    · show (if args taken = 0 then _ else (string (args taken)).bytes) = _
      rw [if_neg (h rfl)]
      rfl

theorem pieces_items (l : List Plain) : pieces none (plainFormat l) = l.map Plain.piece := by
  induction l with
  | nil => rfl
  | cons plain l ih =>
    rw [List.map_cons, ← ih]
    cases plain with
    | ordinary c h => exact if_neg h.2
    | percent => rfl
    | conversion verb h =>
      obtain ⟨-, -, -, -, -, -, -, hl, -⟩ := verb_char verb
      exact if_neg hl

/-- The pieces of a format stand for the text of its items. -/
theorem textOfPieces_items (l : List Plain) (h : Matching args l taken) :
    textOfPieces args string (l.map Plain.piece) taken = textOf string args (l.map Plain.item) taken := by
  induction l generalizing taken with
  | nil => rfl
  | cons plain l ih =>
    rw [List.map_cons, List.map_cons, textOfPieces, textOf, plain.text_eq h.1, plain.words_eq, ih h.2]

theorem fullText_items (string : UInt32 → CString) {format : CString} (l : List Plain) (hformat : format.bytes = plainFormat l)
    (h : Matching args l 0) : fullText args string format = textOf string args (l.map Plain.item) 0 := by
  unfold fullText
  rw [hformat, pieces_items]
  exact textOfPieces_items l h

end

/-- **The two formatters agree.** -/
theorem formatters_agree (l : List Plain) (after : Nat → UInt8) (args : Nat → UInt32) (string : UInt32 → CString)
    (hargs : Matching args l 0) :
    ∃ text, (∃ n, ∀ fuel ≥ n, ∃ s, doPrintf ⟨textAt (plainFormat l) after, args, string⟩ fuel = .ok s ∧ s.out = text) ∧
      ∀ format, (string format).bytes = plainFormat l →
        unlimitedText args string (string format) = some text ∧
        ∀ buff len mem, buff ≠ 0 → format ≠ 0 → text.length < len.toNat →
          ∃ b, vsnprintf args string buff len format mem = some (Int32.ofNat text.length, b) ∧
            (∀ i (h : i < text.length), b.mem (buff + UInt32.ofNat i) = text[i]) ∧
            b.mem (buff + UInt32.ofNat text.length) = 0 := by
  refine ⟨_, formatOf_printed (l.map Plain.item) after args string, fun format hformat => ?_⟩
  have htext := fullText_items string l hformat hargs
  rw [← htext]
  refine ⟨unlimitedText_eq args string (string format), fun buff len mem hbuff hnull hroom => ?_⟩
  have hlen : 1 ≤ len := UInt32.le_iff_toNat_le.mpr (Nat.one_le_of_lt hroom)
  have hmin : min (len.toNat - 1) (fullText args string (string format)).length =
      (fullText args string (string format)).length := by
    omega
  obtain ⟨b, hcall, hstored⟩ := vsnprintf_stored args string mem hbuff hnull hlen (lt_trans hroom len.toNat_lt)
  refine ⟨b, hcall, fun i hi => hstored.chars i hi (by omega), ?_⟩
  have hnul := hstored.nul
  rwa [hmin] at hnul

theorem d_mem : Verb.d ∈ [Verb.d, .i, .u, .x, .s] := by
  decide

theorem s_mem : Verb.s ∈ [Verb.d, .i, .u, .x, .s] := by
  decide

/-- `%d%%%s` -/
def decimalAndString : List Plain := [.conversion .d d_mem, .percent, .conversion .s s_mem]

theorem decimalAndString_noNul : (0 : UInt8) ∉ plainFormat decimalAndString := by
  decide

theorem decimalAndString_short : (plainFormat decimalAndString).length < 4294967296 := by
  decide

/-- The format is the only string. -/
def ownString (_ : UInt32) : CString := ⟨plainFormat decimalAndString, decimalAndString_noNul, decimalAndString_short⟩

/-- The most negative number, and the format itself at that address. -/
theorem formatters_smallest : ∃ text n,
    (∀ fuel ≥ n, ∃ s,
      doPrintf ⟨textAt (plainFormat decimalAndString) fun _ => 0, fun _ => 0x80000000, ownString⟩ fuel = .ok s ∧
        s.out = text) ∧
    unlimitedText (fun _ => 0x80000000) ownString (ownString 4) = some text := by
  obtain ⟨text, ⟨n, hprints⟩, hwrites⟩ := formatters_agree decimalAndString (fun _ => 0) (fun _ => 0x80000000) ownString
    ⟨fun h => (by cases h), trivial, fun _ => by decide, trivial⟩
  exact ⟨text, n, hprints, (hwrites 4 rfl).1⟩

end Desiros.Klibc
