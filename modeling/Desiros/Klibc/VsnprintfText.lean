import Desiros.Klibc.Vsnprintf

/-!
# The text of a format (`vsnprintf` of `klibc.c`)

`pieces` cuts a format into ordinary characters and directives, and `Piece.text` is what each of them stands for. Whatever
`PUTCHAR` does, it gets the characters of these texts one after the other, and no digit is stored behind the end of
`buff_int`: `formatLoop_eq`.
-/

namespace Desiros.Klibc

open Desiros.Library

/-! ## Texts -/

inductive Piece where
  | ordinary (c : UInt8)
  | directive (longs : Nat) (c : UInt8)
deriving DecidableEq, Repr

/-- The pieces of a format that goes on behind a percent sign and so many `l`, or behind a piece. -/
def pieces : Option Nat → List UInt8 → List Piece
  | _, [] => []
  | none, c :: l => if c = ch '%' then pieces (some 0) l else .ordinary c :: pieces none l
  | some longs, c :: l => if c = ch 'l' then pieces (some (longs + 1)) l else .directive longs c :: pieces none l

/-- The numeral of a number. -/
def digitsOf (radix n : Nat) : List UInt8 := numeral radix (fun d => ch ((Conversion.numerals false).getD d '0')) n

def signedText (n : Int) : List UInt8 := (if n < 0 then [ch '-'] else []) ++ digitsOf 10 n.natAbs

/-- The unsigned number that an argument stands for. -/
def unsignedArg (args : Nat → UInt32) (taken longs : Nat) : Nat :=
  if 2 ≤ longs then (longArg args taken).toNat else (args taken).toNat

/-- The signed number that an argument stands for. -/
def signedArg (args : Nat → UInt32) (taken longs : Nat) : Int :=
  if 2 ≤ longs then (longArg args taken).toInt64.toInt else (args taken).toInt32.toInt

namespace Piece

/-- The words that the argument of a piece takes. -/
def words : Piece → Nat
  | ordinary _ => 0
  | directive longs c =>
    if c ∈ ['u', 'i', 'd', 'p', 'x'].map ch then if 2 ≤ longs then 2 else 1
    else if c = ch 'c' ∨ c = ch 's' then 1 else 0

/-- What a piece stands for. -/
def text (args : Nat → UInt32) (string : UInt32 → CString) (taken : Nat) : Piece → List UInt8
  | ordinary c => [c]
  | directive longs c =>
    if c = ch '%' then [ch '%']
    else if c = ch 'u' then digitsOf 10 (unsignedArg args taken longs)
    else if c = ch 'i' ∨ c = ch 'd' then signedText (signedArg args taken longs)
    else if c = ch 'c' then [(args taken).toUInt8]
    else if c = ch 's' then
      if args taken = 0 then ['(', 'n', 'u', 'l', 'l', ')'].map ch else (string (args taken)).bytes
    else if c = ch 'p' then ch '0' :: ch 'x' :: digitsOf 16 (unsignedArg args taken longs)
    else if c = ch 'x' then digitsOf 16 (unsignedArg args taken longs)
    else ch '%' :: (List.replicate (min longs 2) (ch 'l') ++ [c])

end Piece

/-- The texts of pieces, the first of which finds its argument behind `taken` words. -/
def textOfPieces (args : Nat → UInt32) (string : UInt32 → CString) : List Piece → Nat → List UInt8
  | [], _ => []
  | piece :: l, taken => piece.text args string taken ++ textOfPieces args string l (taken + piece.words)

/-- The text that a format and its arguments stand for. -/
def fullText (args : Nat → UInt32) (string : UInt32 → CString) (format : CString) : List UInt8 :=
  textOfPieces args string (pieces none format.bytes) 0

/-! ## Digits -/

theorem decimal_digit : ∀ d < 10, ch '0' + UInt8.ofNat d = ch ((Conversion.numerals false).getD d '0') := by
  decide

theorem digitsOf_length {radix n k : Nat} (hradix : 1 < radix) (hk : 0 < k) (h : n < radix ^ k) :
    (digitsOf radix n).length ≤ k :=
  numeral_length_le hradix hk h

theorem unsignedDigits_eq {room n : Nat} {digits : List UInt8} (h : n < 10 ^ room) (hroom : 0 < room) :
    unsignedDigits room n digits = some (digitsOf 10 n ++ digits) := by
  induction room generalizing n digits with
  | zero => exact absurd hroom (lt_irrefl 0)
  | succ room ih =>
    have hdigit := decimal_digit (n % 10) (Nat.mod_lt n (by decide))
    unfold unsignedDigits digitsOf
    dsimp only
    by_cases hlast : n / 10 = 0
    · have hlt : n < 10 := (Nat.div_eq_zero_iff_lt (by decide)).mp hlast
      rw [if_pos hlast, numeral_of_lt hlt, hdigit, Nat.mod_eq_of_lt hlt]
      rfl
    · have hdiv : n / 10 < 10 ^ room := Nat.div_lt_of_lt_mul (by rwa [← Nat.pow_succ'])
      have hpos : 0 < room := by
        rcases Nat.eq_zero_or_pos room with hzero | hpos
        · rw [hzero, Nat.pow_zero, Nat.lt_one_iff] at hdiv
          exact absurd hdiv hlast
        · exact hpos
      rw [if_neg hlast, ih hdiv hpos, hdigit, numeral_eq (by decide) hlast, List.append_assoc]
      rfl

/-- A digit is the magnitude of a remainder, which goes with the sign. -/
theorem signedDigits_eq (room : Nat) (n : Int) (digits : List UInt8) :
    signedDigits room n digits = unsignedDigits room n.natAbs digits := by
  induction room generalizing n digits with
  | zero => rfl
  | succ room ih =>
    have hdigit : (if n.tmod 10 < 0 then -n.tmod 10 else n.tmod 10).toNat = n.natAbs % 10 := by
      have habs : (n.tmod 10).natAbs = n.natAbs % 10 := Int.natAbs_tmod n 10
      split_ifs <;> omega
    have hquot : (n.tdiv 10).natAbs = n.natAbs / 10 := Int.natAbs_tdiv n 10
    have hlast : n.tdiv 10 = 0 ↔ n.natAbs / 10 = 0 := by
      rw [← hquot, Int.natAbs_eq_zero]
    unfold signedDigits unsignedDigits
    dsimp only
    rw [hdigit, ih, hquot]
    simp only [hlast]

/-! ## Hexadecimal digits -/

theorem hex_digit (nb : UInt64) (h : nb.toNat < 16) :
    (if nb < 10 then ch '0' + nb.toUInt8 else ch 'a' + (nb - 10).toUInt8) =
      ch ((Conversion.numerals false).getD nb.toNat '0') := by
  have hall : ∀ d < 16, (if UInt64.ofNat d < 10 then ch '0' + (UInt64.ofNat d).toUInt8
      else ch 'a' + (UInt64.ofNat d - 10).toUInt8) = ch ((Conversion.numerals false).getD d '0') := by
    decide
  have hd := hall nb.toNat h
  rwa [UInt64.ofNat_toNat] at hd

/-- The digit that a turn of the loop looks at. -/
theorem hex_place (hexa : UInt64) {x : Nat} (hx : x < 16) :
    (((hexa <<< UInt64.ofNat (x * 4)) >>> 60) &&& 0xf).toNat = hexa.toNat / 16 ^ (15 - x) % 16 := by
  have hshift : (UInt64.ofNat (x * 4)).toNat = x * 4 := by
    rw [UInt64.toNat_ofNat']
    omega
  have hfour : ∀ k, 16 ^ k = 2 ^ (4 * k) := fun k => (Nat.pow_mul 2 4 k).symm
  have hword : 2 ^ 64 = 2 ^ (x * 4) * (16 ^ (15 - x) * 16) := by
    rw [hfour, show 16 = 2 ^ 4 from rfl, ← Nat.pow_add, ← Nat.pow_add]
    congr 1
    omega
  have htop : 2 ^ 60 = 2 ^ (x * 4) * 16 ^ (15 - x) := by
    rw [hfour, ← Nat.pow_add]
    congr 1
    omega
  rw [UInt64.toNat_and, UInt64.toNat_shiftRight, UInt64.toNat_shiftLeft, hshift, Nat.mod_eq_of_lt (show x * 4 < 64 by omega),
    show UInt64.toNat 60 % 64 = 60 from rfl, show UInt64.toNat 0xf = 2 ^ 4 - 1 from rfl, Nat.and_two_pow_sub_one_eq_mod,
    Nat.shiftRight_eq_div_pow, Nat.shiftLeft_eq, hword, htop, Nat.mul_comm hexa.toNat, Nat.mul_mod_mul_left,
    Nat.mul_div_mul_left _ _ (Nat.two_pow_pos _), Nat.mod_mul_right_div_self]
  exact Nat.mod_mod _ _

section

variable {σ : Type} {put : σ → UInt8 → σ} {hexa : UInt64} {out : σ}

theorem hexTurn_eq (hexa : UInt64) (t : σ × Bool) {x : Nat} (hx : x < 16) :
    hexTurn put hexa t x =
      if hexa.toNat / 16 ^ (15 - x) % 16 = 0 then (if t.2 then put t.1 (ch '0') else t.1, t.2)
      else (put t.1 (ch ((Conversion.numerals false).getD (hexa.toNat / 16 ^ (15 - x) % 16) '0')), true) := by
  have hplace := hex_place hexa hx
  have hlt : hexa.toNat / 16 ^ (15 - x) % 16 < 16 := Nat.mod_lt _ (by decide)
  unfold hexTurn
  dsimp only
  generalize (hexa <<< UInt64.ofNat (x * 4)) >>> 60 &&& 0xf = nb at hplace ⊢
  rw [← hplace] at hlt ⊢
  have hzero : nb = 0 ↔ nb.toNat = 0 := by
    rw [← UInt64.toNat_inj]
    rfl
  rw [← hex_digit nb hlt]
  simp only [hzero]
  split_ifs <;> rfl

/-- Behind the first digit that is not zero, the loop prints all others. -/
theorem hexLoop_inside {k : Nat} (hk : k ≤ 16) (out : σ) :
    (List.range' (16 - k) k).foldl (hexTurn put hexa) (out, true) =
      ((lastDigits 16 (fun d => ch ((Conversion.numerals false).getD d '0')) k hexa.toNat).foldl put out, true) := by
  induction k generalizing out with
  | zero => rfl
  | succ k ih =>
    rw [List.range'_succ, List.foldl_cons, hexTurn_eq hexa _ (by omega), show 15 - (16 - (k + 1)) = k by omega,
      show 16 - (k + 1) + 1 = 16 - k by omega, lastDigits_succ, List.foldl_cons]
    by_cases hzero : hexa.toNat / 16 ^ k % 16 = 0
    · rw [if_pos hzero, hzero]
      exact ih (by omega) (put out (ch '0'))
    · rw [if_neg hzero]
      exact ih (by omega) _

/-- In front of it, the digits that are left are those of the number. -/
theorem hexLoop_start (put : σ → UInt8 → σ) (out : σ) {k : Nat} (hk : k ≤ 16) (h : hexa.toNat < 16 ^ k) :
    (List.range' (16 - k) k).foldl (hexTurn put hexa) (out, false) =
      if hexa.toNat = 0 then (out, false) else ((digitsOf 16 hexa.toNat).foldl put out, true) := by
  induction k with
  | zero =>
    rw [if_pos (Nat.lt_one_iff.mp h)]
    rfl
  | succ k ih =>
    have hplace : hexa.toNat / 16 ^ k % 16 = hexa.toNat / 16 ^ k :=
      Nat.mod_eq_of_lt (Nat.div_lt_of_lt_mul (by rwa [← Nat.pow_succ]))
    rw [List.range'_succ, List.foldl_cons, hexTurn_eq hexa _ (by omega), show 15 - (16 - (k + 1)) = k by omega,
      show 16 - (k + 1) + 1 = 16 - k by omega]
    by_cases hlow : hexa.toNat < 16 ^ k
    · rw [hplace, if_pos (Nat.div_eq_of_lt hlow)]
      exact ih (by omega) hlow
    · have hpos : 0 < 16 ^ k := Nat.pow_pos (by decide)
      have hnonzero : hexa.toNat / 16 ^ k ≠ 0 := fun hzero => hlow ((Nat.div_eq_zero_iff_lt hpos).mp hzero)
      have hne : hexa.toNat ≠ 0 := by omega
      unfold digitsOf
      rw [hplace, if_neg hnonzero, if_neg hne, hexLoop_inside (by omega),
        numeral_lastDigits (by decide) (not_lt.mp hlow) h, lastDigits_succ, List.foldl_cons, hplace]

/-- **The hexadecimal digits** are those of the number, without zeros in front. -/
theorem hexLoop_eq (hexa : UInt64) (out : σ) :
    (if !((List.range 16).foldl (hexTurn put hexa) (out, false)).2 then
        put ((List.range 16).foldl (hexTurn put hexa) (out, false)).1 (ch '0')
      else ((List.range 16).foldl (hexTurn put hexa) (out, false)).1) = (digitsOf 16 hexa.toNat).foldl put out := by
  have hloop := hexLoop_start put out (le_refl 16) (show hexa.toNat < 16 ^ 16 from hexa.toNat_lt)
  rw [List.range_eq_range']
  rw [show 16 - 16 = 0 from rfl] at hloop
  rw [hloop]
  by_cases hzero : hexa.toNat = 0
  · rw [if_pos hzero, hzero]
    rfl
  · rw [if_neg hzero]
    rfl

/-! ## The scan -/

/-- The flags between two pieces, or behind a percent sign and so many `l`. -/
def InMode : Option Nat → Vsnprintf σ → Prop
  | none, s => s.fmtModifiers = false
  | some longs, s =>
    s.fmtModifiers = true ∧ s.prefixLong = decide (1 ≤ longs) ∧ s.prefixLongLong = decide (2 ≤ longs)

/-- A piece has been printed. -/
structure PutPiece (put : σ → UInt8 → σ) (s : Vsnprintf σ) (text : List UInt8) (words : Nat) (s' : Vsnprintf σ) : Prop where
  mode : s'.fmtModifiers = false
  ap : s'.ap = s.ap + words
  out : s'.out = text.foldl put s.out

variable {args : Nat → UInt32} {string : UInt32 → CString} {s : Vsnprintf σ} {longs : Nat} {c : UInt8}

theorem unsignedCase_eq (hlong : s.prefixLongLong = decide (2 ≤ longs)) :
    ∃ s', unsignedCase put args s = some s' ∧
      PutPiece put s (digitsOf 10 (unsignedArg args s.ap longs)) (if 2 ≤ longs then 2 else 1) s' := by
  unfold unsignedCase unsignedArg
  by_cases h : 2 ≤ longs
  · rw [hlong, decide_eq_true h, if_neg (by decide), if_pos h, if_pos h,
      unsignedDigits_eq (lt_trans (UInt64.toNat_lt _) (by decide)) (by decide)]
    exact ⟨_, rfl, rfl, rfl, by rw [List.append_nil]⟩
  · rw [hlong, decide_eq_false h, if_pos (by decide), if_neg h, if_neg h,
      unsignedDigits_eq (lt_trans (UInt32.toNat_lt _) (by decide)) (by decide)]
    exact ⟨_, rfl, rfl, rfl, by rw [List.append_nil]⟩

theorem foldl_signedText (n : Int) (out : σ) :
    (signedText n).foldl put out = (digitsOf 10 n.natAbs).foldl put (if n < 0 then put out (ch '-') else out) := by
  unfold signedText
  rw [List.foldl_append]
  split_ifs <;> rfl

theorem signedCase_eq (hlong : s.prefixLongLong = decide (2 ≤ longs)) :
    ∃ s', signedCase put args s = some s' ∧
      PutPiece put s (signedText (signedArg args s.ap longs)) (if 2 ≤ longs then 2 else 1) s' := by
  unfold signedCase signedArg
  by_cases h : 2 ≤ longs
  · have habs : (longArg args s.ap).toInt64.toInt.natAbs < 10 ^ 32 := by
      have hlow := (longArg args s.ap).toInt64.le_toInt
      have hhigh := (longArg args s.ap).toInt64.toInt_lt
      omega
    rw [hlong, decide_eq_true h, if_neg (by decide), if_pos h, if_pos h]
    dsimp only
    rw [signedDigits_eq, unsignedDigits_eq habs (by decide)]
    exact ⟨_, rfl, rfl, rfl, by rw [List.append_nil, foldl_signedText]⟩
  · have habs : (args s.ap).toInt32.toInt.natAbs < 10 ^ 16 := by
      have hlow := (args s.ap).toInt32.le_toInt
      have hhigh := (args s.ap).toInt32.toInt_lt
      omega
    rw [hlong, decide_eq_false h, if_pos (by decide), if_neg h, if_neg h]
    dsimp only
    rw [signedDigits_eq, unsignedDigits_eq habs (by decide)]
    exact ⟨_, rfl, rfl, rfl, by rw [List.append_nil, foldl_signedText]⟩

theorem hexCase_eq (put : σ → UInt8 → σ) (args : Nat → UInt32) (s : Vsnprintf σ) (hlong : s.prefixLongLong = decide (2 ≤ longs)) :
    PutPiece put s (digitsOf 16 (unsignedArg args s.ap longs)) (if 2 ≤ longs then 2 else 1) (hexCase put args s) := by
  have hvalue : (if s.prefixLongLong then longArg args s.ap else (args s.ap).toUInt64).toNat =
      unsignedArg args s.ap longs := by
    unfold unsignedArg
    rw [hlong]
    by_cases h : 2 ≤ longs
    · rw [decide_eq_true h, if_pos rfl, if_pos h]
    · rw [decide_eq_false h, if_neg Bool.false_ne_true, if_neg h, UInt32.toNat_toUInt64]
  refine ⟨rfl, ?_, ?_⟩
  · unfold hexCase
    rw [hlong]
    by_cases h : 2 ≤ longs
    · rw [if_pos h, decide_eq_true h]
      rfl
    · rw [if_neg h, decide_eq_false h]
      rfl
  · rw [← hvalue]
    exact hexLoop_eq _ _

theorem defaultCase_eq (hlong : s.prefixLong = decide (1 ≤ longs)) (hlongLong : s.prefixLongLong = decide (2 ≤ longs)) :
    PutPiece put s (ch '%' :: (List.replicate (min longs 2) (ch 'l') ++ [c])) 0 (defaultCase put c s) := by
  refine ⟨rfl, rfl, ?_⟩
  unfold defaultCase
  rw [hlong, hlongLong]
  match longs with
  | 0 => rfl
  | 1 => rfl
  | n + 2 =>
    rw [show min (n + 2) 2 = 2 by omega, decide_eq_true (by omega), decide_eq_true (by omega)]
    rfl

/-- Behind the percent sign every character but `l` ends the directive. -/
theorem formatTurn_directive (hmode : s.fmtModifiers = true) (hc : c ≠ ch 'l') :
    formatTurn put args string s c =
      if c = ch '%' then some { s with
        out := put s.out (ch '%')
        fmtModifiers := false }
      else if c = ch 'u' then unsignedCase put args s
      else if c = ch 'i' ∨ c = ch 'd' then signedCase put args s
      else if c = ch 'c' then some (charCase put args s)
      else if c = ch 's' then some (stringCase put args string s)
      else if c = ch 'p' then some (pointerCase put args s)
      else if c = ch 'x' then some (hexCase put args s)
      else some (defaultCase put c s) := by
  unfold formatTurn
  rw [hmode, Bool.not_true, Bool.false_and, if_neg Bool.false_ne_true, if_neg hc, if_pos rfl]

/-- **A directive** puts the characters of its text. -/
theorem directive_eq (put : σ → UInt8 → σ) (args : Nat → UInt32) (string : UInt32 → CString) (h : InMode (some longs) s) (hc : c ≠ ch 'l') :
    ∃ s', formatTurn put args string s c = some s' ∧
      PutPiece put s ((Piece.directive longs c).text args string s.ap) (Piece.directive longs c).words s' := by
  obtain ⟨hmode, hlong, hlongLong⟩ := h
  rw [formatTurn_directive hmode hc]
  unfold Piece.text
  dsimp only
  split_ifs with hpercent hu hi hchar hs hnull hp hx
  · subst hpercent
    exact ⟨_, rfl, rfl, rfl, rfl⟩
  · subst hu
    exact unsignedCase_eq hlongLong
  · have hwords : (Piece.directive longs c).words = if 2 ≤ longs then 2 else 1 := by
      rcases hi with rfl | rfl <;> rfl
    rw [hwords]
    exact signedCase_eq hlongLong
  · subst hchar
    exact ⟨_, rfl, rfl, rfl, rfl⟩
  · subst hs
    refine ⟨_, rfl, rfl, rfl, ?_⟩
    unfold stringCase
    dsimp only
    rw [if_pos hnull]
  · subst hs
    refine ⟨_, rfl, rfl, rfl, ?_⟩
    unfold stringCase
    dsimp only
    rw [if_neg hnull]
  · subst hp
    have hput := hexCase_eq put args { s with out := put (put s.out (ch '0')) (ch 'x') } hlongLong
    exact ⟨_, rfl, hput.mode, hput.ap, hput.out⟩
  · subst hx
    exact ⟨_, rfl, hexCase_eq put args s hlongLong⟩
  · have hwords : (Piece.directive longs c).words = 0 := by
      unfold Piece.words
      dsimp only
      rw [if_neg, if_neg (not_or.mpr ⟨hchar, hs⟩)]
      simp only [List.map_cons, List.map_nil, List.mem_cons, List.not_mem_nil, or_false, not_or]
      exact ⟨hu, fun he => hi (.inl he), fun he => hi (.inr he), hp, hx⟩
    rw [hwords]
    exact ⟨_, rfl, defaultCase_eq hlong hlongLong⟩

/-- **The scan** puts the characters of the pieces, from between two of them or from inside a directive on. -/
theorem formatTurns_eq (mode : Option Nat) {format : List UInt8} (h : InMode mode s) :
    ∃ s', format.foldlM (formatTurn put args string) s = some s' ∧
      s'.out = (textOfPieces args string (pieces mode format) s.ap).foldl put s.out := by
  induction format generalizing s mode with
  | nil => exact ⟨s, rfl, by cases mode <;> rfl⟩
  | cons c format ih =>
    rw [List.foldlM_cons]
    cases mode with
    | none =>
      have hmode : s.fmtModifiers = false := h
      unfold pieces
      by_cases hc : c = ch '%'
      · have hturn : formatTurn put args string s c = some { s with
            fmtModifiers := true
            prefixLong := false
            prefixLongLong := false } := by
          unfold formatTurn
          rw [hmode, hc, if_neg (by decide), if_pos rfl, if_neg Bool.false_ne_true]
        rw [hturn, if_pos hc]
        exact ih (some 0) (s := { s with
          fmtModifiers := true
          prefixLong := false
          prefixLongLong := false }) ⟨rfl, rfl, rfl⟩
      · have hturn : formatTurn put args string s c = some { s with out := put s.out c } := by
          unfold formatTurn
          rw [if_pos (by rw [hmode, Bool.not_false, Bool.true_and]; exact decide_eq_true hc)]
        obtain ⟨s', hs', hout⟩ := ih none (s := { s with out := put s.out c }) hmode
        rw [hturn, if_neg hc]
        exact ⟨s', hs', hout⟩
    | some longs =>
      obtain ⟨hmode, hlong, hlongLong⟩ := h
      unfold pieces
      by_cases hc : c = ch 'l'
      · have hturn : ∃ t, formatTurn put args string s c = some t ∧ InMode (some (longs + 1)) t ∧ t.ap = s.ap ∧
            t.out = s.out := by
          unfold formatTurn
          rw [hmode, hc, if_neg (by decide), if_neg (by decide), if_pos rfl, hlong]
          by_cases hfirst : 1 ≤ longs
          · rw [decide_eq_true hfirst, if_pos rfl]
            exact ⟨_, rfl, ⟨rfl, (decide_eq_true (by omega)).symm, (decide_eq_true (by omega)).symm⟩, rfl, rfl⟩
          · rw [decide_eq_false hfirst, if_neg Bool.false_ne_true]
            exact ⟨_, rfl, ⟨rfl, (decide_eq_true (by omega)).symm,
              hlongLong.trans ((decide_eq_false (by omega)).trans (decide_eq_false (by omega)).symm)⟩, rfl, rfl⟩
        obtain ⟨t, ht, hinMode, hap, hout⟩ := hturn
        obtain ⟨s', hs', hout'⟩ := ih (some (longs + 1)) hinMode
        rw [ht, if_pos hc]
        exact ⟨s', hs', by rw [hout', hap, hout]⟩
      · obtain ⟨t, ht, hput⟩ := directive_eq put args string ⟨hmode, hlong, hlongLong⟩ hc
        obtain ⟨s', hs', hout⟩ := ih none hput.mode
        rw [ht, if_neg hc]
        refine ⟨s', hs', ?_⟩
        rw [hout, hput.ap, hput.out, textOfPieces, List.foldl_append]

/-- **`PUTCHAR` gets the text**, whatever it does with it. -/
theorem formatLoop_eq (put : σ → UInt8 → σ) (args : Nat → UInt32) (string : UInt32 → CString) (format : CString) (out : σ) :
    ∃ s, formatLoop put args string format out = some s ∧ s.out = (fullText args string format).foldl put out :=
  formatTurns_eq none rfl

theorem unlimitedText_eq (args : Nat → UInt32) (string : UInt32 → CString) (format : CString) :
    unlimitedText args string format = some (fullText args string format) := by
  obtain ⟨s, hs, hout⟩ := formatLoop_eq (fun out c => out ++ [c]) args string format []
  unfold unlimitedText
  rw [hs, Option.bind_eq_bind, Option.bind_some, hout, List.foldl_append_eq_append (f := fun c => [c]), ← List.flatMap_def,
    List.flatMap_singleton', List.nil_append]

end

-- An unknown directive, a percent sign, and a zero.
example : (['%', 'l', 'y', '%', '%', '%', 'x'].map ch).foldlM
    (formatTurn (fun out c => out ++ [c]) (fun _ => 0) noStrings) { out := [] } =
      some {
        prefixLong := false
        ap := 1
        out := ['%', 'l', 'y', '%', '0'].map ch } := by
  rfl

end Desiros.Klibc
