import Desiros.Klibc.Printf

/-!
# What a format prints

`Item` is an element of a well-formed format, and `Item.text` what it stands for. Each item takes the scan from a state
between two items to the next one (`item_printed`), and a format prints the texts of its items one behind the other:
`doPrintf_formats`. The width of a conversion is taken modulo 2^32.
-/

namespace Desiros.Klibc

open Desiros.Library

/-! ## Formats -/

inductive Verb where
  | d
  | i
  | u
  | x
  | X
  | o
  | s
deriving DecidableEq, Repr

inductive Length where
  | none
  | l
  | h
deriving DecidableEq, Repr

/-- `%[-][0][width][l|h]verb` -/
structure Conversion where
  left : Bool
  zero : Bool
  width : List (Fin 10)
  length : Length
  verb : Verb
  /-- A first digit `0` would be the flag. -/
  flag : zero = true ∨ width.head? ≠ some 0

inductive Item where
  | ordinary (c : UInt8) (h : c ≠ 0 ∧ c ≠ ch '%')
  | percent
  | conversion (k : Conversion)

def Verb.char : Verb → UInt8
  | d => ch 'd'
  | i => ch 'i'
  | u => ch 'u'
  | x => ch 'x'
  | X => ch 'X'
  | o => ch 'o'
  | s => ch 's'

def Verb.signed (verb : Verb) : Bool := verb = d || verb = i

def Verb.radix : Verb → Nat
  | x => 16
  | X => 16
  | o => 8
  | _ => 10

def Length.chars : Length → List UInt8
  | none => []
  | l => [ch 'l']
  | h => [ch 'h']

/-- The characters `0` to `9`. -/
def decimalChar (d : Fin 10) : UInt8 := ch '0' + UInt8.ofNat d

/-- The number that decimal digits behind `n` stand for. -/
def decimalFrom (n : Nat) (digits : List (Fin 10)) : Nat := digits.foldl (fun n d => 10 * n + d) n

namespace Conversion

variable (k : Conversion)

def chars : List UInt8 :=
  ch '%' :: ((if k.left then [ch '-'] else []) ++ ((if k.zero then [ch '0'] else []) ++
    (k.width.map decimalChar ++ (k.length.chars ++ [k.verb.char]))))

def widthValue : Nat := decimalFrom 0 k.width

/-- The number that the argument stands for. -/
def value (word : UInt32) : Int :=
  if k.verb.signed then if k.length = .h then word.toUInt16.toInt16.toInt else word.toInt32.toInt
  else if k.length = .h then word.toNat % 65536 else word.toNat

def numerals (upper : Bool) : List Char :=
  ['0', '1', '2', '3', '4', '5', '6', '7', '8', '9'] ++
    if upper then ['A', 'B', 'C', 'D', 'E', 'F'] else ['a', 'b', 'c', 'd', 'e', 'f']

def sign (word : UInt32) : List UInt8 := if k.verb ≠ .s ∧ k.value word < 0 then [ch '-'] else []

/-- The digits of the number, or the string. -/
def body (string : UInt32 → CString) (word : UInt32) : List UInt8 :=
  if k.verb = .s then (string word).bytes
  else numeral k.verb.radix (fun d => ch ((numerals (k.verb = .X)).getD d '0')) (k.value word).natAbs

/-- What a conversion stands for, in a column of some width. -/
def text (string : UInt32 → CString) (word : UInt32) (width : Nat) : List UInt8 :=
  field (ch ' ') (ch '0') k.left (k.zero && k.verb ≠ .s) width (k.sign word) (k.body string word)

theorem text_length (string : UInt32 → CString) (word : UInt32) (width : Nat) :
    (k.text string word width).length = max width ((k.sign word).length + (k.body string word).length) :=
  field_length ..

end Conversion

namespace Item

def chars : Item → List UInt8
  | ordinary c _ => [c]
  | percent => [ch '%', ch '%']
  | conversion k => k.chars

/-- The arguments that an item takes. -/
def arity : Item → Nat
  | conversion _ => 1
  | _ => 0

def text (string : UInt32 → CString) (word : UInt32) : Item → List UInt8
  | ordinary c _ => [c]
  | percent => [ch '%']
  | conversion k => k.text string word (k.widthValue % 4294967296)

end Item

def formatOf (items : List Item) : List UInt8 := items.flatMap Item.chars

/-- The texts of the items, the first of which finds its argument behind `taken` words. -/
def textOf (string : UInt32 → CString) (args : Nat → UInt32) : List Item → Nat → List UInt8
  | [], _ => []
  | item :: items, taken => item.text string (args taken) ++ textOf string args items (taken + item.arity)

/-! ## The scan between two items -/

/-- The format continues with these characters. -/
def Continues (fmt : Nat → UInt8) : Nat → List UInt8 → Prop
  | _, [] => True
  | p, c :: l => fmt p = c ∧ Continues fmt (p + 1) l

theorem Continues.append {fmt : Nat → UInt8} {p : Nat} {l l' : List UInt8} :
    Continues fmt p (l ++ l') ↔ Continues fmt p l ∧ Continues fmt (p + l.length) l' := by
  induction l generalizing p with
  | nil => simp [Continues]
  | cons c l ih =>
    rw [List.cons_append, Continues, Continues, ih, List.length_cons, Nat.add_right_comm, Nat.add_assoc p]
    exact and_assoc.symm

variable {e : Call}

/-- The scan from a state on is the scan from a later one on. -/
def Goes (e : Call) (s t : Printf) : Prop := ∃ n, ∀ fuel, scan e (fuel + n) s = scan e fuel t

theorem Goes.refl (s : Printf) : Goes e s s := ⟨0, fun _ => rfl⟩

theorem Goes.trans {s t u : Printf} (h : Goes e s t) (h' : Goes e t u) : Goes e s u := by
  obtain ⟨n, hn⟩ := h
  obtain ⟨m, hm⟩ := h'
  refine ⟨m + n, fun fuel => ?_⟩
  rw [← Nat.add_assoc, hn, hm]

/-- The rest of a turn, and the scan from there on. -/
def Leads (e : Call) (x : Option Printf) (t : Printf) : Prop := ∃ s, x = some s ∧ Goes e s.next t

theorem Leads.goes {s t : Printf} (h : Leads e (switchState e s) t) (hchar : e.fmt s.fmt ≠ 0) : Goes e s t := by
  obtain ⟨s', hs', n, hn⟩ := h
  refine ⟨n + 1, fun fuel => ?_⟩
  rw [← Nat.add_assoc, scan, if_neg hchar, hs']
  exact hn fuel

theorem Leads.of_eq {x : Option Printf} {s : Printf} (h : x = some s) : Leads e x s.next := ⟨s, h, Goes.refl _⟩

/-- The turn ends here, and the next one begins at its state. -/
theorem Leads.turn {x : Option Printf} {s t : Printf} (hx : x = some s) (hchar : e.fmt s.next.fmt ≠ 0)
    (h : Leads e (switchState e s.next) t) : Leads e x t :=
  ⟨s, hx, h.goes hchar⟩

/-- Between two items. -/
structure Printed (s : Printf) (chars args : Nat) (text : List UInt8) (t : Printf) : Prop where
  fmt : t.fmt = s.fmt + chars
  args : t.args = s.args + args
  out : t.out = s.out ++ text
  state : t.state = 0
  flags : t.flags = {}
  givenWd : t.givenWd = 0

theorem Printed.trans {s t u : Printf} {m n a b : Nat} {l l' : List UInt8} (h : Printed s m a l t)
    (h' : Printed t n b l' u) : Printed s (m + n) (a + b) (l ++ l') u where
  fmt := by rw [h'.fmt, h.fmt, Nat.add_assoc]
  args := by rw [h'.args, h.args, Nat.add_assoc]
  out := by rw [h'.out, h.out, List.append_assoc]
  state := h'.state
  flags := h'.flags
  givenWd := h'.givenWd

/-- A step of the scan that only moves on. -/
theorem Printed.behind {s s' t : Printf} {m n a : Nat} {l : List UInt8} (h : Printed s' m a l t)
    (hfmt : s'.fmt = s.fmt + n) (hargs : s'.args = s.args) (hout : s'.out = s.out) : Printed s (n + m) a l t where
  fmt := by rw [h.fmt, hfmt, Nat.add_assoc]
  args := by rw [h.args, hargs]
  out := by rw [h.out, hout]
  state := h.state
  flags := h.flags
  givenWd := h.givenWd

/-! ## The characters -/

theorem verb_char (verb : Verb) :
    verb.char ≠ 0 ∧ verb.char ≠ ch '%' ∧ verb.char ≠ ch '-' ∧ verb.char ≠ ch '0' ∧
      ¬ (verb.char ≥ ch '0' ∧ verb.char ≤ ch '9') ∧
      verb.char ≠ ch 'F' ∧ verb.char ≠ ch 'N' ∧ verb.char ≠ ch 'l' ∧ verb.char ≠ ch 'h' := by
  cases verb <;> decide

theorem decimal_char : ∀ d : Fin 10,
    decimalChar d ≠ 0 ∧ decimalChar d ≠ ch '%' ∧ decimalChar d ≠ ch '-' ∧ (d ≠ 0 → decimalChar d ≠ ch '0') ∧
      (decimalChar d ≥ ch '0' ∧ decimalChar d ≤ ch '9') ∧ (decimalChar d - ch '0').toUInt32.toNat = d := by
  decide

theorem numerals_char (ca : Bool) :
    ∀ d < 16, ch ((Conversion.numerals ca).getD d '0') = digitChar ca (UInt32.ofNat d) := by
  cases ca <;> decide

/-! ## A conversion -/

section

variable {k : Conversion} {s : Printf}

/-- The flags in front of the verb. -/
def Conversion.flags (k : Conversion) : Flags where
  prLJ := k.left
  prLZ := k.zero
  pr32 := k.length = .l
  pr16 := k.length = .h

theorem argValue_eq (k : Conversion) (ca : Bool) (word : UInt32) :
    argValue { k.flags with
      prSG := k.verb.signed
      prCA := ca } word = k.value word := by
  unfold argValue Conversion.value loadNum Conversion.flags
  dsimp only
  cases hsigned : k.verb.signed <;> cases hlength : k.length <;> simp

theorem numberText_eq (verb : Verb) {radix : UInt32} (hradix : radix.toNat = verb.radix) (ca : Bool) (n : Nat) :
    numberText radix ca n = numeral verb.radix (fun d => ch ((Conversion.numerals ca).getD d '0')) n := by
  have hbounds : 1 < verb.radix ∧ verb.radix ≤ 16 := by
    cases verb <;> decide
  unfold numberText
  rw [hradix]
  exact numeral_congr hbounds.1 (fun d hd => (numerals_char ca d (lt_of_lt_of_le hd hbounds.2)).symm) n

/-- The verbs of numbers. -/
theorem number_printed {radix : UInt32} (hradix : radix.toNat = k.verb.radix)
    (hverb : k.verb ≠ .s)
    (hconvert : convert e s = doNum e { s with
      flags := { k.flags with
        prSG := k.verb.signed
        prCA := k.verb = .X } } radix) :
    ∃ t, Leads e (conversion e s) t ∧ Printed s 1 1 (k.text e.string (e.args s.args) s.givenWd.toNat) t := by
  have hbounds : 8 ≤ k.verb.radix ∧ k.verb.radix ≤ 16 := by
    cases k.verb <;> decide
  obtain ⟨flags, hnum⟩ := doNum_eq e { s with
    flags := { k.flags with
      prSG := k.verb.signed
      prCA := k.verb = .X } } (by rw [hradix]; exact hbounds.1) (by rw [hradix]; exact hbounds.2) rfl
  refine ⟨_, Leads.of_eq (congrArg (Option.map Printf.reset) (hconvert.trans hnum)), rfl, rfl, ?_, rfl, rfl, rfl⟩
  unfold Conversion.text Conversion.sign Conversion.body
  rw [if_neg hverb, ← numberText_eq k.verb hradix, ← argValue_eq k (k.verb = .X), decide_eq_true hverb, Bool.and_true]
  simp only [ne_eq, hverb, not_false_eq_true, true_and]
  rfl

theorem string_printed (hflags : s.flags = k.flags) (hverb : k.verb = .s) (hchar : e.fmt s.fmt = ch 's') :
    ∃ t, Leads e (conversion e s) t ∧ Printed s 1 1 (k.text e.string (e.args s.args) s.givenWd.toNat) t := by
  have hconvert : convert e s = some (Printf.emit { s with
      flags := { s.flags with prLZ := false }
      args := s.args + 1 } (e.string (e.args s.args)).bytes) := by
    unfold convert
    rw [hchar, if_neg (by decide), if_neg (by decide), if_neg (by decide), if_neg (by decide), if_neg (by decide),
      if_neg (by decide), if_pos rfl]
  rw [Printf.emit_eq _ (e.string (e.args s.args)).noNul (by
    dsimp only
    rw [hflags]
    exact (e.string (e.args s.args)).short)] at hconvert
  refine ⟨_, Leads.of_eq (congrArg (Option.map Printf.reset) hconvert), rfl, rfl, ?_, rfl, rfl, rfl⟩
  have hsign : k.sign (e.args s.args) = [] := if_neg fun h => h.1 hverb
  have hbody : k.body e.string (e.args s.args) = (e.string (e.args s.args)).bytes := if_pos hverb
  unfold Conversion.text
  rw [hsign, hbody, decide_eq_false (not_not.mpr hverb), Bool.and_false, hflags]
  rfl

/-- **A verb** prints its field. -/
theorem conversion_printed (hflags : s.flags = k.flags) (hchar : e.fmt s.fmt = k.verb.char) :
    ∃ t, Leads e (conversion e s) t ∧ Printed s 1 1 (k.text e.string (e.args s.args) s.givenWd.toNat) t := by
  have hself : { s with flags := k.flags } = s := by
    rw [← hflags]
  cases hverb : k.verb with
  | s => exact string_printed hflags hverb (by rw [hchar, hverb]; rfl)
  | d | i =>
    refine number_printed (show (10 : UInt32).toNat = _ by rw [hverb]; rfl) (by rw [hverb]; decide) ?_
    rw [hverb] at hchar ⊢
    unfold convert
    rw [hchar, if_neg (by decide), if_neg (by decide), if_pos (by decide), hflags]
    rfl
  | u =>
    refine number_printed (show (10 : UInt32).toNat = _ by rw [hverb]; rfl) (by rw [hverb]; decide) ?_
    rw [hverb] at hchar ⊢
    unfold convert
    rw [hchar, if_neg (by decide), if_neg (by decide), if_neg (by decide), if_pos (by decide)]
    exact congrArg (fun t => doNum e t 10) hself.symm
  | x =>
    refine number_printed (show (16 : UInt32).toNat = _ by rw [hverb]; rfl) (by rw [hverb]; decide) ?_
    rw [hverb] at hchar ⊢
    unfold convert
    rw [hchar, if_neg (by decide), if_pos (by decide)]
    exact congrArg (fun t => doNum e t 16) hself.symm
  | X =>
    refine number_printed (show (16 : UInt32).toNat = _ by rw [hverb]; rfl) (by rw [hverb]; decide) ?_
    rw [hverb] at hchar ⊢
    unfold convert
    rw [hchar, if_pos (by decide), hflags]
    rfl
  | o =>
    refine number_printed (show (8 : UInt32).toNat = _ by rw [hverb]; rfl) (by rw [hverb]; decide) ?_
    rw [hverb] at hchar ⊢
    unfold convert
    rw [hchar, if_neg (by decide), if_neg (by decide), if_neg (by decide), if_neg (by decide), if_pos (by decide)]
    exact congrArg (fun t => doNum e t 8) hself.symm

/-- **The modifier and the verb.** -/
theorem modifiers_printed (hstate : s.state = 3)
    (hflags : s.flags =
      { prLJ := k.left
        prLZ := k.zero })
    (hchars : Continues e.fmt s.fmt (k.length.chars ++ [k.verb.char])) :
    ∃ t, Leads e (modifiers e s) t ∧
      Printed s (k.length.chars.length + 1) 1 (k.text e.string (e.args s.args) s.givenWd.toNat) t := by
  obtain ⟨hnul, -, -, -, -, hF, hN, hl, hh⟩ := verb_char k.verb
  have hverb : ∀ s : Printf, e.fmt s.fmt = k.verb.char →
      modifiers e s = conversion e { s with state := s.state + 1 } := by
    intro s hchar
    unfold modifiers
    rw [hchar, if_neg hF, if_neg hN, if_neg hl, if_neg hh]
  -- A modifier is a turn of its own.
  have hturn : ∀ flags : Flags, flags = k.flags → Continues e.fmt (s.fmt + 1) [k.verb.char] →
      modifiers e s = some { s with flags := flags } → ∃ t, Leads e (modifiers e s) t ∧
        Printed s 2 1 (k.text e.string (e.args s.args) s.givenWd.toNat) t := by
    intro flags hflags hchar hmodifier
    obtain ⟨t, hleads, hprinted⟩ := conversion_printed (k := k)
      (s := { Printf.next { s with flags := flags } with state := s.state + 1 }) hflags hchar.1
    refine ⟨t, Leads.turn hmodifier (hchar.1 ▸ hnul) ?_, hprinted.behind rfl rfl rfl⟩
    rw [switchState_modifiers e (show (Printf.next { s with flags := flags }).state = 3 from hstate)]
    rw [hverb (Printf.next { s with flags := flags }) hchar.1]
    exact hleads
  cases hlength : k.length with
  | none =>
    rw [hlength] at hchars
    rw [hverb s hchars.1]
    obtain ⟨t, hleads, hprinted⟩ := conversion_printed (s := { s with state := s.state + 1 }) (k := k)
      (by rw [Conversion.flags, hlength]; exact hflags) hchars.1
    exact ⟨t, hleads, hprinted.fmt, hprinted.args, hprinted.out, hprinted.state, hprinted.flags, hprinted.givenWd⟩
  | l =>
    rw [hlength] at hchars
    refine hturn { s.flags with pr32 := true } (by rw [Conversion.flags, hlength, hflags]; rfl) hchars.2 ?_
    unfold modifiers
    rw [show e.fmt s.fmt = ch 'l' from hchars.1, if_neg (by decide), if_neg (by decide), if_pos rfl]
  | h =>
    rw [hlength] at hchars
    refine hturn { s.flags with pr16 := true } (by rw [Conversion.flags, hlength, hflags]; rfl) hchars.2 ?_
    unfold modifiers
    rw [show e.fmt s.fmt = ch 'h' from hchars.1, if_neg (by decide), if_neg (by decide), if_neg (by decide), if_pos rfl]

/-- The first character behind the flags. -/
theorem first_char (k : Conversion) (digits : List (Fin 10)) {fmt : Nat → UInt8} {p : Nat}
    (h : Continues fmt p (digits.map decimalChar ++ (k.length.chars ++ [k.verb.char]))) :
    fmt p ≠ 0 ∧ fmt p ≠ ch '%' ∧ fmt p ≠ ch '-' ∧ (digits.head? ≠ some 0 → fmt p ≠ ch '0') ∧
      (digits = [] → ¬ (fmt p ≥ ch '0' ∧ fmt p ≤ ch '9')) := by
  cases digits with
  | cons d digits =>
    obtain ⟨hnul, hpercent, hminus, hzero, -, -⟩ := decimal_char d
    rw [show fmt p = decimalChar d from h.1]
    exact ⟨hnul, hpercent, hminus, fun hd => hzero fun hd' => hd (by rw [hd']; rfl), fun hnil => by cases hnil⟩
  | nil =>
    cases hlength : k.length with
    | none =>
      rw [hlength] at h
      obtain ⟨hnul, hpercent, hminus, hzero, hdigit, -⟩ := verb_char k.verb
      rw [show fmt p = k.verb.char from h.1]
      exact ⟨hnul, hpercent, hminus, fun _ => hzero, fun _ => hdigit⟩
    | l | h =>
      rw [hlength] at h
      rw [h.1]
      decide

/-- **The width**, the modifier and the verb. -/
theorem width_printed (hflags : s.flags =
      { prLJ := k.left
        prLZ := k.zero }) {digits : List (Fin 10)} (hstate : s.state = 2)
    (hchars : Continues e.fmt s.fmt (digits.map decimalChar ++ (k.length.chars ++ [k.verb.char]))) {n : Nat}
    (hwidth : s.givenWd.toNat = n % 4294967296) :
    ∃ t, Leads e (width e s) t ∧
      Printed s (digits.length + (k.length.chars.length + 1)) 1
        (k.text e.string (e.args s.args) (decimalFrom n digits % 4294967296)) t := by
  induction digits generalizing s n with
  | nil =>
    have hleave : width e s = modifiers e { s with state := s.state + 1 } := by
      unfold width
      exact if_neg ((first_char k [] hchars).2.2.2.2 rfl)
    obtain ⟨t, hleads, hprinted⟩ := modifiers_printed (k := k) (s := { s with state := s.state + 1 })
      (by dsimp only; rw [hstate]) hflags hchars
    rw [hleave]
    exact ⟨t, hleads, hwidth ▸ hprinted.behind rfl rfl rfl⟩
  | cons d digits ih =>
    obtain ⟨hchar, hrest⟩ := hchars
    obtain ⟨-, -, -, -, hdigit, hvalue⟩ := decimal_char d
    have hgiven : (10 * s.givenWd + (decimalChar d - ch '0').toUInt32).toNat = (10 * n + d) % 4294967296 := by
      rw [UInt32.toNat_add, UInt32.toNat_mul, hvalue, hwidth, show (10 : UInt32).toNat = 10 from rfl]
      omega
    obtain ⟨t, hleads, hprinted⟩ := ih (s := (s.setWd (10 * s.givenWd + (decimalChar d - ch '0').toUInt32)).next)
      hflags hstate hrest hgiven
    refine ⟨t, Leads.turn (s := s.setWd (10 * s.givenWd + (decimalChar d - ch '0').toUInt32)) ?_
      (first_char k digits hrest).1 ?_, ?_⟩
    · unfold width
      rw [hchar, if_pos hdigit]
      rfl
    · rw [switchState_width e (s := (s.setWd (10 * s.givenWd + (decimalChar d - ch '0').toUInt32)).next) hstate]
      exact hleads
    · have hbehind := hprinted.behind (s := s) (n := 1) rfl rfl rfl
      rw [List.length_cons, Nat.add_comm digits.length, Nat.add_assoc]
      exact hbehind

/-- **Behind the percent sign and `-`.** -/
theorem afterPercent_printed (hstate : s.state = 1) (hflags : s.flags = { prLJ := k.left }) (hwidth : s.givenWd = 0)
    (hchars : Continues e.fmt s.fmt ((if k.zero then [ch '0'] else []) ++
      (k.width.map decimalChar ++ (k.length.chars ++ [k.verb.char])))) :
    ∃ t, Leads e (afterPercent e s) t ∧
      Printed s ((if k.zero then 1 else 0) + (k.width.length + (k.length.chars.length + 1))) 1
        (k.text e.string (e.args s.args) (k.widthValue % 4294967296)) t := by
  cases hzero : k.zero with
  | true =>
    rw [hzero] at hchars
    obtain ⟨t, hleads, hprinted⟩ := width_printed (k := k) (n := 0)
      (s := { Printf.next { s with state := s.state + 1 } with flags := { s.flags with prLZ := true } })
      (by dsimp only; rw [hflags, hzero]) (by dsimp only [Printf.next]; rw [hstate]) hchars.2
      (by dsimp only [Printf.next]; rw [hwidth]; rfl)
    refine ⟨t, ?_, hprinted.behind rfl rfl rfl⟩
    unfold afterPercent
    rw [show e.fmt s.fmt = ch '0' from hchars.1, if_neg (by decide), if_neg (by decide), if_pos rfl]
    exact hleads
  | false =>
    rw [hzero] at hchars
    obtain ⟨-, hpercent, hminus, hflag, -⟩ := first_char k k.width hchars
    obtain ⟨t, hleads, hprinted⟩ := width_printed (k := k) (n := 0) (s := { s with state := s.state + 1 })
      (by dsimp only; rw [hflags, hzero]) (by dsimp only; rw [hstate]) hchars (by dsimp only; rw [hwidth]; rfl)
    refine ⟨t, ?_, hprinted.behind (n := 0) rfl rfl rfl⟩
    unfold afterPercent
    rw [if_neg hpercent, if_neg hminus, if_neg (hflag (k.flag.resolve_left (by rw [hzero]; decide)))]
    exact hleads

end

/-! ## Items -/

section

variable {s : Printf}

theorem chars_length (k : Conversion) :
    k.chars.length = 1 + ((if k.left then 1 else 0) +
      ((if k.zero then 1 else 0) + (k.width.length + (k.length.chars.length + 1)))) := by
  unfold Conversion.chars
  rw [List.length_cons, List.length_append, List.length_append, List.length_append, List.length_append, List.length_map,
    List.length_singleton, Nat.add_comm 1]
  cases k.left <;> cases k.zero <;> rfl

/-- The character behind a percent sign or `-`. -/
theorem flag_char (k : Conversion) {fmt : Nat → UInt8} {p : Nat}
    (h : Continues fmt p ((if k.zero then [ch '0'] else []) ++
      (k.width.map decimalChar ++ (k.length.chars ++ [k.verb.char])))) : fmt p ≠ 0 := by
  cases hzero : k.zero with
  | true =>
    rw [hzero] at h
    rw [h.1]
    decide
  | false =>
    rw [hzero] at h
    exact (first_char k k.width h).1

theorem conversion_goes (k : Conversion) (hstate : s.state = 0) (hflags : s.flags = {}) (hwidth : s.givenWd = 0)
    (hchars : Continues e.fmt s.fmt k.chars) :
    ∃ t, Goes e s t ∧
      Printed s k.chars.length 1 (k.text e.string (e.args s.args) (k.widthValue % 4294967296)) t := by
  obtain ⟨hpercent, hrest⟩ := hchars
  have hfirst : switchState e s = afterPercent e (Printf.next { s with state := s.state + 1 }) := by
    rw [switchState_ordinary e hstate, ordinary_percent e hpercent]
  have hnul : e.fmt s.fmt ≠ 0 := by
    rw [hpercent]
    decide
  rw [chars_length]
  cases hleft : k.left with
  | false =>
    rw [hleft] at hrest
    obtain ⟨t, hleads, hprinted⟩ := afterPercent_printed (k := k) (s := Printf.next { s with state := s.state + 1 })
      (by dsimp only [Printf.next]; rw [hstate]) (by dsimp only [Printf.next]; rw [hflags, hleft]) hwidth hrest
    refine ⟨t, Leads.goes (hfirst ▸ hleads) hnul, ?_⟩
    rw [if_neg Bool.false_ne_true, Nat.zero_add]
    exact hprinted.behind rfl rfl rfl
  | true =>
    rw [hleft] at hrest
    obtain ⟨hminus, hrest⟩ := hrest
    obtain ⟨t, hleads, hprinted⟩ := afterPercent_printed (k := k)
      (s := Printf.next { Printf.next { s with state := s.state + 1 } with flags := { s.flags with prLJ := true } })
      (by dsimp only [Printf.next]; rw [hstate]) (by dsimp only [Printf.next]; rw [hflags, hleft]) hwidth hrest
    have hturn : switchState e s =
        some { Printf.next { s with state := s.state + 1 } with flags := { s.flags with prLJ := true } } := by
      rw [hfirst]
      unfold afterPercent
      rw [show e.fmt (Printf.next { s with state := s.state + 1 }).fmt = ch '-' from hminus, if_neg (by decide),
        if_pos rfl, if_neg (by dsimp only [Printf.next]; rw [hflags]; decide)]
      rfl
    refine ⟨t, Leads.goes (Leads.turn hturn (flag_char k hrest) ?_) hnul, ?_⟩
    · rw [switchState_afterPercent e (congrArg (· + 1) hstate)]
      exact hleads
    · rw [if_pos rfl, ← Nat.add_assoc 1 1]
      exact hprinted.behind rfl rfl rfl

/-- **An item prints its text.** -/
theorem item_printed (item : Item) (hstate : s.state = 0) (hflags : s.flags = {}) (hwidth : s.givenWd = 0)
    (hchars : Continues e.fmt s.fmt item.chars) :
    ∃ t, Goes e s t ∧ Printed s item.chars.length item.arity (item.text e.string (e.args s.args)) t := by
  cases item with
  | conversion k => exact conversion_goes k hstate hflags hwidth hchars
  | ordinary c h =>
    have hchar : e.fmt s.fmt = c := hchars.1
    refine ⟨_, Leads.goes (Leads.of_eq (s := { s.fn c with count := if c = ch '\n' then 0 else (s.fn c).count }) ?_)
      (hchar ▸ h.1), rfl, rfl, rfl, hstate, hflags, hwidth⟩
    rw [switchState_ordinary e hstate]
    unfold ordinary
    rw [hchar]
    exact if_pos h.2
  | percent =>
    obtain ⟨hpercent, hsecond, -⟩ := hchars
    refine ⟨_, Leads.goes (Leads.of_eq
      (s := ((Printf.next { s with state := s.state + 1 }).fn (ch '%')).reset) ?_)
      (by rw [hpercent]; decide), rfl, rfl, rfl, rfl, rfl, rfl⟩
    rw [switchState_ordinary e hstate, ordinary_percent e hpercent]
    unfold afterPercent
    rw [show e.fmt (Printf.next { s with state := s.state + 1 }).fmt = ch '%' from hsecond, if_pos rfl]

theorem items_printed (items : List Item) (hstate : s.state = 0) (hflags : s.flags = {}) (hwidth : s.givenWd = 0)
    (hchars : Continues e.fmt s.fmt (formatOf items)) :
    ∃ t, Goes e s t ∧ t.fmt = s.fmt + (formatOf items).length ∧ t.out = s.out ++ textOf e.string e.args items s.args := by
  induction items generalizing s with
  | nil => exact ⟨s, Goes.refl s, rfl, (List.append_nil _).symm⟩
  | cons item items ih =>
    obtain ⟨hitem, hitems⟩ := Continues.append.mp hchars
    obtain ⟨t, hgoes, ht⟩ := item_printed item hstate hflags hwidth hitem
    obtain ⟨u, hgoes', hfmt, hout⟩ := ih ht.state ht.flags ht.givenWd (by rw [ht.fmt]; exact hitems)
    refine ⟨u, hgoes.trans hgoes', ?_, ?_⟩
    · rw [hfmt, ht.fmt, Nat.add_assoc, ← List.length_append]
      rfl
    · rw [hout, ht.out, ht.args, List.append_assoc]
      rfl

end

theorem continues_textAt (text : List UInt8) (after : Nat → UInt8) : Continues (textAt text after) 0 text := by
  have hcontinues : ∀ (front back : List UInt8), front ++ back = text →
      Continues (textAt text after) front.length back := by
    intro front back
    induction back generalizing front with
    | nil => exact fun _ => trivial
    | cons c back ih =>
      intro h
      constructor
      · subst h
        rw [textAt_of_lt (by rw [List.length_append, List.length_cons]; omega), List.getElem_append_right (le_refl _)]
        simp only [Nat.sub_self, List.getElem_cons_zero]
      · have hnext := ih (front ++ [c]) (by rw [List.append_assoc]; exact h)
        rw [List.length_append, List.length_singleton] at hnext
        exact hnext
  exact hcontinues [] text rfl

theorem formatOf_printed (items : List Item) (after : Nat → UInt8) (args : Nat → UInt32) (string : UInt32 → CString) :
    ∃ n, ∀ fuel ≥ n, ∃ s, doPrintf ⟨textAt (formatOf items) after, args, string⟩ fuel = .ok s ∧
      s.out = textOf string args items 0 := by
  obtain ⟨t, ⟨n, hn⟩, hfmt, hout⟩ := items_printed (e := ⟨textAt (formatOf items) after, args, string⟩) (s := {}) items
    rfl rfl rfl (continues_textAt _ after)
  refine ⟨n + 1, fun fuel hfuel => ⟨t, ?_, hout⟩⟩
  obtain ⟨more, rfl⟩ := Nat.exists_eq_add_of_le hfuel
  have hnul : textAt (formatOf items) after t.fmt = 0 := by
    rw [hfmt, Nat.zero_add, textAt_length]
  rw [doPrintf, show n + 1 + more = more + 1 + n by omega, hn, scan]
  exact if_pos hnul

/-- **A format prints the texts of its items.** -/
theorem doPrintf_formats (items : List Item) (after : Nat → UInt8) (args : Nat → UInt32) (string : UInt32 → CString) :
    ∃ n, ∀ fuel ≥ n, ∃ s, doPrintf ⟨textAt (formatOf items) after, args, string⟩ fuel = .ok s ∧
      s.out = textOf string args items 0 :=
  formatOf_printed items after args string

-- `%05d|%-4x` with -7 and 255.
example : (doPrintf ⟨textAt (['%', '0', '5', 'd', '|', '%', '-', '4', 'x'].map ch) fun _ => 0,
    fun i => if i = 0 then 0xFFFFFFF9 else 255, noStrings⟩ 20).map Printf.out =
      .ok (['-', '0', '0', '0', '7', '|', 'f', 'f', ' ', ' '].map ch) := by
  decide +kernel

theorem wide_flag : false = true ∨ [(4 : Fin 10), 2, 9, 4, 9, 6, 7, 2, 9, 7].head? ≠ some 0 := by
  decide

/-- `%4294967297d` -/
def wideDecimal : Conversion where
  left := false
  zero := false
  width := [4, 2, 9, 4, 9, 6, 7, 2, 9, 7]
  length := .none
  verb := .d
  flag := wide_flag

/-- The width wraps around: one character is printed. -/
theorem doPrintf_width_wraps :
    ∃ s, doPrintf ⟨textAt (formatOf [.conversion wideDecimal]) fun _ => 0, fun _ => 7, noStrings⟩ 20 = .ok s ∧
      s.out = [ch '7'] ∧
      s.out.length ≠
        max wideDecimal.widthValue ((wideDecimal.sign 7).length + (wideDecimal.body noStrings 7).length) := by
  refine ⟨_, rfl, rfl, ?_⟩
  decide +kernel

end Desiros.Klibc
