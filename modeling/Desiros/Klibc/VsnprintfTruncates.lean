import Desiros.Klibc.VsnprintfText

/-!
# Truncation (`vsnprintf` of `klibc.c`)

`PUTCHAR` stores the characters in front of the last place of the buffer and counts all of them (`Filled`). The count has
32 bits and is returned as an `int`: a text of 2^31 characters or more has a negative length or a wrong one, and behind
2^32 characters `PUTCHAR` stores again, outside of the buffer. `vsnprintf_truncates_iff` says when all is right.
-/

namespace Desiros.Klibc

open Desiros.Library

/-- The memory with a text at `p`. -/
def withText (mem : UInt32 → UInt8) (p : UInt32) (text : List UInt8) (a : UInt32) : UInt8 :=
  (text[(a - p).toNat]?).getD (mem a)

/-- What `PUTCHAR` has done with a text. -/
structure Filled (len : UInt32) (mem : UInt32 → UInt8) (p : UInt32) (text : List UInt8) (b : Buffer) : Prop where
  mem : b.mem = withText mem p (text.take (len.toNat - 1))
  buff : b.buff = p + UInt32.ofNat (min (len.toNat - 1) text.length)
  result : b.result = UInt32.ofNat text.length
  writes : b.writes = ((List.range (min (len.toNat - 1) text.length)).map fun i => p + UInt32.ofNat i).reverse

section

variable {mem : UInt32 → UInt8} {p a len : UInt32} {text : List UInt8} {c : UInt8} {b : Buffer} {i n : Nat}

theorem eq_add_ofNat (h : n < 4294967296) : a = p + UInt32.ofNat n ↔ (a - p).toNat = n := by
  have hn : (UInt32.ofNat n).toNat = n := by
    rw [UInt32.toNat_ofNat']
    omega
  rw [UInt32.toNat_sub, ← UInt32.toNat_inj, UInt32.toNat_add, hn]
  have ha := a.toNat_lt
  have hp := p.toNat_lt
  omega

theorem withText_append (h : text.length < 4294967296) :
    withText mem p (text ++ [c]) = Function.update (withText mem p text) (p + UInt32.ofNat text.length) c := by
  funext a
  unfold withText
  by_cases ha : a = p + UInt32.ofNat text.length
  · rw [ha, Function.update_self, (eq_add_ofNat h).mp rfl, List.getElem?_concat_length]
    rfl
  · have hne : (a - p).toNat ≠ text.length := fun he => ha ((eq_add_ofNat h).mpr he)
    rw [Function.update_of_ne ha]
    rcases Nat.lt_or_ge (a - p).toNat text.length with hlt | hge
    · rw [List.getElem?_append_left hlt]
    · rw [List.getElem?_eq_none (by rw [List.length_append, List.length_singleton]; omega), List.getElem?_eq_none hge]

/-- A character is stored if and only if there is a place for it in front of the last one. -/
theorem Filled.putchar_eq (hlen : 1 ≤ len) (h : Filled len mem p text b) (hshort : text.length < 4294967296) :
    b.putchar len c =
      if text.length < len.toNat - 1 then { (b.store c) with
        buff := b.buff + 1
        result := b.result + 1 }
      else { b with result := b.result + 1 } := by
  have hlast : (len - 1).toNat = len.toNat - 1 := UInt32.toNat_sub_of_le _ _ hlen
  have hroom : b.result < len - 1 ↔ text.length < len.toNat - 1 := by
    rw [h.result, UInt32.lt_iff_toNat_lt, hlast, UInt32.toNat_ofNat', Nat.mod_eq_of_lt hshort]
  unfold Buffer.putchar
  simp only [hroom]
  split_ifs <;> rfl

/-- A character that is stored. -/
theorem Filled.store (hlen : 1 ≤ len) (h : Filled len mem p text b) (hshort : text.length < 4294967296)
    (hroom : text.length < len.toNat - 1) : Filled len mem p (text ++ [c]) (b.putchar len c) := by
  have hmin : min (len.toNat - 1) text.length = text.length := by omega
  have hmin' : min (len.toNat - 1) (text ++ [c]).length = text.length + 1 := by
    rw [List.length_append, List.length_singleton]
    omega
  have hbuff := h.buff
  have hmem := h.mem
  rw [hmin] at hbuff
  rw [List.take_of_length_le (by omega)] at hmem
  rw [h.putchar_eq hlen hshort, if_pos hroom]
  refine ⟨?_, ?_, ?_, ?_⟩
  · rw [List.take_of_length_le (by rw [List.length_append, List.length_singleton]; omega), withText_append hshort, ← hmem,
      ← hbuff]
    rfl
  · rw [hmin', UInt32.ofNat_add, ← UInt32.add_assoc, ← hbuff]
    rfl
  · rw [List.length_append, List.length_singleton, UInt32.ofNat_add, ← h.result]
    rfl
  · have hwrites := h.writes
    rw [hmin] at hwrites
    rw [hmin', List.range_succ, List.map_append, List.reverse_append, ← hwrites, List.map_singleton, ← hbuff]
    rfl

/-- A character that is only counted. -/
theorem Filled.count (hlen : 1 ≤ len) (h : Filled len mem p text b) (hshort : text.length < 4294967296)
    (hfull : len.toNat - 1 ≤ text.length) : Filled len mem p (text ++ [c]) (b.putchar len c) := by
  have hmin : min (len.toNat - 1) (text ++ [c]).length = min (len.toNat - 1) text.length := by
    rw [List.length_append, List.length_singleton]
    omega
  rw [h.putchar_eq hlen hshort, if_neg (not_lt.mpr hfull)]
  refine ⟨?_, ?_, ?_, ?_⟩
  · rw [List.take_append_of_le_length hfull]
    exact h.mem
  · rw [hmin]
    exact h.buff
  · rw [List.length_append, List.length_singleton, UInt32.ofNat_add, ← h.result]
    rfl
  · rw [hmin]
    exact h.writes

/-- **What the buffer holds** behind up to 2^32 characters. -/
theorem foldl_putchar (mem : UInt32 → UInt8) (p : UInt32) (text : List UInt8) (hlen : 1 ≤ len) (h : text.length ≤ 4294967296) :
    Filled len mem p text (text.foldl (Buffer.putchar len)
      { mem := mem
        buff := p }) := by
  induction text using List.reverseRecOn with
  | nil =>
    refine ⟨?_, ?_, rfl, ?_⟩
    · rw [List.take_nil]
      rfl
    · rw [List.length_nil, Nat.min_zero]
      exact (UInt32.add_zero p).symm
    · rw [List.length_nil, Nat.min_zero]
      rfl
  | append_singleton text c ih =>
    rw [List.length_append, List.length_singleton] at h
    rw [List.foldl_concat]
    rcases Nat.lt_or_ge text.length (len.toNat - 1) with hroom | hfull
    · exact (ih (by omega)).store hlen (by omega) hroom
    · exact (ih (by omega)).count hlen (by omega) hfull

end

/-! ## The call -/

/-- The first characters of the text stand in the buffer, a NUL behind them, and nothing else is written. -/
structure Stored (buff len : UInt32) (text : List UInt8) (mem : UInt32 → UInt8) (b : Buffer) : Prop where
  chars : ∀ i (h : i < text.length), i < len.toNat - 1 → b.mem (buff + UInt32.ofNat i) = text[i]
  nul : b.mem (buff + UInt32.ofNat (min (len.toNat - 1) text.length)) = 0
  writes : b.writes.length ≤ len.toNat ∧ ∀ a ∈ b.writes, ∃ i < len.toNat, a = buff + UInt32.ofNat i
  others : ∀ a, (∀ i < len.toNat, a ≠ buff + UInt32.ofNat i) → b.mem a = mem a

/-- The string at an address, up to its NUL. -/
structure StringAt (mem : UInt32 → UInt8) (p : UInt32) (s : List UInt8) : Prop where
  chars : ∀ i (h : i < s.length), mem (p + UInt32.ofNat i) = s[i]
  nul : mem (p + UInt32.ofNat s.length) = 0

/-- The length of the whole text is returned. -/
structure Truncates (buff len : UInt32) (text : List UInt8) (mem : UInt32 → UInt8) (ret : Int32) (b : Buffer) : Prop
    extends Stored buff len text mem b where
  ret : ret.toInt = text.length

section

variable {args : Nat → UInt32} {string : UInt32 → CString} {buff len format : UInt32} {mem : UInt32 → UInt8}
  {text : List UInt8} {b : Buffer}

/-- The call stores a NUL behind what `PUTCHAR` has stored. -/
theorem vsnprintf_eq (args : Nat → UInt32) (string : UInt32 → CString) (hbuff : buff ≠ 0) (hformat : format ≠ 0)
    (hlen : 1 ≤ len) (mem : UInt32 → UInt8) :
    ∃ b, vsnprintf args string buff len format mem = some (b.result.toInt32, b.store 0) ∧
      b = (fullText args string (string format)).foldl (Buffer.putchar len)
        { mem := mem
          buff := buff } := by
  obtain ⟨s, hs, hout⟩ := formatLoop_eq (Buffer.putchar len) args string (string format)
    { mem := mem
      buff := buff }
  have hpos : ¬ len ≤ 0 := fun h => absurd (UInt32.le_trans hlen h) (by decide)
  refine ⟨s.out, ?_, hout⟩
  unfold vsnprintf
  dsimp only
  rw [if_neg (not_or.mpr ⟨hbuff, not_or.mpr ⟨hformat, hpos⟩⟩), hs]
  rfl

theorem Filled.stored (hlen : 1 ≤ len) (h : Filled len mem buff text b) : Stored buff len text mem (b.store 0) := by
  have hlenPos : 1 ≤ len.toNat := UInt32.le_iff_toNat_le.mp hlen
  have hlenLt := len.toNat_lt
  have hlast : min (len.toNat - 1) text.length < len.toNat := by omega
  have hmem : (b.store 0).mem =
      Function.update (withText mem buff (text.take (len.toNat - 1)))
        (buff + UInt32.ofNat (min (len.toNat - 1) text.length)) 0 := by
    rw [← h.mem, ← h.buff]
    rfl
  have hwrites : (b.store 0).writes = (buff + UInt32.ofNat (min (len.toNat - 1) text.length)) :: b.writes := by
    rw [← h.buff]
    rfl
  refine ⟨fun i hi hilen => ?_, ?_, ⟨?_, fun a ha => ?_⟩, fun a ha => ?_⟩
  · have hoffset : (buff + UInt32.ofNat i - buff).toNat = i := (eq_add_ofNat (by omega)).mp rfl
    have hne : buff + UInt32.ofNat i ≠ buff + UInt32.ofNat (min (len.toNat - 1) text.length) := by
      intro he
      have hi' := (eq_add_ofNat (by omega)).mp he
      omega
    rw [hmem, Function.update_of_ne hne, withText, hoffset, List.getElem?_take_of_lt hilen, List.getElem?_eq_getElem hi]
    rfl
  · rw [hmem, Function.update_self]
  · rw [hwrites, h.writes, List.length_cons, List.length_reverse, List.length_map, List.length_range]
    omega
  · rw [hwrites, h.writes] at ha
    cases List.mem_cons.mp ha with
    | inl he => exact ⟨_, hlast, he⟩
    | inr hin =>
      obtain ⟨i, hi, rfl⟩ := List.mem_map.mp (List.mem_reverse.mp hin)
      exact ⟨i, lt_trans (List.mem_range.mp hi) hlast, rfl⟩
  · have hout : (text.take (len.toNat - 1)).length ≤ (a - buff).toNat := by
      rw [List.length_take]
      by_contra hlt
      exact ha (a - buff).toNat (by omega) ((eq_add_ofNat (a - buff).toNat_lt).mpr rfl)
    rw [hmem, Function.update_of_ne (ha _ hlast), withText, List.getElem?_eq_none hout]
    rfl

/-- The buffer is a string: as much of the text as there is room for. -/
theorem Stored.stringAt (h : Stored buff len text mem b) : StringAt b.mem buff (text.take (len.toNat - 1)) := by
  refine ⟨fun i hi => ?_, ?_⟩
  · obtain ⟨hroom, hi'⟩ := lt_min_iff.mp (List.length_take ▸ hi)
    rw [List.getElem_take]
    exact h.chars i hi' hroom
  · rw [List.length_take]
    exact h.nul

/-- **What the call does** with a text of fewer than 2^32 characters. -/
theorem vsnprintf_stored (args : Nat → UInt32) (string : UInt32 → CString) (mem : UInt32 → UInt8) (hbuff : buff ≠ 0)
    (hformat : format ≠ 0) (hlen : 1 ≤ len)
    (hshort : (fullText args string (string format)).length < 4294967296) :
    ∃ b, vsnprintf args string buff len format mem =
        some (Int32.ofNat (fullText args string (string format)).length, b) ∧
      Stored buff len (fullText args string (string format)) mem b := by
  obtain ⟨b, hcall, hb⟩ := vsnprintf_eq args string hbuff hformat hlen mem
  have hfilled := foldl_putchar mem buff _ hlen hshort.le
  rw [← hb] at hfilled
  rw [hfilled.result, UInt32.toInt32_ofNat'] at hcall
  exact ⟨_, hcall, hfilled.stored hlen⟩

end

/-- **The text is truncated**, and its length returned, if and only if an `int` can hold its length. -/
theorem vsnprintf_truncates_iff (args : Nat → UInt32) (string : UInt32 → CString) (buff len format : UInt32)
    (mem : UInt32 → UInt8) (hbuff : buff ≠ 0) (hformat : format ≠ 0) (hlen : 1 ≤ len) :
    unlimitedText args string (string format) = some (fullText args string (string format)) ∧
    ((∃ ret b, vsnprintf args string buff len format mem = some (ret, b) ∧
        Truncates buff len (fullText args string (string format)) mem ret b) ↔
      (fullText args string (string format)).length < 2147483648) := by
  refine ⟨unlimitedText_eq args string (string format), ?_, fun hshort => ?_⟩
  · rintro ⟨ret, b, -, htruncates⟩
    have hret := htruncates.ret
    have hlt := ret.toInt_lt
    omega
  · obtain ⟨b, hcall, hstored⟩ := vsnprintf_stored args string mem hbuff hformat hlen (lt_trans hshort (by decide))
    exact ⟨_, b, hcall, hstored, Int32.toInt_ofNat_of_lt hshort⟩

/-- `snprintf` returns the result of `vsnprintf`. -/
theorem snprintf_eq (args : Nat → UInt32) (string : UInt32 → CString) (buff len format : UInt32) (mem : UInt32 → UInt8) :
    snprintf args string buff len format mem = vsnprintf args string buff len format mem := by
  unfold snprintf
  cases vsnprintf args string buff len format mem with
  | none => rfl
  | some r => rfl

/-! ## A text that fits, and one that does not -/

theorem twoStringsA_noNul : (0 : UInt8) ∉ ['%', 's', '%', 's', 'A'].map ch := by
  decide

theorem twoStringsA_short : (['%', 's', '%', 's', 'A'].map ch).length < 4294967296 := by
  decide

/-- `%s%sA` -/
def twoStringsA : CString := ⟨['%', 's', '%', 's', 'A'].map ch, twoStringsA_noNul, twoStringsA_short⟩

/-- The format at address 4, and another string elsewhere. -/
def formatAndString (s : CString) (a : UInt32) : CString := if a = 4 then twoStringsA else s

theorem fullText_twoStringsA (s : CString) :
    fullText (fun _ => 8) (formatAndString s) (formatAndString s 4) = s.bytes ++ (s.bytes ++ [ch 'A']) := rfl

theorem bc_noNul : (0 : UInt8) ∉ ['b', 'c'].map ch := by
  decide

theorem bc_short : (['b', 'c'].map ch).length < 4294967296 := by
  decide

/-- Two strings and a letter, in a buffer of four places. -/
theorem vsnprintf_two_strings : ∃ ret b,
    vsnprintf (fun _ => 8) (formatAndString ⟨['b', 'c'].map ch, bc_noNul, bc_short⟩) 4096 4 4 (fun _ => 0) = some (ret, b) ∧
      ret.toInt = 5 ∧ b.mem (4096 + 2) = ch 'b' ∧ b.mem (4096 + 3) = 0 := by
  obtain ⟨ret, b, hcall, htruncates⟩ := (vsnprintf_truncates_iff (fun _ => 8)
    (formatAndString ⟨['b', 'c'].map ch, bc_noNul, bc_short⟩) 4096 4 4 (fun _ => 0)
    (by decide) (by decide) (by decide)).2.mpr (by rw [fullText_twoStringsA]; decide)
  exact ⟨ret, b, hcall, htruncates.ret, htruncates.chars 2 (by rw [fullText_twoStringsA]; decide) (by decide),
    htruncates.nul⟩

/-- Behind 2^32 characters the count begins again, and the next character is stored behind the buffer. -/
theorem vsnprintf_wraps {s : CString} (hs : s.bytes.length = 2147483648) :
    ∃ b, vsnprintf (fun _ => 8) (formatAndString s) 4096 2 4 (fun _ => 0) = some (1, b) ∧ 4096 + 2 ∈ b.writes := by
  obtain ⟨b, hcall, hb⟩ := vsnprintf_eq (fun _ => 8) (formatAndString s) (show (4096 : UInt32) ≠ 0 by decide)
    (show (4 : UInt32) ≠ 0 by decide) (show 1 ≤ 2 by decide) (fun _ => 0)
  have hlength : (s.bytes ++ s.bytes).length = 4294967296 := by
    rw [List.length_append, hs]
  have hfilled := foldl_putchar (fun _ => 0) 4096 (s.bytes ++ s.bytes) (show 1 ≤ 2 by decide) hlength.le
  rw [fullText_twoStringsA, ← List.append_assoc, List.foldl_concat] at hb
  generalize (s.bytes ++ s.bytes).foldl (Buffer.putchar 2) _ = full at hb hfilled
  have hresult : full.result = 0 := by
    rw [hfilled.result, hlength]
    rfl
  have hbuff : full.buff = 4097 := by
    rw [hfilled.buff, hlength]
    rfl
  have hput : b.result = 1 ∧ b.buff = 4098 := by
    rw [hb]
    unfold Buffer.putchar
    rw [if_pos (by rw [hresult]; decide)]
    exact ⟨congrArg (· + 1) hresult, congrArg (· + 1) hbuff⟩
  rw [hput.1] at hcall
  have hnul : (b.store 0).writes = 4098 :: b.writes := by
    rw [← hput.2]
    rfl
  exact ⟨_, hcall, hnul ▸ List.mem_cons_self⟩

theorem long_noNul : (0 : UInt8) ∉ List.replicate 2147483648 (ch 'A') :=
  fun h => absurd (List.eq_of_mem_replicate h) (by decide)

theorem long_short : (List.replicate 2147483648 (ch 'A')).length < 4294967296 := by
  rw [List.length_replicate]
  decide

/-- A string of 2 GiB. -/
def longString : CString := ⟨List.replicate 2147483648 (ch 'A'), long_noNul, long_short⟩

/-- Two strings of 2 GiB and a letter: one is returned, and the NUL is written behind a buffer of two places. -/
theorem vsnprintf_overruns : ∃ b,
    vsnprintf (fun _ => 8) (formatAndString longString) 4096 2 4 (fun _ => 0) = some (1, b) ∧ 4096 + 2 ∈ b.writes ∧
      ¬ Truncates 4096 2 (fullText (fun _ => 8) (formatAndString longString) (formatAndString longString 4)) (fun _ => 0)
        1 b := by
  have hlong : longString.bytes.length = 2147483648 := List.length_replicate
  obtain ⟨b, hcall, hwrites⟩ := vsnprintf_wraps hlong
  refine ⟨b, hcall, hwrites, fun htruncates => ?_⟩
  have hret := htruncates.ret
  rw [fullText_twoStringsA, List.length_append, List.length_append, hlong, show (1 : Int32).toInt = 1 from rfl] at hret
  rw [List.length_singleton] at hret
  omega

end Desiros.Klibc
