import Mathlib.Data.Nat.Digits.Lemmas

/-!
# Numerals and fields

`numeral` writes a number in a radix, the most significant digit first: the last digit is the remainder and the quotient
stands in front of it (`numeral_eq`). `lastDigits` writes a fixed number of digits, which is the numeral if the first of
them is not zero (`numeral_lastDigits`). `field` is a text in a column of some width (`field_length`).
-/

namespace Desiros.Library

variable {α : Type*}

def numeral (radix : Nat) (digit : Nat → α) (n : Nat) : List α :=
  if n = 0 then [digit 0] else ((Nat.digits radix n).map digit).reverse

/-- The last `k` digits. -/
def lastDigits (radix : Nat) (digit : Nat → α) (k n : Nat) : List α :=
  (List.range k).reverse.map fun i => digit (n / radix ^ i % radix)

/-- A sign and a text, on the left of their column or behind the padding. -/
def field (blank zero : α) (left zeros : Bool) (width : Nat) (sign body : List α) : List α :=
  if left then sign ++ body ++ List.replicate (width - (sign.length + body.length)) blank
  else if zeros then sign ++ List.replicate (width - (sign.length + body.length)) zero ++ body
  else List.replicate (width - (sign.length + body.length)) blank ++ sign ++ body

section

variable {radix n k : Nat} {digit : Nat → α}

theorem numeral_congr {digit' : Nat → α} (hradix : 1 < radix) (h : ∀ d < radix, digit d = digit' d) (n : Nat) :
    numeral radix digit n = numeral radix digit' n := by
  unfold numeral
  rw [h 0 (by omega), List.map_congr_left fun d hd => h d (Nat.digits_lt_base hradix hd)]

theorem numeral_of_lt (h : n < radix) : numeral radix digit n = [digit n] := by
  unfold numeral
  split_ifs with hzero
  · rw [hzero]
  · rw [Nat.digits_of_lt radix n hzero h]
    rfl

theorem numeral_eq (hradix : 1 < radix) (h : n / radix ≠ 0) :
    numeral radix digit n = numeral radix digit (n / radix) ++ [digit (n % radix)] := by
  have hpos : 0 < n := Nat.pos_of_ne_zero fun hn => h (by rw [hn, Nat.zero_div])
  unfold numeral
  rw [if_neg (Nat.ne_of_gt hpos), if_neg h, Nat.digits_def' hradix hpos, List.map_cons, List.reverse_cons]

theorem numeral_length_le (hradix : 1 < radix) (hk : 0 < k) (h : n < radix ^ k) :
    (numeral radix digit n).length ≤ k := by
  unfold numeral
  split_ifs with hzero
  · exact hk
  · rw [List.length_reverse, List.length_map]
    exact (Nat.digits_length_le_iff hradix n).mpr h

theorem mem_numeral (hradix : 1 < radix) {a : α} (h : a ∈ numeral radix digit n) : ∃ d < radix, digit d = a := by
  unfold numeral at h
  split_ifs at h with hzero
  · exact ⟨0, by omega, (List.mem_singleton.mp h).symm⟩
  · rw [List.mem_reverse, List.mem_map] at h
    obtain ⟨d, hd, rfl⟩ := h
    exact ⟨d, Nat.digits_lt_base hradix hd, rfl⟩

theorem lastDigits_succ (radix : Nat) (digit : Nat → α) (k n : Nat) :
    lastDigits radix digit (k + 1) n = digit (n / radix ^ k % radix) :: lastDigits radix digit k n := by
  unfold lastDigits
  rw [List.range_succ, List.reverse_append, List.reverse_singleton, List.singleton_append, List.map_cons]

/-- The last digit stands behind those of the quotient. -/
theorem lastDigits_append (radix : Nat) (digit : Nat → α) (k n : Nat) :
    lastDigits radix digit (k + 1) n = lastDigits radix digit k (n / radix) ++ [digit (n % radix)] := by
  induction k with
  | zero =>
    rw [lastDigits_succ, Nat.pow_zero, Nat.div_one]
    rfl
  | succ k ih =>
    rw [lastDigits_succ, ih, lastDigits_succ, Nat.div_div_eq_div_mul, Nat.pow_succ', List.cons_append]

theorem numeral_lastDigits (hradix : 1 < radix) (hlow : radix ^ k ≤ n) (hhigh : n < radix ^ (k + 1)) :
    numeral radix digit n = lastDigits radix digit (k + 1) n := by
  induction k generalizing n with
  | zero =>
    rw [zero_add, Nat.pow_one] at hhigh
    rw [numeral_of_lt hhigh, lastDigits_append, Nat.mod_eq_of_lt hhigh]
    rfl
  | succ k ih =>
    have hlow' : radix ^ k ≤ n / radix := (Nat.le_div_iff_mul_le (by omega)).mpr (by rwa [← Nat.pow_succ])
    have hhigh' : n / radix < radix ^ (k + 1) := Nat.div_lt_of_lt_mul (by rwa [← Nat.pow_succ'])
    have hne : n / radix ≠ 0 := by
      have hpos : 0 < radix ^ k := Nat.pow_pos (by omega)
      omega
    rw [numeral_eq hradix hne, ih hlow' hhigh', ← lastDigits_append]

theorem field_length (blank zero : α) (left zeros : Bool) (width : Nat) (sign body : List α) :
    (field blank zero left zeros width sign body).length = max width (sign.length + body.length) := by
  unfold field
  split_ifs <;> simp only [List.length_append, List.length_replicate] <;> omega

end

end Desiros.Library
