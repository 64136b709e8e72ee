import Mathlib.Data.List.Basic
import Mathlib.Data.List.TakeWhile
import Mathlib.Data.UInt
import Mathlib.Logic.Function.Basic
import Mathlib.Tactic.NormNum

/-!
# Bytes and records

`Bytes` is a byte-addressed memory or file. `leWord m pos n` is the `n`-byte little-endian number at `pos`,
`slice m pos n` the bytes from `pos` on, and `cString` cuts a character array at its first zero. `bitAt m pos k`
is bit `k` of the bitmap at `pos`. `Chain size start stop ps` says that records of the given sizes stand at the
positions `ps`, one behind the other, from `start` exactly up to `stop`.
-/

namespace Desiros.Library

abbrev Bytes := Nat → UInt8

section

variable {m m' : Bytes} {pos n : Nat}

def leWord (m : Bytes) (pos : Nat) : Nat → Nat
  | 0 => 0
  | n + 1 => (m pos).toNat + 256 * leWord m (pos + 1) n

def le16 (m : Bytes) (pos : Nat) : Nat := leWord m pos 2
def le32 (m : Bytes) (pos : Nat) : Nat := leWord m pos 4

def slice (m : Bytes) (pos n : Nat) : List UInt8 := (List.range n).map fun i => m (pos + i)

def cString (s : List UInt8) : List UInt8 := s.takeWhile (· ≠ 0)

theorem leWord_lt (m : Bytes) (n : Nat) : ∀ pos, leWord m pos n < 256 ^ n := by
  induction n with
  | zero => intro pos; exact Nat.one_pos
  | succ n ih =>
    intro pos
    have hbyte := (m pos).toNat_lt
    have hrest := ih (pos + 1)
    unfold leWord
    rw [Nat.pow_succ]
    omega

theorem le16_lt (m : Bytes) (pos : Nat) : le16 m pos < 2 ^ 16 := leWord_lt m 2 pos

theorem le32_lt (m : Bytes) (pos : Nat) : le32 m pos < 2 ^ 32 := leWord_lt m 4 pos

theorem leWord_congr (n : Nat) : ∀ pos, (∀ i < n, m (pos + i) = m' (pos + i)) → leWord m pos n = leWord m' pos n := by
  induction n with
  | zero => intro pos _; rfl
  | succ n ih =>
    intro pos h
    have hrest : leWord m (pos + 1) n = leWord m' (pos + 1) n := by
      apply ih
      intro i hi
      have hi' := h (i + 1) (by omega)
      rw [show pos + 1 + i = pos + (i + 1) by omega]
      exact hi'
    unfold leWord
    rw [hrest, show m pos = m' pos from h 0 (by omega)]

/-- A number determines its bytes. -/
theorem leWord_inj (n : Nat) : ∀ pos, leWord m pos n = leWord m' pos n → ∀ i < n, m (pos + i) = m' (pos + i) := by
  induction n with
  | zero => exact fun _ _ i hi => absurd hi (Nat.not_lt_zero i)
  | succ n ih =>
    intro pos h i hi
    unfold leWord at h
    have hlow := (m pos).toNat_lt
    have hlow' := (m' pos).toNat_lt
    cases i with
    | zero =>
      rw [Nat.add_zero]
      exact UInt8.toNat_inj.mp (by omega)
    | succ i =>
      have hrest := ih (pos + 1) (by omega) i (by omega)
      rw [show pos + (i + 1) = pos + 1 + i by omega]
      exact hrest

/-- The bytes `v`, `v / 256`, ... stored at `pos`. -/
def storeLe (m : Bytes) (pos n v : Nat) : Bytes :=
  fun t => if pos ≤ t ∧ t < pos + n then UInt8.ofNat (v / 256 ^ (t - pos)) else m t

theorem storeLe_of_ne {v t : Nat} (h : t < pos ∨ pos + n ≤ t) : storeLe m pos n v t = m t := if_neg (by omega)

/-- What is stored is read. -/
theorem leWord_storeLe (m : Bytes) (pos n v : Nat) : leWord (storeLe m pos n v) pos n = v % 256 ^ n := by
  have hpart : ∀ k i, i + k = n → leWord (storeLe m pos n v) (pos + i) k = v / 256 ^ i % 256 ^ k := by
    intro k
    induction k with
    | zero =>
      intro i _
      rw [pow_zero, Nat.mod_one]
      rfl
    | succ k ih =>
      intro i hi
      have hbyte : (storeLe m pos n v (pos + i)).toNat = v / 256 ^ i % 256 := by
        rw [storeLe, if_pos (by omega), Nat.add_sub_cancel_left, UInt8.toNat_ofNat']
      have hrest := ih (i + 1) (by omega)
      rw [leWord, hbyte, Nat.add_assoc, hrest, pow_succ 256 i, ← Nat.div_div_eq_div_mul, pow_succ 256 k,
        Nat.mul_comm (256 ^ k), Nat.mod_mul]
  have hall := hpart n 0 (Nat.zero_add n)
  rwa [Nat.add_zero, pow_zero, Nat.div_one] at hall

/-- What stands in front of it and behind it is as before. -/
theorem leWord_storeLe_of_ne {q k v : Nat} (h : q + k ≤ pos ∨ pos + n ≤ q) :
    leWord (storeLe m pos n v) q k = leWord m q k := by
  apply leWord_congr
  intro i hi
  exact storeLe_of_ne (by omega)

theorem slice_congr (h : ∀ i < n, m (pos + i) = m' (pos + i)) : slice m pos n = slice m' pos n := by
  unfold slice
  apply List.map_congr_left
  intro i hi
  exact h i (List.mem_range.mp hi)

theorem cString_of_not_mem {s : List UInt8} (h : 0 ∉ s) : cString s = s := by
  unfold cString
  apply List.takeWhile_eq_self_iff.mpr
  intro c hc
  exact decide_eq_true fun h0 => h (h0 ▸ hc)

end

/-! ## Bitmaps -/

def bitAt (m : Bytes) (pos k : Nat) : Bool := (m (pos + k / 8)).toNat.testBit (k % 8)

/-- `b | (1 << k)` -/
def setBit (b : UInt8) (k : Nat) : UInt8 := UInt8.ofNat (b.toNat ||| 1 <<< k)

/-- `b & ~(1 << k)` -/
def clearBit (b : UInt8) (k : Nat) : UInt8 := UInt8.ofNat (b.toNat &&& (255 ^^^ 1 <<< k))

section

variable {b : UInt8} {m : Bytes} {a p q k j : Nat}

theorem testBit_ofNat (n : Nat) (hj : j < 8) : (UInt8.ofNat n).toNat.testBit j = n.testBit j := by
  rw [UInt8.toNat_ofNat', Nat.testBit_mod_two_pow, decide_eq_true hj, Bool.true_and]

theorem testBit_setBit (hj : j < 8) : (setBit b k).toNat.testBit j = (b.toNat.testBit j || decide (k = j)) := by
  rw [setBit, testBit_ofNat _ hj, Nat.testBit_or, Nat.one_shiftLeft, Nat.testBit_two_pow]

theorem testBit_clearBit (hj : j < 8) :
    (clearBit b k).toNat.testBit j = (b.toNat.testBit j && !decide (k = j)) := by
  have hones : (255 : Nat).testBit j = true := by
    rw [show 255 = 2 ^ 8 - 1 from rfl, Nat.testBit_two_pow_sub_one, decide_eq_true hj]
  rw [clearBit, testBit_ofNat _ hj, Nat.testBit_and, Nat.testBit_xor, hones, Nat.one_shiftLeft, Nat.testBit_two_pow,
    Bool.true_xor]

theorem bitAt_update (m : Bytes) (a q j : Nat) (b : UInt8) :
    bitAt (Function.update m a b) q j = if q + j / 8 = a then b.toNat.testBit (j % 8) else bitAt m q j := by
  unfold bitAt
  split_ifs with h
  · rw [h, Function.update_self]
  · rw [Function.update_of_ne h]

/-- Setting a bit of a bitmap sets that bit, and no other bit of any bitmap. -/
theorem bitAt_setBit : bitAt (Function.update m (p + k / 8) (setBit (m (p + k / 8)) (k % 8))) q j =
    (bitAt m q j || decide (q + j / 8 = p + k / 8 ∧ k % 8 = j % 8)) := by
  rw [bitAt_update]
  split_ifs with h
  · rw [testBit_setBit (Nat.mod_lt j (by decide)), bitAt, h, decide_eq_decide.mpr (and_iff_right rfl)]
  · rw [decide_eq_false (fun hand => h hand.1), Bool.or_false]

theorem bitAt_clearBit : bitAt (Function.update m (p + k / 8) (clearBit (m (p + k / 8)) (k % 8))) q j =
    (bitAt m q j && !decide (q + j / 8 = p + k / 8 ∧ k % 8 = j % 8)) := by
  rw [bitAt_update]
  split_ifs with h
  · rw [testBit_clearBit (Nat.mod_lt j (by decide)), bitAt, h, decide_eq_decide.mpr (and_iff_right rfl)]
  · rw [decide_eq_false (fun hand => h hand.1), Bool.not_false, Bool.and_true]

end

/-! ## Chains of records -/

inductive Chain (size : Nat → Nat) : Nat → Nat → List Nat → Prop
  | nil (p : Nat) : Chain size p p []
  | cons {p stop : Nat} {ps : List Nat} (hpos : 0 < size p) (h : Chain size (p + size p) stop ps) :
      Chain size p stop (p :: ps)

section

variable {size size' : Nat → Nat} {start stop p : Nat} {ps : List Nat}

theorem Chain.eq_of_nil (h : Chain size start stop []) : start = stop := by
  cases h
  rfl

theorem Chain.le (h : Chain size start stop ps) : start ≤ stop := by
  induction h with
  | nil p => exact Nat.le_refl p
  | cons hpos h ih => omega

theorem Chain.lt_of_cons (h : Chain size start stop (p :: ps)) : start < stop := by
  cases h with
  | cons hpos h =>
    have := h.le
    omega

theorem Chain.mem (h : Chain size start stop ps) (hp : p ∈ ps) : start ≤ p ∧ p + size p ≤ stop := by
  induction h with
  | nil q => exact absurd hp List.not_mem_nil
  | cons hpos h ih =>
    cases List.mem_cons.mp hp with
    | inl heq =>
      rw [heq]
      exact ⟨Nat.le_refl _, h.le⟩
    | inr hin =>
      have := ih hin
      omega

end

end Desiros.Library
