import Mathlib.Data.UInt
import Mathlib.Tactic.NormNum

/-!
# 32-bit words as naturals

The programs compute with wrapping 32-bit words; the arguments are about naturals. `word_le_iff`,
`word_add`, ... restate the comparisons and operations of `UInt32` on `toNat`, so that a goal becomes
linear arithmetic with explicit `% 2 ^ 32`.

`alignInf` and `alignSup` are the usual mask-based rounding of a word to a multiple of a power of two;
for the boundary `4096` they are rounding down and rounding up to a page (`alignSup` wraps to `0`
above the last page boundary).
-/

namespace Desiros.Library

theorem word_le_iff {a b : UInt32} : a ≤ b ↔ a.toNat ≤ b.toNat := UInt32.le_iff_toNat_le

theorem word_lt_iff {a b : UInt32} : a < b ↔ a.toNat < b.toNat := UInt32.lt_iff_toNat_lt

theorem word_eq_iff {a b : UInt32} : a = b ↔ a.toNat = b.toNat := UInt32.toNat_inj.symm

theorem word_add (a b : UInt32) : (a + b).toNat = (a.toNat + b.toNat) % 4294967296 :=
  UInt32.toNat_add a b

theorem word_sub (a b : UInt32) : (a - b).toNat = (4294967296 - b.toNat + a.toNat) % 4294967296 :=
  UInt32.toNat_sub a b

theorem word_lt (a : UInt32) : a.toNat < 4294967296 := a.toNat_lt

theorem toUInt64_eq (x : UInt32) : x.toUInt64 = UInt64.ofNat x.toNat := by
  apply UInt64.toNat_inj.mp
  have h64 : UInt64.size = 18446744073709551616 := rfl
  have := word_lt x
  rw [UInt32.toNat_toUInt64, UInt64.toNat_ofNat_of_lt']
  omega

/-- Moving the start of an offset computation from `lo` up to `v = lo + x`. -/
theorem offset_shift (o : UInt64) (x : UInt32) (p v lo : Nat) (h : x.toNat + lo = v) :
    o + x.toUInt64 + UInt64.ofNat p - UInt64.ofNat v = o + UInt64.ofNat p - UInt64.ofNat lo := by
  rw [← h, toUInt64_eq, UInt64.ofNat_add]
  grind

/-- Round down to a multiple of `boundary` (a power of two). -/
def alignInf (v boundary : UInt32) : UInt32 := v &&& ~~~(boundary - 1)

/-- Round up to a multiple of `boundary` (a power of two). -/
def alignSup (v boundary : UInt32) : UInt32 := ((v - 1) &&& ~~~(boundary - 1)) + boundary

/-- Whether `v` is a multiple of `boundary` (a power of two). -/
def isAligned (v boundary : UInt32) : Bool := v &&& (boundary - 1) == 0

/-- A mask that clears the low `k` bits rounds down to a multiple of `2 ^ k`. -/
theorem toNat_mask (v : UInt32) {mask : UInt32} {k : Nat} (hk : k ≤ 32)
    (hmask : mask.toNat = 2 ^ 32 - 2 ^ k) : (v &&& mask).toNat = v.toNat / 2 ^ k * 2 ^ k := by
  have hfactor : 2 ^ 32 - 2 ^ k = 2 ^ k * (2 ^ (32 - k) - 1) := by
    rw [Nat.mul_sub, ← pow_add, Nat.add_sub_cancel' hk, Nat.mul_one]
  rw [UInt32.toNat_and, hmask]
  apply Nat.eq_of_testBit_eq
  intro i
  rw [Nat.testBit_and, hfactor, Nat.testBit_two_pow_mul, Nat.testBit_two_pow_sub_one, Nat.mul_comm _ (2 ^ k),
    Nat.testBit_two_pow_mul, Nat.testBit_div_two_pow]
  by_cases hki : k ≤ i
  · by_cases h32 : i - k < 32 - k
    · simp [hki, h32]
    · have : v.toNat.testBit i = false :=
        Nat.testBit_lt_two_pow (lt_of_lt_of_le (word_lt v)
          (Nat.pow_le_pow_right (show 0 < 2 by norm_num) (show 32 ≤ i by omega)))
      simp [hki, this]
  · simp [hki]

theorem toNat_alignInf (v : UInt32) : (alignInf v 4096).toNat = v.toNat / 4096 * 4096 :=
  @toNat_mask v _ 12 (by decide) (by decide)

theorem toNat_alignSup_of_mask (v : UInt32) {boundary : UInt32} {k : Nat} (hk : k < 32)
    (hboundary : boundary.toNat = 2 ^ k) (hmask : (~~~(boundary - 1)).toNat = 2 ^ 32 - 2 ^ k) :
    (alignSup v boundary).toNat =
      ((4294967296 - 1 + v.toNat) % 4294967296 / 2 ^ k * 2 ^ k + 2 ^ k) % 4294967296 := by
  rw [alignSup, word_add, toNat_mask _ hk.le hmask, word_sub, hboundary]
  rfl

theorem toNat_alignSup (v : UInt32) :
    (alignSup v 4096).toNat = (v.toNat + 4095) / 4096 * 4096 % 4294967296 := by
  have hv := word_lt v
  rw [@toNat_alignSup_of_mask v 4096 12 (by decide) (by decide) (by decide)]
  omega

theorem toNat_alignSup_four (v : UInt32) :
    (alignSup v 4).toNat = (v.toNat + 3) / 4 * 4 % 4294967296 := by
  have hv := word_lt v
  rw [@toNat_alignSup_of_mask v 4 2 (by decide) (by decide) (by decide)]
  omega

theorem isAligned_iff (v : UInt32) : isAligned v 4096 = true ↔ v.toNat % 4096 = 0 := by
  rw [isAligned, beq_iff_eq, word_eq_iff, UInt32.toNat_and]
  show v.toNat &&& 2 ^ 12 - 1 = 0 ↔ _
  rw [Nat.and_two_pow_sub_one_eq_mod]

/-- A mask of the low `k` bits is the remainder by `2 ^ k`. -/
theorem toNat_lowMask (v : UInt32) {mask : UInt32} {k : Nat} (hmask : mask.toNat = 2 ^ k - 1) :
    (v &&& mask).toNat = v.toNat % 2 ^ k := by
  rw [UInt32.toNat_and, hmask, Nat.and_two_pow_sub_one_eq_mod]

theorem toNat_shiftRight (v : UInt32) {s : UInt32} (hs : s.toNat < 32) :
    (v >>> s).toNat = v.toNat / 2 ^ s.toNat := by
  rw [UInt32.toNat_shiftRight, Nat.mod_eq_of_lt hs, Nat.shiftRight_eq_div_pow]

/-- The bits of a multiple of `2 ^ k` and of a word below `2 ^ k` do not meet. -/
theorem toNat_or_low {a b : UInt32} {k : Nat} (ha : 2 ^ k ∣ a.toNat) (hb : b.toNat < 2 ^ k) :
    (a ||| b).toNat = a.toNat + b.toNat := by
  obtain ⟨q, hq⟩ := ha
  rw [UInt32.toNat_or, hq, Nat.two_pow_add_eq_or_of_lt hb]

theorem word_or_and (a b mask : UInt32) : (a ||| b) &&& mask = a &&& mask ||| b &&& mask := by
  rw [word_eq_iff, UInt32.toNat_and, UInt32.toNat_or, UInt32.toNat_or, UInt32.toNat_and, UInt32.toNat_and]
  exact Nat.and_or_distrib_right ..

theorem word_or_ne_zero {a b : UInt32} : a ||| b ≠ 0 ↔ a ≠ 0 ∨ b ≠ 0 := by
  rw [ne_eq, UInt32.or_eq_zero_iff, not_and_or]

end Desiros.Library
