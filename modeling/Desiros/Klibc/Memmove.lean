import Desiros.Klibc.Memory
import Desiros.Library.Loop
import Mathlib.Data.UInt

/-!
# `memmove` in the address space (`klibc.c`)

Here `memmove` has the pointers and the `int` of the source, which wrap around. Where neither region does, its two loops
are those of `Memory` (`downTurn_same`, `upTurn_same`), which read every byte of the source before it is overwritten:
`memmove_simultaneous`.
-/

namespace Desiros.Klibc

open Desiros.Library

/-- The local variables of `memmove`, and the bytes of the address space. -/
structure Moving where
  dstp : UInt32
  srcp : UInt32
  length : Int32
  mem : UInt32 → UInt8

/-- `while (length-- != 0) dstp[length] = srcp[length];` -/
def downTurn (s : Moving) : Option Moving :=
  if s.length = 0 then none
  else
    let length := s.length - 1
    some { s with
      length := length
      mem := Function.update s.mem (s.dstp + length.toUInt32) (s.mem (s.srcp + length.toUInt32)) }

/-- `while (length-- != 0) *dstp++ = *srcp++;` -/
def upTurn (s : Moving) : Option Moving :=
  if s.length = 0 then none
  else
    some {
      dstp := s.dstp + 1
      srcp := s.srcp + 1
      length := s.length - 1
      mem := Function.update s.mem s.dstp (s.mem s.srcp) }

/-- `memmove(to, from, length)`: the pointer it returns, and the memory. -/
def memmove (toPtr fromPtr : UInt32) (length : Int32) (mem : UInt32 → UInt8) (fuel : Nat) :
    Option (UInt32 × (UInt32 → UInt8)) := do
  let s ← loop (if fromPtr < toPtr then downTurn else upTurn) fuel ⟨toPtr, fromPtr, length, mem⟩
  some (toPtr, s.mem)

/-- The same bytes at the same addresses. -/
def Same (mem : UInt32 → UInt8) (m : Memory) : Prop := ∀ a, mem a = m.mem a.toNat

/-- The `n` bytes from `p` on are those from `d` on: none of them lies behind the end of the address space. -/
def Region (p : UInt32) (d n : Nat) : Prop := ∀ i < n, (p + UInt32.ofNat i).toNat = d + i

section

variable {mem : UInt32 → UInt8} {m : Memory} {dstp srcp p : UInt32} {d s n fuel : Nat}

theorem region_of_le (h : p.toNat + n ≤ 4294967296) : Region p p.toNat n := by
  intro i hi
  rw [UInt32.toNat_add, UInt32.toNat_ofNat']
  omega

theorem Region.first (h : Region p d (n + 1)) : p.toNat = d := by
  have hzero := h 0 (Nat.succ_pos n)
  rwa [show UInt32.ofNat 0 = 0 from rfl, UInt32.add_zero, Nat.add_zero] at hzero

theorem Region.next (h : Region p d (n + 1)) : Region (p + 1) (d + 1) n := by
  intro i hi
  have hsucc : p + 1 + UInt32.ofNat i = p + UInt32.ofNat (i + 1) := by
    rw [UInt32.ofNat_add, UInt32.add_assoc, UInt32.add_comm (UInt32.ofNat i)]
    rfl
  rw [hsucc, h (i + 1) (Nat.succ_lt_succ hi)]
  omega

theorem Region.init (h : Region p d (n + 1)) : Region p d n := fun i hi => h i (Nat.lt_succ_of_lt hi)

theorem ofNat_succ_sub (n : Nat) : Int32.ofNat (n + 1) - 1 = Int32.ofNat n :=
  (Int32.ofNat_sub (n + 1) 1 (Nat.succ_pos n)).symm

theorem ofNat_succ_ne_zero (h : n + 1 < 2147483648) : Int32.ofNat (n + 1) ≠ 0 := by
  intro hzero
  have hint := Int32.toInt_ofNat_of_lt h
  rw [hzero, show (0 : Int32).toInt = 0 from rfl] at hint
  omega

theorem Same.store (h : Same mem m) (hp : p.toNat = d) {b : UInt8} : Same (Function.update mem p b) (m.store d b) := by
  intro a
  unfold Memory.store
  dsimp only
  by_cases ha : a = p
  · rw [ha, Function.update_self, if_pos hp]
  · have hne : ¬ a.toNat = d := fun had => ha (UInt32.toNat_inj.mp (had.trans hp.symm))
    rw [Function.update_of_ne ha, if_neg hne]
    exact h a

/-- **Downwards** the loop does what `copyDown` does. -/
theorem downTurn_same (h : Same mem m) (hn : n < 2147483648) (hdst : Region dstp d n) (hsrc : Region srcp s n)
    (hfuel : n < fuel) :
    ∃ t, loop downTurn fuel ⟨dstp, srcp, Int32.ofNat n, mem⟩ = some t ∧ Same t.mem (m.copyDown d s n) := by
  induction n generalizing mem m fuel with
  | zero =>
    obtain ⟨more, rfl⟩ := Nat.exists_eq_add_of_lt hfuel
    exact ⟨_, loop_stop (if_pos rfl), h⟩
  | succ n ih =>
    obtain ⟨more, rfl⟩ := Nat.exists_eq_add_of_lt hfuel
    have hturn : downTurn ⟨dstp, srcp, Int32.ofNat (n + 1), mem⟩ = some ⟨dstp, srcp, Int32.ofNat n,
        Function.update mem (dstp + UInt32.ofNat n) (mem (srcp + UInt32.ofNat n))⟩ := by
      unfold downTurn
      dsimp only
      rw [if_neg (ofNat_succ_ne_zero hn), ofNat_succ_sub]
      rfl
    have hbyte : mem (srcp + UInt32.ofNat n) = m.mem (s + n) := by
      rw [h, hsrc n (Nat.lt_succ_self n)]
    rw [loop_turn hturn, hbyte]
    exact ih (h.store (hdst n (Nat.lt_succ_self n))) (by omega) hdst.init hsrc.init (by omega)

/-- **Upwards** the loop does what `copyUp` does. -/
theorem upTurn_same (h : Same mem m) (hn : n < 2147483648) (hdst : Region dstp d n) (hsrc : Region srcp s n)
    (hfuel : n < fuel) :
    ∃ t, loop upTurn fuel ⟨dstp, srcp, Int32.ofNat n, mem⟩ = some t ∧ Same t.mem (m.copyUp d s n) := by
  induction n generalizing mem m dstp srcp d s fuel with
  | zero =>
    obtain ⟨more, rfl⟩ := Nat.exists_eq_add_of_lt hfuel
    exact ⟨_, loop_stop (if_pos rfl), h⟩
  | succ n ih =>
    obtain ⟨more, rfl⟩ := Nat.exists_eq_add_of_lt hfuel
    have hturn : upTurn ⟨dstp, srcp, Int32.ofNat (n + 1), mem⟩ = some ⟨dstp + 1, srcp + 1, Int32.ofNat n,
        Function.update mem dstp (mem srcp)⟩ := by
      unfold upTurn
      dsimp only
      rw [if_neg (ofNat_succ_ne_zero hn), ofNat_succ_sub]
    have hbyte : mem srcp = m.mem s := by
      rw [h, hsrc.first]
    rw [loop_turn hturn, hbyte]
    exact ih (h.store hdst.first) (by omega) hdst.next hsrc.next (by omega)

/-- **`memmove` refines the copy over unbounded addresses.** -/
theorem memmove_same (h : Same mem m) (hn : n < 2147483648) (hdst : dstp.toNat + n ≤ 4294967296)
    (hsrc : srcp.toNat + n ≤ 4294967296) (hfuel : n < fuel) :
    ∃ mem', memmove dstp srcp (Int32.ofNat n) mem fuel = some (dstp, mem') ∧
      Same mem' (m.memmove dstp.toNat srcp.toNat n) := by
  unfold memmove Memory.memmove
  by_cases hdown : srcp < dstp
  · obtain ⟨t, ht, hsame⟩ := downTurn_same h hn (region_of_le hdst) (region_of_le hsrc) hfuel
    rw [if_pos hdown, if_pos (UInt32.lt_iff_toNat_lt.mp hdown), ht]
    exact ⟨t.mem, rfl, hsame⟩
  · obtain ⟨t, ht, hsame⟩ := upTurn_same h hn (region_of_le hdst) (region_of_le hsrc) hfuel
    rw [if_neg hdown, if_neg (fun hlt => hdown (UInt32.lt_iff_toNat_lt.mpr hlt)), ht]
    exact ⟨t.mem, rfl, hsame⟩

end

/-- **The destination holds what the source held**, whatever the overlap, and no other byte has changed. -/
theorem memmove_simultaneous (toPtr fromPtr : UInt32) (length : Int32) (mem : UInt32 → UInt8) (hlength : 0 ≤ length)
    (hto : toPtr.toNat + length.toNatClampNeg ≤ 4294967296) (hfrom : fromPtr.toNat + length.toNatClampNeg ≤ 4294967296) :
    ∃ mem', (∀ fuel > length.toNatClampNeg, memmove toPtr fromPtr length mem fuel = some (toPtr, mem')) ∧
      (∀ i < length.toNatClampNeg, mem' (toPtr + UInt32.ofNat i) = mem (fromPtr + UInt32.ofNat i)) ∧
      ∀ a, (∀ i < length.toNatClampNeg, a ≠ toPtr + UInt32.ofNat i) → mem' a = mem a := by
  have hself : Int32.ofNat length.toNatClampNeg = length := Int32.ofNat_toNatClampNeg length hlength
  have hn : length.toNatClampNeg < 2147483648 := Int32.toNatClampNeg_lt length
  generalize length.toNatClampNeg = n at hself hn hto hfrom ⊢
  subst hself
  let m : Memory := ⟨fun v => mem (UInt32.ofNat v), []⟩
  have hsame : Same mem m := fun a => congrArg mem (UInt32.ofNat_toNat (x := a)).symm
  refine ⟨fun a => (m.memmove toPtr.toNat fromPtr.toNat n).mem a.toNat, fun fuel hfuel => ?_, fun i hi => ?_, fun a ha => ?_⟩
  · obtain ⟨mem', hrun, hsame'⟩ := memmove_same hsame hn hto hfrom hfuel
    rw [hrun, show mem' = _ from funext hsame']
  · have hdst := region_of_le hto i hi
    dsimp only
    rw [Memory.memmove_mem, hdst, if_pos ⟨Nat.le_add_right _ _, Nat.add_lt_add_left hi _⟩, Nat.add_sub_cancel_left,
      ← region_of_le hfrom i hi]
    exact (hsame _).symm
  · have hout : ¬ (toPtr.toNat ≤ a.toNat ∧ a.toNat < toPtr.toNat + n) := by
      rintro ⟨hle, hlt⟩
      have hi : a.toNat - toPtr.toNat < n := by omega
      apply ha _ hi
      rw [← UInt32.toNat_inj, region_of_le hto _ hi]
      omega
    dsimp only
    rw [Memory.memmove_mem, if_neg hout]
    exact (hsame a).symm

/-- Four bytes, two places up. -/
theorem memmove_overlap : ∃ mem', (∀ fuel > 4, memmove 2 0 4 UInt32.toUInt8 fuel = some (2, mem')) ∧
    mem' 2 = 0 ∧ mem' 3 = 1 ∧ mem' 4 = 2 ∧ mem' 5 = 3 ∧ mem' 6 = 6 := by
  obtain ⟨mem', hrun, hcopied, hkept⟩ := memmove_simultaneous 2 0 4 UInt32.toUInt8 (by decide) (by decide) (by decide)
  exact ⟨mem', hrun, hcopied 0 (by decide), hcopied 1 (by decide), hcopied 2 (by decide), hcopied 3 (by decide),
    hkept 6 (by decide)⟩

end Desiros.Klibc
