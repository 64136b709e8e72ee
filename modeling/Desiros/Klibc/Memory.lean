import Desiros.Library.Bytes

/-!
# Memory (`memset` and `memmove` of `klibc.c`)

The loops store a byte at a time, and a `Memory` remembers where. `memmove` copies upwards or downwards, so that the
bytes of the source are read before they are overwritten: `memmove_mem`.
-/

namespace Desiros.Klibc

open Desiros.Library

structure Memory where
  mem : Bytes
  /-- The addresses that have been written. -/
  writes : List Nat

namespace Memory

def store (m : Memory) (a : Nat) (b : UInt8) : Memory :=
  ⟨fun v => if v = a then b else m.mem v, a :: m.writes⟩

/-- `memset(s, c, n)` -/
def memset (c : UInt8) : Nat → Nat → Memory → Memory
  | _, 0, m => m
  | s, n + 1, m => memset c (s + 1) n (m.store s c)

/-- `while (length-- != 0) *dstp++ = *srcp++;` -/
def copyUp : Nat → Nat → Nat → Memory → Memory
  | _, _, 0, m => m
  | dstp, srcp, length + 1, m => copyUp (dstp + 1) (srcp + 1) length (m.store dstp (m.mem srcp))

/-- `while (length-- != 0) dstp[length] = srcp[length];` -/
def copyDown (dstp srcp : Nat) : Nat → Memory → Memory
  | 0, m => m
  | length + 1, m => copyDown dstp srcp length (m.store (dstp + length) (m.mem (srcp + length)))

def memmove (dstp srcp length : Nat) (m : Memory) : Memory :=
  if srcp < dstp then copyDown dstp srcp length m else copyUp dstp srcp length m

/-- The addresses written in addition are those of a region. -/
def Wrote (m m' : Memory) (pos n : Nat) : Prop :=
  ∀ a, a ∈ m'.writes ↔ a ∈ m.writes ∨ pos ≤ a ∧ a < pos + n

section

variable {m : Memory} {c : UInt8} {s dstp srcp n : Nat}

theorem mem_store_writes {a b : Nat} : b ∈ (m.store a c).writes ↔ b = a ∨ b ∈ m.writes := List.mem_cons

theorem memset_mem (a : Nat) : (memset c s n m).mem a = if s ≤ a ∧ a < s + n then c else m.mem a := by
  induction n generalizing s m with
  | zero => exact (if_neg (by omega)).symm
  | succ n ih =>
    rw [memset, ih]
    by_cases hin : s + 1 ≤ a ∧ a < s + 1 + n
    · rw [if_pos hin, if_pos (by omega)]
    · rw [if_neg hin]
      by_cases hs : a = s
      · rw [if_pos (by omega)]
        exact if_pos hs
      · rw [if_neg (by omega)]
        exact if_neg hs

theorem memset_wrote : Wrote m (memset c s n m) s n := by
  induction n generalizing s m with
  | zero => exact fun a => ⟨Or.inl, fun h => h.resolve_right (by omega)⟩
  | succ n ih =>
    intro a
    rw [memset, ih a, mem_store_writes]
    by_cases ha : a ∈ m.writes
    · simp only [ha, or_true, true_or]
    · simp only [ha, or_false, false_or]
      omega

/-- Upwards, the source is not below the destination. -/
theorem copyUp_mem (h : dstp ≤ srcp) (a : Nat) :
    (copyUp dstp srcp n m).mem a = if dstp ≤ a ∧ a < dstp + n then m.mem (srcp + (a - dstp)) else m.mem a := by
  induction n generalizing dstp srcp m with
  | zero => exact (if_neg (by omega)).symm
  | succ n ih =>
    rw [copyUp, ih (Nat.succ_le_succ h)]
    by_cases hin : dstp + 1 ≤ a ∧ a < dstp + 1 + n
    · rw [if_pos hin, if_pos (by omega), show srcp + 1 + (a - (dstp + 1)) = srcp + (a - dstp) by omega]
      exact if_neg (by omega)
    · rw [if_neg hin]
      by_cases hs : a = dstp
      · rw [if_pos (by omega), hs, Nat.sub_self, Nat.add_zero]
        exact if_pos rfl
      · rw [if_neg (by omega)]
        exact if_neg hs

theorem copyUp_wrote : Wrote m (copyUp dstp srcp n m) dstp n := by
  induction n generalizing dstp srcp m with
  | zero => exact fun a => ⟨Or.inl, fun h => h.resolve_right (by omega)⟩
  | succ n ih =>
    intro a
    rw [copyUp, ih a, mem_store_writes]
    by_cases ha : a ∈ m.writes
    · simp only [ha, or_true, true_or]
    · simp only [ha, or_false, false_or]
      omega

/-- Downwards, the source is not above the destination. -/
theorem copyDown_mem (h : srcp ≤ dstp) (a : Nat) :
    (copyDown dstp srcp n m).mem a = if dstp ≤ a ∧ a < dstp + n then m.mem (srcp + (a - dstp)) else m.mem a := by
  induction n generalizing m with
  | zero => exact (if_neg (by omega)).symm
  | succ n ih =>
    rw [copyDown, ih]
    by_cases hin : dstp ≤ a ∧ a < dstp + n
    · rw [if_pos hin, if_pos (by omega)]
      exact if_neg (by omega)
    · rw [if_neg hin]
      by_cases hs : a = dstp + n
      · rw [if_pos (by omega), hs, Nat.add_sub_cancel_left]
        exact if_pos rfl
      · rw [if_neg (by omega)]
        exact if_neg hs

theorem copyDown_wrote : Wrote m (copyDown dstp srcp n m) dstp n := by
  induction n generalizing m with
  | zero => exact fun a => ⟨Or.inl, fun h => h.resolve_right (by omega)⟩
  | succ n ih =>
    intro a
    rw [copyDown, ih a, mem_store_writes]
    by_cases ha : a ∈ m.writes
    · simp only [ha, or_true, true_or]
    · simp only [ha, or_false, false_or]
      omega

/-- **The destination holds what the source held.** -/
theorem memmove_mem (a : Nat) :
    (memmove dstp srcp n m).mem a = if dstp ≤ a ∧ a < dstp + n then m.mem (srcp + (a - dstp)) else m.mem a := by
  unfold memmove
  by_cases hdown : srcp < dstp
  · rw [if_pos hdown]
    exact copyDown_mem (le_of_lt hdown) a
  · rw [if_neg hdown]
    exact copyUp_mem (not_lt.mp hdown) a

theorem memmove_wrote : Wrote m (memmove dstp srcp n m) dstp n := by
  unfold memmove
  by_cases hdown : srcp < dstp
  · rw [if_pos hdown]
    exact copyDown_wrote
  · rw [if_neg hdown]
    exact copyUp_wrote

end

end Memory

end Desiros.Klibc
