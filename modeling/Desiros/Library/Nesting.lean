import Mathlib.Data.List.Chain

/-!
# Bounded nesting

`DepthAtMost R n a` says that from `a` the relation `R` can be followed `n` times at most. For the relation between a
call and the calls it makes, this bounds how deep calls nest.
-/

namespace Desiros.Library

variable {α : Type*} {R : α → α → Prop}

/-- At most `n` steps of `R` from an element. -/
def DepthAtMost (R : α → α → Prop) : Nat → α → Prop
  | 0, a => ∀ b, ¬ R a b
  | n + 1, a => ∀ b, R a b → DepthAtMost R n b

theorem DepthAtMost.succ : ∀ {n : Nat} {a : α}, DepthAtMost R n a → DepthAtMost R (n + 1) a := by
  intro n
  induction n with
  | zero => exact fun h b hb => absurd hb (h b)
  | succ n ih => exact fun h b hb => ih (h b hb)

theorem DepthAtMost.mono {n m : Nat} {a : α} (h : DepthAtMost R n a) (hle : n ≤ m) : DepthAtMost R m a := by
  induction hle with
  | refl => exact h
  | step _ ih => exact ih.succ

/-- A chain of calls is no longer than the depth. -/
theorem DepthAtMost.length_le : ∀ {n : Nat} {a : α} {l : List α}, DepthAtMost R n a → (a :: l).IsChain R →
    l.length ≤ n := by
  intro n
  induction n with
  | zero =>
    intro a l h hl
    cases l with
    | nil => exact Nat.le_refl 0
    | cons b l => exact absurd (List.isChain_cons_cons.mp hl).1 (h b)
  | succ n ih =>
    intro a l h hl
    cases l with
    | nil => exact Nat.zero_le _
    | cons b l =>
      obtain ⟨hab, hbl⟩ := List.isChain_cons_cons.mp hl
      exact Nat.succ_le_succ (ih (h b hab) hbl)

end Desiros.Library
