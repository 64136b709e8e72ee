import Mathlib.Data.Set.Card
import Mathlib.Data.UInt
import Mathlib.Logic.Function.Basic

/-!
# Counting the entries of a table

A table is a function `f` on finitely many places. `countEntries P f` is the number of places `i` whose entry
`f i` satisfies `P i`; an update changes it by what the old and the new entry count for.
-/

namespace Desiros.Library

instance finite_uint32 : Finite UInt32 := Finite.of_injective UInt32.toFin fun _ _ h => UInt32.toFin_inj.mp h

variable {ι β : Type*}

noncomputable def countEntries (P : ι → β → Prop) (f : ι → β) : Nat := {i | P i (f i)}.ncard

variable [Finite ι]

open Classical in
/-- One entry apart from the others. -/
theorem countEntries_split (P : ι → β → Prop) (f : ι → β) (a : ι) :
    countEntries P f = {i | i ≠ a ∧ P i (f i)}.ncard + if P a (f a) then 1 else 0 := by
  unfold countEntries
  by_cases h : P a (f a)
  · have hins : {i | P i (f i)} = insert a {i | i ≠ a ∧ P i (f i)} := by
      ext i
      by_cases hi : i = a
      · simp [hi, h]
      · simp [hi]
    rw [if_pos h, hins, Set.ncard_insert_of_notMem]
    exact fun hc => hc.1 rfl
  · have hsame : {i | P i (f i)} = {i | i ≠ a ∧ P i (f i)} := by
      ext i
      refine ⟨fun hi => ⟨?_, hi⟩, fun hi => hi.2⟩
      rintro rfl
      exact h hi
    rw [if_neg h, hsame, add_zero]

open Classical in
theorem countEntries_update [DecidableEq ι] (P : ι → β → Prop) (f : ι → β) (a : ι) (b : β) :
    countEntries P (Function.update f a b) + (if P a (f a) then 1 else 0) =
      countEntries P f + if P a b then 1 else 0 := by
  have hothers : {i | i ≠ a ∧ P i (Function.update f a b i)} = {i | i ≠ a ∧ P i (f i)} := by
    ext i
    refine and_congr_right fun hi => ?_
    rw [Function.update_of_ne hi]
  rw [countEntries_split P f a, countEntries_split P (Function.update f a b) a, hothers, Function.update_self]
  omega

end Desiros.Library
