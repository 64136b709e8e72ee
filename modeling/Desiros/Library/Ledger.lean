import Mathlib.Data.List.Count
import Mathlib.Data.List.Nodup
import Mathlib.Data.List.ReduceOption

/-!
# A ledger of buffers

The buffers that a computation takes are numbered in their order; a buffer that could not be had is `none`. `Settled`
says that each was given back once. Where the buffers are known by what was given and what was kept, that is to say
that nothing was kept (`settled_iff`).
-/

namespace Desiros.Library

structure Ledger where
  next : Nat
  obtained : List Nat
  freed : List Nat
deriving DecidableEq, Repr

section

variable {α : Type*}

theorem reduceOption_cons (p : Option α) (ps : List (Option α)) :
    (p :: ps).reduceOption = p.toList ++ ps.reduceOption := by
  cases p <;> rfl

theorem reduceOption_eq_nil {ps : List (Option α)} :
    ps.reduceOption = [] ↔ ∀ i < ps.length, (ps.getD i none).isSome = false := by
  induction ps with
  | nil => exact iff_of_true rfl fun i hi => absurd hi (Nat.not_lt_zero i)
  | cons p ps ih =>
    rw [reduceOption_cons, List.append_eq_nil_iff, ih]
    constructor
    · rintro ⟨hp, h⟩ i hi
      cases i with
      | zero =>
        cases p with
        | none => rfl
        | some b => cases hp
      | succ i => exact h i (Nat.lt_of_succ_lt_succ hi)
    · intro h
      refine ⟨?_, fun i hi => h (i + 1) (Nat.succ_lt_succ hi)⟩
      cases p with
      | none => rfl
      | some b => exact absurd (h 0 (Nat.succ_pos _)) Bool.noConfusion

/-- Behind the first null pointer there are only others. -/
theorem reduceOption_dropWhile {ps : List (Option α)} : (ps.dropWhile Option.isSome).reduceOption = [] ↔
    ∀ i j, i < j → j < ps.length → (ps.getD j none).isSome = true → (ps.getD i none).isSome = true := by
  induction ps with
  | nil => exact iff_of_true rfl fun i j _ hj => absurd hj (Nat.not_lt_zero j)
  | cons p ps ih =>
    cases p with
    | none =>
      rw [List.dropWhile_cons_of_neg Bool.false_ne_true, reduceOption_cons]
      show ps.reduceOption = [] ↔ _
      rw [reduceOption_eq_nil]
      constructor
      · intro h i j hij hj hsome
        obtain ⟨j, rfl⟩ := Nat.exists_eq_add_of_lt (Nat.lt_of_le_of_lt (Nat.zero_le i) hij)
        rw [Nat.zero_add] at hj hsome
        have hnone := h j (Nat.lt_of_succ_lt_succ hj)
        rw [List.getD_cons_succ, hnone] at hsome
        cases hsome
      · intro h i hi
        by_contra hsome
        exact absurd (h 0 (i + 1) (Nat.succ_pos i) (Nat.succ_lt_succ hi) (eq_true_of_ne_false hsome))
          Bool.false_ne_true
    | some b =>
      rw [List.dropWhile_cons_of_pos rfl, ih]
      constructor
      · intro h i j hij hj hsome
        cases i with
        | zero => rfl
        | succ i =>
          cases j with
          | zero => exact absurd hij (Nat.not_lt_zero _)
          | succ j => exact h i j (Nat.lt_of_succ_lt_succ hij) (Nat.lt_of_succ_lt_succ hj) hsome
      · exact fun h i j hij hj hsome => h (i + 1) (j + 1) (Nat.succ_lt_succ hij) (Nat.succ_lt_succ hj) hsome

end

namespace Ledger

def start : Ledger := ⟨0, [], []⟩

/-- A buffer is taken, if there is one. -/
def take (s : Ledger) (ok : Bool) : Option Nat × Ledger :=
  if ok then (some s.next, ⟨s.next + 1, s.obtained ++ [s.next], s.freed⟩)
  else (none, { s with next := s.next + 1 })

/-- A buffer is given back; nothing happens for a null pointer. -/
def give (s : Ledger) (p : Option Nat) : Ledger := { s with freed := s.freed ++ p.toList }

def giveAll (s : Ledger) (ps : List (Option Nat)) : Ledger := ps.foldl give s

/-- Each buffer was given back once. -/
def Settled (s : Ledger) : Prop := ∀ b ∈ s.obtained, s.freed.count b = 1

instance : DecidablePred Settled := fun s => inferInstanceAs (Decidable (∀ b ∈ s.obtained, s.freed.count b = 1))

/-- No buffer is there twice. -/
structure Numbered (s : Ledger) : Prop where
  lt : ∀ b ∈ s.obtained, b < s.next
  nodup : s.obtained.Nodup

variable {s : Ledger} {ok : Bool} {p : Option Nat}

@[simp] theorem take_next : (s.take ok).2.next = s.next + 1 := by
  cases ok <;> rfl

@[simp] theorem take_obtained : (s.take ok).2.obtained = s.obtained ++ (s.take ok).1.toList := by
  cases ok with
  | false => exact (List.append_nil _).symm
  | true => rfl

@[simp] theorem take_freed : (s.take ok).2.freed = s.freed := by
  cases ok <;> rfl

@[simp] theorem take_isSome : (s.take ok).1.isSome = ok := by
  cases ok <;> rfl

theorem take_toList : (s.take ok).1.toList = [] ↔ ok = false := by
  cases ok with
  | false => exact iff_of_true rfl rfl
  | true => exact iff_of_false (List.cons_ne_nil _ _) Bool.noConfusion

@[simp] theorem give_next : (s.give p).next = s.next := rfl

@[simp] theorem give_obtained : (s.give p).obtained = s.obtained := rfl

@[simp] theorem give_freed : (s.give p).freed = s.freed ++ p.toList := rfl

theorem giveAll_obtained (ps : List (Option Nat)) : (s.giveAll ps).obtained = s.obtained := by
  induction ps generalizing s with
  | nil => rfl
  | cons p ps ih => exact ih

theorem giveAll_freed (ps : List (Option Nat)) : (s.giveAll ps).freed = s.freed ++ ps.reduceOption := by
  induction ps generalizing s with
  | nil => exact (List.append_nil _).symm
  | cons p ps ih =>
    show ((s.give p).giveAll ps).freed = _
    rw [ih, give_freed, List.append_assoc]
    cases p <;> rfl

theorem start_numbered : start.Numbered := ⟨fun _ h => absurd h List.not_mem_nil, List.nodup_nil⟩

theorem Numbered.take (h : s.Numbered) : (s.take ok).2.Numbered := by
  cases ok with
  | false => exact ⟨fun b hb => Nat.lt_succ_of_lt (h.lt b hb), h.nodup⟩
  | true =>
    refine ⟨fun b hb => ?_, ?_⟩
    · cases List.mem_append.mp hb with
      | inl hin => exact Nat.lt_succ_of_lt (h.lt b hin)
      | inr hin => exact (List.mem_singleton.mp hin) ▸ Nat.lt_succ_self s.next
    · refine List.nodup_append.mpr ⟨h.nodup, List.nodup_singleton _, fun a ha b hb hab => ?_⟩
      rw [List.mem_singleton.mp hb] at hab
      exact Nat.lt_irrefl _ (hab ▸ h.lt a ha)

theorem Numbered.give (h : s.Numbered) : (s.give p).Numbered := ⟨h.lt, h.nodup⟩

theorem Numbered.giveAll (h : s.Numbered) (ps : List (Option Nat)) : (s.giveAll ps).Numbered := by
  induction ps generalizing s with
  | nil => exact h
  | cons p ps ih => exact ih h.give

/-- **What was given back** is everything exactly if nothing was kept. -/
theorem settled_iff (h : s.Numbered) {given kept : List Nat} (hobtained : s.obtained.Perm (given ++ kept))
    (hfreed : s.freed.Perm given) : s.Settled ↔ kept = [] := by
  have hnodup := hobtained.nodup_iff.mp h.nodup
  constructor
  · intro hsettled
    apply List.eq_nil_iff_forall_not_mem.mpr
    intro b hb
    have hcount := hsettled b (hobtained.mem_iff.mpr (List.mem_append_right _ hb))
    have hgiven : b ∉ given := fun hin => (List.nodup_append.mp hnodup).2.2 b hin b hb rfl
    rw [hfreed.count_eq, List.count_eq_zero_of_not_mem hgiven] at hcount
    exact absurd hcount Nat.zero_ne_one
  · rintro rfl b hb
    rw [List.append_nil] at hobtained hnodup
    rw [hfreed.count_eq]
    exact List.count_eq_one_of_mem hnodup (hobtained.mem_iff.mp hb)

end Ledger

end Desiros.Library
