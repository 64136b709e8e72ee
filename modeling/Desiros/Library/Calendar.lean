import Mathlib

/-!
# The proleptic Gregorian calendar

Days are counted from January 1, 1970, which is day 0: `yearStart` counts the days of the years in between, and
`monthStart` those of the months of a year. A date is the only one of its day (`Date.number_inj`), and `yearStart` has a
closed form (`yearStart_eq`). Months are numbered from 0 and days of a month from 1.
-/

namespace Desiros.Library

def IsLeap (y : Int) : Prop := y % 4 = 0 ∧ (y % 100 ≠ 0 ∨ y % 400 = 0)

instance : DecidablePred IsLeap := fun y => inferInstanceAs (Decidable (y % 4 = 0 ∧ (y % 100 ≠ 0 ∨ y % 400 = 0)))

def yearLength (y : Int) : Int := if IsLeap y then 366 else 365

def monthLength (y : Int) : Nat → Int
  | 1 => if IsLeap y then 29 else 28
  | 3 | 5 | 8 | 10 => 30
  | _ => 31

/-- The day on which a year begins. -/
def yearStart (y : Int) : Int :=
  ∑ k ∈ Finset.range (y - 1970).toNat, yearLength (1970 + k) -
    ∑ k ∈ Finset.range (1970 - y).toNat, yearLength (1969 - k)

/-- The day of the year on which a month begins. -/
def monthStart (y : Int) (m : Nat) : Int := ∑ k ∈ Finset.range m, monthLength y k

structure Date where
  year : Int
  month : Nat
  day : Int
deriving DecidableEq, Repr

namespace Date

def Valid (d : Date) : Prop := d.month < 12 ∧ 1 ≤ d.day ∧ d.day ≤ monthLength d.year d.month

/-- The number of days since January 1, 1970. -/
def number (d : Date) : Int := yearStart d.year + monthStart d.year d.month + (d.day - 1)

end Date

section

variable {y y' n : Int} {m m' : Nat}

theorem monthLength_pos (y : Int) (m : Nat) : 28 ≤ monthLength y m := by
  unfold monthLength
  split
  · split_ifs <;> decide
  all_goals decide

theorem monthLength_le (y : Int) (m : Nat) : monthLength y m ≤ 31 := by
  unfold monthLength
  split
  · split_ifs <;> decide
  all_goals decide

theorem yearLength_pos (y : Int) : 0 < yearLength y := by
  unfold yearLength
  split_ifs <;> decide

theorem monthStart_succ (y : Int) (m : Nat) : monthStart y (m + 1) = monthStart y m + monthLength y m :=
  Finset.sum_range_succ _ m

/-- The months of a year make up the year. -/
theorem monthStart_twelve (y : Int) : monthStart y 12 = yearLength y := by
  unfold monthStart yearLength
  by_cases h : IsLeap y
  · simp [Finset.sum_range_succ, monthLength, h]
  · simp [Finset.sum_range_succ, monthLength, h]

theorem yearStart_1970 : yearStart 1970 = 0 := rfl

theorem yearStart_succ (y : Int) : yearStart (y + 1) = yearStart y + yearLength y := by
  unfold yearStart
  by_cases hy : 1970 ≤ y
  · obtain ⟨n, hn⟩ := Int.eq_ofNat_of_zero_le (sub_nonneg.mpr hy)
    rw [show (y + 1 - 1970).toNat = n + 1 by omega, show (1970 - (y + 1)).toNat = 0 by omega,
      show (y - 1970).toNat = n by omega, show (1970 - y).toNat = 0 by omega, Finset.sum_range_succ,
      show 1970 + (n : Int) = y by omega]
    ring
  · obtain ⟨n, hn⟩ := Int.eq_ofNat_of_zero_le (show 0 ≤ 1969 - y by omega)
    rw [show (y + 1 - 1970).toNat = 0 by omega, show (1970 - (y + 1)).toNat = n by omega,
      show (y - 1970).toNat = 0 by omega, show (1970 - y).toNat = n + 1 by omega,
      Finset.sum_range_succ (fun k : Nat => yearLength (1969 - k)), show 1969 - (n : Int) = y by omega]
    ring

theorem yearStart_strictMono : StrictMono yearStart := by
  apply strictMono_int_of_lt_succ
  intro y
  rw [yearStart_succ]
  exact Int.lt_add_of_pos_right _ (yearLength_pos y)

theorem monthStart_strictMono (y : Int) : StrictMono (monthStart y) := by
  apply strictMono_nat_of_lt_succ
  intro m
  rw [monthStart_succ]
  exact Int.lt_add_of_pos_right _ (lt_of_lt_of_le (by decide) (monthLength_pos y m))

/-- Where a strictly monotone function passes a number. -/
theorem passes_unique {ι : Type*} [LinearOrder ι] {f : ι → Int} (hf : StrictMono f) {succ : ι → ι}
    (hsucc : ∀ i j, i < succ j → i ≤ j) {i j : ι} (hi : f i ≤ n) (hi' : n < f (succ i)) (hj : f j ≤ n)
    (hj' : n < f (succ j)) : i = j :=
  le_antisymm (hsucc i j (hf.lt_iff_lt.mp (lt_of_le_of_lt hi hj')))
    (hsucc j i (hf.lt_iff_lt.mp (lt_of_le_of_lt hj hi')))

namespace Date

variable {d e : Date}

/-- A date lies in its year. -/
theorem Valid.within (h : d.Valid) :
    monthStart d.year d.month ≤ d.number - yearStart d.year ∧
      d.number - yearStart d.year < monthStart d.year (d.month + 1) ∧
      0 ≤ d.number - yearStart d.year ∧ d.number < yearStart (d.year + 1) := by
  obtain ⟨hmonth, hlow, hhigh⟩ := h
  have hstart : 0 ≤ monthStart d.year d.month := (monthStart_strictMono d.year).monotone (Nat.zero_le _)
  have hend := (monthStart_strictMono d.year).monotone (show d.month + 1 ≤ 12 from hmonth)
  have hnumber : d.number = yearStart d.year + monthStart d.year d.month + (d.day - 1) := rfl
  rw [monthStart_twelve, monthStart_succ] at hend
  rw [yearStart_succ, monthStart_succ]
  refine ⟨?_, ?_, ?_, ?_⟩ <;> omega

/-- **A day has one date.** -/
theorem number_inj (hd : d.Valid) (he : e.Valid) (h : d.number = e.number) : d = e := by
  obtain ⟨hd1, hd2, hd3, hd4⟩ := hd.within
  obtain ⟨he1, he2, he3, he4⟩ := he.within
  have hyear : d.year = e.year := by
    refine @passes_unique d.number Int _ yearStart yearStart_strictMono (· + 1) (fun i j => Int.le_of_lt_add_one) _ _
      ?_ hd4 ?_ ?_
    · omega
    · omega
    · rw [h]
      exact he4
  rw [h, hyear] at hd1 hd2
  have hmonth : d.month = e.month :=
    @passes_unique _ Nat _ (monthStart e.year) (monthStart_strictMono e.year) (· + 1) (fun i j => Nat.le_of_lt_succ) _ _
      hd1 hd2 he1 he2
  have hnumber : yearStart d.year + monthStart d.year d.month + (d.day - 1) =
      yearStart e.year + monthStart e.year e.month + (e.day - 1) := h
  rw [hyear, hmonth] at hnumber
  obtain ⟨y, m, k⟩ := d
  obtain ⟨y', m', k'⟩ := e
  dsimp only at hyear hmonth hnumber
  rw [hyear, hmonth, show k = k' by omega]

end Date

/-- Two functions with the same steps. -/
theorem eq_of_steps {f g : Int → Int} (hstart : f 1970 = g 1970) (hstep : ∀ y, f (y + 1) - f y = g (y + 1) - g y)
    (y : Int) : f y = g y := by
  have hup : ∀ n : Nat, f (1970 + n) = g (1970 + n) := by
    intro n
    induction n with
    | zero => exact hstart
    | succ n ih =>
      have := hstep (1970 + n)
      rw [show 1970 + ((n + 1 : Nat) : Int) = 1970 + n + 1 by omega]
      omega
  have hdown : ∀ n : Nat, f (1970 - n) = g (1970 - n) := by
    intro n
    induction n with
    | zero => exact hstart
    | succ n ih =>
      have hlast := hstep (1970 - (n + 1 : Nat))
      rw [show 1970 - ((n + 1 : Nat) : Int) + 1 = 1970 - n by omega] at hlast
      omega
  by_cases hy : 1970 ≤ y
  · rw [show y = 1970 + ((y - 1970).toNat : Int) by omega]
    exact hup _
  · rw [show y = 1970 - ((1970 - y).toNat : Int) by omega]
    exact hdown _

/-- **The number of leap years** in closed form. -/
theorem yearStart_eq (y : Int) :
    yearStart y = 365 * (y - 1970) + ((y - 1) / 4 - 492) - ((y - 1) / 100 - 19) + ((y - 1) / 400 - 4) := by
  refine @eq_of_steps yearStart (fun y => 365 * (y - 1970) + ((y - 1) / 4 - 492) - ((y - 1) / 100 - 19) +
    ((y - 1) / 400 - 4)) (by decide) ?_ y
  intro y
  rw [yearStart_succ]
  by_cases hleap : IsLeap y
  · rw [yearLength, if_pos hleap]
    unfold IsLeap at hleap
    omega
  · rw [yearLength, if_neg hleap]
    unfold IsLeap at hleap
    omega

end

end Desiros.Library
