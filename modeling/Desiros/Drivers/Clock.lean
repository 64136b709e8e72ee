import Desiros.Library.Calendar
import Mathlib.Data.UInt
import Mathlib.Tactic.IntervalCases

/-!
# The date of the clock (`clock.c`)

`clockMktime` normalises the fields of a `struct tm` and counts the seconds since 1970. Every sum and product of `int`
or `long` is checked (`int32`), except for the product of the days and the seconds of a day, which wraps around. The
calendar is that of `Desiros.Library.Calendar`: `clockMktime_right`.
-/

namespace Desiros.Drivers

open Desiros.Library

/-! ## The function -/

structure Tm where
  tmSec : Int
  tmMin : Int
  tmHour : Int
  tmMday : Int
  tmMon : Int
  tmYear : Int
  tmWday : Int
  tmYday : Int
  tmIsdst : Int
deriving DecidableEq, Repr

inductive MktimeFault where
  | overflow
  /-- A loop that did not end in time. -/
  | endless
deriving DecidableEq, Repr

/-- The value of an expression of type `int` or `long`. -/
def int32 (x : Int) : Except MktimeFault Int :=
  if -2147483648 ≤ x ∧ x < 2147483648 then .ok x else .error .overflow

def leapyear (year : Int) : Bool := year.tmod 4 == 0 && (year.tmod 100 != 0 || year.tmod 400 == 0)

def ytab (leap : Bool) (month : Int) : Int :=
  (if leap then [31, 29, 31, 30, 31, 30, 31, 31, 30, 31, 30, 31]
    else [31, 28, 31, 30, 31, 30, 31, 31, 30, 31, 30, 31]).getD month.toNat 0

/-- `high += low / n; low %= n; if (low < 0) { low += n; high--; }` -/
def carry (high low n : Int) : Except MktimeFault (Int × Int) := do
  let high ← int32 (high + low.tdiv n)
  if low.tmod n < 0 then
    let high ← int32 (high - 1)
    pure (high, low.tmod n + n)
  else pure (high, low.tmod n)

/-- `_ytab[LEAPYEAR(YEAR0 + timep->tm_year)][timep->tm_mon]` -/
def monthDays (tmYear tmMon : Int) : Except MktimeFault Int := do
  let year ← int32 (1900 + tmYear)
  pure (ytab (leapyear year) tmMon)

/-- `if (--timep->tm_mon < 0) { timep->tm_year--; timep->tm_mon = 11; }` -/
def lastMonth (tmYear tmMon : Int) : Except MktimeFault (Int × Int) := do
  let tmMon ← int32 (tmMon - 1)
  if tmMon < 0 then
    let tmYear ← int32 (tmYear - 1)
    pure (tmYear, 11)
  else pure (tmYear, tmMon)

/-- `if (++(timep->tm_mon) == 12) { timep->tm_mon = 0; timep->tm_year++; }` -/
def nextMonth (tmYear tmMon : Int) : Except MktimeFault (Int × Int) := do
  let tmMon ← int32 (tmMon + 1)
  if tmMon = 12 then
    let tmYear ← int32 (tmYear + 1)
    pure (tmYear, 0)
  else pure (tmYear, tmMon)

/-- `while (day < 0)`: the year, the month and the days left. -/
def borrowMonths : Nat → Int → Int → Int → Except MktimeFault (Int × Int × Int)
  | 0, _, _, _ => .error .endless
  | fuel + 1, tmYear, tmMon, day =>
    if day < 0 then do
      let month ← lastMonth tmYear tmMon
      let days ← monthDays month.1 month.2
      let day ← int32 (day + days)
      borrowMonths fuel month.1 month.2 day
    else pure (tmYear, tmMon, day)

/-- `while (day >= _ytab[...][timep->tm_mon])` -/
def spendMonths : Nat → Int → Int → Int → Except MktimeFault (Int × Int × Int)
  | 0, _, _, _ => .error .endless
  | fuel + 1, tmYear, tmMon, day => do
    let days ← monthDays tmYear tmMon
    if day ≥ days then
      let day ← int32 (day - days)
      let month ← nextMonth tmYear tmMon
      spendMonths fuel month.1 month.2 day
    else pure (tmYear, tmMon, day)

/-- The fields in their ranges. -/
def normalise (fuel : Nat) (timep : Tm) : Except MktimeFault Tm := do
  let minutes ← carry timep.tmMin timep.tmSec 60
  let hours ← carry timep.tmHour minutes.1 60
  let days ← carry 0 hours.1 24
  let years ← carry timep.tmYear timep.tmMon 12
  let mday ← int32 (timep.tmMday - 1)
  let day ← int32 (days.1 + mday)
  let month ← borrowMonths fuel years.1 years.2 day
  let month ← spendMonths fuel month.1 month.2.1 month.2.2
  pure { timep with
    tmSec := minutes.2
    tmMin := hours.2
    tmHour := days.2
    tmMday := month.2.2 + 1
    tmMon := month.2.1
    tmYear := month.1 }

/-- `(tm_year % n) && tm_year % n < year % n` -/
def partOfCycle (tmYear year n : Int) : Int := if tmYear.tmod n ≠ 0 ∧ tmYear.tmod n < year.tmod n then 1 else 0

/-- The days of the years from 1970 to `tm_year`, and whether the first two tests for an overflow fail. -/
def daysOfYears (tmYear : Int) : Except MktimeFault (Int × Bool) := do
  let years ← int32 (tmYear - 1970)
  let day ← int32 (years * 365)
  let overflow := decide ((2147483647 : Int).tdiv 365 < years) || decide (2147483647 - day < years.tdiv 4 + 1)
  let day ← int32 (day + (years.tdiv 4 + partOfCycle tmYear 1970 4))
  let day ← int32 (day - (years.tdiv 100 + partOfCycle tmYear 1970 100))
  let day ← int32 (day + (years.tdiv 400 + partOfCycle tmYear 1970 400))
  pure (day, overflow)

/-- The loop over the months in front of `tm_mon`. -/
def daysOfMonths (tmYear tmMon : Int) : Int :=
  ((List.range tmMon.toNat).map fun month : Nat => ytab (leapyear tmYear) month).sum

/-- `(time_t)-1` -/
def timeError : UInt32 := 0xFFFFFFFF

/-- The seconds since 1970, `tm_yday` and `tm_wday`, for a date from then on. -/
def countSeconds (timep : Tm) : Except MktimeFault (UInt32 × Int × Int) := do
  let tmYear ← int32 (timep.tmYear + 1900)
  let (day, overflow) ← daysOfYears tmYear
  let yday := daysOfMonths tmYear timep.tmMon + (timep.tmMday - 1)
  let overflow := overflow || decide (day + yday < 0)
  let day ← int32 (day + yday)
  let wday ← int32 (day + 4)
  let seconds := UInt32.ofInt ((timep.tmHour * 60 + timep.tmMin) * 60 + timep.tmSec)
  let overflow := overflow || decide ((0xFFFFFFFF - seconds) / 86400 < UInt32.ofInt day)
  pure (if overflow then timeError else seconds + UInt32.ofInt day * 86400, yday, wday.tmod 7)

/-- The value that `clock_mktime` returns, and what it leaves in `*timep`. -/
def clockMktime (fuel : Nat) (timep : Tm) : Except MktimeFault (UInt32 × Tm) := do
  let timep ← normalise fuel timep
  if timep.tmYear < 1970 - 1900 then pure (timeError, timep)
  else
    let (seconds, yday, wday) ← countSeconds timep
    pure (seconds, { timep with
      tmYday := yday
      tmWday := wday })

/-! ## What is meant -/

def Tm.date (t : Tm) : Date := ⟨t.tmYear + 1900, t.tmMon.toNat, t.tmMday⟩

/-- The fields are in their ranges. -/
structure Tm.InRange (t : Tm) : Prop where
  sec : 0 ≤ t.tmSec ∧ t.tmSec < 60
  min : 0 ≤ t.tmMin ∧ t.tmMin < 60
  hour : 0 ≤ t.tmHour ∧ t.tmHour < 24
  mon : 0 ≤ t.tmMon
  date : t.date.Valid

/-- The day on which a month of a year begins. -/
def monthFirst (tmYear tmMon : Int) : Int := yearStart (tmYear + 1900) + monthStart (tmYear + 1900) tmMon.toNat

/-- The seconds from 1970-01-01 00:00:00, whatever the ranges of the fields. -/
def Tm.instant (t : Tm) : Int :=
  (monthFirst (t.tmYear + t.tmMon / 12) (t.tmMon % 12) + (t.tmMday - 1)) * 86400 + t.tmHour * 3600 + t.tmMin * 60 +
    t.tmSec

/-- The same date and time. -/
def Tm.SameTime (t u : Tm) : Prop :=
  t.tmSec = u.tmSec ∧ t.tmMin = u.tmMin ∧ t.tmHour = u.tmHour ∧ t.tmMday = u.tmMday ∧ t.tmMon = u.tmMon ∧
    t.tmYear = u.tmYear

/-- The result for `t` that `clock_mktime` is meant to have. -/
structure MktimeRight (t : Tm) (r : UInt32) (t' : Tm) : Prop where
  inRange : t'.InRange
  instant : t'.instant = t.instant
  unique : ∀ u : Tm, u.InRange → u.instant = t.instant → u.SameTime t'
  yday : 70 ≤ t'.tmYear → t'.tmYday = t'.date.number - yearStart (t'.tmYear + 1900)
  wday : 70 ≤ t'.tmYear → t'.tmWday = (t'.date.number + 4) % 7
  isdst : t'.tmIsdst = t.tmIsdst
  value : r.toNat = if 70 ≤ t'.tmYear ∧ t.instant < 4294967296 then t.instant else 4294967295

/-! ## Checked arithmetic -/

/-- A computation overflows, or comes to a result with the property. -/
def Fits {α : Type} (P : α → Prop) (x : Except MktimeFault α) : Prop :=
  x = .error .overflow ∨ ∃ a, x = .ok a ∧ P a

section

variable {α β : Type} {P Q : α → Prop} {x : Except MktimeFault α}

theorem Fits.pure {a : α} (h : P a) : Fits P (.ok a) := Or.inr ⟨a, rfl, h⟩

theorem Fits.mono (h : Fits Q x) (himp : ∀ a, Q a → P a) : Fits P x :=
  h.imp_right fun ⟨a, ha, hq⟩ => ⟨a, ha, himp a hq⟩

/-- The rule of sequential composition. -/
theorem Fits.bind {R : β → Prop} {f : α → Except MktimeFault β} (h : Fits Q x) (hf : ∀ a, Q a → Fits R (f a)) :
    Fits R (x >>= f) := by
  rcases h with hx | ⟨a, hx, hq⟩
  · rw [hx]
    exact Or.inl rfl
  · rw [hx]
    exact hf a hq

theorem Fits.ok {a : α} (h : Fits P x) (hx : x = .ok a) : P a := by
  rcases h with he | ⟨b, hb, hp⟩
  · rw [he] at hx
    cases hx
  · rw [hx] at hb
    exact Except.ok.inj hb ▸ hp

end

/-- A value of type `int`. -/
def InInt (x : Int) : Prop := -2147483648 ≤ x ∧ x < 2147483648

theorem int32_of_inInt {x : Int} (h : InInt x) : int32 x = .ok x := if_pos h

theorem int32_fits (x : Int) : Fits (fun y => y = x ∧ InInt x) (int32 x) := by
  by_cases h : InInt x
  · exact Or.inr ⟨x, int32_of_inInt h, rfl, h⟩
  · exact Or.inl (if_neg h)

/-- Truncated division and its remainder, with the remainder made positive. -/
theorem tdiv_tmod_cases {n : Int} (hn : 0 < n) (low : Int) :
    (low.tmod n < 0 ∧ low.tdiv n - 1 = low / n ∧ low.tmod n + n = low % n) ∨
      (¬ low.tmod n < 0 ∧ low.tdiv n = low / n ∧ low.tmod n = low % n) := by
  have hdiv := Int.tdiv_eq_ediv (a := low) (b := n)
  have hmod := Int.tmod_eq_emod (a := low) (b := n)
  have hpos := Int.emod_nonneg low (ne_of_gt hn)
  have hlt := Int.emod_lt_of_pos low hn
  by_cases h : 0 ≤ low ∨ n ∣ low
  · rw [if_pos h] at hdiv hmod
    right
    omega
  · rw [if_neg h, Int.sign_eq_one_of_pos hn] at hdiv
    rw [if_neg h, Int.natAbs_of_nonneg (le_of_lt hn)] at hmod
    left
    omega

theorem carry_fits {n : Int} (hn : 0 < n) (high low : Int) :
    Fits (fun r => r = (high + low / n, low % n) ∧ InInt (high + low / n)) (carry high low n) := by
  unfold carry
  refine (int32_fits _).bind ?_
  rintro q ⟨rfl, hq⟩
  rcases tdiv_tmod_cases hn low with ⟨hneg, hdiv, hmod⟩ | ⟨hneg, hdiv, hmod⟩
  · rw [if_pos hneg]
    refine (int32_fits _).bind ?_
    rintro q ⟨rfl, hq⟩
    rw [add_sub_assoc, hdiv] at hq ⊢
    exact Fits.pure ⟨by rw [hmod], hq⟩
  · rw [if_neg hneg]
    rw [hdiv] at hq ⊢
    exact Fits.pure ⟨by rw [hmod], hq⟩

/-! ## The months -/

theorem tmod_eq_zero {y n : Int} : y.tmod n = 0 ↔ y % n = 0 := by
  rw [← Int.dvd_iff_tmod_eq_zero, ← Int.dvd_iff_emod_eq_zero]

theorem leapyear_iff (y : Int) : leapyear y = true ↔ IsLeap y := by
  unfold leapyear IsLeap
  simp only [Bool.and_eq_true, Bool.or_eq_true, bne_iff_ne, beq_iff_eq, ne_eq, tmod_eq_zero]

theorem ytab_eq (y : Int) {m : Nat} (hm : m < 12) : ytab (leapyear y) m = monthLength y m := by
  unfold ytab
  by_cases h : IsLeap y
  · rw [if_pos ((leapyear_iff y).mpr h), Int.toNat_natCast]
    interval_cases m <;> simp [monthLength, h]
  · rw [if_neg fun hl => h ((leapyear_iff y).mp hl), Int.toNat_natCast]
    interval_cases m <;> simp [monthLength, h]

theorem daysOfMonths_eq (y : Int) {tmMon : Int} (hmon : tmMon.toNat ≤ 12) :
    daysOfMonths y tmMon = monthStart y tmMon.toNat := by
  unfold daysOfMonths
  generalize tmMon.toNat = m at hmon
  induction m with
  | zero => rfl
  | succ m ih =>
    rw [List.range_succ, List.map_append, List.sum_append, ih (Nat.le_of_succ_le hmon), monthStart_succ,
      ← ytab_eq y (show m < 12 from hmon)]
    simp

theorem monthDays_fits (tmYear : Int) {tmMon : Int} (hlow : 0 ≤ tmMon) (hhigh : tmMon < 12) :
    Fits (fun days => days = monthLength (tmYear + 1900) tmMon.toNat ∧ InInt (tmYear + 1900))
      (monthDays tmYear tmMon) := by
  unfold monthDays
  rw [Int.add_comm 1900]
  refine (int32_fits _).bind ?_
  rintro year ⟨rfl, hyear⟩
  rw [← ytab_eq (tmYear + 1900) (show tmMon.toNat < 12 by omega), Int.toNat_of_nonneg hlow]
  exact Fits.pure ⟨rfl, hyear⟩

/-- The month behind a month. -/
theorem monthFirst_succ (tmYear : Int) {tmMon : Int} (hlow : 0 ≤ tmMon) (hhigh : tmMon < 12) :
    monthFirst tmYear tmMon + monthLength (tmYear + 1900) tmMon.toNat =
      if tmMon + 1 = 12 then monthFirst (tmYear + 1) 0 else monthFirst tmYear (tmMon + 1) := by
  unfold monthFirst
  rw [add_assoc, ← monthStart_succ]
  split_ifs with hlast
  · rw [show tmMon.toNat + 1 = 12 by omega, monthStart_twelve, ← yearStart_succ,
      show tmYear + 1900 + 1 = tmYear + 1 + 1900 by omega]
    exact (add_zero _).symm
  · rw [show (tmMon + 1).toNat = tmMon.toNat + 1 by omega]

/-- What the loops keep: the month is one of the year, and the day that is meant. -/
structure SameDay (tmYear tmMon day : Int) (r : Int × Int × Int) : Prop where
  year : InInt r.1
  mon : 0 ≤ r.2.1 ∧ r.2.1 < 12
  day : monthFirst r.1 r.2.1 + r.2.2 = monthFirst tmYear tmMon + day

theorem lastMonth_fits {tmYear tmMon : Int} (hyear : InInt tmYear) (hlow : 0 ≤ tmMon) (hhigh : tmMon < 12) :
    Fits (fun m => InInt m.1 ∧ (0 ≤ m.2 ∧ m.2 < 12) ∧
      monthFirst m.1 m.2 + monthLength (m.1 + 1900) m.2.toNat = monthFirst tmYear tmMon) (lastMonth tmYear tmMon) := by
  unfold lastMonth
  refine (int32_fits _).bind ?_
  rintro mon ⟨rfl, -⟩
  by_cases hzero : tmMon - 1 < 0
  · rw [if_pos hzero]
    refine (int32_fits _).bind ?_
    rintro y ⟨rfl, hy⟩
    refine Fits.pure ⟨hy, ⟨by dsimp only; decide, by dsimp only; decide⟩, ?_⟩
    dsimp only
    rw [monthFirst_succ (tmYear - 1) (by decide) (by decide), if_pos (by decide), sub_add_cancel,
      show tmMon = 0 by omega]
  · rw [if_neg hzero]
    refine Fits.pure ⟨hyear, ⟨by omega, by omega⟩, ?_⟩
    rw [monthFirst_succ tmYear (by omega) (by omega), if_neg (by omega), sub_add_cancel]

theorem nextMonth_fits {tmYear tmMon : Int} (hyear : InInt tmYear) (hlow : 0 ≤ tmMon) (hhigh : tmMon < 12) :
    Fits (fun m => InInt m.1 ∧ (0 ≤ m.2 ∧ m.2 < 12) ∧
      monthFirst m.1 m.2 = monthFirst tmYear tmMon + monthLength (tmYear + 1900) tmMon.toNat)
      (nextMonth tmYear tmMon) := by
  unfold nextMonth
  have hnext := monthFirst_succ tmYear hlow hhigh
  refine (int32_fits _).bind ?_
  rintro mon ⟨rfl, -⟩
  by_cases hlast : tmMon + 1 = 12
  · rw [if_pos hlast]
    rw [if_pos hlast] at hnext
    refine (int32_fits _).bind ?_
    rintro y ⟨rfl, hy⟩
    exact Fits.pure ⟨hy, ⟨by dsimp only; decide, by dsimp only; decide⟩, hnext.symm⟩
  · rw [if_neg hlast]
    rw [if_neg hlast] at hnext
    exact Fits.pure ⟨hyear, ⟨by omega, by omega⟩, hnext.symm⟩

theorem borrowMonths_fits {fuel : Nat} {tmYear tmMon day : Int} (hyear : InInt tmYear) (hlow : 0 ≤ tmMon)
    (hhigh : tmMon < 12) (hfuel : (-day).toNat < fuel) :
    Fits (fun r => SameDay tmYear tmMon day r ∧ 0 ≤ r.2.2 ∧ r.2.2 ≤ max day 30)
      (borrowMonths fuel tmYear tmMon day) := by
  induction fuel generalizing tmYear tmMon day with
  | zero => exact absurd hfuel (Nat.not_lt_zero _)
  | succ fuel ih =>
    unfold borrowMonths
    by_cases hday : day < 0
    · rw [if_pos hday]
      refine (lastMonth_fits hyear hlow hhigh).bind ?_
      rintro m ⟨hy, hmon, hfirst⟩
      have hpos := monthLength_pos (m.1 + 1900) m.2.toNat
      have hle := monthLength_le (m.1 + 1900) m.2.toNat
      refine (monthDays_fits m.1 hmon.1 hmon.2).bind ?_
      rintro days ⟨rfl, -⟩
      refine (int32_fits _).bind ?_
      rintro d ⟨rfl, -⟩
      refine (ih hy hmon.1 hmon.2 (by omega)).mono ?_
      rintro r ⟨hsame, hnonneg, hmax⟩
      refine ⟨⟨hsame.year, hsame.mon, ?_⟩, hnonneg, by omega⟩
      rw [hsame.day]
      omega
    · rw [if_neg hday]
      exact Fits.pure ⟨⟨hyear, ⟨hlow, hhigh⟩, rfl⟩, not_lt.mp hday, le_max_left _ _⟩

theorem spendMonths_fits {fuel : Nat} {tmYear tmMon day : Int} (hyear : InInt tmYear) (hlow : 0 ≤ tmMon)
    (hhigh : tmMon < 12) (hday : 0 ≤ day) (hfuel : day.toNat < fuel) :
    Fits (fun r => SameDay tmYear tmMon day r ∧ 0 ≤ r.2.2 ∧ r.2.2 < monthLength (r.1 + 1900) r.2.1.toNat ∧
      InInt (r.1 + 1900)) (spendMonths fuel tmYear tmMon day) := by
  induction fuel generalizing tmYear tmMon day with
  | zero => exact absurd hfuel (Nat.not_lt_zero _)
  | succ fuel ih =>
    unfold spendMonths
    have hpos := monthLength_pos (tmYear + 1900) tmMon.toNat
    refine (monthDays_fits tmYear hlow hhigh).bind ?_
    rintro days ⟨rfl, hsum⟩
    by_cases hmore : day ≥ monthLength (tmYear + 1900) tmMon.toNat
    · rw [if_pos hmore]
      refine (int32_fits _).bind ?_
      rintro d ⟨rfl, -⟩
      refine (nextMonth_fits hyear hlow hhigh).bind ?_
      rintro m ⟨hy, hmon, hfirst⟩
      refine (ih hy hmon.1 hmon.2 (by omega) (by omega)).mono ?_
      rintro r ⟨hsame, hrange⟩
      refine ⟨⟨hsame.year, hsame.mon, ?_⟩, hrange⟩
      rw [hsame.day]
      omega
    · rw [if_neg hmore]
      exact Fits.pure ⟨⟨hyear, ⟨hlow, hhigh⟩, rfl⟩, hday, not_le.mp hmore, hsum⟩

/-! ## The fields in their ranges -/

/-- The days in the fields from `tm_mday` down. -/
def Tm.days (t : Tm) : Int := (t.tmHour + (t.tmMin + t.tmSec / 60) / 60) / 24 + (t.tmMday - 1)

/-- The fields in their ranges denote the same instant. -/
structure Normalised (t t' : Tm) : Prop where
  inRange : t'.InRange
  instant : t'.instant = t.instant
  isdst : t'.tmIsdst = t.tmIsdst
  year : InInt t'.tmYear
  sum : InInt (t'.tmYear + 1900)

theorem normalise_fits (t : Tm) {fuel : Nat} (hfuel : t.days.natAbs + 31 < fuel) :
    Fits (Normalised t) (normalise fuel t) := by
  unfold normalise
  refine (carry_fits (by decide) _ _).bind ?_
  rintro _ ⟨rfl, -⟩
  refine (carry_fits (by decide) _ _).bind ?_
  rintro _ ⟨rfl, -⟩
  refine (carry_fits (by decide) _ _).bind ?_
  rintro _ ⟨rfl, -⟩
  refine (carry_fits (by decide) _ _).bind ?_
  rintro _ ⟨rfl, hyear⟩
  refine (int32_fits _).bind ?_
  rintro _ ⟨rfl, -⟩
  refine (int32_fits _).bind ?_
  rintro _ ⟨rfl, -⟩
  have hmon := Int.emod_nonneg t.tmMon (show (12 : Int) ≠ 0 by decide)
  have hmon' := Int.emod_lt_of_pos t.tmMon (show (0 : Int) < 12 by decide)
  have hdays : t.days = 0 + (t.tmHour + (t.tmMin + t.tmSec / 60) / 60) / 24 + (t.tmMday - 1) := by
    unfold Tm.days
    omega
  dsimp only
  rw [← hdays]
  refine (borrowMonths_fits hyear hmon hmon' (by omega)).bind ?_
  rintro ⟨y, m, d⟩ ⟨⟨hy, hm, hfirst⟩, hd, hmax⟩
  dsimp only at hy hm hfirst hd hmax ⊢
  refine (spendMonths_fits hy hm.1 hm.2 hd (by omega)).bind ?_
  rintro ⟨y', m', d'⟩ ⟨⟨hy', hm', hfirst'⟩, hd', hlength, hsum⟩
  dsimp only at hy' hm' hfirst' hd' hlength hsum ⊢
  refine Fits.pure ⟨⟨by dsimp only; omega, by dsimp only; omega, by dsimp only; omega, hm'.1,
    ⟨by dsimp only [Tm.date]; omega, by dsimp only [Tm.date]; omega, ?_⟩⟩, ?_, rfl, hy', hsum⟩
  · dsimp only [Tm.date]
    omega
  · unfold Tm.instant
    dsimp only
    rw [Int.ediv_eq_zero_of_lt hm'.1 hm'.2, Int.emod_eq_of_lt hm'.1 hm'.2, add_zero, add_sub_cancel_right, hfirst',
      hfirst, hdays]
    omega

theorem carry_of_inRange {high low n : Int} (hhigh : InInt high) (hlow : 0 ≤ low) (hlt : low < n) :
    carry high low n = .ok (high, low) := by
  unfold carry
  rw [Int.tdiv_eq_zero_of_lt hlow hlt, Int.tmod_eq_of_lt hlow hlt, add_zero, int32_of_inInt hhigh]
  exact if_neg (not_lt.mpr hlow)

theorem borrowMonths_of_nonneg {fuel : Nat} {tmYear tmMon day : Int} (hfuel : 0 < fuel) (hday : 0 ≤ day) :
    borrowMonths fuel tmYear tmMon day = .ok (tmYear, tmMon, day) := by
  obtain ⟨fuel, rfl⟩ := Nat.exists_eq_add_of_lt hfuel
  unfold borrowMonths
  exact if_neg (not_lt.mpr hday)

theorem spendMonths_of_lt {fuel : Nat} {tmYear tmMon day : Int} (hfuel : 0 < fuel) (hlow : 0 ≤ tmMon)
    (hhigh : tmMon < 12) (hyear : InInt (tmYear + 1900)) (hday : day < monthLength (tmYear + 1900) tmMon.toNat) :
    spendMonths fuel tmYear tmMon day = .ok (tmYear, tmMon, day) := by
  obtain ⟨fuel, rfl⟩ := Nat.exists_eq_add_of_lt hfuel
  have hdays : monthDays tmYear tmMon = .ok (monthLength (tmYear + 1900) tmMon.toNat) := by
    unfold monthDays
    rw [Int.add_comm 1900, int32_of_inInt hyear, ← ytab_eq (tmYear + 1900) (show tmMon.toNat < 12 by omega),
      Int.toNat_of_nonneg hlow]
    rfl
  unfold spendMonths
  rw [hdays]
  exact if_neg (not_le.mpr hday)

/-- Fields in their ranges stay as they are. -/
theorem normalise_of_inRange {t : Tm} (h : t.InRange) (hyear : InInt t.tmYear) (hsum : InInt (t.tmYear + 1900))
    {fuel : Nat} (hfuel : 0 < fuel) : normalise fuel t = .ok t := by
  have hsec := h.sec
  have hmin := h.min
  have hhour := h.hour
  have hmon := h.mon
  obtain ⟨hmonth, hday, hday'⟩ := h.date
  have hle := monthLength_le (t.tmYear + 1900) t.tmMon.toNat
  dsimp only [Tm.date] at hmonth hday hday'
  unfold normalise
  rw [carry_of_inRange (show InInt t.tmMin by unfold InInt; omega) hsec.1 hsec.2]
  change carry t.tmHour t.tmMin 60 >>= _ = _
  rw [carry_of_inRange (show InInt t.tmHour by unfold InInt; omega) hmin.1 hmin.2]
  change carry 0 t.tmHour 24 >>= _ = _
  rw [carry_of_inRange (show InInt 0 by unfold InInt; omega) hhour.1 hhour.2]
  change carry t.tmYear t.tmMon 12 >>= _ = _
  rw [carry_of_inRange hyear hmon (by omega)]
  change int32 (t.tmMday - 1) >>= _ = _
  rw [int32_of_inInt (show InInt (t.tmMday - 1) by unfold InInt; omega)]
  change int32 (0 + (t.tmMday - 1)) >>= _ = _
  rw [zero_add, int32_of_inInt (show InInt (t.tmMday - 1) by unfold InInt; omega)]
  change borrowMonths fuel t.tmYear t.tmMon (t.tmMday - 1) >>= _ = _
  rw [borrowMonths_of_nonneg hfuel (by omega)]
  change spendMonths fuel t.tmYear t.tmMon (t.tmMday - 1) >>= _ = _
  rw [spendMonths_of_lt hfuel hmon (by omega) hsum (by omega)]
  change Except.ok { t with tmMday := t.tmMday - 1 + 1 } = _
  rw [sub_add_cancel]

/-! ## The days and the seconds -/

theorem daysOfYears_fits {tmYear : Int} (hyear : 1970 ≤ tmYear) :
    Fits (fun r => r.1 = yearStart tmYear ∧ InInt r.1 ∧ (r.2 = true → 4294967296 ≤ r.1 * 86400))
      (daysOfYears tmYear) := by
  have htdiv : ∀ n, (tmYear - 1970).tdiv n = (tmYear - 1970) / n :=
    fun n => Int.tdiv_eq_ediv_of_nonneg (by omega)
  have htmod : ∀ n, tmYear.tmod n = tmYear % n := fun n => Int.tmod_eq_emod_of_nonneg (by omega)
  have hfour : (tmYear - 1970) / 4 + partOfCycle tmYear 1970 4 = (tmYear - 1) / 4 - 492 := by
    unfold partOfCycle
    rw [htmod, show (1970 : Int).tmod 4 = 2 from rfl]
    split_ifs <;> omega
  have hhundred : (tmYear - 1970) / 100 + partOfCycle tmYear 1970 100 = (tmYear - 1) / 100 - 19 := by
    unfold partOfCycle
    rw [htmod, show (1970 : Int).tmod 100 = 70 from rfl]
    split_ifs <;> omega
  have hcycle : (tmYear - 1970) / 400 + partOfCycle tmYear 1970 400 = (tmYear - 1) / 400 - 4 := by
    unfold partOfCycle
    rw [htmod, show (1970 : Int).tmod 400 = 370 from rfl]
    split_ifs <;> omega
  have hstart := yearStart_eq tmYear
  unfold daysOfYears
  refine (int32_fits _).bind ?_
  rintro _ ⟨rfl, -⟩
  refine (int32_fits _).bind ?_
  rintro _ ⟨rfl, hdays⟩
  rw [htdiv, htdiv, htdiv, hfour, hhundred, hcycle]
  refine (int32_fits _).bind ?_
  rintro _ ⟨rfl, -⟩
  refine (int32_fits _).bind ?_
  rintro _ ⟨rfl, -⟩
  refine (int32_fits _).bind ?_
  rintro _ ⟨rfl, hday⟩
  refine Fits.pure ⟨by dsimp only; omega, hday, ?_⟩
  intro hover
  dsimp only at hover ⊢
  rw [Bool.or_eq_true, decide_eq_true_iff, decide_eq_true_iff, show (2147483647 : Int).tdiv 365 = 5883516 from rfl]
    at hover
  unfold InInt at hdays
  omega

namespace Tm

variable {t : Tm}

theorem InRange.instant_eq (h : t.InRange) :
    t.instant = t.date.number * 86400 + (t.tmHour * 3600 + t.tmMin * 60 + t.tmSec) := by
  have hmon : t.tmMon < 12 := by
    have hmonth := h.date.1
    dsimp only [Tm.date] at hmonth
    omega
  unfold Tm.instant Date.number monthFirst
  rw [Int.ediv_eq_zero_of_lt h.mon hmon, Int.emod_eq_of_lt h.mon hmon, add_zero]
  dsimp only [Tm.date]
  omega

/-- **An instant has one date and time.** -/
theorem InRange.sameTime {u : Tm} (ht : t.InRange) (hu : u.InRange) (h : u.instant = t.instant) : u.SameTime t := by
  have hsec := ht.sec
  have hmin := ht.min
  have hhour := ht.hour
  have hmon := ht.mon
  have hsec' := hu.sec
  have hmin' := hu.min
  have hhour' := hu.hour
  have hmon' := hu.mon
  rw [ht.instant_eq, hu.instant_eq] at h
  have hdate : u.date = t.date := Date.number_inj hu.date ht.date (by omega)
  rw [hdate] at h
  have hyear : t.tmYear + 1900 = u.tmYear + 1900 := congrArg Date.year hdate.symm
  have hmonth : t.tmMon.toNat = u.tmMon.toNat := congrArg Date.month hdate.symm
  have hday : t.tmMday = u.tmMday := congrArg Date.day hdate.symm
  refine ⟨?_, ?_, ?_, ?_, ?_, ?_⟩ <;> omega

end Tm

theorem ofInt_toNat {x : Int} (hlow : 0 ≤ x) (hhigh : x < 4294967296) : ((UInt32.ofInt x).toNat : Int) = x := by
  unfold UInt32.ofInt
  rw [UInt32.toNat_ofNat']
  omega

/-- The last test for an overflow is exact. -/
theorem seconds_toNat {day secs : Int} (hday : 0 ≤ day) (hday' : InInt day) (hsecs : 0 ≤ secs) (hsecs' : secs < 86400)
    {past : Bool} (hpast : past = true → 4294967296 ≤ day * 86400) :
    ((if past || decide ((0xFFFFFFFF - UInt32.ofInt secs) / 86400 < UInt32.ofInt day) then timeError
      else UInt32.ofInt secs + UInt32.ofInt day * 86400).toNat : Int) =
      if day * 86400 + secs < 4294967296 then day * 86400 + secs else 4294967295 := by
  have hd := ofInt_toNat hday (by unfold InInt at hday'; omega)
  have hs := ofInt_toNat hsecs (by omega)
  generalize UInt32.ofInt day = d at hd ⊢
  generalize UInt32.ofInt secs = s at hs ⊢
  have htest : (0xFFFFFFFF - s) / 86400 < d ↔ 4294967296 ≤ day * 86400 + secs := by
    rw [UInt32.lt_iff_toNat_lt, UInt32.toNat_div, UInt32.toNat_sub_of_le _ _ (by
      rw [UInt32.le_iff_toNat_le]
      exact Nat.le_of_lt_succ s.toNat_lt), show (0xFFFFFFFF : UInt32).toNat = 4294967295 from rfl,
      show (86400 : UInt32).toNat = 86400 from rfl]
    omega
  by_cases hfits : day * 86400 + secs < 4294967296
  · have hnone : past = false := by
      rw [← Bool.not_eq_true]
      intro h
      have := hpast h
      omega
    rw [hnone, Bool.false_or, if_neg (by rw [decide_eq_true_iff, htest]; exact not_le.mpr hfits), if_pos hfits,
      UInt32.toNat_add, UInt32.toNat_mul, show (86400 : UInt32).toNat = 86400 from rfl]
    omega
  · rw [if_pos (by rw [Bool.or_eq_true, decide_eq_true_iff, htest]; exact Or.inr (not_lt.mp hfits)), if_neg hfits]
    rfl

theorem countSeconds_fits {t : Tm} (h : t.InRange) (hyear : 70 ≤ t.tmYear) :
    Fits (fun r => (r.1.toNat : Int) = (if t.instant < 4294967296 then t.instant else 4294967295) ∧
      r.2.1 = t.date.number - yearStart (t.tmYear + 1900) ∧ r.2.2 = (t.date.number + 4) % 7) (countSeconds t) := by
  have hsec := h.sec
  have hmin := h.min
  have hhour := h.hour
  have hnonneg : 0 ≤ t.date.number - yearStart (t.tmYear + 1900) := h.date.within.2.2.1
  have hstart : 0 ≤ yearStart (t.tmYear + 1900) :=
    yearStart_1970 ▸ yearStart_strictMono.monotone (show (1970 : Int) ≤ t.tmYear + 1900 by omega)
  have hmonth : t.tmMon.toNat < 12 := h.date.1
  have hnumber : t.date.number = yearStart (t.tmYear + 1900) +
      (daysOfMonths (t.tmYear + 1900) t.tmMon + (t.tmMday - 1)) := by
    rw [daysOfMonths_eq (t.tmYear + 1900) (le_of_lt hmonth), ← add_assoc]
    rfl
  unfold countSeconds
  refine (int32_fits _).bind ?_
  rintro _ ⟨rfl, -⟩
  refine (daysOfYears_fits (show (1970 : Int) ≤ t.tmYear + 1900 by omega)).bind ?_
  rintro ⟨day, past⟩ ⟨rfl, -, hpast⟩
  dsimp only at hpast ⊢
  rw [← hnumber]
  refine (int32_fits _).bind ?_
  rintro _ ⟨rfl, hday⟩
  refine (int32_fits _).bind ?_
  rintro _ ⟨rfl, -⟩
  have hpos : 0 ≤ t.date.number := by omega
  refine Fits.pure ⟨?_, by dsimp only; omega, Int.tmod_eq_emod_of_nonneg (by omega)⟩
  dsimp only
  rw [decide_eq_false (not_lt.mpr hpos), Bool.or_false, h.instant_eq,
    show t.tmHour * 3600 + t.tmMin * 60 + t.tmSec = (t.tmHour * 60 + t.tmMin) * 60 + t.tmSec by ring]
  exact seconds_toNat hpos hday (by omega) (by omega) fun ho => le_trans (hpast ho) (by omega)

/-! ## The whole function -/

section

variable {fuel : Nat} {t t' : Tm}

theorem clockMktime_early (hn : normalise fuel t = .ok t') (hyear : t'.tmYear < 70) :
    clockMktime fuel t = .ok (timeError, t') := by
  unfold clockMktime
  rw [hn]
  exact if_pos hyear

theorem clockMktime_late (hn : normalise fuel t = .ok t') (hyear : ¬ t'.tmYear < 70) :
    clockMktime fuel t = (countSeconds t').map fun c => (c.1, { t' with tmYday := c.2.1, tmWday := c.2.2 }) := by
  unfold clockMktime
  rw [hn]
  refine (if_neg hyear).trans ?_
  cases countSeconds t' <;> rfl

/-- The fields that `clock_mktime` writes at its end are none of the date and time. -/
theorem Normalised.update (h : Normalised t t') (wday yday : Int) :
    Normalised t { t' with tmYday := yday, tmWday := wday } :=
  ⟨⟨h.inRange.sec, h.inRange.min, h.inRange.hour, h.inRange.mon, h.inRange.date⟩, h.instant, h.isdst, h.year, h.sum⟩

theorem countSeconds_update (t : Tm) (wday yday : Int) :
    countSeconds { t with tmYday := yday, tmWday := wday } = countSeconds t :=
  rfl

theorem Normalised.right (h : Normalised t t') {r : UInt32}
    (hr : (r.toNat : Int) = if 70 ≤ t'.tmYear ∧ t.instant < 4294967296 then t.instant else 4294967295)
    (hyday : 70 ≤ t'.tmYear → t'.tmYday = t'.date.number - yearStart (t'.tmYear + 1900))
    (hwday : 70 ≤ t'.tmYear → t'.tmWday = (t'.date.number + 4) % 7) : MktimeRight t r t' :=
  ⟨h.inRange, h.instant, fun _ hu heq => h.inRange.sameTime hu (heq.trans h.instant.symm), hyday, hwday, h.isdst, hr⟩

end

/-- **`clock_mktime` is right** wherever nothing overflows, and right again on what it leaves. -/
theorem clockMktime_right (t : Tm) :
    ∃ n, ∀ fuel ≥ n, clockMktime fuel t = .error .overflow ∨
      ∃ r t', clockMktime fuel t = .ok (r, t') ∧ MktimeRight t r t' ∧
        ∀ fuel' ≥ n, clockMktime fuel' t' = .ok (r, t') := by
  refine ⟨t.days.natAbs + 32, fun fuel hfuel => ?_⟩
  rcases normalise_fits t hfuel with hover | ⟨t', hn, hnorm⟩
  · left
    unfold clockMktime
    rw [hover]
    rfl
  have hagain : ∀ u : Tm, Normalised t u → ∀ fuel' ≥ t.days.natAbs + 32, normalise fuel' u = .ok u :=
    fun u hu fuel' hfuel' => normalise_of_inRange hu.inRange hu.year hu.sum (by omega)
  by_cases hyear : t'.tmYear < 70
  · right
    refine ⟨timeError, t', clockMktime_early hn hyear, hnorm.right ?_ (fun h => absurd hyear (not_lt.mpr h))
      (fun h => absurd hyear (not_lt.mpr h)), fun fuel' hfuel' => clockMktime_early (hagain t' hnorm _ hfuel') hyear⟩
    rw [if_neg fun h => absurd hyear (not_lt.mpr h.1)]
    rfl
  rcases countSeconds_fits hnorm.inRange (not_lt.mp hyear) with hover | ⟨c, hc, hvalue, hyday, hwday⟩
  · left
    rw [clockMktime_late hn hyear, hover]
    rfl
  · right
    have hupdate := hnorm.update c.2.2 c.2.1
    refine ⟨c.1, _, ?_, hupdate.right ?_ (fun _ => hyday) (fun _ => hwday), fun fuel' hfuel' => ?_⟩
    · rw [clockMktime_late hn hyear, hc]
      rfl
    · rw [hvalue, hnorm.instant]
      simp only [not_lt.mp hyear, true_and]
    · rw [clockMktime_late (hagain _ hupdate _ hfuel') hyear, countSeconds_update, hc]
      rfl

-- The 60th day of 2000, with a negative minute.
example : clockMktime 50 ⟨30, -1, 0, 60, 0, 100, 0, 0, 0⟩ =
    .ok (951782370, ⟨30, 59, 23, 28, 1, 100, 1, 58, 0⟩) := by
  decide +kernel

end Desiros.Drivers
