import Mathlib.Logic.Equiv.Defs
import Mathlib.Order.Monotone.Basic
import Mathlib.Tactic.Common
import Mathlib.Order.Lattice

/-!
# The proleptic Gregorian calendar

A `CivilDate` is a year, a month and a day that exist. Its `dayNumber` counts the days
from 1 January 1970, and every integer is the number of exactly one date. The order of
the numbers is that of year, month and day.
-/

namespace Shortlink

namespace Calendar

def isLeap (year : ℤ) : Bool := decide (year % 4 = 0 ∧ (year % 100 ≠ 0 ∨ year % 400 = 0))

/-- The length of a month, counted from one. -/
def daysInMonth (year : ℤ) : ℕ → ℕ
  | 1 | 3 | 5 | 7 | 8 | 10 | 12 => 31
  | 4 | 6 | 9 | 11 => 30
  | 2 => if isLeap year then 29 else 28
  | _ => 0

def daysBefore (year : ℤ) : ℕ → ℕ
  | 0 => 0
  | month + 1 => daysBefore year month + daysInMonth year month

/-- The number of the first day of a year. -/
def dayFromYear (year : ℤ) : ℤ :=
  365 * (year - 1970) + (year - 1969) / 4 - (year - 1901) / 100 + (year - 1601) / 400

def yearLength (year : ℤ) : ℕ := if isLeap year then 366 else 365

@[ext] structure CivilDate where
  year : ℤ
  month : ℕ
  day : ℕ
  one_le_month : 1 ≤ month
  month_le : month ≤ 12
  one_le_day : 1 ≤ day
  day_le : day ≤ daysInMonth year month
  deriving DecidableEq

/-! ### Years and months -/

section

variable {year year' : ℤ} {month month' : ℕ}

theorem dayFromYear_succ (year : ℤ) :
    dayFromYear (year + 1) = dayFromYear year + yearLength year := by
  simp only [dayFromYear, yearLength, isLeap, decide_eq_true_eq]
  split <;> omega

theorem dayFromYear_le (h : year ≤ year') : dayFromYear year ≤ dayFromYear year' := by
  simp only [dayFromYear]
  omega

theorem daysInMonth_le (year : ℤ) (month : ℕ) : daysInMonth year month ≤ 31 := by
  simp only [daysInMonth]
  split <;> (try split) <;> omega

theorem daysBefore_mono (year : ℤ) : Monotone (daysBefore year) :=
  monotone_nat_of_le_succ fun _ => Nat.le_add_right _ _

theorem daysBefore_add_le (h : month < month') :
    daysBefore year month + daysInMonth year month ≤ daysBefore year month' :=
  daysBefore_mono year h

theorem daysBefore_thirteen (year : ℤ) : daysBefore year 13 = yearLength year := by
  simp only [daysBefore, daysInMonth, yearLength]
  split <;> rfl

end

namespace CivilDate

/-- The day of the year, counted from zero. -/
def yearDay (c : CivilDate) : ℕ := daysBefore c.year c.month + (c.day - 1)

/-- The days since 1 January 1970. -/
def dayNumber (c : CivilDate) : ℤ := dayFromYear c.year + c.yearDay

theorem yearDay_lt (c : CivilDate) : c.yearDay < yearLength c.year := by
  have hlt : daysBefore c.year c.month + daysInMonth c.year c.month ≤
      daysBefore c.year 13 := daysBefore_add_le (Nat.lt_succ_of_le c.month_le)
  have hday := c.one_le_day
  have hle := c.day_le
  rw [daysBefore_thirteen] at hlt
  rw [yearDay]
  omega

theorem dayNumber_lt (c : CivilDate) : c.dayNumber < dayFromYear (c.year + 1) := by
  have hlt := c.yearDay_lt
  rw [dayFromYear_succ, dayNumber]
  omega

theorem dayNumber_lt_of_year {c c' : CivilDate} (h : c.year < c'.year) :
    c.dayNumber < c'.dayNumber := by
  have hlt := c.dayNumber_lt
  have hle : dayFromYear (c.year + 1) ≤ dayFromYear c'.year := dayFromYear_le h
  have hstart : dayFromYear c'.year ≤ c'.dayNumber := Int.le_add_of_nonneg_right (by omega)
  omega

theorem dayNumber_lt_of_month {c c' : CivilDate} (hyear : c.year = c'.year)
    (h : c.month < c'.month) : c.dayNumber < c'.dayNumber := by
  have hle : daysBefore c.year c.month + daysInMonth c.year c.month ≤
      daysBefore c.year c'.month := daysBefore_add_le h
  have hday := c.one_le_day
  have hday' := c.day_le
  simp only [dayNumber, yearDay, ← hyear]
  omega

theorem dayNumber_lt_of_day {c c' : CivilDate} (hyear : c.year = c'.year)
    (hmonth : c.month = c'.month) (h : c.day < c'.day) : c.dayNumber < c'.dayNumber := by
  have hday := c.one_le_day
  simp only [dayNumber, yearDay, ← hyear, ← hmonth]
  omega

def Before (c c' : CivilDate) : Prop :=
  c.year < c'.year ∨ c.year = c'.year ∧ (c.month < c'.month ∨
    c.month = c'.month ∧ c.day < c'.day)

theorem Before.dayNumber_lt {c c' : CivilDate} (h : c.Before c') :
    c.dayNumber < c'.dayNumber := by
  obtain h | ⟨hyear, h | ⟨hmonth, h⟩⟩ := h
  · exact dayNumber_lt_of_year h
  · exact dayNumber_lt_of_month hyear h
  · exact dayNumber_lt_of_day hyear hmonth h

theorem before_or_eq (c c' : CivilDate) : c.Before c' ∨ c = c' ∨ c'.Before c := by
  simp only [Before, CivilDate.ext_iff]
  omega

theorem before_iff {c c' : CivilDate} : c.Before c' ↔ c.dayNumber < c'.dayNumber := by
  refine ⟨Before.dayNumber_lt, fun h => ?_⟩
  obtain hlt | rfl | hgt := c.before_or_eq c'
  · exact hlt
  · exact absurd h (lt_irrefl _)
  · exact absurd h hgt.dayNumber_lt.asymm

theorem dayNumber_injective : Function.Injective dayNumber := by
  intro c c' h
  obtain hlt | heq | hgt := c.before_or_eq c'
  · exact absurd h hlt.dayNumber_lt.ne
  · exact heq
  · exact absurd h hgt.dayNumber_lt.ne'

instance : LinearOrder CivilDate := LinearOrder.lift' dayNumber dayNumber_injective

theorem le_def {c c' : CivilDate} : c ≤ c' ↔ c.dayNumber ≤ c'.dayNumber := Iff.rfl

/-- The order of the numbers is that of year, month and day. -/
theorem lt_iff_before {c c' : CivilDate} : c < c' ↔ c.Before c' := before_iff.symm

theorem year_le {c c' : CivilDate} (h : c ≤ c') : c.year ≤ c'.year := by
  by_contra hlt
  exact absurd h (not_le.2 (dayNumber_lt_of_year (Int.not_le.1 hlt)))

end CivilDate

/-! ### The date of a day -/

/-- The year of a day: an estimate from the 146097 days of 400 years, corrected. -/
def yearOfDay (n : ℤ) : ℤ :=
  let year := 400 * n / 146097 + 1969
  if n < dayFromYear (year + 1) then year
  else if n < dayFromYear (year + 1 + 1) then year + 1
  else year + 1 + 1

theorem yearOfDay_spec (n : ℤ) :
    dayFromYear (yearOfDay n) ≤ n ∧ n < dayFromYear (yearOfDay n + 1) := by
  have hlow : dayFromYear (400 * n / 146097 + 1969) ≤ n := by
    simp only [dayFromYear]
    omega
  have hhigh : n < dayFromYear (400 * n / 146097 + 1969 + 1 + 1 + 1) := by
    simp only [dayFromYear]
    omega
  simp only [yearOfDay]
  split
  · rename_i hfirst
    exact ⟨hlow, hfirst⟩
  rename_i hfirst
  split
  · rename_i hsecond
    exact ⟨Int.not_lt.1 hfirst, hsecond⟩
  · rename_i hsecond
    exact ⟨Int.not_lt.1 hsecond, hhigh⟩

/-- The last of the first months that does not start after day `k` of the year. -/
def monthOfYearDay (year : ℤ) (k : ℕ) : ℕ → ℕ
  | 0 => 0
  | month + 1 =>
      if daysBefore year (month + 1) ≤ k then month + 1 else monthOfYearDay year k month

theorem monthOfYearDay_spec {year : ℤ} {k month : ℕ} (hk : k < daysBefore year (month + 1)) :
    monthOfYearDay year k month ≤ month ∧
      daysBefore year (monthOfYearDay year k month) ≤ k ∧
      k < daysBefore year (monthOfYearDay year k month + 1) := by
  induction month with
  | zero => exact ⟨le_rfl, Nat.zero_le k, hk⟩
  | succ month ih =>
      simp only [monthOfYearDay]
      split
      · exact ⟨le_rfl, ‹_›, hk⟩
      · obtain ⟨hle, hstart, hend⟩ := ih (Nat.lt_of_not_le ‹_›)
        exact ⟨Nat.le_succ_of_le hle, hstart, hend⟩

theorem one_le_monthOfYearDay {year : ℤ} {k month : ℕ}
    (hk : k < daysBefore year (month + 1)) : 1 ≤ monthOfYearDay year k month := by
  have hend := (monthOfYearDay_spec hk).2.2
  cases hmonth : monthOfYearDay year k month with
  | zero =>
      rw [hmonth] at hend
      exact absurd hend (Nat.not_lt_zero k)
  | succ m => exact Nat.le_add_left 1 m

/-- The day of its year, counted from zero. -/
def yearDayOfDay (n : ℤ) : ℕ := (n - dayFromYear (yearOfDay n)).toNat

theorem yearDayOfDay_lt (n : ℤ) :
    yearDayOfDay n < daysBefore (yearOfDay n) (12 + 1) := by
  have hspec := yearOfDay_spec n
  rw [dayFromYear_succ] at hspec
  rw [daysBefore_thirteen, yearDayOfDay]
  omega

/-- The date of a day. -/
def civilOfDay (n : ℤ) : CivilDate where
  year := yearOfDay n
  month := monthOfYearDay (yearOfDay n) (yearDayOfDay n) 12
  day := yearDayOfDay n -
    daysBefore (yearOfDay n) (monthOfYearDay (yearOfDay n) (yearDayOfDay n) 12) + 1
  one_le_month := one_le_monthOfYearDay (yearDayOfDay_lt n)
  month_le := (monthOfYearDay_spec (yearDayOfDay_lt n)).1
  one_le_day := Nat.le_add_left _ _
  day_le := by
    obtain ⟨-, hstart, hend⟩ := monthOfYearDay_spec (yearDayOfDay_lt n)
    simp only [daysBefore] at hend
    omega

theorem dayNumber_civilOfDay (n : ℤ) : (civilOfDay n).dayNumber = n := by
  have hspec := yearOfDay_spec n
  have hstart := (monthOfYearDay_spec (yearDayOfDay_lt n)).2.1
  simp only [civilOfDay, CivilDate.dayNumber, CivilDate.yearDay, Nat.add_sub_cancel,
    Nat.add_sub_cancel' hstart]
  rw [yearDayOfDay]
  omega

theorem civilOfDay_dayNumber (c : CivilDate) : civilOfDay c.dayNumber = c :=
  CivilDate.dayNumber_injective (dayNumber_civilOfDay _)

end Calendar

end Shortlink
