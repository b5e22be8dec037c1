import Shortlink.Calendar.EcmaDate
import Mathlib.Data.Int.Range
import Mathlib.Tactic.IntervalCases
import Mathlib.Data.Int.ConditionallyCompleteOrder

/-!
# Months in a row

The months are numbered across the years, so month `12 * y + m - 1` is month `m` of year
`y`. `monthStart` is strictly increasing in that number, and a date lies in the month of
its number. An interval of integers is the list `Int.range`, which a loop that counts
upwards builds.
-/

namespace Shortlink

namespace Calendar

/-! ### Integers in a row -/

theorem intRange_cons {a b : ℤ} (h : a < b) : Int.range a b = a :: Int.range (a + 1) b := by
  have hlength : (b - a).toNat = (b - (a + 1)).toNat + 1 := by omega
  simp only [Int.range, hlength, List.range_succ_eq_map, List.map_cons, List.map_map]
  congr 1
  · simp
  · refine List.map_congr_left fun k _ => ?_
    simp only [Function.comp_apply, Nat.succ_eq_add_one]
    omega

theorem intRange_of_le {a b : ℤ} (h : b ≤ a) : Int.range a b = [] := by
  have hlength : (b - a).toNat = 0 := by omega
  simp [Int.range, hlength]

theorem length_intRange (a b : ℤ) : (Int.range a b).length = (b - a).toNat := by
  simp [Int.range]

theorem pairwise_intRange (a b : ℤ) : (Int.range a b).Pairwise (· < ·) := by
  rw [Int.range, List.pairwise_map]
  exact List.pairwise_lt_range.imp fun h => by omega

/-! ### The number of a month -/

def CivilDate.monthIndex (c : CivilDate) : ℤ := 12 * c.year + (c.month - 1)

theorem CivilDate.monthIndex_div (c : CivilDate) : c.monthIndex / 12 = c.year := by
  have hone := c.one_le_month
  have hle := c.month_le
  rw [monthIndex]
  omega

theorem CivilDate.monthIndex_mod (c : CivilDate) :
    (c.monthIndex % 12).toNat + 1 = c.month := by
  have hone := c.one_le_month
  have hle := c.month_le
  rw [monthIndex]
  omega

/-- The number of the first day of a month. -/
def monthStart (i : ℤ) : ℤ :=
  dayFromYear (i / 12) + daysBefore (i / 12) ((i % 12).toNat + 1)

theorem daysInMonth_pos {year : ℤ} {month : ℕ} (hone : 1 ≤ month) (hle : month ≤ 12) :
    0 < daysInMonth year month := by
  interval_cases month <;> simp only [daysInMonth] <;> (try split) <;> omega

theorem monthStart_succ (i : ℤ) :
    monthStart (i + 1) = monthStart i + daysInMonth (i / 12) ((i % 12).toNat + 1) := by
  by_cases hlast : i % 12 = 11
  · -- The month after December is the first of the next year.
    have hdiv : (i + 1) / 12 = i / 12 + 1 := by omega
    have hmod : (i + 1) % 12 = 0 := by omega
    have hyear := daysBefore_thirteen (i / 12)
    have hzero : daysBefore (i / 12 + 1) 1 = 0 := rfl
    simp only [daysBefore] at hyear
    simp only [monthStart, hdiv, hmod, hlast, dayFromYear_succ, daysBefore, ← hyear]
    simp only [Int.toNat_zero, Int.reduceToNat, Nat.reduceAdd, daysBefore, daysInMonth]
    omega
  · have hdiv : (i + 1) / 12 = i / 12 := by omega
    have hmod : ((i + 1) % 12).toNat = (i % 12).toNat + 1 := by omega
    simp only [monthStart, hdiv, hmod, daysBefore]
    omega

theorem monthStart_strictMono : StrictMono monthStart := by
  refine strictMono_int_of_lt_succ fun i => ?_
  have hpos : 0 < daysInMonth (i / 12) ((i % 12).toNat + 1) :=
    daysInMonth_pos (by omega) (by omega)
  rw [monthStart_succ]
  omega

namespace CivilDate

variable {c c' : CivilDate}

theorem monthStart_monthIndex (c : CivilDate) :
    monthStart c.monthIndex = dayFromYear c.year + daysBefore c.year c.month := by
  rw [monthStart, c.monthIndex_div, c.monthIndex_mod]

theorem monthStart_le (c : CivilDate) : monthStart c.monthIndex ≤ c.dayNumber := by
  rw [monthStart_monthIndex, dayNumber, yearDay]
  omega

theorem lt_monthStart_succ (c : CivilDate) : c.dayNumber < monthStart (c.monthIndex + 1) := by
  have hone := c.one_le_day
  have hle := c.day_le
  rw [monthStart_succ, monthStart_monthIndex, monthIndex_div, monthIndex_mod, dayNumber, yearDay]
  omega

theorem monthIndex_le (h : c ≤ c') : c.monthIndex ≤ c'.monthIndex := by
  have hlow := c.monthStart_le
  have hhigh := c'.lt_monthStart_succ
  have hlt : monthStart c.monthIndex < monthStart (c'.monthIndex + 1) := by
    rw [le_def] at h
    omega
  have hindex := monthStart_strictMono.lt_iff_lt.1 hlt
  omega

theorem lt_of_monthIndex_lt (h : c.monthIndex < c'.monthIndex) : c < c' := by
  by_contra hle
  exact absurd (monthIndex_le (not_lt.1 hle)) (Int.not_le.2 h)

end CivilDate

theorem monthIndex_civilOfDay_monthStart (i : ℤ) :
    (civilOfDay (monthStart i)).monthIndex = i := by
  have hlow := (civilOfDay (monthStart i)).monthStart_le
  have hhigh := (civilOfDay (monthStart i)).lt_monthStart_succ
  rw [dayNumber_civilOfDay] at hlow hhigh
  have hle := monthStart_strictMono.le_iff_le.1 hlow
  have hlt := monthStart_strictMono.lt_iff_lt.1 hhigh
  omega

/-- Every month between those of two dates contains a date between them. -/
theorem exists_of_monthIndex {c c' : CivilDate} {i : ℤ} (h : c ≤ c')
    (hlow : c.monthIndex ≤ i) (hhigh : i ≤ c'.monthIndex) :
    ∃ d : CivilDate, c ≤ d ∧ d ≤ c' ∧ d.monthIndex = i := by
  obtain rfl | hlt := hlow.eq_or_lt
  · exact ⟨c, le_rfl, h, rfl⟩
  · have hindex := monthIndex_civilOfDay_monthStart i
    refine ⟨civilOfDay (monthStart i),
      (CivilDate.lt_of_monthIndex_lt (hlt.trans_eq hindex.symm)).le, ?_, hindex⟩
    rw [CivilDate.le_def, dayNumber_civilOfDay]
    exact (monthStart_strictMono.monotone hhigh).trans c'.monthStart_le

/-- Twelve months have at most 366 days, since at most one of two years in a row is leap. -/
theorem monthStart_add_twelve_le (i : ℤ) : monthStart (i + 12) ≤ monthStart i + 366 := by
  have hdiv : (i + 12) / 12 = i / 12 + 1 := by omega
  have hmod : (i + 12) % 12 = i % 12 := by omega
  have hmonth : (i % 12).toNat < 12 := by omega
  simp only [monthStart, hdiv, hmod, dayFromYear_succ]
  generalize i / 12 = year
  generalize (i % 12).toNat = m at hmonth
  have hleap : isLeap year = true → isLeap (year + 1) = false := by
    simp only [isLeap, decide_eq_true_eq, decide_eq_false_iff_not]
    omega
  interval_cases m <;> simp only [daysBefore, daysInMonth, yearLength] <;>
    cases hyear : isLeap year <;> cases hnext : isLeap (year + 1) <;> simp_all <;> omega

theorem dayNumber_sub_le {c c' : CivilDate} (h : c'.monthIndex ≤ c.monthIndex + 11) :
    c'.dayNumber - c.dayNumber < 366 := by
  have hlow := c.monthStart_le
  have hhigh := c'.lt_monthStart_succ
  have hmono : monthStart (c'.monthIndex + 1) ≤ monthStart (c.monthIndex + 12) :=
    monthStart_strictMono.monotone (by omega)
  have hyear := monthStart_add_twelve_le c.monthIndex
  omega

/-! ### The text of a month -/

/-- The text `YYYY-MM` of a month. -/
def monthText (i : ℤ) : List Char :=
  padded 4 (i / 12).toNat ++ '-' :: padded 2 ((i % 12).toNat + 1)

theorem CivilDate.take_text {c : CivilDate} (h : c.FourDigits) :
    c.text.take 7 = monthText c.monthIndex := by
  have hlength : (padded 4 c.year.toNat ++ '-' :: padded 2 c.month).length = 7 := by
    simp [length_year h, length_month]
  have htext : c.text =
      (padded 4 c.year.toNat ++ '-' :: padded 2 c.month) ++ '-' :: padded 2 c.day := by
    simp [text]
  rw [htext, List.take_left' hlength, monthText, monthIndex_div, monthIndex_mod]

theorem monthText_lt {i j : ℤ} (hi : 0 ≤ i) (hj : j < 120000) (h : i < j) :
    monthText i < monthText j := by
  have hyear : ∀ k : ℤ, 0 ≤ k → k < 120000 → (k / 12).toNat < 10 ^ 4 := by omega
  have hmonth : ∀ k : ℤ, (k % 12).toNat + 1 < 10 ^ 2 := by omega
  have hleni : (padded 4 (i / 12).toNat).length = 4 :=
    length_padded (by decide) (hyear i hi (by omega))
  have hlenj : (padded 4 (j / 12).toNat).length = 4 :=
    length_padded (by decide) (hyear j (by omega) hj)
  rw [monthText, monthText, append_lt_append_iff (hleni.trans hlenj.symm),
    padded_lt_iff (by decide) (hyear i hi (by omega)) (hyear j (by omega) hj),
    List.cons_lt_cons_iff, padded_lt_iff (by decide) (hmonth i) (hmonth j)]
  by_cases hlt : i / 12 < j / 12
  · exact .inl (by omega)
  · have heq : i / 12 = j / 12 := by omega
    exact .inr ⟨by rw [heq], .inr ⟨rfl, by omega⟩⟩

end Calendar

end Shortlink
