import Shortlink.LinkStatistics.Period
import Mathlib.Data.List.Nodup

/-!
# The dates and months of a period

`eachUtcDate` and `eachUtcMonth` of the repository. Each is a loop over a cursor, whose
values are an interval of integers: the numbers of the days and of the months.
-/

namespace Shortlink

namespace LinkStatistics

open Shortlink.Calendar

def eachUtcDateLoop (cursor stop : ℤ) : List String :=
  if cursor ≤ stop then
    String.ofList ((EcmaDate.toISOString cursor).take 10) ::
      eachUtcDateLoop (EcmaDate.setUTCDate cursor (EcmaDate.getUTCDate cursor + 1)) stop
  else []
termination_by (stop + 1 - cursor).toNat
decreasing_by
  rw [EcmaDate.setUTCDate_add, EcmaDate.msPerDay]
  omega

def eachUtcDate (fromDate toDate : String) : List String :=
  match EcmaDate.parseMidnight fromDate.toList, EcmaDate.parseMidnight toDate.toList with
  | some cursor, some stop => eachUtcDateLoop cursor stop
  -- Comparisons with a `Date` without a time value are false.
  | _, _ => []

def eachUtcMonthLoop (year month toYear toMonth : ℕ) : List String :=
  if year < toYear ∨ year = toYear ∧ month ≤ toMonth then
    String.ofList (padded 4 year ++ '-' :: padded 2 month) ::
      if month + 1 > 12 then eachUtcMonthLoop (year + 1) 1 toYear toMonth
      else eachUtcMonthLoop year (month + 1) toYear toMonth
  else []
termination_by (toYear + 1 - year, 13 - month)

/-- `from.split('-').map(Number)`, of parts that are digits. -/
def splitNumbers (text : List Char) : Option (ℕ × ℕ) :=
  match text.splitOn '-' with
  | year :: month :: _ =>
      if (year ++ month).all Char.isDigit then some (number year, number month) else none
  | _ => none

def eachUtcMonth (fromMonth toMonth : List Char) : List String :=
  match splitNumbers fromMonth, splitNumbers toMonth with
  | some (year, month), some (toYear, toMonth) => eachUtcMonthLoop year month toYear toMonth
  -- Comparisons with `NaN` are false.
  | _, _ => []

/-! ### The loops count upwards -/

theorem eachUtcDateLoop_eq (a b : ℤ) :
    eachUtcDateLoop (a * EcmaDate.msPerDay) (b * EcmaDate.msPerDay) =
      (Int.range a (b + 1)).map fun n =>
        String.ofList ((EcmaDate.toISOString (n * EcmaDate.msPerDay)).take 10) := by
  have hms : EcmaDate.msPerDay = 86400000 := rfl
  generalize hsteps : (b + 1 - a).toNat = steps
  induction steps generalizing a with
  | zero =>
      rw [eachUtcDateLoop, if_neg (by rw [hms]; omega), intRange_of_le (by omega)]
      rfl
  | succ steps ih =>
      have hnext : a * EcmaDate.msPerDay + 1 * EcmaDate.msPerDay =
          (a + 1) * EcmaDate.msPerDay := (Int.add_mul _ _ _).symm
      rw [eachUtcDateLoop, if_pos (by rw [hms]; omega), EcmaDate.setUTCDate_add, hnext,
        ih (a + 1) (by omega), intRange_cons (show a < b + 1 by omega), List.map_cons]

theorem eachUtcMonthLoop_eq {year month toYear toMonth : ℕ} (hone : 1 ≤ month)
    (hle : month ≤ 12) (hone' : 1 ≤ toMonth) (hle' : toMonth ≤ 12) :
    eachUtcMonthLoop year month toYear toMonth =
      (Int.range (12 * year + (month - 1)) (12 * toYear + (toMonth - 1) + 1)).map fun i =>
        String.ofList (monthText i) := by
  have htext : ∀ {y m : ℕ}, 1 ≤ m → m ≤ 12 →
      monthText (12 * (y : ℤ) + (m - 1)) = padded 4 y ++ '-' :: padded 2 m := by
    intro y m h₁ h₂
    have hdiv : (12 * (y : ℤ) + (m - 1)) / 12 = y := by omega
    have hmod : ((12 * (y : ℤ) + (m - 1)) % 12).toNat + 1 = m := by omega
    rw [monthText, hdiv, hmod, Int.toNat_natCast]
  fun_induction eachUtcMonthLoop year month toYear toMonth with
  | case1 year month hmore ihyear ihmonth =>
      have hlt : 12 * (year : ℤ) + (month - 1) < 12 * toYear + (toMonth - 1) + 1 := by omega
      rw [intRange_cons hlt, List.map_cons, htext hone hle]
      congr 1
      split
      · -- After December the year goes up.
        have hnext : 12 * ((year + 1 : ℕ) : ℤ) + ((1 : ℕ) - 1) =
            12 * (year : ℤ) + (month - 1) + 1 := by omega
        rw [ihyear le_rfl (by decide), hnext]
      · rename_i hlast
        have hnext : 12 * (year : ℤ) + ((month + 1 : ℕ) - 1) =
            12 * (year : ℤ) + (month - 1) + 1 := by omega
        rw [ihmonth hlast (by omega) (by omega), hnext]
  | case2 year month hdone =>
      rw [intRange_of_le (by omega)]
      rfl

theorem padded_plain {width n : ℕ} : ∀ x ∈ padded width n, (x == '-') = false := by
  intro x hx
  have hdigit := digit_toNat (digits_padded width n x hx)
  rw [beq_eq_false_iff_ne]
  rintro rfl
  exact absurd hdigit.1 (by decide)

theorem splitNumbers_monthText (c : CivilDate) :
    splitNumbers (monthText c.monthIndex) = some (c.year.toNat, c.month) := by
  have hdigits : (padded 4 c.year.toNat ++ padded 2 c.month).all Char.isDigit = true := by
    rw [List.all_append, Bool.and_eq_true, List.all_eq_true, List.all_eq_true]
    exact ⟨digits_padded _ _, digits_padded _ _⟩
  rw [splitNumbers, monthText, c.monthIndex_div, c.monthIndex_mod, List.splitOn_eq_splitOnP,
    List.splitOnP_append_cons_of_forall_mem padded_plain '-' rfl,
    List.splitOnP_eq_singleton padded_plain]
  simp only [hdigits, if_true, number_padded]

/-! ### The series of a period -/

def datesBetween (c c' : CivilDate) : List CivilDate :=
  (Int.range c.dayNumber (c'.dayNumber + 1)).map civilOfDay

/-- The text `YYYY-MM-DD` of a date. -/
def isoText (c : CivilDate) : String := String.ofList c.text

theorem mem_datesBetween {c c' d : CivilDate} :
    d ∈ datesBetween c c' ↔ c ≤ d ∧ d ≤ c' := by
  simp only [datesBetween, List.mem_map, Int.mem_range_iff, CivilDate.le_def]
  constructor
  · rintro ⟨n, hn, rfl⟩
    rw [dayNumber_civilOfDay]
    omega
  · exact fun h => ⟨d.dayNumber, by omega, civilOfDay_dayNumber d⟩

theorem pairwise_datesBetween (c c' : CivilDate) : (datesBetween c c').Pairwise (· < ·) := by
  rw [datesBetween, List.pairwise_map]
  refine (pairwise_intRange _ _).imp fun {m n} h => ?_
  rw [← not_le, CivilDate.le_def, dayNumber_civilOfDay, dayNumber_civilOfDay]
  exact Int.not_le.2 h

theorem length_datesBetween (c c' : CivilDate) :
    (datesBetween c c').length = (c'.dayNumber + 1 - c.dayNumber).toNat := by
  rw [datesBetween, List.length_map, length_intRange]

theorem isoText_spells {c : CivilDate} (h : c.FourDigits) : Spells (isoText c) c :=
  ⟨String.toList_ofList, h⟩

theorem Spells.isoText_eq {s : String} {c : CivilDate} (h : Spells s c) : isoText c = s := by
  rw [isoText, ← h.1, String.ofList_toList]

/-- The dates between two of at most four digits have at most four digits. -/
theorem fourDigits_of_mem {c c' d : CivilDate} (h : c.FourDigits) (h' : c'.FourDigits)
    (hd : d ∈ datesBetween c c') : d.FourDigits := by
  obtain ⟨hlow, hhigh⟩ := mem_datesBetween.1 hd
  exact ⟨h.1.trans (CivilDate.year_le hlow), (CivilDate.year_le hhigh).trans h'.2⟩

theorem eachUtcDate_eq {s t : String} {c c' : CivilDate} (h : Spells s c) (h' : Spells t c') :
    eachUtcDate s t = (datesBetween c c').map isoText := by
  simp only [eachUtcDate, h.1, h'.1, EcmaDate.parseMidnight_text h.2,
    EcmaDate.parseMidnight_text h'.2, EcmaDate.midnight]
  rw [eachUtcDateLoop_eq, datesBetween, List.map_map]
  refine List.map_congr_left fun n hn => ?_
  have hcivil : EcmaDate.civil (n * EcmaDate.msPerDay) = civilOfDay n := by
    rw [EcmaDate.civil, Int.mul_ediv_cancel _ (by decide)]
  have hfour := fourDigits_of_mem h.2 h'.2 (List.mem_map_of_mem hn)
  rw [EcmaDate.toISOString_take (hcivil ▸ hfour), hcivil]
  rfl

theorem eachUtcMonth_eq {s t : String} {c c' : CivilDate} (h : Spells s c) (h' : Spells t c') :
    eachUtcMonth (slice s 0 7) (slice t 0 7) =
      (Int.range c.monthIndex (c'.monthIndex + 1)).map fun i => String.ofList (monthText i) := by
  have hyear : ∀ {d : CivilDate}, d.FourDigits →
      12 * (d.year.toNat : ℤ) + (d.month - 1) = d.monthIndex := by
    intro d hd
    rw [Int.toNat_of_nonneg hd.1]
    rfl
  rw [eachUtcMonth, h.slice_month, h'.slice_month, splitNumbers_monthText,
    splitNumbers_monthText]
  simp only []
  rw [eachUtcMonthLoop_eq c.one_le_month c.month_le c'.one_le_month c'.month_le, hyear h.2,
    hyear h'.2]

/-- The series of the period from `c` to `c'` are its dates and its months. -/
structure SeriesExact (c c' : CivilDate) (dates months : List String) : Prop where
  dates_mem : ∀ s, s ∈ dates ↔ ∃ d, c ≤ d ∧ d ≤ c' ∧ Spells s d
  dates_ascending : dates.Pairwise (· < ·)
  dates_length : 1 ≤ dates.length ∧ dates.length ≤ 366
  months_mem : ∀ m, m ∈ months ↔ ∃ s ∈ dates, m = String.ofList (slice s 0 7)
  months_ascending : months.Pairwise (· < ·)
  months_length : 1 ≤ months.length ∧ months.length ≤ 12

theorem seriesExact {s t : String} {c c' : CivilDate} (h : Spells s c) (h' : Spells t c')
    (hperiod : Reportable c c') :
    SeriesExact c c' (eachUtcDate s t) (eachUtcMonth (slice s 0 7) (slice t 0 7)) := by
  have hle := hperiod.ordered
  have hmonths := ncard_monthsTouched hle
  have htwelve := hperiod.months
  have hdays := CivilDate.le_def.1 hle
  have hfour : ∀ d ∈ datesBetween c c', d.FourDigits := fun d => fourDigits_of_mem h.2 h'.2
  rw [eachUtcDate_eq h h', eachUtcMonth_eq h h']
  constructor
  case dates_mem =>
    intro u
    rw [List.mem_map]
    constructor
    · rintro ⟨d, hd, rfl⟩
      obtain ⟨hlow, hhigh⟩ := mem_datesBetween.1 hd
      exact ⟨d, hlow, hhigh, isoText_spells (hfour d hd)⟩
    · rintro ⟨d, hlow, hhigh, hd⟩
      exact ⟨d, mem_datesBetween.2 ⟨hlow, hhigh⟩, hd.isoText_eq⟩
  case dates_ascending =>
    rw [List.pairwise_map]
    refine (pairwise_datesBetween c c').imp_of_mem fun hd hd' hlt => ?_
    exact ((isoText_spells (hfour _ hd)).lt_iff (isoText_spells (hfour _ hd'))).2 hlt
  case dates_length =>
    have hyear : c'.dayNumber - c.dayNumber < 366 := dayNumber_sub_le (by omega)
    rw [List.length_map, length_datesBetween]
    omega
  case months_mem =>
    intro m
    have hmonth : ∀ d ∈ datesBetween c c', slice (isoText d) 0 7 = monthText d.monthIndex :=
      fun d hd => (isoText_spells (hfour d hd)).slice_month
    simp only [List.mem_map, Int.mem_range_iff, Int.lt_add_one_iff]
    constructor
    · rintro ⟨i, hi, rfl⟩
      obtain ⟨d, hlow, hhigh, rfl⟩ := exists_of_monthIndex hle hi.1 hi.2
      have hd := mem_datesBetween.2 ⟨hlow, hhigh⟩
      exact ⟨isoText d, ⟨d, hd, rfl⟩, by rw [hmonth d hd]⟩
    · rintro ⟨_, ⟨d, hd, rfl⟩, rfl⟩
      obtain ⟨hlow, hhigh⟩ := mem_datesBetween.1 hd
      exact ⟨d.monthIndex, ⟨CivilDate.monthIndex_le hlow, CivilDate.monthIndex_le hhigh⟩,
        by rw [hmonth d hd]⟩
  case months_ascending =>
    have hlow := h.2.1
    have hhigh := h'.2.2
    have hindex := c.monthIndex_div
    have hindex' := c'.monthIndex_div
    rw [List.pairwise_map]
    refine (pairwise_intRange _ _).imp_of_mem fun hi hj hlt => ?_
    rw [Int.mem_range_iff] at hi hj
    rw [String.lt_iff_toList_lt, String.toList_ofList, String.toList_ofList]
    exact monthText_lt (by omega) (by omega) hlt
  case months_length =>
    have hindex := CivilDate.monthIndex_le hle
    rw [List.length_map, length_intRange]
    omega

/-- A query is accepted when it spells a period, whose series are exact, and without a
query the period is the thirty days up to today. -/
structure PeriodsExact : Prop where
  accepted : ∀ now s t, (∃ period, LinkStatisticsService.resolvePeriod now ⟨some s, some t⟩ =
    .ok period) ↔ ∃ c c', Spells s c ∧ Spells t c' ∧ Reportable c c'
  series : ∀ now s t period,
    LinkStatisticsService.resolvePeriod now ⟨some s, some t⟩ = .ok period →
      period = ⟨s, t⟩ ∧ ∀ c c', Spells s c → Spells t c' →
        SeriesExact c c' (eachUtcDate s t) (eachUtcMonth (slice s 0 7) (slice t 0 7))
  default : ∀ now, 101 ≤ (EcmaDate.civil now).year → (EcmaDate.civil now).year ≤ 9999 →
    ∃ period, LinkStatisticsService.resolvePeriod now ⟨none, none⟩ = .ok period ∧
      eachUtcDate period.fromDate period.toDate =
        (List.range 30).map fun k : ℕ =>
          isoText (civilOfDay ((EcmaDate.civil now).dayNumber - 29 + k))

theorem periods_exact : PeriodsExact where
  accepted := by
    intro now s t
    constructor
    · rintro ⟨period, h⟩
      exact (LinkStatisticsService.checkPeriod_ok_iff.1 h).2
    · intro h
      exact ⟨⟨s, t⟩, LinkStatisticsService.checkPeriod_ok_iff.2 ⟨rfl, h⟩⟩
  series := by
    intro now s t period h
    obtain ⟨rfl, d, d', hd, hd', hperiod⟩ := LinkStatisticsService.checkPeriod_ok_iff.1 h
    refine ⟨rfl, fun c c' hc hc' => ?_⟩
    obtain rfl := hc.unique hd
    obtain rfl := hc'.unique hd'
    exact seriesExact hc hc' hperiod
  default := by
    intro now hlow hhigh
    obtain ⟨period, hresolve, hfrom, hto, -⟩ :=
      LinkStatisticsService.resolvePeriod_default hlow hhigh
    refine ⟨period, hresolve, ?_⟩
    have hthirty : ((EcmaDate.civil now).dayNumber + 1 -
        ((EcmaDate.civil now).dayNumber - 29)).toNat = 30 := by omega
    rw [eachUtcDate_eq hfrom hto, datesBetween, dayNumber_civilOfDay, Int.range, hthirty,
      List.map_map, List.map_map]
    rfl

end LinkStatistics

end Shortlink
