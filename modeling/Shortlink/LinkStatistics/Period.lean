import Shortlink.Calendar.Month
import Shortlink.Storage.Error
import Mathlib.Data.Int.Interval
import Mathlib.Data.Set.Card

/-!
# The period of a report

`LinkStatisticsService.resolvePeriod`. A pair of texts is accepted when both spell dates
that exist, in this order, and touch at most twelve months.
-/

namespace Shortlink

namespace LinkStatistics

open Shortlink.Storage Shortlink.Calendar

def MAX_INCLUSIVE_CALENDAR_MONTHS : ℤ := 12

def DEFAULT_PERIOD_DAYS : ℤ := 30

/-- `LinkStatisticsPeriodQueryDto`. -/
structure PeriodQuery where
  fromDate : Option String
  toDate : Option String
  deriving DecidableEq

structure StatisticsPeriod where
  fromDate : String
  toDate : String
  deriving DecidableEq

/-- An error that leaves the service: an HTTP exception with its body, an error of the
storage or one of the runtime. -/
inductive LinkStatisticsError where
  | http (status : ℕ) (code message : String) (errors : List (String × List String))
  | rangeError (message : String)
  | storage (e : StorageError)
  deriving DecidableEq

/-- `value.slice(start, stop)`. -/
def slice (value : String) (start stop : ℕ) : List Char :=
  (value.toList.take stop).drop start

namespace LinkStatisticsService

def validationError (errors : List (String × List String)) : LinkStatisticsError :=
  .http 422 "VALIDATION_ERROR" "Validation failed." errors

def linkNotFoundException : LinkStatisticsError :=
  .http 404 "LINK_NOT_FOUND" "Link not found." []

def forbiddenException : LinkStatisticsError :=
  .http 403 "FORBIDDEN" "You do not have access to this link." []

/-- The months from one date to another, counting both. -/
def inclusiveCalendarMonths (fromDate toDate : String) : ℤ :=
  ((number (slice toDate 0 4) : ℤ) - number (slice fromDate 0 4)) * 12 +
    (number (slice toDate 5 7) - number (slice fromDate 5 7)) + 1

def isValidUtcCalendarDate (value : String) : Bool :=
  match readDate value.toList with
  | none => false
  | some (year, month, day) =>
      let date := EcmaDate.UTC year (month - 1) day
      decide (EcmaDate.getUTCFullYear date = year ∧ EcmaDate.getUTCMonth date = month - 1 ∧
        EcmaDate.getUTCDate date = day)

def utcToday (now : ℤ) : String := String.ofList ((EcmaDate.toISOString now).take 10)

/-- The date some days on; without a value when `date` is not one. -/
def addUtcDays (date : String) (days : ℤ) : Option String :=
  (EcmaDate.parseMidnight date.toList).map fun cursor =>
    String.ofList
      ((EcmaDate.toISOString (EcmaDate.setUTCDate cursor (EcmaDate.getUTCDate cursor + days))).take
        10)

/-- The check of a period given by both of its ends. -/
def checkPeriod (fromDate toDate : String) : Except LinkStatisticsError StatisticsPeriod :=
  if ¬ isValidUtcCalendarDate fromDate ∨ ¬ isValidUtcCalendarDate toDate then
    .error (validationError
      [("period", ["from and to must be valid UTC calendar dates (YYYY-MM-DD)."])])
  else if fromDate > toDate then
    .error (validationError [("period", ["from must be less than or equal to to."])])
  else if inclusiveCalendarMonths fromDate toDate > MAX_INCLUSIVE_CALENDAR_MONTHS then
    .error (validationError
      [("period", ["The period must span at most " ++ toString MAX_INCLUSIVE_CALENDAR_MONTHS ++
        " inclusive calendar months."])])
  else .ok ⟨fromDate, toDate⟩

def resolvePeriod (now : ℤ) (query : PeriodQuery) :
    Except LinkStatisticsError StatisticsPeriod :=
  match query.fromDate, query.toDate with
  | none, none =>
      let toDate := utcToday now
      match addUtcDays toDate (-(DEFAULT_PERIOD_DAYS - 1)) with
      -- `toISOString` of a `Date` without a time value.
      | none => .error (.rangeError "Invalid time value")
      | some fromDate => .ok ⟨fromDate, toDate⟩
  | some fromDate, some toDate => checkPeriod fromDate toDate
  | _, _ => .error (validationError
      [("period", ["Both from and to are required when specifying a period."])])

end LinkStatisticsService

/-! ### What the texts spell -/

/-- The text is the `YYYY-MM-DD` of the date. -/
def Spells (s : String) (c : CivilDate) : Prop := s.toList = c.text ∧ c.FourDigits

/-- The months of the dates from `c` to `c'`. -/
def monthsTouched (c c' : CivilDate) : Set ℤ :=
  {i | ∃ d : CivilDate, c ≤ d ∧ d ≤ c' ∧ d.monthIndex = i}

/-- Two dates from the year 100 on, in order, that touch at most twelve months. -/
structure Reportable (c c' : CivilDate) : Prop where
  fromYear : 100 ≤ c.year
  toYear : 100 ≤ c'.year
  ordered : c ≤ c'
  months : (monthsTouched c c').ncard ≤ 12

theorem monthsTouched_eq {c c' : CivilDate} (h : c ≤ c') :
    monthsTouched c c' = Set.Icc c.monthIndex c'.monthIndex := by
  ext i
  constructor
  · rintro ⟨d, hlow, hhigh, rfl⟩
    exact ⟨CivilDate.monthIndex_le hlow, CivilDate.monthIndex_le hhigh⟩
  · rintro ⟨hlow, hhigh⟩
    exact exists_of_monthIndex h hlow hhigh

theorem ncard_monthsTouched {c c' : CivilDate} (h : c ≤ c') :
    ((monthsTouched c c').ncard : ℤ) = c'.monthIndex - c.monthIndex + 1 := by
  have hle := CivilDate.monthIndex_le h
  rw [monthsTouched_eq h, Set.ncard_eq_toFinset_card', Set.toFinset_Icc, Int.card_Icc]
  omega

namespace Spells

variable {s t : String} {c c' : CivilDate}

theorem lt_iff (h : Spells s c) (h' : Spells t c') : s < t ↔ c < c' := by
  rw [String.lt_iff_toList_lt, h.1, h'.1, CivilDate.text_lt_iff h.2 h'.2]

theorem unique (h : Spells s c) (h' : Spells s c') : c = c' :=
  CivilDate.text_injective h.2 h'.2 (h.1.symm.trans h'.1)

theorem year (h : Spells s c) : (number (slice s 0 4) : ℤ) = c.year := by
  have hlength := CivilDate.length_year h.2
  rw [slice, h.1, CivilDate.text, List.take_left' hlength, List.drop_zero, number_padded]
  exact Int.toNat_of_nonneg h.2.1

theorem month (h : Spells s c) : number (slice s 5 7) = c.month := by
  have hhead : (padded 4 c.year.toNat ++ ['-']).length = 5 := by
    simp [CivilDate.length_year h.2]
  have htext : c.text = (padded 4 c.year.toNat ++ ['-']) ++
      (padded 2 c.month ++ '-' :: padded 2 c.day) := by
    simp [CivilDate.text]
  rw [slice, h.1, htext, List.drop_take, List.drop_left' hhead,
    List.take_left' c.length_month, number_padded]

theorem slice_month (h : Spells s c) : slice s 0 7 = monthText c.monthIndex := by
  rw [slice, h.1, List.drop_zero, CivilDate.take_text h.2]

end Spells

namespace LinkStatisticsService

/-- The check of a text is that it spells a date from the year 100 on. -/
theorem isValidUtcCalendarDate_iff {value : String} :
    isValidUtcCalendarDate value = true ↔ ∃ c, Spells value c ∧ 100 ≤ c.year := by
  constructor
  · intro h
    rw [isValidUtcCalendarDate] at h
    cases hread : readDate value.toList with
    | none => simp [hread] at h
    | some numbers =>
        obtain ⟨year, month, day⟩ := numbers
        simp only [hread, decide_eq_true_eq] at h
        obtain ⟨hcentury, c, hyear, rfl, rfl⟩ := EcmaDate.UTC_reads_back.1 h
        obtain ⟨htext, hlt, -, -⟩ := eq_dateText_of_readDate hread
        refine ⟨c, ⟨?_, ?_⟩, by omega⟩
        · rw [htext, CivilDate.text_eq_dateText, hyear, Int.toNat_natCast]
        · rw [CivilDate.FourDigits, hyear]
          omega
  · rintro ⟨c, ⟨htext, hfour⟩, hcentury⟩
    have hyear : (c.year.toNat : ℤ) = c.year := Int.toNat_of_nonneg hfour.1
    have hread : readDate value.toList = some (c.year.toNat, c.month, c.day) := by
      rw [htext, CivilDate.text_eq_dateText]
      exact readDate_dateText hfour.year_lt c.month_lt_hundred c.day_lt_hundred
    simp only [isValidUtcCalendarDate, hread, decide_eq_true_eq]
    exact EcmaDate.UTC_reads_back.2 ⟨by omega, c, hyear.symm, rfl, rfl⟩

theorem inclusiveCalendarMonths_eq {s t : String} {c c' : CivilDate} (h : Spells s c)
    (h' : Spells t c') : inclusiveCalendarMonths s t = c'.monthIndex - c.monthIndex + 1 := by
  rw [inclusiveCalendarMonths, h.year, h'.year, h.month, h'.month, CivilDate.monthIndex,
    CivilDate.monthIndex]
  omega

theorem checkPeriod_ok_iff {s t : String} {period : StatisticsPeriod} :
    checkPeriod s t = .ok period ↔
      period = ⟨s, t⟩ ∧ ∃ c c', Spells s c ∧ Spells t c' ∧ Reportable c c' := by
  rw [checkPeriod]
  split
  · rename_i hinvalid
    refine ⟨fun h => (by cases h), fun ⟨_, c, c', hs, ht, hperiod⟩ => ?_⟩
    have hfrom := isValidUtcCalendarDate_iff.2 ⟨c, hs, hperiod.fromYear⟩
    have hto := isValidUtcCalendarDate_iff.2 ⟨c', ht, hperiod.toYear⟩
    exact absurd hinvalid (by simp [hfrom, hto])
  rename_i hvalid
  simp only [not_or, not_not, isValidUtcCalendarDate_iff] at hvalid
  obtain ⟨⟨c, hs, hyear⟩, c', ht, hyear'⟩ := hvalid
  have hdates : ∀ {d d'}, Spells s d → Spells t d' → d = c ∧ d' = c' :=
    fun hd hd' => ⟨hd.unique hs, hd'.unique ht⟩
  split
  · rename_i hlater
    refine ⟨fun h => (by cases h), fun ⟨_, d, d', hd, hd', hperiod⟩ => ?_⟩
    obtain ⟨rfl, rfl⟩ := hdates hd hd'
    exact absurd ((ht.lt_iff hs).1 hlater) (not_lt.2 hperiod.ordered)
  rename_i hordered
  have hle : c ≤ c' := not_lt.1 fun h => hordered ((ht.lt_iff hs).2 h)
  have hmonths := ncard_monthsTouched hle
  rw [inclusiveCalendarMonths_eq hs ht, MAX_INCLUSIVE_CALENDAR_MONTHS]
  split
  · refine ⟨fun h => (by cases h), fun ⟨_, d, d', hd, hd', hperiod⟩ => ?_⟩
    obtain ⟨rfl, rfl⟩ := hdates hd hd'
    have htwelve := hperiod.months
    omega
  · refine ⟨fun h => ⟨by cases h; rfl, c, c', hs, ht, hyear, hyear', hle, by omega⟩, ?_⟩
    rintro ⟨rfl, -⟩
    rfl

/-- The text some days after a date. -/
theorem addUtcDays_spells {s : String} {c : CivilDate} (h : Spells s c) {days : ℤ}
    (hfour : (civilOfDay (c.dayNumber + days)).FourDigits) :
    ∃ s', addUtcDays s days = some s' ∧ Spells s' (civilOfDay (c.dayNumber + days)) := by
  have hcivil : EcmaDate.civil (EcmaDate.midnight c + days * EcmaDate.msPerDay) =
      civilOfDay (c.dayNumber + days) := by
    rw [EcmaDate.midnight, ← Int.add_mul, EcmaDate.civil, Int.mul_ediv_cancel _ (by decide)]
  refine ⟨_, by rw [addUtcDays, h.1, EcmaDate.parseMidnight_text h.2, Option.map_some], ?_, hfour⟩
  rw [String.toList_ofList, EcmaDate.setUTCDate_add, EcmaDate.toISOString_take (hcivil ▸ hfour),
    hcivil]

/-- Without a query the period is the thirty days up to today. -/
theorem resolvePeriod_default {now : ℤ} (hlow : 101 ≤ (EcmaDate.civil now).year)
    (hhigh : (EcmaDate.civil now).year ≤ 9999) :
    ∃ period, resolvePeriod now ⟨none, none⟩ = .ok period ∧
      Spells period.fromDate (civilOfDay ((EcmaDate.civil now).dayNumber - 29)) ∧
      Spells period.toDate (EcmaDate.civil now) ∧
      100 ≤ (civilOfDay ((EcmaDate.civil now).dayNumber - 29)).year := by
  have hfour : (EcmaDate.civil now).FourDigits := ⟨by omega, hhigh⟩
  have hto : Spells (utcToday now) (EcmaDate.civil now) := by
    refine ⟨?_, hfour⟩
    rw [utcToday, String.toList_ofList, EcmaDate.toISOString_take hfour]
  generalize EcmaDate.civil now = today at *
  -- Twenty-nine days back is not before the year 100.
  have hyear : 100 ≤ (civilOfDay (today.dayNumber + -29)).year := by
    by_contra hneg
    have hlt := (civilOfDay (today.dayNumber + -29)).dayNumber_lt
    have hstart : dayFromYear today.year ≤ today.dayNumber := Int.le_add_of_nonneg_right (by omega)
    rw [dayNumber_civilOfDay] at hlt
    simp only [dayFromYear] at hlt hstart
    omega
  have hback : (civilOfDay (today.dayNumber + -29)).FourDigits := by
    have hle : civilOfDay (today.dayNumber + -29) ≤ today := by
      rw [CivilDate.le_def, dayNumber_civilOfDay]
      omega
    exact ⟨by omega, (CivilDate.year_le hle).trans hhigh⟩
  obtain ⟨fromDate, hadd, hfrom⟩ := addUtcDays_spells hto hback
  refine ⟨⟨fromDate, utcToday now⟩, ?_, hfrom, hto, hyear⟩
  simp only [resolvePeriod, DEFAULT_PERIOD_DAYS, Int.reduceSub, Int.reduceNeg, hadd]

end LinkStatisticsService

end LinkStatistics

end Shortlink
