import Shortlink.Calendar.Decimal
import Shortlink.Calendar.Gregorian

/-!
# Dates of ECMAScript

A `Date` is its time value, the milliseconds since 1 January 1970 in UTC. Only what
needs no local time is here: the components, `Date.UTC`, `setUTCDate`, `toISOString` and
the reading of a date at midnight. `Date.UTC` takes the years 0 to 99 for 1900 to 1999.
-/

namespace Shortlink

namespace Calendar

/-- The text `YYYY-MM-DD` of a date whose year has four digits. -/
def CivilDate.text (c : CivilDate) : List Char :=
  padded 4 c.year.toNat ++ '-' :: (padded 2 c.month ++ '-' :: padded 2 c.day)

/-- The year of the date has at most four digits. -/
def CivilDate.FourDigits (c : CivilDate) : Prop := 0 ≤ c.year ∧ c.year ≤ 9999

namespace EcmaDate

def msPerDay : ℤ := 86400000

/-- The date of a time value. -/
def civil (t : ℤ) : CivilDate := civilOfDay (t / msPerDay)

def getUTCFullYear (t : ℤ) : ℤ := (civil t).year

/-- The month, counted from zero. -/
def getUTCMonth (t : ℤ) : ℤ := (civil t).month - 1

def getUTCDate (t : ℤ) : ℤ := (civil t).day

/-- `MakeDay`: months and days may overflow. -/
def makeDay (year month date : ℤ) : ℤ :=
  let ym := year + month / 12
  dayFromYear ym + daysBefore ym ((month % 12).toNat + 1) + (date - 1)

/-- `Date.UTC` of a year, a month counted from zero and a day. -/
def UTC (year month date : ℤ) : ℤ :=
  let fullYear := if 0 ≤ year ∧ year ≤ 99 then 1900 + year else year
  makeDay fullYear month date * msPerDay

def setUTCDate (t date : ℤ) : ℤ :=
  makeDay (getUTCFullYear t) (getUTCMonth t) date * msPerDay + t % msPerDay

/-- The year of `toISOString`, with a sign and six digits when four are too few. -/
def yearText (year : ℤ) : List Char :=
  if 0 ≤ year ∧ year ≤ 9999 then padded 4 year.toNat
  else (if year < 0 then '-' else '+') :: padded 6 year.natAbs

/-- The time of the day in `toISOString`. -/
def timeText (ms : ℕ) : List Char :=
  padded 2 (ms / 3600000) ++ ':' :: (padded 2 (ms / 60000 % 60) ++ ':' ::
    (padded 2 (ms / 1000 % 60) ++ '.' :: padded 3 (ms % 1000)))

def toISOString (t : ℤ) : List Char :=
  yearText (civil t).year ++ '-' :: (padded 2 (civil t).month ++ '-' ::
    (padded 2 (civil t).day ++ 'T' :: (timeText (t % msPerDay).toNat ++ ['Z'])))

end EcmaDate

/-! ### Texts of dates -/

namespace CivilDate

variable {c c' : CivilDate}

theorem day_lt_hundred (c : CivilDate) : c.day < 10 ^ 2 := by
  have hday := c.day_le
  have hlength := daysInMonth_le c.year c.month
  omega

theorem month_lt_hundred (c : CivilDate) : c.month < 10 ^ 2 := by
  have hmonth := c.month_le
  omega

theorem FourDigits.year_lt (h : c.FourDigits) : c.year.toNat < 10 ^ 4 := by
  obtain ⟨hlow, hhigh⟩ := h
  omega

theorem length_year (h : c.FourDigits) : (padded 4 c.year.toNat).length = 4 :=
  length_padded (by decide) h.year_lt

theorem length_month (c : CivilDate) : (padded 2 c.month).length = 2 :=
  length_padded (by decide) c.month_lt_hundred

theorem length_day (c : CivilDate) : (padded 2 c.day).length = 2 :=
  length_padded (by decide) c.day_lt_hundred

theorem length_text (h : c.FourDigits) : c.text.length = 10 := by
  simp [text, length_year h, length_month, length_day]

theorem text_lt_iff (h : c.FourDigits) (h' : c'.FourDigits) :
    c.text < c'.text ↔ c < c' := by
  have hpad : ∀ {w m n}, 0 < w → m < 10 ^ w → n < 10 ^ w →
      (padded w m = padded w n ↔ m = n) := by
    intro w m n _ _ _
    exact ⟨fun heq => by simpa using congrArg number heq, fun heq => heq ▸ rfl⟩
  rw [lt_iff_before, text, text, append_lt_append_iff ((length_year h).trans (length_year h').symm),
    padded_lt_iff (by decide) h.year_lt h'.year_lt, hpad (by decide) h.year_lt h'.year_lt,
    List.cons_lt_cons_iff, append_lt_append_iff (c.length_month.trans c'.length_month.symm),
    padded_lt_iff (by decide) c.month_lt_hundred c'.month_lt_hundred,
    hpad (by decide) c.month_lt_hundred c'.month_lt_hundred, List.cons_lt_cons_iff,
    padded_lt_iff (by decide) c.day_lt_hundred c'.day_lt_hundred, Before]
  have hyear := h.1
  have hyear' := h'.1
  simp only [lt_irrefl, false_or, true_and]
  omega

theorem text_injective (h : c.FourDigits) (h' : c'.FourDigits) (heq : c.text = c'.text) :
    c = c' := by
  have hlt := mt (text_lt_iff h h').2 (heq ▸ lt_irrefl _)
  have hgt := mt (text_lt_iff h' h).2 (heq ▸ lt_irrefl _)
  exact le_antisymm (not_lt.1 hgt) (not_lt.1 hlt)

end CivilDate

namespace EcmaDate

def midnight (c : CivilDate) : ℤ := c.dayNumber * msPerDay

theorem civil_of_day {t n : ℤ} (h : t / msPerDay = n) (c : CivilDate) (hc : c.dayNumber = n) :
    civil t = c := by
  rw [civil, h, ← hc, civilOfDay_dayNumber]

@[simp] theorem civil_midnight (c : CivilDate) : civil (midnight c) = c :=
  civil_of_day (Int.mul_ediv_cancel _ (by decide)) c rfl

theorem dayNumber_civil (t : ℤ) : (civil t).dayNumber = t / msPerDay :=
  dayNumber_civilOfDay _

/-- `MakeDay` of an existing month counts on from its first day. -/
theorem makeDay_eq {year month date : ℤ} {m : ℕ} (hmonth : month = m - 1) (hone : 1 ≤ m)
    (hle : m ≤ 12) :
    makeDay year month date = dayFromYear year + daysBefore year m + (date - 1) := by
  have hdiv : month / 12 = 0 := by omega
  have hmod : (month % 12).toNat + 1 = m := by omega
  simp only [makeDay, hdiv, hmod, Int.add_zero]

theorem makeDay_civil (c : CivilDate) (k : ℤ) :
    makeDay c.year (c.month - 1) (c.day + k) = c.dayNumber + k := by
  have hday := c.one_le_day
  rw [makeDay_eq rfl c.one_le_month c.month_le, CivilDate.dayNumber, CivilDate.yearDay]
  omega

/-- Changing the day of the month by `k` leads `k` days on. -/
theorem setUTCDate_add (t k : ℤ) : setUTCDate t (getUTCDate t + k) = t + k * msPerDay := by
  have hday := Int.mul_ediv_add_emod t msPerDay
  rw [setUTCDate, getUTCFullYear, getUTCMonth, getUTCDate, makeDay_civil, dayNumber_civil,
    Int.add_mul]
  rw [Int.mul_comm] at hday
  omega

/-- A date reads back from `Date.UTC` exactly when it exists and its year is not taken for
one of another century. -/
theorem UTC_reads_back {year month day : ℕ} :
    (getUTCFullYear (UTC year (month - 1) day) = year ∧
      getUTCMonth (UTC year (month - 1) day) = month - 1 ∧
      getUTCDate (UTC year (month - 1) day) = day) ↔
    100 ≤ year ∧ ∃ c : CivilDate, c.year = year ∧ c.month = month ∧ c.day = day := by
  constructor
  · rintro ⟨hyear, hmonth, hday⟩
    have hmonth' : (civil (UTC year (month - 1) day)).month = month := by
      rw [getUTCMonth] at hmonth
      omega
    refine ⟨?_, _, hyear, hmonth', Int.ofNat_inj.1 hday⟩
    -- A year of the first century is read back as one of the twentieth.
    by_contra hcentury
    have hfull : 0 ≤ (year : ℤ) ∧ (year : ℤ) ≤ 99 := by omega
    have hnumber := dayNumber_civil (UTC year (month - 1) day)
    have hmake : UTC year (month - 1) day / msPerDay =
        dayFromYear (1900 + year) + daysBefore (1900 + year) month + (day - 1) := by
      simp only [UTC, if_pos hfull]
      rw [Int.mul_ediv_cancel _ (by decide)]
      exact makeDay_eq rfl (hmonth' ▸ CivilDate.one_le_month _) (hmonth' ▸ CivilDate.month_le _)
    have hone := (civil (UTC year (month - 1) day)).one_le_day
    have hlt := (civil (UTC year (month - 1) day)).dayNumber_lt
    have hle : dayFromYear (year + 1) ≤ dayFromYear (1900 + year) := dayFromYear_le (by omega)
    rw [getUTCFullYear] at hyear
    rw [getUTCDate] at hday
    rw [hyear] at hlt
    omega
  · rintro ⟨hcentury, c, hyear, rfl, rfl⟩
    have hutc : UTC year (c.month - 1) c.day = midnight c := by
      have hfull : ¬ (0 ≤ (year : ℤ) ∧ (year : ℤ) ≤ 99) := by omega
      have hmake := makeDay_civil c 0
      rw [Int.add_zero, Int.add_zero, hyear] at hmake
      simp only [UTC, if_neg hfull, hmake, midnight]
    rw [hutc, getUTCFullYear, getUTCMonth, getUTCDate, civil_midnight]
    exact ⟨hyear, rfl, rfl⟩

/-- The first ten characters of `toISOString` are the date. -/
theorem toISOString_take {t : ℤ} (h : (civil t).FourDigits) :
    (toISOString t).take 10 = (civil t).text := by
  have htext : toISOString t =
      (civil t).text ++ 'T' :: (timeText (t % msPerDay).toNat ++ ['Z']) := by
    have hyear : 0 ≤ (civil t).year ∧ (civil t).year ≤ 9999 := h
    rw [toISOString, yearText, if_pos hyear, CivilDate.text]
    simp
  rw [htext, List.take_left' (CivilDate.length_text h)]

end EcmaDate

/-! ### Reading a date -/

/-- The numbers of a text that matches `^(\d{4})-(\d{2})-(\d{2})$`. -/
def readDate : List Char → Option (ℕ × ℕ × ℕ)
  | [y₁, y₂, y₃, y₄, '-', m₁, m₂, '-', d₁, d₂] =>
      if [y₁, y₂, y₃, y₄, m₁, m₂, d₁, d₂].all Char.isDigit then
        some (number [y₁, y₂, y₃, y₄], number [m₁, m₂], number [d₁, d₂])
      else none
  | _ => none

/-- The text of three numbers. -/
def dateText (year month day : ℕ) : List Char :=
  padded 4 year ++ '-' :: (padded 2 month ++ '-' :: padded 2 day)

theorem readDate_dateText {year month day : ℕ} (hyear : year < 10 ^ 4)
    (hmonth : month < 10 ^ 2) (hday : day < 10 ^ 2) :
    readDate (dateText year month day) = some (year, month, day) := by
  obtain ⟨y₁, y₂, y₃, y₄, hy⟩ := List.length_eq_four.1 (length_padded (by decide) hyear)
  obtain ⟨m₁, m₂, hm⟩ := List.length_eq_two.1 (length_padded (by decide) hmonth)
  obtain ⟨d₁, d₂, hd⟩ := List.length_eq_two.1 (length_padded (by decide) hday)
  have hdigits : [y₁, y₂, y₃, y₄, m₁, m₂, d₁, d₂].all Char.isDigit = true := by
    have hall : [y₁, y₂, y₃, y₄, m₁, m₂, d₁, d₂] =
        padded 4 year ++ (padded 2 month ++ padded 2 day) := by rw [hy, hm, hd]; rfl
    rw [hall, List.all_eq_true]
    intro c hc
    rcases List.mem_append.1 hc with hc | hc
    · exact digits_padded 4 year c hc
    rcases List.mem_append.1 hc with hc | hc
    · exact digits_padded 2 month c hc
    · exact digits_padded 2 day c hc
  have hread : readDate (dateText year month day) =
      some (number (padded 4 year), number (padded 2 month), number (padded 2 day)) := by
    rw [dateText, hy, hm, hd]
    exact if_pos hdigits
  rw [hread, number_padded, number_padded, number_padded]

theorem eq_dateText_of_readDate {cs : List Char} {year month day : ℕ}
    (h : readDate cs = some (year, month, day)) :
    cs = dateText year month day ∧ year < 10 ^ 4 ∧ month < 10 ^ 2 ∧ day < 10 ^ 2 := by
  rw [readDate.eq_def] at h
  split at h
  · rename_i y₁ y₂ y₃ y₄ m₁ m₂ d₁ d₂
    split at h
    · rename_i hdigits
      cases h
      rw [List.all_eq_true] at hdigits
      have hy : Digits [y₁, y₂, y₃, y₄] := fun c hc => hdigits c (by simp at hc ⊢; tauto)
      have hm : Digits [m₁, m₂] := fun c hc => hdigits c (by simp at hc ⊢; tauto)
      have hd : Digits [d₁, d₂] := fun c hc => hdigits c (by simp at hc ⊢; tauto)
      refine ⟨?_, number_lt hy, number_lt hm, number_lt hd⟩
      rw [dateText]
      have hpy := padded_number hy (Nat.succ_pos _)
      have hpm := padded_number hm (Nat.succ_pos _)
      have hpd := padded_number hd (Nat.succ_pos _)
      simp only [List.length_cons, List.length_nil, Nat.zero_add, Nat.reduceAdd] at hpy hpm hpd
      rw [hpy, hpm, hpd]
      rfl
    · cases h
  · cases h

/-- `new Date(date + "T00:00:00.000Z")`; there is no time value when the date does not
exist. -/
def EcmaDate.parseMidnight (date : List Char) : Option ℤ :=
  (readDate date).bind fun ⟨year, month, day⟩ =>
    if h : 1 ≤ month ∧ month ≤ 12 ∧ 1 ≤ day ∧ day ≤ daysInMonth year month then
      some (EcmaDate.midnight ⟨year, month, day, h.1, h.2.1, h.2.2.1, h.2.2.2⟩)
    else none

theorem CivilDate.text_eq_dateText (c : CivilDate) :
    c.text = dateText c.year.toNat c.month c.day := rfl

theorem EcmaDate.parseMidnight_text {c : CivilDate} (h : c.FourDigits) :
    EcmaDate.parseMidnight c.text = some (EcmaDate.midnight c) := by
  have hread := readDate_dateText h.year_lt c.month_lt_hundred c.day_lt_hundred
  obtain ⟨year, month, day, h₁, h₂, h₃, h₄⟩ := c
  obtain ⟨y, rfl⟩ := Int.eq_ofNat_of_zero_le h.1
  rw [EcmaDate.parseMidnight, CivilDate.text_eq_dateText, hread]
  exact dif_pos ⟨h₁, h₂, h₃, h₄⟩

end Calendar

end Shortlink
