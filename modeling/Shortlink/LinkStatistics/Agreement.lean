import Shortlink.LinkStatistics.Consistency
import Shortlink.LinkStatistics.Report
import Shortlink.Transaction.Issued
import Mathlib.Algebra.Order.BigOperators.Group.List

/-!
# The views of a report agree

The totals, the daily series and the countries of a report are sums of the same daily
rows; the monthly series comes from the other table, whose rows are sums of the daily rows
of whole months (`Consistent`). The rows meet the series by their texts, so the dates that
are recorded have to exist.
-/

namespace Shortlink

namespace LinkStatistics

open Shortlink.Storage Shortlink.Table Shortlink.Transaction
open Shortlink.Interaction Shortlink.Calendar

/-! ### Rows and dates -/

namespace UtcDate

variable {c c' : CivilDate} {d : UtcDate}

theorem IsDate.exists_civil (h : d.IsDate) : ∃ c : CivilDate, c.FourDigits ∧ ofCivil c = d := by
  obtain ⟨hlow, hhigh, hone, hmonth, hday, hlast⟩ := h
  refine ⟨⟨d.year, d.month, d.day, hone, hmonth, hday, hlast⟩,
    ⟨Int.natCast_nonneg _, Int.ofNat_le.2 hhigh⟩, ?_⟩
  simp [ofCivil]

theorem ofCivil_le_iff (h : c.FourDigits) (h' : c'.FourDigits) :
    ofCivil c ≤ ofCivil c' ↔ c ≤ c' := by
  have hyear := h.1
  have hyear' := h'.1
  have hlex : ofCivil c' < ofCivil c ↔ c'.Before c := by
    change toLexTriple (ofCivil c') < toLexTriple (ofCivil c) ↔ _
    simp only [toLexTriple, ofCivil, Prod.Lex.lt_iff, ofLex_toLex, CivilDate.Before]
    omega
  rw [← not_lt, ← not_lt, hlex, CivilDate.lt_iff_before]

theorem ofCivil_injective (h : c.FourDigits) (h' : c'.FourDigits)
    (heq : ofCivil c = ofCivil c') : c = c' :=
  le_antisymm ((ofCivil_le_iff h h').1 heq.le) ((ofCivil_le_iff h' h).1 heq.ge)

/-- The text of a row's date is that of the calendar. -/
theorem toIsoString_ofCivil (c : CivilDate) : (ofCivil c).toIsoString = isoText c := by
  rw [← String.toList_inj]
  simp [toIsoString, isoText, padded, ofCivil, CivilDate.text]

/-- `occurredOn::text` loses nothing by `slice(0, 10)`. -/
theorem toUtcDateString_ofCivil (h : c.FourDigits) : toUtcDateString (ofCivil c) = isoText c := by
  rw [toUtcDateString, toIsoString_ofCivil, slice, (isoText_spells h).1, List.drop_zero,
    List.take_of_length_le (CivilDate.length_text h).le]
  rfl

end UtcDate

namespace UtcMonth

def ofIndex (i : ℤ) : UtcMonth := ⟨(i / 12).toNat, (i % 12).toNat + 1⟩

theorem text_ofIndex (i : ℤ) : (ofIndex i).text = String.ofList (monthText i) := by
  rw [← String.toList_inj]
  simp [text, ofIndex, UtcDate.padded, monthText]

theorem utcMonth_ofCivil (c : CivilDate) : (UtcDate.ofCivil c).utcMonth = ofIndex c.monthIndex := by
  rw [ofIndex, c.monthIndex_div, c.monthIndex_mod]
  rfl

theorem ofIndex_injOn {i j : ℤ} (hi : 0 ≤ i) (hj : 0 ≤ j) (h : ofIndex i = ofIndex j) : i = j := by
  simp only [ofIndex, UtcMonth.mk.injEq] at h
  omega

/-- A month is determined by its text, which has its year up to the hyphen. -/
theorem text_injective : Function.Injective text := by
  intro m m' h
  have hlist : ∀ m : UtcMonth, m.text.toList =
      Calendar.padded 4 m.year ++ '-' :: Calendar.padded 2 m.month := by
    intro m
    simp [text, UtcDate.padded]
  have hsplit : ∀ m : UtcMonth, m.text.toList.splitOn '-' =
      [Calendar.padded 4 m.year, Calendar.padded 2 m.month] := by
    intro m
    rw [hlist, List.splitOn_eq_splitOnP,
      List.splitOnP_append_cons_of_forall_mem padded_plain '-' rfl,
      List.splitOnP_eq_singleton padded_plain]
  have hparts := (hsplit m).symm.trans ((congrArg (·.toList.splitOn '-') h).trans (hsplit m'))
  simp only [List.cons.injEq, and_true] at hparts
  obtain ⟨year, month⟩ := m
  obtain ⟨year', month'⟩ := m'
  have hyear := congrArg number hparts.1
  have hmonth := congrArg number hparts.2
  rw [number_padded, number_padded] at hyear hmonth
  exact congrArg₂ UtcMonth.mk hyear hmonth

end UtcMonth

theorem dateParameter_eq_ok_iff {s : String} {d : UtcDate} :
    dateParameter s = .ok d ↔ ∃ c, Spells s c ∧ 1 ≤ c.year ∧ UtcDate.ofCivil c = d := by
  rw [dateParameter]
  constructor
  · intro h
    split at h
    · cases h
    rename_i year month day hread
    split at h
    · rename_i hdate
      cases h
      obtain ⟨hlow, hhigh, hone, hmonth, hday, hlast⟩ := hdate
      refine ⟨⟨year, month, day, hone, hmonth, hday, hlast⟩, ⟨?_, ?_⟩, ?_, ?_⟩
      · exact (eq_dateText_of_readDate hread).1
      · exact ⟨Int.natCast_nonneg _, Int.ofNat_le.2 hhigh⟩
      · exact Int.ofNat_le.2 hlow
      · rfl
    · cases h
  · rintro ⟨c, ⟨htext, hfour⟩, hyear, rfl⟩
    have hread : readDate s.toList = some (c.year.toNat, c.month, c.day) := by
      rw [htext, CivilDate.text_eq_dateText]
      exact readDate_dateText hfour.year_lt c.month_lt_hundred c.day_lt_hundred
    have hcast : (c.year.toNat : ℤ) = c.year := Int.toNat_of_nonneg hfour.1
    have hhigh := hfour.2
    have hdate : UtcDate.IsDate ⟨c.year.toNat, c.month, c.day⟩ := by
      refine ⟨?_, ?_, c.one_le_month, c.month_le, c.one_le_day, ?_⟩
      · change 1 ≤ c.year.toNat
        omega
      · change c.year.toNat ≤ 9999
        omega
      · change c.day ≤ daysInMonth (c.year.toNat : ℤ) c.month
        rw [hcast]
        exact c.day_le
    simp only [hread, if_pos hdate]
    rfl

/-! ### Counts -/

/-- The accesses and the daily unique visitors, which are added up together. -/
abbrev Counts : Type := ℕ × ℕ

def LinkDailyAggregate.counts (a : LinkDailyAggregate) : Counts :=
  (a.accessCount, a.uniqueVisitorCount)

def LinkStatisticsTotals.counts (t : LinkStatisticsTotals) : Counts :=
  (t.accesses, t.dailyUniqueVisitors)

def LinkStatisticsDailyPoint.counts (p : LinkStatisticsDailyPoint) : Counts :=
  (p.accesses, p.dailyUniqueVisitors)

def LinkStatisticsMonthlyPoint.counts (p : LinkStatisticsMonthlyPoint) : Counts :=
  (p.accesses, p.dailyUniqueVisitors)

def LinkStatisticsCountryPoint.counts (p : LinkStatisticsCountryPoint) : Counts :=
  (p.accesses, p.dailyUniqueVisitors)

theorem counts_sumRows (rows : List LinkDailyAggregate) :
    (sumRows rows).counts = (rows.map (·.counts)).sum := by
  induction rows with
  | nil => rfl
  | cons a rows ih =>
      rw [List.map_cons, List.sum_cons, ← ih]
      simp [sumRows, LinkStatisticsTotals.counts, LinkDailyAggregate.counts]

def StatisticsDb.rowsOfMonth (linkId : String) (month : UtcMonth) (db : StatisticsDb) :
    List LinkDailyAggregate :=
  db.dailyAggregates.filter fun a => a.linkId = linkId ∧ a.occurredOn.utcMonth = month

def DatesExist (db : StatisticsDb) : Prop := ∀ a ∈ db.dailyAggregates, a.occurredOn.IsDate

/-! ### The daily series -/

section

variable {c c' : CivilDate} {rows : List LinkDailyAggregate}

def pointOf (rows : List LinkDailyAggregate) (d : CivilDate) : LinkStatisticsDailyPoint :=
  let totals := sumRows (rows.filter fun a => a.occurredOn = UtcDate.ofCivil d)
  ⟨isoText d, totals.accesses, totals.dailyUniqueVisitors⟩

@[simp] theorem date_pointOf (rows : List LinkDailyAggregate) (d : CivilDate) :
    (pointOf rows d).date = isoText d := rfl

theorem counts_pointOf (rows : List LinkDailyAggregate) (d : CivilDate) :
    (pointOf rows d).counts =
      ((rows.filter fun a => a.occurredOn = UtcDate.ofCivil d).map (·.counts)).sum :=
  counts_sumRows _

theorem dailyPoints_eq {period : StatisticsPeriod} (hfrom : Spells period.fromDate c)
    (hto : Spells period.toDate c') (hrows : ∀ a ∈ rows, a.occurredOn.IsDate) :
    dailyPoints period (groupByDate rows) = (datesBetween c c').map (pointOf rows) := by
  rw [dailyPoints, eachUtcDate_eq hfrom hto, List.map_map]
  refine List.map_congr_left fun d hd => ?_
  have hfour := fourDigits_of_mem hfrom.2 hto.2 hd
  have htext : ∀ a ∈ rows, ∀ k, (∃ b ∈ rows, b.occurredOn = k) ∨ k = UtcDate.ofCivil d →
      toUtcDateString a.occurredOn = toUtcDateString k → a.occurredOn = k := by
    intro a ha k hk heq
    have hcivil : ∃ c : CivilDate, c.FourDigits ∧ UtcDate.ofCivil c = k := by
      rcases hk with ⟨b, hb, rfl⟩ | rfl
      · exact (hrows b hb).exists_civil
      · exact ⟨d, hfour, rfl⟩
    obtain ⟨e, he, rfl⟩ := hcivil
    obtain ⟨e', he', hocc⟩ := (hrows a ha).exists_civil
    rw [← hocc, UtcDate.toUtcDateString_ofCivil he, UtcDate.toUtcDateString_ofCivil he'] at heq
    have hspells : Spells (isoText e) e' := heq ▸ isoText_spells he'
    rw [← hocc, (isoText_spells he).unique hspells]
  have hpoint : (mapGet (dailyByDate (groupByDate rows)) (isoText d)).getD (sumRows []) =
      sumRows (rows.filter fun a => a.occurredOn = UtcDate.ofCivil d) := by
    rw [← UtcDate.toUtcDateString_ofCivil hfour, dailyByDate, groupByDate, List.map_map]
    exact @mapGet_groupBy _ _ _ _ _ rows _ _ _ toUtcDateString sumRows _
      (List.perm_insertionSort _ _) htext
  simp only [Function.comp_apply, pointOf, ← hpoint, LinkStatisticsDailyPoint.mk.injEq, true_and]
  generalize mapGet (dailyByDate (groupByDate rows)) (isoText d) = point
  exact ⟨Option.getD_map (·.accesses) (sumRows []) point,
    Option.getD_map (·.dailyUniqueVisitors) (sumRows []) point⟩

theorem nodup_datesBetween (h : c.FourDigits) (h' : c'.FourDigits) :
    ((datesBetween c c').map UtcDate.ofCivil).Nodup :=
  List.Nodup.map_on
    (fun _ hd _ hd' => UtcDate.ofCivil_injective (fourDigits_of_mem h h' hd)
      (fourDigits_of_mem h h' hd'))
    ((pairwise_datesBetween c c').imp ne_of_lt)

/-- The daily points add up to the rows of the period. -/
theorem sum_dailyPoints {period : StatisticsPeriod} (hfrom : Spells period.fromDate c)
    (hto : Spells period.toDate c')
    (hrows : ∀ a ∈ rows, a.occurredOn.IsDate ∧ UtcDate.ofCivil c ≤ a.occurredOn ∧
      a.occurredOn ≤ UtcDate.ofCivil c') :
    ((dailyPoints period (groupByDate rows)).map (·.counts)).sum = (rows.map (·.counts)).sum := by
  have hcover : ∀ a ∈ rows, a.occurredOn ∈ (datesBetween c c').map UtcDate.ofCivil := by
    intro a ha
    obtain ⟨hdate, hlow, hhigh⟩ := hrows a ha
    obtain ⟨d, hd, hocc⟩ := hdate.exists_civil
    rw [← hocc] at hlow hhigh ⊢
    exact List.mem_map_of_mem (mem_datesBetween.2
      ⟨(UtcDate.ofCivil_le_iff hfrom.2 hd).1 hlow, (UtcDate.ofCivil_le_iff hd hto.2).1 hhigh⟩)
  have hsum := sum_keys LinkDailyAggregate.counts (nodup_datesBetween hfrom.2 hto.2) hcover
  rw [← hsum, dailyPoints_eq hfrom hto fun a ha => (hrows a ha).1, List.map_map, List.map_map]
  exact congrArg List.sum (List.map_congr_left fun d _ => counts_pointOf rows d)

end

/-! ### The monthly series -/

section

variable {c c' : CivilDate} {db : StatisticsDb} {linkId : String}

theorem counts_rowsOfMonth (hdb : Consistent db) (month : UtcMonth) :
    (db.monthlyAccesses fun k => k = (linkId, month),
      db.monthlyVisits fun k => k = (linkId, month)) =
      ((db.rowsOfMonth linkId month).map (·.counts)).sum := by
  rw [← counts_sumRows, hdb.monthlyAccesses, hdb.monthlyVisits]
  simp only [StatisticsDb.dailyAccesses, StatisticsDb.dailyVisits, sumWhere, Prod.mk.injEq]
  rfl

/-- What the monthly rows of the period answer for a month of it. -/
theorem mapGet_monthlyByKey (linkId : String) (hkeys : db.AggregateKeys) {month : UtcMonth}
    {start stop : String}
    (hlow : start ≤ month.text) (hhigh : month.text ≤ stop) :
    ((mapGet (monthlyByKey (db.selectMonths linkId start stop)) month.text).getD ⟨0, 0⟩).counts =
      (db.monthlyAccesses fun k => k = (linkId, month),
        db.monthlyVisits fun k => k = (linkId, month)) := by
  have hmem : ∀ a : LinkMonthlyAggregate, a ∈ db.selectMonths linkId start stop ↔
      a ∈ db.monthlyAggregates ∧ a.linkId = linkId ∧ start ≤ a.occurredMonth.text ∧
        a.occurredMonth.text ≤ stop := by
    intro a
    rw [StatisticsDb.selectMonths, List.mem_insertionSort, List.mem_filter, decide_eq_true_eq]
  have hentries : (monthlyByKey (db.selectMonths linkId start stop)).map (·.1) =
      (db.selectMonths linkId start stop).map (·.occurredMonth.text) := by
    rw [monthlyByKey, List.map_map]
    rfl
  have hrows : (db.selectMonths linkId start stop).Nodup := by
    rw [StatisticsDb.selectMonths, (List.perm_insertionSort _ _).nodup_iff]
    exact (List.Nodup.of_map _ hkeys.monthly).filter _
  by_cases hrow : ∃ a ∈ db.monthlyAggregates, a.key = (linkId, month)
  · obtain ⟨a, ha, hkey⟩ := hrow
    obtain ⟨rfl, rfl⟩ := Prod.mk.inj hkey
    have hnodup : ((monthlyByKey (db.selectMonths a.linkId start stop)).map (·.1)).Nodup := by
      rw [hentries]
      refine List.Nodup.map_on (fun b hb b' hb' heq => ?_) hrows
      obtain ⟨hb, hlink, -⟩ := (hmem b).1 hb
      obtain ⟨hb', hlink', -⟩ := (hmem b').1 hb'
      exact List.inj_on_of_nodup_map hkeys.monthly hb hb'
        (Prod.ext (hlink.trans hlink'.symm) (UtcMonth.text_injective heq))
    have hentry : (a.occurredMonth.text,
        (⟨a.accessCount, a.dailyUniqueVisitorCount⟩ : LinkStatisticsTotals)) ∈
          monthlyByKey (db.selectMonths a.linkId start stop) :=
      List.mem_map_of_mem (f := fun row : LinkMonthlyAggregate => (row.occurredMonth.text,
        (⟨row.accessCount, row.dailyUniqueVisitorCount⟩ : LinkStatisticsTotals)))
        ((hmem a).2 ⟨ha, rfl, hlow, hhigh⟩)
    have haccesses : db.monthlyAccesses (fun k => k = a.key) = a.accessCount :=
      sumWhere_key hkeys.monthly ha
    have hvisits : db.monthlyVisits (fun k => k = a.key) = a.dailyUniqueVisitorCount :=
      sumWhere_key hkeys.monthly ha
    rw [mapGet_of_mem hnodup hentry, haccesses, hvisits]
    rfl
  · have hmissing : month.text ∉
        (monthlyByKey (db.selectMonths linkId start stop)).map (·.1) := by
      rw [hentries, List.mem_map]
      rintro ⟨a, ha, heq⟩
      obtain ⟨ha, hlink, -⟩ := (hmem a).1 ha
      exact hrow ⟨a, ha, Prod.ext hlink (UtcMonth.text_injective heq)⟩
    have hnone : db.monthlyAggregates.filter (fun a => decide (a.key = (linkId, month))) = [] := by
      rw [List.filter_eq_nil_iff]
      exact fun a ha heq => hrow ⟨a, ha, of_decide_eq_true heq⟩
    rw [mapGet_eq_none hmissing, StatisticsDb.monthlyAccesses, StatisticsDb.monthlyVisits,
      sumWhere, sumWhere, hnone]
    rfl

/-- The texts of the months of a period are between those of its ends. -/
theorem monthText_between (h : c.FourDigits) (h' : c'.FourDigits) {i : ℤ}
    (hlow : c.monthIndex ≤ i) (hhigh : i ≤ c'.monthIndex) :
    String.ofList (monthText c.monthIndex) ≤ (UtcMonth.ofIndex i).text ∧
      (UtcMonth.ofIndex i).text ≤ String.ofList (monthText c'.monthIndex) := by
  have hyear := h.1
  have hyear' := h'.2
  have hindex := c.monthIndex_div
  have hindex' := c'.monthIndex_div
  have hmono : ∀ {m n : ℤ}, c.monthIndex ≤ m → m ≤ n → n ≤ c'.monthIndex →
      String.ofList (monthText m) ≤ String.ofList (monthText n) := by
    intro m n hm hmn hn
    obtain rfl | hlt := hmn.eq_or_lt
    · exact le_rfl
    · refine le_of_lt ?_
      rw [String.lt_iff_toList_lt, String.toList_ofList, String.toList_ofList]
      exact monthText_lt (by omega) (by omega) hlt
  rw [UtcMonth.text_ofIndex]
  exact ⟨hmono le_rfl hlow hhigh, hmono hlow hhigh le_rfl⟩

/-- The rows that the monthly query of a period answers with. -/
abbrev monthsOf (linkId : String) (period : StatisticsPeriod) (db : StatisticsDb) :
    List LinkMonthlyAggregate :=
  db.selectMonths linkId (String.ofList (slice period.fromDate 0 7))
    (String.ofList (slice period.toDate 0 7))

/-- The point of a month sums the daily rows of the month. -/
theorem monthlyPoints_eq {period : StatisticsPeriod} (hfrom : Spells period.fromDate c)
    (hto : Spells period.toDate c') (hdb : Consistent db) :
    (monthlyPoints period (monthsOf linkId period db)).map (fun p => (p.month, p.counts)) =
      (Int.range c.monthIndex (c'.monthIndex + 1)).map fun i =>
        ((UtcMonth.ofIndex i).text,
          ((db.rowsOfMonth linkId (UtcMonth.ofIndex i)).map (·.counts)).sum) := by
  simp only [monthlyPoints, monthsOf]
  rw [eachUtcMonth_eq hfrom hto, hfrom.slice_month, hto.slice_month, List.map_map, List.map_map]
  refine List.map_congr_left fun i hi => ?_
  rw [Int.mem_range_iff, Int.lt_add_one_iff] at hi
  obtain ⟨hlow, hhigh⟩ := monthText_between hfrom.2 hto.2 hi.1 hi.2
  have hpoint := mapGet_monthlyByKey linkId hdb.keys hlow hhigh
  rw [counts_rowsOfMonth hdb] at hpoint
  simp only [Function.comp_apply, ← hpoint, LinkStatisticsMonthlyPoint.counts,
    UtcMonth.text_ofIndex]
  generalize mapGet _ (String.ofList (monthText i)) = point
  exact Prod.ext rfl (Prod.ext (Option.getD_map (·.accesses) ⟨0, 0⟩ point)
    (Option.getD_map (·.dailyUniqueVisitors) ⟨0, 0⟩ point))

end

/-! ### The rows of the period -/

section

variable {c c' d : CivilDate} {db : StatisticsDb} {linkId : String} {period : StatisticsPeriod}

/-- The rows that the queries of a period read. -/
abbrev rowsBetween (linkId : String) (c c' : CivilDate) (db : StatisticsDb) :
    List LinkDailyAggregate :=
  db.rowsOfPeriod linkId (UtcDate.ofCivil c) (UtcDate.ofCivil c')

theorem mem_rowsBetween {a : LinkDailyAggregate} :
    a ∈ rowsBetween linkId c c' db ↔ a ∈ db.dailyAggregates ∧ a.linkId = linkId ∧
      UtcDate.ofCivil c ≤ a.occurredOn ∧ a.occurredOn ≤ UtcDate.ofCivil c' := by
  rw [rowsBetween, StatisticsDb.rowsOfPeriod, List.mem_filter, decide_eq_true_eq]

/-- The rows of a date of the period are those of the date in its month. -/
theorem rowsBetween_date (linkId : String) (db : StatisticsDb) (h : c.FourDigits)
    (h' : c'.FourDigits) (hd : d ∈ datesBetween c c') :
    (rowsBetween linkId c c' db).filter (fun a => a.occurredOn = UtcDate.ofCivil d) =
      (db.rowsOfMonth linkId (UtcMonth.ofIndex d.monthIndex)).filter
        fun a => a.occurredOn = UtcDate.ofCivil d := by
  have hfour := fourDigits_of_mem h h' hd
  obtain ⟨hlow, hhigh⟩ := mem_datesBetween.1 hd
  have hstart := (UtcDate.ofCivil_le_iff h hfour).2 hlow
  have hstop := (UtcDate.ofCivil_le_iff hfour h').2 hhigh
  rw [rowsBetween, StatisticsDb.rowsOfPeriod, StatisticsDb.rowsOfMonth, List.filter_filter,
    List.filter_filter]
  refine List.filter_congr fun a _ => ?_
  by_cases hocc : a.occurredOn = UtcDate.ofCivil d
  · simp [hocc, hstart, hstop, UtcMonth.utcMonth_ofCivil]
  · simp [hocc]

theorem rowsBetween_month (hdates : DatesExist db) (h : c.FourDigits) (h' : c'.FourDigits)
    (hfirst : c.day = 1) (hlast : c'.day = daysInMonth c'.year c'.month) {i : ℤ}
    (hlow : c.monthIndex ≤ i) (hhigh : i ≤ c'.monthIndex) :
    (rowsBetween linkId c c' db).filter (fun a => a.occurredOn.utcMonth = UtcMonth.ofIndex i) =
      db.rowsOfMonth linkId (UtcMonth.ofIndex i) := by
  have hstart : c.dayNumber = monthStart c.monthIndex := by
    rw [c.monthStart_monthIndex, CivilDate.dayNumber, CivilDate.yearDay, hfirst]
    omega
  have hstop : c'.dayNumber + 1 = monthStart (c'.monthIndex + 1) := by
    have hone := c'.one_le_day
    rw [monthStart_succ, c'.monthStart_monthIndex, c'.monthIndex_div, c'.monthIndex_mod, ← hlast,
      CivilDate.dayNumber, CivilDate.yearDay]
    omega
  have hindex := c.monthIndex_div
  have hyear := h.1
  rw [rowsBetween, StatisticsDb.rowsOfPeriod, StatisticsDb.rowsOfMonth, List.filter_filter]
  refine List.filter_congr fun a ha => ?_
  obtain ⟨d, hd, hocc⟩ := (hdates a ha).exists_civil
  by_cases hmonth : a.occurredOn.utcMonth = UtcMonth.ofIndex i
  · -- A date of the month is between the first and the last of the period.
    have hdindex : d.monthIndex = i := by
      rw [← hocc, UtcMonth.utcMonth_ofCivil] at hmonth
      have hdyear := hd.1
      have hdiv := d.monthIndex_div
      exact UtcMonth.ofIndex_injOn (by omega) (by omega) hmonth
    have hdlow := d.monthStart_le
    have hdhigh := d.lt_monthStart_succ
    rw [hdindex] at hdlow hdhigh
    have hle : c ≤ d := by
      have hmono := monthStart_strictMono.monotone hlow
      rw [CivilDate.le_def]
      omega
    have hle' : d ≤ c' := by
      have hmono : monthStart (i + 1) ≤ monthStart (c'.monthIndex + 1) :=
        monthStart_strictMono.monotone (by omega)
      rw [CivilDate.le_def]
      omega
    have hfrom := (UtcDate.ofCivil_le_iff h hd).2 hle
    have hto := (UtcDate.ofCivil_le_iff hd h').2 hle'
    rw [← hocc] at hmonth ⊢
    simp [hmonth, hfrom, hto]
  · simp [hmonth]

end

/-! ### The countries -/

section

variable {rows : List LinkDailyAggregate}

theorem countryOrder_total (a b : String × LinkStatisticsTotals) :
    countryOrder a b ∨ countryOrder b a := by
  obtain h | heq | h := lt_trichotomy a.2.accesses b.2.accesses
  · exact .inr (.inl h)
  · exact (le_total a.1 b.1).imp (fun hle => .inr ⟨heq, hle⟩) fun hle => .inr ⟨heq.symm, hle⟩
  · exact .inl (.inl h)

theorem countryOrder_trans (a b c : String × LinkStatisticsTotals) (h : countryOrder a b)
    (h' : countryOrder b c) : countryOrder a c := by
  obtain h | ⟨heq, hle⟩ := h <;> obtain h' | ⟨heq', hle'⟩ := h'
  · exact .inl (h'.trans h)
  · exact .inl (heq' ▸ h)
  · exact .inl (heq ▸ h')
  · exact .inr ⟨heq.trans heq', hle.trans hle'⟩

/-- The rows of the countries, before and after they are ordered. -/
theorem countryRows_perm (rows : List LinkDailyAggregate) :
    (groupByCountry rows).Perm
      ((groupBy (·.country) rows).map fun g => (g.1, sumRows g.2)) :=
  List.perm_insertionSort _ _

theorem sum_countryPoints (rows : List LinkDailyAggregate) :
    ((countryPoints (groupByCountry rows)).map (·.counts)).sum = (rows.map (·.counts)).sum := by
  have hgroups := sum_groupBy LinkDailyAggregate.country LinkDailyAggregate.counts rows
  rw [countryPoints, List.map_map, ← hgroups]
  refine ((countryRows_perm rows).map _).sum_eq.trans ?_
  rw [List.map_map]
  exact congrArg List.sum (List.map_congr_left fun g _ => counts_sumRows g.2)

theorem nodup_countries (rows : List LinkDailyAggregate) :
    ((countryPoints (groupByCountry rows)).map (·.country)).Nodup := by
  have hkeys : ((countryPoints (groupByCountry rows)).map (·.country)).Perm
      (rows.map (·.country)).dedup := by
    rw [countryPoints, List.map_map, ← keys_groupBy]
    refine ((countryRows_perm rows).map _).trans (List.Perm.of_eq ?_)
    rw [List.map_map]
    rfl
  exact hkeys.nodup_iff.2 (List.nodup_dedup _)

/-- The countries are ordered by their accesses, then by their names. -/
theorem pairwise_countryPoints (rows : List LinkDailyAggregate) :
    (countryPoints (groupByCountry rows)).Pairwise fun p q =>
      q.accesses < p.accesses ∨ p.accesses = q.accesses ∧ p.country < q.country := by
  have : Std.Total countryOrder := ⟨countryOrder_total⟩
  have : IsTrans _ countryOrder := ⟨countryOrder_trans⟩
  have hsorted := List.pairwise_insertionSort countryOrder
    ((groupBy (·.country) rows).map fun g => (g.1, sumRows g.2))
  have hordered : (countryPoints (groupByCountry rows)).Pairwise fun p q =>
      q.accesses < p.accesses ∨ p.accesses = q.accesses ∧ p.country ≤ q.country := by
    rw [countryPoints, List.pairwise_map]
    exact hsorted
  refine (hordered.and (List.pairwise_map.1 (nodup_countries rows))).imp ?_
  rintro p q ⟨h | ⟨heq, hle⟩, hne⟩
  · exact .inl h
  · exact .inr ⟨heq, lt_of_le_of_ne hle hne⟩

end

/-! ### The report -/

/-- The views of a report of the period from `c` to `c'` agree with each other and with
the daily aggregates. -/
structure ViewsAgree (db : StatisticsDb) (linkId : String) (c c' : CivilDate)
    (report : LinkStatisticsReport) : Prop where
  daily : (report.daily.map (·.counts)).sum = report.totals.counts
  countries : (report.countries.map (·.counts)).sum = report.totals.counts
  countries_distinct : (report.countries.map (·.country)).Nodup
  countries_ranked : report.countries.Pairwise fun p q =>
    q.accesses < p.accesses ∨ p.accesses = q.accesses ∧ p.country < q.country
  monthly : ∀ p ∈ report.monthly, p.counts = ((db.dailyAggregates.filter fun a =>
    a.linkId = linkId ∧ a.occurredOn.utcMonth.text = p.month).map (·.counts)).sum
  monthly_ge : ∀ p ∈ report.monthly, ((report.daily.filter fun d =>
    String.ofList (slice d.date 0 7) = p.month).map (·.counts)).sum ≤ p.counts
  whole_months : c.day = 1 → c'.day = daysInMonth c'.year c'.month →
    (report.monthly.map (·.counts)).sum = report.totals.counts

section

variable {c c' : CivilDate} {db : StatisticsDb} {linkId : String} {period : StatisticsPeriod}

/-- Each monthly point is that of the number of its month. -/
theorem exists_index_of_mem (hfrom : Spells period.fromDate c) (hto : Spells period.toDate c')
    (hdb : Consistent db) {p : LinkStatisticsMonthlyPoint}
    (hp : p ∈ monthlyPoints period (monthsOf linkId period db)) :
    ∃ i, c.monthIndex ≤ i ∧ i ≤ c'.monthIndex ∧ p.month = (UtcMonth.ofIndex i).text ∧
      p.counts = ((db.rowsOfMonth linkId (UtcMonth.ofIndex i)).map (·.counts)).sum := by
  have hmem := List.mem_map_of_mem (f := fun p => (p.month, p.counts)) hp
  rw [monthlyPoints_eq hfrom hto hdb, List.mem_map] at hmem
  obtain ⟨i, hi, heq⟩ := hmem
  rw [Int.mem_range_iff, Int.lt_add_one_iff] at hi
  obtain ⟨hmonth, hcounts⟩ := Prod.mk.inj heq
  exact ⟨i, hi.1, hi.2, hmonth.symm, hcounts.symm⟩

theorem sum_dailyPoints_month_le (hfrom : Spells period.fromDate c)
    (hto : Spells period.toDate c') (hdates : DatesExist db) {i : ℤ} (hi : 0 ≤ i) :
    (((dailyPoints period (groupByDate (rowsBetween linkId c c' db))).filter fun d =>
        String.ofList (slice d.date 0 7) = (UtcMonth.ofIndex i).text).map (·.counts)).sum ≤
      ((db.rowsOfMonth linkId (UtcMonth.ofIndex i)).map (·.counts)).sum := by
  have hrows : ∀ a ∈ rowsBetween linkId c c' db, a.occurredOn.IsDate :=
    fun a ha => hdates a (mem_rowsBetween.1 ha).1
  have hmonth : ∀ d ∈ datesBetween c c',
      String.ofList (slice (isoText d) 0 7) = (UtcMonth.ofIndex i).text → d.monthIndex = i := by
    intro d hd heq
    have hfour := fourDigits_of_mem hfrom.2 hto.2 hd
    have hyear := hfour.1
    have hdiv := d.monthIndex_div
    rw [(isoText_spells hfour).slice_month, ← UtcMonth.text_ofIndex] at heq
    exact UtcMonth.ofIndex_injOn (by omega) hi (UtcMonth.text_injective heq)
  have hnodup : (((datesBetween c c').filter fun d =>
      String.ofList (slice (isoText d) 0 7) = (UtcMonth.ofIndex i).text).map
        UtcDate.ofCivil).Nodup :=
    (nodup_datesBetween hfrom.2 hto.2).sublist (List.filter_sublist.map _)
  have hle : _ ≤ ((db.rowsOfMonth linkId (UtcMonth.ofIndex i)).map (·.counts)).sum :=
    sum_keys_le LinkDailyAggregate.occurredOn LinkDailyAggregate.counts hnodup
  refine le_trans (le_of_eq ?_) hle
  rw [dailyPoints_eq hfrom hto hrows, List.filter_map, List.map_map, List.map_map]
  simp only [Function.comp_def, date_pointOf]
  refine congrArg List.sum (List.map_congr_left fun d hd => ?_)
  obtain ⟨hd, hselected⟩ := List.mem_filter.1 hd
  have hindex := hmonth d hd (of_decide_eq_true hselected)
  rw [counts_pointOf, rowsBetween_date linkId db hfrom.2 hto.2 hd, hindex]

theorem sum_monthlyPoints (hfrom : Spells period.fromDate c) (hto : Spells period.toDate c')
    (hdb : Consistent db) (hdates : DatesExist db) (hfirst : c.day = 1)
    (hlast : c'.day = daysInMonth c'.year c'.month) :
    ((monthlyPoints period (monthsOf linkId period db)).map (·.counts)).sum =
      ((rowsBetween linkId c c' db).map (·.counts)).sum := by
  have hindex := c.monthIndex_div
  have hyear := hfrom.2.1
  have hnodup : ((Int.range c.monthIndex (c'.monthIndex + 1)).map UtcMonth.ofIndex).Nodup := by
    refine List.Nodup.map_on (fun i hi j hj heq => ?_)
      ((pairwise_intRange _ _).imp ne_of_lt)
    rw [Int.mem_range_iff] at hi hj
    exact UtcMonth.ofIndex_injOn (by omega) (by omega) heq
  have hcover : ∀ a ∈ rowsBetween linkId c c' db, a.occurredOn.utcMonth ∈
      (Int.range c.monthIndex (c'.monthIndex + 1)).map UtcMonth.ofIndex := by
    intro a ha
    obtain ⟨hmem, -, hlow, hhigh⟩ := mem_rowsBetween.1 ha
    obtain ⟨d, hd, hocc⟩ := (hdates a hmem).exists_civil
    rw [← hocc] at hlow hhigh ⊢
    rw [UtcMonth.utcMonth_ofCivil]
    refine List.mem_map_of_mem (Int.mem_range_iff.2 ⟨?_, Int.lt_add_one_iff.2 ?_⟩)
    · exact CivilDate.monthIndex_le ((UtcDate.ofCivil_le_iff hfrom.2 hd).1 hlow)
    · exact CivilDate.monthIndex_le ((UtcDate.ofCivil_le_iff hd hto.2).1 hhigh)
  have hpoints : (monthlyPoints period (monthsOf linkId period db)).map (·.counts) =
      ((monthlyPoints period (monthsOf linkId period db)).map fun p =>
        (p.month, p.counts)).map (·.2) := by
    rw [List.map_map]
    rfl
  rw [← sum_keys LinkDailyAggregate.counts hnodup hcover, hpoints, monthlyPoints_eq hfrom hto hdb,
    List.map_map, List.map_map]
  refine congrArg List.sum (List.map_congr_left fun i hi => ?_)
  rw [Int.mem_range_iff, Int.lt_add_one_iff] at hi
  rw [Function.comp_apply, Function.comp_apply,
    rowsBetween_month hdates hfrom.2 hto.2 hfirst hlast hi.1 hi.2]

theorem viewsAgree (hdb : Consistent db) (hdates : DatesExist db)
    (hfrom : Spells period.fromDate c) (hto : Spells period.toDate c')
    {report : LinkStatisticsReport}
    (htotals : report.totals = sumRows (rowsBetween linkId c c' db))
    (hdaily : report.daily = dailyPoints period (groupByDate (rowsBetween linkId c c' db)))
    (hmonthly : report.monthly = monthlyPoints period (monthsOf linkId period db))
    (hcountries : report.countries =
      countryPoints (groupByCountry (rowsBetween linkId c c' db))) :
    ViewsAgree db linkId c c' report := by
  have hindex := c.monthIndex_div
  have hyear := hfrom.2.1
  constructor
  case daily =>
    rw [hdaily, htotals, counts_sumRows]
    refine sum_dailyPoints hfrom hto fun a ha => ?_
    obtain ⟨hmem, -, hlow, hhigh⟩ := mem_rowsBetween.1 ha
    exact ⟨hdates a hmem, hlow, hhigh⟩
  case countries => rw [hcountries, htotals, counts_sumRows, sum_countryPoints]
  case countries_distinct => exact hcountries ▸ nodup_countries _
  case countries_ranked => exact hcountries ▸ pairwise_countryPoints _
  case monthly =>
    intro p hp
    obtain ⟨i, hlow, hhigh, hmonth, hcounts⟩ := exists_index_of_mem hfrom hto hdb (hmonthly ▸ hp)
    rw [hcounts, hmonth, StatisticsDb.rowsOfMonth]
    simp only [UtcMonth.text_injective.eq_iff]
  case monthly_ge =>
    intro p hp
    obtain ⟨i, hlow, hhigh, hmonth, hcounts⟩ := exists_index_of_mem hfrom hto hdb (hmonthly ▸ hp)
    rw [hcounts, hmonth, hdaily]
    exact sum_dailyPoints_month_le hfrom hto hdates (by omega)
  case whole_months =>
    intro hfirst hlast
    rw [hmonthly, htotals, counts_sumRows]
    exact sum_monthlyPoints hfrom hto hdb hdates hfirst hlast

end

/-- The queries of one state answer with the report of its rows, or fail as their
parameters do. -/
theorem getReport_eq (linkId : String) (period : StatisticsPeriod) (db : StatisticsDb) :
    getReport linkId period db = (db.selectRows linkId period).map fun rows => {
      linkId := linkId
      period := period
      timezone := "UTC"
      totals := sumRows rows
      daily := dailyPoints period (groupByDate rows)
      monthly := monthlyPoints period (monthsOf linkId period db)
      countries := countryPoints (groupByCountry rows) } := by
  have hdaily : (ReportQuery.daily linkId period).run db =
      (db.selectRows linkId period).map groupByDate := rfl
  have hcountries : (ReportQuery.countries linkId period).run db =
      (db.selectRows linkId period).map groupByCountry := rfl
  have htotals : (ReportQuery.totals linkId period).run db =
      (db.selectRows linkId period).map sumRows := rfl
  rw [getReport, getReportQueries]
  cases hrows : db.selectRows linkId period with
  | error e =>
      rw [hrows] at hdaily
      simp only [Program.answer, hdaily, Except.map]
  | ok rows =>
      rw [hrows] at hdaily hcountries htotals
      have hmonthly : (ReportQuery.monthly linkId (String.ofList (slice period.fromDate 0 7))
          (String.ofList (slice period.toDate 0 7))).run db =
            .ok (monthsOf linkId period db) := rfl
      simp only [Program.answer, hdaily, hmonthly, hcountries, htotals, Except.map]

/-- A report is computed when the parameters are dates, and is that of the period between
them. -/
theorem getReport_eq_ok_iff {linkId : String} {period : StatisticsPeriod} {db : StatisticsDb}
    {report : LinkStatisticsReport} :
    getReport linkId period db = .ok report ↔ ∃ start stop,
      dateParameter period.fromDate = .ok start ∧ dateParameter period.toDate = .ok stop ∧
        report = {
          linkId := linkId
          period := period
          timezone := "UTC"
          totals := sumRows (db.rowsOfPeriod linkId start stop)
          daily := dailyPoints period (groupByDate (db.rowsOfPeriod linkId start stop))
          monthly := monthlyPoints period (monthsOf linkId period db)
          countries := countryPoints (groupByCountry (db.rowsOfPeriod linkId start stop)) } := by
  rw [getReport_eq, StatisticsDb.selectRows]
  cases hstart : dateParameter period.fromDate with
  | error e =>
      refine ⟨fun h => (by cases h), ?_⟩
      rintro ⟨start, stop, h, -⟩
      cases h
  | ok start =>
      cases hstop : dateParameter period.toDate with
      | error e =>
          refine ⟨fun h => (by cases h), ?_⟩
          rintro ⟨start, stop, -, h, -⟩
          cases h
      | ok stop =>
          refine ⟨fun h => ⟨start, stop, rfl, rfl, (Except.ok.inj h).symm⟩, ?_⟩
          rintro ⟨start', stop', h, h', rfl⟩
          cases h
          cases h'
          rfl

/-! ### The dates of every run -/

/-- The access of a call is recorded on a date that exists. -/
def OnDate : StatisticsCall → Prop
  | .recordAccess input => input.occurredOn.IsDate
  | .process job => job.data.occurredOn.IsDate
  | .finalizeDays _ => True

instance (call : StatisticsCall) : Decidable (OnDate call) :=
  match call with
  | .recordAccess input => inferInstanceAs (Decidable input.occurredOn.IsDate)
  | .process job => inferInstanceAs (Decidable job.data.occurredOn.IsDate)
  | .finalizeDays _ => isTrue trivial

theorem OnDate.of_records {call : StatisticsCall} {input : AccessEventInput} (h : OnDate call)
    (hrecords : call.Records input) : input.occurredOn.IsDate := by
  cases call with
  | recordAccess input' => exact hrecords ▸ h
  | process job => exact hrecords ▸ h
  | finalizeDays before => exact hrecords.elim

/-- A transaction brings no date but the one it records. -/
theorem StatisticsCommand.datesExist {c : StatisticsCommand} {finalizedAt : ℕ}
    {db : StatisticsDb} (h : DatesExist db)
    (hc : ∀ input, c = .recordAccess input → input.occurredOn.IsDate) :
    DatesExist (c.effect finalizedAt db) := by
  cases c with
  | findCandidates before => exact h
  | finalizeDay linkDay =>
      intro a ha
      rw [effect, StatisticsDb.dailyAggregates_close] at ha
      exact h a ha
  | recordAccess input =>
      have hdate := hc input rfl
      rcases StatisticsDb.record_cases input db with hsame | ⟨-, -, hcount⟩
      · rwa [effect, hsame]
      intro a ha
      rw [effect, hcount] at ha
      have hkeys : (db.countAccess input).dailyAggregates.map (·.key) =
          (db.incrementDailyAccesses input).dailyAggregates.map (·.key) := by
        rw [StatisticsDb.countAccess, StatisticsDb.countVisitor]
        split
        · rfl
        · exact map_key_updateWhere fun _ => rfl
      have hkey := List.mem_map_of_mem (f := LinkDailyAggregate.key) ha
      rw [hkeys, List.mem_map] at hkey
      obtain ⟨b, hb, heq⟩ := hkey
      have hocc : b.occurredOn = a.occurredOn := congrArg (·.1.2) heq
      rw [← hocc]
      have hcases : b.key = (input.linkDay, input.country) ∨
          b.key ∈ db.dailyAggregates.map (·.key) := by
        refine key_of_mem_upsert ?_ ?_ hb
        · exact fun _ => rfl
        · rfl
      rcases hcases with hnew | hold
      · have hinput : b.occurredOn = input.occurredOn := congrArg (·.1.2) hnew
        exact hinput ▸ hdate
      · obtain ⟨b', hb', heq'⟩ := List.mem_map.1 hold
        have hold : b'.occurredOn = b.occurredOn := congrArg (·.1.2) heq'
        exact hold ▸ h b' hb'

theorem datesExist_of_serial {hashtext : String → ℤ} {log : List StatisticsRecord}
    {db : StatisticsDb} (h : Serial (statistics hashtext) StatisticsDb.empty [] log db)
    (hlog : ∀ r ∈ log, ∀ input, r.command = .recordAccess input → input.occurredOn.IsDate) :
    DatesExist db := by
  induction h with
  | base =>
      intro a ha
      cases ha
  | commit hs hrun ih =>
      obtain rfl := StatisticsCommand.eq_effect_of_run hrun
      exact StatisticsCommand.datesExist (ih fun r hr => hlog r (List.mem_cons_of_mem _ hr))
        (hlog _ List.mem_cons_self)
  | quiet r hs hr ih => exact ih fun r hr => hlog r (List.mem_cons_of_mem _ hr)

theorem datesExist_of_reaches {hashtext : String → ℤ} {σ : StatisticsState}
    (h : (statistics hashtext).Reaches (State.init StatisticsDb.empty) σ)
    (hdates : ∀ cl ∈ σ.clients, OnDate cl.call) : DatesExist σ.db := by
  refine datesExist_of_serial (good_of_reaches h).serial fun r hr input hinput => ?_
  have hissued := h.issued (fun call c => ∀ input, c = .recordAccess input → call.Records input)
    (fun call => call.issues
      (fun input hrecords input' heq => StatisticsCommand.recordAccess.inj heq ▸ hrecords)
      fun before _ => ⟨fun _ h => (by cases h), fun _ _ h => (by cases h)⟩)
    (Issued.init StatisticsDb.empty)
  obtain ⟨cl, hcl, hmay⟩ := hissued.log r hr
  exact (hdates cl (List.mem_of_getElem? hcl)).of_records (hmay input hinput)

/-- In every reachable state the report of an accepted period is computed, and whenever a
report is computed its three views agree. -/
theorem report_views_agree (hashtext : String → ℤ) {σ : StatisticsState}
    (h : (statistics hashtext).Reaches (State.init StatisticsDb.empty) σ)
    (hdates : ∀ cl ∈ σ.clients, OnDate cl.call) (linkId : String) (now : ℤ)
    (query : PeriodQuery) {period : StatisticsPeriod}
    (hperiod : LinkStatisticsService.resolvePeriod now query = .ok period) :
    (∀ s t, query = ⟨some s, some t⟩ → ∃ report, getReport linkId period σ.db = .ok report) ∧
    (query = ⟨none, none⟩ → 101 ≤ (EcmaDate.civil now).year →
      (EcmaDate.civil now).year ≤ 9999 → ∃ report, getReport linkId period σ.db = .ok report) ∧
    ∀ report, getReport linkId period σ.db = .ok report →
      ∃ c c', Spells period.fromDate c ∧ Spells period.toDate c' ∧
        ViewsAgree σ.db linkId c c' report := by
  have hcomputed : ∀ {c c'}, Spells period.fromDate c → 1 ≤ c.year → Spells period.toDate c' →
      1 ≤ c'.year → ∃ report, getReport linkId period σ.db = .ok report := by
    intro c c' hfrom hyear hto hyear'
    exact ⟨_, getReport_eq_ok_iff.2 ⟨_, _, dateParameter_eq_ok_iff.2 ⟨c, hfrom, hyear, rfl⟩,
      dateParameter_eq_ok_iff.2 ⟨c', hto, hyear', rfl⟩, rfl⟩⟩
  refine ⟨?_, ?_, ?_⟩
  · rintro s t rfl
    obtain ⟨rfl, c, c', hfrom, hto, hreportable⟩ :=
      LinkStatisticsService.checkPeriod_ok_iff.1 hperiod
    have hyear := hreportable.fromYear
    have hyear' := hreportable.toYear
    exact hcomputed hfrom (by omega) hto (by omega)
  · rintro rfl hlow hhigh
    obtain ⟨period', hresolve, hfrom, hto, hyear⟩ :=
      LinkStatisticsService.resolvePeriod_default hlow hhigh
    cases hperiod.symm.trans hresolve
    exact hcomputed hfrom (by omega) hto (by omega)
  · intro report hreport
    obtain ⟨start, stop, hstart, hstop, rfl⟩ := getReport_eq_ok_iff.1 hreport
    obtain ⟨c, hfrom, -, rfl⟩ := dateParameter_eq_ok_iff.1 hstart
    obtain ⟨c', hto, -, rfl⟩ := dateParameter_eq_ok_iff.1 hstop
    exact ⟨c, c', hfrom, hto, viewsAgree (consistent_of_reaches h) (datesExist_of_reaches h hdates)
      hfrom hto rfl rfl rfl rfl⟩

/-- The report of January, after its first day has been recorded and closed. -/
theorem closedNewYear_views_agree :
    (∀ cl ∈ closedNewYear.clients, OnDate cl.call) ∧
      LinkStatisticsService.resolvePeriod 0 ⟨some "2026-01-01", some "2026-01-31"⟩ =
        .ok ⟨"2026-01-01", "2026-01-31"⟩ ∧
      ∃ report, getReport "l" ⟨"2026-01-01", "2026-01-31"⟩ closedNewYear.db = .ok report ∧
        ∃ c c', ViewsAgree closedNewYear.db "l" c c' report := by
  have hrun : (statistics fun _ => 0).Reaches (State.init StatisticsDb.empty) closedNewYear :=
    System.reaches_after _ _ _
  have hdates : ∀ cl ∈ closedNewYear.clients, OnDate cl.call := by decide
  have hperiod : LinkStatisticsService.resolvePeriod 0
      ⟨some "2026-01-01", some "2026-01-31"⟩ = .ok ⟨"2026-01-01", "2026-01-31"⟩ := by
    decide
  obtain ⟨hpair, -, hviews⟩ := report_views_agree (fun _ => 0) hrun hdates "l" 0 _ hperiod
  obtain ⟨report, hreport⟩ := hpair _ _ rfl
  obtain ⟨c, c', -, -, hagree⟩ := hviews report hreport
  exact ⟨hdates, hperiod, report, hreport, c, c', hagree⟩

end LinkStatistics

end Shortlink
