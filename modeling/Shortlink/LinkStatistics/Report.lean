import Shortlink.Interaction.Program
import Shortlink.LinkStatistics.Series
import Shortlink.LinkStatistics.Types
import Shortlink.Table.Group
import Mathlib.Algebra.Order.Monoid.Prod

/-!
# The report of a link

`getReport` of `typeorm-link-statistics.repository.ts`: four queries on the two tables of
aggregates, whose rows are joined by their texts to the dates and months of the period.
The sums of the queries are small enough to be exact as numbers of the language.
-/

namespace Shortlink

namespace LinkStatistics

open Shortlink.Storage Shortlink.Table Shortlink.Interaction Shortlink.Calendar

structure LinkStatisticsTotals where
  accesses : ℕ
  dailyUniqueVisitors : ℕ
  deriving DecidableEq

structure LinkStatisticsDailyPoint where
  date : String
  accesses : ℕ
  dailyUniqueVisitors : ℕ
  deriving DecidableEq

structure LinkStatisticsMonthlyPoint where
  month : String
  accesses : ℕ
  dailyUniqueVisitors : ℕ
  deriving DecidableEq

structure LinkStatisticsCountryPoint where
  country : String
  accesses : ℕ
  dailyUniqueVisitors : ℕ
  deriving DecidableEq

structure LinkStatisticsReport where
  linkId : String
  period : StatisticsPeriod
  timezone : String
  totals : LinkStatisticsTotals
  daily : List LinkStatisticsDailyPoint
  monthly : List LinkStatisticsMonthlyPoint
  countries : List LinkStatisticsCountryPoint
  deriving DecidableEq

namespace UtcDate

/-- The date exists and has a year that the column can hold as `YYYY`. -/
def IsDate (d : UtcDate) : Prop :=
  1 ≤ d.year ∧ d.year ≤ 9999 ∧ 1 ≤ d.month ∧ d.month ≤ 12 ∧ 1 ≤ d.day ∧
    d.day ≤ daysInMonth d.year d.month

instance (d : UtcDate) : Decidable d.IsDate :=
  inferInstanceAs (Decidable (1 ≤ d.year ∧ d.year ≤ 9999 ∧ 1 ≤ d.month ∧ d.month ≤ 12 ∧
    1 ≤ d.day ∧ d.day ≤ daysInMonth d.year d.month))

/-- A date of the calendar as a row holds it. -/
def ofCivil (c : CivilDate) : UtcDate := ⟨c.year.toNat, c.month, c.day⟩

end UtcDate

/-- `occurredMonth`. -/
def UtcMonth.text (m : UtcMonth) : String :=
  UtcDate.padded 4 m.year ++ "-" ++ UtcDate.padded 2 m.month

/-- The parameter of a query that is compared with a column of type `date`. -/
def dateParameter (text : String) : Except StorageError UtcDate :=
  match readDate text.toList with
  | none => .error (.queryFailed "22007" "" "")
  | some (year, month, day) =>
      if UtcDate.IsDate ⟨year, month, day⟩ then .ok ⟨year, month, day⟩
      else .error (.queryFailed "22008" "" "")

/-- `SUM("accessCount")`, `SUM("uniqueVisitorCount")`. -/
def sumRows (rows : List LinkDailyAggregate) : LinkStatisticsTotals where
  accesses := (rows.map (·.accessCount)).sum
  dailyUniqueVisitors := (rows.map (·.uniqueVisitorCount)).sum

/-- `toUtcDateString` of a `date` read as text. -/
def toUtcDateString (value : UtcDate) : String := String.ofList (slice value.toIsoString 0 10)

/-- `WHERE "linkId" = $1 AND "occurredOn" >= $2 AND "occurredOn" <= $3`. -/
def StatisticsDb.rowsOfPeriod (linkId : String) (start stop : UtcDate) (db : StatisticsDb) :
    List LinkDailyAggregate :=
  db.dailyAggregates.filter fun a => a.linkId = linkId ∧ start ≤ a.occurredOn ∧ a.occurredOn ≤ stop

/-- The rows of a link between two dates, given as parameters. -/
def StatisticsDb.selectRows (linkId : String) (period : StatisticsPeriod) (db : StatisticsDb) :
    Except StorageError (List LinkDailyAggregate) := do
  let start ← dateParameter period.fromDate
  let stop ← dateParameter period.toDate
  return db.rowsOfPeriod linkId start stop

/-- `GROUP BY "occurredOn" ORDER BY "occurredOn" ASC`. -/
def groupByDate (rows : List LinkDailyAggregate) : List (UtcDate × LinkStatisticsTotals) :=
  ((groupBy (·.occurredOn) rows).insertionSort fun a b => a.1 ≤ b.1).map fun g =>
    (g.1, sumRows g.2)

/-- The monthly rows of a link, `ORDER BY monthly.occurredMonth ASC`. -/
def StatisticsDb.selectMonths (linkId monthFrom monthTo : String) (db : StatisticsDb) :
    List LinkMonthlyAggregate :=
  (db.monthlyAggregates.filter fun a => a.linkId = linkId ∧ monthFrom ≤ a.occurredMonth.text ∧
    a.occurredMonth.text ≤ monthTo).insertionSort fun a b =>
      a.occurredMonth.text ≤ b.occurredMonth.text

/-- `ORDER BY SUM("accessCount") DESC, "country" ASC`. -/
def countryOrder (a b : String × LinkStatisticsTotals) : Prop :=
  b.2.accesses < a.2.accesses ∨ a.2.accesses = b.2.accesses ∧ a.1 ≤ b.1

instance : DecidableRel countryOrder := fun a b =>
  inferInstanceAs (Decidable (b.2.accesses < a.2.accesses ∨
    a.2.accesses = b.2.accesses ∧ a.1 ≤ b.1))

/-- `GROUP BY "country"`. -/
def groupByCountry (rows : List LinkDailyAggregate) : List (String × LinkStatisticsTotals) :=
  ((groupBy (·.country) rows).map fun g => (g.1, sumRows g.2)).insertionSort countryOrder

/-! ### The queries -/

inductive ReportQuery where
  | daily (linkId : String) (period : StatisticsPeriod)
  | monthly (linkId monthFrom monthTo : String)
  | countries (linkId : String) (period : StatisticsPeriod)
  | totals (linkId : String) (period : StatisticsPeriod)
  deriving DecidableEq

namespace ReportQuery

def Rows : ReportQuery → Type
  | .daily _ _ => List (UtcDate × LinkStatisticsTotals)
  | .monthly _ _ _ => List LinkMonthlyAggregate
  | .countries _ _ => List (String × LinkStatisticsTotals)
  | .totals _ _ => LinkStatisticsTotals

def run : (q : ReportQuery) → StatisticsDb → Except StorageError q.Rows
  | .daily linkId period, db => (db.selectRows linkId period).map groupByDate
  | .monthly linkId monthFrom monthTo, db => .ok (db.selectMonths linkId monthFrom monthTo)
  | .countries linkId period, db => (db.selectRows linkId period).map groupByCountry
  | .totals linkId period, db => (db.selectRows linkId period).map sumRows

end ReportQuery

def dailyByDate (dailyRows : List (UtcDate × LinkStatisticsTotals)) :
    List (String × LinkStatisticsTotals) :=
  dailyRows.map fun row => (toUtcDateString row.1, row.2)

def dailyPoints (period : StatisticsPeriod) (dailyRows : List (UtcDate × LinkStatisticsTotals)) :
    List LinkStatisticsDailyPoint :=
  (eachUtcDate period.fromDate period.toDate).map fun date =>
    let point := mapGet (dailyByDate dailyRows) date
    { date := date
      accesses := (point.map (·.accesses)).getD 0
      dailyUniqueVisitors := (point.map (·.dailyUniqueVisitors)).getD 0 }

def monthlyByKey (monthlyRows : List LinkMonthlyAggregate) :
    List (String × LinkStatisticsTotals) :=
  monthlyRows.map fun row =>
    (row.occurredMonth.text, ⟨row.accessCount, row.dailyUniqueVisitorCount⟩)

def monthlyPoints (period : StatisticsPeriod) (monthlyRows : List LinkMonthlyAggregate) :
    List LinkStatisticsMonthlyPoint :=
  (eachUtcMonth (slice period.fromDate 0 7) (slice period.toDate 0 7)).map fun month =>
    let point := mapGet (monthlyByKey monthlyRows) month
    { month := month
      accesses := (point.map (·.accesses)).getD 0
      dailyUniqueVisitors := (point.map (·.dailyUniqueVisitors)).getD 0 }

def countryPoints (countryRows : List (String × LinkStatisticsTotals)) :
    List LinkStatisticsCountryPoint :=
  countryRows.map fun row => ⟨row.1, row.2.accesses, row.2.dailyUniqueVisitors⟩

abbrev ReportProgram : Type :=
  Program ReportQuery (fun q => Except StorageError q.Rows)
    (Except StorageError LinkStatisticsReport)

/-- `getReport`, query by query. -/
def getReportQueries (linkId : String) (period : StatisticsPeriod) : ReportProgram :=
  let monthFrom := String.ofList (slice period.fromDate 0 7)
  let monthTo := String.ofList (slice period.toDate 0 7)
  .call (.daily linkId period) fun
    | .error e => .pure (.error e)
    | .ok dailyRows => .call (.monthly linkId monthFrom monthTo) fun
      | .error e => .pure (.error e)
      | .ok monthlyRows => .call (.countries linkId period) fun
        | .error e => .pure (.error e)
        | .ok countryRows => .call (.totals linkId period) fun
          | .error e => .pure (.error e)
          | .ok totals => .pure (.ok {
              linkId := linkId
              period := period
              timezone := "UTC"
              totals := totals
              daily := dailyPoints period dailyRows
              monthly := monthlyPoints period monthlyRows
              countries := countryPoints countryRows })

/-- The report that is computed when all queries see the same tables. -/
def getReport (linkId : String) (period : StatisticsPeriod) (db : StatisticsDb) :
    Except StorageError LinkStatisticsReport :=
  (getReportQueries linkId period).answer fun q => q.run db

end LinkStatistics

end Shortlink
