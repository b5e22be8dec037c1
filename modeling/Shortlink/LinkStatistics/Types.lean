import Shortlink.Calendar.Decimal
import Shortlink.Storage.Error
import Shortlink.Table.Aggregate
import Mathlib.Data.Prod.Lex
import Mathlib.Data.String.Basic
import Mathlib.Data.List.Dedup
import Mathlib.Data.List.Sort

/-!
# Accesses and their aggregates

`link-statistics.types.ts`, the entities, and the statements the repository
issues on the five tables. A `date` is a `UtcDate`, whose text is the
`YYYY-MM-DD` of the source.
-/

namespace Shortlink

namespace LinkStatistics

open Shortlink.Storage Shortlink.Table

structure UtcMonth where
  year : ℕ
  month : ℕ
  deriving DecidableEq

structure UtcDate where
  year : ℕ
  month : ℕ
  day : ℕ
  deriving DecidableEq

namespace UtcDate

/-- The order of the dates is that of year, month and day. -/
def toLexTriple (d : UtcDate) : ℕ ×ₗ ℕ ×ₗ ℕ :=
  toLex (d.year, toLex (d.month, d.day))

theorem toLexTriple_injective : Function.Injective toLexTriple := by
  rintro ⟨y₁, m₁, d₁⟩ ⟨y₂, m₂, d₂⟩ h
  simp only [toLexTriple, EmbeddingLike.apply_eq_iff_eq, Prod.mk.injEq] at h
  obtain ⟨rfl, rfl, rfl⟩ := h
  rfl

instance : LinearOrder UtcDate := LinearOrder.lift' toLexTriple toLexTriple_injective

/-- `occurredOn.slice(0, 7)`. -/
def utcMonth (d : UtcDate) : UtcMonth := ⟨d.year, d.month⟩

/-- Decimal digits, padded to a width. -/
def padded (width n : ℕ) : String := String.ofList (Calendar.padded width n)

def toIsoString (d : UtcDate) : String :=
  padded 4 d.year ++ "-" ++ padded 2 d.month ++ "-" ++ padded 2 d.day

end UtcDate

structure AccessEventInput where
  eventId : String
  linkId : String
  occurredAt : String
  occurredOn : UtcDate
  country : String
  visitorPseudonym : String
  deriving DecidableEq

structure LinkAccessEvent where
  id : String
  linkId : String
  occurredAt : String
  occurredOn : UtcDate
  country : String
  visitorPseudonym : String
  deriving DecidableEq

structure LinkDailyVisitor where
  linkId : String
  occurredOn : UtcDate
  visitorPseudonym : String
  country : String
  deriving DecidableEq

structure LinkDailyAggregate where
  linkId : String
  occurredOn : UtcDate
  country : String
  accessCount : ℕ
  uniqueVisitorCount : ℕ
  deriving DecidableEq

structure LinkMonthlyAggregate where
  linkId : String
  occurredMonth : UtcMonth
  accessCount : ℕ
  dailyUniqueVisitorCount : ℕ
  deriving DecidableEq

structure LinkStatisticsDay where
  linkId : String
  occurredOn : UtcDate
  finalizedAt : ℕ
  deriving DecidableEq

structure StatisticsDb where
  events : List LinkAccessEvent
  dailyVisitors : List LinkDailyVisitor
  dailyAggregates : List LinkDailyAggregate
  monthlyAggregates : List LinkMonthlyAggregate
  days : List LinkStatisticsDay
  deriving DecidableEq

abbrev LinkDay : Type := String × UtcDate

abbrev LinkAccessEvent.linkDay (e : LinkAccessEvent) : LinkDay :=
  (e.linkId, e.occurredOn)

abbrev LinkDailyVisitor.linkDay (v : LinkDailyVisitor) : LinkDay :=
  (v.linkId, v.occurredOn)

abbrev LinkStatisticsDay.linkDay (d : LinkStatisticsDay) : LinkDay :=
  (d.linkId, d.occurredOn)

abbrev AccessEventInput.linkDay (input : AccessEventInput) : LinkDay :=
  (input.linkId, input.occurredOn)

/-- The primary key of `link_daily_aggregates`. -/
abbrev LinkDailyAggregate.key (a : LinkDailyAggregate) : LinkDay × String :=
  ((a.linkId, a.occurredOn), a.country)

/-- The primary key of `link_monthly_aggregates`. -/
abbrev LinkMonthlyAggregate.key (a : LinkMonthlyAggregate) : String × UtcMonth :=
  (a.linkId, a.occurredMonth)

def AccessEventInput.event (input : AccessEventInput) : LinkAccessEvent :=
  ⟨input.eventId, input.linkId, input.occurredAt, input.occurredOn, input.country,
    input.visitorPseudonym⟩

def AccessEventInput.visitor (input : AccessEventInput) : LinkDailyVisitor :=
  ⟨input.linkId, input.occurredOn, input.visitorPseudonym, input.country⟩

@[simp] theorem AccessEventInput.linkDay_event (input : AccessEventInput) :
    input.event.linkDay = input.linkDay := rfl

@[simp] theorem AccessEventInput.linkDay_visitor (input : AccessEventInput) :
    input.visitor.linkDay = input.linkDay := rfl

namespace StatisticsDb

def empty : StatisticsDb := ⟨[], [], [], [], []⟩

/-- `findOne` of a closed day. -/
def findDay (linkDay : LinkDay) (db : StatisticsDb) : Option LinkStatisticsDay :=
  db.days.find? fun d => decide (d.linkDay = linkDay)

def hasEvent (id : String) (db : StatisticsDb) : Bool :=
  db.events.any fun e => e.id == id

/-- Whether there is a visitor row of this day with this pseudonym. -/
def hasVisitor (linkDay : LinkDay) (visitorPseudonym : String)
    (db : StatisticsDb) : Bool :=
  db.dailyVisitors.any fun v =>
    decide (v.linkDay = linkDay) && v.visitorPseudonym == visitorPseudonym

def insertEvent (input : AccessEventInput) (db : StatisticsDb) : StatisticsDb :=
  { db with events := db.events ++ [input.event] }

def insertVisitor (input : AccessEventInput) (db : StatisticsDb) : StatisticsDb :=
  { db with dailyVisitors := db.dailyVisitors ++ [input.visitor] }

def incrementDailyAccesses (input : AccessEventInput) (db : StatisticsDb) :
    StatisticsDb :=
  { db with
    dailyAggregates := upsert LinkDailyAggregate.key
      (input.linkDay, input.country)
      ⟨input.linkId, input.occurredOn, input.country, 1, 0⟩
      (fun a => { a with accessCount := a.accessCount + 1 }) db.dailyAggregates }

def incrementMonthlyAccesses (input : AccessEventInput) (db : StatisticsDb) :
    StatisticsDb :=
  { db with
    monthlyAggregates := upsert LinkMonthlyAggregate.key
      (input.linkId, input.occurredOn.utcMonth)
      ⟨input.linkId, input.occurredOn.utcMonth, 1, 0⟩
      (fun a => { a with accessCount := a.accessCount + 1 })
      db.monthlyAggregates }

def incrementDailyVisitors (input : AccessEventInput) (db : StatisticsDb) :
    StatisticsDb :=
  { db with
    dailyAggregates := updateWhere
      (fun a => a.key = (input.linkDay, input.country))
      (fun a => { a with uniqueVisitorCount := a.uniqueVisitorCount + 1 })
      db.dailyAggregates }

def incrementMonthlyVisitors (input : AccessEventInput) (db : StatisticsDb) :
    StatisticsDb :=
  { db with
    monthlyAggregates := updateWhere
      (fun a => a.key = (input.linkId, input.occurredOn.utcMonth))
      (fun a =>
        { a with dailyUniqueVisitorCount := a.dailyUniqueVisitorCount + 1 })
      db.monthlyAggregates }

/-- `insert` of a closed day. -/
def insertDay (linkDay : LinkDay) (finalizedAt : ℕ) (db : StatisticsDb) :
    Except StorageError StatisticsDb :=
  if (db.findDay linkDay).isSome then
    .error (uniqueViolation "PK_4e1b2db644e7bd231cebfc1c977" "\"linkId\", \"occurredOn\""
      (linkDay.1 ++ ", " ++ linkDay.2.toIsoString))
  else
    .ok { db with days := db.days ++ [⟨linkDay.1, linkDay.2, finalizedAt⟩] }

def deleteEvents (linkDay : LinkDay) (db : StatisticsDb) : StatisticsDb :=
  { db with events := db.events.filter fun e => e.linkDay ≠ linkDay }

def deleteVisitors (linkDay : LinkDay) (db : StatisticsDb) : StatisticsDb :=
  { db with dailyVisitors := db.dailyVisitors.filter fun v => v.linkDay ≠ linkDay }

/-- `ORDER BY "occurredOn" ASC, "linkId" ASC`. -/
def candidateOrder (a b : LinkDay) : Prop :=
  toLex (a.2, a.1) ≤ toLex (b.2, b.1)

instance : DecidableRel candidateOrder := fun a b =>
  inferInstanceAs (Decidable (toLex (a.2, a.1) ≤ toLex (b.2, b.1)))

/-- The candidates of `finalizeDays`: the days before `before` that have an event
or a visitor row and are not closed. -/
def findCandidates (before : UtcDate) (db : StatisticsDb) : List LinkDay :=
  ((((db.events.map (·.linkDay)).filter (fun d => d.2 < before) ++
      (db.dailyVisitors.map (·.linkDay)).filter (fun d => d.2 < before)).dedup).filter
    fun d => (db.findDay d).isNone).insertionSort candidateOrder

end StatisticsDb

end LinkStatistics

end Shortlink
