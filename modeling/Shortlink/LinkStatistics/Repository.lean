import Shortlink.LinkStatistics.Types
import Shortlink.Transaction.System

/-!
# The statistics repository

`recordAccess` and `finalizeDays` of `typeorm-link-statistics.repository.ts`,
statement by statement, with their callers `link-statistics.processor.ts` and
`link-statistics-finalizer.service.ts`, and what each transaction does when it is
executed alone. `hashtext` of PostgreSQL is a parameter.
-/

namespace Shortlink

namespace LinkStatistics

open Shortlink.Storage Shortlink.Table Shortlink.Transaction
open Shortlink.Interaction

/-- What a transaction waits for: the advisory lock of a pair of hashes, or
another transaction that is inserting an event with the same id. -/
inductive LockKey where
  | advisory (key₁ key₂ : ℤ)
  | event (id : String)
  deriving DecidableEq

abbrev StatisticsTx := Tx StatisticsDb LockKey StorageError

def linkDayLock (hashtext : String → ℤ) (linkDay : LinkDay) : LockKey :=
  .advisory (hashtext linkDay.1) (hashtext linkDay.2.toIsoString)

def lockLinkDay (hashtext : String → ℤ) (linkDay : LinkDay) : StatisticsTx Unit :=
  Tx.acquire (linkDayLock hashtext linkDay)

/-- `INSERT … ON CONFLICT ("id") DO NOTHING RETURNING "id"`. -/
def insertNewEvent (input : AccessEventInput) : StatisticsTx (List String) := do
  Tx.acquire (.event input.eventId)
  let conflict ← Tx.query (StatisticsDb.hasEvent input.eventId)
  if conflict then return []
  else
    Tx.update fun db => .ok (db.insertEvent input)
    return [input.eventId]

/-- `INSERT … ON CONFLICT ("linkId", "occurredOn", "visitorPseudonym") DO NOTHING
RETURNING "visitorPseudonym"`. -/
def insertNewVisitor (input : AccessEventInput) : StatisticsTx (List String) := do
  let conflict ← Tx.query
    (StatisticsDb.hasVisitor input.linkDay input.visitorPseudonym)
  if conflict then return []
  else
    Tx.update fun db => .ok (db.insertVisitor input)
    return [input.visitorPseudonym]

def recordAccessTx (hashtext : String → ℤ) (input : AccessEventInput) :
    StatisticsTx Unit := do
  lockLinkDay hashtext input.linkDay
  let finalized ← Tx.query (StatisticsDb.findDay input.linkDay)
  match finalized with
  | some _ => return ()
  | none =>
      let insertedEvents ← insertNewEvent input
      if insertedEvents.length = 0 then return () else counted
where
  /-- What follows the insertion of the event. -/
  counted : StatisticsTx Unit := do
    Tx.update fun db => .ok (db.incrementDailyAccesses input)
    Tx.update fun db => .ok (db.incrementMonthlyAccesses input)
    let insertedVisitors ← insertNewVisitor input
    if insertedVisitors.length = 0 then return ()
    else
      Tx.update fun db => .ok (db.incrementDailyVisitors input)
      Tx.update fun db => .ok (db.incrementMonthlyVisitors input)

/-- The transaction of `finalizeDays` for one candidate. -/
def finalizeDayTx (hashtext : String → ℤ) (linkDay : LinkDay) (finalizedAt : ℕ) :
    StatisticsTx Unit := do
  lockLinkDay hashtext linkDay
  let existing ← Tx.query (StatisticsDb.findDay linkDay)
  match existing with
  | some _ => delete
  | none =>
      Tx.update (StatisticsDb.insertDay linkDay finalizedAt)
      delete
where
  /-- The two deletions. -/
  delete : StatisticsTx Unit := do
    Tx.update fun db => .ok (db.deleteEvents linkDay)
    Tx.update fun db => .ok (db.deleteVisitors linkDay)

/-- The transactions of the repository; the query of the candidates is one of
its own. -/
inductive StatisticsCommand where
  | recordAccess (input : AccessEventInput)
  | findCandidates (before : UtcDate)
  | finalizeDay (linkDay : LinkDay)
  deriving DecidableEq

namespace StatisticsCommand

/-- The value of a transaction. -/
def Res : StatisticsCommand → Type
  | .recordAccess _ => Unit
  | .findCandidates _ => List LinkDay
  | .finalizeDay _ => Unit

/-- The body of a transaction, given the time. -/
def impl (hashtext : String → ℤ) :
    (c : StatisticsCommand) → ℕ → StatisticsTx c.Res
  | .recordAccess input, _ => recordAccessTx hashtext input
  | .findCandidates before, _ => Tx.query (StatisticsDb.findCandidates before)
  | .finalizeDay linkDay, finalizedAt => finalizeDayTx hashtext linkDay finalizedAt

end StatisticsCommand

abbrev StatisticsReply (c : StatisticsCommand) : Type :=
  Except StorageError c.Res

abbrev StatisticsProgram : Type :=
  Program StatisticsCommand StatisticsReply (Except StorageError Unit)

def recordAccess (input : AccessEventInput) : StatisticsProgram :=
  .call (.recordAccess input) .pure

/-- The loop of `finalizeDays` over the candidates. -/
def finalizeCandidates : List LinkDay → StatisticsProgram
  | [] => .pure (.ok ())
  | candidate :: candidates =>
      .call (.finalizeDay candidate) fun
        | .ok () => finalizeCandidates candidates
        | .error e => .pure (.error e)

def finalizeDays (before : UtcDate) : StatisticsProgram :=
  .call (.findCandidates before) fun
    | .ok candidates => finalizeCandidates candidates
    | .error e => .pure (.error e)

def RECORD_LINK_ACCESS_JOB : String := "record-link-access"

/-- A job of the statistics queue. -/
structure Job where
  name : String
  data : AccessEventInput
  deriving DecidableEq

/-- `LinkStatisticsProcessor.process`; a job with another name is ignored. -/
def process (job : Job) : StatisticsProgram :=
  if job.name = RECORD_LINK_ACCESS_JOB then
    recordAccess
      { eventId := job.data.eventId, linkId := job.data.linkId
        occurredAt := job.data.occurredAt, occurredOn := job.data.occurredOn
        country := job.data.country
        visitorPseudonym := job.data.visitorPseudonym }
  else .pure (.ok ())

/-- The calls of the repository: a delivery of a job, and a run of the
finalizer, which passes the current UTC day. -/
inductive StatisticsCall where
  | recordAccess (input : AccessEventInput)
  | process (job : Job)
  | finalizeDays (before : UtcDate)
  deriving DecidableEq

def StatisticsCall.program : StatisticsCall → StatisticsProgram
  | .recordAccess input => LinkStatistics.recordAccess input
  | .process job => LinkStatistics.process job
  | .finalizeDays before => LinkStatistics.finalizeDays before

/-- Calls of the repository, executed concurrently. -/
def statistics (hashtext : String → ℤ) :
    System StatisticsCommand StatisticsCommand.Res StatisticsCall
      (Except StorageError Unit) ℕ StatisticsDb LockKey StorageError where
  body := StatisticsCall.program
  impl := StatisticsCommand.impl hashtext

abbrev StatisticsState : Type :=
  State StatisticsCommand StatisticsCommand.Res StatisticsCall
    (Except StorageError Unit) ℕ StatisticsDb LockKey StorageError

abbrev StatisticsRecord : Type :=
  Record StatisticsCommand StatisticsCommand.Res ℕ StorageError

/-! ### What a call issues -/

def StatisticsCall.Records : StatisticsCall → AccessEventInput → Prop
  | .recordAccess input', input => input' = input
  | .process job, input => job.data = input
  | .finalizeDays _, _ => False

theorem finalizeCandidates_issues {may : StatisticsCommand → Prop}
    (hclose : ∀ linkDay, may (.finalizeDay linkDay)) (candidates : List LinkDay) :
    (finalizeCandidates candidates).Sat (fun _ _ => True) may fun _ => True := by
  induction candidates with
  | nil => trivial
  | cons candidate candidates ih =>
      refine ⟨hclose candidate, fun reply _ => ?_⟩
      cases reply with
      | ok a => exact ih
      | error e => trivial

/-- A call records its own access, or it is the finalizer, which looks for days and closes
them. -/
theorem StatisticsCall.issues {may : StatisticsCommand → Prop} (call : StatisticsCall)
    (hrecord : ∀ input, call.Records input → may (.recordAccess input))
    (hfinalize : ∀ before, call = .finalizeDays before →
      may (.findCandidates before) ∧ ∀ linkDay, may (.finalizeDay linkDay)) :
    call.program.Sat (fun _ _ => True) may fun _ => True := by
  cases call with
  | recordAccess input => exact ⟨hrecord input rfl, fun _ _ => trivial⟩
  | process job =>
      simp only [StatisticsCall.program, LinkStatistics.process]
      split
      · exact ⟨hrecord job.data rfl, fun _ _ => trivial⟩
      · trivial
  | finalizeDays before =>
      obtain ⟨hfind, hclose⟩ := hfinalize before rfl
      refine ⟨hfind, fun reply _ => ?_⟩
      cases reply with
      | ok candidates => exact finalizeCandidates_issues hclose candidates
      | error e => trivial

/-! ### The transactions executed alone -/

namespace StatisticsDb

/-- A first access by this visitor on this day is counted as a unique visitor. -/
def countVisitor (input : AccessEventInput) (db : StatisticsDb) : StatisticsDb :=
  if db.hasVisitor input.linkDay input.visitorPseudonym then db
  else ((db.insertVisitor input).incrementDailyVisitors
    input).incrementMonthlyVisitors input

def countAccess (input : AccessEventInput) (db : StatisticsDb) : StatisticsDb :=
  (((db.insertEvent input).incrementDailyAccesses
    input).incrementMonthlyAccesses input).countVisitor input

/-- The access is counted, unless the day is closed or the event is known. -/
def record (input : AccessEventInput) (db : StatisticsDb) : StatisticsDb :=
  if (db.findDay input.linkDay).isSome || db.hasEvent input.eventId then db
  else db.countAccess input

/-- The day is closed. -/
def close (linkDay : LinkDay) (finalizedAt : ℕ) (db : StatisticsDb) :
    StatisticsDb :=
  let marked :=
    if (db.findDay linkDay).isSome then db
    else { db with days := db.days ++ [⟨linkDay.1, linkDay.2, finalizedAt⟩] }
  (marked.deleteEvents linkDay).deleteVisitors linkDay

variable {db : StatisticsDb} {input : AccessEventInput} {linkDay : LinkDay}
  {finalizedAt : ℕ}

@[simp] theorem events_countAccess :
    (db.countAccess input).events = db.events ++ [input.event] := by
  simp only [countAccess, countVisitor]
  split <;> rfl

@[simp] theorem days_countAccess : (db.countAccess input).days = db.days := by
  simp only [countAccess, countVisitor]
  split <;> rfl

@[simp] theorem dailyVisitors_countAccess :
    (db.countAccess input).dailyVisitors =
      if db.hasVisitor input.linkDay input.visitorPseudonym then db.dailyVisitors
      else db.dailyVisitors ++ [input.visitor] := by
  simp only [countAccess, countVisitor]
  exact apply_ite StatisticsDb.dailyVisitors _ _ _

@[simp] theorem events_close :
    (db.close linkDay finalizedAt).events =
      db.events.filter fun e => e.linkDay ≠ linkDay := by
  simp only [close]
  split <;> rfl

@[simp] theorem dailyVisitors_close :
    (db.close linkDay finalizedAt).dailyVisitors =
      db.dailyVisitors.filter fun v => v.linkDay ≠ linkDay := by
  simp only [close]
  split <;> rfl

@[simp] theorem dailyAggregates_close :
    (db.close linkDay finalizedAt).dailyAggregates = db.dailyAggregates := by
  simp only [close]
  split <;> rfl

@[simp] theorem monthlyAggregates_close :
    (db.close linkDay finalizedAt).monthlyAggregates = db.monthlyAggregates := by
  simp only [close]
  split <;> rfl

@[simp] theorem days_close :
    (db.close linkDay finalizedAt).days =
      if (db.findDay linkDay).isSome then db.days
      else db.days ++ [⟨linkDay.1, linkDay.2, finalizedAt⟩] := by
  simp only [close]
  split <;> rfl

end StatisticsDb

theorem recordAccessTx_run (hashtext : String → ℤ) (input : AccessEventInput)
    (db : StatisticsDb) :
    (recordAccessTx hashtext input).run db = .ok ((), db.record input) := by
  simp only [recordAccessTx, lockLinkDay, Tx.bind_eq, Tx.acquire_bind,
    Tx.query_bind, Tx.run_lock, Tx.run_read, StatisticsDb.record]
  cases hday : db.findDay input.linkDay with
  | some day => simp
  | none =>
      simp only [insertNewEvent, Tx.bind_eq, Tx.acquire_bind, Tx.query_bind,
        Tx.lock_bind, Tx.read_bind, Tx.run_lock, Tx.run_read]
      cases hevent : db.hasEvent input.eventId with
      | true => simp
      | false =>
          simp only [Bool.false_eq_true, if_false, Tx.update_bind, Tx.write_bind,
            Tx.pure_eq, Tx.pure_bind, Tx.run_write, List.length_singleton,
            one_ne_zero, recordAccessTx.counted, insertNewVisitor, Tx.bind_eq, Tx.query_bind,
            Tx.read_bind, Tx.run_read, Option.isSome_none, Bool.or_self, StatisticsDb.countAccess,
            StatisticsDb.countVisitor]
          split <;> rfl

theorem finalizeDayTx_run (hashtext : String → ℤ) (linkDay : LinkDay)
    (finalizedAt : ℕ) (db : StatisticsDb) :
    (finalizeDayTx hashtext linkDay finalizedAt).run db =
      .ok ((), db.close linkDay finalizedAt) := by
  simp only [finalizeDayTx, lockLinkDay, Tx.bind_eq, Tx.acquire_bind,
    Tx.query_bind, Tx.run_lock, Tx.run_read, StatisticsDb.close]
  cases hday : db.findDay linkDay with
  | some day => rfl
  | none =>
      simp only [Tx.update_bind, Tx.run_write, StatisticsDb.insertDay, hday,
        Option.isSome_none, Bool.false_eq_true, if_false]
      rfl

/-- What a transaction executed alone does to the database. -/
def StatisticsCommand.effect : StatisticsCommand → ℕ → StatisticsDb → StatisticsDb
  | .recordAccess input, _, db => db.record input
  | .findCandidates _, _, db => db
  | .finalizeDay linkDay, finalizedAt, db => db.close linkDay finalizedAt

theorem StatisticsCommand.eq_effect_of_run {hashtext : String → ℤ}
    {c : StatisticsCommand} {finalizedAt : ℕ} {db db' : StatisticsDb} {a : c.Res}
    (h : (StatisticsCommand.impl hashtext c finalizedAt).run db = .ok (a, db')) :
    db' = c.effect finalizedAt db := by
  cases c with
  | recordAccess input =>
      exact (Prod.mk.inj (Except.ok.inj
        ((recordAccessTx_run hashtext input db).symm.trans h))).2.symm
  | findCandidates before => exact (Prod.mk.inj (Except.ok.inj h)).2.symm
  | finalizeDay linkDay =>
      exact (Prod.mk.inj (Except.ok.inj
        ((finalizeDayTx_run hashtext linkDay finalizedAt db).symm.trans h))).2.symm

end LinkStatistics

end Shortlink
