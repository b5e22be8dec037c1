import Shortlink.Interaction.Throwing
import Shortlink.LinkStatistics.Report
import Shortlink.Links.Listing

/-!
# The endpoints of a user

`LinkStatisticsService.getReport`, whose repositories are those of the links and of the
statistics, together with the calls of `LinksService`. The two services share the table of
links; what the recorder and the finalizer do to the other tables is left to the
environment.
-/

namespace Shortlink

namespace LinkStatistics

open Shortlink.Storage Shortlink.Interaction Shortlink.Links

inductive ServiceStep where
  | links (c : LinksStep)
  | listByUser (userId : String) (query : ListLinksQuery)
  | report (q : ReportQuery)

def ServiceStep.Reply : ServiceStep → Type
  | .links c => c.Reply
  | .listByUser _ _ => Except StorageError PaginatedLinks
  | .report q => Except StorageError q.Rows

/-- The calls; a report is asked for at a time. -/
inductive ServiceCall where
  | links (call : LinksCall)
  | list (userId : String) (query : ListLinksQueryDto)
  | getReport (userId linkId : String) (query : PeriodQuery) (now : ℤ)

inductive ServiceResult where
  | links (result : LinksResult)
  | list (result : Except LinksError ListLinksResponse)
  | report (result : Except LinkStatisticsError LinkStatisticsReport)

abbrev ServiceProgram : Type := Program ServiceStep ServiceStep.Reply ServiceResult

/-- The tables of the links with their cache, and those of the statistics. -/
structure ServiceState where
  links : LinksState
  statistics : StatisticsDb

/-- What happens without a call: something in the links' storage, or to the aggregates. -/
inductive ServiceEnvironment where
  | links (x : LinksEnvironment)
  | statistics (db : StatisticsDb)

/-- `list` of the service. -/
def list (config : LinksConfig) (userId : String) (query : ListLinksQueryDto) :
    ServiceProgram :=
  .call (.listByUser userId query.toQuery) fun reply => match reply with
    | .error e => .pure (.list (.error (.storage e)))
    | .ok page => .pure (.list (.ok (LinksService.listResponse config page)))

namespace LinkStatisticsService

/-- `getReport` after the ownership check. -/
def reported (linkId : String) (period : StatisticsPeriod) : ServiceProgram :=
  ((getReportQueries linkId period).embed ServiceStep.report fun _ r => r).bind fun r =>
    .pure (.report (r.mapError .storage))

def getReport (userId linkId : String) (query : PeriodQuery) (now : ℤ) : ServiceProgram :=
  match resolvePeriod now query with
  | .error e => .pure (.report (.error e))
  | .ok period => .call (.links (.repository (.findById linkId))) fun reply => match reply with
    | .error e => .pure (.report (.error (.storage e)))
    | .ok none => .pure (.report (.error linkNotFoundException))
    | .ok (some link) =>
        if link.userId ≠ userId then .pure (.report (.error forbiddenException))
        else reported linkId period

end LinkStatisticsService

/-- Calls of both services, executed concurrently. -/
def services (config : LinksConfig) :
    Semantics ServiceStep ServiceStep.Reply ServiceCall ServiceResult ServiceState
      LinksOutside ServiceEnvironment where
  body
    | .links call => ((LinksService.body config call).embed ServiceStep.links fun _ r => r).bind
        fun r => .pure (.links r)
    | .list userId query => list config userId query
    | .getReport userId linkId query now =>
        LinkStatisticsService.getReport userId linkId query now
  exec
    | .links c, o, s => (LinksService.exec config c o s.links).map fun rs =>
        (rs.1, { s with links := rs.2 })
    | .listByUser userId query, o, s =>
        some (o.fault.apply s (.ok (s.links.db.listByUser userId query), s))
    | .report q, o, s => some (o.fault.apply s (q.run s.statistics, s))
  environment
    | .links x, s => { s with links := LinksService.environment x s.links }
    | .statistics db, s => { s with statistics := db }

abbrev ServicePool : Type :=
  Pool ServiceStep ServiceStep.Reply ServiceCall ServiceResult ServiceState

end LinkStatistics

end Shortlink
