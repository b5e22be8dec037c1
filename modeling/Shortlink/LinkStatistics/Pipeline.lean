import Shortlink.Interaction.Rely
import Shortlink.LinkStatistics.Agreement
import Shortlink.LinkStatistics.Pseudonym
import Shortlink.LinkStatistics.TrafficDetector
import Shortlink.Links.PublicResolve

/-!
# From a request to the statistics

The parts of the collection as one system: a request for a link collects an access, the
collector puts a job into the queue, a worker hands the job to the repository, and the
finalizer closes the days before the current one. All of them run concurrently with the
other calls of the links service, and they share one clock. The queue delivers a job any
number of times, or not at all, and forgets jobs; a transaction of the repository is executed
alone, its reply may be lost.
-/

namespace Shortlink

namespace LinkStatistics

open Shortlink.Storage Shortlink.Interaction Shortlink.Links Shortlink.Calendar
open Shortlink.Expiring

/-! ### The queue -/

/-- A job of the queue `link-stats`. -/
structure QueuedJob where
  id : String
  name : String
  data : CollectedAccess
  deriving DecidableEq

def QueueLinkAccessCollector.job (input : CollectedAccess) : QueuedJob where
  id := "access-" ++ input.eventId
  name := RECORD_LINK_ACCESS_JOB
  data := input

/-- `Queue.add`; a job whose id is in the queue is not added again. -/
def addJob (job : QueuedJob) (jobs : List QueuedJob) : List QueuedJob :=
  if jobs.any fun j => j.id == job.id then jobs else jobs ++ [job]

/-! ### The system -/

inductive PipelineStep where
  | web (c : PublicStep)
  | statistics (c : StatisticsCommand)
  | clock
  deriving DecidableEq

abbrev PipelineStep.Reply : PipelineStep → Type
  | .web c => c.Reply
  | .statistics c => StatisticsReply c
  | .clock => ℤ

inductive PipelineCall where
  | web (call : PublicCall)
  | process (job : QueuedJob)
  | finalizePreviousUtcDays
  deriving DecidableEq

inductive PipelineResult where
  | web (result : Option LinksResult)
  | worker (result : Except StorageError Unit)

abbrev PipelineProgram : Type := Program PipelineStep PipelineStep.Reply PipelineResult

abbrev PipelineExchange : Type := Exchange PipelineStep PipelineStep.Reply

abbrev PipelineEntry : Type := Entry PipelineStep PipelineStep.Reply

structure PipelineConfig where
  links : LinksConfig
  hmac : String → String
  hashtext : String → ℤ

/-- The links with their cache, the queue, and the tables of the statistics. -/
structure PipelineState where
  links : LinksState
  jobs : List QueuedJob
  statistics : StatisticsDb

def PipelineState.now (s : PipelineState) : ℕ := s.links.cache.now

/-- A fresh installation. -/
def PipelineState.init (users : List String) (now : ℕ) : PipelineState :=
  ⟨⟨⟨users, []⟩, Store.empty now⟩, [], StatisticsDb.empty⟩

/-- What a step takes from outside; a refused `add` may have stored the job. -/
structure PipelineOutside where
  web : PublicOutside
  stored : Bool
  fault : Fault

inductive PipelineEnvironment where
  | links (x : LinksEnvironment)
  | forget (id : String)

/-- The date of a reading of the clock, as the text that the source passes on. -/
def utcDay (now : ℤ) : String := String.ofList ((EcmaDate.toISOString now).take 10)

/-- The access of a job, its day read by PostgreSQL. -/
def accessEventInput (data : CollectedAccess) : Except StorageError AccessEventInput :=
  (dateParameter data.occurredOn).map fun occurredOn =>
    { eventId := data.eventId, linkId := data.linkId, occurredAt := data.occurredAt, occurredOn
      country := data.country, visitorPseudonym := data.visitorPseudonym }

def worker (p : StatisticsProgram) : PipelineProgram :=
  (p.embed PipelineStep.statistics fun _ r => r).bind fun r => .pure (.worker r)

/-- `LinkStatisticsProcessor.process`; the first statement that has a day which is none
fails. -/
def LinkStatisticsProcessor.process (job : QueuedJob) : PipelineProgram :=
  match accessEventInput job.data with
  | .ok data => worker (LinkStatistics.process ⟨job.name, data⟩)
  | .error e => .pure (.worker (if job.name = RECORD_LINK_ACCESS_JOB then .error e else .ok ()))

/-- `LinkStatisticsFinalizerService.finalizePreviousUtcDays`. -/
def LinkStatisticsFinalizerService.finalizePreviousUtcDays : PipelineProgram :=
  .call .clock fun (now : ℤ) =>
    let todayUtc := utcDay now
    match dateParameter todayUtc with
    | .ok before => worker (finalizeDays before)
    | .error e => .pure (.worker (.error e))

/-- A transaction of the repository, executed alone. -/
def execStatistics (config : PipelineConfig) (c : StatisticsCommand) (s : PipelineState) :
    StatisticsReply c × PipelineState :=
  match (c.impl config.hashtext s.now).run s.statistics with
  | .ok (a, statistics) => (.ok a, { s with statistics })
  | .error e => (.error e, s)

/-- The effect of a step. -/
def execPipeline (config : PipelineConfig) :
    (c : PipelineStep) → PipelineOutside → PipelineState → Option (c.Reply × PipelineState)
  | .web (.isAutomated userAgent), _, s =>
      some (.ok (AutomatedTrafficDetector.isAutomated userAgent), s)
  | .web .now, _, s => some ((s.now : ℤ), s)
  | .web (.createPseudonym linkId occurredOn ip userAgent), _, s =>
      some (.ok (VisitorPseudonymizer.create config.hmac linkId occurredOn ip userAgent), s)
  | .web (.collect input), o, s =>
      let added := { s with jobs := addJob (QueueLinkAccessCollector.job input) s.jobs }
      some (match o.web.collect with
        | .ok () => (.ok (), added)
        | .error e => (.error e, if o.stored then added else s))
  | .web c, o, s =>
      (execPublic config.links c o.web s.links).map fun rs => (rs.1, { s with links := rs.2 })
  | .statistics c, o, s => some (o.fault.apply s (execStatistics config c s))
  | .clock, _, s => some ((s.now : ℤ), s)

def pipelineBody (config : PipelineConfig) : PipelineCall → PipelineProgram
  | .web call => ((publicBody config.links true call).embed PipelineStep.web fun _ r => r).bind
      fun r => .pure (.web r)
  | .process job => LinkStatisticsProcessor.process job
  | .finalizePreviousUtcDays => LinkStatisticsFinalizerService.finalizePreviousUtcDays

/-- Requests, calls of the links service, workers and finalizers, executed concurrently. -/
def pipeline (config : PipelineConfig) :
    Semantics PipelineStep PipelineStep.Reply PipelineCall PipelineResult PipelineState
      PipelineOutside PipelineEnvironment where
  body := pipelineBody config
  exec := execPipeline config
  environment
    | .links x, s => { s with links := LinksService.environment x s.links }
    | .forget id, s => { s with jobs := s.jobs.filter fun j => j.id ≠ id }

abbrev PipelinePool : Type :=
  Pool PipelineStep PipelineStep.Reply PipelineCall PipelineResult PipelineState

abbrev PipelineEvent : Type := Event PipelineCall PipelineOutside PipelineEnvironment

/-- A worker is given jobs of the queue only. -/
def FromQueue (σ : PipelinePool) : PipelineEvent → Prop
  | .spawn (.process job) => job ∈ σ.shared.jobs
  | _ => True

instance (σ : PipelinePool) (e : PipelineEvent) : Decidable (FromQueue σ e) :=
  match e with
  | .spawn (.process job) => inferInstanceAs (Decidable (job ∈ σ.shared.jobs))
  | .spawn (.web _) => isTrue trivial
  | .spawn .finalizePreviousUtcDays => isTrue trivial
  | .exec _ _ => isTrue trivial
  | .environment _ => isTrue trivial

end LinkStatistics

end Shortlink
