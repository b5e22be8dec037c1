import Shortlink.Expiring.Store
import Shortlink.Interaction.Run
import Shortlink.Links.Repository

/-!
# The links service

`links.service.ts` over the repository and the Redis resolution cache. A call is
a program of steps: one method of the repository, one Redis command or one code
drawn from the generator. A repository step executes its transaction alone;
`Limit.lean` says why this is what the interleaved statements amount to.

The warnings that the service logs are left out.
-/

namespace Shortlink

namespace Links

open Shortlink.Storage Shortlink.Transaction Shortlink.Interaction
open Shortlink.Expiring

/-- The parts of a parsed URL that `DestinationUrl` looks at. -/
structure Url where
  protocol : String
  username : String
  password : String
  href : String

def MAX_CANONICAL_LENGTH : ℕ := 2048

/-- `DestinationUrl.create`, given what `new URL(raw.trim())` answers. -/
def createDestinationUrl (newUrl : String → Option Url) (raw : String) :
    Option String :=
  match newUrl raw with
  | none => none
  | some url =>
      if url.protocol ≠ "http:" ∧ url.protocol ≠ "https:" then none
      else if url.username ≠ "" ∨ url.password ≠ "" then none
      else if url.href.length > MAX_CANONICAL_LENGTH then none
      else some url.href

/-- The settings of the service and the URL parser of the runtime. -/
structure LinksConfig where
  publicShortUrlBase : String
  maxCodeAttempts : ℕ
  linkResolutionCacheTtlSeconds : ℕ
  newUrl : String → Option Url

structure LinkResponse where
  id : String
  shortCode : String
  destinationUrl : String
  shortUrl : String
  status : LinkStatus
  createdAt : ℕ
  updatedAt : ℕ
  deriving DecidableEq

/-- An error that leaves the service: an HTTP exception with its body, or an
error of the storage that nothing catches. -/
inductive LinksError where
  | http (status : ℕ) (code message : String)
      (errors : List (String × List String))
  | storage (e : StorageError)
  deriving DecidableEq

def validationException : LinksError :=
  .http 422 "VALIDATION_ERROR" "Validation failed."
    [("destinationUrl", ["destinationUrl must be a valid absolute HTTP(S) URL"])]

def linkLimitReachedException : LinksError :=
  .http 409 "LINK_LIMIT_REACHED" "Active link limit reached." []

def linkNotFoundException : LinksError :=
  .http 404 "LINK_NOT_FOUND" "Link not found." []

def forbiddenException : LinksError :=
  .http 403 "FORBIDDEN" "You do not have access to this link." []

def linkCacheUnavailableException : LinksError :=
  .http 503 "LINK_CACHE_UNAVAILABLE" "Link resolution cache is unavailable." []

def shortCodeGenerationUnavailableException : LinksError :=
  .http 503 "SHORT_CODE_GENERATION_UNAVAILABLE"
    "Unable to generate a unique short code." []

inductive LinksStep where
  | generate
  | repository (c : LinksCommand)
  | get (shortCode : String)
  | set (shortCode : String) (resolved : ResolvedLink)
  | invalidate (shortCode : String)
  deriving DecidableEq

def LinksStep.Reply : LinksStep → Type
  | .generate => String
  | .repository c => Except StorageError c.Res
  | .get _ => Except StorageError (Option ResolvedLink)
  | .set _ _ => Except StorageError Unit
  | .invalidate _ => Except StorageError Unit

inductive LinksCall where
  | create (userId destinationUrlRaw : String)
  | deactivate (userId linkId : String)
  | reactivate (userId linkId : String)
  | resolve (shortCode : String)
  deriving DecidableEq

inductive LinksValue where
  | createLink (link : LinkResponse) (created : Bool)
  | link (link : LinkResponse)
  | resolved (resolved : ResolvedLink)
  deriving DecidableEq

abbrev LinksResult : Type := Except LinksError LinksValue

abbrev LinksProgram : Type :=
  Program LinksStep LinksStep.Reply LinksResult

namespace LinksService

variable (config : LinksConfig)

def toResponse (link : LinkRecord) : LinkResponse where
  id := link.id
  shortCode := link.shortCode
  destinationUrl := link.destinationUrl
  shortUrl := config.publicShortUrlBase ++ "/" ++ link.shortCode
  status := link.status
  createdAt := link.createdAt
  updatedAt := link.updatedAt

/-- The loop of `create`, with the attempts that are left. -/
def createLoop (userId destinationUrl : String) : ℕ → LinksProgram
  | 0 => .pure (.error shortCodeGenerationUnavailableException)
  | attempts + 1 =>
      .call .generate fun shortCode =>
        .call (.repository (.createOrRestore userId destinationUrl shortCode))
          fun result => match result with
            | .error e => .pure (.error (.storage e))
            | .ok (.created link) =>
                .pure (.ok (.createLink (toResponse config link) true))
            | .ok (.existing link) | .ok (.reactivated link) =>
                .pure (.ok (.createLink (toResponse config link) false))
            | .ok .limitReached => .pure (.error linkLimitReachedException)
            | .ok .shortCodeCollision =>
                createLoop userId destinationUrl attempts

def create (userId destinationUrlRaw : String) : LinksProgram :=
  match createDestinationUrl config.newUrl destinationUrlRaw with
  | none => .pure (.error validationException)
  | some destinationUrl =>
      createLoop config userId destinationUrl config.maxCodeAttempts

/-- `changeStatus` after the repository has answered. -/
def statusResult : Except StorageError ChangeLinkStatusResult → LinksResult
  | .error e => .error (.storage e)
  | .ok (.changed link) | .ok (.unchanged link) =>
      .ok (.link (toResponse config link))
  | .ok .notFound => .error linkNotFoundException
  | .ok .forbidden => .error forbiddenException
  | .ok .limitReached => .error linkLimitReachedException

/-- `changeStatus` after the cache entry has been invalidated. -/
def invalidated (userId linkId : String) (status : LinkStatus) :
    LinksProgram :=
  .call (.repository (.changeStatus userId linkId status))
    fun result => .pure (statusResult config result)

/-- `changeStatus` after the ownership check. -/
def owned (userId linkId : String) (status : LinkStatus)
    (existing : LinkRecord) : LinksProgram :=
  .call (.invalidate existing.shortCode) fun reply => match reply with
    | .error _ => .pure (.error linkCacheUnavailableException)
    | .ok () => invalidated config userId linkId status

def changeStatus (userId linkId : String) (status : LinkStatus) :
    LinksProgram :=
  .call (.repository (.findById linkId)) fun reply => match reply with
    | .error e => .pure (.error (.storage e))
    | .ok none => .pure (.error linkNotFoundException)
    | .ok (some existing) =>
        if existing.userId ≠ userId then .pure (.error forbiddenException)
        else owned config userId linkId status existing

/-- `resolve` after the authoritative read. -/
def found (shortCode : String) (link : LinkRecord) : LinksProgram :=
  .call (.set shortCode ⟨link.id, link.destinationUrl⟩)
    fun _ => .pure (.ok (.resolved ⟨link.id, link.destinationUrl⟩))

/-- `resolve` after a cache miss or a failed cache read. -/
def missed (shortCode : String) : LinksProgram :=
  .call (.repository (.findActiveByShortCode shortCode))
    fun reply => match reply with
      | .error e => .pure (.error (.storage e))
      | .ok none => .pure (.error linkNotFoundException)
      | .ok (some link) => found shortCode link

def resolve (shortCode : String) : LinksProgram :=
  .call (.get shortCode) fun reply => match reply with
    | .ok (some cached) => .pure (.ok (.resolved cached))
    | .ok none => missed shortCode
    | .error _ => missed shortCode

def body : LinksCall → LinksProgram
  | .create userId destinationUrlRaw => create config userId destinationUrlRaw
  | .deactivate userId linkId => changeStatus config userId linkId .deactivated
  | .reactivate userId linkId => changeStatus config userId linkId .active
  | .resolve shortCode => resolve shortCode

end LinksService

/-! ### Redis and PostgreSQL -/

def KEY_PREFIX : String := "shortlink:links:resolution:v2:"

/-- `RedisLinkResolutionCache.key`. -/
def resolutionKey (shortCode : String) : String := KEY_PREFIX ++ shortCode

theorem resolutionKey_injective {c c' : String}
    (h : resolutionKey c = resolutionKey c') : c = c' :=
  (String.append_right_inj KEY_PREFIX).1 h

/-- The tables and the cache. -/
structure LinksState where
  db : LinksDb
  cache : Store String fun _ => ResolvedLink

/-- The state of a fresh installation. -/
def LinksState.init (users : List String) : LinksState :=
  ⟨⟨users, []⟩, Store.empty 0⟩

/-- What a step takes from outside. -/
structure LinksOutside where
  stamp : Stamp
  generated : String
  fault : Fault

/-- What happens without a call: time passes, Redis evicts an entry. -/
inductive LinksEnvironment where
  | tick (milliseconds : ℕ)
  | evict (key : String)

namespace LinksService

/-- A method of the repository: its transaction, executed alone. -/
def execTransaction (c : LinksCommand) (stamp : Stamp) (s : LinksState) :
    Except StorageError c.Res × LinksState :=
  match (c.impl stamp).run s.db with
  | .ok (a, db) => (.ok a, { s with db })
  | .error e => (.error e, s)

variable (config : LinksConfig)

def exec : (c : LinksStep) → LinksOutside → LinksState →
    Option (c.Reply × LinksState)
  | .generate, o, s => some (o.generated, s)
  | .repository c, o, s =>
      let (reply, s') := o.fault.apply s (execTransaction c o.stamp s)
      some (c.recover reply, s')
  | .get shortCode, o, s =>
      some (o.fault.apply s (.ok (s.cache.get (resolutionKey shortCode)), s))
  | .set shortCode resolved, o, s =>
      some (o.fault.apply s (.ok (), { s with
        cache := s.cache.set (resolutionKey shortCode) resolved
          (config.linkResolutionCacheTtlSeconds * 1000) }))
  | .invalidate shortCode, o, s =>
      some (o.fault.apply s (.ok (), { s with
        cache := s.cache.del (resolutionKey shortCode) }))

def environment : LinksEnvironment → LinksState → LinksState
  | .tick n, s => { s with cache := s.cache.tick n }
  | .evict key, s => { s with cache := s.cache.del key }

end LinksService

/-- Calls of the service, executed concurrently. -/
def linksService (config : LinksConfig) :
    Semantics LinksStep LinksStep.Reply LinksCall LinksResult LinksState
      LinksOutside LinksEnvironment where
  body := LinksService.body config
  exec := LinksService.exec config
  environment := LinksService.environment

end Links

end Shortlink
