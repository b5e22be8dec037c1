import Shortlink.Auth.Run

/-!
# The CSRF guard

`csrf-origin.guard.ts`. The guard runs before the handlers of `refresh` and `logout`,
and other requests may be served in between, so a request is a call of the guard and
a call of the service. The URL parser and the decoding of cookies are parameters.
-/

namespace Shortlink

namespace Auth

open Shortlink.Interaction Shortlink.Text AuthProgram

/-- `request.headers['x-csrf-token']`, when it is there. -/
inductive CsrfHeader where
  | single (value : String)
  | several (values : List String)
  deriving DecidableEq

structure CsrfOriginRequest where
  origin : Option String
  referer : Option String
  csrfHeader : Option CsrfHeader
  /-- The raw `Cookie` header. -/
  cookie : Option String
  /-- What the cookie parser has read. -/
  cookies : Option (List (String × String))
  deriving DecidableEq

/-- The environment of the guard and the library functions that it uses: `new URL(raw).origin`
and `decodeURIComponent`, which throw on some inputs. -/
structure GuardConfig where
  corsAllowedOrigins : List String
  refreshCookieEnv : Option String
  urlOrigin : String → Option String
  decodeURIComponent : String → Option String

def csrfFailed : AuthError :=
  .http 403 "CSRF_VALIDATION_FAILED" "CSRF validation failed." none []

/-- The `URIError` of `decodeURIComponent`. -/
def uriMalformed : AuthError := .storage (.error "URI malformed")

def trimmed (raw : String) : String := String.ofList (trim raw.toList)

/-- A value with more than white space. -/
def nonBlank (value : Option String) : Option String :=
  value.filter fun raw => trimmed raw ≠ ""

namespace CsrfOriginGuard

variable (config : AuthConfig) (guard : GuardConfig)

def refreshCookieName : String :=
  match nonBlank guard.refreshCookieEnv with
  | some name => trimmed name
  | none => "shortlink_refresh"

/-- The loop over the parts of the `Cookie` header. -/
def readCookieParts (start : List Char) :
    List (List Char) → Except AuthError (Option String)
  | [] => .ok none
  | part :: parts =>
      if start.isPrefixOf (trim part) then
        let value := (trim part).drop start.length
        if value = [] then .ok none
        else
          match guard.decodeURIComponent (String.ofList value) with
          | some decoded => .ok (some decoded)
          | none => .error uriMalformed
      else readCookieParts start parts

def readRefreshCookie (request : CsrfOriginRequest) : Except AuthError (Option String) :=
  match (request.cookies.bind (·.lookup (refreshCookieName guard))).filter (· ≠ "") with
  | some value => .ok (some value)
  | none =>
      match request.cookie with
      | none => .ok none
      | some rawCookie => readCookieParts guard ((refreshCookieName guard).toList ++ ['='])
          (rawCookie.toList.splitOn ';')

def resolveOrigin (origin referer : Option String) : Option String :=
  match nonBlank origin with
  | some origin => some (trimmed origin)
  | none => (nonBlank referer).bind guard.urlOrigin

def csrfToken (request : CsrfOriginRequest) : Option String :=
  match request.csrfHeader with
  | some (.several values) => values.head?
  | some (.single value) => some value
  | none => none

def resolveSession (refreshToken : String) : AuthProgram (Option AuthSessionRecord) := do
  let tokenHash := config.hashToken refreshToken
  let byCurrentHash ← authRepository (.findSessionByRefreshTokenHash tokenHash)
  match byCurrentHash with
  | some session => return some session
  | none =>
      let history ← authRepository (.findRefreshTokenHistoryByHash tokenHash)
      match history with
      | none => return none
      | some history => authRepository (.findActiveSessionById history.sessionId)

/-- `canActivate` after the origin has been found to be allowed. -/
def matchSession (csrfToken : String) (request : CsrfOriginRequest) : AuthProgram Bool := do
  match readRefreshCookie guard request with
  | .error e => throw e
  | .ok cookie =>
      match cookie.filter (· ≠ "") with
      | none => throw csrfFailed
      | some refreshToken =>
          let session ← resolveSession config refreshToken
          match session with
          | none => throw csrfFailed
          | some session =>
              if config.hashToken csrfToken ≠ session.csrfTokenHash then throw csrfFailed
              else return true

def canActivate (request : CsrfOriginRequest) : AuthProgram Bool :=
  match nonBlank (csrfToken request) with
  | none => throw csrfFailed
  | some csrfToken =>
      match (resolveOrigin guard request.origin request.referer).filter (· ≠ "") with
      | none => throw csrfFailed
      | some origin =>
          if origin ∉ guard.corsAllowedOrigins then throw csrfFailed
          else matchSession config guard csrfToken request

end CsrfOriginGuard

/-! ### Requests -/

/-- A request in front of its handler, and the calls of the services. -/
inductive HttpCall where
  | canActivate (request : CsrfOriginRequest)
  | service (call : AuthCall)
  deriving DecidableEq

inductive HttpValue where
  | admitted (admitted : Bool)
  | service (value : AuthValue)
  deriving DecidableEq

abbrev HttpResult : Type := Except AuthError HttpValue

def HttpCall.program (config : AuthConfig) (guard : GuardConfig) :
    HttpCall → AuthProgram HttpValue
  | .canActivate request => .admitted <$> CsrfOriginGuard.canActivate config guard request
  | .service call => .service <$> call.program config

def httpService (config : AuthConfig) (guard : GuardConfig) :
    Semantics AuthStep AuthStep.Reply HttpCall HttpResult AuthState AuthOutside
      AuthEnvironment :=
  concurrently fun call => (call.program config guard).run

abbrev HttpPool : Type :=
  Pool AuthStep AuthStep.Reply HttpCall HttpResult AuthState

abbrev HttpEvent : Type := Event HttpCall AuthOutside AuthEnvironment

/-! ### What the guard has seen -/

/-- The session that the guard has resolved, by its current token or through the history
of its tokens. -/
inductive Resolved (tokenHash : String) (session : AuthSessionRecord) (trace : AuthTrace) :
    Prop
  | current (h : (⟨.repository (.findSessionByRefreshTokenHash tokenHash),
      .ok (some session)⟩ : Exchange AuthStep AuthStep.Reply) ∈ trace)
  | rotated (history : SessionRefreshTokenRecord)
      (hhistory : (⟨.repository (.findRefreshTokenHistoryByHash tokenHash),
        .ok (some history)⟩ : Exchange AuthStep AuthStep.Reply) ∈ trace)
      (hsession : (⟨.repository (.findActiveSessionById history.sessionId),
        .ok (some session)⟩ : Exchange AuthStep AuthStep.Reply) ∈ trace)

/-- The guard has admitted the request with this refresh token and CSRF token: the
origin is allowed and the CSRF token is the one of `session`. -/
structure Admitted (config : AuthConfig) (guard : GuardConfig) (request : CsrfOriginRequest)
    (refreshToken csrfToken : String) (session : AuthSessionRecord) (trace : AuthTrace) :
    Prop where
  origin : ∃ origin, CsrfOriginGuard.resolveOrigin guard request.origin request.referer =
    some origin ∧ origin ∈ guard.corsAllowedOrigins
  cookie : CsrfOriginGuard.readRefreshCookie guard request = .ok (some refreshToken)
  header : CsrfOriginGuard.csrfToken request = some csrfToken
  resolved : Resolved (config.hashToken refreshToken) session trace
  binding : session.csrfTokenHash = config.hashToken csrfToken

/-- The guard only reads, and it ends with a value only when it has admitted the request. -/
def AuthStep.Looks : AuthStep → Prop
  | .repository c => (AuthStep.repository c).Reads
  | _ => False

open CsrfOriginGuard

section

variable {config : AuthConfig} {guard : GuardConfig}

theorem resolveSession_course (refreshToken : String) :
    (resolveSession config refreshToken).Obeys (fun _ => AuthStep.Looks)
      (either (fun trace found => ∀ session, found = some session →
        Resolved (config.hashToken refreshToken) session trace) fun _ _ => True) [] := by
  simp only [resolveSession, obeys_bind, obeys_authRepository, either_ok, either_error]
  refine ⟨trivial, fun e => trivial, fun (found : Option AuthSessionRecord) => ?_⟩
  rcases found with _ | session
  · simp only [obeys_bind, obeys_authRepository, either_ok, either_error]
    refine ⟨trivial, fun e => trivial, fun (history : Option SessionRefreshTokenRecord) => ?_⟩
    rcases history with _ | history
    · exact fun session h => by cases h
    · refine (obeys_authRepository _).2 ⟨trivial, fun e => trivial,
        fun (found : Option AuthSessionRecord) => ?_⟩
      rintro session rfl
      exact .rotated history (List.mem_cons_of_mem _ List.mem_cons_self) List.mem_cons_self
  · rintro _ ⟨⟩
    exact .current List.mem_cons_self

theorem canActivate_course (request : CsrfOriginRequest) :
    (canActivate config guard request).Obeys (fun _ => AuthStep.Looks)
      (either (fun trace _ => ∃ refreshToken csrfToken session,
        Admitted config guard request refreshToken csrfToken session trace)
        fun _ _ => True) [] := by
  rw [canActivate]
  cases hheader : nonBlank (csrfToken request) with
  | none => trivial
  | some token =>
  cases horigin : (resolveOrigin guard request.origin request.referer).filter (· ≠ "") with
  | none => trivial
  | some origin =>
  refine (obeys_ite _ _ _).2 ⟨fun _ => trivial, fun hallowed => ?_⟩
  rw [matchSession]
  cases hcookie : readRefreshCookie guard request with
  | error e => trivial
  | ok cookie =>
  dsimp only
  cases htoken : cookie.filter (· ≠ "") with
  | none => trivial
  | some refreshToken =>
  refine (obeys_bind _ _).2 ((resolveSession_course refreshToken).mono fun trace r hr => ?_)
  rcases r with e | _ | session
  · trivial
  · trivial
  · refine (obeys_ite _ _ _).2 ⟨fun _ => trivial, fun hmatches => ?_⟩
    refine ⟨refreshToken, token, session, ⟨origin, ?_, not_not.1 hallowed⟩, ?_, ?_,
      hr session rfl, (not_not.1 hmatches).symm⟩
    · exact (Option.filter_eq_some_iff.1 horigin).1
    · rw [hcookie, (Option.filter_eq_some_iff.1 htoken).1]
    · exact (Option.filter_eq_some_iff.1 hheader).1

end

end Auth

end Shortlink
