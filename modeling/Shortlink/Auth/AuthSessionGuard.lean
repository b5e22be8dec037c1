import Shortlink.Auth.Challenges
import Shortlink.Text.WhiteSpace

/-!
# The session guard

`auth-session.guard.ts` with `verifyAccessToken` of `node-auth-crypto.service.ts`. The guard
runs before the handlers that act for a user and hands them the principal that it returns.
`verify` of the JWT library is a parameter. A rejected request, for which the guard throws
an `UnauthorizedException`, is the value `none`.
-/

namespace Shortlink

namespace Auth

open Shortlink.Interaction Shortlink.Text AuthProgram

/-- The value of a claim, as far as `typeof` tells it apart. -/
inductive JwtClaim where
  | string (value : String)
  | number (value : ℤ)
  | other
  deriving DecidableEq

/-- What `verify` returns: an object, or a payload that is none. -/
inductive JwtPayload where
  | object (claims : List (String × JwtClaim))
  | other
  deriving DecidableEq

structure AccessTokenPayload where
  sub : String
  role : String
  sessionId : String
  iat : ℤ
  exp : ℤ
  deriving DecidableEq

/-- `verify(token, jwtAccessSecret)` at a time; `none` when it throws. -/
structure JwtConfig where
  verify : String → ℕ → Option JwtPayload

/-- The checks of `verifyAccessToken` on the claims. -/
def readClaims : JwtPayload → Option AccessTokenPayload
  | .other => none
  | .object claims =>
      match claims.lookup "sub", claims.lookup "role", claims.lookup "sessionId",
        claims.lookup "iat", claims.lookup "exp" with
      | some (.string sub), some (.string role), some (.string sessionId),
        some (.number iat), some (.number exp) => some ⟨sub, role, sessionId, iat, exp⟩
      | _, _, _, _, _ => none

def verifyAccessToken (jwt : JwtConfig) (token : String) (now : ℕ) :
    Option AccessTokenPayload :=
  (jwt.verify token now).bind readClaims

namespace AuthSessionGuard

def bearerToken (authorization : Option String) : Option String :=
  match authorization with
  | none => none
  | some raw =>
      if "Bearer ".toList.isPrefixOf raw.toList then
        let token := trim (raw.toList.drop "Bearer ".toList.length)
        if token = [] then none else some (String.ofList token)
      else none

/-- `canActivate` with the claims of the token. -/
def matchPrincipal (payload : AccessTokenPayload) : AuthProgram (Option AuthPrincipal) := do
  let principal ← AuthSessionService.validateSession payload.sessionId
  match principal with
  | none => return none
  | some principal =>
      if principal.userId ≠ payload.sub ∨ principal.role ≠ payload.role then return none
      else return some principal

def canActivate (jwt : JwtConfig) (authorization : Option String) :
    AuthProgram (Option AuthPrincipal) :=
  match bearerToken authorization with
  | none => return none
  | some token => do
      let now ← now
      match verifyAccessToken jwt token now with
      | none => return none
      | some payload => matchPrincipal payload

end AuthSessionGuard

/-! ### Requests -/

/-- A request in front of a handler that acts for a user, and the calls of the services. -/
inductive UserCall where
  | canActivate (authorization : Option String)
  | service (call : AuthCall)
  deriving DecidableEq

inductive UserValue where
  | principal (principal : Option AuthPrincipal)
  | service (value : AuthValue)
  deriving DecidableEq

abbrev UserResult : Type := Except AuthError UserValue

/-- Whether the controllers or the mail queue make the call; `createSessionAfterLogin` is
called by `completeLogin` alone, after its checks. -/
def UserCall.checked : UserCall → Bool
  | .service (.createSessionAfterLogin _ _) => false
  | _ => true

def UserCall.program (config : AuthConfig) (jwt : JwtConfig) : UserCall → AuthProgram UserValue
  | .canActivate authorization => .principal <$> AuthSessionGuard.canActivate jwt authorization
  | .service call => .service <$> call.program config

def userService (config : AuthConfig) (jwt : JwtConfig) :
    Semantics AuthStep AuthStep.Reply UserCall UserResult AuthState AuthOutside
      AuthEnvironment :=
  concurrently fun call => (call.program config jwt).run

abbrev UserPool : Type :=
  Pool AuthStep AuthStep.Reply UserCall UserResult AuthState

abbrev UserEvent : Type := Event UserCall AuthOutside AuthEnvironment

/-! ### What the guard has seen -/

/-- The answer of `validateSession`: a cached entry of the session, or its row and its
account. -/
inductive Validated (sessionId : String) (principal : AuthPrincipal) (trace : AuthTrace) :
    Prop
  | cached (record : SessionCacheRecord)
      (hget : Replied trace (.get (.session sessionId)) (some record))
      (hprincipal : principal = ⟨record.userId, record.role, record.sessionId⟩)
  | stored (session : AuthSessionRecord) (account : AccountRecord)
      (hsession : Found trace (.findActiveSessionById sessionId) (some session))
      (haccount : Found trace (.findAccountById session.userId) (some account))
      (hprincipal : principal = ⟨account.id, account.role.value, session.id⟩)

/-- The guard has admitted the request: its token was verified at a time that the call has
read, and the claims are those of the session that was found. -/
structure AdmittedAs (jwt : JwtConfig) (authorization : Option String)
    (principal : AuthPrincipal) (payload : AccessTokenPayload) (trace : AuthTrace) : Prop where
  verified : ∃ token now, AuthSessionGuard.bearerToken authorization = some token ∧
    (⟨.now, now⟩ : Exchange AuthStep AuthStep.Reply) ∈ trace ∧
      verifyAccessToken jwt token now = some payload
  userId : principal.userId = payload.sub
  role : principal.role = payload.role
  validated : Validated payload.sessionId principal trace

end Auth

end Shortlink
