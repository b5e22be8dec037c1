import Shortlink.Auth.SessionService
import Shortlink.Text.WhiteSpace
import Mathlib.Algebra.Order.Ring.Nat

/-!
# Login, refresh and the mail worker

`auth.service.ts` as far as it starts a login, completes it and refreshes a
session, with the value objects and the methods of `redis-auth-state.service.ts`
that it uses, and the login branch of `email.processor.ts`.
-/

namespace Shortlink

namespace Auth

open Shortlink.Interaction Shortlink.Text AuthProgram

/-! ### Value objects -/

/-- `EMAIL_PATTERN`: one `@`, no white space, and behind the `@` a dot that is
neither first nor last. -/
def matchesEmailPattern (canonical : List Char) : Bool :=
  let plain := fun c => c ≠ '@' && !isWhiteSpace c
  match canonical.span (· ≠ '@') with
  | (name, '@' :: domain) =>
      name ≠ [] && name.all plain && domain.all plain &&
        ((domain.drop 1).dropLast).any (· = '.')
  | _ => false

/-- `Email.create`. -/
def createEmail (toLowerCase : String → String) (raw : String) :
    Option String :=
  let canonical := toLowerCase (String.ofList (trim raw.toList))
  if matchesEmailPattern canonical.toList then some canonical else none

def MIN_LENGTH : ℕ := 8

/-- The length of a string in UTF-16 code units. -/
def utf16Length (raw : List Char) : ℕ :=
  (raw.map fun c => if c.val < 0x10000 then 1 else 2).sum

/-- `Password.meetsPolicy`. -/
def meetsPolicy (raw : List Char) : Bool :=
  utf16Length raw ≥ MIN_LENGTH && raw.any (fun c => 'A' ≤ c && c ≤ 'Z') &&
    raw.any (fun c => 'a' ≤ c && c ≤ 'z') &&
    raw.any (fun c => '0' ≤ c && c ≤ '9') &&
    raw.any fun c => !('A' ≤ c && c ≤ 'Z' || 'a' ≤ c && c ≤ 'z' ||
      '0' ≤ c && c ≤ '9')

/-- `BCRYPT_HASH_PATTERN`. -/
def matchesBcryptHashPattern (hash : List Char) : Bool :=
  match hash with
  | '$' :: '2' :: v :: '$' :: d₁ :: d₂ :: '$' :: rest =>
      (v = 'a' || v = 'b' || v = 'y') && ('0' ≤ d₁ && d₁ ≤ '9') &&
        ('0' ≤ d₂ && d₂ ≤ '9') && rest.length = 53 &&
        rest.all fun c => c = '.' || c = '/' || 'A' ≤ c && c ≤ 'Z' ||
          'a' ≤ c && c ≤ 'z' || '0' ≤ c && c ≤ '9'
  | _ => false

/-! ### Challenges, issuances and counters -/

namespace RedisAuthStateService

def setIssuance (purpose : AuthIssuancePurpose) (subjectId issuanceId : String) :
    AuthProgram Unit :=
  redis (.set (.issuance purpose subjectId) issuanceId TTL_ONE_HOUR_SECONDS)

def isCurrentIssuance (purpose : AuthIssuancePurpose)
    (subjectId issuanceId : String) : AuthProgram Bool := do
  let current : Option String ← redis (.get (.issuance purpose subjectId))
  return current == some issuanceId

variable (config : AuthConfig)

def createLoginChallenge (userId challengeId code : String) (expiresAt : ℕ) :
    AuthProgram Unit :=
  redis (.createLoginChallenge userId challengeId
    { userId, codeHmac := config.hmac code
      expiresAtMs := expiresAt, used := false })

def findLoginChallengeUserId (challengeId : String) :
    AuthProgram (Option String) := do
  let raw : Option LoginChallengePayload ←
    redis (.get (.loginChallenge challengeId))
  match raw with
  | none => return none
  | some payload =>
      if payload.userId = "" ∨ payload.used then return none
      else if payload.expiresAtMs = 0 then return some payload.userId
      else
        let now ← now
        return if now > payload.expiresAtMs then none else some payload.userId

def consumeLoginChallenge (challengeId code : String) :
    AuthProgram ConsumeLoginChallengeResult := do
  let nowMs ← now
  let result : ConsumeLoginChallengeResult ←
    redis (.consumeLoginChallenge challengeId (config.hmac code) nowMs)
  return if result = .consumed "" then .missing else result

def incrementRateLimit (operation : String) (dimension : RateLimitDimension)
    (hash : String) (ttlSeconds : ℕ) : AuthProgram ℕ :=
  redis (.incrementRateLimit operation dimension hash ttlSeconds)

def incrementFailedLogin (userId : String) : AuthProgram FailedLoginResult :=
  redis (.incrementFailedLogin userId)

def isLoginLocked (userId : String) : AuthProgram Bool :=
  redis (.existsKey (.loginLock userId))

end RedisAuthStateService

/-! ### The service -/

def LOGIN_RATE_LIMIT_TTL_SECONDS : ℕ := 15 * 60

def LOGIN_RATE_LIMIT : ℕ := 10

def LOGIN_CHALLENGE_TTL_MS : ℕ := 60 * 60 * 1000

def LOGIN_LOCK_RETRY_AFTER_SECONDS : ℕ := 3600

def LOGIN_RATE_OPERATION : String := "login"

structure LoginDto where
  email : String
  password : String
  deriving DecidableEq

structure VerifyLoginDto where
  challengeId : String
  code : String
  deriving DecidableEq

structure LoginChallenge where
  challengeId : String
  expiresAt : ℕ
  deriving DecidableEq

/-- The tokens that `completeLogin` returns. -/
structure CompletedLogin where
  accessToken : String
  expiresIn : ℕ
  csrfToken : String
  refreshToken : String
  deriving DecidableEq

/-- The tokens that `refresh` returns. -/
structure RefreshedSession where
  accessToken : String
  expiresIn : ℕ
  refreshToken : String
  deriving DecidableEq

def validationException : AuthError :=
  .http 422 "VALIDATION_ERROR" "Validation failed." none
    [("email", ["email must be a valid email address"])]

def securityStorageUnavailableException : AuthError :=
  .http 503 "AUTH_SECURITY_STORAGE_UNAVAILABLE"
    "Authentication security storage is unavailable." none []

def rateLimitedException : AuthError :=
  .http 429 "RATE_LIMITED" "Too many requests." none []

def invalidCredentialsException : AuthError :=
  .http 401 "INVALID_CREDENTIALS" "Invalid credentials." none []

def emailNotVerifiedException : AuthError :=
  .http 403 "EMAIL_NOT_VERIFIED" "Email address has not been verified." none []

def accountTemporarilyLockedException : AuthError :=
  .http 429 "ACCOUNT_TEMPORARILY_LOCKED" "Account is temporarily locked."
    (some LOGIN_LOCK_RETRY_AFTER_SECONDS) []

def sessionInvalidException : AuthError :=
  .http 401 "SESSION_INVALID" "Session is invalid." none []

namespace AuthService

open RedisAuthStateService

variable (config : AuthConfig)

def withSecurityStorage {α : Type} (operation : AuthProgram α) :
    AuthProgram α :=
  tryCatch operation fun e => match e with
    | .storageUnavailable => throw securityStorageUnavailableException
    | e => throw e

def parseEmail (raw : String) : AuthProgram String :=
  match createEmail config.toLowerCase raw with
  | none => throw validationException
  | some email => return email

def assertLoginRateLimit (email clientIp : String) : AuthProgram Unit :=
  withSecurityStorage do
    let client := if clientIp = "" then "unknown" else clientIp
    let count ← incrementRateLimit LOGIN_RATE_OPERATION .email
      (config.hashRateLimitValue (client ++ "|" ++ email))
      LOGIN_RATE_LIMIT_TTL_SECONDS
    if count > LOGIN_RATE_LIMIT then throw rateLimitedException
    else return ()

def passwordMatchesAccount (rawPassword passwordHash : String) : Bool :=
  meetsPolicy rawPassword.toList &&
    matchesBcryptHashPattern passwordHash.toList &&
    config.compare rawPassword passwordHash

def recordFailedLogin (userId : String) : AuthProgram FailedLoginResult := do
  let failure ← incrementFailedLogin userId
  audit
    { type := if failure.locked then .loginLocked else .loginFailure
      userId, sessionId := none, failures := some failure.failures }
  return failure

/-- The answer to a wrong password or code of an account. -/
def rejectLogin {α : Type} (userId : String) : AuthProgram α := do
  let failure ← recordFailedLogin userId
  if failure.locked then throw accountTemporarilyLockedException
  else throw invalidCredentialsException

/-- `startLogin` after the account has been found not to be locked. -/
def issueLoginChallenge (userId : String) : AuthProgram LoginChallenge := do
  let challengeId ← generate .challengeId
  let issuanceId ← generate .challengeId
  let now ← now
  let expiresAt := now + LOGIN_CHALLENGE_TTL_MS
  let placeholderCode ← generate .verificationCode
  createLoginChallenge config userId challengeId placeholderCode expiresAt
  setIssuance .login challengeId issuanceId
  enqueue { purpose := .login, issuanceId
            userId := none, challengeId := some challengeId }
  return { challengeId, expiresAt }

def startLogin (input : LoginDto) (clientIp : String) :
    AuthProgram LoginChallenge := do
  let email ← parseEmail config input.email
  assertLoginRateLimit config email clientIp
  withSecurityStorage do
    let account ← authRepository (.findAccountByEmail email)
    match account with
    | none => throw invalidCredentialsException
    | some account =>
        if ¬ passwordMatchesAccount config input.password
            account.passwordHash then
          rejectLogin account.id
        else if account.status = .pending then
          throw emailNotVerifiedException
        else
          let locked ← isLoginLocked account.id
          if locked then throw accountTemporarilyLockedException
          else issueLoginChallenge config account.id

/-- `completeLogin` after the challenge of `userId` has been consumed. -/
def loginConsumed (userId : String) : AuthProgram CompletedLogin := do
  let locked ← isLoginLocked userId
  if locked then throw accountTemporarilyLockedException
  else
    let account ← authRepository (.findAccountById userId)
    match account with
    | none => throw invalidCredentialsException
    | some account =>
        if account.status ≠ .active then throw invalidCredentialsException
        else
          let tokens ← AuthSessionService.createSessionAfterLogin config
            account.id account.role.value
          audit { type := .sessionCreated, userId := account.id
                  sessionId := some tokens.sessionId, failures := none }
          return ⟨tokens.accessToken, tokens.expiresIn, tokens.csrfToken,
            tokens.refreshToken⟩

/-- `completeLogin` after the account of the challenge has been found not to be
locked. -/
def verifyChallenge (input : VerifyLoginDto) (challengeUserId : Option String) :
    AuthProgram CompletedLogin := do
  let consumed ← consumeLoginChallenge config input.challengeId input.code
  match consumed with
  | .consumed userId => loginConsumed config userId
  | .invalid | .missing =>
      match challengeUserId with
      | some userId => rejectLogin userId
      | none => throw invalidCredentialsException

def completeLogin (input : VerifyLoginDto) : AuthProgram CompletedLogin :=
  withSecurityStorage do
    let challengeUserId ← findLoginChallengeUserId input.challengeId
    match challengeUserId with
    | none => verifyChallenge config input none
    | some userId =>
        let locked ← isLoginLocked userId
        if locked then throw accountTemporarilyLockedException
        else verifyChallenge config input (some userId)

def refresh (refreshToken : String) : AuthProgram RefreshedSession :=
  withSecurityStorage <| tryCatch
    (do
      let tokens ← AuthSessionService.refresh config refreshToken
      return ⟨tokens.accessToken, tokens.expiresIn, tokens.refreshToken⟩)
    fun e => match e with
      | .refreshTokenReuse | .invalidRefreshToken =>
          throw sessionInvalidException
      | e => throw e

end AuthService

namespace EmailProcessor

open RedisAuthStateService

def ONE_HOUR_MS : ℕ := 60 * 60 * 1000

variable (config : AuthConfig)

def loginMail (email code : String) : Mail where
  recipient := email
  subject := "Your Shortlink login code"
  text := "Your login code is " ++ code ++ ". It expires in one hour."
  html := "<p>Your login code is <strong>" ++ code ++
    "</strong>. It expires in one hour.</p>"

/-- `processLogin` after the account of the challenge has been found. -/
def issueLoginCode (challengeId issuanceId userId : String)
    (account : AccountRecord) : AuthProgram Unit := do
  let code ← generate .verificationCode
  let now ← now
  createLoginChallenge config userId challengeId code (now + ONE_HOUR_MS)
  let stillCurrent ← isCurrentIssuance .login challengeId issuanceId
  if stillCurrent then sendMail (loginMail account.email code)
  else return ()

/-- `processLogin` of a job that names a challenge. -/
def processChallenge (challengeId issuanceId : String) : AuthProgram Unit := do
  let current ← isCurrentIssuance .login challengeId issuanceId
  if ¬ current then return ()
  else
    let userId ← findLoginChallengeUserId challengeId
    match userId with
    | none => return ()
    | some userId =>
        let account ← authRepository (.findAccountById userId)
        match account with
        | none => return ()
        | some account =>
            issueLoginCode config challengeId issuanceId userId account

def processLogin (data : SendVerificationCodeJobData) : AuthProgram Unit :=
  match data.challengeId with
  | none => return ()
  | some challengeId =>
      if challengeId = "" then return ()
      else processChallenge config challengeId data.issuanceId

end EmailProcessor

/-! ### Calls -/

inductive AuthCall where
  | createSessionAfterLogin (userId role : String)
  | sessionRefresh (refreshToken : String)
  | logout (refreshToken : String)
  | revokeAll (userId : String) (reason : SessionRevocationReason)
  | validateSession (sessionId : String)
  | refresh (refreshToken : String)
  | startLogin (input : LoginDto) (clientIp : String)
  | completeLogin (input : VerifyLoginDto)
  | processLogin (data : SendVerificationCodeJobData)
  deriving DecidableEq

inductive AuthValue where
  | tokens (tokens : IssuedSessionTokens)
  | principal (principal : Option AuthPrincipal)
  | refreshed (session : RefreshedSession)
  | challenge (challenge : LoginChallenge)
  | completed (login : CompletedLogin)
  | done
  deriving DecidableEq

abbrev AuthResult : Type := Except AuthError AuthValue

def AuthCall.program (config : AuthConfig) : AuthCall → AuthProgram AuthValue
  | .createSessionAfterLogin userId role =>
      .tokens <$> AuthSessionService.createSessionAfterLogin config userId role
  | .sessionRefresh refreshToken =>
      .tokens <$> AuthSessionService.refresh config refreshToken
  | .logout refreshToken =>
      (fun _ => .done) <$> AuthSessionService.logout config refreshToken
  | .revokeAll userId reason =>
      (fun _ => .done) <$> AuthSessionService.revokeAll userId reason
  | .validateSession sessionId =>
      .principal <$> AuthSessionService.validateSession sessionId
  | .refresh refreshToken => .refreshed <$> AuthService.refresh config refreshToken
  | .startLogin input clientIp =>
      .challenge <$> AuthService.startLogin config input clientIp
  | .completeLogin input => .completed <$> AuthService.completeLogin config input
  | .processLogin data =>
      (fun _ => .done) <$> EmailProcessor.processLogin config data

/-- Calls of the services and attempts of the worker, executed concurrently. -/
def authService (config : AuthConfig) :
    Semantics AuthStep AuthStep.Reply AuthCall AuthResult AuthState AuthOutside
      AuthEnvironment where
  body call := (call.program config).run
  exec := exec
  environment := environment

abbrev AuthPool : Type :=
  Pool AuthStep AuthStep.Reply AuthCall AuthResult AuthState

abbrev AuthEvent : Type := Event AuthCall AuthOutside AuthEnvironment

abbrev AuthEntry : Type := Entry AuthStep AuthStep.Reply

end Auth

end Shortlink
