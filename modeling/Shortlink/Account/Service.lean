import Shortlink.Account.Repository
import Shortlink.Auth.Service
import Shortlink.Interaction.Throwing

/-!
# Registration, activation and password reset

The rest of `auth.service.ts`, and the activation and reset branches of
`email.processor.ts`. A step is one of the auth services or one on what only these
flows use: the reset tokens and the activation entries. Redis keeps all entries in
one store; the activation entries are kept apart here, on the same clock.
-/

namespace Shortlink

namespace Account

open Shortlink.Storage Shortlink.Transaction Shortlink.Interaction
open Shortlink.Expiring Shortlink.Auth

/-! ### Activation entries -/

structure ActivationPayload where
  codeHmac : String
  attempts : ℕ
  resendAvailableAt : ℕ
  deriving DecidableEq

inductive ConsumeActivationResult where
  | consumed
  | invalid (attempts : ℕ)
  | missing
  deriving DecidableEq

def TTL_RESEND_COOLDOWN_SECONDS : ℕ := 60

inductive ActivationKey where
  | activation (userId : String)
  | resend (purpose userId : String)
  deriving DecidableEq

def ActivationKey.Value : ActivationKey → Type
  | .activation _ => ActivationPayload
  | .resend _ _ => Unit

abbrev Activations : Type := Store ActivationKey ActivationKey.Value

def pendingActivation (entries : Activations) (userId : String) :
    Option ActivationPayload :=
  entries.get (.activation userId)

def CONSUME_ACTIVATION_LUA (userId codeHmac : String) (entries : Activations) :
    ConsumeActivationResult × Activations :=
  match pendingActivation entries userId with
  | none => (.missing, entries)
  | some payload =>
      if payload.codeHmac = codeHmac then (.consumed, entries.del (.activation userId))
      else
        (.invalid (payload.attempts + 1), entries.modify (.activation userId)
          fun payload : ActivationPayload =>
            { payload with attempts := payload.attempts + 1 })

inductive ActivationCommand where
  | set (key : ActivationKey) (value : key.Value) (ttlSeconds : ℕ)
  | existsKey (key : ActivationKey)
  | consumeActivation (userId codeHmac : String)

namespace ActivationCommand

def Res : ActivationCommand → Type
  | .set _ _ _ => Unit
  | .existsKey _ => Bool
  | .consumeActivation _ _ => ConsumeActivationResult

/-- The reply and the entries after a command. -/
def apply : (c : ActivationCommand) → Activations → c.Res × Activations
  | .set key value ttlSeconds, entries => ((), entries.set key value (ttlSeconds * 1000))
  | .existsKey key, entries => ((entries.get key).isSome, entries)
  | .consumeActivation userId codeHmac, entries =>
      CONSUME_ACTIVATION_LUA userId codeHmac entries

end ActivationCommand

/-! ### Steps -/

structure SendPasswordResetJobData where
  userId : String
  issuanceId : String
  deriving DecidableEq

/-- A step of the auth services, the hashing of a password, or a step on the
accounts, the reset tokens and the activation entries. -/
inductive AccountStep where
  | auth (c : AuthStep)
  | hash (password : String)
  | repository (c : AccountCommand)
  | redis (c : ActivationCommand)
  | enqueuePasswordReset (job : SendPasswordResetJobData)

def AccountStep.Reply : AccountStep → Type
  | .auth c => c.Reply
  | .hash _ => String
  | .repository c => Except StorageError c.Res
  | .redis c => Except StorageError c.Res
  | .enqueuePasswordReset _ => Except StorageError Unit

abbrev AccountProgram (α : Type) : Type :=
  Throwing AccountStep AccountStep.Reply AuthError α

/-- A program of the auth services. -/
def ofAuth {α : Type} (p : AuthProgram α) : AccountProgram α :=
  ExceptT.mk (p.run.embed AccountStep.auth fun _ r => r)

namespace AccountProgram

/-- `passwordHasher.hash`. -/
def hash (password : String) : AccountProgram String :=
  ExceptT.mk (.call (.hash password) fun value => .pure (.ok value))

def accountRepository (c : AccountCommand) : AccountProgram c.Res :=
  ExceptT.mk (.call (.repository c) fun reply =>
    .pure (Except.mapError .storage reply))

/-- A Redis command under `safe`. -/
def activations (c : ActivationCommand) : AccountProgram c.Res :=
  ExceptT.mk (.call (.redis c) fun reply =>
    .pure (Except.mapError (fun _ => .storageUnavailable) reply))

def enqueuePasswordReset (job : SendPasswordResetJobData) : AccountProgram Unit :=
  ExceptT.mk (.call (.enqueuePasswordReset job) fun reply =>
    .pure (Except.mapError .storage reply))

end AccountProgram

open AccountProgram

/-- What the flows take from the runtime, and the address of the reset page. -/
structure AccountConfig where
  auth : AuthConfig
  frontendResetUrl : String

namespace RedisAuthStateService

def setActivationCode (config : AccountConfig) (userId code : String)
    (resendAvailableAt : ℕ) : AccountProgram Unit :=
  activations (.set (.activation userId)
    ({ codeHmac := config.auth.hmac code, attempts := 0
       resendAvailableAt } : ActivationPayload) TTL_ONE_HOUR_SECONDS)

def consumeActivationCode (config : AccountConfig) (userId code : String) :
    AccountProgram ConsumeActivationResult :=
  activations (.consumeActivation userId (config.auth.hmac code))

def setResendCooldown (purpose userId : String) : AccountProgram Unit :=
  activations (.set (.resend purpose userId) () TTL_RESEND_COOLDOWN_SECONDS)

def isResendCooldownActive (purpose userId : String) : AccountProgram Bool :=
  activations (.existsKey (.resend purpose userId))

end RedisAuthStateService

/-! ### The service -/

def RATE_LIMIT_TTL_SECONDS : ℕ := 3600

def EMAIL_RATE_LIMIT : ℕ := 3

def IP_RATE_LIMIT : ℕ := 10

def ACTIVATION_RESEND_PURPOSE : String := "activation"

def REGISTER_RATE_OPERATION : String := "register"

def RESEND_RATE_OPERATION : String := "resend-email-verification"

def FORGOT_PASSWORD_RATE_OPERATION : String := "forgot-password"

structure RegisterDto where
  email : String
  password : String
  passwordConfirmation : String
  deriving DecidableEq

structure VerifyEmailDto where
  email : String
  code : String
  deriving DecidableEq

structure EmailDto where
  email : String
  deriving DecidableEq

structure ResetPasswordDto where
  token : String
  password : String
  passwordConfirmation : String
  deriving DecidableEq

/-- The rejection of a field of the input. -/
def validationException (field message : String) : AuthError :=
  .http 422 "VALIDATION_ERROR" "Validation failed." none [(field, [message])]

def invalidPasswordException : AuthError :=
  validationException "password" ("password must be at least 8 characters and include " ++
    "upper, lower, digit, and special characters")

def passwordConfirmationException : AuthError :=
  validationException "passwordConfirmation" "passwordConfirmation must match password"

def invalidVerificationException : AuthError :=
  .http 401 "INVALID_VERIFICATION" "Invalid or expired verification." none []

namespace AuthService

open RedisAuthStateService Auth.RedisAuthStateService

variable (config : AccountConfig)

def withSecurityStorage {α : Type} (operation : AccountProgram α) : AccountProgram α :=
  tryCatch operation fun e => match e with
    | .storageUnavailable => throw securityStorageUnavailableException
    | e => throw e

/-- `parsePassword` of a password that is used as it is. -/
def parsePassword (raw : String) : AccountProgram Unit :=
  if meetsPolicy raw.toList then return () else throw invalidPasswordException

def assertPasswordConfirmation (password passwordConfirmation : String) :
    AccountProgram Unit :=
  if password ≠ passwordConfirmation then throw passwordConfirmationException
  else return ()

def assertWithinRateLimits (operation email clientIp : String) : AccountProgram Unit :=
  withSecurityStorage do
    let emailCount ← ofAuth (incrementRateLimit operation .email
      (config.auth.hashRateLimitValue email) RATE_LIMIT_TTL_SECONDS)
    if emailCount > EMAIL_RATE_LIMIT then throw rateLimitedException
    else
      let client := if clientIp = "" then "unknown" else clientIp
      let ipCount ← ofAuth (incrementRateLimit operation .ip
        (config.auth.hashRateLimitValue client) RATE_LIMIT_TTL_SECONDS)
      if ipCount > IP_RATE_LIMIT then throw rateLimitedException
      else return ()

def enqueueActivation (userId : String) : AccountProgram Unit := do
  let issuanceId ← ofAuth (AuthProgram.generate .challengeId)
  ofAuth (setIssuance .activation userId issuanceId)
  setResendCooldown ACTIVATION_RESEND_PURPOSE userId
  ofAuth (AuthProgram.enqueue
    { purpose := .activation, issuanceId, userId := some userId, challengeId := none })

def enqueueActivationIfAllowed (userId : String) : AccountProgram Unit := do
  let coolingDown ← isResendCooldownActive ACTIVATION_RESEND_PURPOSE userId
  if coolingDown then return () else enqueueActivation userId

/-- `register` of an address that has no account. -/
def registerNew (email password : String) : AccountProgram Unit := do
  let passwordHash ← hash password
  let account ← accountRepository (.createPendingAccount { email, passwordHash })
  enqueueActivation account.id

def register (input : RegisterDto) (clientIp : String) : AccountProgram Unit := do
  let email ← ofAuth (Auth.AuthService.parseEmail config.auth input.email)
  parsePassword input.password
  assertPasswordConfirmation input.password input.passwordConfirmation
  assertWithinRateLimits config REGISTER_RATE_OPERATION email clientIp
  withSecurityStorage do
    let existing ← ofAuth (AuthProgram.authRepository (.findAccountByEmail email))
    match existing with
    | none => registerNew email input.password
    | some existing =>
        if existing.status = .active then return ()
        else enqueueActivationIfAllowed existing.id

def verifyEmail (input : VerifyEmailDto) : AccountProgram Unit := do
  let email ← ofAuth (Auth.AuthService.parseEmail config.auth input.email)
  withSecurityStorage do
    let account ← ofAuth (AuthProgram.authRepository (.findAccountByEmail email))
    match account with
    | none => throw invalidVerificationException
    | some account =>
        if account.status ≠ .pending then throw invalidVerificationException
        else
          let result ← consumeActivationCode config account.id input.code
          if result ≠ .consumed then throw invalidVerificationException
          else
            let _ ← accountRepository (.activateAccount account.id)
            return ()

def resendEmailVerification (input : EmailDto) (clientIp : String) :
    AccountProgram Unit := do
  let email ← ofAuth (Auth.AuthService.parseEmail config.auth input.email)
  assertWithinRateLimits config RESEND_RATE_OPERATION email clientIp
  withSecurityStorage do
    let existing ← ofAuth (AuthProgram.authRepository (.findAccountByEmail email))
    match existing with
    | none => return ()
    | some existing =>
        if existing.status ≠ .pending then return ()
        else enqueueActivationIfAllowed existing.id

/-- `requestPasswordReset` of an account that is active. -/
def enqueueReset (userId : String) : AccountProgram Unit := do
  let issuanceId ← ofAuth (AuthProgram.generate .challengeId)
  ofAuth (setIssuance .reset userId issuanceId)
  enqueuePasswordReset { userId, issuanceId }
  ofAuth (AuthProgram.audit
    { type := .passwordResetRequested, userId, sessionId := none, failures := none })

def requestPasswordReset (input : EmailDto) (clientIp : String) :
    AccountProgram Unit := do
  let email ← ofAuth (Auth.AuthService.parseEmail config.auth input.email)
  assertWithinRateLimits config FORGOT_PASSWORD_RATE_OPERATION email clientIp
  withSecurityStorage do
    let account ← ofAuth (AuthProgram.authRepository (.findAccountByEmail email))
    match account with
    | none => return ()
    | some account =>
        if account.status ≠ .active then return () else enqueueReset account.id

/-- `resetPassword` after the token of `userId` has been consumed. -/
def replacePassword (userId password : String) : AccountProgram Unit := do
  let passwordHash ← hash password
  let _ ← accountRepository (.updatePasswordHash userId passwordHash)
  ofAuth (AuthSessionService.revokeAll userId .passwordReset)
  ofAuth (AuthProgram.audit
    { type := .passwordResetCompleted, userId, sessionId := none, failures := none })

/-- `resetPassword` of a password that passes the checks. -/
def consumeReset (input : ResetPasswordDto) : AccountProgram Unit := do
  let tokenHash := config.auth.hashToken input.token
  let consumed ← accountRepository (.consumePasswordResetToken tokenHash)
  match consumed with
  | none => throw invalidVerificationException
  | some consumed => replacePassword consumed.userId input.password

def resetPassword (input : ResetPasswordDto) : AccountProgram Unit := do
  parsePassword input.password
  assertPasswordConfirmation input.password input.passwordConfirmation
  consumeReset config input

end AuthService

namespace EmailProcessor

open RedisAuthStateService Auth.RedisAuthStateService

def ONE_HOUR_MS : ℕ := 60 * 60 * 1000

def RESEND_COOLDOWN_MS : ℕ := 60000

variable (config : AccountConfig)

def activationMail (email code : String) : Mail where
  recipient := email
  subject := "Activate your Shortlink account"
  text := "Your activation code is " ++ code ++ ". It expires in one hour."
  html := "<p>Your activation code is <strong>" ++ code ++
    "</strong>. It expires in one hour.</p>"

def resetMail (email token : String) : Mail :=
  let resetUrl := config.frontendResetUrl ++ "#token=" ++ token
  { recipient := email
    subject := "Reset your Shortlink password"
    text := "Reset your password using this link: " ++ resetUrl ++
      ". The link expires in one hour."
    html := "<p>Reset your password using this link:</p><p><a href=\"" ++ resetUrl ++
      "\">" ++ resetUrl ++ "</a></p><p>The link expires in one hour.</p>" }

/-- `processActivation` after the account has been found. -/
def issueActivationCode (userId issuanceId : String) (account : AccountRecord) :
    AccountProgram Unit := do
  let code ← ofAuth (AuthProgram.generate .verificationCode)
  let now ← ofAuth AuthProgram.now
  setActivationCode config userId code (now + RESEND_COOLDOWN_MS)
  let stillCurrent ← ofAuth (isCurrentIssuance .activation userId issuanceId)
  if stillCurrent then ofAuth (AuthProgram.sendMail (activationMail account.email code))
  else return ()

/-- `processActivation` of a job that names an account. -/
def processAccount (userId issuanceId : String) : AccountProgram Unit := do
  let current ← ofAuth (isCurrentIssuance .activation userId issuanceId)
  if ¬ current then return ()
  else
    let account ← ofAuth (AuthProgram.authRepository (.findAccountById userId))
    match account with
    | none => return ()
    | some account => issueActivationCode config userId issuanceId account

def processActivation (data : SendVerificationCodeJobData) : AccountProgram Unit :=
  match data.userId with
  | none => return ()
  | some userId =>
      if userId = "" then return () else processAccount config userId data.issuanceId

def processVerificationCode (data : SendVerificationCodeJobData) : AccountProgram Unit :=
  if data.purpose = .activation then processActivation config data
  else ofAuth (Auth.EmailProcessor.processLogin config.auth data)

/-- `processPasswordReset` after the account has been found. -/
def issueResetToken (userId issuanceId : String) (account : AccountRecord) :
    AccountProgram Unit := do
  let token ← ofAuth (AuthProgram.generate .opaqueToken)
  let now ← ofAuth AuthProgram.now
  let _ ← accountRepository (.createPasswordResetToken userId
    { tokenHash := config.auth.hashToken token, expiresAt := now + ONE_HOUR_MS })
  let stillCurrent ← ofAuth (isCurrentIssuance .reset userId issuanceId)
  if stillCurrent then ofAuth (AuthProgram.sendMail (resetMail config account.email token))
  else return ()

def processPasswordReset (data : SendPasswordResetJobData) : AccountProgram Unit := do
  let current ← ofAuth (isCurrentIssuance .reset data.userId data.issuanceId)
  if ¬ current then return ()
  else
    let account ← ofAuth (AuthProgram.authRepository (.findAccountById data.userId))
    match account with
    | none => return ()
    | some account => issueResetToken config data.userId data.issuanceId account

end EmailProcessor

/-! ### Calls -/

inductive AccountCall where
  | auth (call : AuthCall)
  | register (input : RegisterDto) (clientIp : String)
  | verifyEmail (input : VerifyEmailDto)
  | resendEmailVerification (input : EmailDto) (clientIp : String)
  | requestPasswordReset (input : EmailDto) (clientIp : String)
  | resetPassword (input : ResetPasswordDto)
  | processVerificationCode (data : SendVerificationCodeJobData)
  | processPasswordReset (data : SendPasswordResetJobData)
  deriving DecidableEq

def AccountCall.program (config : AccountConfig) : AccountCall → AccountProgram AuthValue
  | .auth call => ofAuth (call.program config.auth)
  | .register input clientIp =>
      (fun _ => .done) <$> AuthService.register config input clientIp
  | .verifyEmail input => (fun _ => .done) <$> AuthService.verifyEmail config input
  | .resendEmailVerification input clientIp =>
      (fun _ => .done) <$> AuthService.resendEmailVerification config input clientIp
  | .requestPasswordReset input clientIp =>
      (fun _ => .done) <$> AuthService.requestPasswordReset config input clientIp
  | .resetPassword input => (fun _ => .done) <$> AuthService.resetPassword config input
  | .processVerificationCode data =>
      (fun _ => .done) <$> EmailProcessor.processVerificationCode config data
  | .processPasswordReset data =>
      (fun _ => .done) <$> EmailProcessor.processPasswordReset config data

/-! ### Redis and PostgreSQL -/

/-- The state of the auth services, the reset tokens and the activation entries. -/
structure AccountState where
  auth : AuthState
  passwordResetTokens : List PasswordResetTokenRecord
  entries : Activations

def AccountState.db (s : AccountState) : AccountDb := ⟨s.auth.db, s.passwordResetTokens⟩

def AccountState.setDb (s : AccountState) (db : AccountDb) : AccountState :=
  { s with auth := { s.auth with db := db.auth }
           passwordResetTokens := db.passwordResetTokens }

/-- The state of a fresh installation with these accounts. -/
def AccountState.init (users : List AccountRecord) : AccountState :=
  ⟨AuthState.init users, [], Store.empty 0⟩

/-- What a step takes from outside. -/
structure AccountOutside where
  auth : AuthOutside
  stamp : AccountStamp

/-- What happens without a call: time passes, Redis evicts an entry. -/
inductive AccountEnvironment where
  | tick (milliseconds : ℕ)
  | evict (key : RedisKey)
  | evictActivation (key : ActivationKey)

/-- A method of the repository: its transaction, executed alone. -/
def execTransaction (c : AccountCommand) (stamp : AccountStamp) (s : AccountState) :
    Except StorageError c.Res × AccountState :=
  match (c.impl stamp).run s.db with
  | .ok (a, db) => (.ok a, s.setDb db)
  | .error e => (.error e, s)

def execActivations (c : ActivationCommand) (s : AccountState) :
    Except StorageError c.Res × AccountState :=
  let (reply, entries) := c.apply s.entries
  (.ok reply, { s with entries })

def exec : (c : AccountStep) → AccountOutside → AccountState →
    Option (c.Reply × AccountState)
  | .auth c, o, s => (Auth.exec c o.auth s.auth).map fun ra => (ra.1, { s with auth := ra.2 })
  | .hash _, o, s => some (o.auth.generated, s)
  | .repository c, o, s => some (o.auth.fault.apply s (execTransaction c o.stamp s))
  | .redis c, o, s => some (o.auth.fault.apply s (execActivations c s))
  | .enqueuePasswordReset _, o, s => some (o.auth.fault.apply s (.ok (), s))

def environment : AccountEnvironment → AccountState → AccountState
  | .tick n, s =>
      { s with auth := Auth.environment (.tick n) s.auth, entries := s.entries.tick n }
  | .evict key, s => { s with auth := Auth.environment (.evict key) s.auth }
  | .evictActivation key, s => { s with entries := s.entries.del key }

/-- Calls of the services and attempts of the worker, executed concurrently. -/
def accountService (config : AccountConfig) :
    Semantics AccountStep AccountStep.Reply AccountCall AuthResult AccountState
      AccountOutside AccountEnvironment where
  body call := (call.program config).run
  exec := exec
  environment := environment

abbrev AccountPool : Type :=
  Pool AccountStep AccountStep.Reply AccountCall AuthResult AccountState

abbrev AccountEvent : Type := Event AccountCall AccountOutside AccountEnvironment

abbrev AccountLog : Type := List (AccountStep × AccountOutside)

end Account

end Shortlink
