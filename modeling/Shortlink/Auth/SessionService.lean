import Shortlink.Auth.Steps

/-!
# The session service

`auth-session.service.ts` with the methods of `redis-auth-state.service.ts` that
it uses. The functions of the crypto service are parameters.
-/

namespace Shortlink

namespace Auth

open AuthProgram

structure AccessTokenClaims where
  sub : String
  role : String
  sessionId : String

/-- What the services take from the runtime and its packages: the keyed hashes,
the signature of an access token issued at a given instant, the comparison of a
password with a bcrypt hash, and the case mapping of strings. -/
structure AuthConfig where
  hashToken : String → String
  hmac : String → String
  hashRateLimitValue : String → String
  signAccessToken : AccessTokenClaims → ℕ → String
  compare : String → String → Bool
  toLowerCase : String → String

def ACCESS_TOKEN_TTL_SECONDS : ℕ := 15 * 60

def SESSION_TTL_MS : ℕ := 7 * 24 * 60 * 60 * 1000

structure IssuedSessionTokens where
  accessToken : String
  expiresIn : ℕ
  csrfToken : String
  refreshToken : String
  sessionId : String
  deriving DecidableEq

structure AuthPrincipal where
  userId : String
  role : String
  sessionId : String
  deriving DecidableEq

namespace RedisAuthStateService

/-- The command of `setSessionCache`, issued at a given instant. -/
def cacheWrite (session : SessionCacheRecord) (now : ℕ) : RedisCommand :=
  let ttlSeconds := max 1 ((session.expiresAt - now + 999) / 1000)
  .set (.session session.sessionId) session ttlSeconds

def setSessionCache (session : SessionCacheRecord) : AuthProgram Unit := do
  let now ← now
  redis (cacheWrite session now)

def getSessionCache (sessionId : String) :
    AuthProgram (Option SessionCacheRecord) :=
  redis (.get (.session sessionId))

def deleteSessionCache (sessionId : String) : AuthProgram Unit :=
  redis (.del (.session sessionId))

section

variable {may : AuthTrace → AuthStep → Prop} {trace : AuthTrace}
  {ends : AuthTrace → Except AuthError Unit → Prop}

@[simp] theorem obeys_setSessionCache (session : SessionCacheRecord) :
    (setSessionCache session).Obeys may ends trace ↔
      may trace .now ∧ ∀ t : ℕ,
        may (⟨.now, t⟩ :: trace) (.redis (cacheWrite session t)) ∧
        (∀ e, ends (⟨.redis (cacheWrite session t), .error e⟩ ::
          ⟨.now, t⟩ :: trace) (.error .storageUnavailable)) ∧
        ∀ a : Unit, ends (⟨.redis (cacheWrite session t), .ok a⟩ ::
          ⟨.now, t⟩ :: trace) (.ok a) :=
  ((obeys_bind _ _).trans obeys_now).trans
    (and_congr Iff.rfl (forall_congr' fun _ => obeys_redis _))

@[simp] theorem obeys_getSessionCache (sessionId : String)
    {ends : AuthTrace → Except AuthError (Option SessionCacheRecord) → Prop} :
    (getSessionCache sessionId).Obeys may ends trace ↔
      may trace (.redis (.get (.session sessionId))) ∧
        (∀ e, ends (⟨.redis (.get (.session sessionId)), .error e⟩ :: trace)
          (.error .storageUnavailable)) ∧
        ∀ cached : Option SessionCacheRecord,
          ends (⟨.redis (.get (.session sessionId)), .ok cached⟩ :: trace)
            (.ok cached) :=
  obeys_redis _

@[simp] theorem obeys_deleteSessionCache (sessionId : String) :
    (deleteSessionCache sessionId).Obeys may ends trace ↔
      may trace (.redis (.del (.session sessionId))) ∧
        (∀ e, ends (⟨.redis (.del (.session sessionId)), .error e⟩ :: trace)
          (.error .storageUnavailable)) ∧
        ∀ a : Unit, ends (⟨.redis (.del (.session sessionId)), .ok a⟩ ::
          trace) (.ok a) :=
  obeys_redis _

end

end RedisAuthStateService

namespace AuthSessionService

open RedisAuthStateService

variable (config : AuthConfig)

def issueTokens (claims : AccessTokenClaims) (refreshToken csrfToken : String) :
    AuthProgram IssuedSessionTokens := do
  let issuedAt ← now
  return { accessToken := config.signAccessToken claims issuedAt
           expiresIn := ACCESS_TOKEN_TTL_SECONDS
           csrfToken, refreshToken, sessionId := claims.sessionId }

/-- A failure of the security storage is ignored, other errors are not. -/
def bestEffort (p : AuthProgram Unit) : AuthProgram Unit :=
  tryCatch p fun e => match e with
    | .storageUnavailable => return ()
    | e => throw e

def deleteSessionCacheBestEffort (sessionId : String) : AuthProgram Unit :=
  bestEffort (deleteSessionCache sessionId)

/-- The loop over the revoked sessions. -/
def deleteSessionCaches : List String → AuthProgram Unit
  | [] => return ()
  | sessionId :: sessionIds => do
      deleteSessionCacheBestEffort sessionId
      deleteSessionCaches sessionIds

/-- `createSessionAfterLogin` after the session has been created. -/
def sessionCreated (userId role refreshToken csrfToken : String)
    (created : CreateExclusiveSessionResult) :
    AuthProgram IssuedSessionTokens := do
  deleteSessionCaches created.revokedSessionIds
  setSessionCache
    { sessionId := created.session.id, userId, role
      expiresAt := created.session.expiresAt, active := true }
  issueTokens config ⟨userId, role, created.session.id⟩ refreshToken csrfToken

def createSessionAfterLogin (userId role : String) :
    AuthProgram IssuedSessionTokens := do
  let refreshToken ← generate .refreshToken
  let csrfToken ← generate .csrfToken
  let now ← now
  let created ← authRepository (.createExclusiveSession userId
    { refreshTokenHash := config.hashToken refreshToken
      csrfTokenHash := config.hashToken csrfToken
      expiresAt := now + SESSION_TTL_MS })
  sessionCreated config userId role refreshToken csrfToken created

/-- `refresh` after the token has been rotated. -/
def sessionRotated (account : AccountRecord) (nextRefreshToken : String)
    (rotated : CreateExclusiveSessionResult) :
    AuthProgram IssuedSessionTokens := do
  setSessionCache
    { sessionId := rotated.session.id, userId := account.id
      role := account.role.value
      expiresAt := rotated.session.expiresAt, active := true }
  issueTokens config ⟨account.id, account.role.value, rotated.session.id⟩
    nextRefreshToken ""

/-- `refresh` after the session and its account have been found. -/
def rotate (tokenHash : String) (session : AuthSessionRecord)
    (account : AccountRecord) : AuthProgram IssuedSessionTokens := do
  let nextRefreshToken ← generate .refreshToken
  let now ← now
  let rotated ← authRepository (.rotateRefreshToken session.id
    { currentTokenHash := tokenHash
      newTokenHash := config.hashToken nextRefreshToken
      newExpiresAt := now + SESSION_TTL_MS })
  sessionRotated config account nextRefreshToken rotated

/-- `refresh` of a token whose history row is unused. -/
def refreshUnused (tokenHash : String) (history : SessionRefreshTokenRecord) :
    AuthProgram IssuedSessionTokens := do
  let session ← authRepository (.findActiveSessionById history.sessionId)
  match session with
  | none => throw .invalidRefreshToken
  | some session =>
      let now ← now
      if session.expiresAt ≤ now ∨ session.refreshTokenHash ≠ tokenHash then
        throw .invalidRefreshToken
      else
        let account ← authRepository (.findAccountById session.userId)
        match account with
        | none => throw .invalidRefreshToken
        | some account => rotate config tokenHash session account

/-- `refresh` of a token that has been used before. -/
def refreshReused (history : SessionRefreshTokenRecord) :
    AuthProgram IssuedSessionTokens := do
  let _ ← authRepository (.revokeSession history.sessionId .refreshReuse)
  deleteSessionCache history.sessionId
  throw .refreshTokenReuse

def refresh (refreshToken : String) : AuthProgram IssuedSessionTokens := do
  let tokenHash := config.hashToken refreshToken
  let history ← authRepository (.findRefreshTokenHistoryByHash tokenHash)
  match history with
  | none => throw .invalidRefreshToken
  | some history =>
      if history.usedAt.isSome then refreshReused history
      else refreshUnused config tokenHash history

def logout (refreshToken : String) : AuthProgram Unit := do
  let tokenHash := config.hashToken refreshToken
  let session ← authRepository (.findSessionByRefreshTokenHash tokenHash)
  match session with
  | none => return ()
  | some session =>
      if session.revokedAt.isSome then return ()
      else
        let _ ← authRepository (.revokeSession session.id .logout)
        deleteSessionCache session.id

def revokeAll (userId : String) (reason : SessionRevocationReason) :
    AuthProgram Unit := do
  let revokedSessionIds ← authRepository (.revokeAllSessions userId reason)
  deleteSessionCaches revokedSessionIds

/-- `readSessionCache`; `undefined` and `null` are both `none`. -/
def readSessionCache (sessionId : String) :
    AuthProgram (Option SessionCacheRecord) :=
  tryCatch (getSessionCache sessionId) fun e => match e with
    | .storageUnavailable => return none
    | e => throw e

/-- `validateSession` of a session that is cached. -/
def validateCached (cached : SessionCacheRecord) :
    AuthProgram (Option AuthPrincipal) := do
  if ¬ cached.active then return none
  else
    let now ← now
    if cached.expiresAt ≤ now then return none
    else return some ⟨cached.userId, cached.role, cached.sessionId⟩

/-- `validateSession` of a session that is not cached. -/
def validateStored (sessionId : String) : AuthProgram (Option AuthPrincipal) :=
  do
  let session ← authRepository (.findActiveSessionById sessionId)
  match session with
  | none => return none
  | some session =>
      let now ← now
      if session.expiresAt ≤ now then return none
      else
        let account ← authRepository (.findAccountById session.userId)
        match account with
        | none => return none
        | some account =>
            bestEffort (setSessionCache
              { sessionId := session.id, userId := account.id
                role := account.role.value
                expiresAt := session.expiresAt, active := true })
            return some ⟨account.id, account.role.value, session.id⟩

def validateSession (sessionId : String) :
    AuthProgram (Option AuthPrincipal) := do
  let cached ← readSessionCache sessionId
  match cached with
  | some cached => validateCached cached
  | none => validateStored sessionId

end AuthSessionService

end Auth

end Shortlink
