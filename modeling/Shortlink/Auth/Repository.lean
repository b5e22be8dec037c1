import Shortlink.Auth.Types
import Shortlink.Transaction.System

/-!
# The auth repository

The transactions of `typeorm-auth.repository.ts` on sessions and refresh
tokens, statement by statement, and for each of them what a committed execution
has done.
-/

namespace Shortlink

namespace Auth

open Shortlink.Storage Shortlink.Table Shortlink.Transaction

/-- A transaction on the auth tables. The account row lock of `userId` is the
lock named `userId`. -/
abbrev AuthTx := Tx AuthDb String StorageError

def lockAccount (userId : String) : AuthTx Unit := do
  Tx.acquire userId
  let account ← Tx.query (AuthDb.findAccountById userId)
  match account with
  | none => Tx.throw (.error "Account not found.")
  | some _ => Tx.pure ()

def revokeActiveSessions (userId : String) (reason : SessionRevocationReason)
    (stamp : Stamp) : AuthTx (List String) := do
  let activeSessions ← Tx.query (AuthDb.findActiveSessions userId)
  if activeSessions.length = 0 then
    return []
  else
    let ids := activeSessions.map (·.id)
    Tx.update fun db => .ok (db.saveRevoked ids stamp.revokedAt reason)
    return ids

def createExclusiveSessionTx (userId : String)
    (sessionData : CreateExclusiveSessionInput) (stamp : Stamp) :
    AuthTx CreateExclusiveSessionResult := do
  lockAccount userId
  let revokedSessionIds ← revokeActiveSessions userId .newLogin stamp
  let session : AuthSessionRecord :=
    { id := stamp.sessionId, userId
      refreshTokenHash := sessionData.refreshTokenHash
      csrfTokenHash := sessionData.csrfTokenHash
      expiresAt := sessionData.expiresAt
      revokedAt := none, revocationReason := none
      createdAt := stamp.createdAt, lastRotatedAt := stamp.now }
  Tx.update (AuthDb.insertSession session)
  let refreshToken : SessionRefreshTokenRecord :=
    { id := stamp.tokenId, sessionId := session.id
      tokenHash := sessionData.refreshTokenHash
      issuedAt := stamp.now, usedAt := none
      expiresAt := sessionData.expiresAt }
  Tx.update (AuthDb.insertRefreshToken refreshToken)
  return { session, refreshToken, revokedSessionIds }

def rotateRefreshTokenTx (sessionId : String) (input : RotateRefreshTokenInput)
    (stamp : Stamp) : AuthTx CreateExclusiveSessionResult := do
  let session ← Tx.query (AuthDb.findSession sessionId)
  match session with
  | none => Tx.throw (.error "Session is not active.")
  | some session =>
      if session.revokedAt.isSome then
        Tx.throw (.error "Session is not active.")
      else locked session.userId
where
  /-- What follows the choice of the account to lock. -/
  locked (userId : String) : AuthTx CreateExclusiveSessionResult := do
    lockAccount userId
    let lockedSession ← Tx.query (AuthDb.findSession sessionId)
    match lockedSession with
    | none => Tx.throw (.error "Session is not active.")
    | some lockedSession =>
        if lockedSession.revokedAt.isSome then
          Tx.throw (.error "Session is not active.")
        else if lockedSession.refreshTokenHash ≠ input.currentTokenHash then
          Tx.throw (.error "Current refresh token does not match the session.")
        else
          let currentToken ←
            Tx.query (AuthDb.findUnusedToken sessionId input.currentTokenHash)
          match currentToken with
          | none => Tx.throw (.error "Current refresh token is not usable.")
          | some currentToken =>
              Tx.update fun db => .ok (db.saveUsed currentToken.id stamp.now)
              let savedSession : AuthSessionRecord :=
                { lockedSession with
                  refreshTokenHash := input.newTokenHash
                  expiresAt := input.newExpiresAt
                  lastRotatedAt := stamp.now }
              Tx.update fun db => .ok (db.saveRotated savedSession)
              let refreshToken : SessionRefreshTokenRecord :=
                { id := stamp.tokenId, sessionId
                  tokenHash := input.newTokenHash
                  issuedAt := stamp.now, usedAt := none
                  expiresAt := input.newExpiresAt }
              Tx.update (AuthDb.insertRefreshToken refreshToken)
              return ⟨savedSession, refreshToken, []⟩

def revokeSessionTx (sessionId : String) (reason : SessionRevocationReason)
    (stamp : Stamp) : AuthTx Unit := do
  let session ← Tx.query (AuthDb.findSession sessionId)
  match session with
  | none => return ()
  | some session =>
      if session.revokedAt.isSome then return () else locked session.userId
where
  /-- What follows the choice of the account to lock. -/
  locked (userId : String) : AuthTx Unit := do
    lockAccount userId
    let lockedSession ← Tx.query (AuthDb.findSession sessionId)
    match lockedSession with
    | none => return ()
    | some lockedSession =>
        if lockedSession.revokedAt.isSome then
          return ()
        else
          Tx.update fun db =>
            .ok (db.saveRevoked [lockedSession.id] stamp.revokedAt reason)

def revokeAllSessionsTx (userId : String) (reason : SessionRevocationReason)
    (stamp : Stamp) : AuthTx (List String) := do
  lockAccount userId
  revokeActiveSessions userId reason stamp

/-- The methods of the repository. Those that only read are one query. -/
inductive AuthCommand where
  | createExclusiveSession (userId : String)
      (sessionData : CreateExclusiveSessionInput)
  | rotateRefreshToken (sessionId : String) (input : RotateRefreshTokenInput)
  | revokeSession (sessionId : String) (reason : SessionRevocationReason)
  | revokeAllSessions (userId : String) (reason : SessionRevocationReason)
  | findAccountByEmail (email : String)
  | findAccountById (id : String)
  | findActiveSessionById (sessionId : String)
  | findSessionByRefreshTokenHash (hash : String)
  | findRefreshTokenHistoryByHash (hash : String)
  deriving DecidableEq

namespace AuthCommand

/-- The value of a method. -/
def Res : AuthCommand → Type
  | .createExclusiveSession _ _ => CreateExclusiveSessionResult
  | .rotateRefreshToken _ _ => CreateExclusiveSessionResult
  | .revokeSession _ _ => Unit
  | .revokeAllSessions _ _ => List String
  | .findAccountByEmail _ => Option AccountRecord
  | .findAccountById _ => Option AccountRecord
  | .findActiveSessionById _ => Option AuthSessionRecord
  | .findSessionByRefreshTokenHash _ => Option AuthSessionRecord
  | .findRefreshTokenHistoryByHash _ => Option SessionRefreshTokenRecord

/-- The transaction of a method. -/
def impl : (c : AuthCommand) → Stamp → AuthTx c.Res
  | .createExclusiveSession userId sessionData =>
      createExclusiveSessionTx userId sessionData
  | .rotateRefreshToken sessionId input => rotateRefreshTokenTx sessionId input
  | .revokeSession sessionId reason => revokeSessionTx sessionId reason
  | .revokeAllSessions userId reason => revokeAllSessionsTx userId reason
  | .findAccountByEmail email => fun _ =>
      Tx.query (AuthDb.findAccountByEmail email)
  | .findAccountById id => fun _ => Tx.query (AuthDb.findAccountById id)
  | .findActiveSessionById sessionId => fun _ =>
      Tx.query (AuthDb.findActiveSessionById sessionId)
  | .findSessionByRefreshTokenHash hash => fun _ =>
      Tx.query (AuthDb.findSessionByRefreshTokenHash hash)
  | .findRefreshTokenHistoryByHash hash => fun _ =>
      Tx.query (AuthDb.findRefreshTokenHistoryByHash hash)

end AuthCommand

/-- The value of a finished method call. -/
abbrev AuthReply : Type := (c : AuthCommand) × Except StorageError c.Res

/-- Method calls of the repository, executed concurrently. -/
def repository : System AuthCommand AuthCommand.Res AuthCommand AuthReply Stamp
    AuthDb String StorageError where
  body c := .call c fun r => .pure ⟨c, r⟩
  impl := AuthCommand.impl

/-! ### What a committed execution has done -/

/-- The state after the active sessions of an account have been revoked. -/
def AuthDb.revokeActive (userId : String) (now : ℕ)
    (reason : SessionRevocationReason) (db : AuthDb) : AuthDb :=
  db.saveRevoked ((db.findActiveSessions userId).map (·.id)) now reason

theorem AuthDb.saveRevoked_nil (now : ℕ) (reason : SessionRevocationReason)
    (db : AuthDb) : db.saveRevoked [] now reason = db := by
  cases db
  simp [AuthDb.saveRevoked, updateWhere]

theorem revokeActiveSessions_run {β : Type} {userId : String}
    {reason : SessionRevocationReason} {stamp : Stamp} {db : AuthDb}
    {rest : List String → AuthTx β} {r : Except StorageError (β × AuthDb)}
    (h : ((revokeActiveSessions userId reason stamp).bind rest).run db = r) :
    (rest ((db.findActiveSessions userId).map (·.id))).run
      (db.revokeActive userId stamp.revokedAt reason) = r := by
  simp only [revokeActiveSessions, Tx.bind_eq, Tx.query_bind, Tx.read_bind,
    Tx.run_read] at h
  split at h
  · rename_i hnil
    have hempty : db.findActiveSessions userId = [] :=
      List.length_eq_zero_iff.1 hnil
    simpa [AuthDb.revokeActive, hempty, AuthDb.saveRevoked_nil] using h
  · simpa [AuthDb.revokeActive, Tx.run_write] using h

theorem lockAccount_run {β : Type} {userId : String} {db db' : AuthDb}
    {rest : AuthTx β} {b : β}
    (h : ((lockAccount userId).bind fun _ => rest).run db = .ok (b, db')) :
    (db.findAccountById userId).isSome ∧ rest.run db = .ok (b, db') := by
  simp only [lockAccount, Tx.bind_eq, Tx.acquire_bind, Tx.query_bind,
    Tx.lock_bind, Tx.read_bind, Tx.run_lock, Tx.run_read] at h
  cases haccount : db.findAccountById userId with
  | none => simp [haccount] at h
  | some account => simpa [haccount] using h

/-- The committed executions of `createExclusiveSession`. -/
structure SessionCreated (userId : String)
    (sessionData : CreateExclusiveSessionInput) (stamp : Stamp) (db : AuthDb)
    (r : CreateExclusiveSessionResult) (db' : AuthDb) : Prop where
  account : (db.findAccountById userId).isSome
  session : r.session = ⟨stamp.sessionId, userId, sessionData.refreshTokenHash,
    sessionData.csrfTokenHash, sessionData.expiresAt, none, none,
    stamp.createdAt, stamp.now⟩
  refreshToken : r.refreshToken = ⟨stamp.tokenId, stamp.sessionId,
    sessionData.refreshTokenHash, stamp.now, none, sessionData.expiresAt⟩
  revoked : r.revokedSessionIds = (db.findActiveSessions userId).map (·.id)
  freshSession : ∀ s ∈ db.sessions, s.id ≠ r.session.id
  freshToken : ∀ t ∈ db.refreshTokens, t.id ≠ r.refreshToken.id
  freshHash : ∀ t ∈ db.refreshTokens, t.tokenHash ≠ r.refreshToken.tokenHash
  result : db' =
    { users := db.users
      sessions := (db.revokeActive userId stamp.revokedAt .newLogin).sessions ++
        [r.session]
      refreshTokens := db.refreshTokens ++ [r.refreshToken] }

theorem createExclusiveSessionTx_run {userId : String}
    {sessionData : CreateExclusiveSessionInput} {stamp : Stamp}
    {db db' : AuthDb} {r : CreateExclusiveSessionResult}
    (h : (createExclusiveSessionTx userId sessionData stamp).run db =
      .ok (r, db')) :
    SessionCreated userId sessionData stamp db r db' := by
  obtain ⟨haccount, h⟩ := lockAccount_run h
  have h := revokeActiveSessions_run h
  simp only [Tx.update_bind, Tx.bind_eq, Tx.run_write_eq_ok_iff,
    AuthDb.insertSession_eq_ok_iff, AuthDb.insertRefreshToken_eq_ok_iff] at h
  obtain ⟨db₁, ⟨hsession, rfl⟩, db₂, ⟨htoken, hhash, rfl⟩, hrun⟩ := h
  cases hrun
  refine ⟨haccount, rfl, rfl, rfl, fun s hs => ?_, htoken, hhash, rfl⟩
  have hids : (db.revokeActive userId stamp.revokedAt .newLogin).sessions.map
      (·.id) = db.sessions.map (·.id) := map_updateWhere fun _ _ => rfl
  have hmem : s.id ∈ (db.revokeActive userId stamp.revokedAt
      .newLogin).sessions.map (·.id) := hids ▸ List.mem_map_of_mem hs
  obtain ⟨s', hs', hid⟩ := List.mem_map.1 hmem
  exact hid ▸ hsession s' hs'

/-- The committed executions of `rotateRefreshToken`. -/
structure TokenRotated (sessionId : String) (input : RotateRefreshTokenInput)
    (stamp : Stamp) (db : AuthDb) (r : CreateExclusiveSessionResult)
    (db' : AuthDb) (session : AuthSessionRecord)
    (token : SessionRefreshTokenRecord) : Prop where
  find : db.findSession sessionId = some session
  active : session.revokedAt = none
  current : session.refreshTokenHash = input.currentTokenHash
  unused : db.findUnusedToken sessionId input.currentTokenHash = some token
  session : r.session = { session with
    refreshTokenHash := input.newTokenHash
    expiresAt := input.newExpiresAt
    lastRotatedAt := stamp.now }
  refreshToken : r.refreshToken = ⟨stamp.tokenId, sessionId,
    input.newTokenHash, stamp.now, none, input.newExpiresAt⟩
  freshToken : ∀ t ∈ db.refreshTokens, t.id ≠ r.refreshToken.id
  freshHash : ∀ t ∈ db.refreshTokens, t.tokenHash ≠ r.refreshToken.tokenHash
  result : db' =
    { users := db.users
      sessions := (db.saveRotated r.session).sessions
      refreshTokens := (db.saveUsed token.id stamp.now).refreshTokens ++
        [r.refreshToken] }

theorem rotateRefreshTokenTx_run {sessionId : String}
    {input : RotateRefreshTokenInput} {stamp : Stamp} {db db' : AuthDb}
    {r : CreateExclusiveSessionResult}
    (h : (rotateRefreshTokenTx sessionId input stamp).run db = .ok (r, db')) :
    ∃ session token,
      TokenRotated sessionId input stamp db r db' session token := by
  simp only [rotateRefreshTokenTx, Tx.bind_eq, Tx.query_bind, Tx.run_read] at h
  cases hfind : db.findSession sessionId with
  | none => simp [hfind] at h
  | some session =>
      simp only [hfind] at h
      split at h
      · cases h
      rename_i hactive
      have hactive' : session.revokedAt = none := by simpa using hactive
      obtain ⟨-, h⟩ := lockAccount_run h
      simp only [Tx.bind_eq, Tx.query_bind, Tx.run_read, hfind,
        if_neg hactive] at h
      split at h
      · cases h
      rename_i hcurrent
      have hcurrent' : session.refreshTokenHash = input.currentTokenHash := by
        simpa using hcurrent
      cases hunused : db.findUnusedToken sessionId input.currentTokenHash with
      | none => simp [hunused] at h
      | some token =>
          simp only [Tx.run_read, hunused, Tx.update_bind,
            Tx.run_write_eq_ok_iff, Except.ok.injEq, exists_eq_left',
            AuthDb.insertRefreshToken_eq_ok_iff] at h
          obtain ⟨db₁, ⟨htoken, hhash, rfl⟩, hrun⟩ := h
          cases hrun
          have hold : ∀ t ∈ db.refreshTokens, ∃ t' ∈
              (db.saveUsed token.id stamp.now).refreshTokens,
                t'.id = t.id ∧ t'.tokenHash = t.tokenHash := by
            intro t ht
            cases hid : t.id == token.id with
            | false => exact ⟨t, mem_updateWhere_of_not ht hid, rfl, rfl⟩
            | true => exact ⟨_, mem_updateWhere_of ht hid, rfl, rfl⟩
          refine ⟨session, token, hfind, hactive', hcurrent', hunused, rfl, rfl,
            fun t ht => ?_, fun t ht => ?_, rfl⟩
          · obtain ⟨t', ht', hid, -⟩ := hold t ht
            exact hid ▸ htoken t' ht'
          · obtain ⟨t', ht', -, hhash'⟩ := hold t ht
            exact hhash' ▸ hhash t' ht'

/-- The committed executions of `revokeSession`. -/
inductive SessionRevoked (sessionId : String)
    (reason : SessionRevocationReason) (stamp : Stamp) (db : AuthDb) :
    AuthDb → Prop
  | missing (hfind : db.findSession sessionId = none) :
      SessionRevoked sessionId reason stamp db db
  | already (session : AuthSessionRecord)
      (hfind : db.findSession sessionId = some session)
      (hrevoked : session.revokedAt.isSome) :
      SessionRevoked sessionId reason stamp db db
  | revoked (session : AuthSessionRecord)
      (hfind : db.findSession sessionId = some session)
      (hactive : session.revokedAt = none) :
      SessionRevoked sessionId reason stamp db
        (db.saveRevoked [session.id] stamp.revokedAt reason)

theorem revokeSessionTx_run {sessionId : String}
    {reason : SessionRevocationReason} {stamp : Stamp} {db db' : AuthDb}
    {r : Unit} (h : (revokeSessionTx sessionId reason stamp).run db =
      .ok (r, db')) : SessionRevoked sessionId reason stamp db db' := by
  simp only [revokeSessionTx, Tx.bind_eq, Tx.query_bind, Tx.run_read] at h
  cases hfind : db.findSession sessionId with
  | none =>
      simp only [hfind] at h
      cases h
      exact .missing hfind
  | some session =>
      simp only [hfind] at h
      split at h
      · rename_i hrevoked
        cases h
        exact .already session hfind hrevoked
      rename_i hactive
      obtain ⟨-, h⟩ := lockAccount_run h
      simp only [Tx.bind_eq, Tx.query_bind, Tx.run_read, hfind,
        if_neg hactive] at h
      cases h
      exact .revoked session hfind (by simpa using hactive)

theorem revokeAllSessionsTx_run {userId : String}
    {reason : SessionRevocationReason} {stamp : Stamp} {db db' : AuthDb}
    {ids : List String}
    (h : (revokeAllSessionsTx userId reason stamp).run db = .ok (ids, db')) :
    ids = (db.findActiveSessions userId).map (·.id) ∧
      db' = db.revokeActive userId stamp.revokedAt reason := by
  obtain ⟨-, h⟩ := lockAccount_run h
  rw [← Tx.bind_pure (revokeActiveSessions userId reason stamp)] at h
  have h := revokeActiveSessions_run h
  cases h
  exact ⟨rfl, rfl⟩

end Auth

end Shortlink
