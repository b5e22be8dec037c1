import Shortlink.Storage.Error
import Shortlink.Table.Basic

/-!
# Accounts, sessions and refresh tokens

`auth.types.ts`, the entities, and the statements the repository issues on
`users`, `auth_sessions` and `session_refresh_tokens`. An entity and the record
that `to…Record` returns have the same fields.
-/

namespace Shortlink

namespace Auth

open Shortlink.Storage Shortlink.Table

inductive AccountStatus where
  | pending
  | active
  deriving DecidableEq

inductive AccountRole where
  | user
  deriving DecidableEq

/-- The text of a role in tokens and cache entries. -/
def AccountRole.value : AccountRole → String
  | .user => "USER"

inductive SessionRevocationReason where
  | logout
  | newLogin
  | passwordReset
  | refreshReuse
  deriving DecidableEq

structure AccountRecord where
  id : String
  email : String
  status : AccountStatus
  role : AccountRole
  passwordHash : String
  createdAt : ℕ
  updatedAt : ℕ
  deriving DecidableEq

structure AuthSessionRecord where
  id : String
  userId : String
  refreshTokenHash : String
  csrfTokenHash : String
  expiresAt : ℕ
  revokedAt : Option ℕ
  revocationReason : Option SessionRevocationReason
  createdAt : ℕ
  lastRotatedAt : ℕ
  deriving DecidableEq

structure SessionRefreshTokenRecord where
  id : String
  sessionId : String
  tokenHash : String
  issuedAt : ℕ
  usedAt : Option ℕ
  expiresAt : ℕ
  deriving DecidableEq

structure CreateExclusiveSessionInput where
  refreshTokenHash : String
  csrfTokenHash : String
  expiresAt : ℕ
  deriving DecidableEq

structure CreateExclusiveSessionResult where
  session : AuthSessionRecord
  refreshToken : SessionRefreshTokenRecord
  revokedSessionIds : List String
  deriving DecidableEq

structure RotateRefreshTokenInput where
  currentTokenHash : String
  newTokenHash : String
  newExpiresAt : ℕ
  deriving DecidableEq

structure AuthDb where
  users : List AccountRecord
  sessions : List AuthSessionRecord
  refreshTokens : List SessionRefreshTokenRecord
  deriving DecidableEq

/-- What a transaction takes from outside: the clock when it revokes and when
it issues, the value of `now()` in the database, and the generated ids. -/
structure Stamp where
  revokedAt : ℕ
  now : ℕ
  createdAt : ℕ
  sessionId : String
  tokenId : String
  deriving DecidableEq

namespace AuthDb

def findAccountByEmail (email : String) (db : AuthDb) : Option AccountRecord :=
  db.users.find? fun a => decide (a.email = email)

def findAccountById (id : String) (db : AuthDb) : Option AccountRecord :=
  db.users.find? fun a => decide (a.id = id)

/-- `findOne` of a session by its id. -/
def findSession (sessionId : String) (db : AuthDb) :
    Option AuthSessionRecord :=
  db.sessions.find? fun s => decide (s.id = sessionId)

def findActiveSessionById (sessionId : String) (db : AuthDb) :
    Option AuthSessionRecord :=
  db.sessions.find? fun s => s.id == sessionId && s.revokedAt.isNone

def findSessionByRefreshTokenHash (hash : String) (db : AuthDb) :
    Option AuthSessionRecord :=
  db.sessions.find? fun s => decide (s.refreshTokenHash = hash)

def findRefreshTokenHistoryByHash (hash : String) (db : AuthDb) :
    Option SessionRefreshTokenRecord :=
  db.refreshTokens.find? fun t => decide (t.tokenHash = hash)

/-- `findOne` of the unused row of a session with a given hash. -/
def findUnusedToken (sessionId hash : String) (db : AuthDb) :
    Option SessionRefreshTokenRecord :=
  db.refreshTokens.find? fun t =>
    t.sessionId == sessionId && t.tokenHash == hash && t.usedAt.isNone

/-- Whether `s` is an active session of `userId`. -/
def activeOf (userId : String) (s : AuthSessionRecord) : Bool :=
  s.userId == userId && s.revokedAt.isNone

/-- `find` of the active sessions of an account. -/
def findActiveSessions (userId : String) (db : AuthDb) :
    List AuthSessionRecord :=
  db.sessions.filter (activeOf userId)

/-- `save` of loaded sessions whose revocation has been filled in. -/
def saveRevoked (ids : List String) (now : ℕ)
    (reason : SessionRevocationReason) (db : AuthDb) : AuthDb :=
  { db with
    sessions := updateWhere (fun s => decide (s.id ∈ ids))
      (fun s => { s with revokedAt := some now, revocationReason := reason })
      db.sessions }

/-- `save` of a loaded session that has been rotated. -/
def saveRotated (session : AuthSessionRecord) (db : AuthDb) : AuthDb :=
  { db with
    sessions := updateWhere (fun s => s.id == session.id)
      (fun s => { s with
        refreshTokenHash := session.refreshTokenHash
        expiresAt := session.expiresAt
        lastRotatedAt := session.lastRotatedAt })
      db.sessions }

/-- `save` of a loaded token row that has been used. -/
def saveUsed (tokenId : String) (now : ℕ) (db : AuthDb) : AuthDb :=
  { db with
    refreshTokens := updateWhere (fun t => t.id == tokenId)
      (fun t => { t with usedAt := some now }) db.refreshTokens }

/-- `save` of a new session. -/
def insertSession (session : AuthSessionRecord) (db : AuthDb) :
    Except StorageError AuthDb :=
  if db.sessions.any (fun s => s.id == session.id) then
    .error (uniqueViolation "PK_641507381f32580e8479efc36cd" "id" session.id)
  else
    .ok { db with sessions := db.sessions ++ [session] }

/-- `save` of a new token row. -/
def insertRefreshToken (token : SessionRefreshTokenRecord) (db : AuthDb) :
    Except StorageError AuthDb :=
  if db.refreshTokens.any (fun t => t.id == token.id) then
    .error (uniqueViolation "PK_c25bb23cefd8e77e04f9a1283ef" "id" token.id)
  else if db.refreshTokens.any (fun t => t.tokenHash == token.tokenHash) then
    .error (uniqueViolation "IDX_b42ff12c5e4def8c548fb161f8" "\"tokenHash\""
      token.tokenHash)
  else
    .ok { db with refreshTokens := db.refreshTokens ++ [token] }

theorem insertSession_eq_ok_iff {session : AuthSessionRecord}
    {db db' : AuthDb} :
    insertSession session db = .ok db' ↔
      (∀ s ∈ db.sessions, s.id ≠ session.id) ∧
        db' = { db with sessions := db.sessions ++ [session] } := by
  simp only [insertSession]
  split
  · rename_i h
    obtain ⟨s, hs, hid⟩ := List.any_eq_true.1 h
    exact ⟨nofun, fun h => absurd (by simpa using hid) (h.1 s hs)⟩
  · rename_i hid
    simp only [List.any_eq_true, beq_iff_eq, not_exists, not_and] at hid
    constructor
    · intro h
      exact ⟨hid, (Except.ok.inj h).symm⟩
    · rintro ⟨-, rfl⟩
      rfl

theorem insertRefreshToken_eq_ok_iff {token : SessionRefreshTokenRecord}
    {db db' : AuthDb} :
    insertRefreshToken token db = .ok db' ↔
      (∀ t ∈ db.refreshTokens, t.id ≠ token.id) ∧
        (∀ t ∈ db.refreshTokens, t.tokenHash ≠ token.tokenHash) ∧
        db' = { db with refreshTokens := db.refreshTokens ++ [token] } := by
  simp only [insertRefreshToken]
  split
  · rename_i h
    obtain ⟨t, ht, hid⟩ := List.any_eq_true.1 h
    exact ⟨nofun, fun h => absurd (by simpa using hid) (h.1 t ht)⟩
  split
  · rename_i h
    obtain ⟨t, ht, hhash⟩ := List.any_eq_true.1 h
    exact ⟨nofun, fun h => absurd (by simpa using hhash) (h.2.1 t ht)⟩
  · rename_i hid hhash
    simp only [List.any_eq_true, beq_iff_eq, not_exists, not_and] at hid hhash
    constructor
    · intro h
      exact ⟨hid, hhash, (Except.ok.inj h).symm⟩
    · rintro ⟨-, -, rfl⟩
      rfl

end AuthDb

end Auth

end Shortlink
