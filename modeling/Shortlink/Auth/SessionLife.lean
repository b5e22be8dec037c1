import Shortlink.Auth.LoginFlow
import Shortlink.Auth.AuthSessionGuard
import Shortlink.Auth.TokenFamily

/-!
# The life of a session

The session of a login can be refreshed any number of times, each time with the token of the
refresh before, and is valid until the logout with the last one (`session_lasts`), when
nothing fails and all of it happens before the session expires. Until the access token of the
login expires, the guard admits it (`guard_admits_login`).
-/

namespace Shortlink

namespace Auth

open Shortlink.Storage Shortlink.Table Shortlink.Transaction Shortlink.Interaction
open Shortlink.Expiring Shortlink.Text AuthProgram

variable {config : AuthConfig} {deadline : ℕ} {s : AuthState}

/-! ### The tables -/

section

variable {db : AuthDb} {stamp : Stamp} {session : AuthSessionRecord}

theorem findActiveSessionById_of_mem (hdb : Keys db) (hmem : session ∈ db.sessions)
    (hactive : session.revokedAt = none) :
    db.findActiveSessionById session.id = some session := by
  have hsome : (db.findActiveSessionById session.id).isSome := by
    refine List.find?_isSome.2 ⟨session, hmem, ?_⟩
    simp [hactive]
  obtain ⟨row, hrow⟩ := Option.isSome_iff_exists.1 hsome
  obtain ⟨hmem', hid, -⟩ := mem_of_findActiveSessionById hrow
  rw [hrow, List.inj_on_of_nodup_map hdb.sessionIds hmem' hmem hid]

theorem findSessionByRefreshTokenHash_of_mem (hs : Sound db) (hmem : session ∈ db.sessions) :
    db.findSessionByRefreshTokenHash session.refreshTokenHash = some session := by
  have hsome : (db.findSessionByRefreshTokenHash session.refreshTokenHash).isSome := by
    exact List.find?_isSome.2 ⟨session, hmem, decide_eq_true rfl⟩
  obtain ⟨row, hrow⟩ := Option.isSome_iff_exists.1 hsome
  have hmem' := List.mem_of_find?_eq_some hrow
  have hhash : row.refreshTokenHash = session.refreshTokenHash := by
    simpa using List.find?_some hrow
  rw [hrow, hs.chain.session_inj hs.keys hmem' hmem hhash]

/-- The current token of a session has an unused row. -/
theorem exists_unused (hs : Sound db) (hmem : session ∈ db.sessions) :
    ∃ row ∈ db.refreshTokens, row.sessionId = session.id ∧ row.usedAt = none ∧
      row.tokenHash = session.refreshTokenHash := by
  obtain ⟨row, hrow, hhash⟩ := hs.chain.current session hmem
  have hmem : row ∈ db.refreshTokens.filter
      (fun t => t.sessionId == session.id && t.usedAt.isNone) := by
    rw [hrow]
    exact List.mem_singleton_self _
  obtain ⟨hmem, hfields⟩ := List.mem_filter.1 hmem
  have hfields : row.sessionId = session.id ∧ row.usedAt = none := by simpa using hfields
  exact ⟨row, hmem, hfields.1, hfields.2, hhash⟩

/-- The current token of an active session is rotated. -/
theorem rotateRefreshTokenTx_ok {input : RotateRefreshTokenInput} (hs : Sound db)
    (hmem : session ∈ db.sessions) (hactive : session.revokedAt = none)
    (hcurrent : session.refreshTokenHash = input.currentTokenHash)
    (htoken : ∀ t ∈ db.refreshTokens, t.id ≠ stamp.tokenId)
    (hhash : ∀ t ∈ db.refreshTokens, t.tokenHash ≠ input.newTokenHash) :
    ∃ r db', (rotateRefreshTokenTx session.id input stamp).run db = .ok (r, db') := by
  have hfind := AuthDb.findSession_of_mem hs.keys.sessionIds hmem
  have hrevoked : ¬ session.revokedAt.isSome = true := by simp [hactive]
  obtain ⟨account, haccount⟩ := Option.isSome_iff_exists.1 (hs.keys.accounts session hmem)
  obtain ⟨row, hrow, hid, hunused, hrowhash⟩ := exists_unused hs hmem
  have hsome : (db.findUnusedToken session.id input.currentTokenHash).isSome := by
    refine List.find?_isSome.2 ⟨row, hrow, ?_⟩
    simp [hid, hunused, hrowhash, hcurrent]
  obtain ⟨token, hfound⟩ := Option.isSome_iff_exists.1 hsome
  have htoken' : ∀ t ∈ (db.saveUsed token.id stamp.now).refreshTokens, t.id ≠ stamp.tokenId := by
    intro t ht
    obtain ⟨t', ht', rfl⟩ := mem_updateWhere.1 ht
    split <;> exact htoken t' ht'
  have hhash' : ∀ t ∈ (db.saveUsed token.id stamp.now).refreshTokens,
      t.tokenHash ≠ input.newTokenHash := by
    intro t ht
    obtain ⟨t', ht', rfl⟩ := mem_updateWhere.1 ht
    split <;> exact hhash t' ht'
  simp only [rotateRefreshTokenTx, rotateRefreshTokenTx.locked, lockAccount, Tx.bind_eq,
    Tx.acquire_bind, Tx.query_bind, Tx.lock_bind, Tx.read_bind, Tx.run_lock, Tx.run_read, hfind,
    if_neg hrevoked, haccount, Tx.pure_bind, if_neg (not_not_intro hcurrent), hfound,
    Tx.update_bind, Tx.run_write]
  rw [AuthDb.insertRefreshToken_eq_ok_iff.2 ⟨htoken', hhash', rfl⟩]
  exact ⟨_, _, rfl⟩

end

/-! ### The session -/

/-- The session of the account is active and cached, and this is its token. -/
structure Current (config : AuthConfig) (deadline : ℕ) (s : AuthState)
    (account : AccountRecord) (session : AuthSessionRecord) (token : String) : Prop where
  sound : Sound s.db
  byId : s.db.findAccountById account.id = some account
  mem : session ∈ s.db.sessions
  owner : session.userId = account.id
  active : session.revokedAt = none
  current : session.refreshTokenHash = config.hashToken token
  expires : deadline ≤ session.expiresAt
  cached : Holds session.expiresAt s (.session session.id)
    ⟨session.id, account.id, account.role.value, session.expiresAt, true⟩

namespace Current

variable {account : AccountRecord} {session : AuthSessionRecord} {token : String}

theorem carried {s₁ : AuthState} (h : Current config deadline s account session token)
    (hs₁ : Waited s s₁) : Current config deadline s₁ account session token where
  sound := hs₁.db ▸ h.sound
  byId := by rw [hs₁.db, h.byId]
  mem := hs₁.db ▸ h.mem
  owner := h.owner
  active := h.active
  current := h.current
  expires := h.expires
  cached := h.cached.carried hs₁ trivial

end Current

section

open AuthSessionService RedisAuthStateService

variable {account : AccountRecord} {session : AuthSessionRecord} {token : String}

theorem findActiveSessionById_returns {id : String} :
    (authRepository (.findActiveSessionById id)).Returns config deadline
      (fun outs (row : Option AuthSessionRecord) s₁ => outs = [] ∧
        row = s.db.findActiveSessionById id ∧ Waited s s₁) s :=
  returns_query (c := .findActiveSessionById id) (fun _ => rfl)
    fun _ hs₁ => ⟨rfl, congrArg (AuthDb.findActiveSessionById id) hs₁.db, hs₁⟩

theorem findSessionByRefreshTokenHash_returns {hash : String} :
    (authRepository (.findSessionByRefreshTokenHash hash)).Returns config deadline
      (fun outs (row : Option AuthSessionRecord) s₁ => outs = [] ∧
        row = s.db.findSessionByRefreshTokenHash hash ∧ Waited s s₁) s :=
  returns_query (c := .findSessionByRefreshTokenHash hash) (fun _ => rfl)
    fun _ hs₁ => ⟨rfl, congrArg (AuthDb.findSessionByRefreshTokenHash hash) hs₁.db, hs₁⟩

theorem findRefreshTokenHistoryByHash_returns {hash : String} :
    (authRepository (.findRefreshTokenHistoryByHash hash)).Returns config deadline
      (fun outs (row : Option SessionRefreshTokenRecord) s₁ => outs = [] ∧
        row = s.db.findRefreshTokenHistoryByHash hash ∧ Waited s s₁) s :=
  returns_query (c := .findRefreshTokenHistoryByHash hash) (fun _ => rfl)
    fun _ hs₁ => ⟨rfl, congrArg (AuthDb.findRefreshTokenHistoryByHash hash) hs₁.db, hs₁⟩

theorem rotate_returns (h : Current config deadline s account session token)
    (hlater : deadline ≤ s.redis.now + SESSION_TTL_MS) :
    (rotate config (config.hashToken token) session account).Returns config deadline
      (fun outs tokens s₁ => outs = [] ∧ s.redis.now ≤ s₁.redis.now ∧ ∃ session',
        session'.id = session.id ∧
        Current config deadline s₁ account session' tokens.refreshToken) s := by
  refine generate_returns.bind fun outs next s₁ h₁ => ?_
  obtain ⟨rfl, -, hfresh, hs₁⟩ := h₁
  refine now_returns.bind fun outs now s₂ h₂ => ?_
  obtain ⟨rfl, rfl, -, hs₂⟩ := h₂
  have hs₂' : Waited s s₂ := hs₁.trans hs₂
  have hrotate : (authRepository (.rotateRefreshToken session.id ⟨config.hashToken token,
      config.hashToken next, s₂.redis.now + SESSION_TTL_MS⟩)).Returns config deadline
      (fun outs (rotated : CreateExclusiveSessionResult) s₃ => outs = [] ∧
        Sound s₃.db ∧ s₃.db.users = s₂.db.users ∧ s₂.redis.now ≤ s₃.redis.now ∧
        rotated.session ∈ s₃.db.sessions ∧ ∃ rotatedAt, rotated.session = { session with
          refreshTokenHash := config.hashToken next
          expiresAt := s₂.redis.now + SESSION_TTL_MS
          lastRotatedAt := rotatedAt }) s₂ := by
    refine returns_authRepository (c := .rotateRefreshToken session.id _)
      fun s₃ stamp hs₃ _ htoken => ?_
    have h := h.carried (hs₂'.trans hs₃)
    have hhash : ∀ t ∈ s₃.db.refreshTokens, t.tokenHash ≠ config.hashToken next := by
      rw [hs₃.db, hs₂.db]
      exact hfresh
    have hok : ∃ rotated db', (rotateRefreshTokenTx session.id ⟨config.hashToken token,
        config.hashToken next, s₂.redis.now + SESSION_TTL_MS⟩ stamp).run s₃.db =
          .ok (rotated, db') :=
      rotateRefreshTokenTx_ok h.sound h.mem h.active h.current htoken hhash
    obtain ⟨rotated, db', hrun⟩ := hok
    obtain ⟨found, row, hrotated⟩ := rotateRefreshTokenTx_run hrun
    have hfound := hrotated.find
    rw [AuthDb.findSession_of_mem h.sound.keys.sessionIds h.mem] at hfound
    obtain rfl := Option.some.inj hfound
    have hsound : Sound db' := Sound.run
      (c := .rotateRefreshToken session.id _) h.sound hrun
    obtain ⟨saved, hsaved, hfields⟩ := AuthDb.mem_saveRotated rotated.session h.mem
    refine ⟨rotated, db', hrun, rfl, hsound, ?_, hs₃.now, ?_, stamp.now, hrotated.session⟩
    · rw [hrotated.result, ← hs₃.db]
    · have heq : saved = rotated.session := by
        rw [hfields, hrotated.session, if_pos rfl]
      rw [hrotated.result]
      exact heq ▸ hsaved
  refine hrotate.bind fun outs rotated s₃ h₃ => ?_
  obtain ⟨rfl, hsound, husers, hnow₃, hmem, rotatedAt, hrotated⟩ := h₃
  refine setSessionCache_returns.bind fun outs _ s₄ h₄ => ?_
  obtain ⟨rfl, hcached, hs₄⟩ := h₄
  refine now_returns.bind fun outs issuedAt s₅ h₅ => ?_
  obtain ⟨rfl, -, -, hs₅⟩ := h₅
  have hdb : s₅.db = s₃.db := hs₅.db.trans hs₄.db
  have hnow : s.redis.now ≤ s₂.redis.now := hs₂'.now
  refine Throwing.returns_pure ⟨rfl, Nat.le_trans hnow (Nat.le_trans hnow₃
    (Nat.le_trans hs₄.now hs₅.now)), rotated.session, by rw [hrotated], ?_⟩
  refine ⟨hdb ▸ hsound, ?_, hdb ▸ hmem, ?_, ?_, ?_, ?_, hcached.carried hs₅ trivial⟩
  · have haccount := (h.carried hs₂').byId
    rw [AuthDb.findAccountById, ← husers] at haccount
    rw [hdb]
    exact haccount
  · rw [hrotated]
    exact h.owner
  · rw [hrotated]
    exact h.active
  · rw [hrotated]
  · rw [hrotated]
    exact Nat.le_trans hlater (Nat.add_le_add_right hnow _)

theorem refresh_returns (h : Current config deadline s account session token)
    (hlater : deadline ≤ s.redis.now + SESSION_TTL_MS) :
    (AuthSessionService.refresh config token).Returns config deadline
      (fun outs tokens s₁ => outs = [] ∧ s.redis.now ≤ s₁.redis.now ∧ ∃ session',
        session'.id = session.id ∧
        Current config deadline s₁ account session' tokens.refreshToken) s := by
  obtain ⟨row, hrow, hid, hunused, hhash⟩ := exists_unused h.sound h.mem
  have hhistory : s.db.findRefreshTokenHistoryByHash (config.hashToken token) = some row := by
    rw [← h.current, ← hhash]
    exact find?_key h.sound.chain.hashes hrow
  refine findRefreshTokenHistoryByHash_returns.bind fun outs history s₁ h₁ => ?_
  obtain ⟨rfl, rfl, hs₁⟩ := h₁
  rw [hhistory]
  dsimp only
  have hnotused : ¬ row.usedAt.isSome = true := by simp [hunused]
  rw [if_neg hnotused]
  refine findActiveSessionById_returns.bind fun outs found s₂ h₂ => ?_
  obtain ⟨rfl, hfound, hs₂⟩ := h₂
  rw [hs₁.db, hid, findActiveSessionById_of_mem h.sound.keys h.mem h.active] at hfound
  subst hfound
  dsimp only
  refine now_returns.bind fun outs now s₃ h₃ => ?_
  obtain ⟨rfl, -, hnow, hs₃⟩ := h₃
  have hvalid : ¬ (session.expiresAt ≤ now ∨
      session.refreshTokenHash ≠ config.hashToken token) := by
    rw [not_or, not_not]
    exact ⟨Nat.not_le.2 (Nat.lt_of_lt_of_le hnow h.expires), h.current⟩
  rw [if_neg hvalid]
  refine findAccountById_returns.bind fun outs owner s₄ h₄ => ?_
  obtain ⟨rfl, howner, hs₄⟩ := h₄
  have hs₃ : Waited s s₃ := (hs₁.trans hs₂).trans hs₃
  rw [hs₃.db, h.owner, h.byId] at howner
  subst howner
  have hs₄ : Waited s s₄ := hs₃.trans hs₄
  refine (rotate_returns (h.carried hs₄)
    (Nat.le_trans hlater (Nat.add_le_add_right hs₄.now _))).mono fun outs tokens s₅ h₅ => ?_
  obtain ⟨rfl, hnow, hsession⟩ := h₅
  exact ⟨rfl, Nat.le_trans hs₄.now hnow, hsession⟩

theorem logout_returns (h : Current config deadline s account session token) :
    (logout config token).Returns config deadline
      (fun outs _ s₁ => outs = [] ∧ s₁.redis.get (.session session.id) = none ∧
        s₁.db.findActiveSessionById session.id = none) s := by
  refine findSessionByRefreshTokenHash_returns.bind fun outs found s₁ h₁ => ?_
  obtain ⟨rfl, hfound, hs₁⟩ := h₁
  rw [← h.current, findSessionByRefreshTokenHash_of_mem h.sound h.mem] at hfound
  subst hfound
  have hactive : ¬ session.revokedAt.isSome = true := by simp [h.active]
  dsimp only
  rw [if_neg hactive]
  have hrevoke : (authRepository (.revokeSession session.id .logout)).Returns config deadline
      (fun outs _ s₂ => outs = [] ∧ s₂.db.findActiveSessionById session.id = none) s₁ := by
    refine returns_authRepository (c := .revokeSession session.id .logout)
      fun s₂ stamp hs₂ _ _ => ?_
    have h := h.carried (hs₁.trans hs₂)
    have hok : ∃ db', (revokeSessionTx session.id .logout stamp).run s₂.db = .ok ((), db') :=
      revokeSessionTx_total h.sound.keys .logout stamp
    obtain ⟨db', hrun⟩ := hok
    have hsound : Sound db' := Sound.run (c := .revokeSession session.id .logout) h.sound hrun
    have hended := ((revokeSessionTx_run hrun).revokedFor h.sound.keys
      ⟨session, h.mem, rfl, h.active⟩).ended
    exact ⟨(), db', hrun, rfl, findActiveSessionById_eq_none hsound.keys hended⟩
  refine hrevoke.bind fun outs _ s₂ h₂ => ?_
  obtain ⟨rfl, hnone⟩ := h₂
  refine returns_redis (c := .del (.session session.id)) fun s₃ hs₃ _ => ⟨rfl, ?_, ?_⟩
  · exact Store.get_del_self _ _
  · change s₃.db.findActiveSessionById session.id = none
    rw [hs₃.db, hnone]

end

/-! ### Refreshing and logging out -/

/-- A client that refreshes `n` times, each time with the token of the refresh before. -/
def refreshes (config : AuthConfig) : ℕ → String → AuthProgram String
  | 0, token => return token
  | n + 1, token => do
      let tokens ← AuthService.refresh config token
      refreshes config n tokens.refreshToken

section

variable {account : AccountRecord} {session : AuthSessionRecord} {token : String}

theorem refreshes_returns (n : ℕ) (h : Current config deadline s account session token)
    (hlater : deadline ≤ s.redis.now + SESSION_TTL_MS) :
    (refreshes config n token).Returns config deadline
      (fun outs last s₁ => outs = [] ∧ ∃ session', session'.id = session.id ∧
        Current config deadline s₁ account session' last) s := by
  induction n generalizing s session token with
  | zero => exact Throwing.returns_pure ⟨rfl, session, rfl, h⟩
  | succ n ih =>
      have hrefresh : (AuthService.refresh config token).Returns config deadline
          (fun outs tokens s₁ => outs = [] ∧ s.redis.now ≤ s₁.redis.now ∧ ∃ session',
            session'.id = session.id ∧
            Current config deadline s₁ account session' tokens.refreshToken) s :=
        Throwing.Returns.tryCatch (Throwing.Returns.tryCatch ((refresh_returns h hlater).bind
          fun outs tokens s₁ h₁ => by
            obtain ⟨rfl, hnow, hsession⟩ := h₁
            exact Throwing.returns_pure ⟨rfl, hnow, hsession⟩))
      refine hrefresh.bind fun outs tokens s₁ h₁ => ?_
      obtain ⟨rfl, hnow, session', hid, h'⟩ := h₁
      rw [← hid]
      exact ih h' (Nat.le_trans hlater (Nat.add_le_add_right hnow _))

theorem LoggedIn.current {login : CompletedLogin} (h : LoggedIn config s account login session)
    (hs : Sound s.db) (hid : s.db.findAccountById account.id = some account)
    (hdeadline : deadline ≤ session.expiresAt) :
    Current config deadline s account session login.refreshToken where
  sound := hs
  byId := hid
  mem := h.active.1
  owner := h.active.2.1
  active := h.active.2.2
  current := h.refreshToken
  expires := hdeadline
  cached := h.cached

theorem validateSession_returns_none {sessionId : String}
    (hcache : s.redis.get (.session sessionId) = none)
    (hrow : s.db.findActiveSessionById sessionId = none) :
    (AuthSessionService.validateSession sessionId).Returns config deadline
      (fun outs principal _ => outs = [] ∧ principal = none) s := by
  have hread : (AuthSessionService.readSessionCache sessionId).Returns config deadline
      (fun outs cached s₁ => outs = [] ∧ cached = none ∧ Waited s s₁) s :=
    Throwing.Returns.tryCatch (returns_redis (c := .get (.session sessionId))
      fun s₁ hs₁ _ => ⟨rfl, hs₁.get_eq_none trivial hcache, hs₁⟩)
  refine hread.bind fun outs cached s₁ h₁ => ?_
  obtain ⟨rfl, rfl, hs₁⟩ := h₁
  refine findActiveSessionById_returns.bind fun outs row s₂ h₂ => ?_
  obtain ⟨rfl, hfound, -⟩ := h₂
  rw [hs₁.db, hrow] at hfound
  subst hfound
  exact Throwing.returns_pure ⟨rfl, rfl⟩

/-- A session lives until its logout: after a login, any number of refreshes, each with the
token of the one before, return a token; then the session is valid; and after the logout with
the last token it is not. -/
theorem session_lasts {login : CompletedLogin} (n : ℕ)
    (h : LoggedIn config s account login session) (hs : Sound s.db)
    (hid : s.db.findAccountById account.id = some account)
    (hdeadline : deadline ≤ session.expiresAt)
    (hlater : deadline ≤ s.redis.now + SESSION_TTL_MS) :
    (refreshes config n login.refreshToken).Returns config deadline (fun outs last s₁ =>
      outs = [] ∧
      (AuthSessionService.validateSession session.id).Returns config deadline
        (fun outs principal s₂ => outs = [] ∧
          principal = some ⟨account.id, account.role.value, session.id⟩ ∧
          (AuthSessionService.logout config last).Returns config deadline (fun outs _ s₃ =>
            outs = [] ∧
            (AuthSessionService.validateSession session.id).Returns config deadline
              (fun outs principal _ => outs = [] ∧ principal = none) s₃) s₂) s₁) s := by
  refine (refreshes_returns n (h.current hs hid hdeadline) hlater).mono
    fun outs last s₁ h₁ => ?_
  obtain ⟨houts, session', hsession, hcurrent⟩ := h₁
  rw [← hsession]
  refine ⟨houts, (validateSession_returns ⟨session'.id, account.id, account.role.value,
    session'.expiresAt, true⟩ rfl hcurrent.cached hcurrent.expires).mono
      fun outs principal s₂ h₂ => ?_⟩
  obtain ⟨houts, hprincipal, hs₂⟩ := h₂
  refine ⟨houts, hprincipal, (logout_returns (hcurrent.carried hs₂)).mono
    fun outs _ s₃ h₃ => ?_⟩
  obtain ⟨houts, hcache, hrow⟩ := h₃
  exact ⟨houts, validateSession_returns_none hcache hrow⟩

end

/-! ### The access token -/

/-- `verify` accepts what `sign` has made of these claims until the lifetime in seconds is over,
with the claims and the two instants that `sign` adds, and the token has no white space. -/
structure Verifies (config : AuthConfig) (jwt : JwtConfig) (claims : AccessTokenClaims)
    (issuedAt : ℕ) : Prop where
  verify : ∀ now, issuedAt ≤ now → now / 1000 < issuedAt / 1000 + ACCESS_TOKEN_TTL_SECONDS →
    jwt.verify (config.signAccessToken claims issuedAt) now = some (.object
      [("sub", .string claims.sub), ("role", .string claims.role),
        ("sessionId", .string claims.sessionId), ("iat", .number (issuedAt / 1000 : ℕ)),
        ("exp", .number (issuedAt / 1000 + ACCESS_TOKEN_TTL_SECONDS : ℕ))])
  plain : ∀ c ∈ (config.signAccessToken claims issuedAt).toList, isWhiteSpace c = false
  nonempty : (config.signAccessToken claims issuedAt).toList ≠ []

section

open AuthSessionGuard

variable {jwt : JwtConfig} {issuedAt : ℕ}

theorem bearerToken_of_plain {token : String}
    (hplain : ∀ c ∈ token.toList, isWhiteSpace c = false) (hnonempty : token.toList ≠ []) :
    bearerToken (some ("Bearer " ++ token)) = some token := by
  have hprefix : "Bearer ".toList.isPrefixOf ("Bearer " ++ token).toList = true := by
    rw [String.toList_append]
    exact List.isPrefixOf_iff_prefix.2 (List.prefix_append _ _)
  rw [bearerToken]
  dsimp only
  rw [if_pos hprefix, String.toList_append, List.drop_left, trim_eq_self hplain,
    if_neg hnonempty, String.ofList_toList]

theorem verifyAccessToken_of_signed {claims : AccessTokenClaims} {now : ℕ}
    (hjwt : Verifies config jwt claims issuedAt) (hissued : issuedAt ≤ now)
    (hnow : now / 1000 < issuedAt / 1000 + ACCESS_TOKEN_TTL_SECONDS) :
    ∃ payload, verifyAccessToken jwt (config.signAccessToken claims issuedAt) now = some payload ∧
      payload.sub = claims.sub ∧ payload.role = claims.role ∧
      payload.sessionId = claims.sessionId := by
  refine ⟨⟨claims.sub, claims.role, claims.sessionId, (issuedAt / 1000 : ℕ),
    (issuedAt / 1000 + ACCESS_TOKEN_TTL_SECONDS : ℕ)⟩, ?_, rfl, rfl, rfl⟩
  rw [verifyAccessToken, hjwt.verify now hissued hnow]
  rfl

/-- The guard admits the access token of a login for its account, until the token or the
session expires. -/
theorem guard_admits_login {account : AccountRecord} {session : AuthSessionRecord}
    {login : CompletedLogin}
    (hjwt : Verifies config jwt ⟨account.id, account.role.value, session.id⟩ issuedAt)
    (h : LoggedIn config s account login session)
    (htoken : login.accessToken =
      config.signAccessToken ⟨account.id, account.role.value, session.id⟩ issuedAt)
    (hissued : issuedAt ≤ s.redis.now)
    (hexpires : deadline ≤ 1000 * (issuedAt / 1000 + ACCESS_TOKEN_TTL_SECONDS))
    (hdeadline : deadline ≤ session.expiresAt) :
    (canActivate jwt (some ("Bearer " ++ login.accessToken))).Returns config deadline
      (fun outs principal s₁ => outs = [] ∧
        principal = some ⟨account.id, account.role.value, session.id⟩ ∧ Waited s s₁) s := by
  rw [canActivate, htoken, bearerToken_of_plain hjwt.plain hjwt.nonempty]
  dsimp only
  refine now_returns.bind fun outs now s₁ h₁ => ?_
  obtain ⟨rfl, rfl, hnow, hs₁⟩ := h₁
  obtain ⟨payload, hpayload, hsub, hrole, hsession⟩ :=
    verifyAccessToken_of_signed hjwt (Nat.le_trans hissued hs₁.now)
      (Nat.div_lt_of_lt_mul (Nat.lt_of_lt_of_le hnow hexpires))
  rw [hpayload]
  dsimp only
  rw [matchPrincipal, hsession]
  refine (validateSession_returns ⟨session.id, account.id, account.role.value,
    session.expiresAt, true⟩ rfl (h.cached.carried hs₁ trivial) hdeadline).bind
      fun outs principal s₂ h₂ => ?_
  obtain ⟨rfl, rfl, hs₂⟩ := h₂
  dsimp only
  rw [hsub, hrole, if_neg (by simp)]
  exact Throwing.returns_pure ⟨rfl, rfl, hs₁.trans hs₂⟩

end

def exampleSession : AuthSessionRecord :=
  ⟨"s", "u", "#t", "#c", SESSION_TTL_MS, none, none, 0, 0⟩

/-- The account has logged in. -/
def afterExampleLogin : AuthState where
  db := ⟨[exampleUser], [exampleSession], [⟨"h", "s", "#t", 0, none, SESSION_TTL_MS⟩]⟩
  redis := (Store.empty 0).set (.session "s")
    (⟨"s", "u", "USER", SESSION_TTL_MS, true⟩ : SessionCacheRecord) SESSION_TTL_MS

theorem afterExampleLogin_sound : Sound afterExampleLogin.db := by
  have hrun : (AuthCommand.impl (.createExclusiveSession "u" ⟨"#t", "#c", SESSION_TTL_MS⟩)
      ⟨0, 0, 0, "s", "h"⟩).run ⟨[exampleUser], [], []⟩ =
        .ok (⟨exampleSession, ⟨"h", "s", "#t", 0, none, SESSION_TTL_MS⟩, []⟩,
          afterExampleLogin.db) := rfl
  exact (sound_init [exampleUser]).run hrun

def exampleTokens : CompletedLogin := ⟨"s", ACCESS_TOKEN_TTL_SECONDS, "c", "t"⟩

theorem afterExampleLogin_loggedIn : LoggedIn exampleConfig afterExampleLogin exampleUser
    exampleTokens exampleSession where
  active := ⟨List.mem_singleton_self _, rfl, rfl⟩
  only := fun x hx _ _ => List.mem_singleton.1 hx
  refreshToken := by decide
  csrfToken := by decide
  accessToken := ⟨0, rfl⟩
  cached := ⟨_, Store.cell_set_self _ _ _, by decide⟩

theorem exampleSession_lasts :
    (refreshes exampleConfig 30 exampleTokens.refreshToken).Returns exampleConfig SESSION_TTL_MS
      (fun outs last s₁ => outs = [] ∧
        (AuthSessionService.validateSession exampleSession.id).Returns exampleConfig
          SESSION_TTL_MS (fun outs principal s₂ => outs = [] ∧
            principal = some ⟨exampleUser.id, exampleUser.role.value, exampleSession.id⟩ ∧
            (AuthSessionService.logout exampleConfig last).Returns exampleConfig SESSION_TTL_MS
              (fun outs _ s₃ => outs = [] ∧
                (AuthSessionService.validateSession exampleSession.id).Returns exampleConfig
                  SESSION_TTL_MS (fun outs principal _ => outs = [] ∧ principal = none) s₃)
              s₂) s₁) afterExampleLogin :=
  session_lasts 30 afterExampleLogin_loggedIn afterExampleLogin_sound rfl (Nat.le_refl _)
    (by decide)

def exampleVerifier : JwtConfig where
  verify token now :=
    if token = "s" ∧ now / 1000 < ACCESS_TOKEN_TTL_SECONDS then
      some (.object [("sub", .string "u"), ("role", .string "USER"), ("sessionId", .string "s"),
        ("iat", .number 0), ("exp", .number 900)])
    else none

theorem exampleVerifier_verifies : Verifies exampleConfig exampleVerifier
    ⟨exampleUser.id, exampleUser.role.value, exampleSession.id⟩ 0 where
  verify := fun now _ hnow => if_pos ⟨rfl, by simpa using hnow⟩
  plain := by
    intro c hc
    have hlist : "s".toList = ['s'] := by decide
    obtain rfl : c = 's' := List.mem_singleton.1 (hlist ▸ hc)
    rfl
  nonempty := by decide

theorem exampleVerifier_admits :
    (AuthSessionGuard.canActivate exampleVerifier
      (some ("Bearer " ++ exampleTokens.accessToken))).Returns exampleConfig 900000
      (fun outs principal s₁ => outs = [] ∧
        principal = some ⟨exampleUser.id, exampleUser.role.value, exampleSession.id⟩ ∧
        Waited afterExampleLogin s₁) afterExampleLogin :=
  guard_admits_login exampleVerifier_verifies afterExampleLogin_loggedIn rfl (by decide)
    (by decide) (by decide)

end Auth

end Shortlink
