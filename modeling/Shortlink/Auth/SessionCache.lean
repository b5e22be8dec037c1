import Shortlink.Auth.Revocation
import Shortlink.Auth.Serial

/-!
# The session cache agrees with the tables in serial runs

Every visible session entry says what the tables say about its session. A call
that changes the row of a session deletes its entry or writes it anew before it
ends; in between, the entries of the sessions it has touched are excepted
(`Agrees db ids`).
-/

namespace Shortlink

namespace Auth

open Shortlink.Storage Shortlink.Table Shortlink.Transaction
open Shortlink.Interaction Shortlink.Expiring AuthProgram

/-- The owner and the role of a session that is neither revoked nor expired. -/
def databaseAnswer (db : AuthDb) (sessionId : String) (now : ℕ) :
    Option AuthPrincipal :=
  match db.findSession sessionId with
  | none => none
  | some session =>
      if session.revokedAt.isSome ∨ session.expiresAt ≤ now then none
      else (db.findAccountById session.userId).map fun account =>
        ⟨account.id, account.role.value, session.id⟩

/-- What an entry must say about a session. -/
def Cacheable (db : AuthDb) (sessionId : String) (cached : SessionCacheRecord) :
    Prop :=
  cached.sessionId = sessionId ∧ cached.active = true ∧
    ∃ row ∈ db.sessions, row.id = sessionId ∧ row.revokedAt = none ∧
      cached.expiresAt = row.expiresAt ∧ cached.userId = row.userId ∧
      (db.findAccountById row.userId).map (·.role.value) = some cached.role

/-- The tables are `db`, and the visible entries of the sessions other than `ids`
agree with them. -/
structure Agrees (db : AuthDb) (ids : List String) (s : AuthState) : Prop where
  tables : s.db = db
  entry : ∀ id cached, id ∉ ids → s.redis.get (.session id) = some cached →
    Cacheable db id cached

theorem Agrees.idled {db : AuthDb} {ids : List String} {s s' : AuthState}
    (h : Agrees db ids s) (hidle : Idled s s') : Agrees db ids s' :=
  ⟨hidle.db.trans h.tables, fun id cached hid hget =>
    h.entry id cached hid (hidle.entry _ _ hget)⟩

theorem Agrees.mono {db : AuthDb} {ids ids' : List String} {s : AuthState}
    (h : Agrees db ids s) (hids : ∀ id ∈ ids, id ∈ ids') : Agrees db ids' s :=
  ⟨h.tables, fun id cached hid hget => h.entry id cached (fun h => hid (hids id h)) hget⟩

/-! ### The tables -/

section

variable {db db' : AuthDb} {sessionId : String} {cached : SessionCacheRecord}

theorem databaseAnswer_of_cacheable (hdb : Keys db)
    (h : Cacheable db sessionId cached) (now : ℕ) :
    databaseAnswer db sessionId now =
      if cached.expiresAt ≤ now then none
      else some ⟨cached.userId, cached.role, cached.sessionId⟩ := by
  obtain ⟨rfl, -, row, hrow, hid, hactive, hexpires, howner, hrole⟩ := h
  have hfind : db.findSession cached.sessionId = some row :=
    hid ▸ AuthDb.findSession_of_mem hdb.sessionIds hrow
  obtain ⟨account, haccount, hvalue⟩ := Option.map_eq_some_iff.1 hrole
  have haccountId : account.id = row.userId := by simpa using List.find?_some haccount
  simp [databaseAnswer, hfind, hactive, hexpires, haccount, haccountId, howner,
    hvalue, hid]

theorem databaseAnswer_of_not_found
    (h : db.findActiveSessionById sessionId = none) (now : ℕ) :
    databaseAnswer db sessionId now = none := by
  rw [databaseAnswer]
  cases hfind : db.findSession sessionId with
  | none => rfl
  | some row =>
      obtain ⟨hrow, hid⟩ := AuthDb.mem_of_findSession hfind
      have hrevoked : row.revokedAt.isSome := by
        have := List.find?_eq_none.1 h row hrow
        simpa [hid, Option.isSome_iff_ne_none] using this
      simp [hrevoked]

theorem databaseAnswer_of_found (hdb : Keys db) {row : AuthSessionRecord}
    (h : db.findActiveSessionById sessionId = some row) (now : ℕ) :
    databaseAnswer db sessionId now = if row.expiresAt ≤ now then none
      else (db.findAccountById row.userId).map fun account =>
        ⟨account.id, account.role.value, row.id⟩ := by
  obtain ⟨hrow, rfl, hactive⟩ := mem_of_findActiveSessionById h
  simp [databaseAnswer, AuthDb.findSession_of_mem hdb.sessionIds hrow, hactive]

/-- The entry that `createSessionAfterLogin`, `refresh` and `validateSession`
write. -/
theorem cacheable_of_row {row : AuthSessionRecord} {role : String}
    (hrow : row ∈ db.sessions) (hactive : row.revokedAt = none)
    (hrole : (db.findAccountById row.userId).map (·.role.value) = some role) :
    Cacheable db row.id ⟨row.id, row.userId, role, row.expiresAt, true⟩ :=
  ⟨rfl, rfl, row, hrow, rfl, hactive, rfl, rfl, hrole⟩

theorem SessionCreated.cacheable {userId role : String}
    {sessionData : CreateExclusiveSessionInput} {stamp : Stamp}
    {created : CreateExclusiveSessionResult}
    (h : SessionCreated userId sessionData stamp db created db')
    (hrole : (db.findAccountById userId).map (·.role.value) = some role) :
    Cacheable db' created.session.id
      ⟨created.session.id, userId, role, created.session.expiresAt, true⟩ := by
  have howner : created.session.userId = userId := by rw [h.session]
  have hactive : created.session.revokedAt = none := by rw [h.session]
  have hmem : created.session ∈ db'.sessions := by
    rw [h.result]
    exact List.mem_append_right _ (List.mem_singleton_self _)
  have hrole' : (db'.findAccountById created.session.userId).map (·.role.value) =
      some role := by
    rw [howner, h.result]
    exact hrole
  exact howner ▸ cacheable_of_row hmem hactive hrole'

theorem TokenRotated.cacheable {sessionId : String} {input : RotateRefreshTokenInput}
    {stamp : Stamp} {rotated : CreateExclusiveSessionResult} {account : AccountRecord}
    {session : AuthSessionRecord} {token : SessionRefreshTokenRecord}
    (h : TokenRotated sessionId input stamp db rotated db' session token)
    (haccount : db.findAccountById session.userId = some account) :
    Cacheable db' rotated.session.id ⟨rotated.session.id, account.id,
      account.role.value, rotated.session.expiresAt, true⟩ := by
  obtain ⟨hrow, hid⟩ := AuthDb.mem_of_findSession h.find
  have howner : rotated.session.userId = account.id := by
    rw [h.session]
    exact Eq.symm (by simpa using List.find?_some haccount)
  have hactive : rotated.session.revokedAt = none := by rw [h.session]; exact h.active
  have hmem : rotated.session ∈ db'.sessions := by
    rw [h.result]
    refine mem_updateWhere.2 ⟨session, hrow, ?_⟩
    simp [h.session]
  have hrole : (db'.findAccountById rotated.session.userId).map (·.role.value) =
      some account.role.value := by
    rw [h.session, h.result]
    exact congrArg (Option.map (·.role.value)) haccount
  exact howner ▸ cacheable_of_row hmem hactive hrole

/-- The sessions whose rows a method changes or inserts. -/
def AuthCommand.touched : (c : AuthCommand) → c.Res → List String
  | .createExclusiveSession _ _, created =>
      created.revokedSessionIds ++ [created.session.id]
  | .rotateRefreshToken sessionId _, _ => [sessionId]
  | .revokeSession sessionId _, _ => [sessionId]
  | .revokeAllSessions _ _, ids => ids
  | .findAccountByEmail _, _ => []
  | .findAccountById _, _ => []
  | .findActiveSessionById _, _ => []
  | .findSessionByRefreshTokenHash _, _ => []
  | .findRefreshTokenHistoryByHash _, _ => []

/-- The row of a session that a transaction does not touch. -/
theorem AuthCommand.impl_untouched {c : AuthCommand} {stamp : Stamp} {a : c.Res}
    (hrun : (c.impl stamp).run db = .ok (a, db')) {row : AuthSessionRecord}
    (hrow : row ∈ db.sessions) (hid : row.id ∉ c.touched a) : row ∈ db'.sessions := by
  have hrevoked : ∀ (ids : List String) (now : ℕ) (reason : SessionRevocationReason),
      row.id ∉ ids → row ∈ (db.saveRevoked ids now reason).sessions :=
    fun ids now reason hid => mem_updateWhere_of_not hrow (by simpa using hid)
  have hread : db' = db → row ∈ db'.sessions := fun h => h ▸ hrow
  cases c with
  | createExclusiveSession userId sessionData =>
      have hcreated := createExclusiveSessionTx_run hrun
      rw [AuthCommand.touched, List.mem_append, not_or, hcreated.revoked] at hid
      rw [hcreated.result]
      exact List.mem_append_left _ (hrevoked _ _ _ hid.1)
  | rotateRefreshToken sessionId input =>
      obtain ⟨session, token, hrot⟩ := rotateRefreshTokenTx_run hrun
      obtain ⟨-, hsession⟩ := AuthDb.mem_of_findSession hrot.find
      rw [hrot.result]
      refine mem_updateWhere_of_not hrow ?_
      rw [hrot.session]
      simpa [AuthCommand.touched, hsession] using hid
  | revokeSession sessionId reason =>
      cases revokeSessionTx_run hrun with
      | missing hfind => exact hrow
      | already session hfind hrevoked => exact hrow
      | revoked session hfind hactive =>
          obtain ⟨-, hsession⟩ := AuthDb.mem_of_findSession hfind
          exact hrevoked _ _ _ (by simpa [AuthCommand.touched, hsession] using hid)
  | revokeAllSessions userId reason =>
      obtain ⟨rfl, rfl⟩ := revokeAllSessionsTx_run hrun
      exact hrevoked _ _ _ hid
  | findAccountByEmail email => exact hread (Prod.mk.inj (Except.ok.inj hrun)).2.symm
  | findAccountById id => exact hread (Prod.mk.inj (Except.ok.inj hrun)).2.symm
  | findActiveSessionById id => exact hread (Prod.mk.inj (Except.ok.inj hrun)).2.symm
  | findSessionByRefreshTokenHash hash =>
      exact hread (Prod.mk.inj (Except.ok.inj hrun)).2.symm
  | findRefreshTokenHistoryByHash hash =>
      exact hread (Prod.mk.inj (Except.ok.inj hrun)).2.symm

/-- What is right for a session stays so while the session is not touched. -/
theorem Cacheable.untouched {c : AuthCommand} {stamp : Stamp} {a : c.Res}
    (h : Cacheable db sessionId cached) (hdb : Keys db)
    (hrun : (c.impl stamp).run db = .ok (a, db')) (hid : sessionId ∉ c.touched a) :
    Cacheable db' sessionId cached := by
  obtain ⟨hsession, hcached, row, hrow, rfl, hrest⟩ := h
  refine ⟨hsession, hcached, row, c.impl_untouched hrun hrow hid, rfl, ?_⟩
  rw [AuthDb.findAccountById, AuthCommand.impl_users hdb hrun]
  exact hrest

end

/-! ### The steps -/

def noFault (_ : AuthStep) (o : AuthOutside) (_ : AuthState) : Prop := o.fault = .none

def redisFaults : AuthStep → AuthOutside → AuthState → Prop
  | .redis _, _, _ => True
  | _, o, _ => o.fault = .none

section

variable {config : AuthConfig} {ok : AuthStep → AuthOutside → AuthState → Prop}
  {s s' : AuthState} {db : AuthDb} {ids : List String}

/-- A Redis command keeps the agreement when the session entry it writes is
right. -/
theorem Agrees.redis (h : Agrees db ids s) {c : RedisCommand} {o : AuthOutside}
    {r : AuthStep.Reply (.redis c)} (hexec : exec (.redis c) o s = some (r, s'))
    (hset : ∀ id cached, (AuthStep.redis c).cached? = some (id, cached) →
      Cacheable db id cached) : Agrees db ids s' := by
  cases exec_acts hexec with
  | idle c => exact h
  | executed c =>
      refine ⟨h.tables, fun id cached hid hget => ?_⟩
      rcases RedisCommand.apply_session hget with hcached | ⟨hold, -⟩
      · exact hset id cached hcached
      · exact h.entry id cached hid hold

/-- After a repository step the entries of the touched sessions are excepted. -/
theorem ensures_authRepository (hok : ∀ c o s, ok (.repository c) o s → o.fault = .none)
    (c : AuthCommand) (h : Agrees db ids s) (hdb : Keys db) :
    (authRepository c).Ensures config ok (fun _ r s' => match r with
      | .ok a => ∃ stamp db', (c.impl stamp).run db = .ok (a, db') ∧
          Agrees db' (c.touched a ++ ids) s'
      | .error _ => Agrees db ids s') s := by
  refine .of_authRepository fun s₁ o r s₂ s' hidle hfault hexec hidle' => ?_
  have h₁ := h.idled hidle
  rcases exec_repository_of_none (hok _ _ _ hfault) hexec with
    ⟨a, hrun, rfl⟩ | ⟨e, hrun, rfl, rfl⟩
  · have hredis := (exec_repository_ok hexec).2
    rw [h₁.tables] at hrun
    refine ⟨o.stamp, s₂.db, hrun, Agrees.idled ⟨rfl, fun id cached hid hget => ?_⟩ hidle'⟩
    rw [List.mem_append, not_or] at hid
    rw [hredis] at hget
    exact (h₁.entry id cached hid.2 hget).untouched hdb hrun hid.1
  · exact h₁.idled hidle'

/-- A query answers what the tables say. -/
theorem ensures_query (hok : ∀ c o s, ok (.repository c) o s → o.fault = .none)
    {c : AuthCommand} {f : AuthDb → c.Res}
    (hc : ∀ stamp db, (c.impl stamp).run db = .ok (f db, db)) (h : Agrees db ids s) :
    (authRepository c).Ensures config ok
      (fun _ r s' => r = .ok (f db) ∧ Agrees db ids s') s := by
  refine .of_authRepository fun s₁ o r s₂ s' hidle hfault hexec hidle' => ?_
  have h₁ := h.idled hidle
  rcases exec_repository_of_none (hok _ _ _ hfault) hexec with
    ⟨a, hrun, rfl⟩ | ⟨e, hrun, rfl, rfl⟩
  · have hredis := (exec_repository_ok hexec).2
    rw [hc, h₁.tables] at hrun
    obtain ⟨rfl, hdb⟩ := Prod.mk.inj (Except.ok.inj hrun)
    refine ⟨rfl, Agrees.idled ⟨hdb.symm, fun id cached hid hget => ?_⟩ hidle'⟩
    rw [hredis] at hget
    exact h₁.entry id cached hid hget
  · rw [hc] at hrun
    cases hrun

/-- A deletion that does not fail ends the exception of its session. -/
theorem ensures_deleteSessionCache (hok : ∀ c o s, ok (.redis c) o s → o.fault = .none)
    {id : String} (h : Agrees db (id :: ids) s) :
    (RedisAuthStateService.deleteSessionCache id).Ensures config ok
      (fun _ r s' => r = .ok () ∧ Agrees db ids s') s := by
  refine Ensures.of_redis (c := .del (.session id))
    fun s₁ o r s₂ s' hidle hfault hexec hidle' => ?_
  have h₁ := h.idled hidle
  obtain ⟨rfl, hredis⟩ := exec_redis_of_none (hok _ _ _ hfault) hexec
  obtain ⟨-, hdb⟩ := exec_redis_ok hexec
  refine ⟨rfl, Agrees.idled ⟨hdb.trans h₁.tables, fun id' cached hid hget => ?_⟩ hidle'⟩
  rw [hredis] at hget
  obtain ⟨hne, hold⟩ := Store.get_del_eq_some _ hget
  refine h₁.entry id' cached ?_ hold
  rw [List.mem_cons, not_or]
  exact ⟨fun heq => hne (by rw [heq]), hid⟩

theorem ensures_deleteSessionCaches (hok : ∀ c o s, ok (.redis c) o s → o.fault = .none)
    {deleted : List String} (h : Agrees db (deleted ++ ids) s) :
    (AuthSessionService.deleteSessionCaches deleted).Ensures config ok
      (fun _ r s' => r = .ok () ∧ Agrees db ids s') s := by
  induction deleted generalizing s with
  | nil => exact .of_pure fun s' hidle => ⟨rfl, h.idled hidle⟩
  | cons id deleted ih =>
      have hfirst : (AuthSessionService.deleteSessionCacheBestEffort id).Ensures config ok
          (fun _ r s' => r = .ok () ∧ Agrees db (deleted ++ ids) s') s :=
        .tryCatch (ensures_deleteSessionCache hok h) (fun _ _ _ h₁ => h₁)
          fun _ _ _ h₁ => by cases h₁.1
      exact .bind hfirst (fun _ _ _ h₁ => ih h₁.2) fun _ _ _ h₁ => by cases h₁.1

/-- A right entry that is written ends the exception of its session. -/
theorem ensures_setSessionCache (hok : ∀ c o s, ok (.redis c) o s → o.fault = .none)
    {session : SessionCacheRecord} (hsession : Cacheable db session.sessionId session)
    (h : Agrees db (session.sessionId :: ids) s) :
    (RedisAuthStateService.setSessionCache session).Ensures config ok
      (fun _ r s' => r = .ok () ∧ Agrees db ids s') s := by
  have hnow : now.Ensures config ok (fun _ r s' => (∃ t, r = .ok t) ∧
      Agrees db (session.sessionId :: ids) s') s :=
    .of_now fun s₁ o s' hidle hidle' => ⟨⟨_, rfl⟩, (h.idled hidle).idled hidle'⟩
  refine .bind hnow (fun es now s₁ h₁ => ?_) fun _ _ _ h₁ => by cases h₁.1.choose_spec
  refine Ensures.of_redis (c := RedisAuthStateService.cacheWrite session now)
    fun s₂ o r s₃ s' hidle hfault hexec hidle' => ?_
  have h₂ := h₁.2.idled hidle
  obtain ⟨rfl, hredis⟩ := exec_redis_of_none (hok _ _ _ hfault) hexec
  obtain ⟨-, hdb⟩ := exec_redis_ok hexec
  refine ⟨rfl, Agrees.idled ⟨hdb.trans h₂.tables, fun id cached hid hget => ?_⟩ hidle'⟩
  rw [hredis] at hget
  rcases Store.get_set_eq_some _ hget with ⟨hk, hv⟩ | ⟨hne, hold⟩
  · cases hk
    obtain rfl : session = cached := hv
    exact hsession
  · refine h₂.entry id cached ?_ hold
    rw [List.mem_cons, not_or]
    exact ⟨fun heq => hne (by rw [heq]), hid⟩

theorem ensures_now (h : Agrees db ids s) :
    now.Ensures config ok (fun _ r s' => (∃ t, r = .ok t) ∧ Agrees db ids s') s :=
  .of_now fun _ _ _ hidle hidle' => ⟨⟨_, rfl⟩, (h.idled hidle).idled hidle'⟩

theorem ensures_generate (secret : Secret) (h : Agrees db ids s) :
    (generate secret).Ensures config ok
      (fun _ r s' => (∃ v, r = .ok v) ∧ Agrees db ids s') s :=
  .of_generate fun _ _ hidle => ⟨⟨_, rfl⟩, h.idled hidle⟩

theorem ensures_issueTokens (claims : AccessTokenClaims)
    (refreshToken csrfToken : String) (h : Agrees db ids s) :
    (AuthSessionService.issueTokens config claims refreshToken csrfToken).Ensures config
      ok (fun _ _ s' => Agrees db ids s') s :=
  .bind (ensures_now h) (fun _ _ _ h₁ => .of_pure fun _ hidle => h₁.2.idled hidle)
    fun _ _ _ h₁ => h₁.2

end

/-! ### The calls that change sessions -/

/-- All visible session entries agree with the tables. -/
def Settled {α : Type} (_ : AuthLog) (_ : Except AuthError α) (s : AuthState) : Prop :=
  Agrees s.db [] s

theorem Agrees.settled {db : AuthDb} {s : AuthState} (h : Agrees db [] s) :
    Agrees s.db [] s := h.tables ▸ h

section

variable {config : AuthConfig} {s : AuthState} {db : AuthDb}

theorem createSessionAfterLogin_settled (userId role : String)
    (hrole : (s.db.findAccountById userId).map (·.role.value) = some role)
    (hdb : Keys s.db) (h : Agrees s.db [] s) :
    (AuthSessionService.createSessionAfterLogin config userId role).Ensures config
      noFault Settled s := by
  refine .bind (ensures_generate _ h) (fun _ refreshToken s₁ h₁ => ?_)
    fun _ _ _ h₁ => h₁.2.settled
  refine .bind (ensures_generate _ h₁.2) (fun _ csrfToken s₂ h₂ => ?_)
    fun _ _ _ h₂ => h₂.2.settled
  refine .bind (ensures_now h₂.2) (fun _ now s₃ h₃ => ?_) fun _ _ _ h₃ => h₃.2.settled
  refine .bind (ensures_authRepository (fun _ _ _ h => h) _ h₃.2 hdb)
    (fun _ created s₄ h₄ => ?_) fun _ _ _ h₄ => h₄.settled
  obtain ⟨stamp, db', hrun, h₄⟩ := h₄
  have hcreated := createExclusiveSessionTx_run hrun
  have hsession : Cacheable db' created.session.id
      ⟨created.session.id, userId, role, created.session.expiresAt, true⟩ :=
    hcreated.cacheable hrole
  rw [AuthCommand.touched, List.append_nil] at h₄
  refine .bind (ensures_deleteSessionCaches (fun _ _ _ h => h) h₄)
    (fun _ _ s₅ h₅ => ?_) fun _ _ _ h₅ => by cases h₅.1
  refine .bind (ensures_setSessionCache (fun _ _ _ h => h) hsession h₅.2)
    (fun _ _ s₆ h₆ => ?_) fun _ _ _ h₆ => h₆.2.settled
  exact (ensures_issueTokens _ _ _ h₆.2).mono fun _ _ _ h => h.settled

theorem logout_settled (refreshToken : String) (hdb : Keys s.db)
    (h : Agrees s.db [] s) :
    (AuthSessionService.logout config refreshToken).Ensures config noFault Settled s := by
  refine .bind (ensures_query (fun _ _ _ h => h)
    (c := .findSessionByRefreshTokenHash (config.hashToken refreshToken))
    (fun _ _ => rfl) h) (fun _ session s₁ h₁ => ?_) fun _ _ _ h₁ => h₁.2.settled
  obtain ⟨-, h₁⟩ := h₁
  rcases session with _ | session
  · exact .of_pure fun _ hidle => (h₁.idled hidle).settled
  · dsimp only
    split
    · exact .of_pure fun _ hidle => (h₁.idled hidle).settled
    refine .bind (ensures_authRepository (fun _ _ _ h => h)
      (.revokeSession session.id .logout) h₁ hdb) (fun _ _ s₂ h₂ => ?_)
      fun _ _ _ h₂ => h₂.settled
    obtain ⟨stamp', db'', -, h₂⟩ := h₂
    exact (ensures_deleteSessionCache (fun _ _ _ h => h) h₂).mono
      fun _ _ _ h => h.2.settled

theorem revokeAll_settled (userId : String) (reason : SessionRevocationReason)
    (hdb : Keys s.db) (h : Agrees s.db [] s) :
    (AuthSessionService.revokeAll userId reason).Ensures config noFault Settled s := by
  refine .bind (ensures_authRepository (fun _ _ _ h => h)
    (.revokeAllSessions userId reason) h hdb) (fun _ ids s₁ h₁ => ?_)
    fun _ _ _ h₁ => h₁.settled
  obtain ⟨stamp, db', -, h₁⟩ := h₁
  exact (ensures_deleteSessionCaches (fun _ _ _ h => h) h₁).mono
    fun _ _ _ h => h.2.settled

/-- `rotate` of a session whose account has been found. -/
theorem rotate_settled (tokenHash : String) {session : AuthSessionRecord}
    {account : AccountRecord} (hrow : session ∈ s.db.sessions)
    (haccount : s.db.findAccountById session.userId = some account)
    (hdb : Keys s.db) (h : Agrees s.db [] s) :
    (AuthSessionService.rotate config tokenHash session account).Ensures config
      noFault Settled s := by
  refine .bind (ensures_generate _ h) (fun _ nextRefreshToken s₁ h₁ => ?_)
    fun _ _ _ h₁ => h₁.2.settled
  refine .bind (ensures_now h₁.2) (fun _ now s₂ h₂ => ?_) fun _ _ _ h₂ => h₂.2.settled
  refine .bind (ensures_authRepository (fun _ _ _ h => h) _ h₂.2 hdb)
    (fun _ rotated s₃ h₃ => ?_) fun _ _ _ h₃ => h₃.settled
  obtain ⟨stamp, db', hrun, h₃⟩ := h₃
  obtain ⟨row, token, hrot⟩ := rotateRefreshTokenTx_run hrun
  have hsame : row = session :=
    Option.some.inj (hrot.find.symm.trans (AuthDb.findSession_of_mem hdb.sessionIds hrow))
  subst hsame
  have hid : rotated.session.id = row.id := by rw [hrot.session]
  rw [AuthCommand.touched, List.append_nil, ← hid] at h₃
  refine .bind (ensures_setSessionCache (fun _ _ _ h => h) (hrot.cacheable haccount) h₃)
    (fun _ _ s₄ h₄ => ?_) fun _ _ _ h₄ => h₄.2.settled
  exact (ensures_issueTokens _ _ _ h₄.2).mono fun _ _ _ h => h.settled

theorem refreshUnused_settled (tokenHash : String)
    (history : SessionRefreshTokenRecord) (hdb : Keys s.db) (h : Agrees s.db [] s) :
    (AuthSessionService.refreshUnused config tokenHash history).Ensures config
      noFault Settled s := by
  refine .bind (ensures_query (fun _ _ _ h => h)
    (c := .findActiveSessionById history.sessionId) (fun _ _ => rfl) h)
    (fun _ session s₁ h₁ => ?_) fun _ _ _ h₁ => h₁.2.settled
  obtain ⟨hfind, h₁⟩ := h₁
  rcases session with _ | session
  · exact .of_throw fun _ hidle => (h₁.idled hidle).settled
  · obtain ⟨hrow, -, -⟩ := mem_of_findActiveSessionById (Except.ok.inj hfind).symm
    refine .bind (ensures_now h₁) (fun _ now s₂ h₂ => ?_) fun _ _ _ h₂ => h₂.2.settled
    split
    · exact .of_throw fun _ hidle => (h₂.2.idled hidle).settled
    refine .bind (ensures_query (fun _ _ _ h => h)
      (c := .findAccountById session.userId) (fun _ _ => rfl) h₂.2)
      (fun _ account s₃ h₃ => ?_) fun _ _ _ h₃ => h₃.2.settled
    obtain ⟨haccount, h₃⟩ := h₃
    rcases account with _ | account
    · exact .of_throw fun _ hidle => (h₃.idled hidle).settled
    · have htables : s₃.db = s.db := h₃.tables
      exact rotate_settled tokenHash (htables ▸ hrow)
        (htables ▸ (Except.ok.inj haccount).symm) (htables ▸ hdb) h₃.settled

theorem refreshReused_settled (history : SessionRefreshTokenRecord)
    (hdb : Keys s.db) (h : Agrees s.db [] s) :
    (AuthSessionService.refreshReused history).Ensures config noFault Settled s := by
  refine .bind (ensures_authRepository (fun _ _ _ h => h)
    (.revokeSession history.sessionId .refreshReuse) h hdb)
    (fun _ _ s₁ h₁ => ?_) fun _ _ _ h₁ => h₁.settled
  obtain ⟨stamp, db', -, h₁⟩ := h₁
  refine .bind (ensures_deleteSessionCache (fun _ _ _ h => h) h₁)
    (fun _ _ s₂ h₂ => ?_) fun _ _ _ h₂ => h₂.2.settled
  exact .of_throw fun _ hidle => (h₂.2.idled hidle).settled

theorem refresh_settled (refreshToken : String) (hdb : Keys s.db)
    (h : Agrees s.db [] s) :
    (AuthSessionService.refresh config refreshToken).Ensures config noFault
      Settled s := by
  refine .bind (ensures_query (fun _ _ _ h => h)
    (c := .findRefreshTokenHistoryByHash (config.hashToken refreshToken))
    (fun _ _ => rfl) h) (fun _ history s₁ h₁ => ?_) fun _ _ _ h₁ => h₁.2.settled
  obtain ⟨-, h₁⟩ := h₁
  have htables : s₁.db = s.db := h₁.tables
  rcases history with _ | history
  · exact .of_throw fun _ hidle => (h₁.idled hidle).settled
  · dsimp only
    split
    · exact refreshReused_settled history (htables ▸ hdb) h₁.settled
    · exact refreshUnused_settled _ history (htables ▸ hdb) h₁.settled

/-! ### Validation -/

/-- A validation ends with the answer of the tables at an instant of the call. -/
def Answers (db : AuthDb) (sessionId : String) (start : ℕ) (_ : AuthLog)
    (r : Except AuthError (Option AuthPrincipal)) (s : AuthState) : Prop :=
  Agrees db [] s ∧ ∃ t, start ≤ t ∧ t ≤ s.redis.now ∧
    r = .ok (databaseAnswer db sessionId t)

theorem ensures_readSessionCache (sessionId : String) (h : Agrees db [] s) :
    (AuthSessionService.readSessionCache sessionId).Ensures config redisFaults
      (fun _ r s' => Agrees db [] s' ∧ s.redis.now ≤ s'.redis.now ∧
        ∃ cached, r = .ok cached ∧
          ∀ c, cached = some c → Cacheable db sessionId c) s := by
  have hget : (RedisAuthStateService.getSessionCache sessionId).Ensures config redisFaults
      (fun _ r s' => (Agrees db [] s' ∧ s.redis.now ≤ s'.redis.now) ∧
        (r = .error .storageUnavailable ∨ ∃ cached, r = .ok cached ∧
          ∀ c, cached = some c → Cacheable db sessionId c)) s := by
    refine Ensures.of_redis (c := .get (.session sessionId))
      fun s₁ o r s₂ s' hidle _ hexec hidle' => ?_
    have h₁ := h.idled hidle
    have hsame : s₂ = s₁ := by
      cases exec_acts hexec <;> rfl
    subst hsame
    refine ⟨⟨h₁.idled hidle', Nat.le_trans hidle.now hidle'.now⟩, ?_⟩
    rcases r with e | cached
    · exact .inl rfl
    · refine .inr ⟨cached, rfl, fun c hc => ?_⟩
      have hread := (exec_redis_ok hexec).1
      exact h₁.entry sessionId c nofun ((Prod.mk.inj hread).1.trans hc)
  refine .tryCatch hget (fun _ cached s₁ h₁ => ?_) fun _ e s₁ h₁ => ?_
  · obtain ⟨⟨hagrees, hnow⟩, hcached⟩ := h₁
    rcases hcached with hcached | hcached
    · cases hcached
    · exact ⟨hagrees, hnow, hcached⟩
  · obtain ⟨⟨hagrees, hnow⟩, hcached⟩ := h₁
    rcases hcached with hcached | ⟨c, hcached, -⟩
    · cases hcached
      exact .of_pure fun s' hidle => ⟨hagrees.idled hidle, Nat.le_trans hnow hidle.now,
        none, rfl, nofun⟩
    · cases hcached

theorem ensures_instant (h : Agrees db [] s) :
    now.Ensures config redisFaults (fun _ r s' => Agrees db [] s' ∧
      ∃ t, s.redis.now ≤ t ∧ t ≤ s'.redis.now ∧ r = .ok t) s :=
  .of_now fun s₁ _ _ hidle hidle' =>
    ⟨(h.idled hidle).idled hidle', s₁.redis.now, hidle.now, hidle'.now, rfl⟩

theorem validateCached_answers {sessionId : String} {cached : SessionCacheRecord}
    (hcached : Cacheable db sessionId cached) (hdb : Keys db) (h : Agrees db [] s) :
    (AuthSessionService.validateCached cached).Ensures config redisFaults
      (Answers db sessionId s.redis.now) s := by
  have hactive : ¬ ¬ cached.active := by simp [hcached.2.1]
  rw [AuthSessionService.validateCached, if_neg hactive]
  refine .bind (ensures_instant h) (fun _ t s₁ h₁ => ?_) fun _ _ _ h₁ => by
    obtain ⟨-, t, -, -, ht⟩ := h₁
    cases ht
  obtain ⟨hagrees, t', hle, hle', ht⟩ := h₁
  cases ht
  have hanswer := databaseAnswer_of_cacheable hdb hcached t
  split
  · rename_i hexpired
    rw [if_pos hexpired] at hanswer
    exact .of_pure fun s' hidle => ⟨hagrees.idled hidle, t, hle,
      Nat.le_trans hle' hidle.now, by rw [hanswer]⟩
  · rename_i hlive
    rw [if_neg hlive] at hanswer
    exact .of_pure fun s' hidle => ⟨hagrees.idled hidle, t, hle,
      Nat.le_trans hle' hidle.now, by rw [hanswer]⟩

/-- Writing a right entry keeps the agreement, whether or not it fails. -/
theorem ensures_bestEffort_setSessionCache {session : SessionCacheRecord}
    (hsession : Cacheable db session.sessionId session) (h : Agrees db [] s) :
    (AuthSessionService.bestEffort
        (RedisAuthStateService.setSessionCache session)).Ensures config redisFaults
      (fun _ r s' => r = .ok () ∧ Agrees db [] s' ∧ s.redis.now ≤ s'.redis.now) s := by
  have hset : (RedisAuthStateService.setSessionCache session).Ensures config redisFaults
      (fun _ r s' => (r = .ok () ∨ r = .error .storageUnavailable) ∧ Agrees db [] s') s := by
    refine .bind (ensures_now h) (fun _ now s₁ h₁ => ?_) fun _ _ _ h₁ => by
      cases h₁.1.choose_spec
    refine Ensures.of_redis (c := RedisAuthStateService.cacheWrite session now)
      fun s₂ o r s₃ s' hidle _ hexec hidle' => ⟨?_, ?_⟩
    · rcases r with e | _
      · exact .inr rfl
      · exact .inl rfl
    · refine Agrees.idled ((h₁.2.idled hidle).redis hexec fun id cached hcached => ?_) hidle'
      cases hcached
      exact hsession
  refine .tryCatch (hset.and (.clock _)) (fun _ _ _ h₁ => ?_) fun _ e s₁ h₁ => ?_
  · obtain ⟨⟨hr, hagrees⟩, hnow⟩ := h₁
    rcases hr with hr | hr
    · exact ⟨hr, hagrees, hnow⟩
    · cases hr
  · obtain ⟨⟨hr, hagrees⟩, hnow⟩ := h₁
    rcases hr with hr | hr <;> cases hr
    exact .of_pure fun s' hidle =>
      ⟨rfl, hagrees.idled hidle, Nat.le_trans hnow hidle.now⟩

theorem validateStored_answers (sessionId : String) (hdb : Keys db)
    (h : Agrees db [] s) :
    (AuthSessionService.validateStored sessionId).Ensures config redisFaults
      (Answers db sessionId s.redis.now) s := by
  refine .bind ((ensures_query (fun _ _ _ h => h) (c := .findActiveSessionById sessionId)
    (fun _ _ => rfl) h).and (.clock _)) (fun _ session s₁ h₁ => ?_)
    fun _ _ _ h₁ => by cases h₁.1.1
  obtain ⟨⟨hfind, hagrees₁⟩, hnow₁⟩ := h₁
  have hfind : db.findActiveSessionById sessionId = session := (Except.ok.inj hfind).symm
  rcases session with _ | session
  · refine .of_pure fun s' hidle => ⟨hagrees₁.idled hidle, s₁.redis.now, hnow₁,
      hidle.now, ?_⟩
    rw [databaseAnswer_of_not_found hfind]
  · obtain ⟨hrow, -, hactive⟩ := mem_of_findActiveSessionById hfind
    have hanswer := databaseAnswer_of_found hdb hfind
    refine .bind (ensures_instant hagrees₁) (fun _ t s₂ h₂ => ?_) fun _ _ _ h₂ => by
      obtain ⟨-, t, -, -, ht⟩ := h₂
      cases ht
    obtain ⟨hagrees₂, t', hle, hle', ht⟩ := h₂
    cases ht
    split
    · rename_i hexpired
      refine .of_pure fun s' hidle => ⟨hagrees₂.idled hidle, t,
        Nat.le_trans hnow₁ hle, Nat.le_trans hle' hidle.now, ?_⟩
      rw [hanswer, if_pos hexpired]
    rename_i hlive
    refine .bind ((ensures_query (fun _ _ _ h => h) (c := .findAccountById session.userId)
      (fun _ _ => rfl) hagrees₂).and (.clock _)) (fun _ account s₃ h₃ => ?_)
      fun _ _ _ h₃ => by cases h₃.1.1
    obtain ⟨⟨haccount, hagrees₃⟩, hnow₃⟩ := h₃
    have haccount : db.findAccountById session.userId = account :=
      (Except.ok.inj haccount).symm
    have hbefore : s.redis.now ≤ t := Nat.le_trans hnow₁ hle
    have hafter : t ≤ s₃.redis.now := Nat.le_trans hle' hnow₃
    rcases account with _ | account
    · refine .of_pure fun s' hidle => ⟨hagrees₃.idled hidle, t, hbefore,
        Nat.le_trans hafter hidle.now, ?_⟩
      rw [hanswer, if_neg hlive, haccount, Option.map_none]
    · have hid : account.id = session.userId := by
        simpa using List.find?_some haccount
      have hsession : Cacheable db session.id ⟨session.id, account.id,
          account.role.value, session.expiresAt, true⟩ :=
        hid ▸ cacheable_of_row hrow hactive (by rw [haccount, Option.map_some])
      refine .bind (ensures_bestEffort_setSessionCache hsession hagrees₃)
        (fun _ _ s₄ h₄ => ?_) fun _ _ _ h₄ => by cases h₄.1
      obtain ⟨-, hagrees₄, hnow₄⟩ := h₄
      refine .of_pure fun s' hidle => ⟨hagrees₄.idled hidle, t, hbefore,
        Nat.le_trans hafter (Nat.le_trans hnow₄ hidle.now), ?_⟩
      rw [hanswer, if_neg hlive, haccount, Option.map_some]

theorem validateSession_answers (sessionId : String) (hdb : Keys db)
    (h : Agrees db [] s) :
    (AuthSessionService.validateSession sessionId).Ensures config redisFaults
      (Answers db sessionId s.redis.now) s := by
  refine .bind (ensures_readSessionCache sessionId h) (fun _ cached s₁ h₁ => ?_)
    fun _ _ _ h₁ => by
      obtain ⟨-, -, cached, hr, -⟩ := h₁
      cases hr
  obtain ⟨hagrees, hnow, _, hr, hcached⟩ := h₁
  cases hr
  have hlater : ∀ es r s', Answers db sessionId s₁.redis.now es r s' →
      Answers db sessionId s.redis.now es r s' :=
    fun _ _ _ ⟨hagrees, t, hle, h⟩ => ⟨hagrees, t, Nat.le_trans hnow hle, h⟩
  rcases cached with _ | cached
  · exact (validateStored_answers sessionId hdb hagrees).mono hlater
  · exact (validateCached_answers (hcached _ rfl) hdb hagrees).mono hlater

end

/-! ### Serial runs -/

/-- The calls of the session service; a session is created for an account with its
role. -/
def sessionStart (s : AuthState) : AuthCall → Prop
  | .createSessionAfterLogin userId role =>
      (s.db.findAccountById userId).map (·.role.value) = some role
  | .sessionRefresh _ | .logout _ | .revokeAll _ _ | .validateSession _ => True
  | _ => False

/-- Redis may fail while a session is validated. -/
def sessionFaults : AuthCall → AuthStep → AuthOutside → AuthState → Prop
  | .validateSession _ => redisFaults
  | _ => noFault

section

variable {config : AuthConfig} {s : AuthState}

theorem sessionCall_settled {call : AuthCall} (hstart : sessionStart s call)
    (hdb : Keys s.db) (h : Agrees s.db [] s) :
    (call.program config).Ensures config (sessionFaults call) Settled s := by
  cases call with
  | createSessionAfterLogin userId role =>
      exact .map (createSessionAfterLogin_settled userId role hstart hdb h)
  | sessionRefresh refreshToken => exact .map (refresh_settled refreshToken hdb h)
  | logout refreshToken => exact .map (logout_settled refreshToken hdb h)
  | revokeAll userId reason => exact .map (revokeAll_settled userId reason hdb h)
  | validateSession sessionId =>
      exact .map ((validateSession_answers sessionId hdb h).mono
        fun _ _ _ h => h.1.settled)
  | refresh refreshToken => exact hstart.elim
  | startLogin input clientIp => exact hstart.elim
  | completeLogin input => exact hstart.elim
  | processLogin data => exact hstart.elim

theorem agrees_of_serially {users : List AccountRecord}
    (h : (authService config).Serially sessionStart sessionFaults
      (AuthState.init users) s) : Sound s.db ∧ Agrees s.db [] s := by
  refine h.invariant (P := fun s => Sound s.db ∧ Agrees s.db [] s) ?_ ?_
    ⟨sound_init users, rfl, fun id cached _ hget => ?_⟩
  · intro x s ⟨hs, hagrees⟩
    have hidle := environment_idled x s
    exact ⟨hidle.db ▸ hs, (hagrees.idled hidle).settled⟩
  · intro s call ⟨hs, hagrees⟩ hstart
    exact (Ensures.sound _ hs).and (sessionCall_settled hstart hs.keys hagrees)
  · rw [AuthState.init, Store.get_empty] at hget
    cases hget

/-- In serial runs a validation answers what the tables say at an instant of the
call. -/
theorem validation_answers_database (config : AuthConfig) (users : List AccountRecord)
    {s s' : AuthState} {sessionId : String} {es : AuthLog} {v : AuthResult}
    (hs : (authService config).Serially sessionStart sessionFaults
      (AuthState.init users) s)
    (h : (authService config).Executes (sessionFaults (.validateSession sessionId))
      ((authService config).body (.validateSession sessionId)) s es v s') :
    ∃ now, s.redis.now ≤ now ∧ now ≤ s'.redis.now ∧
      v = .ok (.principal (databaseAnswer s.db sessionId now)) := by
  obtain ⟨hsound, hagrees⟩ := agrees_of_serially hs
  have hanswers : ((AuthCall.validateSession sessionId).program config).Ensures config
      redisFaults (fun _ v s' => ∃ now, s.redis.now ≤ now ∧ now ≤ s'.redis.now ∧
        v = .ok (.principal (databaseAnswer s.db sessionId now))) s :=
    .map ((validateSession_answers sessionId hsound.keys hagrees).mono
      fun _ _ _ ⟨_, t, hle, hle', hr⟩ => ⟨t, hle, hle', by rw [hr]; rfl⟩)
  exact hanswers es v s' h

end

instance decidableSessionStart (s : AuthState) (call : AuthCall) :
    Decidable (sessionStart s call) :=
  match call with
  | .createSessionAfterLogin userId role =>
      inferInstanceAs (Decidable ((s.db.findAccountById userId).map (·.role.value) =
        some role))
  | .sessionRefresh _ | .logout _ | .revokeAll _ _ | .validateSession _ => isTrue trivial
  | .refresh _ | .startLogin _ _ | .completeLogin _ | .processLogin _ => isFalse id

instance decidableRedisFaults (c : AuthStep) (o : AuthOutside) (s : AuthState) :
    Decidable (redisFaults c o s) :=
  match c with
  | .redis _ => isTrue trivial
  | .now | .generate _ | .repository _ | .enqueue _ | .sendMail _ | .audit _ =>
      inferInstanceAs (Decidable (o.fault = .none))

instance decidableSessionFaults (call : AuthCall) (c : AuthStep) (o : AuthOutside)
    (s : AuthState) : Decidable (sessionFaults call c o s) :=
  match call with
  | .validateSession _ => inferInstanceAs (Decidable (redisFaults c o s))
  | .createSessionAfterLogin _ _ | .sessionRefresh _ | .logout _ | .revokeAll _ _
  | .refresh _ | .startLogin _ _ | .completeLogin _ | .processLogin _ =>
      inferInstanceAs (Decidable (o.fault = .none))

/-- The outcome of a step, with `id` for every id and secret. -/
def outcome (id : String) (fault : Fault) : AuthOutside :=
  ⟨⟨1, 1, 1, id, id⟩, id, fault⟩

instance decidableNoFault (c : AuthStep) (o : AuthOutside) (s : AuthState) :
    Decidable (noFault c o s) := inferInstanceAs (Decidable (o.fault = .none))

/-- The account has logged in. -/
def afterLogin : AuthState :=
  (authService exampleConfig).serialAfter (fun _ _ => True) (fun _ => noFault)
    [.call (.createSessionAfterLogin "u" "USER") (List.replicate 7 (outcome "a" .none))]
    (AuthState.init [exampleUser])

/-- The account logs in and rotates its token, then Redis evicts the entry. -/
def afterEviction : AuthState :=
  (authService exampleConfig).serialAfter sessionStart sessionFaults
    [.call (.createSessionAfterLogin "u" "USER") (List.replicate 7 (outcome "a" .none)),
      .environment (.tick 60000),
      .call (.sessionRefresh "a") (List.replicate 10 (outcome "b" .none)),
      .environment (.evict (.session "a"))]
    (AuthState.init [exampleUser])

/-- The session is validated while Redis is down. -/
def downOutcomes : List AuthOutside :=
  [outcome "" (.refused (.error "")), outcome "" .none, outcome "" .none,
    outcome "" .none, outcome "" .none, outcome "" (.refused (.error ""))]

theorem afterEviction_answers_database :
    (afterEviction.redis.now = 60000 ∧
      databaseAnswer afterEviction.db "a" (60000 + SESSION_TTL_MS - 1) =
        some ⟨"u", "USER", "a"⟩ ∧
      databaseAnswer afterEviction.db "a" (60000 + SESSION_TTL_MS) = none) ∧
    ∃ now, afterEviction.redis.now ≤ now ∧ now ≤ afterEviction.redis.now ∧
      (.ok (.principal (some ⟨"u", "USER", "a"⟩)) : AuthResult) =
        .ok (.principal (databaseAnswer afterEviction.db "a" now)) :=
  ⟨by decide, validation_answers_database exampleConfig [exampleUser]
    (Semantics.serially_after _ _) (Semantics.executes_of_perform downOutcomes rfl)⟩

end Auth

end Shortlink
