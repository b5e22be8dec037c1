import Shortlink.Auth.Run

/-!
# Revocation and the session cache

A call that revokes a session commits the revocation and then deletes the cache
entry. A call that read the session before the commit may cache it again
afterwards, so the property of a session holds of the runs in which no live entry
of it is written once its entry has been deleted (`freshCacheWrite`).
-/

namespace Shortlink

namespace Auth

open Shortlink.Storage Shortlink.Transaction Shortlink.Interaction
open Shortlink.Expiring AuthProgram

/-! ### What the session service does -/

/-- The sessions that a method revokes. -/
def AuthCommand.revoked : (c : AuthCommand) → c.Res → List String
  | .revokeSession sessionId _, _ => [sessionId]
  | .revokeAllSessions _ _, ids => ids
  | .createExclusiveSession _ _, created => created.revokedSessionIds
  | .rotateRefreshToken _ _, _ => []
  | .findAccountByEmail _, _ => []
  | .findAccountById _, _ => []
  | .findActiveSessionById _, _ => []
  | .findSessionByRefreshTokenHash _, _ => []
  | .findRefreshTokenHistoryByHash _, _ => []

/-- The sessions that a method finds, itself or a token row of it. -/
def AuthCommand.found : (c : AuthCommand) → c.Res → List String
  | .findSessionByRefreshTokenHash _, session => (Option.map (·.id) session).toList
  | .findRefreshTokenHistoryByHash _, token => (Option.map (·.sessionId) token).toList
  | .revokeSession _ _, _ => []
  | .revokeAllSessions _ _, _ => []
  | .createExclusiveSession _ _, _ => []
  | .rotateRefreshToken _ _, _ => []
  | .findAccountByEmail _, _ => []
  | .findAccountById _, _ => []
  | .findActiveSessionById _, _ => []

/-- The session whose cache entry a step deletes. -/
def AuthStep.uncached? : AuthStep → Option String
  | .redis (.del (.session sessionId)) => some sessionId
  | _ => none

/-- The sessions whose cache entries have been deleted. -/
def uncached (trace : AuthTrace) : List String :=
  trace.filterMap fun x => x.1.uncached?

theorem mem_uncached (sessionId : String)
    (r : (AuthStep.redis (.del (.session sessionId))).Reply) (trace : AuthTrace) :
    sessionId ∈ uncached (⟨.redis (.del (.session sessionId)), r⟩ :: trace) :=
  List.mem_filterMap.2 ⟨_, List.mem_cons_self, rfl⟩

def RevocationMay (trace : AuthTrace) : AuthStep → Prop
  | .repository (.revokeSession sessionId _) =>
      sessionId ∈ told AuthCommand.found trace
  | .redis (.del (.session sessionId)) => sessionId ∈ told AuthCommand.revoked trace
  | _ => True

def RevocationEnds {α : Type} (trace : AuthTrace) (_ : α) : Prop :=
  ∀ sessionId ∈ told AuthCommand.revoked trace, sessionId ∈ uncached trace

/-- The calls of the session service. -/
def sessionCall : AuthCall → Bool
  | .createSessionAfterLogin _ _ | .sessionRefresh _ | .logout _
  | .revokeAll _ _ | .validateSession _ => true
  | _ => false

open AuthSessionService RedisAuthStateService

theorem deleteSessionCaches_obeys {ids : List String} {trace : AuthTrace}
    (hids : ∀ id ∈ ids, id ∈ told AuthCommand.revoked trace) :
    (deleteSessionCaches ids).Obeys RevocationMay (fun after r => r = .ok () ∧
      told AuthCommand.revoked after = told AuthCommand.revoked trace ∧
      ∀ id, id ∈ ids ∨ id ∈ uncached trace → id ∈ uncached after) trace := by
  induction ids generalizing trace with
  | nil => simp [deleteSessionCaches]
  | cons sessionId ids ih =>
      have hrest : ∀ r, (deleteSessionCaches ids).Obeys RevocationMay
          (fun after r => r = .ok () ∧
            told AuthCommand.revoked after = told AuthCommand.revoked trace ∧
            ∀ id, id ∈ sessionId :: ids ∨ id ∈ uncached trace →
              id ∈ uncached after)
          (⟨.redis (.del (.session sessionId)), r⟩ :: trace) := by
        intro r
        have htail : ∀ id ∈ ids, id ∈ told AuthCommand.revoked
            (⟨.redis (.del (.session sessionId)), r⟩ :: trace) :=
          fun id hid => hids id (List.mem_cons_of_mem _ hid)
        refine (ih htail).mono ?_
        rintro after r' ⟨hr, htold, huncached⟩
        refine ⟨hr, htold, fun id hid => huncached id ?_⟩
        simpa [uncached, AuthStep.uncached?, eq_comm, or_assoc, or_left_comm]
          using hid
      simp only [deleteSessionCaches, deleteSessionCacheBestEffort, bestEffort,
        obeys_bind, obeys_tryCatch, obeys_deleteSessionCache, either_ok, either_error]
      exact ⟨hids sessionId List.mem_cons_self, fun e => hrest _, fun a => hrest _⟩

theorem logout_obeys (config : AuthConfig) (refreshToken : String) :
    (AuthSessionService.logout config refreshToken).Obeys RevocationMay
      RevocationEnds [] := by
  simp only [AuthSessionService.logout, obeys_bind, obeys_authRepository,
    either_ok, either_error]
  refine ⟨trivial, fun e => ?_, fun a => ?_⟩
  · simp [RevocationEnds, told]
  · rcases a with _ | session
    · simp [RevocationEnds, told, AuthCommand.revoked]
    · simp [RevocationEnds, RevocationMay, told, AuthCommand.revoked,
        AuthCommand.found, uncached, AuthStep.uncached?]

theorem revokeAll_obeys (userId : String) (reason : SessionRevocationReason) :
    (AuthSessionService.revokeAll userId reason).Obeys RevocationMay
      RevocationEnds [] := by
  simp only [AuthSessionService.revokeAll, obeys_bind, obeys_authRepository,
    either_ok, either_error]
  refine ⟨trivial, fun e => ?_, fun (ids : List String) => ?_⟩
  · simp [RevocationEnds, told]
  · refine (deleteSessionCaches_obeys fun id hid => ?_).mono ?_
    · simpa [told, AuthCommand.revoked] using hid
    · rintro after r ⟨-, htold, huncached⟩ id hid
      rw [htold] at hid
      exact huncached id (.inl (by simpa [told, AuthCommand.revoked] using hid))

theorem createSessionAfterLogin_obeys (config : AuthConfig)
    (userId role : String) :
    (AuthSessionService.createSessionAfterLogin config userId role).Obeys
      RevocationMay RevocationEnds [] := by
  simp only [AuthSessionService.createSessionAfterLogin, sessionCreated,
    obeys_bind, obeys_authRepository, obeys_generate, obeys_now,
    either_ok, either_error]
  refine ⟨trivial, fun refreshToken => ⟨trivial, fun csrfToken => ⟨trivial,
    fun t => ⟨trivial, fun e => ?_, fun (created : CreateExclusiveSessionResult) => ?_⟩⟩⟩⟩
  · simp [RevocationEnds, told]
  · refine (deleteSessionCaches_obeys fun id hid => ?_).mono ?_
    · simpa [told, AuthCommand.revoked] using hid
    · rintro after r ⟨rfl, htold, huncached⟩
      have hdone : ∀ id ∈ told AuthCommand.revoked after, id ∈ uncached after := by
        intro id hid
        rw [htold] at hid
        exact huncached id
          (.inl (by simpa [told, AuthCommand.revoked] using hid))
      simp only [issueTokens, cacheWrite, obeys_bind, obeys_setSessionCache,
        obeys_now, obeys_pure, either_ok, either_error]
      exact ⟨trivial, fun t => ⟨trivial, fun e => hdone,
        fun _ => ⟨trivial, fun issuedAt => hdone⟩⟩⟩

theorem refresh_obeys (config : AuthConfig) (refreshToken : String) :
    (AuthSessionService.refresh config refreshToken).Obeys RevocationMay
      RevocationEnds [] := by
  simp only [AuthSessionService.refresh, obeys_bind, obeys_authRepository,
    either_ok, either_error]
  refine ⟨trivial, fun e => ?_, fun a => ?_⟩
  · simp [RevocationEnds, told]
  rcases a with _ | history
  · simp [RevocationEnds, told, AuthCommand.revoked]
  · refine (obeys_ite _ _ _).2 ⟨fun _ => ?_, fun _ => ?_⟩
    · simp [refreshReused, RevocationEnds, RevocationMay, told,
        AuthCommand.revoked, AuthCommand.found]
      exact fun a => ⟨fun e => mem_uncached _ _ _, fun _ => mem_uncached _ _ _⟩
    · simp only [refreshUnused, obeys_bind, obeys_authRepository, either_ok,
        either_error]
      refine ⟨trivial, fun e => ?_, fun a => ?_⟩
      · simp [RevocationEnds, told, AuthCommand.revoked]
      rcases a with _ | session
      · simp [RevocationEnds, told, AuthCommand.revoked]
      · simp only [obeys_bind, obeys_now, obeys_ite, obeys_throw, obeys_authRepository, either_ok,
          either_error]
        refine ⟨trivial, fun t => ⟨fun _ => ?_, fun _ => ⟨trivial, fun e => ?_, fun a => ?_⟩⟩⟩
        · simp [RevocationEnds, told, AuthCommand.revoked]
        · simp [RevocationEnds, told, AuthCommand.revoked]
        rcases a with _ | account
        · simp [RevocationEnds, told, AuthCommand.revoked]
        · simp [rotate, sessionRotated, issueTokens, cacheWrite, RevocationEnds,
            RevocationMay, told, AuthCommand.revoked]

theorem validateStored_obeys (sessionId : String) {trace : AuthTrace}
    (htrace : told AuthCommand.revoked trace = []) :
    (validateStored sessionId).Obeys RevocationMay RevocationEnds trace := by
  simp only [validateStored, obeys_bind, obeys_authRepository, either_ok,
    either_error]
  refine ⟨trivial, fun e => ?_, fun a => ?_⟩
  · simp [RevocationEnds, told, htrace]
  rcases a with _ | session
  · simp [RevocationEnds, told, AuthCommand.revoked, htrace]
  · simp only [obeys_bind, obeys_now, obeys_ite, obeys_pure,
      obeys_authRepository, either_ok, either_error]
    refine ⟨trivial, fun t => ⟨fun _ => ?_, fun _ => ⟨trivial, fun e => ?_,
      fun a => ?_⟩⟩⟩
    · simp [RevocationEnds, told, AuthCommand.revoked, htrace]
    · simp [RevocationEnds, told, AuthCommand.revoked, htrace]
    rcases a with _ | account
    · simp [RevocationEnds, told, AuthCommand.revoked, htrace]
    · simp [bestEffort, cacheWrite, RevocationMay, RevocationEnds, told,
        AuthCommand.revoked, htrace]

theorem validateSession_obeys (sessionId : String) :
    (AuthSessionService.validateSession sessionId).Obeys RevocationMay
      RevocationEnds [] := by
  simp only [AuthSessionService.validateSession, readSessionCache, obeys_bind,
    obeys_tryCatch, obeys_getSessionCache, obeys_pure, either_ok, either_error]
  refine ⟨trivial, fun e => validateStored_obeys sessionId rfl,
    fun cached => ?_⟩
  rcases cached with _ | cached
  · exact validateStored_obeys sessionId rfl
  · simp [validateCached, RevocationMay, RevocationEnds, told]

theorem sessionCall_obeys (config : AuthConfig) {call : AuthCall}
    (h : sessionCall call = true) :
    Program.Obeys RevocationMay RevocationEnds [] ((authService config).body call) := by
  have hmap : ∀ {α : Type} (f : α → AuthValue) {p : AuthProgram α},
      p.Obeys RevocationMay RevocationEnds [] →
        (f <$> p).Obeys RevocationMay RevocationEnds [] := by
    intro α f p hp
    refine (obeys_map f p).2 (hp.mono fun trace r hr => ?_)
    cases r <;> exact hr
  cases call with
  | createSessionAfterLogin userId role =>
      exact hmap _ (createSessionAfterLogin_obeys config userId role)
  | sessionRefresh refreshToken => exact hmap _ (refresh_obeys config refreshToken)
  | logout refreshToken => exact hmap _ (logout_obeys config refreshToken)
  | revokeAll userId reason => exact hmap _ (revokeAll_obeys userId reason)
  | validateSession sessionId => exact hmap _ (validateSession_obeys sessionId)
  | refresh refreshToken => cases h
  | startLogin input clientIp => cases h
  | completeLogin input => cases h
  | processLogin data => cases h

/-! ### Runs -/

def noFailure : AuthEvent → Bool
  | .exec _ o => o.fault == .none
  | _ => true

/-- Only calls of the session service, and no storage failure. -/
def sessionRun : AuthEvent → Bool
  | .spawn call => sessionCall call
  | e => noFailure e

/-- The cache entry that a step writes. -/
def AuthStep.cached? : AuthStep → Option (String × SessionCacheRecord)
  | .redis (.set (.session sessionId) record _) => some (sessionId, record)
  | _ => none

/-- A cache entry of the session that has not expired is written only while its
entry has not been deleted. -/
def freshCacheWrite (sessionId : String) (σ : AuthPool) : AuthEvent → Bool
  | .exec i _ =>
      match (σ.next? i).bind AuthStep.cached? with
      | some (cachedId, record) =>
          cachedId != sessionId || decide (record.expiresAt ≤ σ.shared.redis.now) ||
            σ.history.all fun e => e.command.uncached? != some sessionId
      | none => true
  | _ => true

/-- In the runs under `ok` of a session: when a finished call has revoked it, it is not
valid any more. -/
def RevocationHolds (config : AuthConfig)
    (ok : String → AuthPool → AuthEvent → Prop) : Prop :=
  ∀ (users : List AccountRecord) (σ₁ σ₂ : AuthPool) (i j : ℕ)
    (sessionId : String) (v : AuthResult),
    (authService config).Reaches (fun σ e => sessionRun e = true ∧ ok sessionId σ e)
      (Pool.init (AuthState.init users)) σ₁ →
    sessionId ∈ told AuthCommand.revoked (traceOf σ₁.history i) →
    (σ₁.result? i).isSome →
    (authService config).Reaches (fun σ e => sessionRun e = true ∧ ok sessionId σ e)
      σ₁ σ₂ →
    σ₁.threads.length ≤ j →
    σ₂.threads[j]? = some ⟨.validateSession sessionId, .pure v⟩ →
    v = .ok (.principal none)

variable {config : AuthConfig} {ok : AuthPool → AuthEvent → Prop}
  {users : List AccountRecord} {σ : AuthPool}

/-- The session's row is there. -/
def Known (db : AuthDb) (sessionId : String) : Prop :=
  ∃ s ∈ db.sessions, s.id = sessionId

/-- The session's row is there and revoked. -/
def Ended (db : AuthDb) (sessionId : String) : Prop :=
  ∃ s ∈ db.sessions, s.id = sessionId ∧ s.revokedAt.isSome

theorem Since.known {s s' : AuthState} (h : Since s s') {sessionId : String}
    (hs : Known s.db sessionId) : Known s'.db sessionId := by
  obtain ⟨row, hrow, rfl⟩ := hs
  obtain ⟨row', hrow', hid, -⟩ := h.later.session row hrow
  exact ⟨row', hrow', hid⟩

theorem Later.ended {db db' : AuthDb} (h : Later db db') {sessionId : String}
    (hs : Ended db sessionId) : Ended db' sessionId := by
  obtain ⟨row, hrow, rfl, hrevoked⟩ := hs
  obtain ⟨row', hrow', hid, -, hkeep⟩ := h.session row hrow
  exact ⟨row', hrow', hid, (hkeep hrevoked).1 ▸ hrevoked⟩

theorem Since.ended {s s' : AuthState} (h : Since s s') {sessionId : String}
    (hs : Ended s.db sessionId) : Ended s'.db sessionId := h.later.ended hs

theorem Ended.of_saveRevoked (now : ℕ) (reason : SessionRevocationReason)
    {db : AuthDb} {ids : List String} {sessionId : String}
    (hids : sessionId ∈ ids) (hknown : Known db sessionId) :
    Ended (db.saveRevoked ids now reason) sessionId := by
  obtain ⟨row, hrow, rfl⟩ := hknown
  exact ⟨_, Table.mem_updateWhere_of hrow (by simpa using hids), rfl, rfl⟩

theorem known_of_activeIds {db : AuthDb} {userId sessionId : String}
    (h : sessionId ∈ (db.findActiveSessions userId).map (·.id)) :
    Known db sessionId := by
  obtain ⟨row, hrow, hid⟩ := List.mem_map.1 h
  exact ⟨row, (List.mem_filter.1 hrow).1, hid⟩

/-- A session that is there is revoked by `revokeSession`. -/
theorem SessionRevoked.ended {sessionId : String}
    {reason : SessionRevocationReason} {stamp : Stamp} {db db' : AuthDb}
    (h : SessionRevoked sessionId reason stamp db db') (hdb : Keys db)
    (hknown : Known db sessionId) : Ended db' sessionId := by
  obtain ⟨row, hrow, rfl⟩ := hknown
  have hfind := AuthDb.findSession_of_mem hdb.sessionIds hrow
  cases h with
  | missing hnone =>
      rw [hfind] at hnone
      cases hnone
  | already session hsome hrevoked =>
      obtain rfl := Option.some.inj (hfind.symm.trans hsome)
      exact ⟨row, hrow, rfl, hrevoked⟩
  | revoked session hsome hactive =>
      obtain rfl := Option.some.inj (hfind.symm.trans hsome)
      exact .of_saveRevoked _ _ (List.mem_singleton_self _) ⟨row, hrow, rfl⟩

theorem found_known
    (h : (authService config).Reaches ok (Pool.init (AuthState.init users)) σ)
    {k : ℕ} {sessionId : String}
    (hs : sessionId ∈ told AuthCommand.found (traceOf σ.history k)) :
    Known σ.shared.db sessionId := by
  obtain ⟨c, a, hmem, hs⟩ := exists_of_mem_told hs
  obtain ⟨l₂, l₁, hl⟩ := List.append_of_mem (mem_traceOf.1 hmem)
  obtain ⟨σ₁, σ₂, stamp, -, -, -, hsound, hrun, hsince⟩ := answered h hl
  refine hsince.known ?_
  cases c with
  | findSessionByRefreshTokenHash hash =>
      obtain ⟨rfl, hdb⟩ := Prod.mk.inj (Except.ok.inj hrun)
      obtain ⟨row, hfind, hid⟩ := Option.map_eq_some_iff.1
        (Option.mem_toList.1 hs)
      exact ⟨row, hdb ▸ List.mem_of_find?_eq_some hfind, hid⟩
  | findRefreshTokenHistoryByHash hash =>
      obtain ⟨rfl, hdb⟩ := Prod.mk.inj (Except.ok.inj hrun)
      obtain ⟨token, hfind, hid⟩ := Option.map_eq_some_iff.1
        (Option.mem_toList.1 hs)
      obtain ⟨row, hrow, hrowid⟩ := hsound.chain.owned token
        (List.mem_of_find?_eq_some hfind)
      exact ⟨row, hdb ▸ hrow, hrowid.trans hid⟩
  | createExclusiveSession _ _ => cases hs
  | rotateRefreshToken _ _ => cases hs
  | revokeSession _ _ => cases hs
  | revokeAllSessions _ _ => cases hs
  | findAccountByEmail _ => cases hs
  | findAccountById _ => cases hs
  | findActiveSessionById _ => cases hs

/-- A session that has been revoked stays so. -/
theorem revoked_ended (hcalls : ∀ σ e, ok σ e → sessionRun e = true)
    (h : (authService config).Reaches ok (Pool.init (AuthState.init users)) σ)
    {k : ℕ} {sessionId : String}
    (hs : sessionId ∈ told AuthCommand.revoked (traceOf σ.history k)) :
    Ended σ.shared.db sessionId := by
  obtain ⟨c, a, hmem, hs⟩ := exists_of_mem_told hs
  obtain ⟨l₂, l₁, hl⟩ := List.append_of_mem (mem_traceOf.1 hmem)
  obtain ⟨σ₁, σ₂, stamp, h₁, he, -, hsound, hrun, hsince⟩ := answered h hl
  refine hsince.ended ?_
  cases c with
  | revokeSession s reason =>
      obtain rfl := List.mem_singleton.1 hs
      obtain ⟨call, rest, hi, hmay⟩ := he.allowed (fun _ => RevocationMay)
        (fun _ => RevocationEnds) h₁ fun σ call hok => sessionCall_obeys config (hcalls σ _ hok)
      exact (revokeSessionTx_run hrun).ended hsound.keys (found_known h₁ hmay)
  | revokeAllSessions userId reason =>
      obtain ⟨rfl, hdb⟩ := revokeAllSessionsTx_run hrun
      exact hdb ▸ .of_saveRevoked _ _ hs (known_of_activeIds hs)
  | createExclusiveSession userId sessionData =>
      have hcreated := createExclusiveSessionTx_run hrun
      rw [AuthCommand.revoked, hcreated.revoked] at hs
      obtain ⟨row, hrow, hid, hrevoked⟩ :=
        Ended.of_saveRevoked stamp.revokedAt .newLogin hs
          (known_of_activeIds hs)
      exact hcreated.result ▸ ⟨row, List.mem_append_left _ hrow, hid, hrevoked⟩
  | rotateRefreshToken _ _ => cases hs
  | findSessionByRefreshTokenHash _ => cases hs
  | findRefreshTokenHistoryByHash _ => cases hs
  | findAccountByEmail _ => cases hs
  | findAccountById _ => cases hs
  | findActiveSessionById _ => cases hs

/-- An entry of the session cache was just written or was there before. -/
theorem RedisCommand.apply_session {c : RedisCommand} {redis : Redis}
    {sessionId : String} {record : SessionCacheRecord}
    (h : (c.apply redis).2.get (.session sessionId) = some record) :
    (AuthStep.redis c).cached? = some (sessionId, record) ∨
      redis.get (.session sessionId) = some record ∧
        (AuthStep.redis c).uncached? ≠ some sessionId := by
  by_cases hwrites : c.Writes (.session sessionId)
  · cases c with
    | set key value ttlSeconds =>
        obtain rfl : RedisKey.session sessionId = key := hwrites
        rcases Store.get_set_eq_some _ h with ⟨-, rfl⟩ | ⟨hne, -⟩
        · exact .inl rfl
        · exact absurd rfl hne
    | del key =>
        obtain rfl : RedisKey.session sessionId = key := hwrites
        exact absurd rfl (Store.get_del_eq_some _ h).1
    | createLoginChallenge userId challengeId payload =>
        rcases hwrites with ⟨id, hid⟩ | hid <;> cases hid
    | incrementFailedLogin userId => rcases hwrites with hid | hid <;> cases hid
    | get key => exact hwrites.elim
    | existsKey key => exact hwrites.elim
    | consumeLoginChallenge challengeId codeHmac nowMs => cases hwrites
    | incrementRateLimit operation dimension hash ttlSeconds => cases hwrites
  · rw [c.get_apply_of_not_writes redis hwrites] at h
    refine .inr ⟨h, ?_⟩
    intro hdel
    cases c with
    | del key =>
        cases key with
        | session s =>
            cases hdel
            exact hwrites rfl
        | _ => cases hdel
    | _ => cases hdel

/-- What `freshCacheWrite` says about the step that is about to write an
entry of the session. -/
theorem freshCacheWrite_cached {k : ℕ} {o : AuthOutside} {call : AuthCall}
    {c : AuthStep} {next : c.Reply → Program AuthStep AuthStep.Reply AuthResult}
    {sessionId : String} {record : SessionCacheRecord}
    (h : freshCacheWrite sessionId σ (.exec k o) = true)
    (hk : σ.threads[k]? = some ⟨call, .call c next⟩)
    (hc : c.cached? = some (sessionId, record)) :
    record.expiresAt ≤ σ.shared.redis.now ∨
      ∀ e ∈ σ.history, e.command.uncached? ≠ some sessionId := by
  simpa [freshCacheWrite, Pool.next?, hk, hc] using h

/-- Once the entry of a session has been deleted, no live entry of it is
visible. -/
theorem uncached_expired {sessionId : String}
    (hok : ∀ σ e, ok σ e → sessionRun e = true ∧ freshCacheWrite sessionId σ e = true)
    (h : (authService config).Reaches ok (Pool.init (AuthState.init users)) σ)
    {record : SessionCacheRecord}
    (hdel : ∃ e ∈ σ.history, e.command.uncached? = some sessionId)
    (hget : σ.shared.redis.get (.session sessionId) = some record) :
    record.expiresAt ≤ σ.shared.redis.now := by
  induction h with
  | refl =>
      obtain ⟨e, he, -⟩ := hdel
      cases he
  | @tail σ₁ σ₂ hrun hstep ih =>
      cases hstep.moves with
      | spawn call hspawn hshared hthreads hhistory =>
          rw [hshared] at hget ⊢
          exact ih (hhistory ▸ hdel) hget
      | environment x henv hshared hthreads hhistory =>
          have hold := ih (hhistory ▸ hdel)
          rw [hshared] at hget ⊢
          cases x with
          | tick n =>
              exact Nat.le_trans (hold (Store.get_tick_eq_some hget))
                (Nat.le_add_right _ n)
          | evict key => exact hold (Store.get_del_eq_some _ hget).2
      | exec e he =>
          obtain ⟨k, c, r⟩ := e
          obtain ⟨o, hoko, hexec⟩ := he.exec
          obtain ⟨call, next, hk, -⟩ := he.thread
          obtain ⟨hcalls, hfresh⟩ := hok _ _ hoko
          have hfault : o.fault = .none := by
            simpa [sessionRun, noFailure] using hcalls
          have hdel' : c.uncached? = some sessionId ∨
              ∃ e ∈ σ₁.history, e.command.uncached? = some sessionId := by
            rw [he.history] at hdel
            simpa using hdel
          by_cases hredis : ∃ cmd, c = .redis cmd
          · obtain ⟨cmd, rfl⟩ := hredis
            have happly := (exec_redis_of_none hfault hexec).2
            rw [happly] at hget ⊢
            rw [cmd.apply_now]
            rcases cmd.apply_session hget with hwrite | ⟨hold, hkept⟩
            · rcases freshCacheWrite_cached hfresh hk hwrite with hle | hnone
              · exact hle
              · rcases hdel' with hc | ⟨e, he, hc⟩
                · cases cmd with
                  | set key value ttlSeconds => cases hc
                  | _ => cases hwrite
                · exact absurd hc (hnone e he)
            · exact ih (hdel'.resolve_left (by simp [hkept])) hold
          · have hsame := (exec_acts hexec).redis.resolve_right
              fun ⟨cmd, hc, _⟩ => hredis ⟨cmd, hc⟩
            have hkept : c.uncached? ≠ some sessionId := by
              cases c with
              | redis cmd => exact absurd ⟨cmd, rfl⟩ hredis
              | _ => exact nofun
            rw [hsame] at hget ⊢
            exact ih (hdel'.resolve_left (by simp [hkept])) hget

/-! ### Validations of a revoked session -/

/-- The exchanges of a validation of a session that is revoked and of which no
live entry is cached: an entry it reads has expired when it looks at the clock,
and the table has no active session. -/
def Outdated (sessionId : String) (trace : AuthTrace) : Prop :=
  (∀ l₂ l₁ (t : ℕ) (record : SessionCacheRecord),
    trace = l₂ ++ ⟨.now, t⟩ :: l₁ →
    (⟨.redis (.get (.session sessionId)), .ok (some record)⟩ :
      Exchange AuthStep AuthStep.Reply) ∈ l₁ → record.expiresAt ≤ t) ∧
  ∀ r, (⟨.repository (.findActiveSessionById sessionId), r⟩ :
    Exchange AuthStep AuthStep.Reply) ∈ trace → r = .ok none

def ValidateEnds (sessionId : String) (trace : AuthTrace)
    (r : Except AuthError (Option AuthPrincipal)) : Prop :=
  Outdated sessionId trace → r = .ok none

theorem validateStored_outdated (sessionId : String) (trace : AuthTrace) :
    (validateStored sessionId).Obeys (fun _ _ => True)
      (ValidateEnds sessionId) trace := by
  simp only [validateStored, obeys_bind, obeys_authRepository, either_ok,
    either_error]
  refine ⟨trivial, fun e h => ?_, fun a => ?_⟩
  · cases h.2 _ List.mem_cons_self
  rcases a with _ | session
  · exact fun _ => rfl
  · refine Program.obeys_of_append fun l r h => ?_
    cases h.2 _ (List.mem_append_right l List.mem_cons_self)

theorem validateSession_outdated (sessionId : String) :
    (AuthSessionService.validateSession sessionId).Obeys (fun _ _ => True)
      (ValidateEnds sessionId) [] := by
  simp only [AuthSessionService.validateSession, readSessionCache, obeys_bind,
    obeys_tryCatch, obeys_getSessionCache, obeys_pure, either_ok, either_error]
  refine ⟨trivial, fun e => validateStored_outdated sessionId _,
    fun cached => ?_⟩
  rcases cached with _ | cached
  · exact validateStored_outdated sessionId _
  · simp only [validateCached, obeys_ite, obeys_pure, obeys_bind, obeys_now,
      either_ok]
    refine ⟨fun _ _ => rfl, fun _ => ⟨trivial, fun t => ⟨fun _ _ => rfl,
      fun hlive h => ?_⟩⟩⟩
    exact absurd (h.1 [] _ t cached rfl List.mem_cons_self) hlive

theorem validate_obeys (config : AuthConfig) (call : AuthCall) :
    Program.Obeys (fun _ _ => True)
      (fun trace v => ∀ sessionId, call = .validateSession sessionId →
        Outdated sessionId trace → v = .ok (.principal none)) []
      ((authService config).body call) := by
  by_cases hcall : ∃ sessionId, call = .validateSession sessionId
  · obtain ⟨sessionId, rfl⟩ := hcall
    refine (obeys_map _ _).2 ((validateSession_outdated sessionId).mono ?_)
    rintro trace r hr
    cases r with
    | ok a =>
        rintro s hs hout
        cases hs
        rw [Except.ok.inj (hr hout)]
    | error e =>
        rintro s hs hout
        cases hs
        cases hr hout
  · exact Program.obeys_of_append fun l v sessionId h =>
      absurd ⟨sessionId, h⟩ hcall

/-- In the runs whose cache writes for a session are fresh its revocation is immediate. -/
theorem revocation_holds_of_freshCacheWrite (config : AuthConfig) :
    RevocationHolds config fun sessionId σ e => freshCacheWrite sessionId σ e = true := by
  intro users σ₁ σ₂ i j sessionId v h₁ hrevoked hdone h₂ hj hv
  have hok : ∀ (σ : AuthPool) (e : AuthEvent),
      (sessionRun e = true ∧ freshCacheWrite sessionId σ e = true) →
        sessionRun e = true := fun _ _ h => h.1
  have hended := revoked_ended hok h₁ hrevoked
  -- the call that revoked the session has deleted its cache entry
  obtain ⟨e, he, hdel⟩ : ∃ e ∈ σ₁.history,
      e.command.uncached? = some sessionId := by
    obtain ⟨a, ha⟩ := Option.isSome_iff_exists.1 hdone
    obtain ⟨call, hcall⟩ := (Pool.result?_eq_some_iff σ₁ i a).1 ha
    have hends := h₁.obeys (fun _ => RevocationMay)
      (fun _ => RevocationEnds)
      (fun σ call h => sessionCall_obeys config (hok σ _ h)) hcall
    obtain ⟨⟨c, r⟩, hr, hc⟩ := List.mem_filterMap.1 (hends sessionId hrevoked)
    exact ⟨_, mem_traceOf.1 hr, hc⟩
  have hsince : ∀ {σ}, (authService config).Reaches
      (fun σ e => sessionRun e = true ∧ freshCacheWrite sessionId σ e = true) σ₁ σ →
        Ended σ.shared.db sessionId ∧
          ∃ e ∈ σ.history, e.command.uncached? = some sessionId := by
    intro σ hσ
    exact ⟨(reaches_since hσ (reaches_sound h₁)).2.ended hended,
      e, hσ.history_suffix.subset he, hdel⟩
  -- so the validation is outdated
  have hrun : (authService config).Reaches
      (fun σ e => sessionRun e = true ∧ freshCacheWrite sessionId σ e = true)
      (Pool.init (AuthState.init users)) σ₂ := h₁.trans h₂
  refine hrun.obeys (fun _ _ _ => True)
    (fun call trace v => ∀ sessionId,
      call = .validateSession sessionId → Outdated sessionId trace →
        v = .ok (.principal none))
    (fun σ call _ => validate_obeys config call) hv sessionId rfl ⟨?_, ?_⟩
  · intro l₂ l₁ t record htrace hget
    obtain ⟨a₂, a₁, hhistory, rfl⟩ := exists_of_traceOf_eq htrace
    obtain ⟨τ₁, τ₂, hτ, ⟨⟨o, -, hnow⟩, -, -⟩, rfl, -⟩ :=
      h₁.split_new h₂ hhistory hj
    obtain rfl : τ₁.shared.redis.now = t :=
      (Prod.mk.inj (Option.some.inj hnow)).1
    obtain ⟨b₂, b₁, hsplit⟩ := List.append_of_mem (mem_traceOf.1 hget)
    obtain ⟨ρ₁, ρ₂, hρ, hfires, -, hafter⟩ := h₁.split_new hτ hsplit hj
    obtain ⟨o', -, hexec⟩ := hfires.exec
    have hexec : exec (.redis (.get (.session sessionId))) o' ρ₁.shared =
      some (.ok (some record), ρ₂.shared) := hexec
    have hvisible : ρ₁.shared.redis.get (.session sessionId) = some record :=
      (Prod.mk.inj (exec_redis_ok hexec).1).1
    have hexpired : record.expiresAt ≤ ρ₁.shared.redis.now :=
      uncached_expired (fun _ _ h => h) (h₁.trans hρ) (hsince hρ).2 hvisible
    have hlater := (reaches_since (Relation.ReflTransGen.head hfires.steps
      hafter) (reaches_sound (h₁.trans hρ))).2.now
    exact Nat.le_trans hexpired hlater
  · intro r hr
    obtain ⟨b₂, b₁, hsplit⟩ := List.append_of_mem (mem_traceOf.1 hr)
    obtain ⟨τ₁, τ₂, hτ, ⟨⟨o, hoko, hexec⟩, -, -⟩, -, -⟩ :=
      h₁.split_new h₂ hsplit hj
    have hfault : o.fault = .none := by
      simpa [sessionRun, noFailure] using hoko.1
    obtain ⟨row, hrow, hid, hrev⟩ := (hsince hτ).1
    have hsound := reaches_sound (h₁.trans hτ)
    have hnone : τ₁.shared.db.findActiveSessionById sessionId = none := by
      rw [AuthDb.findActiveSessionById, List.find?_eq_none]
      intro s hs hboth
      simp only [Bool.and_eq_true, beq_iff_eq] at hboth
      obtain rfl := List.inj_on_of_nodup_map hsound.keys.sessionIds hs hrow
        (hboth.1.trans hid.symm)
      simp [Option.isNone_iff_eq_none.1 hboth.2] at hrev
    rcases exec_repository_of_none hfault hexec with
      ⟨a, hrun, rfl⟩ | ⟨e, hrun, -⟩
    · obtain ⟨rfl, -⟩ := Prod.mk.inj (Except.ok.inj hrun)
      rw [hnone]
    · cases hrun

/-! ### Two runs -/

/-- Hashes and signatures that can be read off. -/
def exampleConfig : AuthConfig where
  hashToken token := "#" ++ token
  hmac code := "#" ++ code
  hashRateLimitValue value := "#" ++ value
  signAccessToken claims _ := claims.sessionId
  compare password hash := password == hash
  toLowerCase raw := raw

/-- The next steps of call `i`, with `id` for every id and secret. -/
def steps (i : ℕ) (id : String) (n : ℕ) : List AuthEvent :=
  List.replicate n (.exec i ⟨⟨1, 1, 1, id, id⟩, id, .none⟩)

/-- An account logs in twice, one login after the other. -/
def afterSecondLogin : AuthPool :=
  (authService exampleConfig).after
    (.spawn (.createSessionAfterLogin "u" "USER") :: steps 0 "a" 7 ++
      .spawn (.createSessionAfterLogin "u" "USER") :: steps 1 "b" 8)
    (Pool.init (AuthState.init [exampleUser]))

def afterValidation : AuthPool :=
  (authService exampleConfig).after
    (.spawn (.validateSession "a") :: steps 2 "c" 2) afterSecondLogin

theorem validation_after_revocation :
    ∃ v, afterValidation.threads[2]? = some ⟨.validateSession "a", .pure v⟩ ∧
      v = .ok (.principal none) :=
  ⟨_, rfl, revocation_holds_of_freshCacheWrite exampleConfig [exampleUser]
    afterSecondLogin afterValidation 1 2 "a" _
    (Semantics.reaches_after _ (by decide)) (by decide) (by decide)
    (Semantics.reaches_after _ (by decide)) (by decide) rfl⟩

/-- The second login runs while the first has not cached its session yet. -/
def afterOvertakenLogin : AuthPool :=
  (authService exampleConfig).after
    (.spawn (.createSessionAfterLogin "u" "USER") :: steps 0 "a" 4 ++
      .spawn (.createSessionAfterLogin "u" "USER") :: steps 1 "b" 8)
    (Pool.init (AuthState.init [exampleUser]))

/-- The first login caches its session, then a validation of it starts. -/
def afterStaleValidation : AuthPool :=
  (authService exampleConfig).after
    (steps 0 "a" 3 ++ .spawn (.validateSession "a") :: steps 2 "c" 2)
    afterOvertakenLogin

/-- A login that was overtaken by a newer one makes its revoked session valid
again. -/
theorem newLogin_overtakes_login :
    ¬ RevocationHolds exampleConfig fun _ _ _ => True := by
  intro h
  have hlate := h [exampleUser] afterOvertakenLogin afterStaleValidation 1 2 "a"
    (.ok (.principal (some ⟨"u", "USER", "a"⟩)))
    (Semantics.reaches_after _ (by decide)) (by decide) (by decide)
    (Semantics.reaches_after _ (by decide)) (by decide) rfl
  cases hlate

end Auth

end Shortlink
