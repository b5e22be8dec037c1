import Shortlink.Auth.SessionCache

/-!
# The cache entry of a session in serial runs

What is cached of a session is an entry of an active session, up to the end of a
call that has revoked it. This holds while Redis does not refuse to delete the
entry when it is there, and it holds for good once the session is revoked and its
entry is gone (`Live`). So a logout that succeeds has ended its session for good,
also when an earlier attempt failed.
-/

namespace Shortlink

namespace Auth

open Shortlink.Storage Shortlink.Table Shortlink.Transaction
open Shortlink.Interaction Shortlink.Expiring AuthProgram

/-- The session's row is there and not revoked. -/
def Active (db : AuthDb) (sessionId : String) : Prop :=
  ∃ row ∈ db.sessions, row.id = sessionId ∧ row.revokedAt = none

/-- Only Redis fails, and it refuses to delete the entry of the session only when there
is none. -/
def deletionSafe (sessionId : String) : AuthStep → AuthOutside → AuthState → Prop
  | .redis (.del (.session deletedId)), o, s =>
      deletedId = sessionId → (∃ e, o.fault = .refused e) →
        s.redis.get (.session sessionId) = none
  | .redis _, _, _ => True
  | _, o, _ => o.fault = .none

/-- The entry of the session is deleted unless there is none. -/
def Guarded (ok : AuthStep → AuthOutside → AuthState → Prop) (sessionId : String) : Prop :=
  ∀ o s e, ok (.redis (.del (.session sessionId))) o s → o.fault = .refused e →
    s.redis.get (.session sessionId) = none

/-- The tables are `db`, and the visible entry of the session is one of an active
session, unless the session is one of `ids` and its entry will be deleted. -/
structure Live (ok : AuthStep → AuthOutside → AuthState → Prop) (sessionId : String)
    (db : AuthDb) (ids : List String) (s : AuthState) : Prop where
  tables : s.db = db
  sound : Sound db
  guard : Guarded ok sessionId ∨ Ended db sessionId
  entry : ∀ cached, s.redis.get (.session sessionId) = some cached →
    Active db sessionId ∨ Guarded ok sessionId ∧ sessionId ∈ ids

/-! ### The tables -/

section

variable {db db' : AuthDb} {sessionId : String}

theorem Active.not_ended (hdb : Keys db) (h : Active db sessionId) :
    ¬ Ended db sessionId := by
  rintro ⟨row', hrow', hid', hrevoked⟩
  obtain ⟨row, hrow, hid, hactive⟩ := h
  obtain rfl := List.inj_on_of_nodup_map hdb.sessionIds hrow hrow' (hid.trans hid'.symm)
  rw [hactive] at hrevoked
  cases hrevoked

theorem findActiveSessionById_eq_none (hdb : Keys db) (h : Ended db sessionId) :
    db.findActiveSessionById sessionId = none := by
  cases hfind : db.findActiveSessionById sessionId with
  | none => rfl
  | some row =>
      obtain ⟨hrow, hid, hactive⟩ := mem_of_findActiveSessionById hfind
      exact absurd h (Active.not_ended hdb ⟨row, hrow, hid, hactive⟩)

theorem TokenChain.session_inj (h : TokenChain db) (hdb : Keys db)
    {row row' : AuthSessionRecord} (hrow : row ∈ db.sessions) (hrow' : row' ∈ db.sessions)
    (hhash : row.refreshTokenHash = row'.refreshTokenHash) : row = row' := by
  have htoken : ∀ r ∈ db.sessions, ∃ t ∈ db.refreshTokens,
      t.sessionId = r.id ∧ t.tokenHash = r.refreshTokenHash := by
    intro r hr
    obtain ⟨t, hfilter, hhash⟩ := h.current r hr
    have hmem : t ∈ db.refreshTokens.filter
        (fun t => t.sessionId == r.id && t.usedAt.isNone) :=
      hfilter ▸ List.mem_singleton_self t
    obtain ⟨ht, hsession⟩ := List.mem_filter.1 hmem
    simp only [Bool.and_eq_true, beq_iff_eq] at hsession
    exact ⟨t, ht, hsession.1, hhash⟩
  obtain ⟨t, ht, hid, ht'⟩ := htoken row hrow
  obtain ⟨u, hu, hid', hu'⟩ := htoken row' hrow'
  obtain rfl := List.inj_on_of_nodup_map h.hashes ht hu
    (ht'.trans (hhash.trans hu'.symm))
  exact List.inj_on_of_nodup_map hdb.sessionIds hrow hrow' (hid.symm.trans hid')

theorem revokeSessionTx_total (hdb : Keys db) (reason : SessionRevocationReason)
    (stamp : Stamp) : ∃ db', (revokeSessionTx sessionId reason stamp).run db =
      .ok ((), db') := by
  simp only [revokeSessionTx, Tx.bind_eq, Tx.query_bind, Tx.run_read]
  cases hfind : db.findSession sessionId with
  | none => exact ⟨db, rfl⟩
  | some session =>
      dsimp only
      split
      · exact ⟨db, rfl⟩
      rename_i hactive
      have haccount := hdb.accounts session (AuthDb.mem_of_findSession hfind).1
      simp only [revokeSessionTx.locked, Tx.bind_eq, lockAccount_bind_run haccount,
        Tx.query_bind, Tx.run_read, hfind, if_neg hactive]
      exact ⟨_, rfl⟩

/-- A method leaves the sessions active that it does not revoke. -/
theorem Active.unrevoked {c : AuthCommand} {stamp : Stamp} {a : c.Res}
    (h : Active db sessionId) (hrun : (c.impl stamp).run db = .ok (a, db'))
    (hid : sessionId ∉ c.revoked a) : Active db' sessionId := by
  obtain ⟨row, hrow, rfl, hactive⟩ := h
  by_cases htouched : row.id ∈ c.touched a
  · cases c with
    | createExclusiveSession userId sessionData =>
        have hcreated := createExclusiveSessionTx_run hrun
        rcases List.mem_append.1 htouched with h | h
        · exact absurd h hid
        · exact absurd (List.mem_singleton.1 h) (hcreated.freshSession row hrow)
    | rotateRefreshToken id input =>
        obtain ⟨session, token, hrot⟩ := rotateRefreshTokenTx_run hrun
        rw [hrot.result]
        obtain ⟨row', hrow', heq⟩ := AuthDb.mem_saveRotated a.session hrow
        refine ⟨row', hrow', ?_, ?_⟩
        · rw [heq]
          split <;> rfl
        · rw [heq]
          split <;> exact hactive
    | revokeSession id reason => exact absurd htouched hid
    | revokeAllSessions userId reason => exact absurd htouched hid
    | findAccountByEmail _ => cases htouched
    | findAccountById _ => cases htouched
    | findActiveSessionById _ => cases htouched
    | findSessionByRefreshTokenHash _ => cases htouched
    | findRefreshTokenHistoryByHash _ => cases htouched
  · exact ⟨row, c.impl_untouched hrun hrow htouched, rfl, hactive⟩

end

/-! ### The steps -/

section

variable {α β : Type} {config : AuthConfig}
  {ok : AuthStep → AuthOutside → AuthState → Prop} {watched : String}
  {s s' : AuthState} {db : AuthDb} {ids : List String}

theorem Live.idled (h : Live ok watched db ids s) (hidle : Idled s s') :
    Live ok watched db ids s' :=
  ⟨hidle.db.trans h.tables, h.sound, h.guard, fun cached hget =>
    h.entry cached (hidle.entry _ _ hget)⟩

theorem Live.current (h : Live ok watched db ids s) : Live ok watched s.db ids s :=
  h.tables ▸ h

/-- An ended session has no entry when no deletion is due. -/
theorem Live.get_session (h : Live ok watched db [] s) (hended : Ended db watched) :
    s.redis.get (.session watched) = none := by
  cases hget : s.redis.get (.session watched) with
  | none => rfl
  | some cached =>
      rcases h.entry cached hget with hactive | ⟨-, hdue⟩
      · exact absurd hended (hactive.not_ended h.sound.keys)
      · cases hdue

/-- A Redis command that writes no session entry, or one of an active session,
keeps the entry live. -/
theorem Live.redis (h : Live ok watched db ids s) {c : RedisCommand} {o : AuthOutside}
    {r : AuthStep.Reply (.redis c)} (hexec : exec (.redis c) o s = some (r, s'))
    (hset : ∀ id cached, (AuthStep.redis c).cached? = some (id, cached) → Active db id) :
    Live ok watched db ids s' := by
  cases exec_acts hexec with
  | idle c => exact h
  | executed c =>
      refine ⟨h.tables, h.sound, h.guard, fun cached hget => ?_⟩
      rcases RedisCommand.apply_session hget with hcached | ⟨hold, -⟩
      · exact .inl (hset watched cached hcached)
      · exact h.entry cached hold

theorem Live.quiet (h : Live ok watched db ids s) {c : AuthStep} (hc : c.Quiet)
    {o : AuthOutside} {r : c.Reply} (hexec : exec c o s = some (r, s')) :
    Live ok watched db ids s' := by
  have hdb : s'.db = db := (hc.1.exec hexec).trans h.tables
  cases c with
  | redis c =>
      refine h.redis hexec fun id cached hcached => ?_
      rw [hc.2] at hcached
      cases hcached
  | _ =>
      have hredis : s'.redis = s.redis :=
        (exec_acts hexec).redis.resolve_right (by rintro ⟨cmd, hcmd, -⟩; cases hcmd)
      exact ⟨hdb, h.sound, h.guard, fun cached hget => h.entry cached (hredis ▸ hget)⟩

theorem ensures_quiet {p : AuthProgram α} (hp : p.Issues AuthStep.Quiet)
    (h : Live ok watched db ids s) :
    p.Ensures config ok (fun _ _ s' => Live ok watched db ids s') s :=
  fun _ _ _ hrun => (hrun.invariant
    (fun x s₁ h₁ => Live.idled h₁ (environment_idled x s₁))
    (fun _ _ _ _ _ h₁ hc _ hexec => ⟨trivial, Live.quiet h₁ hc hexec⟩) hp h).1

/-- A part that keeps the entry live comes first. -/
theorem ensures_after_quiet {p : AuthProgram α} {f : α → AuthProgram β}
    (hp : p.Issues AuthStep.Quiet) (h : Live ok watched db ids s)
    (hf : ∀ a s₁, Live ok watched db ids s₁ →
      (f a).Ensures config ok (fun _ _ s' => Live ok watched s'.db ids s') s₁) :
    (p >>= f).Ensures config ok (fun _ _ s' => Live ok watched s'.db ids s') s :=
  .bind (ensures_quiet hp h) (fun _ a s₁ h₁ => hf a s₁ h₁) fun _ _ _ h₁ => h₁.current

/-- After a repository step the entry is due when the session has been revoked. -/
theorem live_authRepository (hok : ∀ c o s, ok (.repository c) o s → o.fault = .none)
    (c : AuthCommand) (h : Live ok watched db ids s) :
    (authRepository c).Ensures config ok (fun _ r s' => match r with
      | .ok a => ∃ stamp db', (c.impl stamp).run db = .ok (a, db') ∧
          Live ok watched db' (c.revoked a ++ ids) s'
      | .error _ => Live ok watched db ids s') s := by
  refine .of_authRepository fun s₁ o r s₂ s' hidle hfault hexec hidle' => ?_
  have h₁ := h.idled hidle
  rcases exec_repository_of_none (hok _ _ _ hfault) hexec with
    ⟨a, hrun, rfl⟩ | ⟨e, hrun, rfl, rfl⟩
  · have hredis := (exec_repository_ok hexec).2
    rw [h₁.tables] at hrun
    have hlater := c.impl_later h.sound.keys hrun
    refine ⟨o.stamp, s₂.db, hrun, Live.idled ⟨rfl, h.sound.run hrun,
      h.guard.imp_right hlater.ended, fun cached hget => ?_⟩ hidle'⟩
    rw [hredis] at hget
    rcases h₁.entry cached hget with hactive | ⟨hguarded, hdue⟩
    · by_cases hid : watched ∈ c.revoked a
      · refine .inr ⟨h.guard.resolve_right fun hended => ?_, List.mem_append_left _ hid⟩
        exact hactive.not_ended h.sound.keys hended
      · exact .inl (hactive.unrevoked hrun hid)
    · exact .inr ⟨hguarded, List.mem_append_right _ hdue⟩
  · exact h₁.idled hidle'

/-- After a deletion the entry is not due any more, and the deletion may still
fail. -/
theorem live_deleteSessionCache {id : String} (h : Live ok watched db (id :: ids) s) :
    (RedisAuthStateService.deleteSessionCache id).Ensures config ok
      (fun _ r s' => (∀ e, r = .error e → e = .storageUnavailable) ∧
        Live ok watched db ids s') s := by
  refine Ensures.of_redis (c := .del (.session id))
    fun s₁ o r s₂ s' hidle hdel hexec hidle' => ?_
  have h₁ := h.idled hidle
  refine ⟨fun e he => ?_, Live.idled ?_ hidle'⟩
  · rcases r with e' | a
    · cases he; rfl
    · cases he
  have hreads : (AuthStep.redis (.del (.session id))).Reads := trivial
  refine ⟨(hreads.exec hexec).trans h₁.tables, h.sound, h.guard, fun cached hget => ?_⟩
  have happly : o.fault.apply s₁ (execRedis (.del (.session id)) s₁) = (r, s₂) :=
    Option.some.inj hexec
  rcases o.fault.apply_cases s₁ (execRedis (.del (.session id)) s₁) with
    ⟨e, hfault, hrefused⟩ | ⟨-, hstate, -⟩
  · obtain ⟨-, rfl⟩ := Prod.mk.inj (happly.symm.trans hrefused)
    refine (h₁.entry cached hget).imp_right fun ⟨hguarded, hdue⟩ => ⟨hguarded, ?_⟩
    refine (List.mem_cons.1 hdue).resolve_left ?_
    rintro rfl
    have hnone := hguarded o s₂ e hdel hfault
    rw [hnone] at hget
    cases hget
  · rw [happly] at hstate
    have hdeleted : s₂.redis = s₁.redis.del (.session id) :=
      congrArg AuthState.redis hstate
    rw [hdeleted] at hget
    obtain ⟨hne, hold⟩ := Store.get_del_eq_some _ hget
    refine (h₁.entry cached hold).imp_right fun ⟨hguarded, hdue⟩ => ⟨hguarded, ?_⟩
    exact (List.mem_cons.1 hdue).resolve_left fun heq => hne (by rw [heq])

theorem live_deleteSessionCaches {deleted : List String}
    (h : Live ok watched db (deleted ++ ids) s) :
    (AuthSessionService.deleteSessionCaches deleted).Ensures config ok
      (fun _ r s' => r = .ok () ∧ Live ok watched db ids s') s := by
  induction deleted generalizing s with
  | nil => exact .of_pure fun s' hidle => ⟨rfl, h.idled hidle⟩
  | cons id deleted ih =>
      have hfirst : (AuthSessionService.deleteSessionCacheBestEffort id).Ensures config
          ok (fun _ r s' => r = .ok () ∧ Live ok watched db (deleted ++ ids) s') s := by
        refine .tryCatch (live_deleteSessionCache h) (fun _ _ _ h₁ => ⟨rfl, h₁.2⟩)
          fun _ e s₁ h₁ => ?_
        obtain rfl := h₁.1 e rfl
        exact .of_pure fun s' hidle => ⟨rfl, h₁.2.idled hidle⟩
      exact .bind hfirst (fun _ _ _ h₁ => ih h₁.2) fun _ _ _ h₁ => by cases h₁.1

/-- The entry of an active session may be written. -/
theorem live_setSessionCache {session : SessionCacheRecord}
    (hactive : Active db session.sessionId) (h : Live ok watched db ids s) :
    (RedisAuthStateService.setSessionCache session).Ensures config ok
      (fun _ r s' => (∀ e, r = .error e → e = .storageUnavailable) ∧
        Live ok watched db ids s') s := by
  have hnow : now.Ensures config ok
      (fun _ r s' => (∃ t, r = .ok t) ∧ Live ok watched db ids s') s :=
    .of_now fun _ _ _ hidle hidle' => ⟨⟨_, rfl⟩, (h.idled hidle).idled hidle'⟩
  refine .bind hnow (fun _ now s₁ h₁ => ?_) fun _ _ _ h₁ => by
    cases h₁.1.choose_spec
  refine Ensures.of_redis (c := RedisAuthStateService.cacheWrite session now)
    fun s₂ o r s₃ s' hidle _ hexec hidle' => ⟨fun e he => ?_, ?_⟩
  · rcases r with e' | a
    · cases he; rfl
    · cases he
  · refine Live.idled ((h₁.2.idled hidle).redis hexec fun id cached hcached => ?_) hidle'
    cases hcached
    exact hactive

theorem live_issueTokens (claims : AccessTokenClaims) (refreshToken csrfToken : String) :
    (AuthSessionService.issueTokens config claims refreshToken csrfToken).Issues
      AuthStep.Quiet :=
  .bind (issues_now ⟨trivial, rfl⟩) fun _ => issues_pure _

end

/-! ### The calls -/

/-- The entry of the session is live, and no deletion is due. -/
def EndsLive (ok : AuthStep → AuthOutside → AuthState → Prop) (sessionId : String)
    {α : Type} (_ : AuthLog) (_ : Except AuthError α) (s : AuthState) : Prop :=
  Live ok sessionId s.db [] s

section

variable {config : AuthConfig} {ok : AuthStep → AuthOutside → AuthState → Prop}
  (hok : ∀ c o s, ok (.repository c) o s → o.fault = .none) {watched : String}
  {s : AuthState}

include hok

theorem createSessionAfterLogin_live (userId role : String) (h : Live ok watched s.db [] s) :
    (AuthSessionService.createSessionAfterLogin config userId role).Ensures config
      ok (EndsLive ok watched) s := by
  refine ensures_after_quiet (issues_generate ⟨trivial, rfl⟩) h
    fun refreshToken s₁ h₁ => ?_
  refine ensures_after_quiet (issues_generate ⟨trivial, rfl⟩) h₁ fun csrfToken s₂ h₂ => ?_
  refine ensures_after_quiet (issues_now ⟨trivial, rfl⟩) h₂ fun now s₃ h₃ => ?_
  refine .bind (live_authRepository hok _ h₃) (fun _ created s₄ h₄ => ?_)
    fun _ _ _ h₄ => h₄.current
  obtain ⟨stamp, db', hrun, h₄⟩ := h₄
  have hcreated := createExclusiveSessionTx_run hrun
  have hactive : Active db' created.session.id := by
    refine ⟨created.session, ?_, rfl, by rw [hcreated.session]⟩
    rw [hcreated.result]
    exact List.mem_append_right _ (List.mem_singleton_self _)
  refine .bind (live_deleteSessionCaches h₄) (fun _ _ s₅ h₅ => ?_)
    fun _ _ _ h₅ => by cases h₅.1
  refine .bind (live_setSessionCache hactive h₅.2) (fun _ _ s₆ h₆ => ?_)
    fun _ _ _ h₆ => h₆.2.current
  exact (ensures_quiet (live_issueTokens _ _ _) h₆.2).mono fun _ _ _ h => h.current

theorem refreshReused_live (history : SessionRefreshTokenRecord) (h : Live ok watched s.db [] s) :
    (AuthSessionService.refreshReused history).Ensures config ok (EndsLive ok watched) s := by
  refine .bind (live_authRepository hok (.revokeSession history.sessionId .refreshReuse) h)
    (fun _ _ s₁ h₁ => ?_) fun _ _ _ h₁ => h₁.current
  obtain ⟨stamp, db', -, h₁⟩ := h₁
  refine .bind (live_deleteSessionCache h₁) (fun _ _ s₂ h₂ => ?_)
    fun _ _ _ h₂ => h₂.2.current
  exact .of_throw fun _ hidle => (h₂.2.idled hidle).current

theorem rotate_live (tokenHash : String) (session : AuthSessionRecord)
    (account : AccountRecord) (h : Live ok watched s.db [] s) :
    (AuthSessionService.rotate config tokenHash session account).Ensures config
      ok (EndsLive ok watched) s := by
  refine ensures_after_quiet (issues_generate ⟨trivial, rfl⟩) h
    fun nextRefreshToken s₁ h₁ => ?_
  refine ensures_after_quiet (issues_now ⟨trivial, rfl⟩) h₁ fun now s₂ h₂ => ?_
  refine .bind (live_authRepository hok _ h₂) (fun _ rotated s₃ h₃ => ?_)
    fun _ _ _ h₃ => h₃.current
  obtain ⟨stamp, db', hrun, h₃⟩ := h₃
  obtain ⟨row, token, hrot⟩ := rotateRefreshTokenTx_run hrun
  have hactive : Active db' rotated.session.id := by
    obtain ⟨hrow, hid⟩ := AuthDb.mem_of_findSession hrot.find
    have hrotated : rotated.session.id = row.id := by rw [hrot.session]
    rw [hrotated]
    exact Active.unrevoked ⟨row, hrow, rfl, hrot.active⟩ hrun List.not_mem_nil
  refine .bind (live_setSessionCache hactive h₃) (fun _ _ s₄ h₄ => ?_)
    fun _ _ _ h₄ => h₄.2.current
  exact (ensures_quiet (live_issueTokens _ _ _) h₄.2).mono fun _ _ _ h => h.current

theorem sessionRefresh_live (refreshToken : String) (h : Live ok watched s.db [] s) :
    (AuthSessionService.refresh config refreshToken).Ensures config ok
      (EndsLive ok watched) s := by
  have hthrow : ∀ (e : AuthError) (s₁ : AuthState), Live ok watched s.db [] s₁ →
      (throw e : AuthProgram IssuedSessionTokens).Ensures config ok (EndsLive ok watched) s₁ :=
    fun e s₁ h₁ => .of_throw fun _ hidle => (h₁.idled hidle).current
  refine ensures_after_quiet (issues_authRepository ⟨trivial, rfl⟩) h
    fun history s₁ h₁ => ?_
  rcases history with _ | history
  · exact hthrow _ s₁ h₁
  · dsimp only
    split
    · exact refreshReused_live hok history h₁.current
    refine ensures_after_quiet (issues_authRepository ⟨trivial, rfl⟩) h₁
      fun session s₂ h₂ => ?_
    rcases session with _ | session
    · exact hthrow _ s₂ h₂
    · refine ensures_after_quiet (issues_now ⟨trivial, rfl⟩) h₂ fun now s₃ h₃ => ?_
      split
      · exact hthrow _ s₃ h₃
      refine ensures_after_quiet (issues_authRepository ⟨trivial, rfl⟩) h₃
        fun account s₄ h₄ => ?_
      rcases account with _ | account
      · exact hthrow _ s₄ h₄
      · exact rotate_live hok _ session account h₄.current

theorem logout_live (refreshToken : String) (h : Live ok watched s.db [] s) :
    (AuthSessionService.logout config refreshToken).Ensures config ok
      (EndsLive ok watched) s := by
  refine ensures_after_quiet (issues_authRepository ⟨trivial, rfl⟩) h
    fun session s₁ h₁ => ?_
  rcases session with _ | session
  · exact .of_pure fun _ hidle => (h₁.idled hidle).current
  · dsimp only
    split
    · exact .of_pure fun _ hidle => (h₁.idled hidle).current
    refine .bind (live_authRepository hok (.revokeSession session.id .logout) h₁)
      (fun _ _ s₂ h₂ => ?_) fun _ _ _ h₂ => h₂.current
    obtain ⟨stamp, db', -, h₂⟩ := h₂
    exact (live_deleteSessionCache h₂).mono fun _ _ _ h => h.2.current

theorem revokeAll_live (userId : String) (reason : SessionRevocationReason)
    (h : Live ok watched s.db [] s) :
    (AuthSessionService.revokeAll userId reason).Ensures config ok (EndsLive ok watched) s := by
  refine .bind (live_authRepository hok (.revokeAllSessions userId reason) h)
    (fun _ ids s₁ h₁ => ?_) fun _ _ _ h₁ => h₁.current
  obtain ⟨stamp, db', -, h₁⟩ := h₁
  exact (live_deleteSessionCaches h₁).mono fun _ _ _ h => h.2.current

theorem validateStored_live (sessionId : String) (h : Live ok watched s.db [] s) :
    (AuthSessionService.validateStored sessionId).Ensures config ok (EndsLive ok watched) s := by
  refine .bind (live_authRepository hok (.findActiveSessionById sessionId) h)
    (fun _ session s₁ h₁ => ?_) fun _ _ _ h₁ => h₁.current
  obtain ⟨stamp, db', hrun, h₁⟩ := h₁
  obtain ⟨hfind, rfl⟩ := Prod.mk.inj (Except.ok.inj hrun)
  rcases session with _ | session
  · exact .of_pure fun _ hidle => (h₁.idled hidle).current
  · obtain ⟨hrow, -, hactive⟩ := mem_of_findActiveSessionById hfind
    refine ensures_after_quiet (issues_now ⟨trivial, rfl⟩) h₁ fun now s₂ h₂ => ?_
    split
    · exact .of_pure fun _ hidle => (h₂.idled hidle).current
    refine ensures_after_quiet (issues_authRepository ⟨trivial, rfl⟩) h₂
      fun account s₃ h₃ => ?_
    rcases account with _ | account
    · exact .of_pure fun _ hidle => (h₃.idled hidle).current
    · have hset : (RedisAuthStateService.setSessionCache
          ⟨session.id, account.id, account.role.value, session.expiresAt, true⟩).Ensures
          config ok (fun _ r s' =>
            (∀ e, r = .error e → e = .storageUnavailable) ∧
              Live ok watched s.db [] s') s₃ :=
        live_setSessionCache ⟨session, hrow, rfl, hactive⟩ h₃
      have hbest : (AuthSessionService.bestEffort (RedisAuthStateService.setSessionCache
          ⟨session.id, account.id, account.role.value, session.expiresAt,
            true⟩)).Ensures config ok (fun _ _ s' => Live ok watched s.db [] s') s₃ := by
        refine .tryCatch hset (fun _ _ _ h₄ => h₄.2) fun _ e s₄ h₄ => ?_
        obtain rfl := h₄.1 e rfl
        exact .of_pure fun _ hidle => h₄.2.idled hidle
      exact .bind hbest (fun _ _ _ h₄ => .of_pure fun _ hidle =>
        (h₄.idled hidle).current) fun _ _ _ h₄ => h₄.current

theorem validateSession_live (sessionId : String) (h : Live ok watched s.db [] s) :
    (AuthSessionService.validateSession sessionId).Ensures config ok
      (EndsLive ok watched) s := by
  have hget : (RedisAuthStateService.getSessionCache sessionId).Issues AuthStep.Quiet :=
    issues_redis (c := .get (.session sessionId)) ⟨trivial, rfl⟩
  refine ensures_after_quiet (.tryCatch hget fun e => ?_) h fun cached s₁ h₁ => ?_
  · cases e <;> first | exact issues_pure _ | exact issues_throw _
  rcases cached with _ | cached
  · exact validateStored_live hok sessionId h₁.current
  · refine (ensures_quiet ?_ h₁).mono fun _ _ _ h => h.current
    dsimp only
    rw [AuthSessionService.validateCached]
    split
    · exact issues_pure _
    refine .bind (issues_now ⟨trivial, rfl⟩) fun now => ?_
    split <;> exact issues_pure _

theorem refresh_live (refreshToken : String) (h : Live ok watched s.db [] s) :
    (AuthService.refresh config refreshToken).Ensures config ok (EndsLive ok watched) s :=
  .rethrow AuthError.unavailable (fun e => by cases e <;> rfl)
    (.rethrow AuthError.invalidSession (fun e => by cases e <;> rfl)
      (.bind (sessionRefresh_live hok refreshToken h)
        (fun _ _ s₁ h₁ => .of_pure fun _ hidle => (Live.idled h₁ hidle).current)
        fun _ _ _ h₁ => h₁))

theorem completeLogin_live (input : VerifyLoginDto) (h : Live ok watched s.db [] s) :
    (AuthService.completeLogin config input).Ensures config ok (EndsLive ok watched) s := by
  have hthrow : ∀ (e : AuthError) (s₁ : AuthState), Live ok watched s.db [] s₁ →
      (throw e : AuthProgram CompletedLogin).Ensures config ok (EndsLive ok watched) s₁ :=
    fun e s₁ h₁ => .of_throw fun _ hidle => (h₁.idled hidle).current
  have hconsumed : ∀ (userId : String) (s₁ : AuthState), Live ok watched s.db [] s₁ →
      (AuthService.loginConsumed config userId).Ensures config ok (EndsLive ok watched) s₁ := by
    intro userId s₁ h₁
    refine ensures_after_quiet (isLoginLocked_quiet userId) h₁ fun locked s₂ h₂ => ?_
    split
    · exact hthrow _ s₂ h₂
    refine ensures_after_quiet (issues_authRepository ⟨trivial, rfl⟩) h₂
      fun account s₃ h₃ => ?_
    rcases account with _ | account
    · exact hthrow _ s₃ h₃
    · dsimp only
      split
      · exact hthrow _ s₃ h₃
      refine .bind (createSessionAfterLogin_live hok _ _ h₃.current)
        (fun _ tokens s₄ h₄ => ?_) fun _ _ _ h₄ => h₄
      exact ensures_after_quiet (issues_audit ⟨trivial, rfl⟩) h₄ fun _ s₅ h₅ =>
        .of_pure fun _ hidle => (h₅.idled hidle).current
  have hverify : ∀ (challengeUserId : Option String) (s₁ : AuthState),
      Live ok watched s.db [] s₁ →
      (AuthService.verifyChallenge config input challengeUserId).Ensures config
        ok (EndsLive ok watched) s₁ := by
    intro challengeUserId s₁ h₁
    refine ensures_after_quiet (consumeLoginChallenge_quiet _ _) h₁
      fun consumed s₂ h₂ => ?_
    have hrejected : ∀ userId : String, (AuthService.rejectLogin userId :
        AuthProgram CompletedLogin).Ensures config ok (EndsLive ok watched) s₂ :=
      fun userId => (ensures_quiet (rejectLogin_quiet userId) h₂).mono
        fun _ _ _ h => h.current
    cases consumed with
    | consumed userId => exact hconsumed userId s₂ h₂
    | invalid =>
        cases challengeUserId with
        | none => exact hthrow _ s₂ h₂
        | some userId => exact hrejected userId
    | missing =>
        cases challengeUserId with
        | none => exact hthrow _ s₂ h₂
        | some userId => exact hrejected userId
  refine .rethrow AuthError.unavailable (fun e => by cases e <;> rfl) ?_
  refine ensures_after_quiet (findLoginChallengeUserId_quiet _) h
    fun challengeUserId s₁ h₁ => ?_
  rcases challengeUserId with _ | userId
  · exact hverify none s₁ h₁
  · refine ensures_after_quiet (isLoginLocked_quiet userId) h₁ fun locked s₂ h₂ => ?_
    split
    · exact hthrow _ s₂ h₂
    · exact hverify (some userId) s₂ h₂

theorem call_live (call : AuthCall) (h : Live ok watched s.db [] s) :
    (call.program config).Ensures config ok (EndsLive ok watched) s := by
  cases call with
  | createSessionAfterLogin userId role =>
      exact .map (createSessionAfterLogin_live hok userId role h)
  | sessionRefresh refreshToken => exact .map (sessionRefresh_live hok refreshToken h)
  | logout refreshToken => exact .map (logout_live hok refreshToken h)
  | revokeAll userId reason => exact .map (revokeAll_live hok userId reason h)
  | validateSession sessionId => exact .map (validateSession_live hok sessionId h)
  | refresh refreshToken => exact .map (refresh_live hok refreshToken h)
  | startLogin input clientIp =>
      exact .map ((ensures_quiet (startLogin_quiet input clientIp) h).mono
        fun _ _ _ h => h.current)
  | completeLogin input => exact .map (completeLogin_live hok input h)
  | processLogin data =>
      exact .map ((ensures_quiet (processLogin_quiet data) h).mono
        fun _ _ _ h => h.current)

end

/-! ### Serial runs -/

section

variable {config : AuthConfig} {ok : AuthStep → AuthOutside → AuthState → Prop}
  {sessionId : String} {s s' : AuthState}

/-- What holds of the session between the calls of a serial run. -/
abbrev Steady (ok : AuthStep → AuthOutside → AuthState → Prop) (sessionId : String)
    (s : AuthState) : Prop :=
  Live ok sessionId s.db [] s

theorem steady_init (users : List AccountRecord) (h : Guarded ok sessionId) :
    Steady ok sessionId (AuthState.init users) := by
  refine ⟨rfl, sound_init users, .inl h, fun cached hget => ?_⟩
  rw [AuthState.init, Store.get_empty] at hget
  cases hget

theorem Steady.idled (h : Steady ok sessionId s) (hidle : Idled s s') :
    Steady ok sessionId s' :=
  (Live.idled h hidle).current

/-- A run keeps what is steady, and it makes the tables older. -/
theorem Steady.serially (hok : ∀ c o s, ok (.repository c) o s → o.fault = .none)
    (hs : Steady ok sessionId s)
    (h : (authService config).Serially (fun _ _ => True) (fun _ => ok) s s') :
    Steady ok sessionId s' ∧ Since s s' := by
  induction h with
  | refl => exact ⟨hs, .refl s⟩
  | tail _ hstep ih =>
      obtain ⟨hsteady, hsince⟩ := ih
      cases hstep with
      | environment x =>
          exact ⟨hsteady.idled (environment_idled x _),
            hsince.trans (environment_since x hsteady.sound).2⟩
      | call call es a _ hstart hrun =>
          exact ⟨call_live hok call hsteady es a _ hrun,
            hsince.trans (executes_since hrun hsteady.sound).2⟩

theorem validateSession_of_ended
    (hok : ∀ c o s, ok (.repository c) o s → o.fault = .none)
    (h : Steady ok sessionId s) (hended : Ended s.db sessionId) :
    (AuthSessionService.validateSession sessionId).Ensures config ok
      (fun _ r _ => r = .ok none) s := by
  have hstored : ∀ s₁ : AuthState, s₁.db = s.db →
      (AuthSessionService.validateStored sessionId).Ensures config ok
        (fun _ r _ => r = .ok none) s₁ := by
    intro s₁ hdb
    have hnone := findActiveSessionById_eq_none h.sound.keys hended
    have hquery : (authRepository (.findActiveSessionById sessionId)).Ensures config ok
        (fun _ r _ => r = .ok none) s₁ := by
      refine Ensures.of_authRepository (c := .findActiveSessionById sessionId)
        fun s₂ o r s₃ s' hidle hfault hexec _ => ?_
      rcases exec_repository_of_none (hok _ _ _ hfault) hexec with
        ⟨a, hrun, rfl⟩ | ⟨e, hrun, -⟩
      · obtain ⟨rfl, -⟩ := Prod.mk.inj (Except.ok.inj hrun)
        rw [hidle.db, hdb, hnone]
        rfl
      · cases hrun
    refine .bind hquery (fun _ session s₂ h₂ => ?_) fun _ _ _ h₂ => by cases h₂
    cases h₂
    exact .of_pure fun _ _ => rfl
  have hread : (AuthSessionService.readSessionCache sessionId).Ensures config ok
      (fun _ r s' => r = .ok none ∧ s'.db = s.db) s := by
    have hget : (RedisAuthStateService.getSessionCache sessionId).Ensures config ok
        (fun _ r s' => (r = .ok none ∨ r = .error .storageUnavailable) ∧
          s'.db = s.db) s := by
      refine Ensures.of_redis (c := .get (.session sessionId))
        fun s₁ o r s₂ s' hidle _ hexec hidle' => ⟨?_, ?_⟩
      · rcases r with e | _ | cached
        · exact .inr rfl
        · exact .inl rfl
        · have hread : s₁.redis.get (.session sessionId) = some cached :=
            (Prod.mk.inj (exec_redis_ok hexec).1).1
          have hnone := h.get_session hended
          rw [hidle.entry _ _ hread] at hnone
          cases hnone
      · have hreads : (AuthStep.redis (.get (.session sessionId))).Reads := trivial
        exact (hidle'.db.trans (hreads.exec hexec)).trans hidle.db
    refine .tryCatch hget (fun _ cached s₁ h₁ => ?_) fun _ e s₁ h₁ => ?_
    · rcases h₁ with ⟨h₁ | h₁, hdb⟩
      · exact ⟨h₁, hdb⟩
      · cases h₁
    · rcases h₁ with ⟨h₁ | h₁, hdb⟩ <;> cases h₁
      exact .of_pure fun _ hidle => ⟨rfl, hidle.db.trans hdb⟩
  refine .bind hread (fun _ cached s₁ h₁ => ?_) fun _ _ _ h₁ => by cases h₁.1
  obtain ⟨hcached, hdb⟩ := h₁
  cases hcached
  exact hstored s₁ hdb

/-- A logout has ended the session whose current token it was given, whether or
not it succeeds. -/
theorem logout_ends (hok : ∀ c o s, ok (.repository c) o s → o.fault = .none)
    (hs : Sound s.db) {refreshToken : String} {row : AuthSessionRecord}
    (hrow : row ∈ s.db.sessions)
    (hcurrent : row.refreshTokenHash = config.hashToken refreshToken) :
    (AuthSessionService.logout config refreshToken).Ensures config ok
      (fun _ _ s' => Ended s'.db row.id) s := by
  have hdb := hs.keys
  have hfind : s.db.findSessionByRefreshTokenHash (config.hashToken refreshToken) =
      some row := by
    cases hfind : s.db.findSessionByRefreshTokenHash (config.hashToken refreshToken) with
    | none =>
        have hother := List.find?_eq_none.1 hfind row hrow
        simp [hcurrent] at hother
    | some row' =>
        have hhash : row'.refreshTokenHash = config.hashToken refreshToken := by
          simpa using List.find?_some hfind
        rw [hs.chain.session_inj hdb (List.mem_of_find?_eq_some hfind) hrow
          (hhash.trans hcurrent.symm)]
  have hquery : (authRepository (.findSessionByRefreshTokenHash
      (config.hashToken refreshToken))).Ensures config ok
      (fun _ r s' => r = .ok (some row) ∧ s'.db = s.db) s := by
    refine Ensures.of_authRepository
      (c := .findSessionByRefreshTokenHash (config.hashToken refreshToken))
      fun s₁ o r s₂ s' hidle hfault hexec hidle' => ?_
    rcases exec_repository_of_none (hok _ _ _ hfault) hexec with
      ⟨a, hrun, rfl⟩ | ⟨e, hrun, -⟩
    · obtain ⟨rfl, hsame⟩ := Prod.mk.inj (Except.ok.inj hrun)
      refine ⟨?_, hidle'.db.trans (hsame.symm.trans hidle.db)⟩
      rw [hidle.db, hfind]
      rfl
    · cases hrun
  refine .bind hquery (fun _ session s₁ h₁ => ?_) fun _ _ _ h₁ => by cases h₁.1
  obtain ⟨hsession, hdb₁⟩ := h₁
  cases hsession
  dsimp only
  split
  · rename_i hrevoked
    refine .of_pure fun s' hidle => ⟨row, ?_, rfl, hrevoked⟩
    rw [hidle.db, hdb₁]
    exact hrow
  have hrevoke : (authRepository (.revokeSession row.id .logout)).Ensures config ok
      (fun _ r s' => (∃ u, r = .ok u) ∧ Ended s'.db row.id) s₁ := by
    refine Ensures.of_authRepository (c := .revokeSession row.id .logout)
      fun s₂ o r s₃ s' hidle hfault hexec hidle' => ?_
    have htables : s₂.db = s.db := hidle.db.trans hdb₁
    rcases exec_repository_of_none (hok _ _ _ hfault) hexec with
      ⟨a, hrun, rfl⟩ | ⟨e, hrun, -⟩
    · have hrun : (revokeSessionTx row.id .logout o.stamp).run s₂.db = .ok (a, s₃.db) :=
        hrun
      refine ⟨⟨_, rfl⟩, ?_⟩
      rw [hidle'.db]
      exact (revokeSessionTx_run hrun).ended (htables ▸ hdb) ⟨row, htables ▸ hrow, rfl⟩
    · obtain ⟨db', htotal⟩ : ∃ db', (revokeSessionTx row.id .logout o.stamp).run s₂.db =
          .ok ((), db') := revokeSessionTx_total (htables ▸ hdb) .logout o.stamp
      cases hrun.symm.trans htotal
  refine .bind hrevoke (fun _ _ s₂ h₂ => ?_) fun _ _ _ h₂ => by
    cases h₂.1.choose_spec
  refine Ensures.of_redis (c := .del (.session row.id))
    fun s₃ o r s₄ s' hidle _ hexec hidle' => ?_
  have hreads : (AuthStep.redis (.del (.session row.id))).Reads := trivial
  rw [hidle'.db, hreads.exec hexec, hidle.db]
  exact h₂.2

theorem guarded_deletionSafe (sessionId : String) :
    Guarded (deletionSafe sessionId) sessionId :=
  fun _ _ e hdel hfault => hdel rfl ⟨e, hfault⟩

def CurrentToken (config : AuthConfig) (refreshToken sessionId : String) (s : AuthState) :
    Prop :=
  ∃ row ∈ s.db.sessions, row.id = sessionId ∧
    row.refreshTokenHash = config.hashToken refreshToken

/-- A logout that succeeds, with the current token or after it failed with it, has
ended the session: it is revoked, it has no cache entry, and it is not valid in any
later state. -/
theorem successful_logout_ends_session (config : AuthConfig) (users : List AccountRecord)
    {refreshToken sessionId : String} {s₁ s₂ s₃ : AuthState} {es : AuthLog}
    (h₁ : (authService config).Serially (fun _ _ => True) (fun _ => deletionSafe sessionId)
      (AuthState.init users) s₁)
    (hcurrent : CurrentToken config refreshToken sessionId s₁)
    (hfirst : s₂ = s₁ ∨ ∃ es v s,
      (authService config).Executes (deletionSafe sessionId)
        ((authService config).body (.logout refreshToken)) s₁ es v s ∧
      (authService config).Serially (fun _ _ => True) (fun _ => deletionSafe sessionId) s s₂)
    (hlogout : (authService config).Executes (deletionSafe sessionId)
      ((authService config).body (.logout refreshToken)) s₂ es (.ok .done) s₃) :
    Ended s₃.db sessionId ∧ s₃.redis.get (.session sessionId) = none ∧
      ∀ s₄ es' v s₅,
        (authService config).Serially (fun _ _ => True) (fun _ => deletionSafe sessionId) s₃ s₄ →
        (authService config).Executes (deletionSafe sessionId)
          ((authService config).body (.validateSession sessionId)) s₄ es' v s₅ →
        v = .ok (.principal none) := by
  have hok : ∀ c o s, deletionSafe sessionId (.repository c) o s → o.fault = .none :=
    fun _ _ _ h => h
  obtain ⟨hsteady₁, -⟩ :=
    (steady_init users (guarded_deletionSafe sessionId)).serially hok h₁
  obtain ⟨row, hrow, rfl, hhash⟩ := hcurrent
  have hends : ∀ {s s' : AuthState} {es : AuthLog} {v : AuthResult},
      (authService config).Executes (deletionSafe row.id)
        ((authService config).body (.logout refreshToken)) s es v s' →
      Steady (deletionSafe row.id) row.id s → Steady (deletionSafe row.id) row.id s' ∧ Since s s' :=
    fun hrun hs => ⟨call_live hok (.logout refreshToken) hs _ _ _ hrun,
      (executes_since hrun hs.sound).2⟩
  have hfirst' : ((AuthCall.logout refreshToken).program config).Ensures config
      (deletionSafe row.id) (fun _ _ s' => Ended s'.db row.id) s₁ :=
    .map (logout_ends hok hsteady₁.sound hrow hhash)
  have hended : Steady (deletionSafe row.id) row.id s₃ ∧ Ended s₃.db row.id := by
    rcases hfirst with rfl | ⟨_, _, s, hfailed, hlater⟩
    · exact ⟨(hends hlogout hsteady₁).1, hfirst' _ _ _ hlogout⟩
    · obtain ⟨hsteady, -⟩ := hends hfailed hsteady₁
      obtain ⟨hsteady₂, hsince₂⟩ := hsteady.serially hok hlater
      obtain ⟨hsteady₃, hsince₃⟩ := hends hlogout hsteady₂
      exact ⟨hsteady₃, hsince₃.ended (hsince₂.ended (hfirst' _ _ _ hfailed))⟩
  obtain ⟨hsteady₃, hended₃⟩ := hended
  refine ⟨hended₃, hsteady₃.get_session hended₃, fun s₄ es' v s₅ hlater hvalidate => ?_⟩
  obtain ⟨hsteady₄, hsince₄⟩ := hsteady₃.serially hok hlater
  have hnone : ((AuthCall.validateSession row.id).program config).Ensures config
      (deletionSafe row.id) (fun _ v _ => v = .ok (.principal none)) s₄ :=
    .map ((validateSession_of_ended hok hsteady₄ (hsince₄.ended hended₃)).mono
      fun _ r _ hr => by rw [hr]; rfl)
  exact hnone _ _ _ hvalidate

end

/-- Only Redis fails, and it refuses nothing. -/
def lostReplies (c : AuthStep) (o : AuthOutside) (s : AuthState) : Prop :=
  redisFaults c o s ∧ ¬ ∃ e, o.fault = .refused e

theorem lostReplies_of_noFault {c : AuthStep} {o : AuthOutside} {s : AuthState}
    (h : noFault c o s) : lostReplies c o s := by
  have hfault : o.fault = .none := h
  refine ⟨by cases c <;> trivial, ?_⟩
  rintro ⟨e, he⟩
  cases hfault.symm.trans he

theorem deletionSafe_of_lostReplies {sessionId : String} {c : AuthStep} {o : AuthOutside}
    {s : AuthState} (h : lostReplies c o s) : deletionSafe sessionId c o s := by
  obtain ⟨hredis, hanswered⟩ := h
  unfold deletionSafe
  split
  · exact fun _ hrefused => absurd hrefused hanswered
  · trivial
  · cases c with
    | redis c => exact absurd rfl (‹∀ c', AuthStep.redis c = .redis c' → False› c)
    | _ => exact hredis

/-- The deletion of the entry fails. -/
def undeletedOutcomes : List AuthOutside :=
  [outcome "" .none, outcome "" .none, outcome "" (.refused (.error "down"))]

/-- The first logout revokes the session and fails; the second one finds it revoked
and succeeds. The session stays valid. -/
theorem retried_logout_leaves_session_valid :
    (authService exampleConfig).Serially (fun _ _ => True) (fun _ => redisFaults)
        (AuthState.init [exampleUser]) afterLogin ∧
      CurrentToken exampleConfig "a" "a" afterLogin ∧
      ∃ es s₂ es' s₃ es'' s₄,
        (authService exampleConfig).Executes redisFaults
          ((authService exampleConfig).body (.logout "a")) afterLogin es
          (.error .storageUnavailable) s₂ ∧
        (authService exampleConfig).Executes redisFaults
          ((authService exampleConfig).body (.logout "a")) s₂ es' (.ok .done) s₃ ∧
        (s₃.redis.get (.session "a")).isSome ∧
        (authService exampleConfig).Executes redisFaults
          ((authService exampleConfig).body (.validateSession "a")) s₃ es''
          (.ok (.principal (some ⟨"u", "USER", "a"⟩))) s₄ := by
  refine ⟨(Semantics.serially_after _ _).mono fun call c o s h => ?_,
    ⟨_, List.mem_singleton_self _, rfl, rfl⟩, _, _, _, _, _, _,
    Semantics.executes_of_perform undeletedOutcomes rfl,
    Semantics.executes_of_perform [outcome "" .none] rfl, by decide,
    Semantics.executes_of_perform (List.replicate 2 (outcome "" .none)) rfl⟩
  cases c <;> trivial

instance decidableLostReplies (c : AuthStep) (o : AuthOutside) (s : AuthState) :
    Decidable (lostReplies c o s) := inferInstanceAs (Decidable (_ ∧ ¬ _))

/-- The entry is deleted, but the answer is lost. -/
def unansweredOutcomes : List AuthOutside :=
  [outcome "" .none, outcome "" .none, outcome "" (.lost (.error "down"))]

/-- The first logout deletes the entry but fails; the second one succeeds. -/
theorem completed_logout_ends_session : ∃ s,
    Ended s.db "a" ∧ s.redis.get (.session "a") = none ∧
      ∀ s' es w s'', (authService exampleConfig).Serially (fun _ _ => True)
          (fun _ => deletionSafe "a") s s' →
        (authService exampleConfig).Executes (deletionSafe "a")
          ((authService exampleConfig).body (.validateSession "a")) s' es w s'' →
        w = .ok (.principal none) := by
  have hlogin : (authService exampleConfig).Serially (fun _ _ => True)
      (fun _ => deletionSafe "a") (AuthState.init [exampleUser]) afterLogin :=
    (Semantics.serially_after _ _).mono fun _ _ _ _ h =>
      deletionSafe_of_lostReplies (lostReplies_of_noFault h)
  have hcurrent : CurrentToken exampleConfig "a" "a" afterLogin :=
    ⟨_, List.mem_singleton_self _, rfl, rfl⟩
  have hfirst : (authService exampleConfig).Executes (deletionSafe "a")
      ((authService exampleConfig).body (.logout "a")) afterLogin _
      (.error .storageUnavailable) _ :=
    (Semantics.executes_of_perform unansweredOutcomes rfl).mono
      fun _ _ _ => deletionSafe_of_lostReplies
  exact ⟨_, successful_logout_ends_session exampleConfig [exampleUser] hlogin hcurrent
    (.inr ⟨_, _, _, hfirst, .refl⟩) ((Semantics.executes_of_perform [outcome "" .none]
      rfl).mono fun _ _ _ => deletionSafe_of_lostReplies)⟩

end Auth

end Shortlink
