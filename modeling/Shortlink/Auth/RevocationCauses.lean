import Shortlink.Auth.CallSteps
import Shortlink.Auth.RefreshBinding

/-!
# Why a session was revoked

The reason that a revoked session records is true: a later login of the account, a logout
with a token of the session, a refresh with a token that another call had exchanged before,
or a call that revokes all sessions of the account (`revocations_caused`). In particular
the detection of reuse raises no false alarm: as long as no two calls present the same
refresh token, no session is revoked for it, whatever fails and is repeated inside the calls.

A used row tells that its token was exchanged, since only a rotation marks one
(`UsedByRotation`). A refresh looks the row up before it rotates itself, so a used row that
it finds is the work of another call.
-/

namespace Shortlink

namespace Auth

open Shortlink.Storage Shortlink.Table Shortlink.Transaction Shortlink.Interaction
open AuthProgram

/-! ### What a transaction revokes and uses up -/

/-- The method revokes sessions of `userId`, among them possibly `sessionId`, for `reason`. -/
def AuthCommand.Ends (sessionId userId : String) (reason : SessionRevocationReason) :
    AuthCommand → Prop
  | .createExclusiveSession owner _ => owner = userId ∧ reason = .newLogin
  | .revokeSession id r => id = sessionId ∧ r = reason
  | .revokeAllSessions owner r => owner = userId ∧ r = reason
  | _ => False

section

variable {c : AuthCommand} {stamp : Stamp} {db db' : AuthDb} {a : c.Res}

theorem revoked_of_saveRevoked {ids : List String} {now : ℕ}
    {reason : SessionRevocationReason} {s' : AuthSessionRecord}
    (hs' : s' ∈ (db.saveRevoked ids now reason).sessions) :
    s' ∈ db.sessions ∨ s'.id ∈ ids ∧ s'.revocationReason = some reason ∧
      ∃ s ∈ db.sessions, s.id = s'.id ∧ s.userId = s'.userId := by
  obtain ⟨s, hs, rfl⟩ := mem_updateWhere.1 hs'
  by_cases hid : s.id ∈ ids
  · rw [decide_eq_true hid, if_pos rfl]
    exact .inr ⟨hid, rfl, s, hs, rfl, rfl⟩
  · rw [decide_eq_false hid, if_neg Bool.false_ne_true]
    exact .inl hs

theorem userId_of_mem_activeIds {userId : String} {s s' : AuthSessionRecord}
    (hkeys : Keys db) (hs : s ∈ db.sessions) (hid : s.id = s'.id) (huser : s.userId = s'.userId)
    (hmem : s'.id ∈ (db.findActiveSessions userId).map (·.id)) : s'.userId = userId := by
  obtain ⟨active, hactive, hsame⟩ := List.mem_map.1 hmem
  obtain ⟨hdb, howner⟩ := List.mem_filter.1 hactive
  obtain rfl := List.inj_on_of_nodup_map hkeys.sessionIds hs hdb (hid.trans hsame.symm)
  rw [AuthDb.activeOf] at howner
  simp only [Bool.and_eq_true, beq_iff_eq] at howner
  exact huser.symm.trans howner.1

/-- A revoked session was revoked before, or the method has revoked it. -/
theorem AuthCommand.impl_revokes (hkeys : Keys db)
    (h : (c.impl stamp).run db = .ok (a, db')) {s' : AuthSessionRecord}
    (hs' : s' ∈ db'.sessions) (hrevoked : s'.revokedAt.isSome) :
    (∃ s ∈ db.sessions, s.id = s'.id ∧ s.userId = s'.userId ∧
        s.revokedAt = s'.revokedAt ∧ s.revocationReason = s'.revocationReason) ∨
      ∃ reason, s'.revocationReason = some reason ∧ c.Ends s'.id s'.userId reason := by
  have hactive : ∀ userId now reason, s' ∈ (db.revokeActive userId now reason).sessions →
      s' ∈ db.sessions ∨ userId = s'.userId ∧ s'.revocationReason = some reason := by
    intro userId now reason hmem
    rcases revoked_of_saveRevoked hmem with hold | ⟨hids, hreason, s, hs, hid, huser⟩
    · exact .inl hold
    · exact .inr ⟨(userId_of_mem_activeIds hkeys hs hid huser hids).symm, hreason⟩
  have hkept : s' ∈ db.sessions → ∃ s ∈ db.sessions, s.id = s'.id ∧ s.userId = s'.userId ∧
      s.revokedAt = s'.revokedAt ∧ s.revocationReason = s'.revocationReason := fun hmem =>
    ⟨s', hmem, rfl, rfl, rfl, rfl⟩
  cases c with
  | createExclusiveSession userId sessionData =>
      have hcreated := createExclusiveSessionTx_run h
      obtain rfl := hcreated.result
      rcases List.mem_append.1 hs' with hmem | hmem
      · rcases hactive userId _ _ hmem with hold | ⟨howner, hreason⟩
        · exact .inl (hkept hold)
        · exact .inr ⟨.newLogin, hreason, howner, rfl⟩
      · obtain rfl := List.mem_singleton.1 hmem
        rw [hcreated.session] at hrevoked
        cases hrevoked
  | rotateRefreshToken sessionId input =>
      obtain ⟨session, token, hrot⟩ := rotateRefreshTokenTx_run h
      obtain rfl := hrot.result
      obtain ⟨s, hs, rfl⟩ := mem_updateWhere.1 hs'
      refine .inl ⟨s, hs, ?_⟩
      split <;> exact ⟨rfl, rfl, rfl, rfl⟩
  | revokeSession sessionId reason =>
      cases revokeSessionTx_run h with
      | missing hfind => exact .inl (hkept hs')
      | already session hfind hrevoked => exact .inl (hkept hs')
      | revoked session hfind hactive =>
          rcases revoked_of_saveRevoked hs' with hold | ⟨hids, hreason, -⟩
          · exact .inl (hkept hold)
          · obtain rfl := (AuthDb.mem_of_findSession hfind).2
            exact .inr ⟨reason, hreason, (List.mem_singleton.1 hids).symm, rfl⟩
  | revokeAllSessions userId reason =>
      obtain ⟨-, rfl⟩ := revokeAllSessionsTx_run h
      rcases hactive userId _ _ hs' with hold | ⟨howner, hreason⟩
      · exact .inl (hkept hold)
      · exact .inr ⟨reason, hreason, howner, rfl⟩
  | _ => exact .inl (hkept (by rwa [AuthCommand.impl_reads (by trivial) h] at hs'))

/-- A used row was used before, or the method has exchanged its token. -/
theorem AuthCommand.impl_usesUp (hkeys : Keys db) (h : (c.impl stamp).run db = .ok (a, db'))
    {t' : SessionRefreshTokenRecord} (ht' : t' ∈ db'.refreshTokens) (hused : t'.usedAt.isSome) :
    (∃ t ∈ db.refreshTokens, t.usedAt.isSome ∧ t.tokenHash = t'.tokenHash ∧
        t.sessionId = t'.sessionId) ∨
      ∃ input, c = .rotateRefreshToken t'.sessionId input ∧
        input.currentTokenHash = t'.tokenHash := by
  have hkept : t' ∈ db.refreshTokens → ∃ t ∈ db.refreshTokens, t.usedAt.isSome ∧
      t.tokenHash = t'.tokenHash ∧ t.sessionId = t'.sessionId := fun hmem =>
    ⟨t', hmem, hused, rfl, rfl⟩
  cases c with
  | createExclusiveSession userId sessionData =>
      have hcreated := createExclusiveSessionTx_run h
      obtain rfl := hcreated.result
      rcases List.mem_append.1 ht' with hmem | hmem
      · exact .inl (hkept hmem)
      · obtain rfl := List.mem_singleton.1 hmem
        rw [hcreated.refreshToken] at hused
        cases hused
  | rotateRefreshToken sessionId input =>
      obtain ⟨session, token, hrot⟩ := rotateRefreshTokenTx_run h
      obtain rfl := hrot.result
      rcases List.mem_append.1 ht' with hmem | hmem
      · obtain ⟨t, ht, rfl⟩ := mem_updateWhere.1 hmem
        by_cases hid : (t.id == token.id) = true
        · obtain ⟨hmem, hsession, hhash, -⟩ := AuthDb.mem_of_findUnusedToken hrot.unused
          obtain rfl := List.inj_on_of_nodup_map hkeys.tokenIds ht hmem (beq_iff_eq.1 hid)
          rw [if_pos hid]
          exact .inr ⟨input, by rw [hsession], hhash.symm⟩
        · rw [if_neg hid] at hused ⊢
          exact .inl ⟨t, ht, hused, rfl, rfl⟩
      · obtain rfl := List.mem_singleton.1 hmem
        rw [hrot.refreshToken] at hused
        cases hused
  | revokeSession sessionId reason =>
      cases revokeSessionTx_run h with
      | missing hfind => exact .inl (hkept ht')
      | already session hfind hrevoked => exact .inl (hkept ht')
      | revoked session hfind hactive => exact .inl (hkept ht')
  | revokeAllSessions userId reason =>
      obtain ⟨-, rfl⟩ := revokeAllSessionsTx_run h
      exact .inl (hkept ht')
  | _ => exact .inl (hkept (by rwa [AuthCommand.impl_reads (by trivial) h] at ht'))

end

/-! ### What the calls do -/

/-- A rotation exchanges the token that the call presents, and the call looks the token up
before. A session is revoked after a used row has been found for the token, by a logout with
its token, or by a call that names the account. -/
def RevokeMay (config : AuthConfig) (call : AuthCall) (trace : AuthTrace) : AuthStep → Prop
  | .repository (.rotateRefreshToken _ input) =>
      ∃ refreshToken, call.presented = some refreshToken ∧
        input.currentTokenHash = config.hashToken refreshToken
  | .repository (.findRefreshTokenHistoryByHash hash) => (∀ x ∈ trace, x.1.rotates = false) ∧
      ∃ refreshToken, call.presented = some refreshToken ∧ hash = config.hashToken refreshToken
  | .repository (.revokeSession sessionId reason) =>
      (reason = .refreshReuse ∧ ∃ refreshToken row, call.presented = some refreshToken ∧
        Found trace (.findRefreshTokenHistoryByHash (config.hashToken refreshToken))
          (some row) ∧ row.usedAt.isSome ∧ row.sessionId = sessionId) ∨
      (reason = .logout ∧ ∃ refreshToken session, call = .logout refreshToken ∧
        Found trace (.findSessionByRefreshTokenHash (config.hashToken refreshToken))
          (some session) ∧ session.id = sessionId)
  | .repository (.revokeAllSessions userId reason) => call = .revokeAll userId reason
  | .repository (.createExclusiveSession _ _) =>
      (∃ userId role, call = .createSessionAfterLogin userId role) ∨
        ∃ input, call = .completeLogin input
  | _ => True

section

variable {config : AuthConfig} {call : AuthCall} {refreshToken : String}

theorem AuthStep.Plain.revokeMay {c : AuthStep} (h : c.Plain) (trace : AuthTrace) :
    RevokeMay config call trace c := by
  cases c with
  | repository c => cases c <;> trivial
  | _ => trivial

/-- A call that presents no refresh token revokes only what it may. -/
theorem AuthCall.Uses.revokeMay {c : AuthStep} (h : call.Uses c) (trace : AuthTrace)
    (hpresented : call.presented = none) (hlogout : ∀ refreshToken, call ≠ .logout refreshToken)
    (hall : ∀ userId reason, call ≠ .revokeAll userId reason) :
    RevokeMay config call trace c := by
  have hnone : ¬ call.presented.isSome := by simp [hpresented]
  cases c with
  | repository c =>
      cases c with
      | rotateRefreshToken sessionId input => exact absurd h hnone
      | findRefreshTokenHistoryByHash hash => exact absurd h hnone
      | revokeSession sessionId reason =>
          obtain hsome | ⟨refreshToken, hcall⟩ := h
          · exact absurd hsome hnone
          · exact absurd hcall (hlogout refreshToken)
      | revokeAllSessions userId reason =>
          obtain ⟨userId, reason, hcall⟩ := h
          exact absurd hcall (hall userId reason)
      | createExclusiveSession userId sessionData => exact h
      | _ => trivial
  | _ => trivial

open AuthSessionService RedisAuthStateService

theorem refreshUnused_revokes (history : SessionRefreshTokenRecord) {trace : AuthTrace}
    (hcall : call.presented = some refreshToken) :
    (refreshUnused config (config.hashToken refreshToken) history).Obeys
      (RevokeMay config call) (fun _ _ => True) trace := by
  simp only [refreshUnused, obeys_bind, obeys_authRepository, either_ok, either_error]
  refine ⟨trivial, fun e => trivial, fun session => ?_⟩
  rcases session with _ | session
  · trivial
  simp only [obeys_bind, obeys_now, obeys_ite, obeys_throw, obeys_authRepository, either_ok,
    either_error]
  refine ⟨trivial, fun t => ⟨fun _ => trivial, fun _ => ⟨trivial, fun e => trivial,
    fun account => ?_⟩⟩⟩
  rcases account with _ | account
  · trivial
  simp only [rotate, sessionRotated, issueTokens, obeys_bind, obeys_generate, obeys_now,
    obeys_authRepository, obeys_setSessionCache, obeys_pure, either_ok, either_error]
  refine ⟨trivial, fun v => ⟨trivial, fun t => ⟨⟨refreshToken, hcall, rfl⟩, fun e => trivial,
    fun (rotated : CreateExclusiveSessionResult) => ⟨trivial, fun t' =>
      ⟨trivial, fun e => trivial, fun _ => ⟨trivial, fun _ => trivial⟩⟩⟩⟩⟩⟩

theorem refresh_revokes (hcall : call.presented = some refreshToken) :
    (AuthSessionService.refresh config refreshToken).Obeys (RevokeMay config call)
      (fun _ _ => True) [] := by
  simp only [AuthSessionService.refresh, obeys_bind, obeys_authRepository, either_ok,
    either_error]
  refine ⟨?_, fun e => trivial, fun history => ?_⟩
  · exact And.intro (List.forall_mem_nil _) ⟨refreshToken, hcall, rfl⟩
  rcases history with _ | history
  · trivial
  refine (obeys_ite _ _ _).2 ⟨fun hused => ?_, fun _ => refreshUnused_revokes history hcall⟩
  simp only [refreshReused, obeys_bind, obeys_authRepository, obeys_deleteSessionCache,
    obeys_throw, either_ok, either_error]
  exact ⟨.inl ⟨rfl, refreshToken, history, hcall, List.mem_cons_self, hused, rfl⟩,
    fun e => trivial, fun (_ : Unit) => ⟨trivial, fun e => trivial, fun _ => trivial⟩⟩

theorem logout_revokes :
    (AuthSessionService.logout config refreshToken).Obeys
      (RevokeMay config (.logout refreshToken)) (fun _ _ => True) [] := by
  simp only [AuthSessionService.logout, obeys_bind, obeys_authRepository, either_ok,
    either_error]
  refine ⟨trivial, fun e => trivial, fun session => ?_⟩
  rcases session with _ | session
  · trivial
  refine (obeys_ite _ _ _).2 ⟨fun _ => trivial, fun _ => ?_⟩
  simp only [obeys_bind, obeys_authRepository, obeys_deleteSessionCache, either_ok,
    either_error]
  exact ⟨.inr ⟨rfl, refreshToken, session, rfl, List.mem_cons_self, rfl⟩, fun e => trivial,
    fun (_ : Unit) => ⟨trivial, fun e => trivial, fun _ => trivial⟩⟩

theorem program_revokes (config : AuthConfig) (call : AuthCall) :
    Program.Obeys (RevokeMay config call) (fun _ _ => True) []
      ((authService config).body call) := by
  have hother : call.presented = none → (∀ refreshToken, call ≠ .logout refreshToken) →
      (∀ userId reason, call ≠ .revokeAll userId reason) →
        Program.Obeys (RevokeMay config call) (fun _ _ => True) []
          ((authService config).body call) := fun hpresented hlogout hall =>
    Program.obeys_of_sat (program_uses config call)
      (fun _ _ hc => hc.revokeMay _ hpresented hlogout hall) fun _ _ _ => trivial
  cases call with
  | sessionRefresh refreshToken =>
      refine (obeys_map _ _).2 ((refresh_revokes rfl).mono fun trace r _ => ?_)
      cases r <;> trivial
  | refresh refreshToken =>
      refine (obeys_map _ _).2 ?_
      simp only [AuthService.refresh, AuthService.withSecurityStorage, obeys_tryCatch,
        obeys_bind, obeys_pure]
      refine (refresh_revokes rfl).mono fun trace r _ => ?_
      rcases r with e | tokens
      · cases e <;> trivial
      · trivial
  | logout refreshToken =>
      refine (obeys_map _ _).2 (logout_revokes.mono fun trace r _ => ?_)
      cases r <;> trivial
  | revokeAll userId reason =>
      refine (obeys_map _ _).2 ?_
      simp only [revokeAll, obeys_bind, obeys_authRepository, either_ok, either_error]
      refine ⟨rfl, fun e => trivial, fun ids => ?_⟩
      refine Program.obeys_of_sat (deleteSessionCaches_plain _) (fun _ _ hc => hc.revokeMay _)
        fun l r _ => ?_
      cases r <;> trivial
  | _ => exact hother rfl (fun _ h => by cases h) fun _ _ h => by cases h

end

/-! ### Who has exchanged a token -/

/-- Call `k` presents a refresh token with this hash. -/
def Presents (config : AuthConfig) (σ : AuthPool) (k : ℕ) (tokenHash : String) : Prop :=
  ∃ call refreshToken, σ.call? k = some call ∧ call.presented = some refreshToken ∧
    config.hashToken refreshToken = tokenHash

/-- Call `k` has sent this command to the repository. -/
def Sent (σ : AuthPool) (k : ℕ) (c : AuthCommand) : Prop :=
  ∃ r, (⟨k, .repository c, r⟩ : AuthEntry) ∈ σ.history

/-- Call `k` has asked the repository to exchange this token of the session. -/
def SentRotation (σ : AuthPool) (k : ℕ) (sessionId tokenHash : String) : Prop :=
  ∃ input, Sent σ k (.rotateRefreshToken sessionId input) ∧ input.currentTokenHash = tokenHash

/-- The token of a used row was exchanged by a call that presents it. -/
def UsedByRotation (config : AuthConfig) (σ : AuthPool) : Prop :=
  ∀ t ∈ σ.shared.db.refreshTokens, t.usedAt.isSome →
    ∃ k, Presents config σ k t.tokenHash ∧ SentRotation σ k t.sessionId t.tokenHash

section

variable {config : AuthConfig} {ok : AuthPool → AuthEvent → Prop}
  {users : List AccountRecord} {σ σ' : AuthPool}

theorem Presents.reaches {k : ℕ} {tokenHash : String} (h : Presents config σ k tokenHash)
    (hrun : (authService config).Reaches ok σ σ') : Presents config σ' k tokenHash := by
  obtain ⟨call, refreshToken, hcall, hpresented, hhash⟩ := h
  exact ⟨call, refreshToken, hrun.call? hcall, hpresented, hhash⟩

theorem Sent.reaches {k : ℕ} {c : AuthCommand} (h : Sent σ k c)
    (hrun : (authService config).Reaches ok σ σ') : Sent σ' k c := by
  obtain ⟨r, hmem⟩ := h
  exact ⟨r, hrun.history_suffix.subset hmem⟩

theorem SentRotation.reaches {k : ℕ} {sessionId tokenHash : String}
    (h : SentRotation σ k sessionId tokenHash) (hrun : (authService config).Reaches ok σ σ') :
    SentRotation σ' k sessionId tokenHash := by
  obtain ⟨input, hsent, hhash⟩ := h
  exact ⟨input, hsent.reaches hrun, hhash⟩

theorem fires_revokeMay {e : AuthEntry}
    (h : (authService config).Reaches ok (Pool.init (AuthState.init users)) σ)
    (he : (authService config).Fires ok e σ σ') :
    ∃ call, σ.call? e.thread = some call ∧
      RevokeMay config call (traceOf σ.history e.thread) e.command := by
  obtain ⟨call, rest, hk, hmay⟩ := he.allowed (RevokeMay config) _ h
    fun _ call _ => program_revokes config call
  exact ⟨call, by rw [Pool.call?, hk]; rfl, hmay⟩

theorem UsedByRotation.step
    (h : (authService config).Reaches ok (Pool.init (AuthState.init users)) σ)
    (hσ : UsedByRotation config σ) (hstep : (authService config).Steps ok σ σ') :
    UsedByRotation config σ' := by
  have hrun : (authService config).Reaches ok σ σ' := .single hstep
  have hkept : ∀ t ∈ σ.shared.db.refreshTokens, t.usedAt.isSome →
      ∃ k, Presents config σ' k t.tokenHash ∧ SentRotation σ' k t.sessionId t.tokenHash := by
    intro t ht hused
    obtain ⟨k, hpresents, hexchanged⟩ := hσ t ht hused
    exact ⟨k, hpresents.reaches hrun, hexchanged.reaches hrun⟩
  intro t' ht' hused
  cases hstep.moves with
  | spawn call hok hshared hthreads hhistory => exact hkept t' (hshared ▸ ht') hused
  | environment x hok hshared hthreads hhistory =>
      rw [hshared] at ht'
      cases x <;> exact hkept t' ht' hused
  | exec e he =>
      obtain ⟨call, hcall, hmay⟩ := fires_revokeMay h he
      obtain ⟨k, c, r⟩ := e
      obtain ⟨o, -, hexec⟩ := he.exec
      have hmem : (⟨k, c, r⟩ : AuthEntry) ∈ σ'.history := he.history ▸ List.mem_cons_self
      have hsound := reaches_sound h
      generalize hs : σ.shared = s at hexec hkept hsound
      generalize hs' : σ'.shared = s' at hexec ht'
      cases exec_acts hexec with
      | idle c => exact hkept t' ht' hused
      | executed c => exact hkept t' ht' hused
      | committed c stamp a db hcommit =>
          rcases AuthCommand.impl_usesUp hsound.keys hcommit ht' hused with
            ⟨t, ht, htused, hhash, hsession⟩ | ⟨input, rfl, hhash⟩
          · rw [← hhash, ← hsession]
            exact hkept t ht htused
          · obtain ⟨refreshToken, hpresented, hcurrent⟩ := hmay
            exact ⟨k, ⟨call, refreshToken, hrun.call? hcall, hpresented,
              hcurrent.symm.trans hhash⟩, input, ⟨r, hmem⟩, hhash⟩

theorem used_by_rotation
    (h : (authService config).Reaches ok (Pool.init (AuthState.init users)) σ) :
    UsedByRotation config σ := by
  induction h with
  | refl => exact fun t ht => by cases ht
  | tail hrun hstep ih => exact ih.step hrun hstep

/-- A refresh that finds a used row for its token was overtaken: another call has presented
the token and exchanged it. -/
theorem exchanged_by_other
    (h : (authService config).Reaches ok (Pool.init (AuthState.init users)) σ) {k : ℕ}
    {tokenHash : String} {row : SessionRefreshTokenRecord}
    (hfound : Found (traceOf σ.history k) (.findRefreshTokenHistoryByHash tokenHash) (some row))
    (hused : row.usedAt.isSome) :
    ∃ j ≠ k, Presents config σ j tokenHash ∧ SentRotation σ j row.sessionId tokenHash := by
  obtain ⟨l₂, l₁, hl⟩ := List.append_of_mem (mem_traceOf.1 hfound)
  obtain ⟨σ₁, σ₂, h₁, he, rfl, h₂⟩ := h.split hl List.nil_suffix
  have hrun : (authService config).Reaches ok σ₁ σ :=
    (Relation.ReflTransGen.single he.steps).trans h₂
  obtain ⟨o, -, hexec⟩ := he.exec
  have hfind : σ₁.shared.db.findRefreshTokenHistoryByHash tokenHash = some row :=
    (Prod.mk.inj (Except.ok.inj (exec_repository_ok
      (c := .findRefreshTokenHistoryByHash tokenHash) (a := some row) hexec).1)).1
  obtain ⟨hrow, hhash⟩ := AuthDb.mem_of_findRefreshTokenHistoryByHash hfind
  obtain ⟨j, hpresents, hexchanged⟩ := used_by_rotation h₁ row hrow hused
  rw [hhash] at hpresents hexchanged
  refine ⟨j, fun hjk => ?_, hpresents.reaches hrun, hexchanged.reaches hrun⟩
  -- the call itself rotates nothing before it has looked the token up
  obtain ⟨call, -, hrotates, -⟩ := fires_revokeMay h₁ he
  obtain ⟨input, ⟨r, hmem⟩, -⟩ := hexchanged
  have hfirst := hrotates ⟨.repository (.rotateRefreshToken row.sessionId input), r⟩
    (mem_traceOf.2 (hjk ▸ hmem))
  cases hfirst

/-! ### The causes -/

/-- Why the session was revoked, by reason. -/
inductive Cause (config : AuthConfig) (σ : AuthPool) (sessionId userId : String) :
    SessionRevocationReason → Prop
  | newLogin (k : ℕ) (call : AuthCall) (sessionData : CreateExclusiveSessionInput)
      (later : AuthSessionRecord) (hcall : σ.call? k = some call)
      (hopens : (∃ userId role, call = .createSessionAfterLogin userId role) ∨
        ∃ input, call = .completeLogin input)
      (hsent : Sent σ k (.createExclusiveSession userId sessionData))
      (hlater : later ∈ σ.shared.db.sessions) (huser : later.userId = userId)
      (htoken : TokenOf σ.shared.db sessionData.refreshTokenHash later.id)
      (hid : later.id ≠ sessionId) : Cause config σ sessionId userId .newLogin
  | logout (k : ℕ) (refreshToken : String)
      (hcall : σ.call? k = some (.logout refreshToken))
      (htoken : TokenOf σ.shared.db (config.hashToken refreshToken) sessionId) :
      Cause config σ sessionId userId .logout
  | refreshReuse (j k : ℕ) (hne : j ≠ k) (tokenHash : String)
      (htoken : TokenOf σ.shared.db tokenHash sessionId)
      (hj : Presents config σ j tokenHash) (hk : Presents config σ k tokenHash)
      (hexchanged : SentRotation σ j sessionId tokenHash) :
      Cause config σ sessionId userId .refreshReuse
  | revokeAll (k : ℕ) (reason : SessionRevocationReason)
      (hcall : σ.call? k = some (.revokeAll userId reason)) :
      Cause config σ sessionId userId reason

theorem Cause.reaches {sessionId userId : String} {reason : SessionRevocationReason}
    (h : Cause config σ sessionId userId reason) (hσ : Sound σ.shared.db)
    (hrun : (authService config).Reaches ok σ σ') :
    Cause config σ' sessionId userId reason := by
  have hsince := (reaches_since hrun hσ).2.later
  cases h with
  | newLogin k call sessionData later hcall hopens hsent hlater huser htoken hid =>
      obtain ⟨later', hlater', hid', huser', -⟩ := hsince.session later hlater
      exact .newLogin k call sessionData later' (hrun.call? hcall) hopens (hsent.reaches hrun)
        hlater' (huser'.trans huser) (hid' ▸ htoken.later hsince) (hid' ▸ hid)
  | logout k refreshToken hcall htoken =>
      exact .logout k refreshToken (hrun.call? hcall) (htoken.later hsince)
  | refreshReuse j k hne tokenHash htoken hj hk hexchanged =>
      exact .refreshReuse j k hne tokenHash (htoken.later hsince) (hj.reaches hrun)
        (hk.reaches hrun) (hexchanged.reaches hrun)
  | revokeAll k reason hcall => exact .revokeAll k reason (hrun.call? hcall)

/-- The sessions of an account that a login has ended, and the one that it has opened. -/
theorem SessionCreated.later {userId : String} {sessionData : CreateExclusiveSessionInput}
    {stamp : Stamp} {db db' : AuthDb} {r : CreateExclusiveSessionResult}
    (h : SessionCreated userId sessionData stamp db r db') {s' : AuthSessionRecord}
    (hs' : s' ∈ db'.sessions) (hrevoked : s'.revokedAt.isSome) :
    ∃ later ∈ db'.sessions, later.userId = userId ∧
      TokenOf db' sessionData.refreshTokenHash later.id ∧ later.id ≠ s'.id := by
  obtain rfl := h.result
  refine ⟨r.session, List.mem_append_right _ List.mem_cons_self, by rw [h.session],
    ⟨r.refreshToken, List.mem_append_right _ List.mem_cons_self, by rw [h.refreshToken],
      by rw [h.refreshToken, h.session]⟩, ?_⟩
  rcases List.mem_append.1 hs' with hmem | hmem
  · obtain ⟨s, hs, hid⟩ : ∃ s ∈ db.sessions, s.id = s'.id := by
      rcases revoked_of_saveRevoked hmem with hold | ⟨-, -, s, hs, hid, -⟩
      · exact ⟨s', hold, rfl⟩
      · exact ⟨s, hs, hid⟩
    exact fun hsame => h.freshSession s hs (hid.trans hsame.symm)
  · obtain rfl := List.mem_singleton.1 hmem
    rw [h.session] at hrevoked
    cases hrevoked

/-- The cause of a revocation that a call has just committed. -/
theorem cause_of_committed
    (h : (authService config).Reaches ok (Pool.init (AuthState.init users)) σ)
    {k : ℕ} {c : AuthCommand} {r : AuthStep.Reply (.repository c)}
    (he : (authService config).Fires ok ⟨k, .repository c, r⟩ σ σ') {stamp : Stamp}
    {a : c.Res} (hcommit : (c.impl stamp).run σ.shared.db = .ok (a, σ'.shared.db))
    {s' : AuthSessionRecord} (hs' : s' ∈ σ'.shared.db.sessions)
    (hrevoked : s'.revokedAt.isSome) {reason : SessionRevocationReason}
    (hends : c.Ends s'.id s'.userId reason) :
    Cause config σ' s'.id s'.userId reason := by
  have hrun : (authService config).Reaches ok σ σ' := .single he.steps
  obtain ⟨call, hcall, hmay⟩ := fires_revokeMay h he
  have hcall' := hrun.call? hcall
  have htrace : traceOf σ.history k ⊆ traceOf σ'.history k := fun _ hx =>
    mem_traceOf_of_suffix hrun.history_suffix hx
  have h' := h.trans hrun
  cases c with
  | createExclusiveSession userId sessionData =>
      obtain ⟨rfl, rfl⟩ := hends
      obtain ⟨later, hlater, huser, htoken, hid⟩ :=
        (createExclusiveSessionTx_run hcommit).later hs' hrevoked
      have hsent : Sent σ' k (.createExclusiveSession s'.userId sessionData) :=
        ⟨r, he.history ▸ List.mem_cons_self⟩
      exact .newLogin k call sessionData later hcall' hmay hsent hlater huser htoken hid
  | revokeSession sessionId r =>
      obtain ⟨rfl, rfl⟩ := hends
      rcases hmay with ⟨rfl, refreshToken, row, hpresented, hfound, hused, hsession⟩ |
        ⟨rfl, refreshToken, session, rfl, hfound, hid⟩
      · obtain ⟨j, hne, hj, hexchanged⟩ := exchanged_by_other h' (htrace hfound) hused
        rw [hsession] at hexchanged
        exact .refreshReuse j k hne _ (hsession ▸ tokenOf_of_history h' (htrace hfound)) hj
          ⟨call, refreshToken, hcall', hpresented, rfl⟩ hexchanged
      · exact .logout k refreshToken hcall'
          (hid ▸ (tokenOf_of_resolved h' (.current (htrace hfound))).1)
  | revokeAllSessions userId r =>
      obtain ⟨rfl, rfl⟩ := hends
      obtain rfl : call = _ := hmay
      exact .revokeAll k _ hcall'
  | _ => exact hends.elim

/-- A revoked session records a reason, and it has a cause for it. -/
def Caused (config : AuthConfig) (σ : AuthPool) : Prop :=
  ∀ s ∈ σ.shared.db.sessions, s.revokedAt.isSome →
    ∃ reason, s.revocationReason = some reason ∧ Cause config σ s.id s.userId reason

theorem Caused.step (h : (authService config).Reaches ok (Pool.init (AuthState.init users)) σ)
    (hσ : Caused config σ) (hstep : (authService config).Steps ok σ σ') :
    Caused config σ' := by
  have hrun : (authService config).Reaches ok σ σ' := .single hstep
  have hsound := reaches_sound h
  have hkept : ∀ s ∈ σ.shared.db.sessions, s.revokedAt.isSome →
      ∃ reason, s.revocationReason = some reason ∧ Cause config σ' s.id s.userId reason := by
    intro s hs hrevoked
    obtain ⟨reason, hreason, hcause⟩ := hσ s hs hrevoked
    exact ⟨reason, hreason, hcause.reaches hsound hrun⟩
  intro s' hs' hrevoked
  cases hstep.moves with
  | spawn call hok hshared hthreads hhistory => exact hkept s' (hshared ▸ hs') hrevoked
  | environment x hok hshared hthreads hhistory =>
      rw [hshared] at hs'
      cases x <;> exact hkept s' hs' hrevoked
  | exec e he =>
      obtain ⟨k, c, r⟩ := e
      obtain ⟨o, -, hexec⟩ := he.exec
      generalize hs : σ.shared = s at hexec hkept hsound
      generalize ht : σ'.shared = t at hexec hs'
      cases exec_acts hexec with
      | idle c => exact hkept s' hs' hrevoked
      | executed c => exact hkept s' hs' hrevoked
      | committed c stamp a db hcommit =>
          rcases AuthCommand.impl_revokes hsound.keys hcommit hs' hrevoked with
            ⟨s, hs, hid, huser, hat, hreason⟩ | ⟨reason, hreason, hends⟩
          · rw [← hid, ← huser, ← hreason]
            exact hkept s hs (hat ▸ hrevoked)
          · have hcommitted : (c.impl stamp).run σ.shared.db = .ok (a, σ'.shared.db) := by
              rw [hs, ht]
              exact hcommit
            exact ⟨reason, hreason,
              cause_of_committed h he hcommitted (ht ▸ hs') hrevoked hends⟩

/-- In every run of the auth services each revoked session records a reason, and the reason
is true. -/
theorem revocations_caused
    (h : (authService config).Reaches ok (Pool.init (AuthState.init users)) σ) :
    Caused config σ := by
  induction h with
  | refl => exact fun s hs => by cases hs
  | tail hrun hstep ih => exact ih.step hrun hstep

end

/-- A token is exchanged, and then presented again by another call. -/
def presentedTwice : AuthPool :=
  (authService exampleConfig).after
    (.spawn (.createSessionAfterLogin "u" "USER") :: steps 0 "a" 7 ++
      .spawn (.refresh "a") :: steps 1 "b" 12 ++ .spawn (.refresh "a") :: steps 2 "c" 3)
    (Pool.init (AuthState.init [exampleUser]))

theorem presentedTwice_reached : (authService exampleConfig).Reaches (fun _ _ => True)
    (Pool.init (AuthState.init [exampleUser])) presentedTwice :=
  Semantics.reaches_after _ (by decide)

theorem presentedTwice_caused :
    presentedTwice.shared.db.sessions.map (·.revocationReason) = [some .refreshReuse] ∧
      Caused exampleConfig presentedTwice :=
  ⟨by decide, revocations_caused presentedTwice_reached⟩

end Auth

end Shortlink
