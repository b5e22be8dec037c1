import Shortlink.Auth.LogoutBinding

/-!
# The family of a refresh token

A login issues a refresh token and every refresh replaces it by another one, so the tokens
of a session form a chain. `TokensIssued` is this chain along a serial run. The rows of all
tokens but the newest one are used up (`TokensIssued.family`), so presenting one of them
revokes the session, and a token of a revoked session is not exchanged any more
(`rotated_token_ends_family`).
-/

namespace Shortlink

namespace Auth

open Shortlink.Storage Shortlink.Table Shortlink.Transaction
open Shortlink.Interaction Shortlink.Expiring AuthProgram

/-! ### The chain of tokens -/

/-- The refresh token that a call answers with. -/
def AuthValue.refreshToken? : AuthValue → Option String
  | .tokens issued => some issued.refreshToken
  | .refreshed session => some session.refreshToken
  | .completed login => some login.refreshToken
  | _ => none

/-- The tokens of a session along a serial run, the newest one first: the token of its
login and those of the refreshes that presented the newest token so far. Other calls may
be executed in between, and every step may fail. -/
inductive TokensIssued (config : AuthConfig) (users : List AccountRecord)
    (sessionId : String) : List String → AuthState → Prop
  | login {s s' : AuthState} {call : AuthCall} {es : AuthLog} {value : AuthValue}
      {token : String} {session : AuthSessionRecord}
      (hrun : (authService config).Serially (fun _ _ => True) (fun _ _ _ _ => True)
        (AuthState.init users) s)
      (hcall : call.presented = none)
      (hexec : (authService config).Executes (fun _ _ _ => True)
        ((authService config).body call) s es (.ok value) s')
      (htoken : value.refreshToken? = some token) (hrow : session ∈ s'.db.sessions)
      (hid : session.id = sessionId)
      (hcurrent : session.refreshTokenHash = config.hashToken token) :
      TokensIssued config users sessionId [token] s'
  | refresh {s s' : AuthState} {call : AuthCall} {es : AuthLog} {value : AuthValue}
      {token next : String} {tokens : List String}
      (h : TokensIssued config users sessionId (token :: tokens) s)
      (hcall : call.presented = some token)
      (hexec : (authService config).Executes (fun _ _ _ => True)
        ((authService config).body call) s es (.ok value) s')
      (htoken : value.refreshToken? = some next) :
      TokensIssued config users sessionId (next :: token :: tokens) s'
  | other {s s' : AuthState} {tokens : List String}
      (h : TokensIssued config users sessionId tokens s)
      (hrun : (authService config).Serially (fun _ _ => True) (fun _ _ _ _ => True) s s') :
      TokensIssued config users sessionId tokens s'

/-- All tokens of the chain belong to the session, and all but the newest one are used
up. -/
structure Family (config : AuthConfig) (sessionId : String) (tokens : List String)
    (db : AuthDb) : Prop where
  sound : Sound db
  owned : ∀ token ∈ tokens, TokenOf db (config.hashToken token) sessionId
  used : ∀ token ∈ tokens.tail, UsedUp db (config.hashToken token)

/-- The session's row is there and revoked for this reason. -/
def RevokedFor (reason : SessionRevocationReason) (db : AuthDb) (sessionId : String) : Prop :=
  ∃ row ∈ db.sessions, row.id = sessionId ∧ row.revokedAt.isSome ∧
    row.revocationReason = some reason

theorem RevokedFor.ended {reason : SessionRevocationReason} {db : AuthDb} {sessionId : String}
    (h : RevokedFor reason db sessionId) : Ended db sessionId := by
  obtain ⟨row, hrow, hid, hrevoked, -⟩ := h
  exact ⟨row, hrow, hid, hrevoked⟩

theorem SessionRevoked.revokedFor {sessionId : String} {reason : SessionRevocationReason}
    {stamp : Stamp} {db db' : AuthDb} (h : SessionRevoked sessionId reason stamp db db')
    (hdb : Keys db) (hactive : Active db sessionId) : RevokedFor reason db' sessionId := by
  obtain ⟨row, hrow, rfl, hunrevoked⟩ := hactive
  have hfind := AuthDb.findSession_of_mem hdb.sessionIds hrow
  cases h with
  | missing hnone => cases hnone.symm.trans hfind
  | already session hsome hrevoked =>
      obtain rfl := Option.some.inj (hfind.symm.trans hsome)
      rw [hunrevoked] at hrevoked
      cases hrevoked
  | revoked session hsome _ =>
      obtain rfl := Option.some.inj (hfind.symm.trans hsome)
      exact ⟨_, mem_updateWhere_of hrow (by simp), rfl, rfl, rfl⟩

theorem Family.since {config : AuthConfig} {sessionId : String} {tokens : List String}
    {s s' : AuthState} (h : Family config sessionId tokens s.db)
    (hs' : Sound s'.db ∧ Since s s') : Family config sessionId tokens s'.db where
  sound := hs'.1
  owned token htoken := (h.owned token htoken).later hs'.2.later
  used token htoken := hs'.2.later.usedUp (h.used token htoken)

/-- The tables stay sound along a serial run, and what has happened stays so. -/
theorem serially_since {config : AuthConfig} {start : AuthState → AuthCall → Prop}
    {ok : AuthCall → AuthStep → AuthOutside → AuthState → Prop} {s s' : AuthState}
    (h : (authService config).Serially start ok s s') (hs : Sound s.db) :
    Sound s'.db ∧ Since s s' := by
  refine h.invariant (P := fun s₁ => Sound s₁.db ∧ Since s s₁) (fun x s₁ h₁ => ?_)
    (fun s₁ call h₁ _ es r s₂ hrun => ?_) ⟨hs, .refl s⟩
  · obtain ⟨hsound, hsince⟩ := environment_since x h₁.1
    exact ⟨hsound, h₁.2.trans hsince⟩
  · obtain ⟨hsound, hsince⟩ := executes_since hrun h₁.1
    exact ⟨hsound, h₁.2.trans hsince⟩

/-! ### A refresh -/

section

variable {config : AuthConfig} {s : AuthState} {refreshToken sessionId : String}
  {ok : AuthStep → AuthOutside → AuthState → Prop}

/-- A query that answers says what is in the tables, and the tables stay the same. -/
theorem ensures_answer {c : AuthCommand} {f : AuthDb → c.Res}
    (hc : ∀ stamp db, (c.impl stamp).run db = .ok (f db, db)) :
    (authRepository c).Ensures config ok
      (fun _ r s' => (∀ a, r = .ok a → a = f s.db) ∧ s'.db = s.db) s := by
  refine Ensures.of_authRepository fun s₁ o r s₂ s' hidle _ hexec hidle' => ?_
  have hkept : s₂.db = s₁.db := by
    rcases exec_repository_cases hexec with ⟨rfl, -⟩ | ⟨a, db', -, hrun, rfl, -⟩
    · rfl
    · exact (Prod.mk.inj (Except.ok.inj (hrun.symm.trans (hc _ _)))).2
  refine ⟨fun a ha => ?_, hidle'.db.trans (hkept.trans hidle.db)⟩
  rcases r with e | a'
  · cases ha
  cases ha
  have hrun := (exec_repository_ok hexec).1
  rw [hc, hidle.db] at hrun
  exact (Prod.mk.inj (Except.ok.inj hrun)).1.symm

theorem ensures_now_db {db : AuthDb} (h : s.db = db) :
    now.Ensures config ok (fun _ _ s' => s'.db = db) s :=
  .of_now fun _ _ _ hidle hidle' => hidle'.db.trans (hidle.db.trans h)

theorem AuthProgram.Ensures.fails {α : Type} (e : AuthError) :
    Ensures config ok (fun _ r _ => ∃ e', r = .error e') (throw e : AuthProgram α) s :=
  .of_throw fun _ _ => ⟨e, rfl⟩

theorem AuthProgram.Ensures.always {α : Type} (p : AuthProgram α) :
    p.Ensures config ok (fun _ _ _ => True) s := fun _ _ _ _ => trivial

theorem refreshReused_fails (history : SessionRefreshTokenRecord) :
    (AuthSessionService.refreshReused history).Ensures config ok
      (fun _ r _ => ∃ e, r = .error e) s :=
  .bind (.always _) (fun _ _ _ _ => .bind (.always _) (fun _ _ _ _ => .fails _)
    fun _ e _ _ => ⟨e, rfl⟩) fun _ e _ _ => ⟨e, rfl⟩

/-- No entry appears while nothing is executed. -/
theorem Idled.get_eq_none {s s' : AuthState} (h : Idled s s') {key : RedisKey}
    (hnone : s.redis.get key = none) : s'.redis.get key = none := by
  cases hget : s'.redis.get key with
  | none => rfl
  | some value =>
      have hlive := h.entry key value hget
      rw [hnone] at hlive
      cases hlive

/-- The row that a token is found by belongs to its session. -/
theorem history_of_tokenOf (hs : Sound s.db)
    (hof : TokenOf s.db (config.hashToken refreshToken) sessionId) :
    ∃ history, s.db.findRefreshTokenHistoryByHash (config.hashToken refreshToken) =
      some history ∧ history.sessionId = sessionId ∧
        (UsedUp s.db (config.hashToken refreshToken) ↔ history.usedAt.isSome) := by
  obtain ⟨t, ht, hhash, hid⟩ := hof
  refine ⟨t, hhash ▸ find?_key hs.chain.hashes ht, hid, ?_, fun hused => ⟨t, ht, hhash, hused⟩⟩
  rintro ⟨t', ht', hhash', hused⟩
  rwa [List.inj_on_of_nodup_map hs.chain.hashes ht ht' (hhash.trans hhash'.symm)]

/-- No token of a revoked session is exchanged. -/
theorem refresh_fails_of_ended (hs : Sound s.db) (hended : Ended s.db sessionId)
    (hof : TokenOf s.db (config.hashToken refreshToken) sessionId) :
    (AuthSessionService.refresh config refreshToken).Ensures config ok
      (fun _ r _ => ∃ e, r = .error e) s := by
  obtain ⟨row, hfind, hid, -⟩ := history_of_tokenOf hs hof
  refine .bind (ensures_answer (c := .findRefreshTokenHistoryByHash
    (config.hashToken refreshToken)) fun _ _ => rfl)
    (fun _ (history : Option SessionRefreshTokenRecord) s₁ h₁ => ?_) fun _ e _ _ => ⟨e, rfl⟩
  obtain ⟨hhistory, hdb₁⟩ := h₁
  have hhistory : history = some row := (hhistory history rfl).trans hfind
  subst hhistory
  dsimp only
  split
  · exact refreshReused_fails row
  refine .bind (ensures_answer (c := .findActiveSessionById row.sessionId) fun _ _ => rfl)
    (fun _ (session : Option AuthSessionRecord) s₂ h₂ => ?_) fun _ e _ _ => ⟨e, rfl⟩
  have hsession : session = none := by
    rw [h₂.1 session rfl, hdb₁, hid]
    exact findActiveSessionById_eq_none hs.keys hended
  subst hsession
  exact .fails _

theorem refresh_of_usedUp (hs : Sound s.db) (hactive : Active s.db sessionId)
    (hof : TokenOf s.db (config.hashToken refreshToken) sessionId)
    (hused : UsedUp s.db (config.hashToken refreshToken)) :
    (AuthSessionService.refresh config refreshToken).Ensures config noFault
      (fun _ r s' => r = .error .refreshTokenReuse ∧
        RevokedFor .refreshReuse s'.db sessionId ∧
          s'.redis.get (.session sessionId) = none) s := by
  obtain ⟨row, hfind, rfl, hiff⟩ := history_of_tokenOf hs hof
  refine .bind (ensures_found (c := .findRefreshTokenHistoryByHash
    (config.hashToken refreshToken)) fun _ _ => rfl)
    (fun _ (history : Option SessionRefreshTokenRecord) s₁ h₁ => ?_) fun _ _ _ h₁ => by cases h₁.1
  obtain ⟨hhistory, hdb₁⟩ := h₁
  have hhistory : history = some row := (Except.ok.inj hhistory).trans hfind
  subst hhistory
  dsimp only
  rw [if_pos (hiff.1 hused)]
  have hrevoke : (authRepository (.revokeSession row.sessionId .refreshReuse)).Ensures config
      noFault (fun _ r s' => (∃ u, r = .ok u) ∧
        RevokedFor .refreshReuse s'.db row.sessionId) s₁ := by
    refine Ensures.of_authRepository (c := .revokeSession row.sessionId .refreshReuse)
      fun s₂ o r s₃ s' hidle hfault hexec hidle' => ?_
    have htables : s₂.db = s.db := hidle.db.trans hdb₁
    rcases exec_repository_of_none hfault hexec with ⟨a, hrun, rfl⟩ | ⟨e, hrun, -⟩
    · have hrun : (revokeSessionTx row.sessionId .refreshReuse o.stamp).run s₂.db =
          .ok (a, s₃.db) := hrun
      refine ⟨⟨_, rfl⟩, ?_⟩
      rw [hidle'.db]
      exact (revokeSessionTx_run hrun).revokedFor (htables ▸ hs.keys) (htables ▸ hactive)
    · obtain ⟨db', htotal⟩ : ∃ db', (revokeSessionTx row.sessionId .refreshReuse o.stamp).run
          s₂.db = .ok ((), db') := revokeSessionTx_total (htables ▸ hs.keys) .refreshReuse o.stamp
      cases hrun.symm.trans htotal
  have hdelete : ∀ {s₂ : AuthState}, RevokedFor .refreshReuse s₂.db row.sessionId →
      (RedisAuthStateService.deleteSessionCache row.sessionId).Ensures config noFault
        (fun _ r s' => (∃ u, r = .ok u) ∧ RevokedFor .refreshReuse s'.db row.sessionId ∧
          s'.redis.get (.session row.sessionId) = none) s₂ := by
    intro s₂ hrevoked
    refine Ensures.of_redis (c := .del (.session row.sessionId))
      fun s₃ o r s₄ s' hidle hfault hexec hidle' => ?_
    have hreads : (AuthStep.redis (.del (.session row.sessionId))).Reads := trivial
    obtain ⟨rfl, hredis⟩ := exec_redis_of_none hfault hexec
    refine ⟨⟨_, rfl⟩, ?_, ?_⟩
    · rw [hidle'.db, hreads.exec hexec, hidle.db]
      exact hrevoked
    · refine hidle'.get_eq_none ?_
      rw [hredis]
      exact Store.get_del_self s₃.redis _
  refine .bind hrevoke (fun _ _ s₂ h₂ => ?_) fun _ _ _ h₂ => by cases h₂.1.choose_spec
  refine .bind (hdelete h₂.2) (fun _ _ s₃ h₃ => ?_) fun _ _ _ h₃ => by cases h₃.1.choose_spec
  exact .of_throw fun s' hidle => ⟨rfl, hidle.db ▸ h₃.2.1, hidle.get_eq_none h₃.2.2⟩

/-- A refresh that answers has used its token up and issued another one of the same
session. -/
structure Exchanges (config : AuthConfig) (refreshToken : String) (db db' : AuthDb)
    (next : String) : Prop where
  used : UsedUp db' (config.hashToken refreshToken)
  issued : ∀ sessionId, TokenOf db (config.hashToken refreshToken) sessionId →
    TokenOf db' (config.hashToken next) sessionId

theorem TokenRotated.exchanges {sessionId next : String} {input : RotateRefreshTokenInput}
    {stamp : Stamp} {db db' : AuthDb} {r : CreateExclusiveSessionResult}
    {session : AuthSessionRecord} {token : SessionRefreshTokenRecord}
    (h : TokenRotated sessionId input stamp db r db' session token) (hdb : TokenChain db)
    (hcurrent : input.currentTokenHash = config.hashToken refreshToken)
    (hnext : input.newTokenHash = config.hashToken next) :
    Exchanges config refreshToken db db' next := by
  refine ⟨hcurrent ▸ h.usedUp, fun id hof => ?_⟩
  obtain ⟨hmem, hid⟩ := AuthDb.mem_of_findSession h.find
  have hown := hdb.tokenOf hmem
  rw [h.current, hcurrent, hid] at hown
  obtain rfl := hof.unique hdb hown
  obtain rfl := h.result
  refine ⟨r.refreshToken, List.mem_append_right _ (List.mem_singleton_self _), ?_, ?_⟩
  · rw [h.refreshToken, hnext]
  · rw [h.refreshToken]

/-- What is executed after the rotation answers with the token that it has stored. -/
theorem sessionRotated_refreshToken (account : AccountRecord) (next : String)
    (rotated : CreateExclusiveSessionResult) :
    (AuthSessionService.sessionRotated config account next rotated).Ensures config ok
      (fun _ r _ => ∀ tokens, r = .ok tokens → tokens.refreshToken = next) s := by
  have herror : ∀ e : AuthError, ∀ tokens : IssuedSessionTokens,
      (.error e : Except AuthError IssuedSessionTokens) = .ok tokens →
        tokens.refreshToken = next := by
    intro e tokens h
    cases h
  refine .bind (.always _) (fun _ _ _ _ => ?_) fun _ e _ _ => herror e
  refine .bind (.always _) (fun _ _ _ _ => .of_pure fun _ _ tokens h => ?_)
    fun _ e _ _ => herror e
  cases h
  rfl

theorem rotate_exchanges (hs : Sound s.db) (session : AuthSessionRecord)
    (account : AccountRecord) :
    (AuthSessionService.rotate config (config.hashToken refreshToken) session account).Ensures
      config ok (fun _ r s' => ∀ tokens, r = .ok tokens →
        Exchanges config refreshToken s.db s'.db tokens.refreshToken) s := by
  have herror : ∀ (s' : AuthState) (e : AuthError) (tokens : IssuedSessionTokens),
      (.error e : Except AuthError IssuedSessionTokens) = .ok tokens →
        Exchanges config refreshToken s.db s'.db tokens.refreshToken := by
    intro s' e tokens h
    cases h
  have hgenerate : (generate .refreshToken).Ensures config ok (fun _ _ s' => s'.db = s.db) s :=
    .of_generate fun o s' hidle => hidle.db
  refine .bind hgenerate (fun _ next s₁ hdb₁ => ?_) fun _ e s' _ => herror s' e
  refine .bind (ensures_now_db hdb₁) (fun _ now s₂ hdb₂ => ?_) fun _ e s' _ => herror s' e
  have hrotate : (authRepository (.rotateRefreshToken session.id
      { currentTokenHash := config.hashToken refreshToken
        newTokenHash := config.hashToken next
        newExpiresAt := now + SESSION_TTL_MS })).Ensures config ok
      (fun _ r s' => ∀ a, r = .ok a → Sound s'.db ∧
        Exchanges config refreshToken s.db s'.db next) s₂ := by
    refine Ensures.of_authRepository fun s₃ o r s₄ s' hidle _ hexec hidle' a ha => ?_
    rcases r with e | a'
    · cases ha
    have hdb : s₃.db = s.db := hidle.db.trans hdb₂
    have hrun := (exec_repository_ok hexec).1
    obtain ⟨row, token, hrotated⟩ := rotateRefreshTokenTx_run hrun
    rw [hidle'.db, ← hdb]
    exact ⟨(hdb ▸ hs : Sound s₃.db).run hrun,
      hrotated.exchanges (hdb ▸ hs.chain) rfl rfl⟩
  refine .bind hrotate (fun _ rotated s₃ h₃ => ?_) fun _ e s' _ => herror s' e
  obtain ⟨hsound, hexchanges⟩ := h₃ rotated rfl
  intro es r s' hrun tokens htokens
  have hsince := (executes_since hrun hsound).2
  have hnext := sessionRotated_refreshToken account next rotated es r s' hrun tokens htokens
  rw [hnext]
  exact ⟨hsince.later.usedUp hexchanges.used,
    fun id hof => (hexchanges.issued id hof).later hsince.later⟩

theorem sessionRefresh_exchanges (hs : Sound s.db) :
    (AuthSessionService.refresh config refreshToken).Ensures config ok
      (fun _ r s' => ∀ tokens, r = .ok tokens →
        Exchanges config refreshToken s.db s'.db tokens.refreshToken) s := by
  have herror : ∀ (s' : AuthState) (e : AuthError) (tokens : IssuedSessionTokens),
      (.error e : Except AuthError IssuedSessionTokens) = .ok tokens →
        Exchanges config refreshToken s.db s'.db tokens.refreshToken := by
    intro s' e tokens h
    cases h
  have hthrown : ∀ {s₁ : AuthState} (e : AuthError),
      (throw e : AuthProgram IssuedSessionTokens).Ensures config ok
        (fun _ r s' => ∀ tokens, r = .ok tokens →
          Exchanges config refreshToken s.db s'.db tokens.refreshToken) s₁ :=
    fun e => .of_throw fun s' _ => herror s' e
  refine .bind (ensures_answer (c := .findRefreshTokenHistoryByHash
    (config.hashToken refreshToken)) fun _ _ => rfl)
    (fun _ (history : Option SessionRefreshTokenRecord) s₁ h₁ => ?_) fun _ e s' _ => herror s' e
  rcases history with _ | history
  · exact hthrown _
  dsimp only
  split
  · refine (refreshReused_fails history).mono fun _ r s' hr tokens htokens => ?_
    obtain ⟨e, rfl⟩ := hr
    cases htokens
  refine .bind (ensures_answer (c := .findActiveSessionById history.sessionId) fun _ _ => rfl)
    (fun _ (session : Option AuthSessionRecord) s₂ h₂ => ?_) fun _ e s' _ => herror s' e
  have hdb₂ : s₂.db = s.db := h₂.2.trans h₁.2
  rcases session with _ | session
  · exact hthrown _
  refine .bind (ensures_now_db hdb₂) (fun _ now s₃ hdb₃ => ?_) fun _ e s' _ => herror s' e
  split
  · exact hthrown _
  refine .bind (ensures_answer (c := .findAccountById session.userId) fun _ _ => rfl)
    (fun _ (account : Option AccountRecord) s₄ h₄ => ?_) fun _ e s' _ => herror s' e
  have hdb₄ : s₄.db = s.db := h₄.2.trans hdb₃
  rcases account with _ | account
  · exact hthrown _
  · refine (rotate_exchanges (hdb₄ ▸ hs) session account).mono fun _ r s' hr tokens htokens => ?_
    rw [← hdb₄]
    exact hr tokens htokens

theorem presented_exchanges {call : AuthCall} (hcall : call.presented = some refreshToken)
    (hs : Sound s.db) :
    (call.program config).Ensures config ok (fun _ r s' => ∀ value next, r = .ok value →
      value.refreshToken? = some next → Exchanges config refreshToken s.db s'.db next) s := by
  cases call with
  | sessionRefresh token =>
      cases hcall
      refine .map ((sessionRefresh_exchanges hs).mono fun _ r s' hr value next hvalue hnext => ?_)
      rcases r with e | tokens
      · cases hvalue
      · cases hvalue
        cases hnext
        exact hr tokens rfl
  | refresh token =>
      cases hcall
      have hanswer : (AuthService.refresh config refreshToken).Ensures config ok
          (fun _ r s' => ∀ session, r = .ok session →
            Exchanges config refreshToken s.db s'.db session.refreshToken) s := by
        refine .rethrow AuthError.unavailable (fun e => by cases e <;> rfl)
          (.rethrow AuthError.invalidSession (fun e => by cases e <;> rfl)
            (.bind (sessionRefresh_exchanges hs) (fun _ tokens s₁ h₁ => ?_)
              fun _ e _ _ session h => by cases h))
        refine .of_pure fun s' hidle session h => ?_
        cases h
        rw [hidle.db]
        exact h₁ tokens rfl
      refine .map (hanswer.mono fun _ r s' hr value next hvalue hnext => ?_)
      rcases r with e | session
      · cases hvalue
      · cases hvalue
        cases hnext
        exact hr session rfl
  | _ => cases hcall

end

/-! ### The family -/

/-- A serial run keeps the family of a session together. -/
theorem TokensIssued.family {config : AuthConfig} {users : List AccountRecord}
    {sessionId : String} {tokens : List String} {s : AuthState}
    (h : TokensIssued config users sessionId tokens s) :
    Family config sessionId tokens s.db := by
  induction h with
  | login hrun hcall hexec htoken hrow hid hcurrent =>
      obtain ⟨hsound, -⟩ := serially_since hrun (sound_init users)
      obtain ⟨hsound', -⟩ := executes_since hexec hsound
      refine ⟨hsound', fun token htoken => ?_, fun token htoken => absurd htoken List.not_mem_nil⟩
      rw [List.mem_singleton.1 htoken, ← hcurrent, ← hid]
      exact hsound'.chain.tokenOf hrow
  | refresh h hcall hexec htoken ih =>
      have hkept := ih.since (executes_since hexec ih.sound)
      have hexchanges := presented_exchanges hcall ih.sound _ _ _ hexec _ _ rfl htoken
      refine ⟨hkept.sound, fun token htoken => ?_, fun token htoken => ?_⟩
      · rcases List.mem_cons.1 htoken with rfl | htoken
        · exact hexchanges.issued _ (ih.owned _ List.mem_cons_self)
        · exact hkept.owned token htoken
      · rcases List.mem_cons.1 htoken with rfl | htoken
        · exact hexchanges.used
        · exact hkept.used token htoken
  | other h hrun ih => exact ih.since (serially_since hrun ih.sound)

/-- A token that has been replaced is presented while its session is not revoked: the
refresh fails with `RefreshTokenReuseError`, the session is revoked for it and not cached,
and from then on a refresh fails with whichever token of the chain. -/
theorem rotated_token_ends_family (config : AuthConfig) (users : List AccountRecord)
    {sessionId newest rotated : String} {older : List String} {s : AuthState}
    (h : TokensIssued config users sessionId (newest :: older) s)
    (hactive : Active s.db sessionId) (hrotated : rotated ∈ older) :
    (∃ es r s', (authService config).Executes noFault
      (AuthSessionService.refresh config rotated).run s es r s') ∧
    ∀ es r s', (authService config).Executes noFault
        (AuthSessionService.refresh config rotated).run s es r s' →
      r = .error .refreshTokenReuse ∧ RevokedFor .refreshReuse s'.db sessionId ∧
      s'.redis.get (.session sessionId) = none ∧
      ∀ token ∈ newest :: older, ∀ s₁ es' r' s₂,
        (authService config).Serially (fun _ _ => True) (fun _ _ _ _ => True) s' s₁ →
        (authService config).Executes (fun _ _ _ => True)
          (AuthSessionService.refresh config token).run s₁ es' r' s₂ → ∃ e, r' = .error e := by
  have hfamily := h.family
  refine ⟨?_, fun es r s' hrun => ?_⟩
  · have hexec : ∀ c s, ∃ r s', (authService config).exec c (outcome "" .none) s = some (r, s') :=
      fun c s => by cases c <;> exact ⟨_, _, rfl⟩
    have hok : ∀ c s, noFault c (outcome "" .none) s := fun _ _ => rfl
    obtain ⟨es, r, s', hrun, -⟩ := Semantics.exists_executes (authService config)
      (fun _ _ => outcome "" .none) hok hexec (AuthSessionService.refresh config rotated).run s
    exact ⟨es, r, s', hrun⟩
  · obtain ⟨hr, hrevoked, hcache⟩ := refresh_of_usedUp hfamily.sound hactive
      (hfamily.owned rotated (List.mem_cons_of_mem _ hrotated))
      (hfamily.used rotated hrotated) es r s' hrun
    refine ⟨hr, hrevoked, hcache, fun token htoken s₁ es' r' s₂ hlater hrun' => ?_⟩
    have hfamily' := hfamily.since (executes_since hrun hfamily.sound)
    have hsince := serially_since hlater hfamily'.sound
    have hfamily₁ := hfamily'.since hsince
    exact refresh_fails_of_ended hfamily₁.sound (hsince.2.ended hrevoked.ended)
      (hfamily₁.owned token htoken) es' r' s₂ hrun'

/-- The account logs in and refreshes the session twice. -/
def afterTwoRotations : AuthState :=
  (authService exampleConfig).serialAfter (fun _ _ => True) (fun _ => noFault)
    [.call (.sessionRefresh "a") (List.replicate 10 (outcome "b" .none)),
      .call (.refresh "b") (List.replicate 10 (outcome "c" .none))]
    afterLogin

theorem executes_anyhow {call : AuthCall} (os : List AuthOutside) {s s' : AuthState}
    {es : AuthLog} {r : AuthResult}
    (h : (authService exampleConfig).perform noFault ((authService exampleConfig).body call)
      os s = some (es, r, s')) :
    (authService exampleConfig).Executes (fun _ _ _ => True)
      ((authService exampleConfig).body call) s es r s' :=
  (Semantics.executes_of_perform os h).mono fun _ _ _ _ => trivial

theorem afterTwoRotations_issued :
    TokensIssued exampleConfig [exampleUser] "a" ["c", "b", "a"] afterTwoRotations := by
  have hcall : AuthCall.presented (.createSessionAfterLogin "u" "USER") = none := rfl
  have hlogin : TokensIssued exampleConfig [exampleUser] "a" ["a"] afterLogin :=
    .login .refl hcall (executes_anyhow (List.replicate 7 (outcome "a" .none)) rfl) rfl
      (List.mem_singleton_self _) rfl rfl
  have hfirst : AuthCall.presented (.sessionRefresh "a") = some "a" := rfl
  have hsecond : AuthCall.presented (.refresh "b") = some "b" := rfl
  exact (hlogin.refresh hfirst
    (executes_anyhow (List.replicate 10 (outcome "b" .none)) rfl) rfl).refresh hsecond
      (executes_anyhow (List.replicate 10 (outcome "c" .none)) rfl) rfl

/-- The token of the login ends the session of the newest token. -/
theorem login_token_ends_family : ∃ es r s',
    (authService exampleConfig).Executes noFault
      (AuthSessionService.refresh exampleConfig "a").run afterTwoRotations es r s' ∧
    r = .error .refreshTokenReuse ∧ RevokedFor .refreshReuse s'.db "a" ∧
    ∀ s₁ es' r' s₂, (authService exampleConfig).Serially (fun _ _ => True)
        (fun _ _ _ _ => True) s' s₁ →
      (authService exampleConfig).Executes (fun _ _ _ => True)
        (AuthSessionService.refresh exampleConfig "c").run s₁ es' r' s₂ →
      ∃ e, r' = .error e := by
  have holder : "a" ∈ ["b", "a"] := by decide
  obtain ⟨⟨es, r, s', hrun⟩, hends⟩ := rotated_token_ends_family exampleConfig [exampleUser]
    afterTwoRotations_issued ⟨_, List.mem_singleton_self _, rfl, rfl⟩ holder
  obtain ⟨hr, hrevoked, -, hlater⟩ := hends es r s' hrun
  exact ⟨es, r, s', hrun, hr, hrevoked, fun s₁ es' r' s₂ =>
    hlater "c" List.mem_cons_self s₁ es' r' s₂⟩

end Auth

end Shortlink
