import Shortlink.Auth.CsrfOriginGuard
import Shortlink.Auth.Rotation

/-!
# The session behind the guard of a refresh

The guard resolves the session of a refresh token from the sessions first, the refresh
from the history of the tokens first, and other requests may be served in between. Both
find the session of one token row, whose session and hash do not change, so a refresh
touches only the session whose CSRF token the guard has seen.
-/

namespace Shortlink

namespace Auth

open Shortlink.Storage Shortlink.Table Shortlink.Transaction
open Shortlink.Interaction Shortlink.Expiring AuthProgram

/-! ### The courses of the calls -/

/-- What a call with a refresh token may do. -/
def HttpMay (config : AuthConfig) (call : HttpCall) (trace : AuthTrace) (c : AuthStep) :
    Prop :=
  ∀ service refreshToken, call = .service service → service.presented = some refreshToken →
    RefreshMay (config.hashToken refreshToken) trace c

/-- A request is admitted only after the guard has found its session. -/
def HttpEnds (config : AuthConfig) (guard : GuardConfig) (call : HttpCall)
    (trace : AuthTrace) (r : HttpResult) : Prop :=
  ∀ request admitted, call = .canActivate request → r = .ok (.admitted admitted) →
    ∃ refreshToken csrfToken session,
      Admitted config guard request refreshToken csrfToken session trace

theorem presented_course (config : AuthConfig) {call : AuthCall} {refreshToken : String}
    (h : call.presented = some refreshToken) :
    (call.program config).Obeys (RefreshMay (config.hashToken refreshToken))
      (fun _ _ => True) [] := by
  cases call with
  | sessionRefresh token =>
      cases h
      exact (obeys_map _ _).2 ((refresh_course config refreshToken).mono
        fun _ r _ => by cases r <;> trivial)
  | refresh token =>
      cases h
      exact (obeys_map _ _).2 ((serviceRefresh_course config refreshToken).mono
        fun _ r _ => by cases r <;> trivial)
  | _ => cases h

theorem httpBody_course (config : AuthConfig) (guard : GuardConfig) (call : HttpCall) :
    Program.Obeys (HttpMay config call) (HttpEnds config guard call) []
      ((httpService config guard).body call) := by
  cases call with
  | canActivate request =>
      refine (obeys_map _ _).2 (Program.Obeys.mono (fun _ _ _ => nofun) (fun trace r hr => ?_)
        (canActivate_course request))
      rcases r with e | admitted
      · exact fun _ _ _ => nofun
      · rintro _ _ ⟨⟩ -
        exact hr
  | service call =>
      refine (obeys_map _ _).2 ?_
      have hends : ∀ (trace : AuthTrace) (r : AuthResult),
          either (fun trace a => HttpEnds config guard (.service call) trace
            (.ok (.service a))) (fun trace e => HttpEnds config guard (.service call) trace
              (.error e)) trace r := by
        intro trace r
        cases r <;> exact fun _ _ => nofun
      cases hpresented : call.presented with
      | some refreshToken =>
          refine Program.Obeys.mono (fun trace c hc => ?_) (fun trace r _ => hends trace r)
            (presented_course config hpresented)
          rintro _ token ⟨⟩ htoken
          cases hpresented.symm.trans htoken
          exact hc
      | none =>
          refine Program.Obeys.mono (fun trace c _ => ?_) (fun _ _ h => h)
            (Program.obeys_of_append fun l r => hends _ r)
          rintro _ token ⟨⟩ htoken
          cases hpresented.symm.trans htoken

/-! ### The token row of a session -/

/-- The sessions with the hashes of their CSRF tokens. -/
def AuthDb.csrfHashes (db : AuthDb) : List (String × String) :=
  db.sessions.map fun s => (s.id, s.csrfTokenHash)

def TokenOf (db : AuthDb) (tokenHash sessionId : String) : Prop :=
  ∃ t ∈ db.refreshTokens, t.tokenHash = tokenHash ∧ t.sessionId = sessionId

theorem TokenOf.later {db db' : AuthDb} {tokenHash sessionId : String}
    (h : TokenOf db tokenHash sessionId) (hlater : Later db db') :
    TokenOf db' tokenHash sessionId := by
  obtain ⟨t, ht, rfl, rfl⟩ := h
  obtain ⟨t', ht', -, hsession, hhash, -⟩ := hlater.token t ht
  exact ⟨t', ht', hhash, hsession⟩

theorem TokenOf.unique {db : AuthDb} (hdb : TokenChain db) {tokenHash id id' : String}
    (h : TokenOf db tokenHash id) (h' : TokenOf db tokenHash id') : id = id' := by
  obtain ⟨t, ht, hhash, rfl⟩ := h
  obtain ⟨t', ht', hhash', rfl⟩ := h'
  rw [List.inj_on_of_nodup_map hdb.hashes ht ht' (hhash.trans hhash'.symm)]

theorem TokenChain.tokenOf {db : AuthDb} (hdb : TokenChain db) {s : AuthSessionRecord}
    (hs : s ∈ db.sessions) : TokenOf db s.refreshTokenHash s.id := by
  obtain ⟨t, hfilter, hhash⟩ := hdb.current s hs
  have hmem : t ∈ db.refreshTokens.filter
      (fun t => t.sessionId == s.id && t.usedAt.isNone) :=
    hfilter ▸ List.mem_singleton_self t
  obtain ⟨ht, hsession⟩ := List.mem_filter.1 hmem
  simp only [Bool.and_eq_true, beq_iff_eq] at hsession
  exact ⟨t, ht, hhash, hsession.1⟩

section

variable {Call α : Type} {body : Call → Program AuthStep AuthStep.Reply α}
  {ok : Pool AuthStep AuthStep.Reply Call α AuthState →
    Event Call AuthOutside AuthEnvironment → Prop}
  {σ σ' : Pool AuthStep AuthStep.Reply Call α AuthState} {users : List AccountRecord}

/-- A session keeps its CSRF token. -/
theorem reaches_csrfHashes (h : (concurrently body).Reaches ok σ σ') :
    ∀ x ∈ σ.shared.db.csrfHashes, x ∈ σ'.shared.db.csrfHashes := by
  induction h with
  | refl => exact fun _ hx => hx
  | @tail σ₁ σ₂ hrun hstep ih =>
      intro x hx
      have hx := ih x hx
      cases hstep.moves with
      | spawn call hok hshared hthreads hhistory => rwa [hshared]
      | environment e hok hshared hthreads hhistory =>
          rw [hshared]
          cases e <;> exact hx
      | exec e he =>
          obtain ⟨k, c, r⟩ := e
          obtain ⟨o, -, hexec⟩ := he.exec
          generalize hs : σ₁.shared = s at hexec hx
          generalize hs' : σ₂.shared = s' at hexec
          cases exec_acts hexec with
          | idle c => exact hx
          | executed c => exact hx
          | committed c stamp a db hrun =>
              rcases AuthCommand.impl_sessions (f := fun s => (s.id, s.csrfTokenHash))
                (fun _ _ _ => rfl) (fun _ _ _ _ => rfl) hrun with hkeep | ⟨_, _, _, -, -, -, hadd⟩
              · rw [AuthDb.csrfHashes, hkeep]
                exact hx
              · rw [AuthDb.csrfHashes, hadd]
                exact List.mem_append_left _ hx

/-- An answer of the repository was given in an earlier state of the run. -/
theorem found_earlier
    (h : (concurrently body).Reaches ok (Pool.init (AuthState.init users)) σ) {k : ℕ}
    {c : AuthCommand} {a : c.Res}
    (hmem : (⟨.repository c, .ok a⟩ : Exchange AuthStep AuthStep.Reply) ∈
      traceOf σ.history k) :
    ∃ σ₁ stamp db', Sound σ₁.shared.db ∧ (concurrently body).Reaches ok σ₁ σ ∧
      (c.impl stamp).run σ₁.shared.db = .ok (a, db') := by
  obtain ⟨l₂, l₁, hl⟩ := List.append_of_mem (mem_traceOf.1 hmem)
  obtain ⟨σ₁, σ₂, h₁, he, -, h₂⟩ := h.split hl List.nil_suffix
  obtain ⟨o, -, hexec⟩ := he.exec
  exact ⟨σ₁, o.stamp, _, reaches_sound h₁, (Relation.ReflTransGen.single he.steps).trans h₂,
    (exec_repository_ok (c := c) (a := a) hexec).1⟩

/-- The current token of a session that has been found belongs to it. -/
theorem tokenOf_of_found {s : AuthSessionRecord} (hsound : Sound σ.shared.db)
    (h : (concurrently body).Reaches ok σ σ') (hs : s ∈ σ.shared.db.sessions) :
    TokenOf σ'.shared.db s.refreshTokenHash s.id ∧
      (s.id, s.csrfTokenHash) ∈ σ'.shared.db.csrfHashes :=
  ⟨(hsound.chain.tokenOf hs).later (reaches_since h hsound).2.later,
    reaches_csrfHashes h _ (List.mem_map_of_mem hs)⟩

/-- The token of a history row that has been found belongs to the session of the row. -/
theorem tokenOf_of_history
    (h : (concurrently body).Reaches ok (Pool.init (AuthState.init users)) σ) {k : ℕ}
    {tokenHash : String} {t : SessionRefreshTokenRecord}
    (hmem : (⟨.repository (.findRefreshTokenHistoryByHash tokenHash), .ok (some t)⟩ :
      Exchange AuthStep AuthStep.Reply) ∈ traceOf σ.history k) :
    TokenOf σ.shared.db tokenHash t.sessionId := by
  obtain ⟨σ₁, stamp, db', hsound, h₁, hrun⟩ := found_earlier h hmem
  have hfind : σ₁.shared.db.findRefreshTokenHistoryByHash tokenHash = some t :=
    (Prod.mk.inj (Except.ok.inj hrun)).1
  have htoken : TokenOf σ₁.shared.db tokenHash t.sessionId :=
    ⟨t, List.mem_of_find?_eq_some hfind, by simpa using List.find?_some hfind, rfl⟩
  exact htoken.later (reaches_since h₁ hsound).2.later

/-- An active session that has been found, with its current token. -/
theorem tokenOf_of_active
    (h : (concurrently body).Reaches ok (Pool.init (AuthState.init users)) σ) {k : ℕ}
    {sessionId : String} {s : AuthSessionRecord}
    (hmem : (⟨.repository (.findActiveSessionById sessionId), .ok (some s)⟩ :
      Exchange AuthStep AuthStep.Reply) ∈ traceOf σ.history k) :
    s.id = sessionId ∧ TokenOf σ.shared.db s.refreshTokenHash s.id ∧
      (s.id, s.csrfTokenHash) ∈ σ.shared.db.csrfHashes := by
  obtain ⟨σ₁, stamp, db', hsound, h₁, hrun⟩ := found_earlier h hmem
  have hfind : σ₁.shared.db.findActiveSessionById sessionId = some s :=
    (Prod.mk.inj (Except.ok.inj hrun)).1
  obtain ⟨hs, hid, -⟩ := mem_of_findActiveSessionById hfind
  exact ⟨hid, tokenOf_of_found hsound h₁ hs⟩

/-- The session that the guard has resolved: the token belongs to it. -/
theorem tokenOf_of_resolved
    (h : (concurrently body).Reaches ok (Pool.init (AuthState.init users)) σ) {k : ℕ}
    {tokenHash : String} {s : AuthSessionRecord}
    (hresolved : Resolved tokenHash s (traceOf σ.history k)) :
    TokenOf σ.shared.db tokenHash s.id ∧
      (s.id, s.csrfTokenHash) ∈ σ.shared.db.csrfHashes := by
  cases hresolved with
  | current hmem =>
      obtain ⟨σ₁, stamp, db', hsound, h₁, hrun⟩ := found_earlier h hmem
      have hfind : σ₁.shared.db.findSessionByRefreshTokenHash tokenHash = some s :=
        (Prod.mk.inj (Except.ok.inj hrun)).1
      obtain rfl : s.refreshTokenHash = tokenHash := by simpa using List.find?_some hfind
      exact tokenOf_of_found hsound h₁ (List.mem_of_find?_eq_some hfind)
  | rotated history hhistory hsession =>
      obtain ⟨hid, -, hcsrf⟩ := tokenOf_of_active h hsession
      exact ⟨hid ▸ tokenOf_of_history h hhistory, hcsrf⟩

end

/-! ### The writes of a refresh -/

def AuthDb.otherSessions (db : AuthDb) (sessionId : String) : List AuthSessionRecord :=
  db.sessions.filter fun s => s.id ≠ sessionId

theorem otherSessions_saveRevoked (db : AuthDb) (sessionId : String) (now : ℕ)
    (reason : SessionRevocationReason) :
    (db.saveRevoked [sessionId] now reason).otherSessions sessionId =
      db.otherSessions sessionId := by
  refine filter_updateWhere fun s _ hid => ?_
  have hid : s.id = sessionId := by simpa using hid
  simp [hid]

/-- The tables of a refresh's session keep the rows of the others. -/
theorem AuthCommand.impl_otherSessions {c : AuthCommand} {stamp : Stamp} {db db' : AuthDb}
    {a : c.Res} {tokenHash sessionId : String} {trace : AuthTrace}
    (hmay : RefreshMay tokenHash trace (.repository c))
    (hcurrent : ∀ id ∈ told (AuthCommand.current tokenHash) trace, id = sessionId)
    (hreused : ∀ id ∈ told AuthCommand.reused trace, id = sessionId)
    (h : (c.impl stamp).run db = .ok (a, db')) :
    db'.otherSessions sessionId = db.otherSessions sessionId := by
  cases c with
  | createExclusiveSession userId sessionData => exact hmay.elim
  | revokeAllSessions userId reason => exact hmay.elim
  | rotateRefreshToken id input =>
      obtain ⟨session, token, hrot⟩ := rotateRefreshTokenTx_run h
      obtain rfl := hrot.result
      obtain rfl := hcurrent id hmay.1
      have hsession : a.session.id = id := by
        rw [hrot.session]
        exact (AuthDb.mem_of_findSession hrot.find).2
      refine filter_updateWhere fun s _ hid => ?_
      have hid : s.id = id := by simpa [hsession] using hid
      simp [hid]
  | revokeSession id reason =>
      obtain rfl := hreused id hmay
      cases revokeSessionTx_run h with
      | missing => rfl
      | already => rfl
      | revoked session hfind _ =>
          rw [(AuthDb.mem_of_findSession hfind).2]
          exact otherSessions_saveRevoked db id _ _
  | findAccountByEmail email => rw [AuthCommand.impl_reads (by trivial) h]
  | findAccountById id => rw [AuthCommand.impl_reads (by trivial) h]
  | findActiveSessionById id => rw [AuthCommand.impl_reads (by trivial) h]
  | findSessionByRefreshTokenHash hash => rw [AuthCommand.impl_reads (by trivial) h]
  | findRefreshTokenHistoryByHash hash => rw [AuthCommand.impl_reads (by trivial) h]

theorem exists_of_mem_current {trace : AuthTrace} {tokenHash id : String}
    (h : id ∈ told (AuthCommand.current tokenHash) trace) :
    ∃ queried, ∃ session : AuthSessionRecord,
      (⟨.repository (.findActiveSessionById queried), .ok (some session)⟩ :
        Exchange AuthStep AuthStep.Reply) ∈ trace ∧ session.id = id ∧
          session.refreshTokenHash = tokenHash := by
  obtain ⟨c, a, hmem, hid⟩ := exists_of_mem_told h
  match c, a with
  | .findActiveSessionById queried, (found : Option AuthSessionRecord) =>
      obtain ⟨session, hfound, rfl⟩ := Option.map_eq_some_iff.1 (Option.mem_toList.1 hid)
      obtain ⟨rfl, hhash⟩ := Option.filter_eq_some_iff.1 hfound
      exact ⟨queried, session, hmem, rfl, by simpa using hhash⟩

theorem exists_of_mem_reused {trace : AuthTrace} {id : String}
    (h : id ∈ told AuthCommand.reused trace) :
    ∃ hash, ∃ history : SessionRefreshTokenRecord,
      (⟨.repository (.findRefreshTokenHistoryByHash hash), .ok (some history)⟩ :
        Exchange AuthStep AuthStep.Reply) ∈ trace ∧ history.sessionId = id := by
  obtain ⟨c, a, hmem, hid⟩ := exists_of_mem_told h
  match c, a with
  | .findRefreshTokenHistoryByHash hash, (found : Option SessionRefreshTokenRecord) =>
      obtain ⟨history, hfound, rfl⟩ := Option.map_eq_some_iff.1 (Option.mem_toList.1 hid)
      obtain ⟨rfl, -⟩ := Option.filter_eq_some_iff.1 hfound
      exact ⟨hash, history, hmem, rfl⟩

/-- The steps of a refresh keep the rows of the other sessions. -/
theorem refresh_keeps_others {config : AuthConfig} {guard : GuardConfig}
    {users : List AccountRecord} {ok : HttpPool → HttpEvent → Prop} {σ σ' : HttpPool}
    (h : (httpService config guard).Reaches ok (Pool.init (AuthState.init users)) σ)
    {e : Entry AuthStep AuthStep.Reply} (he : (httpService config guard).Fires ok e σ σ')
    {call : AuthCall} {refreshToken sessionId : String}
    (hcall : σ.call? e.thread = some (.service call))
    (hpresented : call.presented = some refreshToken)
    (htoken : TokenOf σ.shared.db (config.hashToken refreshToken) sessionId) :
    σ'.shared.db.otherSessions sessionId = σ.shared.db.otherSessions sessionId := by
  have hbody : ∀ σ call, ok σ (.spawn call) → Program.Obeys (HttpMay config call)
      (HttpEnds config guard call) [] ((httpService config guard).body call) :=
    fun _ call _ => httpBody_course config guard call
  have hmay : ∀ (l₂ l₁ : List AuthEntry) (c : AuthStep) (r : c.Reply),
      σ.history = l₂ ++ ⟨e.thread, c, r⟩ :: l₁ →
        RefreshMay (config.hashToken refreshToken) (traceOf l₁ e.thread) c := by
    intro l₂ l₁ c r hl
    obtain ⟨call', rest, hthread, hmay⟩ := h.allowed _ _ hbody hl
    rw [Pool.call?, hthread] at hcall
    exact hmay _ _ (Option.some.inj hcall) hpresented
  obtain ⟨call', rest, hthread, hstep⟩ := he.allowed _ _ h hbody
  rw [Pool.call?, hthread] at hcall
  have hstep := hstep _ _ (Option.some.inj hcall) hpresented
  have hsound := (reaches_sound h).chain
  have hcurrent : ∀ id ∈ told (AuthCommand.current (config.hashToken refreshToken))
      (traceOf σ.history e.thread), id = sessionId := by
    intro id hid
    obtain ⟨queried, session, hmem, rfl, hhash⟩ := exists_of_mem_current hid
    obtain ⟨-, hof, -⟩ := tokenOf_of_active h hmem
    exact (hhash ▸ hof).unique hsound htoken
  have hreused : ∀ id ∈ told AuthCommand.reused (traceOf σ.history e.thread),
      id = sessionId := by
    intro id hid
    obtain ⟨hash, history, hmem, rfl⟩ := exists_of_mem_reused hid
    obtain ⟨l₂, l₁, hl⟩ := List.append_of_mem (mem_traceOf.1 hmem)
    obtain rfl : hash = config.hashToken refreshToken := hmay l₂ l₁ _ _ hl
    exact (tokenOf_of_history h hmem).unique hsound htoken
  obtain ⟨k, c, r⟩ := e
  obtain ⟨o, -, hexec⟩ := he.exec
  generalize hs : σ.shared = s at hexec
  generalize hs' : σ'.shared = s' at hexec
  cases exec_acts hexec with
  | idle c => rfl
  | executed c => rfl
  | committed c stamp a db hrun =>
      exact AuthCommand.impl_otherSessions hstep hcurrent hreused hrun

/-- When the guard has admitted a refresh, the origin is allowed, and a refresh with the
same token touches only the session whose CSRF token was presented, whatever happens in
between. -/
theorem refresh_touches_matching_session (config : AuthConfig) (guard : GuardConfig)
    (users : List AccountRecord) {ok : HttpPool → HttpEvent → Prop} {σ₀ : HttpPool} {g : ℕ}
    {request : CsrfOriginRequest}
    (h₀ : (httpService config guard).Reaches ok (Pool.init (AuthState.init users)) σ₀)
    (hcall : σ₀.call? g = some (.canActivate request))
    (hadmitted : σ₀.result? g = some (.ok (.admitted true))) :
    (∃ origin ∈ guard.corsAllowedOrigins,
      CsrfOriginGuard.resolveOrigin guard request.origin request.referer = some origin) ∧
    ∃ refreshToken csrfToken sessionId,
      CsrfOriginGuard.readRefreshCookie guard request = .ok (some refreshToken) ∧
      CsrfOriginGuard.csrfToken request = some csrfToken ∧
      ∀ σ, (httpService config guard).Reaches ok σ₀ σ →
        (sessionId, config.hashToken csrfToken) ∈ σ.shared.db.csrfHashes ∧
        ∀ σ' e call, (httpService config guard).Fires ok e σ σ' →
          σ.call? e.thread = some (.service call) → call.presented = some refreshToken →
            σ'.shared.db.otherSessions sessionId = σ.shared.db.otherSessions sessionId := by
  obtain ⟨call, hthread⟩ := (Pool.result?_eq_some_iff σ₀ g _).1 hadmitted
  have hends := h₀.obeys (HttpMay config) (HttpEnds config guard)
    (fun _ call _ => httpBody_course config guard call) hthread
  rw [Pool.call?, hthread] at hcall
  obtain ⟨refreshToken, csrfToken, session, hguard⟩ :=
    hends request true (Option.some.inj hcall) rfl
  obtain ⟨origin, horigin, hallowed⟩ := hguard.origin
  obtain ⟨htoken, hcsrf⟩ := tokenOf_of_resolved h₀ hguard.resolved
  refine ⟨⟨origin, hallowed, horigin⟩, refreshToken, csrfToken, session.id, hguard.cookie,
    hguard.header, fun σ h => ⟨hguard.binding ▸ reaches_csrfHashes h _ hcsrf,
      fun σ' e call he hcall hpresented => ?_⟩⟩
  exact refresh_keeps_others (h₀.trans h) he hcall hpresented
    (htoken.later (reaches_since h (reaches_sound h₀)).2.later)

/-! ### A request -/

def exampleGuard : GuardConfig where
  corsAllowedOrigins := ["https://app.example.com"]
  refreshCookieEnv := none
  urlOrigin raw := some raw
  decodeURIComponent raw := some raw

/-- A request from the allowed origin with both tokens `a`. -/
def exampleRequest : CsrfOriginRequest where
  origin := some "https://app.example.com"
  referer := none
  csrfHeader := some (.single "a")
  cookie := none
  cookies := some [("shortlink_refresh", "a")]

/-- The next steps of call `k`, with `id` for every id and secret. -/
def httpSteps (k : ℕ) (id : String) (n : ℕ) : List HttpEvent :=
  List.replicate n (.exec k ⟨⟨1, 1, 1, id, id⟩, id, .none⟩)

/-- After a login the guard admits the request. -/
def afterGuard : HttpPool :=
  (httpService exampleConfig exampleGuard).after
    (.spawn (.service (.createSessionAfterLogin "u" "USER")) :: httpSteps 0 "a" 7 ++
      .spawn (.canActivate exampleRequest) :: httpSteps 1 "a" 1)
    (Pool.init (AuthState.init [exampleUser]))

/-- Another call rotates the token, and the admitted one is started. -/
def guardedRotation : HttpPool :=
  (httpService exampleConfig exampleGuard).after
    (.spawn (.service (.sessionRefresh "a")) :: httpSteps 2 "b" 7 ++
      [.spawn (.service (.sessionRefresh "a"))]) afterGuard

/-- The rotation has changed the token, not the CSRF token, and no step of the refresh that
comes too late touches another session. -/
theorem admitted_refresh_binding :
    (afterGuard.shared.db.sessions.map (·.refreshTokenHash) = ["#a"] ∧
      guardedRotation.shared.db.sessions.map (·.refreshTokenHash) = ["#b"]) ∧
    ∃ refreshToken csrfToken sessionId,
      CsrfOriginGuard.readRefreshCookie exampleGuard exampleRequest =
        .ok (some refreshToken) ∧
      (sessionId, exampleConfig.hashToken csrfToken) ∈ guardedRotation.shared.db.csrfHashes ∧
      ∀ σ' e call, (httpService exampleConfig exampleGuard).Fires (fun _ _ => True) e
          guardedRotation σ' →
        guardedRotation.call? e.thread = some (.service call) →
          call.presented = some refreshToken →
            σ'.shared.db.otherSessions sessionId =
              guardedRotation.shared.db.otherSessions sessionId := by
  have hreached : (httpService exampleConfig exampleGuard).Reaches (fun _ _ => True)
      (Pool.init (AuthState.init [exampleUser])) afterGuard :=
    Semantics.reaches_after _ (by decide)
  have hlater : (httpService exampleConfig exampleGuard).Reaches (fun _ _ => True)
      afterGuard guardedRotation := Semantics.reaches_after _ (by decide)
  have hcall : afterGuard.call? 1 = some (.canActivate exampleRequest) := rfl
  obtain ⟨-, refreshToken, csrfToken, sessionId, hcookie, -, hrun⟩ :=
    refresh_touches_matching_session exampleConfig exampleGuard [exampleUser] hreached hcall rfl
  obtain ⟨hcsrf, hsteps⟩ := hrun _ hlater
  exact ⟨by decide, refreshToken, csrfToken, sessionId, hcookie, hcsrf, hsteps⟩

end Auth

end Shortlink
