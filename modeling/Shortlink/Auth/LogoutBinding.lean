import Shortlink.Auth.RefreshBinding
import Shortlink.Auth.LiveEntries

/-!
# The session behind the guard of a logout

The guard admits a request with any token of an active session, `logout` finds a session
by its current token only and takes a token that it does not find for a session that is
gone. So an admitted logout ends the session of the CSRF token exactly when it presents
the current token (`admitted_logout_ends_session_iff`).
-/

namespace Shortlink

namespace Auth

open Shortlink.Storage Shortlink.Table Shortlink.Transaction
open Shortlink.Interaction Shortlink.Expiring AuthProgram

/-- The session to which the guard resolves a refresh token. -/
def resolvedSession (db : AuthDb) (tokenHash : String) : Option AuthSessionRecord :=
  match db.findSessionByRefreshTokenHash tokenHash with
  | some session => some session
  | none => (db.findRefreshTokenHistoryByHash tokenHash).bind fun history =>
      db.findActiveSessionById history.sessionId

/-- The CSRF token of the request is the one of the session that its refresh token is
resolved to. -/
structure MatchedBy (config : AuthConfig) (guard : GuardConfig) (request : CsrfOriginRequest)
    (refreshToken : String) (db : AuthDb) (session : AuthSessionRecord) : Prop where
  cookie : CsrfOriginGuard.readRefreshCookie guard request = .ok (some refreshToken)
  resolved : resolvedSession db (config.hashToken refreshToken) = some session
  binding : ∃ csrfToken, CsrfOriginGuard.csrfToken request = some csrfToken ∧
    session.csrfTokenHash = config.hashToken csrfToken

section

variable {config : AuthConfig} {guard : GuardConfig} {s : AuthState}

/-- A query answers what the tables say and keeps them. -/
theorem ensures_found {c : AuthCommand} {f : AuthDb → c.Res}
    (hc : ∀ stamp db, (c.impl stamp).run db = .ok (f db, db)) :
    (authRepository c).Ensures config noFault
      (fun _ r s' => r = .ok (f s.db) ∧ s'.db = s.db) s := by
  refine Ensures.of_authRepository fun s₁ o r s₂ s' hidle hfault hexec hidle' => ?_
  rcases exec_repository_of_none hfault hexec with ⟨a, hrun, rfl⟩ | ⟨e, hrun, -⟩
  · rw [hc] at hrun
    obtain ⟨rfl, hdb⟩ := Prod.mk.inj (Except.ok.inj hrun)
    refine ⟨by rw [hidle.db]; rfl, ?_⟩
    rw [hidle'.db, ← hdb, hidle.db]
  · rw [hc] at hrun
    cases hrun

theorem resolveSession_ensures (refreshToken : String) :
    (CsrfOriginGuard.resolveSession config refreshToken).Ensures config noFault
      (fun _ r s' => r = .ok (resolvedSession s.db (config.hashToken refreshToken)) ∧
        s'.db = s.db) s := by
  refine .bind (ensures_found (c := .findSessionByRefreshTokenHash
    (config.hashToken refreshToken)) fun _ _ => rfl)
    (fun _ (found : Option AuthSessionRecord) s₁ h₁ => ?_) fun _ _ _ h₁ => by cases h₁.1
  obtain ⟨hfound, hdb₁⟩ := h₁
  have hfound : found = s.db.findSessionByRefreshTokenHash (config.hashToken refreshToken) :=
    Except.ok.inj hfound
  rw [resolvedSession, ← hfound]
  rcases found with _ | session
  · refine .bind (ensures_found (c := .findRefreshTokenHistoryByHash
      (config.hashToken refreshToken)) fun _ _ => rfl)
      (fun _ (history : Option SessionRefreshTokenRecord) s₂ h₂ => ?_)
      fun _ _ _ h₂ => by cases h₂.1
    obtain ⟨hhistory, hdb₂⟩ := h₂
    have hhistory : history = s.db.findRefreshTokenHistoryByHash
        (config.hashToken refreshToken) := hdb₁ ▸ Except.ok.inj hhistory
    dsimp only
    rw [← hhistory]
    rcases history with _ | history
    · exact .of_pure fun s' hidle => ⟨rfl, hidle.db.trans (hdb₂.trans hdb₁)⟩
    · refine (ensures_found (c := .findActiveSessionById history.sessionId)
        fun _ _ => rfl).mono fun _ r s' h => ?_
      rw [hdb₂, hdb₁] at h
      exact h
  · exact .of_pure fun s' hidle => ⟨rfl, hidle.db.trans hdb₁⟩

/-- A request is admitted when its CSRF token is the one of the session that its refresh
token is resolved to. -/
theorem canActivate_ensures (request : CsrfOriginRequest) :
    (CsrfOriginGuard.canActivate config guard request).Ensures config noFault
      (fun _ r s' => s'.db = s.db ∧ ∀ admitted, r = .ok admitted →
        ∃ refreshToken session, MatchedBy config guard request refreshToken s.db session) s := by
  have hrejected : ∀ {s₁ : AuthState} {e : AuthError}, s₁.db = s.db →
      (throw e : AuthProgram Bool).Ensures config noFault (fun _ r s' => s'.db = s.db ∧
        ∀ admitted, r = .ok admitted → ∃ refreshToken session,
          MatchedBy config guard request refreshToken s.db session) s₁ :=
    fun hdb => .of_throw fun s' hidle => ⟨hidle.db.trans hdb, nofun⟩
  rw [CsrfOriginGuard.canActivate]
  cases hheader : nonBlank (CsrfOriginGuard.csrfToken request) with
  | none => exact hrejected rfl
  | some csrfToken =>
  dsimp only
  split
  · exact hrejected rfl
  split
  · exact hrejected rfl
  rw [CsrfOriginGuard.matchSession]
  cases hcookie : CsrfOriginGuard.readRefreshCookie guard request with
  | error e => exact hrejected rfl
  | ok cookie =>
  dsimp only
  cases htoken : cookie.filter (· ≠ "") with
  | none => exact hrejected rfl
  | some refreshToken =>
  refine .bind (resolveSession_ensures refreshToken) (fun _ found s₁ h₁ => ?_)
    fun _ _ _ h₁ => by cases h₁.1
  obtain ⟨hfound, hdb₁⟩ := h₁
  rcases found with _ | session
  · exact hrejected hdb₁
  · dsimp only
    split
    · exact hrejected hdb₁
    · rename_i hbinding
      refine .of_pure fun s' hidle => ⟨hidle.db.trans hdb₁, fun _ _ => ⟨refreshToken,
        session, ⟨?_, (Except.ok.inj hfound).symm, csrfToken, ?_,
          (not_not.1 hbinding).symm⟩⟩⟩
      · rw [hcookie, (Option.filter_eq_some_iff.1 htoken).1]
      · exact (Option.filter_eq_some_iff.1 hheader).1

/-- A token that is no current one is not looked for any further. -/
theorem logout_of_not_found {refreshToken : String}
    (hfind : s.db.findSessionByRefreshTokenHash (config.hashToken refreshToken) = none) :
    (AuthSessionService.logout config refreshToken).Ensures config noFault
      (fun _ _ s' => s'.db = s.db) s := by
  refine .bind (ensures_found (c := .findSessionByRefreshTokenHash
    (config.hashToken refreshToken)) fun _ _ => rfl)
    (fun _ found s₁ h₁ => ?_) fun _ _ _ h₁ => h₁.2
  obtain ⟨hfound, hdb₁⟩ := h₁
  have hfound : found = none := (Except.ok.inj hfound).trans hfind
  subst hfound
  exact .of_pure fun s' hidle => hidle.db.trans hdb₁

end

/-- A request is admitted because of its session, and a logout with the same token
succeeds: the session is revoked exactly when the token is its current one. -/
theorem admitted_logout_ends_session_iff (config : AuthConfig) (guard : GuardConfig)
    (users : List AccountRecord) {ok : HttpPool → HttpEvent → Prop} {σ : HttpPool}
    {request : CsrfOriginRequest} {refreshToken : String} {s₁ s₂ : AuthState}
    {es es' : AuthLog}
    (h : (httpService config guard).Reaches ok (Pool.init (AuthState.init users)) σ)
    (hguard : (authService config).Executes noFault
      (CsrfOriginGuard.canActivate config guard request).run σ.shared es (.ok true) s₁)
    (hcookie : CsrfOriginGuard.readRefreshCookie guard request = .ok (some refreshToken))
    (hlogout : (authService config).Executes noFault
      (AuthSessionService.logout config refreshToken).run s₁ es' (.ok ()) s₂) :
    ∃ session, MatchedBy config guard request refreshToken σ.shared.db session ∧
      (Ended s₂.db session.id ↔
        session.refreshTokenHash = config.hashToken refreshToken) := by
  have hsound := reaches_sound h
  obtain ⟨hdb₁, hmatched⟩ := canActivate_ensures request _ _ _ hguard
  obtain ⟨token, session, hmatched⟩ := hmatched true rfl
  obtain rfl : token = refreshToken :=
    Option.some.inj (Except.ok.inj (hmatched.cookie.symm.trans hcookie))
  refine ⟨session, hmatched, ?_⟩
  have hresolved := hmatched.resolved
  rw [resolvedSession] at hresolved
  cases hfind : σ.shared.db.findSessionByRefreshTokenHash (config.hashToken token) with
  | some current =>
      rw [hfind] at hresolved
      obtain rfl := Option.some.inj hresolved
      have hcurrent : current.refreshTokenHash = config.hashToken token := by
        simpa using List.find?_some hfind
      have hrow : current ∈ s₁.db.sessions := hdb₁ ▸ List.mem_of_find?_eq_some hfind
      have hended := logout_ends (fun _ _ _ hfault => hfault) (hdb₁ ▸ hsound) hrow hcurrent
        _ _ _ hlogout
      exact ⟨fun _ => hcurrent, fun _ => hended⟩
  | none =>
      rw [hfind] at hresolved
      obtain ⟨history, -, hactive⟩ := Option.bind_eq_some_iff.1 hresolved
      obtain ⟨hrow, -, hunrevoked⟩ := mem_of_findActiveSessionById hactive
      have hdb₂ : s₂.db = σ.shared.db :=
        (logout_of_not_found (hdb₁ ▸ hfind) _ _ _ hlogout).trans hdb₁
      have hnot : ¬ Ended s₂.db session.id :=
        hdb₂ ▸ Active.not_ended hsound.keys ⟨session, hrow, rfl, hunrevoked⟩
      have hother := List.find?_eq_none.1 hfind session hrow
      exact ⟨fun hended => absurd hended hnot, fun heq => absurd heq (by simpa using hother)⟩

/-! ### Two requests -/

/-- The account has logged in and rotated its token. -/
def afterRotation : HttpPool :=
  (httpService exampleConfig exampleGuard).after
    (.spawn (.service (.createSessionAfterLogin "u" "USER")) :: httpSteps 0 "a" 7 ++
      .spawn (.service (.refresh "a")) :: httpSteps 1 "b" 10)
    (Pool.init (AuthState.init [exampleUser]))

def requestWith (token : String) : CsrfOriginRequest :=
  { exampleRequest with cookies := some [("shortlink_refresh", token)] }

theorem afterRotation_reached : (httpService exampleConfig exampleGuard).Reaches
    (fun _ _ => True) (Pool.init (AuthState.init [exampleUser])) afterRotation :=
  Semantics.reaches_after _ (by decide)

theorem current_token_logs_out : ∃ (s₂ : AuthState) (session : AuthSessionRecord),
    MatchedBy exampleConfig exampleGuard (requestWith "b") "b" afterRotation.shared.db
      session ∧
    (Ended s₂.db session.id ↔ session.refreshTokenHash = exampleConfig.hashToken "b") :=
  ⟨_, admitted_logout_ends_session_iff exampleConfig exampleGuard [exampleUser]
    afterRotation_reached (Semantics.executes_of_perform [outcome "" .none] rfl) rfl
    (Semantics.executes_of_perform (List.replicate 3 (outcome "" .none)) rfl)⟩

/-- The token of the login is still taken for the session, but it does not log out. -/
theorem rotated_token_does_not_log_out :
    (httpService exampleConfig exampleGuard).Reaches (fun _ _ => True)
        (Pool.init (AuthState.init [exampleUser])) afterRotation ∧
      ∃ es s₁ es' s₂ session,
        (authService exampleConfig).Executes noFault
          (CsrfOriginGuard.canActivate exampleConfig exampleGuard (requestWith "a")).run
          afterRotation.shared es (.ok true) s₁ ∧
        MatchedBy exampleConfig exampleGuard (requestWith "a") "a" afterRotation.shared.db
          session ∧
        (authService exampleConfig).Executes noFault
          (AuthSessionService.logout exampleConfig "a").run s₁ es' (.ok ()) s₂ ∧
        ¬ Ended s₂.db session.id := by
  refine ⟨afterRotation_reached, _, _, _, _, _,
    Semantics.executes_of_perform (List.replicate 3 (outcome "" .none)) rfl,
    ⟨rfl, rfl, "a", rfl, rfl⟩, Semantics.executes_of_perform [outcome "" .none] rfl, ?_⟩
  exact Active.not_ended (reaches_sound afterRotation_reached).keys
    ⟨_, List.mem_singleton_self _, rfl, rfl⟩

end Auth

end Shortlink
