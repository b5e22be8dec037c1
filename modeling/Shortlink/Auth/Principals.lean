import Shortlink.Auth.AuthSessionGuard
import Shortlink.Auth.Revocation
import Shortlink.Auth.RefreshBinding
import Shortlink.Auth.Serial
import Shortlink.Auth.TwoFactors

/-!
# Whom a request acts for

The principal of an admitted request is the account that owns the session which its access
token names (`guard_admits_owner`). The guard takes it from the cache or from the tables. A
call writes a session entry only for an account that it has found to own the session
(`OwnerSeen`), and owner, role and account never change, so what the cache says about them is
true as long as it is there (`CacheBound`), in any interleaving and whatever fails.
-/

namespace Shortlink

namespace Auth

open Shortlink.Storage Shortlink.Table Shortlink.Transaction Shortlink.Interaction
open Shortlink.Expiring AuthProgram

/-! ### What a call has seen of a session -/

/-- The account owns the session: the call has created the session for it, or has found or
rotated a session of it. -/
inductive OwnerSeen (trace : AuthTrace) (account : AccountRecord) : String → Prop
  | created (id : String) (sessionData : CreateExclusiveSessionInput)
      (created : CreateExclusiveSessionResult)
      (haccount : Found trace (.findAccountById id) (some account))
      (hcreated : Found trace (.createExclusiveSession account.id sessionData) created) :
      OwnerSeen trace account created.session.id
  | found (id : String) (session : AuthSessionRecord)
      (hsession : Found trace (.findActiveSessionById id) (some session))
      (haccount : Found trace (.findAccountById session.userId) (some account)) :
      OwnerSeen trace account session.id
  | rotated (id : String) (session : AuthSessionRecord) (input : RotateRefreshTokenInput)
      (rotated : CreateExclusiveSessionResult)
      (hsession : Found trace (.findActiveSessionById id) (some session))
      (haccount : Found trace (.findAccountById session.userId) (some account))
      (hrotated : Found trace (.rotateRefreshToken session.id input) rotated) :
      OwnerSeen trace account rotated.session.id

theorem OwnerSeen.mono {trace trace' : AuthTrace} {account : AccountRecord}
    {sessionId : String} (h : OwnerSeen trace account sessionId) (hsub : trace ⊆ trace') :
    OwnerSeen trace' account sessionId := by
  cases h with
  | created id sessionData created haccount hcreated =>
      exact .created id sessionData created (hsub haccount) (hsub hcreated)
  | found id session hsession haccount =>
      exact .found id session (hsub hsession) (hsub haccount)
  | rotated id session input rotated hsession haccount hrotated =>
      exact .rotated id session input rotated (hsub hsession) (hsub haccount)
        (hsub hrotated)

/-- An entry of the session cache that a call may write. -/
def CacheWarrant (trace : AuthTrace) (sessionId : String) (record : SessionCacheRecord) :
    Prop :=
  record.sessionId = sessionId ∧ ∃ account, record.userId = account.id ∧
    record.role = account.role.value ∧ OwnerSeen trace account sessionId

def CacheMay (trace : AuthTrace) (c : AuthStep) : Prop :=
  ∀ sessionId record, c.cached? = some (sessionId, record) →
    CacheWarrant trace sessionId record

theorem cacheMay_of_cached_eq_none {trace : AuthTrace} {c : AuthStep}
    (h : c.cached? = none) : CacheMay trace c := by
  intro sessionId record hc
  rw [h] at hc
  cases hc

theorem CacheWarrant.mono {trace trace' : AuthTrace} {sessionId : String}
    {record : SessionCacheRecord} (h : CacheWarrant trace sessionId record)
    (hsub : trace ⊆ trace') : CacheWarrant trace' sessionId record := by
  obtain ⟨hid, account, huser, hrole, hseen⟩ := h
  exact ⟨hid, account, huser, hrole, hseen.mono hsub⟩

theorem cacheMay_cacheWrite {trace : AuthTrace} {session : SessionCacheRecord} {t : ℕ}
    (h : CacheWarrant trace session.sessionId session) :
    CacheMay trace (.redis (RedisAuthStateService.cacheWrite session t)) := by
  intro sessionId record hc
  obtain ⟨rfl, rfl⟩ := Prod.mk.inj (Option.some.inj hc)
  exact h

/-! ### The calls -/

section

variable {config : AuthConfig} {trace : AuthTrace}

open AuthSessionService RedisAuthStateService

theorem AuthProgram.Issues.caches {α : Type} {p : AuthProgram α}
    (hp : p.Issues AuthStep.Quiet) : p.Obeys CacheMay (fun _ _ => True) trace :=
  Program.obeys_of_sat hp (fun _ _ hc => cacheMay_of_cached_eq_none hc.2) fun _ _ _ => trivial

/-- What follows steps that write no session entry. -/
theorem AuthProgram.Issues.then_caches {α β : Type} {p : AuthProgram α}
    {f : α → AuthProgram β} (hp : p.Issues AuthStep.Quiet)
    (hf : ∀ trace' a, trace <:+ trace' → (f a).Obeys CacheMay (fun _ _ => True) trace') :
    (p >>= f).Obeys CacheMay (fun _ _ => True) trace := by
  refine (obeys_bind _ _).2 (Program.obeys_of_sat hp
    (fun _ _ hc => cacheMay_of_cached_eq_none hc.2) fun l r _ => ?_)
  cases r with
  | ok a => exact hf _ a (List.suffix_append l trace)
  | error e => trivial

theorem deleteSessionCache_quiet (sessionId : String) :
    (deleteSessionCache sessionId).Issues AuthStep.Quiet :=
  issues_redis (c := .del (.session sessionId)) ⟨trivial, rfl⟩

theorem deleteSessionCaches_quiet (ids : List String) :
    (deleteSessionCaches ids).Issues AuthStep.Quiet := by
  induction ids with
  | nil => exact issues_pure _
  | cons id ids ih =>
      refine .bind (.tryCatch (deleteSessionCache_quiet id) fun e => ?_) fun _ => ih
      cases e with
      | storageUnavailable => exact issues_pure _
      | _ => exact issues_throw _

theorem sessionCreated_caches {account : AccountRecord} {role refreshToken csrfToken : String}
    {created : CreateExclusiveSessionResult} (hrole : role = account.role.value)
    (hseen : OwnerSeen trace account created.session.id) :
    (sessionCreated config account.id role refreshToken csrfToken created).Obeys CacheMay
      (fun _ _ => True) trace := by
  refine (deleteSessionCaches_quiet _).then_caches fun trace' _ hsub => ?_
  simp only [issueTokens, obeys_bind, obeys_setSessionCache, obeys_now, obeys_pure, either_ok,
    either_error]
  exact ⟨cacheMay_of_cached_eq_none rfl, fun t => ⟨cacheMay_cacheWrite ⟨rfl, account, rfl, hrole,
    hseen.mono fun _ hx => List.mem_cons_of_mem _ (hsub.subset hx)⟩, fun e => trivial,
    fun _ => ⟨cacheMay_of_cached_eq_none rfl, fun _ => trivial⟩⟩⟩

theorem createSessionAfterLogin_caches {account : AccountRecord} {i : String}
    (haccount : Found trace (.findAccountById i) (some account)) :
    (createSessionAfterLogin config account.id account.role.value).Obeys CacheMay
      (fun _ _ => True) trace := by
  simp only [createSessionAfterLogin, obeys_bind, obeys_generate, obeys_now,
    obeys_authRepository, either_ok, either_error]
  refine ⟨cacheMay_of_cached_eq_none rfl, fun refreshToken => ⟨cacheMay_of_cached_eq_none rfl,
    fun csrfToken => ⟨cacheMay_of_cached_eq_none rfl, fun t =>
      ⟨cacheMay_of_cached_eq_none rfl, fun e => trivial,
        fun (created : CreateExclusiveSessionResult) => sessionCreated_caches rfl ?_⟩⟩⟩⟩
  refine .created i _ created ?_ List.mem_cons_self
  exact List.mem_cons_of_mem _ (List.mem_cons_of_mem _ (List.mem_cons_of_mem _
    (List.mem_cons_of_mem _ haccount)))

theorem loginConsumed_caches (userId : String) :
    (AuthService.loginConsumed config userId).Obeys CacheMay (fun _ _ => True) trace := by
  refine (isLoginLocked_quiet userId).then_caches fun trace' locked _ => ?_
  refine (obeys_ite _ _ _).2 ⟨fun _ => trivial, fun _ => ?_⟩
  simp only [obeys_bind, obeys_authRepository, either_ok, either_error]
  refine ⟨cacheMay_of_cached_eq_none rfl, fun e => trivial, fun account => ?_⟩
  rcases account with _ | account
  · trivial
  refine (obeys_ite _ _ _).2 ⟨fun _ => trivial, fun _ => (obeys_bind _ _).2 ?_⟩
  refine (createSessionAfterLogin_caches (i := userId) List.mem_cons_self).mono
    fun trace'' r _ => ?_
  cases r with
  | ok tokens =>
      refine (Issues.caches ?_ : AuthProgram.Obeys _ CacheMay _ trace'')
      exact .bind (issues_audit ⟨trivial, rfl⟩) fun _ => issues_pure _
  | error e => trivial

theorem completeLogin_caches (input : VerifyLoginDto) :
    (AuthService.completeLogin config input).Obeys CacheMay (fun _ _ => True) trace := by
  have hverify : ∀ (trace : AuthTrace) challengeUserId,
      (AuthService.verifyChallenge config input challengeUserId).Obeys CacheMay
        (fun _ _ => True) trace := by
    intro trace challengeUserId
    refine (consumeLoginChallenge_quiet _ _).then_caches fun trace' consumed _ => ?_
    cases consumed with
    | consumed userId => exact loginConsumed_caches userId
    | _ =>
        rcases challengeUserId with _ | userId
        · trivial
        · exact (rejectLogin_quiet userId).caches
  simp only [AuthService.completeLogin, AuthService.withSecurityStorage, obeys_tryCatch]
  refine (AuthProgram.Issues.then_caches (findLoginChallengeUserId_quiet _) ?_ :
    AuthProgram.Obeys _ CacheMay (fun _ _ => True) trace).mono fun trace' r _ => ?_
  · intro trace' challengeUserId _
    rcases challengeUserId with _ | userId
    · exact hverify trace' none
    · refine (isLoginLocked_quiet userId).then_caches fun trace'' locked _ => ?_
      exact (obeys_ite _ _ _).2 ⟨fun _ => trivial, fun _ => hverify trace'' _⟩
  · rcases r with e | login
    · cases e <;> trivial
    · trivial

theorem refreshUnused_caches (tokenHash : String) (history : SessionRefreshTokenRecord) :
    (refreshUnused config tokenHash history).Obeys CacheMay (fun _ _ => True) trace := by
  simp only [refreshUnused, obeys_bind, obeys_authRepository, either_ok, either_error]
  refine ⟨cacheMay_of_cached_eq_none rfl, fun e => trivial, fun session => ?_⟩
  rcases session with _ | session
  · trivial
  simp only [obeys_bind, obeys_now, obeys_ite, obeys_throw, obeys_authRepository, either_ok,
    either_error]
  refine ⟨cacheMay_of_cached_eq_none rfl, fun t => ⟨fun _ => trivial, fun _ =>
    ⟨cacheMay_of_cached_eq_none rfl, fun e => trivial, fun account => ?_⟩⟩⟩
  rcases account with _ | account
  · trivial
  simp only [rotate, sessionRotated, issueTokens, obeys_bind, obeys_generate, obeys_now,
    obeys_authRepository, obeys_setSessionCache, obeys_pure, either_ok, either_error]
  refine ⟨cacheMay_of_cached_eq_none rfl, fun v => ⟨cacheMay_of_cached_eq_none rfl, fun t' =>
    ⟨cacheMay_of_cached_eq_none rfl, fun e => trivial,
      fun (rotated : CreateExclusiveSessionResult) => ⟨cacheMay_of_cached_eq_none rfl, fun _ =>
        ⟨cacheMay_cacheWrite ⟨rfl, account, rfl, rfl, ?_⟩, fun e => trivial, fun _ =>
          ⟨cacheMay_of_cached_eq_none rfl, fun _ => trivial⟩⟩⟩⟩⟩⟩
  refine .rotated history.sessionId session _ rotated ?_ ?_
    (List.mem_cons_of_mem _ List.mem_cons_self)
  all_goals simp [Found]

theorem refresh_caches (refreshToken : String) :
    (AuthSessionService.refresh config refreshToken).Obeys CacheMay (fun _ _ => True)
      trace := by
  simp only [AuthSessionService.refresh, obeys_bind, obeys_authRepository, either_ok,
    either_error]
  refine ⟨cacheMay_of_cached_eq_none rfl, fun e => trivial, fun history => ?_⟩
  rcases history with _ | history
  · trivial
  refine (obeys_ite _ _ _).2 ⟨fun _ => ?_, fun _ => refreshUnused_caches _ history⟩
  simp only [refreshReused, obeys_bind, obeys_authRepository, obeys_deleteSessionCache,
    obeys_throw, either_ok, either_error]
  exact ⟨cacheMay_of_cached_eq_none rfl, fun e => trivial, fun (_ : Unit) =>
    ⟨cacheMay_of_cached_eq_none rfl, fun e => trivial, fun _ => trivial⟩⟩

theorem logout_caches (refreshToken : String) :
    (AuthSessionService.logout config refreshToken).Obeys CacheMay (fun _ _ => True) trace := by
  simp only [AuthSessionService.logout, obeys_bind, obeys_authRepository, either_ok,
    either_error]
  refine ⟨cacheMay_of_cached_eq_none rfl, fun e => trivial, fun session => ?_⟩
  rcases session with _ | session
  · trivial
  refine (obeys_ite _ _ _).2 ⟨fun _ => trivial, fun _ => ?_⟩
  simp only [obeys_bind, obeys_authRepository, obeys_deleteSessionCache, either_ok,
    either_error]
  exact ⟨cacheMay_of_cached_eq_none rfl, fun e => trivial, fun (_ : Unit) =>
    ⟨cacheMay_of_cached_eq_none rfl, fun e => trivial, fun _ => trivial⟩⟩

/-- A principal is one that has been validated. -/
def ValidatesAs (sessionId : String) (trace : AuthTrace)
    (r : Except AuthError (Option AuthPrincipal)) : Prop :=
  ∀ principal, r = .ok (some principal) → Validated sessionId principal trace

theorem validatesAs_none (sessionId : String) (trace : AuthTrace) :
    ValidatesAs sessionId trace (.ok none) := fun _ h => by cases h

theorem validatesAs_error (sessionId : String) (trace : AuthTrace) (e : AuthError) :
    ValidatesAs sessionId trace (.error e) := fun _ h => by cases h

theorem validateStored_caches (sessionId : String) :
    (validateStored sessionId).Obeys CacheMay (ValidatesAs sessionId) trace := by
  simp only [validateStored, obeys_bind, obeys_authRepository, either_ok, either_error]
  refine ⟨cacheMay_of_cached_eq_none rfl, fun e => validatesAs_error _ _ _, fun session => ?_⟩
  rcases session with _ | session
  · exact validatesAs_none _ _
  simp only [obeys_bind, obeys_now, obeys_ite, obeys_pure, obeys_authRepository, either_ok,
    either_error]
  refine ⟨cacheMay_of_cached_eq_none rfl, fun t => ⟨fun _ => validatesAs_none _ _, fun _ =>
    ⟨cacheMay_of_cached_eq_none rfl, fun e => validatesAs_error _ _ _, fun account => ?_⟩⟩⟩
  rcases account with _ | account
  · exact validatesAs_none _ _
  simp only [bestEffort, obeys_bind, obeys_tryCatch, obeys_setSessionCache, obeys_pure,
    either_ok, either_error]
  have hvalidated : ∀ {trace' : AuthTrace},
      Found trace' (.findActiveSessionById sessionId) (some session) →
        Found trace' (.findAccountById session.userId) (some account) →
          ValidatesAs sessionId trace' (.ok (some ⟨account.id, account.role.value,
            session.id⟩)) := by
    intro trace' hsession haccount principal hprincipal
    obtain rfl := Option.some.inj (Except.ok.inj hprincipal)
    exact .stored session account hsession haccount rfl
  refine ⟨cacheMay_of_cached_eq_none rfl, fun t' => ⟨cacheMay_cacheWrite ⟨rfl, account, rfl, rfl,
    ?_⟩, fun e => ?_, fun _ => ?_⟩⟩
  · exact .found sessionId session (by simp [Found]) (by simp [Found])
  all_goals exact hvalidated (by simp [Found]) (by simp [Found])

theorem validateSession_caches (sessionId : String) :
    (AuthSessionService.validateSession sessionId).Obeys CacheMay (ValidatesAs sessionId)
      trace := by
  simp only [AuthSessionService.validateSession, readSessionCache, obeys_bind, obeys_tryCatch,
    obeys_getSessionCache, obeys_pure, either_ok, either_error]
  refine ⟨cacheMay_of_cached_eq_none rfl, fun e => validateStored_caches sessionId,
    fun cached => ?_⟩
  rcases cached with _ | cached
  · exact validateStored_caches sessionId
  simp only [validateCached, obeys_ite, obeys_pure, obeys_bind, obeys_now, either_ok]
  refine ⟨fun _ => validatesAs_none _ _, fun _ => ⟨cacheMay_of_cached_eq_none rfl, fun t =>
    ⟨fun _ => validatesAs_none _ _, fun _ p hp => ?_⟩⟩⟩
  obtain rfl := Option.some.inj (Except.ok.inj hp)
  exact .cached cached (List.mem_cons_of_mem _ List.mem_cons_self) rfl

/-- What a call of the services caches, unless it is a login that is not preceded by any
check. -/
theorem program_caches {call : AuthCall}
    (hcall : (UserCall.service call).checked = true) :
    (call.program config).Obeys CacheMay (fun _ _ => True) trace := by
  have hmap : ∀ {α : Type} (f : α → AuthValue) {p : AuthProgram α},
      p.Obeys CacheMay (fun _ _ => True) trace →
        (f <$> p).Obeys CacheMay (fun _ _ => True) trace := by
    intro α f p hp
    refine (obeys_map f p).2 (hp.mono fun trace r _ => ?_)
    cases r <;> trivial
  cases call with
  | createSessionAfterLogin userId role => cases hcall
  | sessionRefresh refreshToken => exact hmap _ (refresh_caches refreshToken)
  | logout refreshToken => exact hmap _ (logout_caches refreshToken)
  | revokeAll userId reason =>
      refine hmap _ ?_
      simp only [revokeAll, obeys_bind, obeys_authRepository, either_ok, either_error]
      exact ⟨cacheMay_of_cached_eq_none rfl, fun e => trivial,
        fun ids => (deleteSessionCaches_quiet ids).caches⟩
  | validateSession sessionId =>
      exact hmap _ ((validateSession_caches sessionId).mono fun _ _ _ => trivial)
  | refresh refreshToken =>
      refine hmap _ ?_
      simp only [AuthService.refresh, AuthService.withSecurityStorage, obeys_tryCatch,
        obeys_bind, obeys_pure]
      refine (refresh_caches refreshToken).mono fun trace' r _ => ?_
      rcases r with e | tokens
      · cases e <;> trivial
      · trivial
  | startLogin input clientIp => exact hmap _ (startLogin_quiet input clientIp).caches
  | completeLogin input => exact hmap _ (completeLogin_caches input)
  | processLogin data => exact hmap _ (processLogin_quiet data).caches

/-! ### The guard -/

/-- The principal of an admitted request is one that the guard has checked. -/
def AdmitsAs (jwt : JwtConfig) (authorization : Option String) (trace : AuthTrace)
    (r : Except AuthError (Option AuthPrincipal)) : Prop :=
  ∀ principal, r = .ok (some principal) →
    ∃ payload, AdmittedAs jwt authorization principal payload trace

theorem canActivate_caches (jwt : JwtConfig) (authorization : Option String) :
    (AuthSessionGuard.canActivate jwt authorization).Obeys CacheMay
      (AdmitsAs jwt authorization) [] := by
  have hrejected : ∀ trace, AdmitsAs jwt authorization trace (.ok none) :=
    fun trace principal h => by cases h
  rw [AuthSessionGuard.canActivate]
  rcases htoken : AuthSessionGuard.bearerToken authorization with _ | token
  · exact hrejected _
  refine (obeys_bind _ _).2 (obeys_now.2 ⟨cacheMay_of_cached_eq_none rfl, fun t => ?_⟩)
  rw [either_ok]
  rcases hverify : verifyAccessToken jwt token t with _ | payload
  · exact hrejected _
  refine (obeys_bind _ _).2 ((Program.Obeys.and_suffix
    (validateSession_caches payload.sessionId)).mono (fun _ _ hc => hc) fun trace r hr => ?_)
  obtain ⟨hsuffix, hr⟩ := hr
  rcases r with e | principal
  · exact fun principal h => by cases h
  rcases principal with _ | principal
  · exact hrejected _
  refine (obeys_ite _ _ _).2 ⟨fun _ => hrejected _, fun hmatch => ?_⟩
  intro principal' hprincipal
  obtain rfl := Option.some.inj (Except.ok.inj hprincipal)
  rw [not_or, not_not, not_not] at hmatch
  exact ⟨payload, ⟨token, t, htoken, hsuffix.subset List.mem_cons_self, hverify⟩, hmatch.1,
    hmatch.2, hr principal rfl⟩

/-- What a request or a call caches, and whom a request acts for. -/
theorem userProgram_caches (config : AuthConfig) (jwt : JwtConfig) {call : UserCall}
    (hcall : call.checked = true) :
    Program.Obeys CacheMay (fun trace (r : UserResult) => ∀ authorization principal,
      call = .canActivate authorization → r = .ok (.principal (some principal)) →
        ∃ payload, AdmittedAs jwt authorization principal payload trace) []
      ((userService config jwt).body call) := by
  cases call with
  | canActivate authorization =>
      refine (obeys_map _ _).2 ((canActivate_caches jwt authorization).mono fun trace r hr => ?_)
      cases r with
      | ok a =>
          intro authorization' principal hcall hprincipal
          obtain rfl := UserCall.canActivate.inj hcall
          obtain rfl := UserValue.principal.inj (Except.ok.inj hprincipal)
          exact hr principal rfl
      | error e => exact fun _ _ _ h => by cases h
  | service call =>
      refine (obeys_map _ _).2 ((program_caches hcall).mono fun trace r _ => ?_)
      cases r <;> exact fun _ _ h => by cases h

end

/-! ### Runs -/

def OwnedBy (db : AuthDb) (account : AccountRecord) (sessionId : String) : Prop :=
  account ∈ db.users ∧ ∃ row ∈ db.sessions, row.id = sessionId ∧ row.userId = account.id

theorem OwnedBy.since {s s' : AuthState} {account : AccountRecord} {sessionId : String}
    (h : OwnedBy s.db account sessionId) (hsince : Since s s') :
    OwnedBy s'.db account sessionId := by
  obtain ⟨haccount, row, hrow, rfl, howner⟩ := h
  obtain ⟨row', hrow', hid, howner', -⟩ := hsince.later.session row hrow
  exact ⟨hsince.users ▸ haccount, row', hrow', hid, howner'.trans howner⟩

/-- A visible session entry names the owner of its session and his role. -/
def CacheBound (s : AuthState) : Prop :=
  ∀ sessionId (record : SessionCacheRecord), s.redis.get (.session sessionId) = some record →
    record.sessionId = sessionId ∧ ∃ account, record.userId = account.id ∧
      record.role = account.role.value ∧ OwnedBy s.db account sessionId

section

variable {config : AuthConfig} {jwt : JwtConfig} {users : List AccountRecord}
  {ok : UserPool → UserEvent → Prop} {σ σ' : UserPool}

theorem account_of_found (h : (userService config jwt).Reaches ok
      (Pool.init (AuthState.init users)) σ) {k : ℕ} {id : String} {account : AccountRecord}
    (hfound : Found (traceOf σ.history k) (.findAccountById id) (some account)) :
    account ∈ σ.shared.db.users ∧ account.id = id := by
  obtain ⟨σ₁, stamp, db', hsound, hrun, hcommit⟩ := found_earlier h hfound
  have hfind : σ₁.shared.db.findAccountById id = some account :=
    (Prod.mk.inj (Except.ok.inj hcommit)).1
  rw [(reaches_since hrun hsound).2.users]
  exact ⟨List.mem_of_find?_eq_some hfind, by simpa using List.find?_some hfind⟩

/-- The owner of a session that has been found. -/
theorem owned_of_found (h : (userService config jwt).Reaches ok
      (Pool.init (AuthState.init users)) σ) {k : ℕ} {id : String}
    {session : AuthSessionRecord} {account : AccountRecord}
    (hsession : Found (traceOf σ.history k) (.findActiveSessionById id) (some session))
    (haccount : Found (traceOf σ.history k) (.findAccountById session.userId)
      (some account)) : session.id = id ∧ OwnedBy σ.shared.db account session.id := by
  obtain ⟨hmem, howner⟩ := account_of_found h haccount
  obtain ⟨σ₁, stamp, db', hsound, hrun, hcommit⟩ := found_earlier h hsession
  have hfind : σ₁.shared.db.findActiveSessionById id = some session :=
    (Prod.mk.inj (Except.ok.inj hcommit)).1
  obtain ⟨hrow, hid, -⟩ := mem_of_findActiveSessionById hfind
  obtain ⟨row, hrow', hid', howner', -⟩ :=
    (reaches_since hrun hsound).2.later.session session hrow
  exact ⟨hid, hmem, row, hrow', hid', howner'.trans howner.symm⟩

/-- The session that a call has created or rotated, when it has committed. -/
theorem owned_of_seen (h : (userService config jwt).Reaches ok
      (Pool.init (AuthState.init users)) σ) {k : ℕ} {sessionId : String}
    {account : AccountRecord} (hseen : OwnerSeen (traceOf σ.history k) account sessionId) :
    OwnedBy σ.shared.db account sessionId := by
  cases hseen with
  | created id sessionData created haccount hcreated =>
      obtain ⟨l₂, l₁, hl⟩ := List.append_of_mem (mem_traceOf.1 hcreated)
      obtain ⟨σ₁, σ₂, stamp, -, -, -, -, hcommit, hsince⟩ := answered h hl
      have hsession := createExclusiveSessionTx_run hcommit
      have hmem : created.session ∈ σ₂.shared.db.sessions := by
        rw [hsession.result]
        exact List.mem_append_right _ List.mem_cons_self
      obtain ⟨row, hrow, hid, howner, -⟩ := hsince.later.session _ hmem
      refine ⟨(account_of_found h haccount).1, row, hrow, hid, howner.trans ?_⟩
      rw [hsession.session]
  | found id session hsession haccount => exact (owned_of_found h hsession haccount).2
  | rotated id session input rotated hsession haccount hrotated =>
      obtain ⟨l₂, l₁, hl⟩ := List.append_of_mem (mem_traceOf.1 hrotated)
      obtain ⟨σ₁, σ₂, stamp, -, -, -, -, hcommit, -⟩ := answered h hl
      obtain ⟨row, token, hrot⟩ := rotateRefreshTokenTx_run hcommit
      have hid : rotated.session.id = session.id := by
        rw [hrot.session]
        exact (AuthDb.mem_of_findSession hrot.find).2
      rw [hid]
      exact (owned_of_found h hsession haccount).2

theorem CacheBound.step (hentry : ∀ σ call, ok σ (.spawn call) → call.checked = true)
    (h : (userService config jwt).Reaches ok (Pool.init (AuthState.init users)) σ)
    (hσ : CacheBound σ.shared) (hstep : (userService config jwt).Steps ok σ σ') :
    CacheBound σ'.shared := by
  have hsound := reaches_sound h
  have hsince := (reaches_since (.single hstep) hsound).2
  have hkept : ∀ sessionId (record : SessionCacheRecord),
      σ.shared.redis.get (.session sessionId) = some record →
        record.sessionId = sessionId ∧ ∃ account, record.userId = account.id ∧
          record.role = account.role.value ∧ OwnedBy σ'.shared.db account sessionId := by
    intro sessionId record hget
    obtain ⟨hid, account, huser, hrole, howned⟩ := hσ sessionId record hget
    exact ⟨hid, account, huser, hrole, howned.since hsince⟩
  intro sessionId record hget
  cases hstep.moves with
  | spawn call hok hshared hthreads hhistory =>
      rw [hshared] at hget
      exact hkept sessionId record hget
  | environment x hok hshared hthreads hhistory =>
      rw [hshared] at hget
      cases x with
      | tick n => exact hkept sessionId record (Store.get_tick_eq_some hget)
      | evict key => exact hkept sessionId record (Store.get_del_eq_some _ hget).2
  | exec e he =>
      obtain ⟨call, rest, -, hmay⟩ := he.allowed (fun _ => CacheMay) _ h
        fun σ call hok => userProgram_caches config jwt (hentry σ call hok)
      obtain ⟨k, c, r⟩ := e
      obtain ⟨o, -, hexec⟩ := he.exec
      have hwarranted : CacheWarrant (traceOf σ.history k) sessionId record →
          record.sessionId = sessionId ∧ ∃ account, record.userId = account.id ∧
            record.role = account.role.value ∧ OwnedBy σ'.shared.db account sessionId := by
        rintro ⟨hid, account, huser, hrole, hseen⟩
        exact ⟨hid, account, huser, hrole, (owned_of_seen h hseen).since hsince⟩
      generalize hs : σ.shared = s at hexec hkept
      generalize hs' : σ'.shared = s' at hexec hkept hwarranted hget ⊢
      cases exec_acts hexec with
      | idle c => exact hkept sessionId record hget
      | committed c stamp a db hcommit => exact hkept sessionId record hget
      | executed c =>
          rcases c.apply_session hget with hcached | ⟨hold, -⟩
          · exact hwarranted (hmay sessionId record hcached)
          · exact hkept sessionId record hold

theorem cache_bound (hentry : ∀ σ call, ok σ (.spawn call) → call.checked = true)
    (h : (userService config jwt).Reaches ok (Pool.init (AuthState.init users)) σ) :
    CacheBound σ.shared := by
  induction h with
  | refl => exact fun sessionId record hget => by cases hget
  | tail hrun hstep ih => exact CacheBound.step hentry hrun ih hstep

/-- Whom a validated session belongs to. -/
theorem owned_of_validated (hentry : ∀ σ call, ok σ (.spawn call) → call.checked = true)
    (h : (userService config jwt).Reaches ok (Pool.init (AuthState.init users)) σ) {k : ℕ}
    {sessionId : String} {principal : AuthPrincipal}
    (hvalidated : Validated sessionId principal (traceOf σ.history k)) :
    principal.sessionId = sessionId ∧ ∃ account, principal.userId = account.id ∧
      principal.role = account.role.value ∧ OwnedBy σ.shared.db account sessionId := by
  cases hvalidated with
  | stored session account hsession haccount hprincipal =>
      obtain ⟨hid, howned⟩ := owned_of_found h hsession haccount
      subst hprincipal
      exact ⟨hid, account, rfl, rfl, hid ▸ howned⟩
  | cached record hget hprincipal =>
      obtain ⟨l₂, l₁, hl⟩ := List.append_of_mem (mem_traceOf.1 hget)
      obtain ⟨σ₁, σ₂, h₁, he, -, h₂⟩ := h.split hl List.nil_suffix
      obtain ⟨o, -, hexec⟩ := he.exec
      have hread : σ₁.shared.redis.get (.session sessionId) = some record :=
        (Prod.mk.inj (exec_redis_ok (c := .get (.session sessionId)) (a := some record)
          hexec).1).1
      obtain ⟨hid, account, huser, hrole, howned⟩ := cache_bound hentry h₁ sessionId record hread
      have hsince := (reaches_since ((Relation.ReflTransGen.single he.steps).trans h₂)
        (reaches_sound h₁)).2
      subst hprincipal
      exact ⟨hid, account, huser, hrole, howned.since hsince⟩

/-- In every run an admitted request acts for the account that owns the session of its
access token, with the role that the account has; the token has been verified at an instant
of the call, and it says the same. -/
theorem guard_admits_owner (hentry : ∀ σ call, ok σ (.spawn call) → call.checked = true)
    (h : (userService config jwt).Reaches ok (Pool.init (AuthState.init users)) σ) {k : ℕ}
    {authorization : Option String} {principal : AuthPrincipal}
    (hk : σ.threads[k]? =
      some ⟨.canActivate authorization, .pure (.ok (.principal (some principal)))⟩) :
    (∃ token now payload, AuthSessionGuard.bearerToken authorization = some token ∧
      (⟨.now, now⟩ : Exchange AuthStep AuthStep.Reply) ∈ traceOf σ.history k ∧
      verifyAccessToken jwt token now = some payload ∧ payload.sub = principal.userId ∧
      payload.role = principal.role ∧ payload.sessionId = principal.sessionId) ∧
    ∃ account, principal.userId = account.id ∧ principal.role = account.role.value ∧
      OwnedBy σ.shared.db account principal.sessionId := by
  have hadmitted : ∃ payload,
      AdmittedAs jwt authorization principal payload (traceOf σ.history k) :=
    h.obeys (fun _ => CacheMay) _
      (fun σ call hok => userProgram_caches config jwt (hentry σ call hok)) hk
      authorization principal rfl rfl
  obtain ⟨payload, ⟨token, now, htoken, hnow, hverify⟩, huserId, hroleId, hvalidated⟩ :=
    hadmitted
  obtain ⟨hid, howner⟩ := owned_of_validated hentry h hvalidated
  exact ⟨⟨token, now, payload, htoken, hnow, hverify, huserId.symm, hroleId.symm, hid.symm⟩,
    hid ▸ howner⟩

end

/-! ### A request -/

/-- An access token of the user's session `c`, which verifies at any time. -/
def exampleJwt : JwtConfig where
  verify token _ :=
    if token = "token" then
      some (.object [("sub", .string "u"), ("role", .string "USER"),
        ("sessionId", .string "c"), ("iat", .number 0), ("exp", .number 900)])
    else none

/-- The next steps of request `k`, with `id` for every id and secret. -/
def userSteps (k : ℕ) (id : String) (n : ℕ) : List UserEvent :=
  List.replicate n (.exec k ⟨⟨1, 1, 1, id, id⟩, id, .none⟩)

/-- A user logs in with both factors and sends a request. -/
def requestAfterLogin : UserPool :=
  (userService exampleConfig exampleJwt).after
    (.spawn (.service (.startLogin ⟨"u@example.com", examplePassword⟩ "")) ::
      userSteps 0 "c" 10 ++ .spawn (.service (.completeLogin ⟨"c", "c"⟩)) ::
      userSteps 1 "c" 15 ++ .spawn (.canActivate (some "Bearer token")) ::
      userSteps 2 "c" 3)
    (Pool.init (AuthState.init [passwordUser]))

/-- Only calls that the controllers and the mail queue make. -/
def checkedStart : UserEvent → Bool
  | .spawn call => call.checked
  | _ => true

theorem requestAfterLogin_reached : (userService exampleConfig exampleJwt).Reaches
    (fun _ e => checkedStart e = true) (Pool.init (AuthState.init [passwordUser]))
    requestAfterLogin :=
  Semantics.reaches_after _ (by decide +kernel)

theorem requestAfterLogin_admits : ∃ account, "u" = account.id ∧
    "USER" = account.role.value ∧ OwnedBy requestAfterLogin.shared.db account "c" := by
  have hk : requestAfterLogin.threads[2]? = some ⟨.canActivate (some "Bearer token"),
      .pure (.ok (.principal (some ⟨"u", "USER", "c"⟩)))⟩ := by
    obtain ⟨call, hthread⟩ := (Pool.result?_eq_some_iff requestAfterLogin 2
      (.ok (.principal (some ⟨"u", "USER", "c"⟩)))).1 (by decide +kernel)
    have hcall : requestAfterLogin.call? 2 = some (.canActivate (some "Bearer token")) := by
      decide +kernel
    rw [Pool.call?, hthread] at hcall
    obtain rfl : call = _ := Option.some.inj hcall
    exact hthread
  exact (guard_admits_owner (fun _ _ h => h) requestAfterLogin_reached hk).2

end Auth

end Shortlink
