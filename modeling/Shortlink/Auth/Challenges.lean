import Shortlink.Auth.Run
import Shortlink.Auth.Serial

/-!
# Login challenges

What the calls of a login do, step by step: `startLogin` and the worker create a
challenge, `completeLogin` consumes one and creates a session. `LoginMay` says after
which answers they do it, and `LoginEnds` with which answers they succeed
(`body_course`).
-/

namespace Shortlink

namespace Auth

open Shortlink.Storage Shortlink.Transaction Shortlink.Interaction
open Shortlink.Expiring AuthProgram

/-! ### What a trace tells -/

def Replied (trace : AuthTrace) (c : RedisCommand) (a : c.Res) : Prop :=
  (⟨.redis c, .ok a⟩ : Exchange AuthStep AuthStep.Reply) ∈ trace

/-- The repository has answered a method. -/
def Found (trace : AuthTrace) (c : AuthCommand) (a : c.Res) : Prop :=
  (⟨.repository c, .ok a⟩ : Exchange AuthStep AuthStep.Reply) ∈ trace

/-- A secret has been drawn. -/
def Drew (trace : AuthTrace) (secret : Secret) (value : String) : Prop :=
  (⟨.generate secret, value⟩ : Exchange AuthStep AuthStep.Reply) ∈ trace

/-- The checks of `startLogin` on the account have passed. -/
structure Authenticated (config : AuthConfig) (input : LoginDto) (account : AccountRecord)
    (trace : AuthTrace) : Prop where
  password : AuthService.passwordMatchesAccount config input.password account.passwordHash = true
  active : account.status = .active
  found : ∃ email, createEmail config.toLowerCase input.email = some email ∧
    Found trace (.findAccountByEmail email) (some account)
  unlocked : Replied trace (.existsKey (.loginLock account.id)) false

/-- The challenge of `userId` has been consumed, and then the account has been found
not to be locked. -/
def Consumed (config : AuthConfig) (input : VerifyLoginDto) (userId : String)
    (trace : AuthTrace) : Prop :=
  ∃ later earlier now, trace = later ++ ⟨.redis (.consumeLoginChallenge input.challengeId
      (config.hmac input.code) now), .ok (.consumed userId)⟩ :: earlier ∧
    Replied later (.existsKey (.loginLock userId)) false

/-! ### What the calls may do -/

def AuthStep.createsChallenge : AuthStep → Bool
  | .redis (.createLoginChallenge _ _ _) => true
  | _ => false

def AuthStep.consumesChallenge : AuthStep → Bool
  | .redis (.consumeLoginChallenge _ _ _) => true
  | _ => false

def AuthStep.createsSession : AuthStep → Bool
  | .repository (.createExclusiveSession _ _) => true
  | _ => false

/-- A command that touches no challenge: an entry that it sets or deletes belongs to an
issuance or a session. -/
def RedisCommand.Ordinary : RedisCommand → Prop
  | .set (.issuance _ _) _ _ => True
  | .set (.session _) _ _ => True
  | .set _ _ _ => False
  | .del (.session _) => True
  | .del _ => False
  | .createLoginChallenge _ _ _ => False
  | .consumeLoginChallenge _ _ _ => False
  | _ => True

/-- The answers after which a call creates the challenge `challengeId` of `userId`. -/
def MayCreate (config : AuthConfig) (call : AuthCall) (trace : AuthTrace)
    (userId challengeId : String) : Prop :=
  match call with
  | .startLogin input _ => ∃ account, Authenticated config input account trace ∧
      account.id = userId ∧ Drew trace .challengeId challengeId
  | .processLogin data => data.challengeId = some challengeId ∧
      ∃ payload : LoginChallengePayload,
        Replied trace (.get (.loginChallenge challengeId)) (some payload) ∧
          payload.userId = userId
  | _ => False

def LoginMay (config : AuthConfig) (call : AuthCall) (trace : AuthTrace) :
    AuthStep → Prop
  | .redis (.createLoginChallenge userId challengeId payload) =>
      (∀ x ∈ trace, x.1.createsChallenge = false) ∧ payload.userId = userId ∧
        (∃ code, Drew trace .verificationCode code ∧
          payload.codeHmac = config.hmac code) ∧
        MayCreate config call trace userId challengeId
  | .redis (.consumeLoginChallenge challengeId codeHmac _) =>
      (∀ x ∈ trace, x.1.consumesChallenge = false) ∧
        ∃ input, call = .completeLogin input ∧ challengeId = input.challengeId ∧
          codeHmac = config.hmac input.code
  | .redis c => c.Ordinary
  | .repository (.createExclusiveSession userId _) =>
      (∃ role, call = .createSessionAfterLogin userId role) ∨
        ∃ input challengeUserId account, call = .completeLogin input ∧
          Consumed config input challengeUserId trace ∧
          Found trace (.findAccountById challengeUserId) (some account) ∧
          account.id = userId ∧ ∀ x ∈ trace, x.1.createsSession = false
  | _ => True

/-- The answers after which a call returns a challenge or tokens. -/
def LoginEnds (config : AuthConfig) (call : AuthCall) (trace : AuthTrace) :
    AuthResult → Prop
  | .ok (.challenge challenge) => ∃ input clientIp account payload,
      call = .startLogin input clientIp ∧ Authenticated config input account trace ∧
        Replied trace (.createLoginChallenge account.id challenge.challengeId payload) ()
  | .ok (.completed _) => ∃ input userId, call = .completeLogin input ∧
      Consumed config input userId trace
  | _ => True

/-! ### The courses of the calls -/

section

variable {config : AuthConfig} {call : AuthCall} {trace : AuthTrace}

/-- The steps of the session service behind the creation of a session, and of the calls
that create none. -/
def AuthStep.OfSessions : AuthStep → Prop
  | .redis c => c.Ordinary
  | .repository (.createExclusiveSession _ _) => False
  | _ => True

theorem AuthStep.OfSessions.createsChallenge {c : AuthStep} (h : c.OfSessions) :
    c.createsChallenge = false := by
  cases c with
  | redis c => cases c <;> first | rfl | exact h.elim
  | _ => rfl

theorem AuthStep.OfSessions.consumesChallenge {c : AuthStep} (h : c.OfSessions) :
    c.consumesChallenge = false := by
  cases c with
  | redis c => cases c <;> first | rfl | exact h.elim
  | _ => rfl

theorem AuthStep.OfSessions.createsSession {c : AuthStep} (h : c.OfSessions) :
    c.createsSession = false := by
  cases c with
  | repository c => cases c <;> first | rfl | exact h.elim
  | _ => rfl

theorem AuthStep.OfSessions.may {c : AuthStep} (h : c.OfSessions) :
    LoginMay config call trace c := by
  cases c with
  | redis c => cases c <;> first | exact h | exact h.elim
  | repository c => cases c <;> trivial
  | _ => trivial

/-- A program of such steps obeys, when what it ends with is allowed whatever they
answer. -/
theorem AuthProgram.Issues.course {α : Type} {p : AuthProgram α}
    (hp : p.Issues AuthStep.OfSessions) {ends : AuthTrace → Except AuthError α → Prop}
    (hends : ∀ l r, (∀ x ∈ l, x.1.OfSessions) → ends (l ++ trace) r) :
    p.Obeys (LoginMay config call) ends trace :=
  Program.obeys_of_sat hp (fun _ _ hc => AuthStep.OfSessions.may hc) hends

open AuthSessionService RedisAuthStateService

theorem bestEffort_ofSessions {p : AuthProgram Unit} (hp : p.Issues AuthStep.OfSessions) :
    (bestEffort p).Issues AuthStep.OfSessions := by
  refine .tryCatch hp fun e => ?_
  cases e with
  | storageUnavailable => exact issues_pure _
  | _ => exact issues_throw _

theorem deleteSessionCache_ofSessions (sessionId : String) :
    (deleteSessionCache sessionId).Issues AuthStep.OfSessions :=
  issues_redis (c := .del (.session sessionId)) trivial

theorem setSessionCache_ofSessions (session : SessionCacheRecord) :
    (setSessionCache session).Issues AuthStep.OfSessions :=
  .bind (issues_now trivial) fun now => issues_redis (c := cacheWrite session now) trivial

theorem deleteSessionCaches_ofSessions (ids : List String) :
    (deleteSessionCaches ids).Issues AuthStep.OfSessions := by
  induction ids with
  | nil => exact issues_pure _
  | cons sessionId ids ih =>
      exact .bind (bestEffort_ofSessions (deleteSessionCache_ofSessions sessionId))
        fun _ => ih

theorem issueTokens_ofSessions (claims : AccessTokenClaims) (refreshToken csrf : String) :
    (issueTokens config claims refreshToken csrf).Issues AuthStep.OfSessions :=
  .bind (issues_now trivial) fun _ => issues_pure _

theorem sessionCreated_ofSessions (userId role refreshToken csrf : String)
    (created : CreateExclusiveSessionResult) :
    (sessionCreated config userId role refreshToken csrf created).Issues
      AuthStep.OfSessions :=
  .bind (deleteSessionCaches_ofSessions _) fun _ =>
    .bind (setSessionCache_ofSessions _) fun _ => issueTokens_ofSessions _ _ _

theorem refresh_ofSessions (refreshToken : String) :
    (AuthSessionService.refresh config refreshToken).Issues AuthStep.OfSessions := by
  refine .bind (issues_authRepository (c := .findRefreshTokenHistoryByHash _) trivial)
    fun (history : Option SessionRefreshTokenRecord) => ?_
  rcases history with _ | history
  · exact issues_throw _
  · dsimp only
    split
    · exact .bind (issues_authRepository (c := .revokeSession _ _) trivial) fun _ =>
        .bind (deleteSessionCache_ofSessions _) fun _ => issues_throw _
    refine .bind (issues_authRepository (c := .findActiveSessionById _) trivial)
      fun (session : Option AuthSessionRecord) => ?_
    rcases session with _ | session
    · exact issues_throw _
    · refine .bind (issues_now trivial) fun now => ?_
      split
      · exact issues_throw _
      refine .bind (issues_authRepository (c := .findAccountById _) trivial)
        fun (account : Option AccountRecord) => ?_
      rcases account with _ | account
      · exact issues_throw _
      · exact .bind (issues_generate trivial) fun _ => .bind (issues_now trivial)
          fun _ => .bind (issues_authRepository (c := .rotateRefreshToken _ _) trivial)
            fun _ => .bind (setSessionCache_ofSessions _) fun _ =>
              issueTokens_ofSessions _ _ _

theorem logout_ofSessions (refreshToken : String) :
    (AuthSessionService.logout config refreshToken).Issues AuthStep.OfSessions := by
  refine .bind (issues_authRepository (c := .findSessionByRefreshTokenHash _) trivial)
    fun (session : Option AuthSessionRecord) => ?_
  rcases session with _ | session
  · exact issues_pure _
  · dsimp only
    split
    · exact issues_pure _
    · exact .bind (issues_authRepository (c := .revokeSession _ _) trivial) fun _ =>
        deleteSessionCache_ofSessions _

theorem validateSession_ofSessions (sessionId : String) :
    (AuthSessionService.validateSession sessionId).Issues AuthStep.OfSessions := by
  have hget : (getSessionCache sessionId).Issues AuthStep.OfSessions :=
    issues_redis (c := .get (.session sessionId)) trivial
  have hread : (readSessionCache sessionId).Issues AuthStep.OfSessions := by
    refine .tryCatch hget fun e => ?_
    cases e with
    | storageUnavailable => exact issues_pure _
    | _ => exact issues_throw _
  refine .bind hread fun cached => ?_
  rcases cached with _ | cached
  · refine .bind (issues_authRepository (c := .findActiveSessionById _) trivial)
      fun (session : Option AuthSessionRecord) => ?_
    rcases session with _ | session
    · exact issues_pure _
    · refine .bind (issues_now trivial) fun now => ?_
      split
      · exact issues_pure _
      refine .bind (issues_authRepository (c := .findAccountById _) trivial)
        fun (account : Option AccountRecord) => ?_
      rcases account with _ | account
      · exact issues_pure _
      · exact .bind (bestEffort_ofSessions (setSessionCache_ofSessions _)) fun _ =>
          issues_pure _
  · dsimp only
    rw [validateCached]
    split
    · exact issues_pure _
    · refine .bind (issues_now trivial) fun now => ?_
      split <;> exact issues_pure _

open AuthService

theorem recordFailedLogin_ofSessions (userId : String) :
    (recordFailedLogin userId).Issues AuthStep.OfSessions :=
  .bind (issues_redis (c := .incrementFailedLogin userId) trivial)
    fun (failure : FailedLoginResult) => .bind (issues_audit trivial)
      fun _ => issues_pure failure

theorem rejectLogin_course {α : Type} {value : AuthTrace → α → Prop} (userId : String) :
    (rejectLogin userId : AuthProgram α).Obeys (LoginMay config call)
      (either value fun _ _ => True) trace := by
  refine (obeys_bind _ _).2 ((recordFailedLogin_ofSessions userId).course fun l r hl => ?_)
  cases r with
  | ok failure => exact (obeys_ite _ _ _).2 ⟨fun _ => trivial, fun _ => trivial⟩
  | error e => trivial

section

variable {may : AuthTrace → AuthStep → Prop}

theorem obeys_setIssuance (purpose : AuthIssuancePurpose) (subjectId issuanceId : String)
    {ends : AuthTrace → Except AuthError Unit → Prop} :
    (setIssuance purpose subjectId issuanceId).Obeys may ends trace ↔
      may trace (.redis (.set (.issuance purpose subjectId) issuanceId
          TTL_ONE_HOUR_SECONDS)) ∧
        (∀ e, ends (⟨.redis (.set (.issuance purpose subjectId) issuanceId
          TTL_ONE_HOUR_SECONDS), .error e⟩ :: trace) (.error .storageUnavailable)) ∧
        ∀ a : Unit, ends (⟨.redis (.set (.issuance purpose subjectId) issuanceId
          TTL_ONE_HOUR_SECONDS), .ok a⟩ :: trace) (.ok a) :=
  obeys_redis _

theorem obeys_createLoginChallenge (userId challengeId code : String) (expiresAt : ℕ)
    {ends : AuthTrace → Except AuthError Unit → Prop} :
    (createLoginChallenge config userId challengeId code expiresAt).Obeys may ends trace ↔
      may trace (.redis (.createLoginChallenge userId challengeId
          ⟨userId, config.hmac code, expiresAt, false⟩)) ∧
        (∀ e, ends (⟨.redis (.createLoginChallenge userId challengeId
          ⟨userId, config.hmac code, expiresAt, false⟩), .error e⟩ :: trace)
            (.error .storageUnavailable)) ∧
        ∀ a : Unit, ends (⟨.redis (.createLoginChallenge userId challengeId
          ⟨userId, config.hmac code, expiresAt, false⟩), .ok a⟩ :: trace) (.ok a) :=
  obeys_redis _

theorem obeys_isLoginLocked (userId : String)
    {ends : AuthTrace → Except AuthError Bool → Prop} :
    (isLoginLocked userId).Obeys may ends trace ↔
      may trace (.redis (.existsKey (.loginLock userId))) ∧
        (∀ e, ends (⟨.redis (.existsKey (.loginLock userId)), .error e⟩ :: trace)
          (.error .storageUnavailable)) ∧
        ∀ locked : Bool, ends (⟨.redis (.existsKey (.loginLock userId)),
          .ok locked⟩ :: trace) (.ok locked) :=
  obeys_redis _

theorem obeys_enqueue (job : SendVerificationCodeJobData)
    {ends : AuthTrace → Except AuthError Unit → Prop} :
    (enqueue job).Obeys may ends trace ↔ may trace (.enqueue job) ∧
      (∀ e, ends (⟨.enqueue job, .error e⟩ :: trace) (.error (.storage e))) ∧
      ∀ a : Unit, ends (⟨.enqueue job, .ok a⟩ :: trace) (.ok a) := by
  refine and_congr Iff.rfl ⟨fun h => ⟨fun e => h (.error e), fun a => h (.ok a)⟩,
    fun h r => ?_⟩
  rcases r with e | a
  · exact h.1 e
  · exact h.2 a

end

/-- Challenges are created by drawing a code first. -/
theorem issueLoginChallenge_course {input : LoginDto} {clientIp : String}
    {account : AccountRecord} (hauth : Authenticated config input account trace)
    (hnew : ∀ x ∈ trace, x.1.createsChallenge = false) :
    (issueLoginChallenge config account.id).Obeys
      (LoginMay config (.startLogin input clientIp))
      (either (fun trace challenge => LoginEnds config (.startLogin input clientIp) trace
        (.ok (.challenge challenge))) fun _ _ => True) trace := by
  have hkeep : ∀ l, Authenticated config input account (l ++ trace) := fun l =>
    ⟨hauth.password, hauth.active,
      hauth.found.imp fun _ h => ⟨h.1, List.mem_append_right l h.2⟩,
      List.mem_append_right l hauth.unlocked⟩
  simp only [issueLoginChallenge, obeys_bind, obeys_generate, obeys_now, obeys_pure,
    obeys_createLoginChallenge, obeys_setIssuance, obeys_enqueue, either_ok, either_error]
  refine ⟨trivial, fun challengeId => ⟨trivial, fun issuanceId => ⟨trivial, fun now =>
    ⟨trivial, fun code => ⟨⟨?_, rfl, ⟨code, ?_, rfl⟩, account, hkeep [_, _, _, _], rfl, ?_⟩,
      fun e => trivial, fun _ => ⟨trivial, fun e => trivial, fun _ => ⟨trivial,
        fun e => trivial, fun _ => ⟨input, clientIp, account,
          ⟨account.id, config.hmac code, now + LOGIN_CHALLENGE_TTL_MS, false⟩, rfl,
          hkeep [_, _, _, _, _, _, _], ?_⟩⟩⟩⟩⟩⟩⟩⟩
  · simpa [AuthStep.createsChallenge] using hnew
  · simp [Drew]
  · simp [Drew]
  · exact List.mem_cons_of_mem _ (List.mem_cons_of_mem _ List.mem_cons_self)

theorem parseEmail_course {α : Type} (raw : String) {f : String → AuthProgram α}
    {ends : AuthTrace → Except AuthError α → Prop}
    (hvalue : ∀ email, createEmail config.toLowerCase raw = some email →
      (f email).Obeys (LoginMay config call) ends trace)
    (herror : ends trace (.error validationException)) :
    (parseEmail config raw >>= f).Obeys (LoginMay config call) ends trace := by
  rw [obeys_bind, parseEmail]
  cases hemail : createEmail config.toLowerCase raw with
  | none => exact herror
  | some email => exact hvalue email hemail

theorem assertLoginRateLimit_ofSessions (email clientIp : String) :
    (assertLoginRateLimit config email clientIp).Issues AuthStep.OfSessions := by
  have hincrement : ∀ hash, (incrementRateLimit LOGIN_RATE_OPERATION .email hash
      LOGIN_RATE_LIMIT_TTL_SECONDS).Issues AuthStep.OfSessions := fun hash =>
    issues_redis (c := .incrementRateLimit LOGIN_RATE_OPERATION .email hash
      LOGIN_RATE_LIMIT_TTL_SECONDS) trivial
  refine .tryCatch (.bind (hincrement _) fun count => ?_) fun e => ?_
  · split
    · exact issues_throw _
    · exact issues_pure _
  · cases e <;> exact issues_throw _

theorem withSecurityStorage_course {α : Type} {p : AuthProgram α}
    {value : AuthTrace → α → Prop}
    (hp : p.Obeys (LoginMay config call) (either value fun _ _ => True) trace) :
    (withSecurityStorage p).Obeys (LoginMay config call) (either value fun _ _ => True)
      trace := by
  rw [withSecurityStorage, obeys_tryCatch]
  refine hp.mono fun trace r hr => ?_
  cases r with
  | ok a => exact hr
  | error e => cases e <;> trivial

theorem startLogin_course (config : AuthConfig) (input : LoginDto) (clientIp : String) :
    Program.Obeys (LoginMay config (.startLogin input clientIp))
      (LoginEnds config (.startLogin input clientIp)) []
      ((authService config).body (.startLogin input clientIp)) := by
  refine (obeys_map _ _).2 (parseEmail_course _ (fun email hemail => ?_) trivial)
  refine (obeys_bind _ _).2 ((assertLoginRateLimit_ofSessions email clientIp).course
    fun l r hl => ?_)
  cases r with
  | error e => trivial
  | ok _ =>
      refine withSecurityStorage_course ?_
      simp only [obeys_bind, obeys_authRepository, either_ok, either_error]
      refine ⟨trivial, fun e => trivial, fun (account : Option AccountRecord) => ?_⟩
      rcases account with _ | account
      · trivial
      · refine (obeys_ite _ _ _).2 ⟨fun _ => ?_, fun hpassword => (obeys_ite _ _ _).2
          ⟨fun _ => trivial, fun hstatus => ?_⟩⟩
        · exact rejectLogin_course account.id
        · simp only [obeys_bind, obeys_isLoginLocked, either_ok, either_error]
          refine ⟨trivial, fun e => trivial, fun locked => (obeys_ite _ _ _).2
            ⟨fun _ => trivial, fun hlocked => issueLoginChallenge_course ?_ ?_⟩⟩
          · refine ⟨not_not.1 hpassword, ?_, ⟨email, hemail, ?_⟩, ?_⟩
            · cases hactive : account.status with
              | pending => exact absurd hactive hstatus
              | active => rfl
            · simp [Found]
            · rw [Bool.not_eq_true] at hlocked
              subst hlocked
              exact List.mem_cons_self
          · intro x hx
            simp only [List.mem_cons, List.append_nil] at hx
            rcases hx with rfl | rfl | hx
            · rfl
            · rfl
            · exact (hl x hx).createsChallenge

theorem findLoginChallengeUserId_course {challengeId : String}
    {ends : AuthTrace → Except AuthError (Option String) → Prop}
    (hvalue : ∀ l userId?, (∀ x ∈ l, x.1.OfSessions) →
      (∀ userId, userId? = some userId → ∃ payload : LoginChallengePayload,
        Replied (l ++ trace) (.get (.loginChallenge challengeId)) (some payload) ∧
          payload.userId = userId) → ends (l ++ trace) (.ok userId?))
    (herror : ∀ trace e, ends trace (.error e)) :
    (findLoginChallengeUserId challengeId).Obeys (LoginMay config call) ends trace := by
  have hone : ∀ r, ∀ x ∈ ([⟨.redis (.get (.loginChallenge challengeId)), r⟩] : AuthTrace),
      x.1.OfSessions := by
    intro r x hx
    rw [List.mem_singleton.1 hx]
    trivial
  refine (obeys_bind _ _).2 ((obeys_redis (.get (.loginChallenge challengeId))).2
    ⟨trivial, fun e => herror _ _, fun (raw : Option LoginChallengePayload) => ?_⟩)
  rcases raw with _ | payload
  · exact hvalue [_] none (hone _) nofun
  · have hreplied : ∀ l, Replied (l ++ ⟨.redis (.get (.loginChallenge challengeId)),
        .ok (some payload)⟩ :: trace) (.get (.loginChallenge challengeId))
          (some payload) := fun l => List.mem_append_right l List.mem_cons_self
    refine (obeys_ite _ _ _).2 ⟨fun _ => hvalue [_] none (hone _) nofun,
      fun _ => (obeys_ite _ _ _).2 ⟨fun _ => ?_, fun _ => ?_⟩⟩
    · refine hvalue [_] (some payload.userId) (hone _) fun userId huser => ?_
      exact ⟨payload, hreplied [], Option.some.inj huser⟩
    · refine (obeys_bind _ _).2 (obeys_now.2 ⟨trivial, fun now => ?_⟩)
      refine hvalue [_, _] _ (fun x hx => ?_) fun userId huser => ?_
      · rcases List.mem_cons.1 hx with rfl | hx
        · trivial
        · exact hone _ x hx
      · split at huser
        · cases huser
        · exact ⟨payload, hreplied [_], Option.some.inj huser⟩

theorem isCurrentIssuance_ofSessions (purpose : AuthIssuancePurpose)
    (subjectId issuanceId : String) :
    (isCurrentIssuance purpose subjectId issuanceId).Issues AuthStep.OfSessions :=
  .bind (issues_redis (c := .get (.issuance purpose subjectId)) trivial)
    fun _ => issues_pure _

theorem processLogin_course (config : AuthConfig) (data : SendVerificationCodeJobData) :
    Program.Obeys (LoginMay config (.processLogin data))
      (LoginEnds config (.processLogin data)) []
      ((authService config).body (.processLogin data)) := by
  refine (obeys_map _ _).2 ?_
  rw [EmailProcessor.processLogin]
  cases hdata : data.challengeId with
  | none => trivial
  | some challengeId =>
      refine (obeys_ite _ _ _).2 ⟨fun _ => trivial, fun _ => ?_⟩
      refine (obeys_bind _ _).2 ((isCurrentIssuance_ofSessions _ _ _).course
        fun l r hl => ?_)
      cases r with
      | error e => trivial
      | ok current =>
          refine (obeys_ite _ _ _).2 ⟨fun _ => trivial, fun _ => ?_⟩
          refine (obeys_bind _ _).2 (findLoginChallengeUserId_course
            (fun l' userId? hl' huser => ?_) fun _ _ => trivial)
          rcases userId? with _ | userId
          · trivial
          · obtain ⟨payload, hreplied, hpayload⟩ := huser userId rfl
            rw [either_ok]
            simp only [obeys_bind, obeys_authRepository, either_ok, either_error]
            refine ⟨trivial, fun e => trivial, fun (account : Option AccountRecord) => ?_⟩
            rcases account with _ | account
            · trivial
            · simp only [EmailProcessor.issueLoginCode, obeys_bind, obeys_generate,
                obeys_now, obeys_createLoginChallenge, either_ok, either_error]
              refine ⟨trivial, fun code => ⟨trivial, fun now => ⟨⟨fun x hx => ?_, rfl,
                ⟨code, ?_, rfl⟩, hdata, payload, ?_, hpayload⟩, fun e => trivial,
                fun _ => (isCurrentIssuance_ofSessions _ _ _).course
                  fun l'' r hl'' => ?_⟩⟩⟩
              · simp only [List.mem_cons, List.mem_append, List.append_nil] at hx
                rcases hx with rfl | rfl | rfl | hx | hx
                · rfl
                · rfl
                · rfl
                · exact (hl' x hx).createsChallenge
                · exact (hl x hx).createsChallenge
              · simp [Drew]
              · exact List.mem_cons_of_mem _ (List.mem_cons_of_mem _
                  (List.mem_cons_of_mem _ hreplied))
              · cases r with
                | error e => trivial
                | ok stillCurrent =>
                    refine (obeys_ite _ _ _).2 ⟨fun _ => ?_, fun _ => trivial⟩
                    refine (issues_sendMail trivial).course fun _ r _ => ?_
                    cases r <;> trivial

theorem Consumed.append {input : VerifyLoginDto} {userId : String}
    (h : Consumed config input userId trace) (l : AuthTrace) :
    Consumed config input userId (l ++ trace) := by
  obtain ⟨later, earlier, now, rfl, hunlocked⟩ := h
  exact ⟨l ++ later, earlier, now, by rw [List.append_assoc],
    List.mem_append_right l hunlocked⟩

theorem loginConsumed_course {input : VerifyLoginDto} {challengeUserId : String} {now : ℕ}
    (hnew : ∀ x ∈ trace, x.1.createsSession = false) :
    (loginConsumed config challengeUserId).Obeys (LoginMay config (.completeLogin input))
      (either (fun trace login => LoginEnds config (.completeLogin input) trace
        (.ok (.completed login))) fun _ _ => True)
      (⟨.redis (.consumeLoginChallenge input.challengeId (config.hmac input.code) now),
        .ok (.consumed challengeUserId)⟩ :: trace) := by
  simp only [loginConsumed, obeys_bind, obeys_isLoginLocked, either_ok, either_error]
  refine ⟨trivial, fun e => trivial, fun locked => (obeys_ite _ _ _).2
    ⟨fun _ => trivial, fun hlocked => ?_⟩⟩
  rw [Bool.not_eq_true] at hlocked
  subst hlocked
  have hconsumed : Consumed config input challengeUserId
      (⟨.redis (.existsKey (.loginLock challengeUserId)), .ok false⟩ ::
        ⟨.redis (.consumeLoginChallenge input.challengeId (config.hmac input.code) now),
          .ok (.consumed challengeUserId)⟩ :: trace) :=
    ⟨[_], trace, now, rfl, List.mem_cons_self⟩
  simp only [obeys_bind, obeys_authRepository, either_ok, either_error]
  refine ⟨trivial, fun e => trivial, fun (account : Option AccountRecord) => ?_⟩
  rcases account with _ | account
  · trivial
  · refine (obeys_ite _ _ _).2 ⟨fun _ => trivial, fun _ => ?_⟩
    simp only [obeys_bind, createSessionAfterLogin, obeys_generate, obeys_now,
      obeys_authRepository, either_ok, either_error]
    refine ⟨trivial, fun refreshToken => ⟨trivial, fun csrf => ⟨trivial, fun t =>
      ⟨.inr ⟨input, challengeUserId, account, rfl, hconsumed.append [_, _, _, _], ?_, rfl,
        ?_⟩, fun e => trivial, fun created => ?_⟩⟩⟩⟩
    · exact List.mem_cons_of_mem _ (List.mem_cons_of_mem _ (List.mem_cons_of_mem _
        List.mem_cons_self))
    · simpa [AuthStep.createsSession] using hnew
    · refine (sessionCreated_ofSessions _ _ _ _ _).course fun l r _ => ?_
      cases r with
      | error e => trivial
      | ok tokens =>
          refine Issues.course (issues_audit trivial) fun l' r' _ => ?_
          cases r' with
          | error e => trivial
          | ok _ =>
              exact ⟨input, challengeUserId, rfl,
                ((hconsumed.append [_, _, _, _, _]).append l).append l'⟩

theorem verifyChallenge_course {input : VerifyLoginDto} {challengeUserId : Option String}
    (hfirst : ∀ x ∈ trace, x.1.consumesChallenge = false)
    (hnew : ∀ x ∈ trace, x.1.createsSession = false) :
    (verifyChallenge config input challengeUserId).Obeys
      (LoginMay config (.completeLogin input))
      (either (fun trace login => LoginEnds config (.completeLogin input) trace
        (.ok (.completed login))) fun _ _ => True) trace := by
  have hreject : ∀ trace : AuthTrace, Obeys (challengeUserId.elim
      (throw invalidCredentialsException) rejectLogin) (LoginMay config (.completeLogin input))
      (either (fun trace login => LoginEnds config (.completeLogin input) trace
        (.ok (.completed login))) fun _ _ => True) trace := by
    intro trace
    cases challengeUserId with
    | none => trivial
    | some userId => exact rejectLogin_course userId
  refine (obeys_bind _ _).2 ((obeys_bind _ _).2 (obeys_now.2 ⟨trivial, fun now => ?_⟩))
  refine (obeys_bind _ _).2 ((obeys_redis (.consumeLoginChallenge input.challengeId
    (config.hmac input.code) now)).2 ⟨⟨?_, input, rfl, rfl, rfl⟩, fun e => trivial,
      fun (result : ConsumeLoginChallengeResult) => ?_⟩)
  · simpa [AuthStep.consumesChallenge] using hfirst
  have hnow : ∀ x ∈ (⟨.now, now⟩ :: trace : AuthTrace), x.1.createsSession = false := by
    simpa [AuthStep.createsSession] using hnew
  refine (either_ok _ _ _).2 ((obeys_pure _).2 ((either_ok _ _ _).2 ?_))
  split_ifs with hempty
  · cases challengeUserId <;> exact hreject _
  · rcases result with userId | _ | _
    · exact loginConsumed_course hnow
    · cases challengeUserId <;> exact hreject _
    · cases challengeUserId <;> exact hreject _

theorem completeLogin_course (config : AuthConfig) (input : VerifyLoginDto) :
    Program.Obeys (LoginMay config (.completeLogin input))
      (LoginEnds config (.completeLogin input)) []
      ((authService config).body (.completeLogin input)) := by
  have hcourse : (completeLogin config input).Obeys (LoginMay config (.completeLogin input))
      (either (fun trace login => LoginEnds config (.completeLogin input) trace
        (.ok (.completed login))) fun _ _ => True) [] := by
    refine withSecurityStorage_course ((obeys_bind _ _).2 (findLoginChallengeUserId_course
      (fun l userId? hl _ => ?_) fun _ _ => trivial))
    have hsessions : ∀ x ∈ l ++ [], x.1.OfSessions := fun x hx =>
      hl x (List.append_nil l ▸ hx)
    have hfirst : ∀ x ∈ l ++ [], x.1.consumesChallenge = false := fun x hx =>
      (hsessions x hx).consumesChallenge
    have hnew : ∀ x ∈ l ++ [], x.1.createsSession = false := fun x hx =>
      (hsessions x hx).createsSession
    rcases userId? with _ | userId
    · exact verifyChallenge_course hfirst hnew
    · simp only [either_ok, obeys_bind, obeys_isLoginLocked, either_error]
      refine ⟨trivial, fun e => trivial, fun locked => (obeys_ite _ _ _).2
        ⟨fun _ => trivial, fun _ => verifyChallenge_course ?_ ?_⟩⟩
      · simpa [AuthStep.consumesChallenge] using hfirst
      · simpa [AuthStep.createsSession] using hnew
  refine (obeys_map _ _).2 (hcourse.mono fun trace r hr => ?_)
  cases r with
  | ok login => exact hr
  | error e => trivial

theorem body_course (config : AuthConfig) (call : AuthCall) :
    Program.Obeys (LoginMay config call) (LoginEnds config call) []
      ((authService config).body call) := by
  have hsessions : ∀ {α : Type} (f : α → AuthValue) {p : AuthProgram α},
      p.Issues AuthStep.OfSessions → (∀ a trace, LoginEnds config call trace (.ok (f a))) →
        (f <$> p).Obeys (LoginMay config call) (LoginEnds config call) [] := by
    intro α f p hp hends
    refine (obeys_map _ _).2 (hp.course fun l r _ => ?_)
    cases r with
    | ok a => exact hends a _
    | error e => trivial
  cases call with
  | createSessionAfterLogin userId role =>
      refine (obeys_map _ _).2 ?_
      simp only [createSessionAfterLogin, obeys_bind, obeys_generate, obeys_now,
        obeys_authRepository, either_ok, either_error]
      refine ⟨trivial, fun _ => ⟨trivial, fun _ => ⟨trivial, fun _ => ⟨.inl ⟨role, rfl⟩,
        fun e => trivial, fun created => ?_⟩⟩⟩⟩
      refine (sessionCreated_ofSessions _ _ _ _ _).course fun l r _ => ?_
      cases r <;> trivial
  | sessionRefresh refreshToken =>
      exact hsessions _ (refresh_ofSessions refreshToken) fun _ _ => trivial
  | logout refreshToken =>
      exact hsessions _ (logout_ofSessions refreshToken) fun _ _ => trivial
  | revokeAll userId reason =>
      exact hsessions _ (.bind (issues_authRepository (c := .revokeAllSessions _ _) trivial)
        fun _ => deleteSessionCaches_ofSessions _) fun _ _ => trivial
  | validateSession sessionId =>
      exact hsessions _ (validateSession_ofSessions sessionId) fun _ _ => trivial
  | refresh refreshToken =>
      refine hsessions _ (.tryCatch (.tryCatch (.bind (refresh_ofSessions refreshToken)
        fun _ => issues_pure _) fun e => ?_) fun e => ?_) fun _ _ => trivial
      · cases e <;> exact issues_throw _
      · cases e <;> exact issues_throw _
  | startLogin input clientIp => exact startLogin_course config input clientIp
  | completeLogin input => exact completeLogin_course config input
  | processLogin data => exact processLogin_course config data

end

/-! ### Challenges in Redis -/

/-- The challenge that is recorded for an account. -/
def Redis.currentChallenge (redis : Redis) (userId : String) : Option String :=
  redis.get (.loginChallengeAccount userId)

section

variable {redis : Redis} {userId challengeId : String} {payload : LoginChallengePayload}

theorem CREATE_LOGIN_CHALLENGE_LUA_get_self :
    (CREATE_LOGIN_CHALLENGE_LUA userId challengeId payload redis).get
      (.loginChallenge challengeId) = some payload := by
  have hkey : RedisKey.loginChallenge challengeId ≠ .loginChallengeAccount userId := nofun
  exact (Redis.get_setEx_of_ne _ _ _ hkey).trans
    (Store.get_set_self (V := RedisKey.Value) _ (k := .loginChallenge challengeId) payload
      (by decide))

/-- Of the other challenges it deletes the one recorded for the account. -/
theorem CREATE_LOGIN_CHALLENGE_LUA_get_of_ne {id : String} (hid : id ≠ challengeId) :
    (CREATE_LOGIN_CHALLENGE_LUA userId challengeId payload redis).get (.loginChallenge id) =
      if redis.currentChallenge userId = some id then none
      else redis.get (.loginChallenge id) := by
  have hkey : RedisKey.loginChallenge id ≠ .loginChallengeAccount userId := nofun
  have hkey' : RedisKey.loginChallenge id ≠ .loginChallenge challengeId :=
    fun heq => hid (RedisKey.loginChallenge.inj heq)
  refine (Redis.get_setEx_of_ne _ _ _ hkey).trans
    ((Redis.get_setEx_of_ne _ _ _ hkey').trans ?_)
  by_cases hcurrent : redis.currentChallenge userId = some id
  · rw [if_pos hcurrent, show redis.get (.loginChallengeAccount userId) = _ from hcurrent]
    exact Store.get_del_self redis _
  · rw [if_neg hcurrent]
    cases hprevious : redis.get (.loginChallengeAccount userId) with
    | none => rfl
    | some previous =>
        refine Store.get_del_of_ne redis fun heq => hcurrent (hprevious.trans ?_)
        exact congrArg some (RedisKey.loginChallenge.inj heq).symm

/-- A challenge that is visible was so before, or has just been created. -/
theorem RedisCommand.get_challenge_apply {c : RedisCommand} {id : String}
    (hset : ∀ id p ttlSeconds, c ≠ .set (.loginChallenge id) p ttlSeconds)
    (h : (c.apply redis).2.get (.loginChallenge id) = some payload) :
    redis.get (.loginChallenge id) = some payload ∨
      ∃ userId, c = .createLoginChallenge userId id payload := by
  by_cases hwrites : c.Writes (.loginChallenge id)
  · cases c with
    | get key => exact hwrites.elim
    | existsKey key => exact hwrites.elim
    | set key value ttlSeconds =>
        obtain rfl : RedisKey.loginChallenge id = key := hwrites
        exact absurd rfl (hset id value ttlSeconds)
    | del key =>
        obtain rfl : RedisKey.loginChallenge id = key := hwrites
        exact .inl (Store.get_del_eq_some redis h).2
    | createLoginChallenge userId challengeId p =>
        by_cases hid : id = challengeId
        · subst hid
          have hp : p = payload :=
            Option.some.inj (CREATE_LOGIN_CHALLENGE_LUA_get_self.symm.trans h)
          exact .inr ⟨userId, by rw [hp]⟩
        · have hget := (CREATE_LOGIN_CHALLENGE_LUA_get_of_ne hid).symm.trans h
          split at hget
          · cases hget
          · exact .inl hget
    | consumeLoginChallenge challengeId codeHmac nowMs =>
        refine .inl ?_
        simp only [RedisCommand.apply, CONSUME_LOGIN_CHALLENGE_LUA] at h
        split at h
        · exact h
        split at h
        · exact h
        split at h
        · exact h
        split at h <;> exact (Store.get_del_eq_some redis h).2
    | incrementFailedLogin userId => rcases hwrites with h | h <;> cases h
    | incrementRateLimit operation dimension hash ttlSeconds => cases hwrites
  · exact .inl ((RedisCommand.get_apply_of_not_writes redis hwrites).symm.trans h)

/-- A consumption answers `consumed` for a visible challenge with this code. -/
theorem CONSUME_LOGIN_CHALLENGE_LUA_consumed {codeHmac : String} {nowMs : ℕ}
    (h : (CONSUME_LOGIN_CHALLENGE_LUA challengeId codeHmac nowMs redis).1 =
      .consumed userId) :
    ∃ payload : LoginChallengePayload,
      redis.get (.loginChallenge challengeId) = some payload ∧ payload.userId = userId ∧
        payload.codeHmac = codeHmac ∧
        (CONSUME_LOGIN_CHALLENGE_LUA challengeId codeHmac nowMs redis).2 =
          redis.del (.loginChallenge challengeId) := by
  simp only [CONSUME_LOGIN_CHALLENGE_LUA] at h ⊢
  cases hget : redis.get (.loginChallenge challengeId) with
  | none =>
      rw [hget] at h
      cases h
  | some payload =>
      rw [hget] at h
      dsimp only at h ⊢
      split_ifs at h ⊢ with hused hcode hnow
      · cases h
        exact ⟨payload, rfl, rfl, not_not.1 hcode, rfl⟩

end

end Auth

end Shortlink
