import Shortlink.Auth.Challenges
import Shortlink.Auth.Rotation

/-!
# The steps of each call

Which calls of the auth services issue a step that changes sessions, looks up a used
refresh token or sends a mail (`AuthCall.Uses`). All other steps are plain, and every call may
issue them (`program_uses`).
-/

namespace Shortlink

namespace Auth

open Shortlink.Interaction AuthProgram

/-- The step neither changes sessions nor looks a used token up, and it sends no mail. -/
def AuthStep.Plain : AuthStep → Prop
  | .repository (.createExclusiveSession _ _) => False
  | .repository (.rotateRefreshToken _ _) => False
  | .repository (.revokeSession _ _) => False
  | .repository (.revokeAllSessions _ _) => False
  | .repository (.findRefreshTokenHistoryByHash _) => False
  | .sendMail _ => False
  | _ => True

def AuthCall.Uses (call : AuthCall) : AuthStep → Prop
  | .repository (.createExclusiveSession _ _) =>
      (∃ userId role, call = .createSessionAfterLogin userId role) ∨
        ∃ input, call = .completeLogin input
  | .repository (.rotateRefreshToken _ _) => call.presented.isSome
  | .repository (.findRefreshTokenHistoryByHash _) => call.presented.isSome
  | .repository (.revokeSession _ _) =>
      call.presented.isSome ∨ ∃ refreshToken, call = .logout refreshToken
  | .repository (.revokeAllSessions _ _) => ∃ userId reason, call = .revokeAll userId reason
  | .sendMail _ => ∃ data, call = .processLogin data
  | _ => True

theorem AuthStep.Plain.uses {c : AuthStep} (h : c.Plain) (call : AuthCall) : call.Uses c := by
  cases c with
  | repository c => cases c <;> trivial
  | sendMail mail => exact h.elim
  | _ => trivial

section

variable {α : Type} {config : AuthConfig} {call : AuthCall}

theorem AuthProgram.Issues.uses {p : AuthProgram α} (hp : p.Issues AuthStep.Plain) :
    p.Issues call.Uses :=
  hp.mono fun _ hc => hc.uses call

open AuthSessionService RedisAuthStateService

theorem withSecurityStorage_issues {φ : AuthStep → Prop} {p : AuthProgram α}
    (hp : p.Issues φ) : (AuthService.withSecurityStorage p).Issues φ := by
  refine .tryCatch hp fun e => ?_
  cases e <;> exact issues_throw _

theorem bestEffort_plain {p : AuthProgram Unit} (hp : p.Issues AuthStep.Plain) :
    (bestEffort p).Issues AuthStep.Plain := by
  refine .tryCatch hp fun e => ?_
  cases e with
  | storageUnavailable => exact issues_pure _
  | _ => exact issues_throw _

theorem setSessionCache_plain (session : SessionCacheRecord) :
    (setSessionCache session).Issues AuthStep.Plain :=
  .bind (issues_now trivial) fun now => issues_redis (c := cacheWrite session now) trivial

theorem deleteSessionCaches_plain (ids : List String) :
    (deleteSessionCaches ids).Issues AuthStep.Plain := by
  induction ids with
  | nil => exact issues_pure _
  | cons sessionId ids ih =>
      exact .bind (bestEffort_plain (issues_redis (c := .del (.session sessionId)) trivial))
        fun _ => ih

theorem issueTokens_plain (claims : AccessTokenClaims) (refreshToken csrf : String) :
    (issueTokens config claims refreshToken csrf).Issues AuthStep.Plain :=
  .bind (issues_now trivial) fun _ => issues_pure _

theorem createSessionAfterLogin_uses (userId role : String)
    (hcall : (∃ userId role, call = .createSessionAfterLogin userId role) ∨
      ∃ input, call = .completeLogin input) :
    (createSessionAfterLogin config userId role).Issues call.Uses :=
  .bind (issues_generate trivial) fun _ => .bind (issues_generate trivial) fun _ =>
    .bind (issues_now trivial) fun _ =>
      .bind (issues_authRepository (c := .createExclusiveSession _ _) hcall) fun _ =>
        Issues.uses (.bind (deleteSessionCaches_plain _) fun _ =>
          .bind (setSessionCache_plain _) fun _ => issueTokens_plain _ _ _)

theorem rotate_uses (tokenHash : String) (session : AuthSessionRecord)
    (account : AccountRecord) (hcall : call.presented.isSome) :
    (rotate config tokenHash session account).Issues call.Uses :=
  .bind (issues_generate trivial) fun _ => .bind (issues_now trivial) fun _ =>
    .bind (issues_authRepository (c := .rotateRefreshToken _ _) hcall) fun _ =>
      Issues.uses (.bind (setSessionCache_plain _) fun _ => issueTokens_plain _ _ _)

theorem refreshUnused_uses (tokenHash : String) (history : SessionRefreshTokenRecord)
    (hcall : call.presented.isSome) :
    (refreshUnused config tokenHash history).Issues call.Uses := by
  refine .bind (issues_authRepository (c := .findActiveSessionById _) trivial)
    fun (session : Option AuthSessionRecord) => ?_
  rcases session with _ | session
  · exact issues_throw _
  refine .bind (issues_now trivial) fun now => ?_
  split
  · exact issues_throw _
  refine .bind (issues_authRepository (c := .findAccountById _) trivial)
    fun (account : Option AccountRecord) => ?_
  rcases account with _ | account
  · exact issues_throw _
  · exact rotate_uses _ _ _ hcall

theorem refresh_uses (refreshToken : String) (hcall : call.presented.isSome) :
    (AuthSessionService.refresh config refreshToken).Issues call.Uses := by
  refine .bind (issues_authRepository (c := .findRefreshTokenHistoryByHash _) hcall)
    fun (history : Option SessionRefreshTokenRecord) => ?_
  rcases history with _ | history
  · exact issues_throw _
  dsimp only
  split
  · exact .bind (issues_authRepository (c := .revokeSession _ _) (.inl hcall)) fun _ =>
      .bind (issues_redis (c := .del (.session _)) trivial) fun _ => issues_throw _
  · exact refreshUnused_uses _ _ hcall

theorem logout_uses (refreshToken : String) :
    (AuthSessionService.logout config refreshToken).Issues
      (AuthCall.logout refreshToken).Uses := by
  refine .bind (issues_authRepository (c := .findSessionByRefreshTokenHash _) trivial)
    fun (session : Option AuthSessionRecord) => ?_
  rcases session with _ | session
  · exact issues_pure _
  dsimp only
  split
  · exact issues_pure _
  · exact .bind (issues_authRepository (c := .revokeSession _ _) (.inr ⟨_, rfl⟩)) fun _ =>
      issues_redis (c := .del (.session _)) trivial

theorem validateStored_plain (sessionId : String) :
    (validateStored sessionId).Issues AuthStep.Plain := by
  refine .bind (issues_authRepository (c := .findActiveSessionById _) trivial)
    fun (session : Option AuthSessionRecord) => ?_
  rcases session with _ | session
  · exact issues_pure _
  refine .bind (issues_now trivial) fun now => ?_
  split
  · exact issues_pure _
  refine .bind (issues_authRepository (c := .findAccountById _) trivial)
    fun (account : Option AccountRecord) => ?_
  rcases account with _ | account
  · exact issues_pure _
  · exact .bind (bestEffort_plain (setSessionCache_plain _)) fun _ => issues_pure _

theorem validateSession_plain (sessionId : String) :
    (AuthSessionService.validateSession sessionId).Issues AuthStep.Plain := by
  have hget : (getSessionCache sessionId).Issues AuthStep.Plain :=
    issues_redis (c := .get (.session sessionId)) trivial
  refine .bind (.tryCatch hget fun e => ?_) fun (cached : Option SessionCacheRecord) => ?_
  · cases e with
    | storageUnavailable => exact issues_pure _
    | _ => exact issues_throw _
  rcases cached with _ | cached
  · exact validateStored_plain _
  dsimp only
  rw [validateCached]
  split
  · exact issues_pure _
  · refine .bind (issues_now trivial) fun now => ?_
    split <;> exact issues_pure _

open AuthService

theorem parseEmail_plain (raw : String) :
    (parseEmail config raw).Issues AuthStep.Plain := by
  rw [parseEmail]
  split
  · exact issues_throw _
  · exact issues_pure _

theorem assertLoginRateLimit_plain (email clientIp : String) :
    (assertLoginRateLimit config email clientIp).Issues AuthStep.Plain := by
  refine withSecurityStorage_issues (.bind (issues_redis
    (c := .incrementRateLimit LOGIN_RATE_OPERATION .email _ LOGIN_RATE_LIMIT_TTL_SECONDS)
    trivial) fun (count : ℕ) => ?_)
  split
  · exact issues_throw _
  · exact issues_pure _

theorem rejectLogin_plain (userId : String) :
    (rejectLogin userId : AuthProgram α).Issues AuthStep.Plain := by
  refine .bind (.bind (issues_redis (c := .incrementFailedLogin userId) trivial)
    fun (failure : FailedLoginResult) => .bind (issues_audit trivial)
      fun _ => issues_pure failure) fun failure => ?_
  split <;> exact issues_throw _

theorem isLoginLocked_plain (userId : String) :
    (isLoginLocked userId).Issues AuthStep.Plain :=
  issues_redis (c := .existsKey (.loginLock userId)) trivial

theorem issueLoginChallenge_plain (userId : String) :
    (issueLoginChallenge config userId).Issues AuthStep.Plain :=
  .bind (issues_generate trivial) fun _ => .bind (issues_generate trivial) fun _ =>
    .bind (issues_now trivial) fun _ => .bind (issues_generate trivial) fun _ =>
      .bind (issues_redis (c := .createLoginChallenge _ _ _) trivial) fun _ =>
        .bind (issues_redis (c := .set (.issuance _ _) _ _) trivial) fun _ =>
          .bind (issues_enqueue trivial) fun _ => issues_pure _

theorem startLogin_plain (input : LoginDto) (clientIp : String) :
    (startLogin config input clientIp).Issues AuthStep.Plain := by
  refine .bind (parseEmail_plain _) fun email =>
    .bind (assertLoginRateLimit_plain _ _) fun _ => withSecurityStorage_issues
      (.bind (issues_authRepository (c := .findAccountByEmail _) trivial)
        fun (account : Option AccountRecord) => ?_)
  rcases account with _ | account
  · exact issues_throw _
  dsimp only
  split
  · exact rejectLogin_plain _
  split
  · exact issues_throw _
  refine .bind (isLoginLocked_plain _) fun locked => ?_
  split
  · exact issues_throw _
  · exact issueLoginChallenge_plain _

theorem findLoginChallengeUserId_plain (challengeId : String) :
    (findLoginChallengeUserId challengeId).Issues AuthStep.Plain := by
  refine .bind (issues_redis (c := .get (.loginChallenge challengeId)) trivial)
    fun (raw : Option LoginChallengePayload) => ?_
  rcases raw with _ | payload
  · exact issues_pure _
  dsimp only
  split
  · exact issues_pure _
  split
  · exact issues_pure _
  · exact .bind (issues_now trivial) fun _ => issues_pure _

theorem loginConsumed_uses (input : VerifyLoginDto) (userId : String) :
    (loginConsumed config userId).Issues (AuthCall.completeLogin input).Uses := by
  refine .bind (isLoginLocked_plain _).uses fun locked => ?_
  split
  · exact issues_throw _
  refine .bind (issues_authRepository (c := .findAccountById _) trivial)
    fun (account : Option AccountRecord) => ?_
  rcases account with _ | account
  · exact issues_throw _
  dsimp only
  split
  · exact issues_throw _
  · exact .bind (createSessionAfterLogin_uses _ _ (.inr ⟨input, rfl⟩)) fun _ =>
      .bind (issues_audit trivial) fun _ => issues_pure _

theorem verifyChallenge_uses (input : VerifyLoginDto) (challengeUserId : Option String) :
    (verifyChallenge config input challengeUserId).Issues (AuthCall.completeLogin input).Uses := by
  refine .bind (.bind (issues_now trivial) fun _ => .bind (issues_redis
    (c := .consumeLoginChallenge _ _ _) trivial)
      fun _ => issues_pure _) fun (result : ConsumeLoginChallengeResult) => ?_
  cases result with
  | consumed userId => exact loginConsumed_uses input userId
  | _ =>
      cases challengeUserId with
      | none => exact issues_throw _
      | some userId => exact (rejectLogin_plain userId).uses

theorem completeLogin_uses (input : VerifyLoginDto) :
    (completeLogin config input).Issues (AuthCall.completeLogin input).Uses := by
  refine withSecurityStorage_issues (.bind (findLoginChallengeUserId_plain _).uses
    fun challengeUserId => ?_)
  cases challengeUserId with
  | none => exact verifyChallenge_uses _ _
  | some userId =>
      refine .bind (isLoginLocked_plain _).uses fun locked => ?_
      split
      · exact issues_throw _
      · exact verifyChallenge_uses _ _

theorem isCurrentIssuance_plain (purpose : AuthIssuancePurpose)
    (subjectId issuanceId : String) :
    (RedisAuthStateService.isCurrentIssuance purpose subjectId issuanceId).Issues
      AuthStep.Plain :=
  .bind (issues_redis (c := .get (.issuance purpose subjectId)) trivial) fun _ => issues_pure _

theorem processLogin_uses (data : SendVerificationCodeJobData) :
    (EmailProcessor.processLogin config data).Issues (AuthCall.processLogin data).Uses := by
  rw [EmailProcessor.processLogin]
  cases data.challengeId with
  | none => exact issues_pure _
  | some challengeId =>
      dsimp only
      split
      · exact issues_pure _
      refine .bind (isCurrentIssuance_plain _ _ _).uses fun current => ?_
      split
      · exact issues_pure _
      refine .bind (findLoginChallengeUserId_plain _).uses fun (userId : Option String) => ?_
      rcases userId with _ | userId
      · exact issues_pure _
      refine .bind (issues_authRepository (c := .findAccountById _) trivial)
        fun (account : Option AccountRecord) => ?_
      rcases account with _ | account
      · exact issues_pure _
      refine .bind (issues_generate trivial) fun code => .bind (issues_now trivial) fun now =>
        .bind (issues_redis (c := .createLoginChallenge _ _ _) trivial) fun _ =>
          .bind (isCurrentIssuance_plain _ _ _).uses fun stillCurrent => ?_
      split
      · exact issues_sendMail ⟨data, rfl⟩
      · exact issues_pure _

/-- What a call of the auth services may do to sessions, and that only the worker sends
mails. -/
theorem program_uses (config : AuthConfig) (call : AuthCall) :
    (call.program config).Issues call.Uses := by
  cases call with
  | createSessionAfterLogin userId role =>
      exact Throwing.issues_map.2 (createSessionAfterLogin_uses _ _ (.inl ⟨_, _, rfl⟩))
  | sessionRefresh refreshToken => exact Throwing.issues_map.2 (refresh_uses _ rfl)
  | logout refreshToken => exact Throwing.issues_map.2 (logout_uses _)
  | revokeAll userId reason =>
      exact Throwing.issues_map.2 (.bind (issues_authRepository (c := .revokeAllSessions _ _)
        ⟨_, _, rfl⟩) fun _ => (deleteSessionCaches_plain _).uses)
  | validateSession sessionId =>
      exact Throwing.issues_map.2 (validateSession_plain _).uses
  | refresh refreshToken =>
      refine Throwing.issues_map.2 (withSecurityStorage_issues (.tryCatch
        (.bind (refresh_uses _ rfl) fun _ => issues_pure _) fun e => ?_))
      cases e <;> exact issues_throw _
  | startLogin input clientIp => exact Throwing.issues_map.2 (startLogin_plain _ _).uses
  | completeLogin input => exact Throwing.issues_map.2 (completeLogin_uses _)
  | processLogin data => exact Throwing.issues_map.2 (processLogin_uses _)

end

end Auth

end Shortlink
