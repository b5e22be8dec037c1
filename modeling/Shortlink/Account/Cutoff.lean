import Shortlink.Account.Reset
import Shortlink.Auth.LiveEntries

/-!
# Access after a reset or a login

A call of the account services does to a session and its cache entry what its auth
programs do: the rest of its steps leaves the sessions and their entries alone. So
a session that a call has ended is not valid any more, whatever fails in Redis
later, when Redis has not refused to delete its entry in this call.
-/

namespace Shortlink

namespace Account

open Shortlink.Storage Shortlink.Table Shortlink.Transaction Shortlink.Interaction
open Shortlink.Auth AccountProgram

/-- The transactions do not fail; any other step may. -/
def transactionsWork : AuthStep → AuthOutside → AuthState → Prop
  | .repository _, o, _ => o.fault = .none
  | _, _, _ => True

/-- Moreover, Redis refuses to delete the entry of the session only when there is
none. -/
def deletionReaches (sessionId : String) (c : AuthStep) (o : AuthOutside)
    (s : AuthState) : Prop :=
  transactionsWork c o s ∧ ∀ e, c = .redis (.del (.session sessionId)) →
    o.fault = .refused e → s.redis.get (.session sessionId) = none

/-- The steps of the auth services take outcomes that `ok` allows, and the other
transactions do not fail. -/
def within (ok : AuthStep → AuthOutside → AuthState → Prop) :
    AccountStep → AccountOutside → AccountState → Prop
  | .auth c, o, s => ok c o.auth s.auth
  | .repository _, o, _ => o.auth.fault = .none
  | _, _, _ => True

/-! ### The tables -/

section

variable {db db' : AccountDb} {stamp : AccountStamp}

/-- What a method on the accounts keeps of the tables of the auth services. -/
structure KeepsSessions (db db' : AuthDb) : Prop where
  sessions : db'.sessions = db.sessions
  refreshTokens : db'.refreshTokens = db.refreshTokens
  accounts : ∀ id, (db.findAccountById id).isSome → (db'.findAccountById id).isSome

theorem KeepsSessions.refl (db : AuthDb) : KeepsSessions db db := ⟨rfl, rfl, fun _ h => h⟩

theorem KeepsSessions.of_users {db : AuthDb} {users : List AccountRecord}
    (h : ∀ a ∈ db.users, ∃ a' ∈ users, a'.id = a.id) :
    KeepsSessions db { db with users } := by
  refine ⟨rfl, rfl, fun id hid => ?_⟩
  simp only [AuthDb.findAccountById, List.find?_isSome, decide_eq_true_eq] at hid ⊢
  obtain ⟨a, ha, rfl⟩ := hid
  exact h a ha

theorem AccountCommand.impl_keeps {c : AccountCommand} {a : c.Res}
    (h : (c.impl stamp).run db = .ok (a, db')) : KeepsSessions db.auth db'.auth := by
  have hupdate : ∀ (p : AccountRecord → Bool) (f : AccountRecord → AccountRecord),
      (∀ a, (f a).id = a.id) →
      KeepsSessions db.auth { db.auth with users := updateWhere p f db.auth.users } := by
    intro p f hf
    refine .of_users fun a ha => ⟨_, List.mem_map_of_mem ha, ?_⟩
    split
    · exact hf a
    · rfl
  cases c with
  | createPendingAccount input =>
      obtain rfl := createPendingAccountTx_run h
      exact .of_users fun a ha => ⟨a, List.mem_append_left _ ha, rfl⟩
  | activateAccount userId =>
      obtain rfl := activateAccountTx_run h
      exact hupdate _ _ fun _ => rfl
  | updatePasswordHash userId passwordHash =>
      have hrun := updatePasswordHashTx_run.symm.trans h
      split at hrun
      · cases hrun
        exact hupdate _ _ fun _ => rfl
      · cases hrun
  | createPasswordResetToken userId input =>
      obtain ⟨-, -, rfl⟩ := createPasswordResetTokenTx_run h
      exact .refl _
  | consumePasswordResetToken tokenHash =>
      rcases consumePasswordResetTokenTx_run h with ⟨-, rfl⟩ | ⟨-, -, -, -, -, -, rfl⟩
      · exact .refl _
      · exact .refl _

theorem KeepsSessions.sound {db db' : AuthDb} (h : KeepsSessions db db')
    (hs : Sound db) : Sound db' := by
  obtain ⟨hsessions, htokens, haccounts⟩ := h
  refine ⟨⟨?_, ?_, fun s hmem => ?_⟩, ?_, ⟨?_, ?_, ?_⟩⟩
  · rw [hsessions]
    exact hs.keys.sessionIds
  · rw [htokens]
    exact hs.keys.tokenIds
  · rw [hsessions] at hmem
    exact haccounts _ (hs.keys.accounts s hmem)
  · rw [Exclusive, hsessions]
    exact hs.exclusive
  · rw [htokens]
    exact hs.chain.hashes
  · rw [htokens, hsessions]
    exact hs.chain.owned
  · rw [htokens, hsessions]
    exact hs.chain.current

theorem KeepsSessions.active {db db' : AuthDb} (h : KeepsSessions db db')
    {sessionId : String} : Active db' sessionId ↔ Active db sessionId := by
  rw [Active, h.sessions, Active]

theorem KeepsSessions.ended {db db' : AuthDb} (h : KeepsSessions db db')
    {sessionId : String} : Ended db' sessionId ↔ Ended db sessionId := by
  rw [Ended, h.sessions, Ended]

end

/-! ### The steps -/

section

variable {α β : Type} {config : AccountConfig}
  {ok : AuthStep → AuthOutside → AuthState → Prop} {sessionId : String}
  {s s' : AccountState}

/-- What is neither a step of the auth services nor of Redis keeps the sessions and
their entries. -/
theorem exec_keeps {c : AccountStep} {o : AccountOutside} {r : c.Reply}
    (hc : ¬ c.IsAuth) (h : exec c o s = some (r, s')) :
    KeepsSessions s.auth.db s'.auth.db ∧ s'.auth.redis = s.auth.redis := by
  cases c with
  | auth c => exact absurd trivial hc
  | hash password =>
      cases h
      exact ⟨.refl _, rfl⟩
  | repository c =>
      rcases exec_repository_cases h with ⟨rfl, -⟩ | ⟨a, db', -, hrun, rfl, -⟩
      · exact ⟨.refl _, rfl⟩
      · exact ⟨c.impl_keeps hrun, rfl⟩
  | redis c =>
      have hstate : (o.auth.fault.apply s (execActivations c s)).2 = s' :=
        (Prod.mk.inj (Option.some.inj h)).2
      rcases o.auth.fault.apply_state s (execActivations c s) with hs | hs <;>
        rw [← hstate, hs] <;> exact ⟨.refl _, rfl⟩
  | enqueuePasswordReset job =>
      have hstate : (o.auth.fault.apply s ((.ok () : Except StorageError Unit), s)).2 = s' :=
        (Prod.mk.inj (Option.some.inj h)).2
      rcases o.auth.fault.apply_state s ((.ok () : Except StorageError Unit), s) with
        hs | hs <;> rw [← hstate, hs] <;> exact ⟨.refl _, rfl⟩

/-- A session's entry stays live while the accounts change. -/
theorem Live.keeps {a a' : AuthState} (h : Steady ok sessionId a)
    (hdb : KeepsSessions a.db a'.db) (hredis : a'.redis = a.redis) :
    Steady ok sessionId a' := by
  refine ⟨rfl, hdb.sound h.sound, h.guard.imp_right hdb.ended.2, fun cached hget => ?_⟩
  rw [hredis] at hget
  exact (h.entry cached hget).imp_left hdb.active.2

/-- A step that changes no session and no session entry. -/
def AccountStep.Quiet : AccountStep → Prop
  | .auth c => c.Quiet
  | _ => True

/-- The steps of the flows on accounts: of the auth services they use the clock, secrets,
accounts, issuances and rate limits. -/
def AccountStep.Plain : AccountStep → Prop
  | .auth (.repository (.findAccountByEmail _)) => True
  | .auth (.repository (.findAccountById _)) => True
  | .auth (.repository _) => False
  | .auth (.redis (.get (.issuance _ _))) => True
  | .auth (.redis (.set (.issuance _ _) _ _)) => True
  | .auth (.redis (.incrementRateLimit _ _ _ _)) => True
  | .auth (.redis _) => False
  | _ => True

/-- A plain step that stores no activation code. -/
def AccountStep.Modest : AccountStep → Prop
  | .redis (.set (.activation _) _ _) => False
  | c => c.Plain

theorem AccountStep.Modest.plain {c : AccountStep} (h : c.Modest) : c.Plain := by
  cases c with
  | auth c => exact h
  | _ => trivial

theorem AccountStep.Plain.quiet {c : AccountStep} (h : c.Plain) : c.Quiet := by
  cases c with
  | auth c =>
      cases c with
      | repository c => cases c <;> first | exact ⟨trivial, rfl⟩ | exact h.elim
      | redis c =>
          cases c with
          | get key => exact ⟨trivial, rfl⟩
          | set key value ttlSeconds =>
              cases key <;> first | exact ⟨trivial, rfl⟩ | exact h.elim
          | incrementRateLimit operation dimension hash ttlSeconds => exact ⟨trivial, rfl⟩
          | _ => exact h.elim
      | _ => exact ⟨trivial, rfl⟩
  | _ => trivial

theorem steady_exec {c : AccountStep} {o : AccountOutside} {r : c.Reply} (hc : c.Quiet)
    (h : Steady ok sessionId s.auth) (hexec : exec c o s = some (r, s')) :
    Steady ok sessionId s'.auth := by
  cases c with
  | auth c => exact (Live.quiet h hc (exec_auth hexec).1).current
  | hash password => exact Live.keeps h (exec_keeps id hexec).1 (exec_keeps id hexec).2
  | repository c => exact Live.keeps h (exec_keeps id hexec).1 (exec_keeps id hexec).2
  | redis c => exact Live.keeps h (exec_keeps id hexec).1 (exec_keeps id hexec).2
  | enqueuePasswordReset job =>
      exact Live.keeps h (exec_keeps id hexec).1 (exec_keeps id hexec).2

/-- The session's entry is live and no deletion is due. -/
def EndsSteady (ok : AuthStep → AuthOutside → AuthState → Prop) (sessionId : String)
    {α : Type} (_ : AccountLog) (_ : Except AuthError α) (s : AccountState) : Prop :=
  Steady ok sessionId s.auth

theorem ensures_quiet {p : AccountProgram α} (hp : p.Issues AccountStep.Quiet)
    (h : Steady ok sessionId s.auth) :
    p.Ensures config (within ok) (EndsSteady ok sessionId) s :=
  fun _ _ _ hrun => (hrun.invariant (P := fun s : AccountState => Steady ok sessionId s.auth)
    (fun x s₁ h₁ => Steady.idled h₁ (environment_idled x s₁).auth)
    (fun _ _ _ _ _ h₁ hc _ hexec => ⟨trivial, steady_exec hc h₁ hexec⟩) hp h).1

theorem ensures_modest {p : AccountProgram α} (hp : p.Issues AccountStep.Modest)
    (h : Steady ok sessionId s.auth) :
    p.Ensures config (within ok) (EndsSteady ok sessionId) s :=
  ensures_quiet (hp.mono fun _ hc => hc.plain.quiet) h

/-- A program of the auth services ends here as it ends there. -/
theorem ensures_ofAuth {p : AuthProgram α}
    (hp : p.Ensures config.auth ok (EndsLive ok sessionId) s.auth) :
    (ofAuth p).Ensures config (within ok) (EndsSteady ok sessionId) s :=
  .ofAuth (fun _ _ _ hok => hok) hp fun _ _ _ _ h _ _ => h

end

/-! ### The calls -/

section

variable {α β : Type} {config : AccountConfig} {φ : AccountStep → Prop}

theorem withSecurityStorage_issues {p : AccountProgram α} (hp : p.Issues φ) :
    (AuthService.withSecurityStorage p).Issues φ := by
  refine .tryCatch hp fun e => ?_
  cases e <;> exact issues_throw _

theorem ofAuth_quiet {p : AuthProgram α} (hp : p.Issues AuthStep.Quiet) :
    (ofAuth p).Issues AccountStep.Quiet := ofAuth_issues hp

theorem isCurrentIssuance_modest (purpose : AuthIssuancePurpose)
    (subjectId issuanceId : String) :
    (ofAuth (Auth.RedisAuthStateService.isCurrentIssuance purpose subjectId
      issuanceId)).Issues AccountStep.Modest :=
  ofAuth_issues (.bind (AuthProgram.issues_redis (c := .get (.issuance purpose subjectId))
    trivial) fun _ => AuthProgram.issues_pure _)

theorem parsePassword_issues {φ : AccountStep → Prop} (raw : String) :
    (AuthService.parsePassword raw).Issues φ := by
  rw [AuthService.parsePassword]
  split
  · exact issues_pure _
  · exact issues_throw _

theorem assertPasswordConfirmation_issues {φ : AccountStep → Prop}
    (password confirmation : String) :
    (AuthService.assertPasswordConfirmation password confirmation).Issues φ := by
  rw [AuthService.assertPasswordConfirmation]
  split
  · exact issues_throw _
  · exact issues_pure _

theorem assertWithinRateLimits_issues {φ : AccountStep → Prop} {operation : String}
    (hφ : ∀ dimension hash ttlSeconds,
      φ (.auth (.redis (.incrementRateLimit operation dimension hash ttlSeconds))))
    (email clientIp : String) :
    (AuthService.assertWithinRateLimits config operation email clientIp).Issues φ := by
  have hcount : ∀ dimension hash ttlSeconds, (ofAuth
      (Auth.RedisAuthStateService.incrementRateLimit operation dimension hash
        ttlSeconds)).Issues φ := fun dimension hash ttlSeconds =>
    ofAuth_issues (AuthProgram.issues_redis
      (c := .incrementRateLimit operation dimension hash ttlSeconds) (hφ _ _ _))
  refine withSecurityStorage_issues (.bind (hcount _ _ _) fun emailCount => ?_)
  split
  · exact issues_throw _
  refine .bind (hcount _ _ _) fun ipCount => ?_
  split
  · exact issues_throw _
  · exact issues_pure _

theorem enqueueActivation_modest (userId : String) :
    (AuthService.enqueueActivation userId).Issues AccountStep.Modest :=
  .bind (ofAuth_issues (AuthProgram.issues_generate trivial)) fun _ =>
    .bind (ofAuth_issues (AuthProgram.issues_redis trivial)) fun _ =>
      .bind (issues_activations (c := .set (.resend ACTIVATION_RESEND_PURPOSE userId) ()
        TTL_RESEND_COOLDOWN_SECONDS) trivial) fun _ =>
        ofAuth_issues (AuthProgram.issues_enqueue trivial)

theorem enqueueActivationIfAllowed_modest (userId : String) :
    (AuthService.enqueueActivationIfAllowed userId).Issues AccountStep.Modest := by
  refine .bind (issues_activations (c := .existsKey (.resend ACTIVATION_RESEND_PURPOSE userId))
    trivial) fun (coolingDown : Bool) => ?_
  split
  · exact issues_pure _
  · exact enqueueActivation_modest userId

theorem findAccountByEmail_modest (email : String) :
    (ofAuth (AuthProgram.authRepository (.findAccountByEmail email))).Issues
      AccountStep.Modest :=
  ofAuth_issues (AuthProgram.issues_authRepository trivial)

theorem register_modest (input : RegisterDto) (clientIp : String) :
    (AuthService.register config input clientIp).Issues AccountStep.Modest := by
  refine .bind (ofAuth_issues (parseEmail_issues _)) fun email =>
    .bind (parsePassword_issues _) fun _ => .bind (assertPasswordConfirmation_issues _ _)
      fun _ => .bind (assertWithinRateLimits_issues (fun _ _ _ => trivial) _ _) fun _ =>
        withSecurityStorage_issues (.bind (findAccountByEmail_modest _)
          fun (existing : Option AccountRecord) => ?_)
  rcases existing with _ | existing
  · exact .bind (issues_hash trivial) fun _ => .bind (issues_accountRepository trivial)
      fun account => enqueueActivation_modest _
  · dsimp only
    split
    · exact issues_pure _
    · exact enqueueActivationIfAllowed_modest _

theorem verifyEmail_modest (input : VerifyEmailDto) :
    (AuthService.verifyEmail config input).Issues AccountStep.Modest := by
  refine .bind (ofAuth_issues (parseEmail_issues _)) fun email =>
    withSecurityStorage_issues (.bind (findAccountByEmail_modest _)
      fun (account : Option AccountRecord) => ?_)
  rcases account with _ | account
  · exact issues_throw _
  · dsimp only
    split
    · exact issues_throw _
    refine .bind (issues_activations (c := .consumeActivation account.id
      (config.auth.hmac input.code)) trivial) fun (result : ConsumeActivationResult) => ?_
    split
    · exact issues_throw _
    · exact .bind (issues_accountRepository trivial) fun _ => issues_pure _

theorem resendEmailVerification_modest (input : EmailDto) (clientIp : String) :
    (AuthService.resendEmailVerification config input clientIp).Issues
      AccountStep.Modest := by
  refine .bind (ofAuth_issues (parseEmail_issues _)) fun email =>
    .bind (assertWithinRateLimits_issues (fun _ _ _ => trivial) _ _) fun _ =>
      withSecurityStorage_issues (.bind (findAccountByEmail_modest _)
        fun (existing : Option AccountRecord) => ?_)
  rcases existing with _ | existing
  · exact issues_pure _
  · dsimp only
    split
    · exact issues_pure _
    · exact enqueueActivationIfAllowed_modest _

theorem requestPasswordReset_modest (input : EmailDto) (clientIp : String) :
    (AuthService.requestPasswordReset config input clientIp).Issues AccountStep.Modest := by
  refine .bind (ofAuth_issues (parseEmail_issues _)) fun email =>
    .bind (assertWithinRateLimits_issues (fun _ _ _ => trivial) _ _) fun _ =>
      withSecurityStorage_issues (.bind (findAccountByEmail_modest _)
        fun (account : Option AccountRecord) => ?_)
  rcases account with _ | account
  · exact issues_pure _
  · dsimp only
    split
    · exact issues_pure _
    · exact .bind (ofAuth_issues (AuthProgram.issues_generate trivial)) fun _ =>
        .bind (ofAuth_issues (AuthProgram.issues_redis trivial)) fun _ =>
          .bind (issues_enqueuePasswordReset trivial) fun _ =>
            ofAuth_issues (AuthProgram.issues_audit trivial)

theorem processActivation_plain (data : SendVerificationCodeJobData) :
    (EmailProcessor.processActivation config data).Issues AccountStep.Plain := by
  have hissue : ∀ userId issuanceId account, (EmailProcessor.issueActivationCode config
      userId issuanceId account).Issues AccountStep.Plain := by
    intro userId issuanceId account
    refine .bind (ofAuth_issues (AuthProgram.issues_generate trivial)) fun _ =>
      .bind (ofAuth_issues (AuthProgram.issues_now trivial)) fun _ =>
        .bind (issues_activations trivial) fun _ =>
          .bind ((isCurrentIssuance_modest _ _ _).mono fun _ h => h.plain) fun stillCurrent => ?_
    split
    · exact ofAuth_issues (AuthProgram.issues_sendMail trivial)
    · exact issues_pure _
  rw [EmailProcessor.processActivation]
  split
  · exact issues_pure _
  split
  · exact issues_pure _
  refine .bind ((isCurrentIssuance_modest _ _ _).mono fun _ h => h.plain) fun current => ?_
  split
  · exact issues_pure _
  refine .bind (ofAuth_issues (AuthProgram.issues_authRepository trivial))
    fun (account : Option AccountRecord) => ?_
  rcases account with _ | account
  · exact issues_pure _
  · exact hissue _ _ account

theorem processPasswordReset_modest (data : SendPasswordResetJobData) :
    (EmailProcessor.processPasswordReset config data).Issues AccountStep.Modest := by
  have hissue : ∀ account, (EmailProcessor.issueResetToken config data.userId
      data.issuanceId account).Issues AccountStep.Modest := by
    intro account
    refine .bind (ofAuth_issues (AuthProgram.issues_generate trivial)) fun _ =>
      .bind (ofAuth_issues (AuthProgram.issues_now trivial)) fun _ =>
        .bind (issues_accountRepository trivial) fun _ =>
          .bind (isCurrentIssuance_modest _ _ _) fun stillCurrent => ?_
    split
    · exact ofAuth_issues (AuthProgram.issues_sendMail trivial)
    · exact issues_pure _
  refine .bind (isCurrentIssuance_modest _ _ _) fun current => ?_
  split
  · exact issues_pure _
  refine .bind (ofAuth_issues (AuthProgram.issues_authRepository trivial))
    fun (account : Option AccountRecord) => ?_
  rcases account with _ | account
  · exact issues_pure _
  · exact hissue account

theorem processVerificationCode_quiet (data : SendVerificationCodeJobData) :
    (EmailProcessor.processVerificationCode config data).Issues AccountStep.Quiet := by
  rw [EmailProcessor.processVerificationCode]
  split
  · exact (processActivation_plain data).mono fun _ h => h.quiet
  · exact ofAuth_quiet (processLogin_quiet data)

end

section

variable {config : AccountConfig} {ok : AuthStep → AuthOutside → AuthState → Prop}
  (hok : ∀ c o s, ok (.repository c) o s → o.fault = .none) {sessionId : String}
  {s s' : AccountState}

include hok

theorem replacePassword_steady (userId password : String)
    (h : Steady ok sessionId s.auth) :
    (AuthService.replacePassword userId password).Ensures config (within ok)
      (EndsSteady ok sessionId) s :=
  .bind (ensures_quiet (issues_hash trivial) h)
    (fun _ _ _ h₁ => .bind (ensures_quiet (issues_accountRepository trivial) h₁)
      (fun _ _ _ h₂ => .bind (ensures_ofAuth (revokeAll_live hok userId .passwordReset h₂))
        (fun _ _ _ h₃ => ensures_quiet
          (ofAuth_quiet (AuthProgram.issues_audit ⟨trivial, rfl⟩)) h₃)
        fun _ _ _ h₃ => h₃)
      fun _ _ _ h₂ => h₂)
    fun _ _ _ h₁ => h₁

theorem resetPassword_steady (input : ResetPasswordDto) (h : Steady ok sessionId s.auth) :
    (AuthService.resetPassword config input).Ensures config (within ok)
      (EndsSteady ok sessionId) s := by
  refine .bind (ensures_quiet (parsePassword_issues _) h) (fun _ _ s₁ h₁ => ?_)
    fun _ _ _ h₁ => h₁
  refine .bind (ensures_quiet (assertPasswordConfirmation_issues _ _) h₁)
    (fun _ _ s₂ h₂ => ?_) fun _ _ _ h₂ => h₂
  refine .bind (ensures_quiet (issues_accountRepository trivial) h₂)
    (fun _ (consumed : Option PasswordResetTokenRecord) s₃ h₃ => ?_) fun _ _ _ h₃ => h₃
  rcases consumed with _ | consumed
  · exact ensures_quiet (issues_throw _) h₃
  · exact replacePassword_steady hok _ _ h₃

theorem call_steady (call : AccountCall) (h : Steady ok sessionId s.auth) :
    (call.program config).Ensures config (within ok) (EndsSteady ok sessionId) s := by
  cases call with
  | auth call => exact ensures_ofAuth (call_live hok call h)
  | register input clientIp => exact .map (ensures_modest (register_modest input clientIp) h)
  | verifyEmail input => exact .map (ensures_modest (verifyEmail_modest input) h)
  | resendEmailVerification input clientIp =>
      exact .map (ensures_modest (resendEmailVerification_modest input clientIp) h)
  | requestPasswordReset input clientIp =>
      exact .map (ensures_modest (requestPasswordReset_modest input clientIp) h)
  | resetPassword input => exact .map (resetPassword_steady hok input h)
  | processVerificationCode data =>
      exact .map (ensures_quiet (processVerificationCode_quiet data) h)
  | processPasswordReset data =>
      exact .map (ensures_modest (processPasswordReset_modest data) h)

end

/-! ### Serial runs -/

section

variable {config : AccountConfig} {ok : AuthStep → AuthOutside → AuthState → Prop}
  {sessionId : String} {s s' : AccountState}

theorem exec_sound {c : AccountStep} {o : AccountOutside} {r : c.Reply}
    (h : exec c o s = some (r, s')) (hs : Sound s.auth.db) :
    Sound s'.auth.db ∧ ∀ sessionId, Ended s.auth.db sessionId →
      Ended s'.auth.db sessionId := by
  by_cases hc : c.IsAuth
  · cases c with
    | auth c =>
        obtain ⟨hsound, hsince⟩ := (exec_acts (exec_auth h).1).since hs
        exact ⟨hsound, fun _ => hsince.ended⟩
    | _ => exact hc.elim
  · obtain ⟨hkeeps, -⟩ := exec_keeps hc h
    exact ⟨hkeeps.sound hs, fun _ => hkeeps.ended.2⟩

/-- A run keeps the tables sound and ended sessions ended. -/
theorem serially_ended {start : AccountState → AccountCall → Prop}
    {outcomes : AccountCall → AccountStep → AccountOutside → AccountState → Prop}
    (h : (accountService config).Serially start outcomes s s') (hs : Sound s.auth.db) :
    Sound s'.auth.db ∧ ∀ sessionId, Ended s.auth.db sessionId →
      Ended s'.auth.db sessionId := by
  refine h.invariant_of_exec (P := fun s' => Sound s'.auth.db ∧
    ∀ sessionId, Ended s.auth.db sessionId → Ended s'.auth.db sessionId)
    (fun x s₁ h₁ => ?_) (fun _ c o s₁ r s₂ h₁ _ hexec => ?_) ⟨hs, fun _ h => h⟩
  · have hdb : ((accountService config).environment x s₁).auth.db = s₁.auth.db :=
      (environment_idled x s₁).auth.db
    rw [hdb]
    exact h₁
  · obtain ⟨hsound, hended⟩ := exec_sound hexec h₁.1
    exact ⟨hsound, fun id hid => hended id (h₁.2 id hid)⟩

theorem steady_serially (hok : ∀ c o s, ok (.repository c) o s → o.fault = .none)
    (hs : Steady ok sessionId s.auth)
    (h : (accountService config).Serially (fun _ _ => True) (fun _ => within ok) s s') :
    Steady ok sessionId s'.auth :=
  h.invariant (P := fun s : AccountState => Steady ok sessionId s.auth)
    (fun x s₁ h₁ => Steady.idled h₁ (environment_idled x s₁).auth)
    (fun _ call h₁ _ => call_steady hok call h₁) hs

theorem validate_of_ended (hok : ∀ c o s, ok (.repository c) o s → o.fault = .none)
    (h : Steady ok sessionId s.auth) (hended : Ended s.auth.db sessionId) :
    (AccountCall.program config (.auth (.validateSession sessionId))).Ensures config
      (within ok) (fun _ v _ => v = .ok (.principal none)) s := by
  have hnone : (AuthCall.program config.auth (.validateSession sessionId)).Ensures
      config.auth ok (fun _ v _ => v = .ok (.principal none)) s.auth :=
    .map ((validateSession_of_ended hok h hended).mono fun _ r _ hr => by rw [hr]; rfl)
  exact .ofAuth (fun _ _ _ h => h) hnone fun _ _ _ _ h _ _ => h

/-- A session that a completed call has ended, among them `resetPassword` and
`completeLogin`, is not valid in any later state when Redis has not refused to delete
its entry in this call, whatever Redis does before and after it. -/
theorem completed_call_cuts_off_access (config : AccountConfig)
    (users : List AccountRecord) {call : AccountCall} {sessionId : String}
    {s₁ s₂ s₃ s₄ : AccountState} {es es' : AccountLog} {v : AuthValue} {w : AuthResult}
    (h₁ : (accountService config).Serially (fun _ _ => True)
      (fun _ => within transactionsWork) (AccountState.init users) s₁)
    (hcall : (accountService config).Executes (within (deletionReaches sessionId))
      ((accountService config).body call) s₁ es (.ok v) s₂)
    (hactive : Active s₁.auth.db sessionId) (hended : Ended s₂.auth.db sessionId)
    (hlater : (accountService config).Serially (fun _ _ => True)
      (fun _ => within transactionsWork) s₂ s₃)
    (hvalidate : (accountService config).Executes (within transactionsWork)
      ((accountService config).body (.auth (.validateSession sessionId))) s₃ es' w s₄) :
    w = .ok (.principal none) := by
  have hworks : ∀ c o s, transactionsWork (.repository c) o s → o.fault = .none :=
    fun _ _ _ h => h
  have hguarded : Guarded (deletionReaches sessionId) sessionId := fun o s e hdel hfault =>
    hdel.2 e rfl hfault
  have hsound₁ := (serially_ended h₁ (sound_init users)).1
  have hsteady₁ : Steady (deletionReaches sessionId) sessionId s₁.auth :=
    ⟨rfl, hsound₁, .inl hguarded, fun _ _ => .inl hactive⟩
  have hsteady₂ := call_steady (fun _ _ _ h => h.1) call hsteady₁ _ _ _ hcall
  -- from here on nothing is assumed of the deletions
  have hgone : Steady transactionsWork sessionId s₂.auth := by
    refine ⟨rfl, hsteady₂.sound, .inr hended, fun cached hget => ?_⟩
    rw [hsteady₂.get_session hended] at hget
    cases hget
  have hended₃ := (serially_ended hlater hsteady₂.sound).2 sessionId hended
  exact validate_of_ended hworks (steady_serially hworks hgone hlater) hended₃ _ _ _
    hvalidate

end

instance decidableTransactionsWork (c : AuthStep) (o : AuthOutside) (s : AuthState) :
    Decidable (transactionsWork c o s) :=
  match c with
  | .repository _ => inferInstanceAs (Decidable (o.fault = .none))
  | .now | .generate _ | .redis _ | .enqueue _ | .sendMail _ | .audit _ => isTrue trivial

instance decidableWithin (c : AccountStep) (o : AccountOutside) (s : AccountState) :
    Decidable (within transactionsWork c o s) :=
  match c with
  | .auth c => decidableTransactionsWork c o.auth s.auth
  | .repository _ => inferInstanceAs (Decidable (o.auth.fault = .none))
  | .hash _ | .redis _ | .enqueuePasswordReset _ => isTrue trivial

theorem within_of_noFaults {ok : AuthStep → AuthOutside → AuthState → Prop}
    (hok : ∀ c o s, o.fault = .none → ok c o s) {c : AccountStep} {o : AccountOutside}
    {s : AccountState} (h : noFaults c o s) : within ok c o s := by
  cases c with
  | auth c => exact hok c o.auth s.auth h
  | repository c => exact h
  | hash password => trivial
  | redis c => trivial
  | enqueuePasswordReset job => trivial

theorem transactionsWork_of_none {c : AuthStep} {o : AuthOutside} {s : AuthState}
    (h : o.fault = .none) : transactionsWork c o s := by
  cases c <;> first | exact h | trivial

/-- The reset of the password succeeds, with the outcome `deletion` of the deletion of
the session's entry. -/
def resetOutcomes (deletion : Fault) : List AccountOutside :=
  List.replicate 4 (accountOutcome "h" .none) ++
    [accountOutcome "h" deletion, accountOutcome "h" .none]

/-- Redis refuses one deletion during a reset that succeeds. The session that the
reset has revoked stays valid. -/
theorem refused_deletion_leaves_access :
    (accountService exampleAccounts).Serially (fun _ _ => True)
        (fun _ => within transactionsWork) (AccountState.init [exampleUser])
        afterResetMail ∧
      Active afterResetMail.auth.db "a" ∧
      ∃ es s₂ es' s₃,
        (accountService exampleAccounts).Executes (within transactionsWork)
          ((accountService exampleAccounts).body (.resetPassword exampleReset))
          afterResetMail es (.ok .done) s₂ ∧
        (es.filter fun e => e.2.auth.fault ≠ .none).length = 1 ∧
        Ended s₂.auth.db "a" ∧
        (accountService exampleAccounts).Executes noFaults
          ((accountService exampleAccounts).body (.auth (.validateSession "a"))) s₂ es'
          (.ok (.principal (some ⟨"u", "USER", "a"⟩))) s₃ :=
  ⟨(Semantics.serially_after _ _).mono fun _ _ _ _ =>
      within_of_noFaults fun _ _ _ => transactionsWork_of_none,
    ⟨_, List.mem_singleton_self _, rfl, rfl⟩, _, _, _, _,
    Semantics.executes_of_perform (resetOutcomes (.refused (.error "down"))) rfl,
    by decide, ⟨_, List.mem_singleton_self _, rfl, rfl⟩,
    Semantics.executes_of_perform (List.replicate 2 (accountOutcome "" .none)) rfl⟩

theorem completed_reset_cuts_off_access : ∃ s,
    Ended s.auth.db "a" ∧ ∀ s' es w s'',
      (accountService exampleAccounts).Serially (fun _ _ => True)
        (fun _ => within transactionsWork) s s' →
      (accountService exampleAccounts).Executes (within transactionsWork)
        ((accountService exampleAccounts).body (.auth (.validateSession "a"))) s' es w s'' →
      w = .ok (.principal none) := by
  have hrun : (accountService exampleAccounts).Serially (fun _ _ => True)
      (fun _ => within transactionsWork) (AccountState.init [exampleUser])
      afterResetMail :=
    (Semantics.serially_after _ _).mono fun _ _ _ _ =>
      within_of_noFaults fun _ _ _ => transactionsWork_of_none
  obtain ⟨es, s, hreset, hended⟩ : ∃ es s,
      (accountService exampleAccounts).Executes noFaults
        ((accountService exampleAccounts).body (.resetPassword exampleReset))
        afterResetMail es (.ok .done) s ∧ Ended s.auth.db "a" :=
    ⟨_, _, Semantics.executes_of_perform (resetOutcomes .none) rfl,
      ⟨_, List.mem_singleton_self _, rfl, rfl⟩⟩
  refine ⟨s, hended, fun s' es w s'' hlater hvalidate => ?_⟩
  refine completed_call_cuts_off_access exampleAccounts [exampleUser] hrun
    (hreset.mono fun _ _ _ => within_of_noFaults fun _ _ _ h => ⟨transactionsWork_of_none h,
      fun _ _ hrefused => ?_⟩) ⟨_, List.mem_singleton_self _, rfl, rfl⟩ hended hlater
    hvalidate
  rw [h] at hrefused
  cases hrefused

end Account

end Shortlink
