import Shortlink.Account.ResendCooldown
import Shortlink.Account.FailureLimit
import Shortlink.Auth.LoginMail

/-!
# What a call shows before it acts on an account

An account is created, activated or given another password, a secret is stored and a mail is
sent only after certain answers. `Warrant` names them for each of these steps, and
`program_warranted` finds them in the trace of every call.
-/

namespace Shortlink

namespace Account

open Shortlink.Storage Shortlink.Interaction Shortlink.Expiring Shortlink.Auth AccountProgram

abbrev AccountExchange : Type := Exchange AccountStep AccountStep.Reply

/-! ### Warrants -/

section

variable (config : AccountConfig) (call : AccountCall) (trace : AccountTrace)

/-- The call registers the address, and the hash was drawn for the password of its input. -/
def Registers (new : CreatePendingAccountInput) : Prop :=
  ∃ input clientIp, call = .register input clientIp ∧
    createEmail config.auth.toLowerCase input.email = some new.email ∧
    meetsPolicy input.password.toList = true ∧
    (⟨.hash input.password, new.passwordHash⟩ : AccountExchange) ∈ trace

/-- The call verifies the address of the account, and has consumed the code of its input. -/
def Verifies (userId : String) : Prop :=
  ∃ input email account, call = .verifyEmail input ∧
    createEmail config.auth.toLowerCase input.email = some email ∧
    (⟨.auth (.repository (.findAccountByEmail email)), Except.ok (some account)⟩ :
      AccountExchange) ∈ trace ∧
    account.id = userId ∧
    (⟨.redis (.consumeActivation userId (config.auth.hmac input.code)),
      Except.ok .consumed⟩ : AccountExchange) ∈ trace

/-- The call resets the password, and has consumed the token of its input. -/
def Resets (userId passwordHash : String) : Prop :=
  ∃ input token, call = .resetPassword input ∧
    meetsPolicy input.password.toList = true ∧
    (⟨.repository (.consumePasswordResetToken (config.auth.hashToken input.token)),
      Except.ok (some token)⟩ : AccountExchange) ∈ trace ∧
    PasswordResetTokenRecord.userId token = userId ∧
    (⟨.hash input.password, passwordHash⟩ : AccountExchange) ∈ trace

/-- The call is an attempt of the worker to activate the account, and has drawn the code. -/
def DrewCode (userId codeHmac : String) : Prop :=
  ∃ data code, call = .processVerificationCode data ∧ data.userId = some userId ∧
    (⟨.auth (.generate .verificationCode), code⟩ : AccountExchange) ∈ trace ∧
    config.auth.hmac code = codeHmac

/-- The call is an attempt of the worker to reset the password, and has drawn the token. -/
def DrewToken (userId tokenHash : String) : Prop :=
  ∃ data token, call = .processPasswordReset data ∧ data.userId = userId ∧
    (⟨.auth (.generate .opaqueToken), token⟩ : AccountExchange) ∈ trace ∧
    config.auth.hashToken token = tokenHash

/-- The mail goes to the address, and what it contains was drawn by the same call and stored
for the account. -/
inductive Mails (userId email : String) : Mail → Prop
  | activation (data : SendVerificationCodeJobData) (code : String) (resendAvailableAt : ℕ)
      (hcall : call = .processVerificationCode data) (huser : data.userId = some userId)
      (hdrawn : (⟨.auth (.generate .verificationCode), code⟩ : AccountExchange) ∈ trace)
      (hstored : (⟨.redis (.set (.activation userId) (⟨config.auth.hmac code, 0,
        resendAvailableAt⟩ : ActivationPayload) TTL_ONE_HOUR_SECONDS), Except.ok ()⟩ :
          AccountExchange) ∈ trace) :
      Mails userId email (EmailProcessor.activationMail email code)
  | login (data : SendVerificationCodeJobData) (challengeId code : String) (expiresAt : ℕ)
      (hcall : call = .processVerificationCode data ∨ call = .auth (.processLogin data))
      (hchallenge : data.challengeId = some challengeId)
      (hdrawn : (⟨.auth (.generate .verificationCode), code⟩ : AccountExchange) ∈ trace)
      (hstored : (⟨.auth (.redis (.createLoginChallenge userId challengeId
        ⟨userId, config.auth.hmac code, expiresAt, false⟩)), Except.ok ()⟩ :
          AccountExchange) ∈ trace) :
      Mails userId email (Auth.EmailProcessor.loginMail email code)
  | reset (data : SendPasswordResetJobData) (token : String) (expiresAt : ℕ)
      (row : PasswordResetTokenRecord) (hcall : call = .processPasswordReset data)
      (huser : data.userId = userId)
      (hdrawn : (⟨.auth (.generate .opaqueToken), token⟩ : AccountExchange) ∈ trace)
      (hstored : (⟨.repository (.createPasswordResetToken userId
        ⟨config.auth.hashToken token, expiresAt⟩), Except.ok row⟩ : AccountExchange) ∈ trace) :
      Mails userId email (EmailProcessor.resetMail config email token)

/-- What a call shows before a step. -/
def Warrant : AccountStep → Prop
  | .repository (.createPendingAccount new) => Registers config call trace new
  | .repository (.activateAccount userId) => Verifies config call trace userId
  | .repository (.updatePasswordHash userId passwordHash) =>
      Resets config call trace userId passwordHash
  | .repository (.createPasswordResetToken userId new) =>
      DrewToken config call trace userId new.tokenHash
  | .redis (.set (.activation userId) payload _) =>
      DrewCode config call trace userId (ActivationPayload.codeHmac payload)
  | .auth (.sendMail mail) => ∃ userId account,
      (⟨.auth (.repository (.findAccountById userId)), Except.ok (some account)⟩ :
        AccountExchange) ∈ trace ∧
        Mails config call trace userId (AccountRecord.email account) mail
  | _ => True

end

theorem Mails.mono {config : AccountConfig} {call : AccountCall} {trace trace' : AccountTrace}
    {userId email : String} {mail : Mail} (h : Mails config call trace userId email mail)
    (hsub : trace ⊆ trace') : Mails config call trace' userId email mail := by
  cases h with
  | activation data code resendAvailableAt hcall huser hdrawn hstored =>
      exact .activation data code resendAvailableAt hcall huser (hsub hdrawn) (hsub hstored)
  | login data challengeId code expiresAt hcall hchallenge hdrawn hstored =>
      exact .login data challengeId code expiresAt hcall hchallenge (hsub hdrawn) (hsub hstored)
  | reset data token expiresAt row hcall huser hdrawn hstored =>
      exact .reset data token expiresAt row hcall huser (hsub hdrawn) (hsub hstored)

/-- The step needs no warrant. -/
def AccountStep.Free : AccountStep → Prop
  | .repository _ => False
  | .redis (.set (.activation _) _ _) => False
  | .auth c => c.Mailless
  | _ => True

theorem AccountStep.Free.warrant {config : AccountConfig} {call : AccountCall}
    (trace : AccountTrace) (c : AccountStep) (h : c.Free) : Warrant config call trace c := by
  cases c with
  | auth c =>
      cases c with
      | sendMail mail => exact h.elim
      | _ => trivial
  | repository c => exact h.elim
  | redis c =>
      cases c with
      | set key value ttlSeconds =>
          cases key with
          | activation userId => exact h.elim
          | resend purpose userId => trivial
      | _ => trivial
  | _ => trivial

/-! ### The steps -/

section

variable {α β : Type} {config : AccountConfig} {call : AccountCall}
  {may : AccountTrace → AccountStep → Prop} {trace : AccountTrace}

theorem proceeds_generate {secret : Secret} {post : AccountTrace → String → Prop}
    (hmay : may trace (.auth (.generate secret)))
    (hpost : ∀ value : String, post (⟨.auth (.generate secret), value⟩ :: trace) value) :
    (ofAuth (AuthProgram.generate secret)).Proceeds may post trace := by
  refine ⟨hmay, fun value a ha => ?_⟩
  obtain rfl := Except.ok.inj ha
  exact hpost value

theorem proceeds_hash {password : String} {post : AccountTrace → String → Prop}
    (hmay : may trace (.hash password))
    (hpost : ∀ value : String, post (⟨.hash password, value⟩ :: trace) value) :
    (AccountProgram.hash password).Proceeds may post trace := by
  refine ⟨hmay, fun value a ha => ?_⟩
  obtain rfl := Except.ok.inj ha
  exact hpost value

theorem proceeds_authRepository {c : AuthCommand} {post : AccountTrace → c.Res → Prop}
    (hmay : may trace (.auth (.repository c)))
    (hpost : ∀ a, post (⟨.auth (.repository c), Except.ok a⟩ :: trace) a) :
    (ofAuth (AuthProgram.authRepository c)).Proceeds may post trace := by
  refine ⟨hmay, fun r a ha => ?_⟩
  cases r with
  | ok b =>
      obtain rfl := Except.ok.inj ha
      exact hpost b
  | error e => cases ha

theorem proceeds_accountRepository {c : AccountCommand} {post : AccountTrace → c.Res → Prop}
    (hmay : may trace (.repository c))
    (hpost : ∀ a, post (⟨.repository c, Except.ok a⟩ :: trace) a) :
    (accountRepository c).Proceeds may post trace := by
  refine ⟨hmay, fun r a ha => ?_⟩
  cases r with
  | ok b =>
      obtain rfl := Except.ok.inj ha
      exact hpost b
  | error e => cases ha

theorem proceeds_activations {c : ActivationCommand} {post : AccountTrace → c.Res → Prop}
    (hmay : may trace (.redis c))
    (hpost : ∀ a, post (⟨.redis c, Except.ok a⟩ :: trace) a) :
    (activations c).Proceeds may post trace := by
  refine ⟨hmay, fun r a ha => ?_⟩
  cases r with
  | ok b =>
      obtain rfl := Except.ok.inj ha
      exact hpost b
  | error e => cases ha

theorem proceeds_sendMail {mail : Mail} {post : AccountTrace → Unit → Prop}
    (hmay : may trace (.auth (.sendMail mail)))
    (hpost : ∀ a : Unit, post (⟨.auth (.sendMail mail), Except.ok a⟩ :: trace) a) :
    (ofAuth (AuthProgram.sendMail mail)).Proceeds may post trace := by
  refine ⟨hmay, fun r a ha => ?_⟩
  cases r with
  | ok b => exact hpost a
  | error e => cases ha

theorem proceeds_withSecurityStorage {p : AccountProgram α} {post : AccountTrace → α → Prop}
    (hp : p.Proceeds may post trace) :
    (AuthService.withSecurityStorage p).Proceeds may post trace := by
  refine hp.rethrow fun e => ?_
  cases e <;> exact ⟨_, rfl⟩

theorem proceeds_parseEmail {raw : String} {f : String → AccountProgram α}
    {post : AccountTrace → α → Prop}
    (hf : ∀ email, createEmail config.auth.toLowerCase raw = some email →
      (f email).Proceeds may post trace) :
    (ofAuth (Auth.AuthService.parseEmail config.auth raw) >>= f).Proceeds may post trace := by
  rw [Auth.AuthService.parseEmail]
  cases hemail : createEmail config.auth.toLowerCase raw with
  | none => exact .bind (Throwing.proceeds_throw _)
  | some email => exact .bind (Throwing.proceeds_pure (hf email hemail))

theorem proceeds_parsePassword {raw : String} {f : Unit → AccountProgram α}
    {post : AccountTrace → α → Prop}
    (hf : meetsPolicy raw.toList = true → (f ()).Proceeds may post trace) :
    (AuthService.parsePassword raw >>= f).Proceeds may post trace := by
  rw [AuthService.parsePassword]
  split
  · rename_i hpolicy
    exact .bind (Throwing.proceeds_pure (hf hpolicy))
  · exact .bind (Throwing.proceeds_throw _)

/-- What follows steps that need no warrant. -/
theorem Free.then_proceeds {p : AccountProgram α} {f : α → AccountProgram β}
    {post : AccountTrace → β → Prop} (hp : p.Issues AccountStep.Free)
    (hf : ∀ trace' a, trace <:+ trace' → (f a).Proceeds (Warrant config call) post trace') :
    (p >>= f).Proceeds (Warrant config call) post trace :=
  Throwing.Issues.then_proceeds hp AccountStep.Free.warrant hf

theorem Free.proceeds {p : AccountProgram α} (hp : p.Issues AccountStep.Free) :
    p.Proceeds (Warrant config call) (fun _ _ => True) trace :=
  (Throwing.Issues.proceeds hp AccountStep.Free.warrant).mono fun _ _ _ => trivial

theorem isCurrentIssuance_free (purpose : AuthIssuancePurpose) (subjectId issuanceId : String) :
    (ofAuth (Auth.RedisAuthStateService.isCurrentIssuance purpose subjectId
      issuanceId)).Issues AccountStep.Free :=
  ofAuth_issues (isCurrentIssuance_plain _ _ _).mailless

theorem enqueueActivation_free (userId : String) :
    (AuthService.enqueueActivation userId).Issues AccountStep.Free :=
  .bind (ofAuth_issues (AuthProgram.issues_generate trivial)) fun _ =>
    .bind (ofAuth_issues (AuthProgram.issues_redis trivial)) fun _ =>
      .bind (issues_activations (c := .set (.resend _ _) () _) trivial) fun _ =>
        ofAuth_issues (AuthProgram.issues_enqueue trivial)

theorem enqueueActivationIfAllowed_free (userId : String) :
    (AuthService.enqueueActivationIfAllowed userId).Issues AccountStep.Free := by
  refine .bind (issues_activations (c := .existsKey _) trivial) fun (coolingDown : Bool) => ?_
  split
  · exact issues_pure _
  · exact enqueueActivation_free userId

theorem assertWithinRateLimits_free (operation email clientIp : String) :
    (AuthService.assertWithinRateLimits config operation email clientIp).Issues
      AccountStep.Free :=
  assertWithinRateLimits_issues (fun _ _ _ => trivial) _ _

/-! ### The calls -/

theorem register_warranted (input : RegisterDto) (clientIp : String) :
    (AuthService.register config input clientIp).Proceeds
      (Warrant config (.register input clientIp)) (fun _ _ => True) [] := by
  refine proceeds_parseEmail fun email hemail => proceeds_parsePassword fun hpolicy => ?_
  refine Free.then_proceeds (assertPasswordConfirmation_issues _ _) fun _ _ _ => ?_
  refine Free.then_proceeds (assertWithinRateLimits_free _ _ _) fun _ _ _ => ?_
  refine proceeds_withSecurityStorage (.bind (proceeds_authRepository trivial
    fun (existing : Option AccountRecord) => ?_))
  rcases existing with _ | existing
  · refine .bind (proceeds_hash trivial fun passwordHash => .bind (proceeds_accountRepository
      ⟨input, clientIp, rfl, hemail, hpolicy, List.mem_cons_self⟩ fun account => ?_))
    exact Free.proceeds (enqueueActivation_free _)
  · dsimp only
    split
    · exact Throwing.proceeds_pure trivial
    · exact Free.proceeds (enqueueActivationIfAllowed_free _)

theorem verifyEmail_warranted (input : VerifyEmailDto) :
    (AuthService.verifyEmail config input).Proceeds (Warrant config (.verifyEmail input))
      (fun _ _ => True) [] := by
  refine proceeds_parseEmail fun email hemail => ?_
  refine proceeds_withSecurityStorage (.bind (proceeds_authRepository trivial
    fun (account : Option AccountRecord) => ?_))
  rcases account with _ | account
  · exact Throwing.proceeds_throw _
  dsimp only
  split
  · exact Throwing.proceeds_throw _
  refine .bind (proceeds_activations trivial fun (result : ConsumeActivationResult) => ?_)
  split
  · exact Throwing.proceeds_throw _
  rename_i hconsumed
  obtain rfl := not_not.1 hconsumed
  exact .bind (proceeds_accountRepository ⟨input, email, account, rfl, hemail,
    List.mem_cons_of_mem _ List.mem_cons_self, rfl, List.mem_cons_self⟩
      fun _ => Throwing.proceeds_pure trivial)

theorem resendEmailVerification_free (input : EmailDto) (clientIp : String) :
    (AuthService.resendEmailVerification config input clientIp).Issues AccountStep.Free := by
  refine .bind (ofAuth_issues (parseEmail_plain _).mailless) fun email =>
    .bind (assertWithinRateLimits_free _ _ _) fun _ => withSecurityStorage_issues
      (.bind (ofAuth_issues (AuthProgram.issues_authRepository trivial))
        fun (existing : Option AccountRecord) => ?_)
  rcases existing with _ | existing
  · exact issues_pure _
  dsimp only
  split
  · exact issues_pure _
  · exact enqueueActivationIfAllowed_free _

theorem requestPasswordReset_free (input : EmailDto) (clientIp : String) :
    (AuthService.requestPasswordReset config input clientIp).Issues AccountStep.Free := by
  refine .bind (ofAuth_issues (parseEmail_plain _).mailless) fun email =>
    .bind (assertWithinRateLimits_free _ _ _) fun _ => withSecurityStorage_issues
      (.bind (ofAuth_issues (AuthProgram.issues_authRepository trivial))
        fun (account : Option AccountRecord) => ?_)
  rcases account with _ | account
  · exact issues_pure _
  dsimp only
  split
  · exact issues_pure _
  · exact .bind (ofAuth_issues (AuthProgram.issues_generate trivial)) fun _ =>
      .bind (ofAuth_issues (AuthProgram.issues_redis trivial)) fun _ =>
        .bind (issues_enqueuePasswordReset trivial) fun _ =>
          ofAuth_issues (AuthProgram.issues_audit trivial)

theorem resetPassword_warranted (input : ResetPasswordDto) :
    (AuthService.resetPassword config input).Proceeds (Warrant config (.resetPassword input))
      (fun _ _ => True) [] := by
  refine proceeds_parsePassword fun hpolicy => ?_
  refine Free.then_proceeds (assertPasswordConfirmation_issues _ _) fun _ _ _ => ?_
  refine .bind (proceeds_accountRepository trivial
    fun (token : Option PasswordResetTokenRecord) => ?_)
  rcases token with _ | token
  · exact Throwing.proceeds_throw _
  refine .bind (proceeds_hash trivial fun passwordHash => .bind (proceeds_accountRepository
    ⟨input, token, rfl, hpolicy, List.mem_cons_of_mem _ List.mem_cons_self, rfl,
      List.mem_cons_self⟩ fun _ => ?_))
  have hmailless :
      ((AuthCall.revokeAll token.userId .passwordReset).program config.auth).Issues
        AuthStep.Mailless := program_mailless fun _ h => by cases h
  refine Free.then_proceeds (ofAuth_issues (Throwing.issues_map.1 hmailless)) fun _ _ _ => ?_
  exact Free.proceeds (ofAuth_issues (AuthProgram.issues_audit trivial))

theorem ofAuth_warranted {p : AuthProgram α} {authCall : AuthCall}
    (hcall : ∀ data, authCall = .processLogin data →
      call = .processVerificationCode data ∨ call = .auth (.processLogin data))
    (hp : p.Obeys (MailMay config.auth authCall) (fun _ _ => True) []) :
    (ofAuth p).Proceeds (Warrant config call) (fun _ _ => True) [] := by
  refine Program.Obeys.mono (fun trace c hc => ?_) (fun _ _ _ _ _ => trivial)
    (Program.embed_obeys authTrace (fun _ _ _ => rfl) hp)
  obtain ⟨c, rfl, hmay⟩ := hc
  cases c with
  | sendMail mail =>
      obtain ⟨data, userId, challengeId, code, expiresAt, account, hdata, hchallenge, rfl,
        hfound, hdrawn, hstored⟩ := hmay
      exact ⟨userId, account, mem_of_authTrace hfound, .login data challengeId code expiresAt
        (hcall data hdata) hchallenge (mem_of_authTrace hdrawn) (mem_of_authTrace hstored)⟩
  | _ => trivial

theorem issueActivationCode_warranted {data : SendVerificationCodeJobData}
    {userId issuanceId : String} {account : AccountRecord} (huser : data.userId = some userId)
    (hfound : (⟨.auth (.repository (.findAccountById userId)), Except.ok (some account)⟩ :
      AccountExchange) ∈ trace) :
    (EmailProcessor.issueActivationCode config userId issuanceId account).Proceeds
      (Warrant config (.processVerificationCode data)) (fun _ _ => True) trace := by
  refine .bind (proceeds_generate trivial fun code => ?_)
  refine Free.then_proceeds (ofAuth_issues (AuthProgram.issues_now trivial))
    fun trace₁ now h₁ => ?_
  have hdrawn := h₁.subset List.mem_cons_self
  refine .bind (proceeds_activations (c := .set (.activation userId)
    (⟨config.auth.hmac code, 0, now + EmailProcessor.RESEND_COOLDOWN_MS⟩ : ActivationPayload)
      TTL_ONE_HOUR_SECONDS) ⟨data, code, rfl, huser, hdrawn, rfl⟩ fun _ => ?_)
  refine Free.then_proceeds (isCurrentIssuance_free _ _ _) fun trace₂ stillCurrent h₂ => ?_
  split
  · refine proceeds_sendMail ⟨userId, account, ?_, .activation data code
      (now + EmailProcessor.RESEND_COOLDOWN_MS) rfl huser ?_ ?_⟩ fun _ => trivial
    · exact h₂.subset (List.mem_cons_of_mem _ (h₁.subset (List.mem_cons_of_mem _ hfound)))
    · exact h₂.subset (List.mem_cons_of_mem _ hdrawn)
    · exact h₂.subset List.mem_cons_self
  · exact Throwing.proceeds_pure trivial

theorem processVerificationCode_warranted (data : SendVerificationCodeJobData) :
    (EmailProcessor.processVerificationCode config data).Proceeds
      (Warrant config (.processVerificationCode data)) (fun _ _ => True) [] := by
  rw [EmailProcessor.processVerificationCode]
  split
  · rw [EmailProcessor.processActivation]
    cases huser : data.userId with
    | none => exact Throwing.proceeds_pure trivial
    | some userId =>
        dsimp only
        split
        · exact Throwing.proceeds_pure trivial
        refine Free.then_proceeds (isCurrentIssuance_free _ _ _) fun _ current _ => ?_
        split
        · exact Throwing.proceeds_pure trivial
        refine .bind (proceeds_authRepository trivial
          fun (account : Option AccountRecord) => ?_)
        rcases account with _ | account
        · exact Throwing.proceeds_pure trivial
        · exact issueActivationCode_warranted huser List.mem_cons_self
  · exact ofAuth_warranted (fun _ h => by cases h; exact .inl rfl)
      (processLogin_mails config.auth data)

theorem issueResetToken_warranted {data : SendPasswordResetJobData} {account : AccountRecord}
    (hfound : (⟨.auth (.repository (.findAccountById data.userId)),
      Except.ok (some account)⟩ : AccountExchange) ∈ trace) :
    (EmailProcessor.issueResetToken config data.userId data.issuanceId account).Proceeds
      (Warrant config (.processPasswordReset data)) (fun _ _ => True) trace := by
  refine .bind (proceeds_generate trivial fun token => ?_)
  refine Free.then_proceeds (ofAuth_issues (AuthProgram.issues_now trivial))
    fun trace₁ now h₁ => ?_
  have hdrawn := h₁.subset List.mem_cons_self
  refine .bind (proceeds_accountRepository ⟨data, token, rfl, rfl, hdrawn, rfl⟩
    fun (row : PasswordResetTokenRecord) => ?_)
  refine Free.then_proceeds (isCurrentIssuance_free _ _ _) fun trace₂ stillCurrent h₂ => ?_
  split
  · refine proceeds_sendMail ⟨data.userId, account, ?_, .reset data token
      (now + EmailProcessor.ONE_HOUR_MS) row rfl rfl ?_ ?_⟩ fun _ => trivial
    · exact h₂.subset (List.mem_cons_of_mem _ (h₁.subset (List.mem_cons_of_mem _ hfound)))
    · exact h₂.subset (List.mem_cons_of_mem _ hdrawn)
    · exact h₂.subset List.mem_cons_self
  · exact Throwing.proceeds_pure trivial

theorem processPasswordReset_warranted (data : SendPasswordResetJobData) :
    (EmailProcessor.processPasswordReset config data).Proceeds
      (Warrant config (.processPasswordReset data)) (fun _ _ => True) [] := by
  refine Free.then_proceeds (isCurrentIssuance_free _ _ _) fun _ current _ => ?_
  split
  · exact Throwing.proceeds_pure trivial
  refine .bind (proceeds_authRepository trivial fun (account : Option AccountRecord) => ?_)
  rcases account with _ | account
  · exact Throwing.proceeds_pure trivial
  · exact issueResetToken_warranted List.mem_cons_self

theorem program_warranted (config : AccountConfig) (call : AccountCall) :
    (call.program config).Proceeds (Warrant config call) (fun _ _ => True) [] := by
  cases call with
  | auth call =>
      exact ofAuth_warranted (fun _ h => .inr (by rw [h])) (program_mails config.auth call)
  | register input clientIp => exact (register_warranted input clientIp).map
  | verifyEmail input => exact (verifyEmail_warranted input).map
  | resendEmailVerification input clientIp =>
      exact (Free.proceeds (resendEmailVerification_free input clientIp)).map
  | requestPasswordReset input clientIp =>
      exact (Free.proceeds (requestPasswordReset_free input clientIp)).map
  | resetPassword input => exact (resetPassword_warranted input).map
  | processVerificationCode data => exact (processVerificationCode_warranted data).map
  | processPasswordReset data => exact (processPasswordReset_warranted data).map

end

end Account

end Shortlink
