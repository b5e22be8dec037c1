import Shortlink.Account.Run
import Shortlink.Auth.RateLimits

/-!
# What a visitor can tell of the accounts

`Observed` is what the answers to a visitor depend on: the clock, the rate counters, and of
each e-mail the status of its account and the code of its pending activation. `respond`
says what the calls that need no login do with it, and `call_responds` that the services
do the same.
-/

namespace Shortlink

namespace Account

open Shortlink.Storage Shortlink.Table Shortlink.Transaction Shortlink.Interaction
open Shortlink.Expiring Shortlink.Auth

/-! ### Accounts as they are seen -/

/-- The status of an account, and the code of its pending activation with the instant at
which it expires. -/
structure AccountView where
  status : AccountStatus
  code : Option (String × ℕ)
  deriving DecidableEq

structure Observed where
  now : ℕ
  limits : Redis
  accounts : String → Option AccountView

namespace Observed

def withAccount (o : Observed) (email : String) (account : Option AccountView) : Observed :=
  { o with accounts := Function.update o.accounts email account }

/-- The code is the one of the pending account, and has not expired. -/
def accepts (config : AccountConfig) (email code : String) (o : Observed) : Bool :=
  match o.accounts email with
  | some ⟨.pending, some (codeHmac, expiresAt)⟩ =>
      decide (codeHmac = config.auth.hmac code ∧ o.now < expiresAt)
  | _ => false

/-- Count a request; the value says whether it is within the limits. -/
def countRequest (config : AccountConfig) (operation email clientIp : String)
    (o : Observed) : Bool × Observed :=
  let (emailCount, limits) := INCREMENT_RATE_LIMIT_LUA operation .email
    (config.auth.hashRateLimitValue email) RATE_LIMIT_TTL_SECONDS o.limits
  if emailCount > EMAIL_RATE_LIMIT then (false, { o with limits })
  else
    let (ipCount, limits) := INCREMENT_RATE_LIMIT_LUA operation .ip
      (config.auth.hashRateLimitValue (if clientIp = "" then "unknown" else clientIp))
      RATE_LIMIT_TTL_SECONDS limits
    (decide (ipCount ≤ IP_RATE_LIMIT), { o with limits })

/-- A request within the limits is accepted, whatever it finds. -/
def request (config : AccountConfig) (operation email clientIp : String)
    (found : Option AccountView → Option AccountView) (o : Observed) :
    AuthResult × Observed :=
  match o.countRequest config operation email clientIp with
  | (false, o) => (.error rateLimitedException, o)
  | (true, o) => (.ok .done, o.withAccount email (found (o.accounts email)))

/-- A new account is pending; an existing one stays as it is. -/
def registered : Option AccountView → Option AccountView
  | none => some ⟨.pending, none⟩
  | some account => some account

/-- The answer to a call, and what can be told behind it. -/
def respond (config : AccountConfig) (o : Observed) : AccountCall → AuthResult × Observed
  | .register input clientIp =>
      match createEmail config.auth.toLowerCase input.email with
      | none => (.error Auth.validationException, o)
      | some email =>
          if ¬ meetsPolicy input.password.toList then (.error invalidPasswordException, o)
          else if input.password ≠ input.passwordConfirmation then
            (.error passwordConfirmationException, o)
          else o.request config REGISTER_RATE_OPERATION email clientIp registered
  | .resendEmailVerification input clientIp =>
      match createEmail config.auth.toLowerCase input.email with
      | none => (.error Auth.validationException, o)
      | some email => o.request config RESEND_RATE_OPERATION email clientIp id
  | .requestPasswordReset input clientIp =>
      match createEmail config.auth.toLowerCase input.email with
      | none => (.error Auth.validationException, o)
      | some email => o.request config FORGOT_PASSWORD_RATE_OPERATION email clientIp id
  | .verifyEmail input =>
      match createEmail config.auth.toLowerCase input.email with
      | none => (.error Auth.validationException, o)
      | some email =>
          if o.accepts config email input.code then
            (.ok .done, o.withAccount email (some ⟨.active, none⟩))
          else (.error invalidVerificationException, o)
  | _ => (.ok .done, o)

end Observed

/-- The code of the pending activation of an account. -/
def AccountState.code (s : AccountState) (userId : String) : Option (String × ℕ) :=
  (s.entries.cell (.activation userId)).map
    fun entry : ActivationPayload × ℕ => (entry.1.codeHmac, entry.2)

/-- What is seen of the account of an e-mail. -/
def AccountState.view (s : AccountState) (email : String) : Option AccountView :=
  (s.auth.db.findAccountByEmail email).map fun account =>
    ⟨account.status, s.code account.id⟩

def AccountState.observed (s : AccountState) : Observed :=
  ⟨s.entries.now, s.auth.redis.rateLimits, s.view⟩

/-- Accounts have different ids and e-mails, and a stored code belongs to an account. -/
structure WellFormed (s : AccountState) : Prop where
  ids : (s.auth.db.users.map AccountRecord.id).Nodup
  emails : (s.auth.db.users.map AccountRecord.email).Nodup
  owned : ∀ userId, s.code userId ≠ none → ∃ account ∈ s.auth.db.users, account.id = userId

/-! ### Steps that do not fail -/

/-- The storage does not fail, and transactions commit. -/
def storageWorks : AccountStep → AccountOutside → AccountState → Prop
  | .repository c, o, s => o.auth.fault = .none ∧ ∃ r, (c.impl o.stamp).run s.db = .ok r
  | _, o, _ => o.auth.fault = .none

namespace AccountProgram

variable {α : Type} {config : AccountConfig} {s : AccountState}

/-- Every execution of the program at one instant ends as `ends` says. -/
def Yields (config : AccountConfig) (ends : Except AuthError α → AccountState → Prop)
    (p : AccountProgram α) (s : AccountState) : Prop :=
  Throwing.Yields (accountService config) storageWorks ends p s

theorem yields_call {p : AccountProgram α} (c : AccountStep)
    {g : c.Reply → Except AuthError α} (hp : p.run = .call c fun r => .pure (g r))
    {ends : Except AuthError α → AccountState → Prop}
    (h : ∀ o r s', storageWorks c o s → exec c o s = some (r, s') → ends (g r) s') :
    p.Yields config ends s := by
  rw [Yields, Throwing.Yields, hp]
  exact Semantics.still_ensures_call.2 fun o r s' hok hexec =>
    Semantics.still_ensures_pure.2 (h o r s' hok hexec)

theorem yields_generate {secret : Secret}
    {ends : Except AuthError String → AccountState → Prop}
    (h : ∀ value, ends (.ok value) s) :
    (ofAuth (AuthProgram.generate secret)).Yields config ends s :=
  yields_call (.auth (.generate secret)) rfl fun o r s' _ hexec => by
    cases hexec
    exact h _

theorem yields_hash {password : String} {ends : Except AuthError String → AccountState → Prop}
    (h : ∀ value, ends (.ok value) s) : (hash password).Yields config ends s :=
  yields_call (.hash password) rfl fun o r s' _ hexec => by
    cases hexec
    exact h _

theorem yields_authRedis {c : RedisCommand}
    {ends : Except AuthError c.Res → AccountState → Prop}
    (h : ends (.ok (c.apply s.auth.redis).1)
      { s with auth := { s.auth with redis := (c.apply s.auth.redis).2 } }) :
    (ofAuth (AuthProgram.redis c)).Yields config ends s :=
  yields_call (.auth (.redis c)) rfl fun o r s' hok hexec => by
    obtain ⟨⟨stamp, generated, fault⟩, stamp'⟩ := o
    obtain rfl : fault = .none := hok
    cases hexec
    exact h

theorem yields_activations {c : ActivationCommand}
    {ends : Except AuthError c.Res → AccountState → Prop}
    (h : ends (.ok (c.apply s.entries).1) { s with entries := (c.apply s.entries).2 }) :
    (activations c).Yields config ends s :=
  yields_call (.redis c) rfl fun o r s' hok hexec => by
    obtain ⟨⟨stamp, generated, fault⟩, stamp'⟩ := o
    obtain rfl : fault = .none := hok
    cases hexec
    exact h

theorem yields_findAccountByEmail {email : String}
    {ends : Except AuthError (Option AccountRecord) → AccountState → Prop}
    (h : ends (.ok (s.auth.db.findAccountByEmail email)) s) :
    (ofAuth (AuthProgram.authRepository (.findAccountByEmail email))).Yields config ends s :=
  yields_call (.auth (.repository (.findAccountByEmail email))) rfl fun o r s' hok hexec => by
    obtain ⟨⟨stamp, generated, fault⟩, stamp'⟩ := o
    obtain rfl : fault = .none := hok
    cases hexec
    exact h

theorem yields_accountRepository {c : AccountCommand}
    {ends : Except AuthError c.Res → AccountState → Prop}
    (h : ∀ stamp a db', (c.impl stamp).run s.db = .ok (a, db') →
      ends (.ok a) (s.setDb db')) : (accountRepository c).Yields config ends s :=
  yields_call (.repository c) rfl fun o r s' hok hexec => by
    obtain ⟨⟨stamp, generated, fault⟩, stamp'⟩ := o
    obtain ⟨hfault, ⟨a, db'⟩, hrun⟩ := hok
    obtain rfl : fault = .none := hfault
    have hexec' : execTransaction c stamp' s = (r, s') := Option.some.inj hexec
    rw [execTransaction, hrun] at hexec'
    cases hexec'
    exact h stamp' a db' hrun

theorem yields_enqueue {job : SendVerificationCodeJobData}
    {ends : Except AuthError Unit → AccountState → Prop} (h : ends (.ok ()) s) :
    (ofAuth (AuthProgram.enqueue job)).Yields config ends s :=
  yields_call (.auth (.enqueue job)) rfl fun o r s' hok hexec => by
    obtain ⟨⟨stamp, generated, fault⟩, stamp'⟩ := o
    obtain rfl : fault = .none := hok
    cases hexec
    exact h

theorem yields_audit {event : RecordAuthAuditEventInput}
    {ends : Except AuthError Unit → AccountState → Prop} (h : ends (.ok ()) s) :
    (ofAuth (AuthProgram.audit event)).Yields config ends s :=
  yields_call (.auth (.audit event)) rfl fun o r s' hok hexec => by
    obtain ⟨⟨stamp, generated, fault⟩, stamp'⟩ := o
    obtain rfl : fault = .none := hok
    cases hexec
    exact h

theorem yields_enqueuePasswordReset {job : SendPasswordResetJobData}
    {ends : Except AuthError Unit → AccountState → Prop} (h : ends (.ok ()) s) :
    (enqueuePasswordReset job).Yields config ends s :=
  yields_call (.enqueuePasswordReset job) rfl fun o r s' hok hexec => by
    obtain ⟨⟨stamp, generated, fault⟩, stamp'⟩ := o
    obtain rfl : fault = .none := hok
    cases hexec
    exact h

variable {ends : Except AuthError α → AccountState → Prop}

theorem yields_withSecurityStorage {p : AccountProgram α} :
    (AuthService.withSecurityStorage p).Yields config ends s ↔
      p.Yields config (fun r => ends (r.mapError secured)) s := by
  refine Throwing.yields_tryCatch.trans ⟨fun h => h.mono fun r s' hr => ?_,
    fun h => Throwing.Yields.mono h fun r s' hr => ?_⟩
  · cases r with
    | ok a => exact hr
    | error e => cases e <;> exact Throwing.yields_throw.1 hr
  · cases r with
    | ok a => exact hr
    | error e => cases e <;> exact Throwing.yields_throw.2 hr

end AccountProgram

/-! ### What is not seen -/

section

variable {s s₁ s' : AccountState}

theorem code_congr {userId : String}
    (h : s'.entries.cell (.activation userId) = s.entries.cell (.activation userId)) :
    s'.code userId = s.code userId := by
  rw [AccountState.code, h, AccountState.code]

/-- Nothing that can be told has changed. -/
structure Unseen (s s' : AccountState) : Prop where
  users : s'.auth.db.users = s.auth.db.users
  now : s'.entries.now = s.entries.now
  codes : ∀ userId, s'.code userId = s.code userId
  limits : s'.auth.redis.rateLimits = s.auth.redis.rateLimits

theorem Unseen.refl (s : AccountState) : Unseen s s := ⟨rfl, rfl, fun _ => rfl, rfl⟩

theorem Unseen.trans (h : Unseen s s₁) (h' : Unseen s₁ s') : Unseen s s' :=
  ⟨h'.users.trans h.users, h'.now.trans h.now,
    fun userId => (h'.codes userId).trans (h.codes userId), h'.limits.trans h.limits⟩

theorem Unseen.observed (h : Unseen s s') : s'.observed = s.observed := by
  have hview : s'.view = s.view := by
    funext email
    simp only [AccountState.view, AuthDb.findAccountByEmail, h.users, h.codes]
  rw [AccountState.observed, AccountState.observed, h.now, h.limits, hview]

theorem WellFormed.congr (hs : WellFormed s) (husers : s'.auth.db.users = s.auth.db.users)
    (hcodes : ∀ userId, s'.code userId = s.code userId) : WellFormed s' where
  ids := husers ▸ hs.ids
  emails := husers ▸ hs.emails
  owned userId hcode := husers ▸ hs.owned userId (hcodes userId ▸ hcode)

theorem Unseen.wellFormed (h : Unseen s s') (hs : WellFormed s) : WellFormed s' :=
  hs.congr h.users h.codes

/-- A command on the other entries is not seen. -/
theorem Unseen.of_redis {c : RedisCommand}
    (hc : ∀ key : RedisKey, key.isRate = true → ¬ c.Writes key) :
    Unseen s { s with auth := { s.auth with redis := (c.apply s.auth.redis).2 } } :=
  ⟨rfl, rfl, fun _ => rfl, RedisCommand.rateLimits_apply hc⟩

theorem Unseen.of_set_resend (purpose userId : String)
    (value : (ActivationKey.resend purpose userId).Value) (ttlSeconds : ℕ) :
    Unseen s
      { s with entries := s.entries.set (.resend purpose userId) value (ttlSeconds * 1000) } :=
  ⟨rfl, rfl, fun _ => code_congr (Store.cell_set_of_ne _ _ _ nofun), rfl⟩

/-- A wrong code is counted, which is not seen. -/
theorem Unseen.of_modify (userId : String) {f : ActivationPayload → ActivationPayload}
    (hf : ∀ payload, (f payload).codeHmac = payload.codeHmac) :
    Unseen s { s with entries := s.entries.modify (.activation userId) f } := by
  refine ⟨rfl, rfl, fun userId' => ?_, rfl⟩
  by_cases hid : userId' = userId
  · subst hid
    refine (congrArg (Option.map _)
      (Store.cell_modify_self (k := .activation userId') s.entries f)).trans ?_
    refine (Option.map_map _ _ _).trans (Option.map_congr fun entry _ => ?_)
    exact Prod.ext (hf entry.1) rfl
  · exact code_congr (Store.cell_modify_of_ne (k := .activation userId) s.entries f fun hkey =>
      hid (ActivationKey.activation.inj hkey))

end

/-! ### The requests -/

section

open AccountProgram AuthService RedisAuthStateService Auth.RedisAuthStateService

variable {config : AccountConfig} {s : AccountState} {userId : String}
  {ends : Except AuthError Unit → AccountState → Prop}

theorem yields_setIssuance {purpose : AuthIssuancePurpose} {issuanceId : String}
    (h : ∀ s', Unseen s s' → ends (.ok ()) s') :
    (ofAuth (setIssuance purpose userId issuanceId)).Yields config ends s :=
  yields_authRedis (c := .set (.issuance purpose userId) issuanceId TTL_ONE_HOUR_SECONDS)
    (h _ (Unseen.of_redis fun key hkey hwrites => by
      obtain rfl : key = .issuance purpose userId := hwrites
      cases hkey))

theorem yields_setResendCooldown {purpose : String}
    (h : ∀ s', Unseen s s' → ends (.ok ()) s') :
    (setResendCooldown purpose userId).Yields config ends s :=
  yields_activations (c := .set (.resend purpose userId) () TTL_RESEND_COOLDOWN_SECONDS)
    (h _ (Unseen.of_set_resend purpose userId () _))

theorem yields_isResendCooldownActive {purpose : String}
    {ends : Except AuthError Bool → AccountState → Prop} (h : ∀ active, ends (.ok active) s) :
    (isResendCooldownActive purpose userId).Yields config ends s :=
  yields_activations (c := .existsKey (.resend purpose userId)) (h _)

theorem enqueueActivation_yields (h : ∀ s', Unseen s s' → ends (.ok ()) s') :
    (enqueueActivation userId).Yields config ends s := by
  refine Throwing.yields_bind.2 (yields_generate fun issuanceId => ?_)
  refine Throwing.yields_bind.2 (yields_setIssuance fun s₁ h₁ => ?_)
  refine Throwing.yields_bind.2 (yields_setResendCooldown fun s₂ h₂ => ?_)
  exact yields_enqueue (h s₂ (h₁.trans h₂))

theorem enqueueActivationIfAllowed_yields (h : ∀ s', Unseen s s' → ends (.ok ()) s') :
    (enqueueActivationIfAllowed userId).Yields config ends s :=
  Throwing.yields_bind.2 (yields_isResendCooldownActive fun _ =>
    Throwing.yields_ite.2 ⟨fun _ => Throwing.yields_pure.2 (h s (.refl s)),
      fun _ => enqueueActivation_yields h⟩)

theorem enqueueReset_yields (h : ∀ s', Unseen s s' → ends (.ok ()) s') :
    (enqueueReset userId).Yields config ends s := by
  refine Throwing.yields_bind.2 (yields_generate fun issuanceId => ?_)
  refine Throwing.yields_bind.2 (yields_setIssuance fun s₁ h₁ => ?_)
  exact Throwing.yields_bind.2 (yields_enqueuePasswordReset (yields_audit (h s₁ h₁)))

theorem yields_incrementRateLimit {operation : String} {dimension : RateLimitDimension}
    {hash : String} {ttlSeconds : ℕ} {ends : Except AuthError ℕ → AccountState → Prop}
    (h : ∀ r, r = INCREMENT_RATE_LIMIT_LUA operation dimension hash ttlSeconds s.auth.redis →
      ends (.ok r.1) { s with auth := { s.auth with redis := r.2 } }) :
    (ofAuth (incrementRateLimit operation dimension hash ttlSeconds)).Yields config ends s :=
  yields_authRedis (c := .incrementRateLimit operation dimension hash ttlSeconds) (h _ rfl)

theorem yields_createPendingAccount {input : CreatePendingAccountInput}
    {ends : Except AuthError AccountRecord → AccountState → Prop}
    (h : ∀ stamp account db', (createPendingAccountTx input stamp).run s.db =
      .ok (account, db') → ends (.ok account) (s.setDb db')) :
    (accountRepository (.createPendingAccount input)).Yields config ends s :=
  yields_accountRepository (c := .createPendingAccount input) h

theorem yields_activateAccount {ends : Except AuthError (Option AccountRecord) →
    AccountState → Prop} (h : ∀ stamp account db', (activateAccountTx userId stamp).run s.db =
      .ok (account, db') → ends (.ok account) (s.setDb db')) :
    (accountRepository (.activateAccount userId)).Yields config ends s :=
  yields_accountRepository (c := .activateAccount userId) h

theorem yields_consumeActivationCode {code : String}
    {ends : Except AuthError ConsumeActivationResult → AccountState → Prop}
    (h : ∀ r, r = CONSUME_ACTIVATION_LUA userId (config.auth.hmac code) s.entries →
      ends (.ok r.1) { s with entries := r.2 }) :
    (consumeActivationCode config userId code).Yields config ends s :=
  yields_activations (c := .consumeActivation userId (config.auth.hmac code)) (h _ rfl)

/-- A request is counted, and refused when it is one too many. -/
theorem assertWithinRateLimits_yields {operation email clientIp : String}
    (h : ∀ within s', s'.auth.db = s.auth.db → s'.entries = s.entries →
      (within, s'.observed) = s.observed.countRequest config operation email clientIp →
        ends (if within then .ok () else .error rateLimitedException) s') :
    (assertWithinRateLimits config operation email clientIp).Yields config ends s := by
  refine yields_withSecurityStorage.2 (Throwing.yields_bind.2
    (yields_incrementRateLimit fun ⟨emailCount, redis₁⟩ h₁ => ?_))
  have hlimits := rateLimits_increment operation .email
    (config.auth.hashRateLimitValue email) RATE_LIMIT_TTL_SECONDS s.auth.redis
  rw [← h₁] at hlimits
  refine Throwing.yields_ite.2 ⟨fun hlimit => Throwing.yields_throw.2 ?_, fun hlimit => ?_⟩
  · refine h false _ rfl rfl ?_
    simp only [Observed.countRequest, AccountState.observed, hlimits, if_pos hlimit]
    rfl
  · refine Throwing.yields_bind.2 (yields_incrementRateLimit fun ⟨ipCount, redis₂⟩ h₂ => ?_)
    have hlimits' := rateLimits_increment operation .ip
      (config.auth.hashRateLimitValue (if clientIp = "" then "unknown" else clientIp))
      RATE_LIMIT_TTL_SECONDS redis₁
    rw [← h₂] at hlimits'
    have hcount : s.observed.countRequest config operation email clientIp =
        (decide (ipCount ≤ IP_RATE_LIMIT),
          { s.observed with limits := redis₂.rateLimits }) := by
      simp only [Observed.countRequest, AccountState.observed, hlimits, if_neg hlimit,
        hlimits']
    refine Throwing.yields_ite.2 ⟨fun hip => Throwing.yields_throw.2 ?_, fun hip =>
      Throwing.yields_pure.2 ?_⟩
    · exact h false _ rfl rfl (hcount ▸ Prod.ext (decide_eq_false (Nat.not_le.2 hip)).symm rfl)
    · exact h true _ rfl rfl (hcount ▸ Prod.ext (decide_eq_true (Nat.not_lt.1 hip)).symm rfl)

end

/-! ### The accounts -/

section

variable {s s' : AccountState} {email : String} {account : AccountRecord}
  {stamp : AccountStamp} {db' : AccountDb}

theorem found_email (h : s.auth.db.findAccountByEmail email = some account) :
    account ∈ s.auth.db.users ∧ account.email = email :=
  ⟨List.mem_of_find?_eq_some h, by simpa using List.find?_some h⟩

/-- What is seen of an account is found under its e-mail. -/
theorem view_of_found (h : s.auth.db.findAccountByEmail email = some account) :
    s.view email = some ⟨account.status, s.code account.id⟩ := by
  rw [AccountState.view, h]
  rfl

theorem view_of_not_found (h : s.auth.db.findAccountByEmail email = none) :
    s.view email = none := by
  rw [AccountState.view, h]
  rfl

theorem observed_withAccount {account : Option AccountView}
    (hnow : s'.entries.now = s.entries.now)
    (hlimits : s'.auth.redis.rateLimits = s.auth.redis.rateLimits)
    (hview : ∀ e, s'.view e = if e = email then account else s.view e) :
    s'.observed = s.observed.withAccount email account := by
  have haccounts : s'.view = Function.update s.view email account := by
    funext e
    rw [hview, Function.update_apply]
  rw [AccountState.observed, hnow, hlimits, haccounts]
  rfl

/-- A new account is pending, and no code is stored for it. -/
theorem observed_created {input : CreatePendingAccountInput} (hs : WellFormed s)
    (hrun : (createPendingAccountTx input stamp).run s.db = .ok (account, db')) :
    WellFormed (s.setDb db') ∧ (s.setDb db').observed =
      s.observed.withAccount input.email (some ⟨.pending, none⟩) := by
  obtain ⟨hemail, hpending, hfresh⟩ := createPendingAccountTx_fresh hrun
  obtain rfl := createPendingAccountTx_run hrun
  have hcode : s.code account.id = none := by
    by_contra hcode
    obtain ⟨a, ha, hid⟩ := hs.owned account.id hcode
    exact (hfresh a ha).1 hid
  refine ⟨⟨?_, ?_, fun userId hstored => ?_⟩, observed_withAccount rfl rfl fun e => ?_⟩
  · simpa [AccountState.setDb, List.nodup_append] using
      ⟨hs.ids, fun a ha => (hfresh a ha).1⟩
  · simpa [AccountState.setDb, List.nodup_append] using
      ⟨hs.emails, fun a ha => (hfresh a ha).2⟩
  · obtain ⟨a, ha, hid⟩ := hs.owned userId hstored
    exact ⟨a, List.mem_append_left _ ha, hid⟩
  · change ((s.auth.db.users ++ [account]).find? fun a => decide (a.email = e)).map
      (fun a => AccountView.mk a.status (s.code a.id)) = _
    rw [List.find?_append, List.find?_singleton, hemail]
    by_cases he : e = input.email
    · subst he
      have hnone : s.auth.db.users.find? (fun a => decide (a.email = input.email)) = none :=
        List.find?_eq_none.2 fun a ha hae =>
          (hfresh a ha).2 ((of_decide_eq_true hae).trans hemail.symm)
      simp [hnone, hpending, hcode]
    · simp [he, Ne.symm he, AccountState.view, AuthDb.findAccountByEmail]

theorem observed_activated {r : Option AccountRecord} (hs : WellFormed s)
    (hfound : s.auth.db.findAccountByEmail email = some account)
    (hrun : (activateAccountTx account.id stamp).run s.db = .ok (r, db')) :
    let s' : AccountState := { s with entries := s.entries.del (.activation account.id) }
    WellFormed (s'.setDb db') ∧ (s'.setDb db').observed =
      s.observed.withAccount email (some ⟨.active, none⟩) := by
  obtain rfl := activateAccountTx_run hrun
  obtain ⟨hmem, hemail⟩ := found_email hfound
  intro s'
  have hself : s'.code account.id = none := by
    rw [AccountState.code, Store.cell_del_self]
    rfl
  have hother : ∀ userId, userId ≠ account.id → s'.code userId = s.code userId :=
    fun userId hne => code_congr (Store.cell_del_of_ne s.entries (by simpa using hne))
  let activated (a : AccountRecord) : AccountRecord :=
    { a with status := .active, updatedAt := stamp.createdAt }
  have hids : (s'.setDb (s.db.saveStatus account.id .active stamp.createdAt)).auth.db.users.map
      AccountRecord.id = s.auth.db.users.map AccountRecord.id :=
    map_updateWhere (f := activated) fun _ _ => rfl
  have hemails : (s'.setDb (s.db.saveStatus account.id .active
      stamp.createdAt)).auth.db.users.map AccountRecord.email =
        s.auth.db.users.map AccountRecord.email :=
    map_updateWhere (f := activated) fun _ _ => rfl
  refine ⟨⟨hids ▸ hs.ids, hemails ▸ hs.emails, fun userId hstored => ?_⟩,
    observed_withAccount rfl rfl fun e => ?_⟩
  · obtain ⟨a, ha, rfl⟩ := hs.owned userId fun hnone => hstored (by
      by_cases hid : userId = account.id
      · exact hid ▸ hself
      · exact (hother userId hid).trans hnone)
    have hmem : a.id ∈ s.auth.db.users.map AccountRecord.id := List.mem_map_of_mem ha
    exact List.mem_map.1 (hids ▸ hmem)
  · have hfind : (updateWhere (fun a => a.id == account.id && decide (a.status ≠ .active))
        activated s.auth.db.users).find? (fun a => decide (a.email = e)) =
          (s.auth.db.users.find? fun a => decide (a.email = e)).map fun a =>
            if a.id == account.id && decide (a.status ≠ .active) then activated a else a :=
      find?_updateWhere fun _ _ => rfl
    change ((updateWhere _ activated s.auth.db.users).find? _).map
      (fun a => AccountView.mk a.status (s'.code a.id)) = _
    rw [hfind, Option.map_map]
    by_cases he : e = email
    · subst he
      have hfound' : s.auth.db.users.find? (fun a => decide (a.email = e)) = some account :=
        hfound
      rw [hfound', if_pos rfl]
      by_cases hactive : account.status = .active <;> simp [hactive, activated, hself]
    · rw [if_neg he]
      cases hother' : s.auth.db.findAccountByEmail e with
      | none =>
          rw [view_of_not_found hother', show s.auth.db.users.find? _ = none from hother']
          rfl
      | some a =>
          obtain ⟨ha, hae⟩ := found_email hother'
          have hid : a.id ≠ account.id := fun hid => he (hae.symm.trans
            ((congrArg _ (List.inj_on_of_nodup_map hs.ids ha hmem hid)).trans hemail))
          rw [view_of_found hother', show s.auth.db.users.find? _ = some a from hother']
          simp [hid, hother]

/-- The code is consumed when it is accepted, and any other one leaves nothing to be seen. -/
theorem CONSUME_ACTIVATION_LUA_accepts (config : AccountConfig) (code : String)
    (hfound : s.auth.db.findAccountByEmail email = some account)
    (hpending : account.status = .pending)
    {result : ConsumeActivationResult × Activations}
    (hresult : result = CONSUME_ACTIVATION_LUA account.id (config.auth.hmac code) s.entries) :
    s.observed.accepts config email code = true ∧ result.1 = .consumed ∧
        result.2 = s.entries.del (.activation account.id) ∨
      s.observed.accepts config email code = false ∧ result.1 ≠ .consumed ∧
        Unseen s { s with entries := result.2 } := by
  have hview : s.observed.accounts email = some ⟨.pending, s.code account.id⟩ :=
    (view_of_found hfound).trans (by rw [hpending])
  unfold CONSUME_ACTIVATION_LUA at hresult
  split at hresult
  · rename_i hnone
    have haccepts : s.observed.accepts config email code = false := by
      rw [Observed.accepts, hview, AccountState.code]
      cases hcell : s.entries.cell (.activation account.id) with
      | none => rfl
      | some entry =>
          have hexpired : ¬ s.entries.now < entry.2 := fun hlive =>
            nomatch hnone.symm.trans (visible_eq_some_iff.2 ⟨_, hcell, hlive⟩)
          exact decide_eq_false fun h => hexpired h.2
    subst hresult
    exact .inr ⟨haccepts, nofun, .refl s⟩
  · rename_i payload hpayload
    obtain ⟨expiresAt, hcell, hlive⟩ := visible_eq_some_iff.1 hpayload
    have hcode : s.code account.id = some (payload.codeHmac, expiresAt) := by
      rw [AccountState.code, hcell]
      rfl
    have haccepts : s.observed.accepts config email code =
        decide (payload.codeHmac = config.auth.hmac code) := by
      rw [Observed.accepts, hview, hcode]
      simp [AccountState.observed, hlive]
    split at hresult
    · rename_i hcorrect
      subst hresult
      exact .inl ⟨haccepts.trans (decide_eq_true hcorrect), rfl, rfl⟩
    · rename_i hwrong
      subst hresult
      exact .inr ⟨haccepts.trans (decide_eq_false hwrong), nofun, .of_modify account.id
        (f := fun payload => { payload with attempts := payload.attempts + 1 }) fun _ => rfl⟩

end

/-! ### The calls -/

/-- The calls that need no login. -/
def AccountCall.Public : AccountCall → Prop
  | .register _ _ | .verifyEmail _ | .resendEmailVerification _ _
  | .requestPasswordReset _ _ => True
  | _ => False

section

open AccountProgram AuthService RedisAuthStateService

variable {config : AccountConfig} {s : AccountState} {email clientIp : String}

/-- A part of a call that succeeds, with a change of the one account. -/
def Succeeds (email : String) (found : Option AccountView → Option AccountView)
    (s : AccountState) (r : Except AuthError Unit) (s' : AccountState) : Prop :=
  r = .ok () ∧ WellFormed s' ∧
    s'.observed = s.observed.withAccount email (found (s.view email))

theorem Observed.withAccount_self (o : Observed) (email : String) :
    o.withAccount email (o.accounts email) = o := by
  rw [Observed.withAccount, Function.update_eq_self]

theorem Unseen.succeeds {s' : AccountState} {found : Option AccountView → Option AccountView}
    (h : Unseen s s') (hs : WellFormed s) (hfound : found (s.view email) = s.view email) :
    Succeeds email found s (.ok ()) s' :=
  ⟨rfl, h.wellFormed hs,
    h.observed.trans (hfound.symm ▸ (s.observed.withAccount_self email).symm)⟩

/-- What a request does once it has been counted. -/
theorem request_yields {operation : String} {found : Option AccountView → Option AccountView}
    {p : AccountProgram Unit} (hs : WellFormed s)
    (hp : ∀ s₁, WellFormed s₁ → p.Yields config (Succeeds email found s₁) s₁) :
    (do assertWithinRateLimits config operation email clientIp
        withSecurityStorage p : AccountProgram Unit).Yields config
      (fun r s' => WellFormed s' ∧ (r.map fun _ => .done, s'.observed) =
        s.observed.request config operation email clientIp found) s := by
  refine Throwing.yields_bind.2
    (assertWithinRateLimits_yields fun within s₁ hdb hentries hcount => ?_)
  have hs₁ : WellFormed s₁ := hs.congr (congrArg AuthDb.users hdb)
    fun userId => by rw [AccountState.code, hentries, AccountState.code]
  cases within with
  | false =>
      refine ⟨hs₁, ?_⟩
      rw [Observed.request, ← hcount]
      rfl
  | true =>
      refine yields_withSecurityStorage.2 ((hp s₁ hs₁).mono fun r s' ⟨hr, hs', hobs⟩ => ?_)
      subst hr
      refine ⟨hs', ?_⟩
      rw [Observed.request, ← hcount, hobs]
      rfl

theorem registerNew_yields {password : String} (hs : WellFormed s)
    (hfound : s.auth.db.findAccountByEmail email = none) :
    (registerNew email password).Yields config (Succeeds email Observed.registered s) s := by
  refine Throwing.yields_bind.2 (yields_hash fun passwordHash => Throwing.yields_bind.2
    (yields_createPendingAccount fun stamp account db' hrun => ?_))
  obtain ⟨hs', hobs⟩ := observed_created hs hrun
  refine enqueueActivation_yields fun s₂ h₂ => ⟨rfl, h₂.wellFormed hs', ?_⟩
  rw [h₂.observed, hobs, view_of_not_found hfound]
  rfl

theorem register_yields {input : RegisterDto} (hs : WellFormed s) :
    (register config input clientIp).Yields config
      (fun r s' => WellFormed s' ∧ (r.map fun _ => .done, s'.observed) =
        s.observed.respond config (.register input clientIp)) s := by
  refine Throwing.yields_bind.2 ?_
  rw [Auth.AuthService.parseEmail, Observed.respond]
  cases createEmail config.auth.toLowerCase input.email with
  | none => exact Throwing.yields_throw.2 ⟨hs, rfl⟩
  | some email =>
      refine Throwing.yields_pure.2 (Throwing.yields_bind.2 (Throwing.yields_ite.2
        ⟨fun hpolicy => ?_, fun hpolicy => Throwing.yields_throw.2 ⟨hs, ?_⟩⟩))
      · refine Throwing.yields_pure.2 (Throwing.yields_bind.2 (Throwing.yields_ite.2
          ⟨fun hconfirm => Throwing.yields_throw.2 ⟨hs, ?_⟩, fun hconfirm => ?_⟩))
        · simp only [hpolicy, not_true, if_false, if_pos hconfirm]
          rfl
        · simp only [hpolicy, not_true, if_false, if_neg hconfirm]
          refine Throwing.yields_pure.2 (request_yields hs fun s₁ hs₁ =>
            Throwing.yields_bind.2 (yields_findAccountByEmail ?_))
          cases hfound : s₁.auth.db.findAccountByEmail email with
          | none => exact registerNew_yields hs₁ hfound
          | some account =>
              have hview := congrArg Observed.registered (view_of_found hfound)
              refine Throwing.yields_ite.2 ⟨fun _ => Throwing.yields_pure.2 ?_,
                fun _ => enqueueActivationIfAllowed_yields fun s' h' => ?_⟩
              · exact (Unseen.refl s₁).succeeds hs₁ (hview.trans (view_of_found hfound).symm)
              · exact h'.succeeds hs₁ (hview.trans (view_of_found hfound).symm)
      · simp only [hpolicy]
        rfl

theorem resendEmailVerification_yields {input : EmailDto} (hs : WellFormed s) :
    (resendEmailVerification config input clientIp).Yields config
      (fun r s' => WellFormed s' ∧ (r.map fun _ => .done, s'.observed) =
        s.observed.respond config (.resendEmailVerification input clientIp)) s := by
  refine Throwing.yields_bind.2 ?_
  rw [Auth.AuthService.parseEmail, Observed.respond]
  cases createEmail config.auth.toLowerCase input.email with
  | none => exact Throwing.yields_throw.2 ⟨hs, rfl⟩
  | some email =>
      refine Throwing.yields_pure.2 (request_yields hs fun s₁ hs₁ =>
        Throwing.yields_bind.2 (yields_findAccountByEmail ?_))
      cases hfound : s₁.auth.db.findAccountByEmail email with
      | none => exact Throwing.yields_pure.2 ((Unseen.refl s₁).succeeds hs₁ rfl)
      | some account =>
          exact Throwing.yields_ite.2
            ⟨fun _ => Throwing.yields_pure.2 ((Unseen.refl s₁).succeeds hs₁ rfl),
              fun _ => enqueueActivationIfAllowed_yields fun s' h' => h'.succeeds hs₁ rfl⟩

theorem requestPasswordReset_yields {input : EmailDto} (hs : WellFormed s) :
    (requestPasswordReset config input clientIp).Yields config
      (fun r s' => WellFormed s' ∧ (r.map fun _ => .done, s'.observed) =
        s.observed.respond config (.requestPasswordReset input clientIp)) s := by
  refine Throwing.yields_bind.2 ?_
  rw [Auth.AuthService.parseEmail, Observed.respond]
  cases createEmail config.auth.toLowerCase input.email with
  | none => exact Throwing.yields_throw.2 ⟨hs, rfl⟩
  | some email =>
      refine Throwing.yields_pure.2 (request_yields hs fun s₁ hs₁ =>
        Throwing.yields_bind.2 (yields_findAccountByEmail ?_))
      cases hfound : s₁.auth.db.findAccountByEmail email with
      | none => exact Throwing.yields_pure.2 ((Unseen.refl s₁).succeeds hs₁ rfl)
      | some account =>
          exact Throwing.yields_ite.2
            ⟨fun _ => Throwing.yields_pure.2 ((Unseen.refl s₁).succeeds hs₁ rfl),
              fun _ => enqueueReset_yields fun s' h' => h'.succeeds hs₁ rfl⟩

/-- A code that is not accepted, and the answer to it. -/
theorem respond_refused {input : VerifyEmailDto}
    (hemail : createEmail config.auth.toLowerCase input.email = some email)
    (hrefused : s.observed.accepts config email input.code = false) :
    s.observed.respond config (.verifyEmail input) =
      (.error invalidVerificationException, s.observed) := by
  rw [Observed.respond, hemail]
  exact if_neg (Bool.eq_false_iff.1 hrefused)

theorem verifyEmail_yields {input : VerifyEmailDto} (hs : WellFormed s) :
    (verifyEmail config input).Yields config
      (fun r s' => WellFormed s' ∧ (r.map fun _ => .done, s'.observed) =
        s.observed.respond config (.verifyEmail input)) s := by
  refine Throwing.yields_bind.2 ?_
  rw [Auth.AuthService.parseEmail]
  cases hemail : createEmail config.auth.toLowerCase input.email with
  | none =>
      rw [Observed.respond, hemail]
      exact Throwing.yields_throw.2 ⟨hs, rfl⟩
  | some email =>
      refine Throwing.yields_pure.2 (yields_withSecurityStorage.2 (Throwing.yields_bind.2
        (yields_findAccountByEmail ?_)))
      cases hfound : s.auth.db.findAccountByEmail email with
      | none =>
          have hview : s.observed.accounts email = none := view_of_not_found hfound
          have hrefused : s.observed.accepts config email input.code = false := by
            rw [Observed.accepts, hview]
          exact Throwing.yields_throw.2 ⟨hs, (respond_refused hemail hrefused).symm⟩
      | some account =>
          refine Throwing.yields_ite.2 ⟨fun hstatus => ?_, fun hstatus => ?_⟩
          · have hview : s.observed.accounts email =
                some ⟨account.status, s.code account.id⟩ := view_of_found hfound
            have hrefused : s.observed.accepts config email input.code = false := by
              rw [Observed.accepts, hview]
              cases hactive : account.status with
              | pending => exact absurd hactive hstatus
              | active => rfl
            exact Throwing.yields_throw.2 ⟨hs, (respond_refused hemail hrefused).symm⟩
          · refine Throwing.yields_bind.2 (yields_consumeActivationCode fun result hresult => ?_)
            obtain ⟨haccepted, hconsumed, hentries⟩ | ⟨hrefused, hwrong, hunseen⟩ :=
              CONSUME_ACTIVATION_LUA_accepts config input.code hfound (not_not.1 hstatus)
                hresult
            · refine Throwing.yields_ite.2 ⟨absurd hconsumed, fun _ =>
                Throwing.yields_bind.2 (yields_activateAccount fun stamp r db' hrun =>
                  Throwing.yields_pure.2 ?_)⟩
              rw [hentries]
              obtain ⟨hs', hobs⟩ := observed_activated hs hfound hrun
              refine ⟨hs', ?_⟩
              rw [hobs, Observed.respond, hemail]
              exact (if_pos haccepted).symm
            · refine Throwing.yields_ite.2 ⟨fun _ => Throwing.yields_throw.2
                ⟨hunseen.wellFormed hs, ?_⟩, fun h => absurd hwrong h⟩
              rw [hunseen.observed, respond_refused hemail hrefused]
              rfl

/-- The services answer the calls that need no login as `respond` says. -/
theorem call_responds {call : AccountCall} (hpublic : call.Public) (hs : WellFormed s) :
    (call.program config).Yields config
      (fun r s' => WellFormed s' ∧ (r, s'.observed) = s.observed.respond config call) s := by
  cases call with
  | register input clientIp => exact Throwing.yields_map.2 (register_yields hs)
  | verifyEmail input => exact Throwing.yields_map.2 (verifyEmail_yields hs)
  | resendEmailVerification input clientIp =>
      exact Throwing.yields_map.2 (resendEmailVerification_yields hs)
  | requestPasswordReset input clientIp =>
      exact Throwing.yields_map.2 (requestPasswordReset_yields hs)
  | _ => exact hpublic.elim

end

end Account

end Shortlink
