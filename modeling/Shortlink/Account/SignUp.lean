import Shortlink.Account.Calm
import Shortlink.Account.Registration
import Shortlink.Account.Reset
import Shortlink.Auth.LoginFlow

/-!
# A registration comes to its end

An address without an account gets an account, a mail with a code and, with this code, an
account that can log in (`register_verifies`), when nothing fails and the code is presented
within the hour.
-/

namespace Shortlink

namespace Account

open Shortlink.Storage Shortlink.Table Shortlink.Transaction Shortlink.Interaction
open Shortlink.Expiring Shortlink.Auth AccountProgram

variable {config : AccountConfig} {deadline : ℕ} {s : AccountState}

/-! ### The tables -/

section

variable {db : AccountDb} {stamp : AccountStamp}

theorem find?_concat {q : AccountRecord → Bool} {users : List AccountRecord}
    {account : AccountRecord} (h : users.find? q = none) (hq : q account = true) :
    (users ++ [account]).find? q = some account := by
  rw [List.find?_append, h, Option.none_or, List.find?_singleton, if_pos hq]

theorem activateAccountTx_ok {userId : String} {account : AccountRecord}
    (h : db.auth.findAccountById userId = some account) :
    ∃ r, (activateAccountTx userId stamp).run db =
      .ok (r, db.saveStatus userId .active stamp.createdAt) := by
  have hfound : (db.auth.findAccountById userId).isSome = true := by rw [h]; rfl
  rw [activateAccountTx, Tx.bind_eq, lockAccount_bind, if_pos hfound]
  exact ⟨_, rfl⟩

def activatedAt (now : ℕ) (account : AccountRecord) : AccountRecord :=
  { account with status := .active, updatedAt := now }

theorem find?_saveStatus {account : AccountRecord} (hstatus : account.status = .pending)
    {q : AccountRecord → Bool} (hq : ∀ a now, q (activatedAt now a) = q a)
    (h : db.auth.users.find? q = some account) (now : ℕ) :
    (db.saveStatus account.id .active now).auth.users.find? q =
      some (activatedAt now account) := by
  have hfind : (db.saveStatus account.id .active now).auth.users.find? q =
      (db.auth.users.find? q).map fun a =>
        if (a.id == account.id && decide (a.status ≠ .active)) = true then activatedAt now a
        else a :=
    find?_updateWhere fun a _ => hq a now
  rw [hfind, h, Option.map_some, if_pos (by simp [hstatus])]

end

/-! ### The registration -/

/-- The address has no account, its e-mail and password are accepted, and neither it nor the
client has used up its attempts. -/
structure MayRegister (config : AccountConfig) (s : AccountState) (input : RegisterDto)
    (clientIp email : String) : Prop where
  created : createEmail config.auth.toLowerCase input.email = some email
  password : meetsPolicy input.password.toList = true
  confirmation : input.password = input.passwordConfirmation
  unknown : s.auth.db.findAccountByEmail email = none
  emailAttempts : ∀ n, s.auth.redis.count (.rate REGISTER_RATE_OPERATION .email
    (config.auth.hashRateLimitValue email)) = some n → n < EMAIL_RATE_LIMIT
  ipAttempts : ∀ n, s.auth.redis.count (.rate REGISTER_RATE_OPERATION .ip
    (config.auth.hashRateLimitValue (if clientIp = "" then "unknown" else clientIp))) = some n →
      n < IP_RATE_LIMIT

/-- The account of a registration that is not verified yet. -/
structure Pending (config : AccountConfig) (s : AccountState) (input : RegisterDto)
    (account : AccountRecord) : Prop where
  email : createEmail config.auth.toLowerCase input.email = some account.email
  byEmail : s.auth.db.findAccountByEmail account.email = some account
  byId : s.auth.db.findAccountById account.id = some account
  id : account.id ≠ ""
  status : account.status = .pending
  password : Auth.AuthService.passwordMatchesAccount config.auth input.password
    account.passwordHash = true
  unlocked : s.auth.redis.get (.loginLock account.id) = none

theorem Pending.carried {keys : RedisKey → Prop} {s₁ : AccountState} {input : RegisterDto}
    {account : AccountRecord} (h : Pending config s input account)
    (hcarries : Carries keys s.auth s₁.auth) (hkey : keys (.loginLock account.id)) :
    Pending config s₁ input account where
  email := h.email
  byEmail := by rw [hcarries.db, h.byEmail]
  byId := by rw [hcarries.db, h.byId]
  id := h.id
  status := h.status
  password := h.password
  unlocked := hcarries.get_eq_none hkey h.unlocked

/-- The code activates the account until the deadline. -/
def Activates (config : AccountConfig) (deadline : ℕ) (s : AccountState) (userId code : String) :
    Prop :=
  ∃ (payload : ActivationPayload) (e : ℕ), s.entries.cell (.activation userId) =
    some (payload, e) ∧ deadline ≤ e ∧ payload.codeHmac = config.auth.hmac code

theorem Activates.untouched {s₁ : AccountState} {userId code : String}
    (h : Activates config deadline s userId code) (huntouched : Untouched s s₁) :
    Activates config deadline s₁ userId code := by
  obtain ⟨payload, e, hcell, he, hcode⟩ := h
  exact ⟨payload, e, (huntouched.cell _).trans hcell, he, hcode⟩

section

open AuthService RedisAuthStateService Auth.RedisAuthStateService

theorem assertWithinRateLimits_returns {operation email clientIp : String}
    (hemail : ∀ n, s.auth.redis.count (.rate operation .email
      (config.auth.hashRateLimitValue email)) = some n → n < EMAIL_RATE_LIMIT)
    (hip : ∀ n, s.auth.redis.count (.rate operation .ip (config.auth.hashRateLimitValue
      (if clientIp = "" then "unknown" else clientIp))) = some n → n < IP_RATE_LIMIT) :
    (assertWithinRateLimits config operation email clientIp).Returns config deadline
      (fun outs _ s₁ => outs = [] ∧ Keeps IsLock s s₁) s := by
  have hkey : ∀ key, IsLock key → ∀ counter, key ≠ .counter counter := by
    intro key hlock counter
    obtain ⟨userId, rfl⟩ := hlock
    simp
  refine Throwing.Returns.tryCatch
    ((ofAuth_returns (incrementRateLimit_returns (by decide) hemail)).bind
      fun outs count s₁ h₁ => ?_)
  obtain ⟨_, sa, rfl, ⟨rfl, hcount, hsa⟩, hwait, huntouched⟩ := h₁
  have hs₁ := Keeps.of_auth hsa hwait huntouched
  rw [if_neg (Nat.not_lt.2 hcount)]
  refine (ofAuth_returns (incrementRateLimit_returns (by decide)
    (hs₁.auth.count_le (by simp) hip))).bind fun outs count s₂ h₂ => ?_
  obtain ⟨_, sb, rfl, ⟨rfl, hcount, hsb⟩, hwait, huntouched⟩ := h₂
  have hs₂ := Keeps.of_auth hsb hwait huntouched
  rw [if_neg (Nat.not_lt.2 hcount)]
  exact Throwing.returns_pure ⟨rfl, (hs₁.mono fun key hlock => hkey key hlock _).trans
    (hs₂.mono fun key hlock => hkey key hlock _)⟩

theorem parsePassword_returns {raw : String} (h : meetsPolicy raw.toList = true) :
    (parsePassword raw).Returns config deadline (fun outs _ s₁ => outs = [] ∧ s₁ = s) s := by
  rw [parsePassword, if_pos h]
  exact Throwing.returns_pure ⟨rfl, rfl⟩

theorem assertPasswordConfirmation_returns {password passwordConfirmation : String}
    (h : password = passwordConfirmation) :
    (assertPasswordConfirmation password passwordConfirmation).Returns config deadline
      (fun outs _ s₁ => outs = [] ∧ s₁ = s) s := by
  rw [assertPasswordConfirmation, if_neg (not_not_intro h)]
  exact Throwing.returns_pure ⟨rfl, rfl⟩

theorem enqueueActivation_returns {userId : String}
    (hdeadline : deadline ≤ s.auth.redis.now + TTL_ONE_HOUR_SECONDS * 1000) :
    (enqueueActivation userId).Returns config deadline
      (fun outs _ s₁ => ∃ issuanceId,
        outs = [.auth (.enqueue ⟨.activation, issuanceId, some userId, none⟩)] ∧
        Holds deadline s₁.auth (.issuance .activation userId) issuanceId ∧
        Carries IsLock s.auth s₁.auth ∧ s.entries.now ≤ s₁.entries.now) s := by
  refine (ofAuth_returns AuthProgram.generate_returns).bind fun outs issuanceId s₁ h₁ => ?_
  obtain ⟨_, sa, rfl, ⟨rfl, -, -, hsa⟩, hwait, huntouched⟩ := h₁
  have hs₁ : Keeps IsLock s s₁ := .of_auth (.of_waited hsa) hwait huntouched
  have hlater : deadline ≤ s₁.auth.redis.now + TTL_ONE_HOUR_SECONDS * 1000 :=
    Nat.le_trans hdeadline (Nat.add_le_add_right hs₁.auth.now _)
  refine (ofAuth_returns (setIssuance_returns hlater)).bind fun outs _ s₂ h₂ => ?_
  obtain ⟨_, sb, rfl, ⟨rfl, hissuance, hsb⟩, hwait, huntouched⟩ := h₂
  have hissuance := hissuance.carried hwait trivial
  have hs₂ : Keeps IsLock s₁ s₂ := .of_auth (hsb.mono fun key hkey => by
    obtain ⟨userId, rfl⟩ := hkey
    simp) hwait huntouched
  have hcooldown : (setResendCooldown ACTIVATION_RESEND_PURPOSE userId).Returns config deadline
      (fun outs _ s₃ => outs = [] ∧ Waited s₂.auth s₃.auth ∧ s₂.entries.now ≤ s₃.entries.now)
      s₂ :=
    returns_activations (c := .set (.resend _ _) () _) fun s₃ hs₃ _ => ⟨rfl, hs₃.auth, hs₃.now⟩
  refine hcooldown.bind fun outs _ s₃ h₃ => ?_
  obtain ⟨rfl, hs₃, hnow⟩ := h₃
  refine (ofAuth_returns AuthProgram.enqueue_returns).mono fun outs _ s₄ h₄ => ?_
  obtain ⟨_, sd, rfl, ⟨rfl, hsd⟩, hwait, huntouched⟩ := h₄
  have hs₄ : Waited s₂.auth s₄.auth := hs₃.trans (hsd.trans hwait)
  exact ⟨issuanceId, rfl, hissuance.carried hs₄ trivial,
    (hs₁.trans hs₂).auth.trans (.of_waited hs₄),
    Nat.le_trans (hs₁.trans hs₂).now (Nat.le_trans hnow huntouched.now)⟩

theorem registerNew_returns {input : RegisterDto} {email : String}
    (hcreated : createEmail config.auth.toLowerCase input.email = some email)
    (hpassword : meetsPolicy input.password.toList = true)
    (hunknown : s.auth.db.findAccountByEmail email = none)
    (hdeadline : deadline ≤ s.auth.redis.now + TTL_ONE_HOUR_SECONDS * 1000) :
    (registerNew email input.password).Returns config deadline
      (fun outs _ s₁ => ∃ account issuanceId, account.email = email ∧
        outs = [.auth (.enqueue ⟨.activation, issuanceId, some account.id, none⟩)] ∧
        Pending config s₁ input account ∧
        Holds deadline s₁.auth (.issuance .activation account.id) issuanceId ∧
        s.auth.redis.now ≤ s₁.auth.redis.now ∧ s.entries.now ≤ s₁.entries.now) s := by
  refine hash_returns.bind fun outs passwordHash s₁ h₁ => ?_
  obtain ⟨rfl, hpattern, hcompare, hs₁⟩ := h₁
  have hcreate : (accountRepository (.createPendingAccount ⟨email, passwordHash⟩)).Returns config
      deadline (fun outs (account : AccountRecord) s₂ => outs = [] ∧ account.email = email ∧
        Pending config s₂ input account ∧ s₁.auth.redis.now ≤ s₂.auth.redis.now ∧
        s₁.entries.now ≤ s₂.entries.now) s₁ := by
    refine returns_accountRepository (c := .createPendingAccount _)
      fun s₂ stamp hs₂ hstamp => ?_
    have hnone : s₂.auth.db.findAccountByEmail email = none := by
      rw [(hs₁.trans hs₂).auth.db, hunknown]
    have hemails : ∀ a ∈ s₂.auth.db.users, a.email ≠ email := by
      simpa [AuthDb.findAccountByEmail] using hnone
    refine ⟨_, _, createPendingAccountTx_ok hstamp.accountId hemails, rfl, rfl, ?_,
      hs₂.auth.now, hs₂.now⟩
    have hnoid : s₂.auth.db.findAccountById stamp.id = none := by
      simpa [AuthDb.findAccountById] using hstamp.accountId
    refine ⟨hcreated, ?_, ?_, hstamp.id, rfl, ?_, hstamp.unlocked⟩
    · exact find?_concat hnone (decide_eq_true rfl)
    · exact find?_concat hnoid (decide_eq_true rfl)
    · change Auth.AuthService.passwordMatchesAccount config.auth input.password passwordHash = true
      rw [Auth.AuthService.passwordMatchesAccount, hpassword, hpattern, hcompare]
      rfl
  refine hcreate.bind fun outs account s₂ h₂ => ?_
  obtain ⟨rfl, hemail, hpending, hnow, hentries⟩ := h₂
  have hlater : deadline ≤ s₂.auth.redis.now + TTL_ONE_HOUR_SECONDS * 1000 :=
    Nat.le_trans hdeadline (Nat.add_le_add_right (Nat.le_trans hs₁.auth.now hnow) _)
  refine (enqueueActivation_returns hlater).mono fun outs _ s₃ h₃ => ?_
  obtain ⟨issuanceId, houts, hissuance, hs₃, hentries'⟩ := h₃
  exact ⟨account, issuanceId, hemail, houts, hpending.carried hs₃ ⟨account.id, rfl⟩, hissuance,
    Nat.le_trans hs₁.auth.now (Nat.le_trans hnow hs₃.now),
    Nat.le_trans hs₁.now (Nat.le_trans hentries hentries')⟩

theorem register_returns {input : RegisterDto} {clientIp email : String}
    (h : MayRegister config s input clientIp email)
    (hdeadline : deadline ≤ s.auth.redis.now + TTL_ONE_HOUR_SECONDS * 1000) :
    (register config input clientIp).Returns config deadline
      (fun outs _ s₁ => ∃ account issuanceId, account.email = email ∧
        outs = [.auth (.enqueue ⟨.activation, issuanceId, some account.id, none⟩)] ∧
        Pending config s₁ input account ∧
        Holds deadline s₁.auth (.issuance .activation account.id) issuanceId ∧
        s.auth.redis.now ≤ s₁.auth.redis.now ∧ s.entries.now ≤ s₁.entries.now) s := by
  refine (ofAuth_returns (parseEmail_returns h.created)).bind fun outs value s₁ h₁ => ?_
  obtain ⟨_, sa, rfl, ⟨rfl, rfl, rfl⟩, hwait, huntouched⟩ := h₁
  have hs₁ : Keeps (fun _ => True) s s₁ := .of_auth (.refl _) hwait huntouched
  refine (parsePassword_returns h.password).bind fun outs _ s₂ h₂ => ?_
  obtain ⟨rfl, rfl⟩ := h₂
  refine (assertPasswordConfirmation_returns h.confirmation).bind fun outs _ s₃ h₃ => ?_
  obtain ⟨rfl, rfl⟩ := h₃
  refine (assertWithinRateLimits_returns (hs₁.auth.count_le trivial h.emailAttempts)
    (hs₁.auth.count_le trivial h.ipAttempts)).bind fun outs _ s₄ h₄ => ?_
  obtain ⟨rfl, hs₄⟩ := h₄
  have hs₄ : Keeps IsLock s s₄ := (Keeps.of_waited hs₁).trans hs₄
  refine Throwing.Returns.tryCatch
    ((ofAuth_returns AuthProgram.findAccountByEmail_returns).bind fun outs existing s₅ h₅ => ?_)
  obtain ⟨_, se, rfl, ⟨rfl, hexisting, hse⟩, hwait, huntouched⟩ := h₅
  have hs₅ : Keeps IsLock s s₅ := hs₄.trans (.of_auth (.of_waited hse) hwait huntouched)
  rw [hs₄.auth.db, h.unknown] at hexisting
  subst hexisting
  have hunknown : s₅.auth.db.findAccountByEmail value = none := by rw [hs₅.auth.db, h.unknown]
  have hlater : deadline ≤ s₅.auth.redis.now + TTL_ONE_HOUR_SECONDS * 1000 :=
    Nat.le_trans hdeadline (Nat.add_le_add_right hs₅.auth.now _)
  refine (registerNew_returns h.created h.password hunknown hlater).mono fun outs _ s₆ h₆ => ?_
  obtain ⟨account, issuanceId, hemail, houts, hpending, hissuance, hnow, hentries⟩ := h₆
  exact ⟨account, issuanceId, hemail, houts, hpending, hissuance,
    Nat.le_trans hs₅.auth.now hnow, Nat.le_trans hs₅.now hentries⟩

end

section

open EmailProcessor RedisAuthStateService Auth.RedisAuthStateService

/-- The worker sends a code that activates the account. -/
theorem processVerificationCode_returns {input : RegisterDto} {account : AccountRecord}
    {issuanceId : String} (h : Pending config s input account)
    (hissuance : Holds deadline s.auth (.issuance .activation account.id) issuanceId)
    (hdeadline : deadline ≤ s.entries.now + TTL_ONE_HOUR_SECONDS * 1000) :
    (processVerificationCode config ⟨.activation, issuanceId, some account.id, none⟩).Returns
      config deadline (fun outs _ s₁ => ∃ code,
        outs = [.auth (.sendMail (activationMail account.email code))] ∧
        Pending config s₁ input account ∧ Activates config deadline s₁ account.id code) s := by
  rw [processVerificationCode, if_pos rfl, processActivation]
  dsimp only
  rw [if_neg h.id, processAccount]
  refine (ofAuth_returns (isCurrentIssuance_returns hissuance)).bind fun outs current s₁ h₁ => ?_
  obtain ⟨_, sa, rfl, ⟨rfl, rfl, hsa⟩, hwait, huntouched⟩ := h₁
  have hs₁ := Keeps.of_auth hsa hwait huntouched
  rw [if_neg (not_not_intro rfl)]
  refine (ofAuth_returns AuthProgram.findAccountById_returns).bind fun outs found s₂ h₂ => ?_
  obtain ⟨_, sb, rfl, ⟨rfl, hfound, hsb⟩, hwait, huntouched⟩ := h₂
  have hs₂ := hs₁.trans (.of_auth hsb hwait huntouched)
  rw [hs₁.auth.db, h.byId] at hfound
  subst hfound
  refine (ofAuth_returns AuthProgram.generate_returns).bind fun outs code s₃ h₃ => ?_
  obtain ⟨_, sc, rfl, ⟨rfl, -, -, hsc⟩, hwait, huntouched⟩ := h₃
  have hs₃ := hs₂.trans (.of_auth hsc hwait huntouched)
  refine (ofAuth_returns AuthProgram.now_returns).bind fun outs now s₄ h₄ => ?_
  obtain ⟨_, sd, rfl, ⟨rfl, -, -, hsd⟩, hwait, huntouched⟩ := h₄
  have hs₄ := hs₃.trans (.of_auth hsd hwait huntouched)
  have hset : (setActivationCode config account.id code (now + RESEND_COOLDOWN_MS)).Returns config
      deadline (fun outs _ s₅ => outs = [] ∧ Activates config deadline s₅ account.id code ∧
        Waited s.auth s₅.auth) s₄ := by
    refine returns_activations (c := .set (.activation account.id) _ _) fun s₅ hs₅ _ =>
      ⟨rfl, ⟨_, _, Store.cell_set_self _ _ _, ?_, rfl⟩, (hs₄.trans hs₅).auth⟩
    exact Nat.le_trans hdeadline (Nat.add_le_add_right (hs₄.trans hs₅).now _)
  refine hset.bind fun outs _ s₅ h₅ => ?_
  obtain ⟨rfl, hactivates, hs₅⟩ := h₅
  refine (ofAuth_returns (isCurrentIssuance_returns (hissuance.carried hs₅ trivial))).bind
    fun outs stillCurrent s₆ h₆ => ?_
  obtain ⟨_, sf, rfl, ⟨rfl, rfl, hsf⟩, hwait, huntouched₆⟩ := h₆
  have hs₆ := hs₅.trans (hsf.trans hwait)
  rw [if_pos rfl]
  refine (ofAuth_returns AuthProgram.sendMail_returns).mono fun outs _ s₇ h₇ => ?_
  obtain ⟨_, sg, rfl, ⟨rfl, hsg⟩, hwait, huntouched₇⟩ := h₇
  exact ⟨code, rfl, h.carried (hs₆.trans (hsg.trans hwait)) trivial,
    hactivates.untouched (huntouched₆.trans huntouched₇)⟩

end

section

open AuthService RedisAuthStateService

theorem verifyEmail_returns {input : RegisterDto} {account : AccountRecord} {code : String}
    (h : Pending config s input account) (hcode : Activates config deadline s account.id code) :
    (verifyEmail config ⟨input.email, code⟩).Returns config deadline
      (fun outs _ s₁ => outs = [] ∧ ∃ now, MayLogIn config.auth s₁.auth
        ⟨input.email, input.password⟩ (activatedAt now account)) s := by
  refine (ofAuth_returns (parseEmail_returns h.email)).bind fun outs value s₁ h₁ => ?_
  obtain ⟨_, sa, rfl, ⟨rfl, rfl, rfl⟩, hwait, huntouched⟩ := h₁
  have hs₁ : Keeps (fun _ => True) s s₁ := .of_auth (.refl _) hwait huntouched
  refine Throwing.Returns.tryCatch
    ((ofAuth_returns AuthProgram.findAccountByEmail_returns).bind fun outs found s₂ h₂ => ?_)
  obtain ⟨_, sb, rfl, ⟨rfl, hfound, hsb⟩, hwait, huntouched⟩ := h₂
  have hs₂ := hs₁.trans (.of_auth hsb hwait huntouched)
  rw [hs₁.auth.db, h.byEmail] at hfound
  subst hfound
  dsimp only
  rw [if_neg (not_not_intro h.status)]
  have hconsume : (consumeActivationCode config account.id code).Returns config deadline
      (fun outs result s₃ => outs = [] ∧ result = .consumed ∧ Waited s.auth s₃.auth) s₂ := by
    refine returns_activations (c := .consumeActivation account.id _) fun s₃ hs₃ htime => ?_
    obtain ⟨payload, e, hcell, he, hhmac⟩ := hcode.untouched (hs₂.trans hs₃).toUntouched
    have hpending : pendingActivation s₃.entries account.id = some payload :=
      visible_eq_some_iff.2 ⟨e, hcell, Nat.lt_of_lt_of_le htime he⟩
    refine ⟨rfl, ?_, (hs₂.trans hs₃).auth⟩
    rw [ActivationCommand.apply, CONSUME_ACTIVATION_LUA, hpending]
    dsimp only
    rw [if_pos hhmac]
  refine hconsume.bind fun outs result s₃ h₃ => ?_
  obtain ⟨rfl, rfl, hs₃⟩ := h₃
  rw [if_neg (not_not_intro rfl)]
  have hactivate : (accountRepository (.activateAccount account.id)).Returns config deadline
      (fun outs _ s₄ => outs = [] ∧ ∃ now, MayLogIn config.auth s₄.auth
        ⟨input.email, input.password⟩ (activatedAt now account)) s₃ := by
    refine returns_accountRepository (c := .activateAccount account.id)
      fun s₄ stamp hs₄ _ => ?_
    have hpending : Pending config s₄ input account :=
      h.carried (hs₃.trans hs₄.auth) trivial
    have hok : ∃ r, (activateAccountTx account.id stamp).run s₄.db =
        .ok (r, s₄.db.saveStatus account.id .active stamp.createdAt) :=
      activateAccountTx_ok hpending.byId
    obtain ⟨r, hrun⟩ := hok
    have hbyEmail : s₄.db.auth.findAccountByEmail account.email = some account :=
      hpending.byEmail
    have hbyId : s₄.db.auth.findAccountById account.id = some account := hpending.byId
    exact ⟨r, _, hrun, rfl, stamp.createdAt, hpending.email,
      find?_saveStatus hpending.status (fun _ _ => rfl) hbyEmail _,
      find?_saveStatus hpending.status (fun _ _ => rfl) hbyId _, hpending.id, rfl,
      hpending.password, hpending.unlocked⟩
  refine hactivate.bind fun outs _ s₄ h₄ => ?_
  obtain ⟨rfl, hlogin⟩ := h₄
  exact Throwing.returns_pure ⟨rfl, hlogin⟩

/-- A registration that is verified within the hour ends with an account that can log in:
`register` leaves a job, the worker that takes the job sends a code, and `verifyEmail` accepts
the code. -/
theorem register_verifies {input : RegisterDto} {clientIp email : String}
    (h : MayRegister config s input clientIp email)
    (hdeadline : deadline ≤ s.auth.redis.now + TTL_ONE_HOUR_SECONDS * 1000)
    (hentries : deadline ≤ s.entries.now + TTL_ONE_HOUR_SECONDS * 1000) :
    (register config input clientIp).Returns config deadline (fun outs _ s₁ =>
      ∃ job, outs = [.auth (.enqueue job)] ∧
      (EmailProcessor.processVerificationCode config job).Returns config deadline
        (fun outs _ s₂ =>
          ∃ code, outs = [.auth (.sendMail (EmailProcessor.activationMail email code))] ∧
          (verifyEmail config ⟨input.email, code⟩).Returns config deadline (fun outs _ s₃ =>
            outs = [] ∧ ∃ account, account.email = email ∧ MayLogIn config.auth s₃.auth
              ⟨input.email, input.password⟩ account) s₂) s₁) s := by
  refine (register_returns h hdeadline).mono fun outs _ s₁ h₁ => ?_
  obtain ⟨account, issuanceId, rfl, houts, hpending, hissuance, -, hnow⟩ := h₁
  have hlater : deadline ≤ s₁.entries.now + TTL_ONE_HOUR_SECONDS * 1000 :=
    Nat.le_trans hentries (Nat.add_le_add_right hnow _)
  refine ⟨_, houts, (processVerificationCode_returns hpending hissuance hlater).mono
    fun outs _ s₂ h₂ => ?_⟩
  obtain ⟨code, houts, hpending, hactivates⟩ := h₂
  refine ⟨code, houts, (verifyEmail_returns hpending hactivates).mono fun outs _ s₃ h₃ => ?_⟩
  obtain ⟨houts, now, hlogin⟩ := h₃
  exact ⟨houts, activatedAt now account, rfl, hlogin⟩

def exampleRegistration : RegisterDto := ⟨" u@example.com", examplePassword, examplePassword⟩

theorem exampleRegistration_mayRegister : MayRegister exampleAccounts (AccountState.init [])
    exampleRegistration "192.0.2.7" "u@example.com" where
  created := by decide +kernel
  password := by decide +kernel
  confirmation := rfl
  unknown := rfl
  emailAttempts := fun _ hcount => by cases hcount
  ipAttempts := fun _ hcount => by cases hcount

theorem exampleRegistration_verifies :
    (register exampleAccounts exampleRegistration "192.0.2.7").Returns exampleAccounts 3600000
      (fun outs _ s₁ => ∃ job, outs = [.auth (.enqueue job)] ∧
        (EmailProcessor.processVerificationCode exampleAccounts job).Returns exampleAccounts
          3600000 (fun outs _ s₂ => ∃ code,
            outs = [.auth (.sendMail (EmailProcessor.activationMail "u@example.com" code))] ∧
            (verifyEmail exampleAccounts ⟨exampleRegistration.email, code⟩).Returns
              exampleAccounts 3600000 (fun outs _ s₃ => outs = [] ∧ ∃ account,
                account.email = "u@example.com" ∧ MayLogIn exampleAccounts.auth s₃.auth
                  ⟨exampleRegistration.email, exampleRegistration.password⟩ account) s₂) s₁)
      (AccountState.init []) :=
  register_verifies exampleRegistration_mayRegister (by decide) (by decide)

end

end Account

end Shortlink
