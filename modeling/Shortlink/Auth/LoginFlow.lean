import Shortlink.Auth.Calm
import Shortlink.Auth.DeadChallenges
import Shortlink.Auth.TwoFactors

/-!
# A login comes to its end

An account that may log in and has not used up its attempts gets a challenge, a mail with a
code and a session, in this order, when nothing fails and the code is presented within the
hour (`login_returns`): each call returns what the next one needs, and the session is valid
until it expires.
-/

namespace Shortlink

namespace Auth

open Shortlink.Storage Shortlink.Transaction Shortlink.Interaction Shortlink.Expiring
open AuthProgram

variable {config : AuthConfig} {deadline : ℕ} {s : AuthState}

/-! ### The auth state -/

/-- A challenge that its account can complete until the deadline. -/
structure Open (deadline : ℕ) (s : AuthState) (challengeId : String)
    (payload : LoginChallengePayload) : Prop where
  holds : Holds deadline s (.loginChallenge challengeId) payload
  userId : payload.userId ≠ ""
  unused : payload.used = false
  expires : deadline ≤ payload.expiresAtMs

theorem Open.carried {keys : RedisKey → Prop} {s₁ : AuthState} {challengeId : String}
    {payload : LoginChallengePayload} (h : Open deadline s challengeId payload)
    (hcarries : Carries keys s s₁) (hkey : keys (.loginChallenge challengeId)) :
    Open deadline s₁ challengeId payload :=
  ⟨h.holds.carried hcarries hkey, h.userId, h.unused, h.expires⟩

section

open RedisAuthStateService

theorem isLoginLocked_returns {userId : String}
    (h : s.redis.get (.loginLock userId) = none) :
    (isLoginLocked userId).Returns config deadline
      (fun outs locked s₁ => outs = [] ∧ locked = false ∧ Waited s s₁) s := by
  refine returns_redis (c := .existsKey (.loginLock userId)) fun s₁ hs₁ _ => ⟨rfl, ?_, hs₁⟩
  rw [RedisCommand.apply, hs₁.get_eq_none trivial h]
  rfl

theorem isCurrentIssuance_returns {purpose : AuthIssuancePurpose}
    {subjectId issuanceId : String}
    (h : Holds deadline s (.issuance purpose subjectId) issuanceId) :
    (isCurrentIssuance purpose subjectId issuanceId).Returns config deadline
      (fun outs current s₁ => outs = [] ∧ current = true ∧ Waited s s₁) s := by
  have hget : (redis (.get (.issuance purpose subjectId))).Returns config deadline
      (fun outs (current : Option String) s₁ => outs = [] ∧ current = some issuanceId ∧
        Waited s s₁) s :=
    returns_redis (c := .get (.issuance purpose subjectId)) fun s₁ hs₁ htime =>
      ⟨rfl, (h.carried hs₁ trivial).get htime, hs₁⟩
  refine hget.bind fun outs current s₁ hcurrent => ?_
  obtain ⟨rfl, rfl, hs₁⟩ := hcurrent
  exact Throwing.returns_pure ⟨rfl, beq_self_eq_true (some issuanceId), hs₁⟩

theorem findLoginChallengeUserId_returns {challengeId : String}
    {payload : LoginChallengePayload} (h : Open deadline s challengeId payload) :
    (findLoginChallengeUserId challengeId).Returns config deadline
      (fun outs userId s₁ => outs = [] ∧ userId = some payload.userId ∧
        Waited s s₁) s := by
  have hget : (redis (.get (.loginChallenge challengeId))).Returns config deadline
      (fun outs (raw : Option LoginChallengePayload) s₁ => outs = [] ∧ raw = some payload ∧
        s₁.redis.now < deadline ∧ Waited s s₁) s :=
    returns_redis (c := .get (.loginChallenge challengeId)) fun s₁ hs₁ htime =>
      ⟨rfl, (h.holds.carried hs₁ trivial).get htime, htime, hs₁⟩
  refine hget.bind fun outs raw s₁ hraw => ?_
  obtain ⟨rfl, rfl, htime, hs₁⟩ := hraw
  have hthere : ¬ (payload.userId = "" ∨ payload.used = true) := by
    rw [h.unused]
    simp [h.userId]
  have hinstant : ¬ payload.expiresAtMs = 0 :=
    Nat.ne_of_gt (Nat.lt_of_lt_of_le (Nat.zero_lt_of_lt htime) h.expires)
  dsimp only
  rw [if_neg hthere, if_neg hinstant]
  refine now_returns.bind fun outs now s₂ hnow => ?_
  obtain ⟨rfl, -, hnow, hs₂⟩ := hnow
  refine Throwing.returns_pure ⟨rfl, ?_, hs₁.trans hs₂⟩
  exact if_neg (Nat.not_lt.2 (Nat.le_trans (Nat.le_of_lt hnow) h.expires))

theorem createLoginChallenge_returns {userId challengeId code : String} {expiresAt : ℕ}
    (huser : userId ≠ "") (hexpires : deadline ≤ expiresAt)
    (hdeadline : deadline ≤ s.redis.now + TTL_ONE_HOUR_SECONDS * 1000) :
    (createLoginChallenge config userId challengeId code expiresAt).Returns config deadline
      (fun outs _ s₁ => outs = [] ∧
        Open deadline s₁ challengeId ⟨userId, config.hmac code, expiresAt, false⟩ ∧
        Carries (fun key => key ≠ .loginChallengeAccount userId ∧
          ∀ id, key ≠ .loginChallenge id) s s₁) s := by
  refine returns_redis (c := .createLoginChallenge _ _ _) fun s₁ hs₁ _ => ⟨rfl, ?_, ?_⟩
  · refine ⟨⟨s₁.redis.now + TTL_ONE_HOUR_SECONDS * 1000, ?_, ?_⟩, huser, rfl, hexpires⟩
    · exact CREATE_LOGIN_CHALLENGE_LUA_cell_challenge
    · exact Nat.le_trans hdeadline (Nat.add_le_add_right hs₁.now _)
  · refine (Carries.of_waited hs₁).trans ((carries_apply s₁ _).mono fun key hkey => ?_)
    rintro (⟨id, heq⟩ | heq)
    · exact hkey.2 id heq
    · exact hkey.1 heq

theorem setIssuance_returns {purpose : AuthIssuancePurpose} {subjectId issuanceId : String}
    (hdeadline : deadline ≤ s.redis.now + TTL_ONE_HOUR_SECONDS * 1000) :
    (setIssuance purpose subjectId issuanceId).Returns config deadline
      (fun outs _ s₁ => outs = [] ∧ Holds deadline s₁ (.issuance purpose subjectId) issuanceId ∧
        Carries (fun key => key ≠ .issuance purpose subjectId) s s₁) s := by
  refine returns_redis (c := .set (.issuance purpose subjectId) _ _) fun s₁ hs₁ _ => ⟨rfl, ?_, ?_⟩
  · exact ⟨_, Store.cell_set_self _ _ _,
      Nat.le_trans hdeadline (Nat.add_le_add_right hs₁.now _)⟩
  · exact (Carries.of_waited hs₁).trans
      (carries_apply s₁ (.set (.issuance purpose subjectId) issuanceId TTL_ONE_HOUR_SECONDS))

theorem consumeLoginChallenge_returns {challengeId code : String}
    {payload : LoginChallengePayload} (h : Open deadline s challengeId payload)
    (hcode : payload.codeHmac = config.hmac code) :
    (consumeLoginChallenge config challengeId code).Returns config deadline
      (fun outs result s₁ => outs = [] ∧ result = .consumed payload.userId ∧
        Carries (fun key => key ≠ .loginChallenge challengeId) s s₁) s := by
  refine now_returns.bind fun outs now s₁ hnow => ?_
  obtain ⟨rfl, -, hnow, hs₁⟩ := hnow
  have hconsume : (redis (.consumeLoginChallenge challengeId (config.hmac code) now)).Returns
      config deadline (fun outs result s₂ => outs = [] ∧ result = .consumed payload.userId ∧
        Carries (fun key => key ≠ .loginChallenge challengeId) s s₂) s₁ := by
    refine returns_redis fun s₂ hs₂ htime => ⟨rfl, ?_, ?_⟩
    · have hget := (h.holds.carried (hs₁.trans hs₂) trivial).get htime
      have hpast : ¬ now > payload.expiresAtMs :=
        Nat.not_lt.2 (Nat.le_trans (Nat.le_of_lt hnow) h.expires)
      have hunused : ¬ payload.used = true := by simp [h.unused]
      rw [RedisCommand.apply, CONSUME_LOGIN_CHALLENGE_LUA, hget]
      dsimp only
      rw [if_neg hunused, if_neg (not_not_intro hcode), if_neg hpast]
    · exact (Carries.of_waited (hs₁.trans hs₂)).trans
        (carries_apply s₂ (.consumeLoginChallenge challengeId (config.hmac code) now))
  refine hconsume.bind fun outs result s₂ hresult => ?_
  obtain ⟨rfl, rfl, hs₂⟩ := hresult
  refine Throwing.returns_pure ⟨rfl, ?_, hs₂⟩
  exact if_neg fun heq => h.userId (ConsumeLoginChallengeResult.consumed.inj heq)

end

/-! ### The login -/

/-- The account can log in: it is active, its e-mail and password are those of the input, and
it is not locked. -/
structure MayLogIn (config : AuthConfig) (s : AuthState) (input : LoginDto)
    (account : AccountRecord) : Prop where
  email : createEmail config.toLowerCase input.email = some account.email
  byEmail : s.db.findAccountByEmail account.email = some account
  byId : s.db.findAccountById account.id = some account
  id : account.id ≠ ""
  active : account.status = .active
  password : AuthService.passwordMatchesAccount config input.password account.passwordHash = true
  unlocked : s.redis.get (.loginLock account.id) = none

theorem MayLogIn.carried {keys : RedisKey → Prop} {s₁ : AuthState} {input : LoginDto}
    {account : AccountRecord} (h : MayLogIn config s input account)
    (hcarries : Carries keys s s₁) (hkey : keys (.loginLock account.id)) :
    MayLogIn config s₁ input account where
  email := h.email
  byEmail := by rw [hcarries.db, h.byEmail]
  byId := by rw [hcarries.db, h.byId]
  id := h.id
  active := h.active
  password := h.password
  unlocked := hcarries.get_eq_none hkey h.unlocked

/-- The counter of the login attempts of an address for an e-mail. -/
def loginCounter (config : AuthConfig) (email clientIp : String) : CounterKey :=
  .rate LOGIN_RATE_OPERATION .email (config.hashRateLimitValue
    ((if clientIp = "" then "unknown" else clientIp) ++ "|" ++ email))

/-- A login of the account has been started: the challenge waits for the code of the job. -/
structure LoginStarted (deadline : ℕ) (s : AuthState) (account : AccountRecord)
    (challengeId issuanceId codeHmac : String) (expiresAt : ℕ) : Prop where
  challengeId_ne : challengeId ≠ ""
  challenge : Open deadline s challengeId ⟨account.id, codeHmac, expiresAt, false⟩
  issuance : Holds deadline s (.issuance .login challengeId) issuanceId

section

open AuthService RedisAuthStateService

theorem incrementRateLimit_returns {operation hash : String}
    {dimension : RateLimitDimension} {ttl limit : ℕ} (hlimit : 0 < limit)
    (h : ∀ n, s.redis.count (.rate operation dimension hash) = some n → n < limit) :
    (incrementRateLimit operation dimension hash ttl).Returns config deadline
      (fun outs count s₁ => outs = [] ∧ count ≤ limit ∧
        Carries (fun key => key ≠ .counter (.rate operation dimension hash)) s s₁) s := by
  refine returns_redis (c := .incrementRateLimit _ _ _ _)
    fun s₁ hs₁ _ => ⟨rfl, ?_, ?_⟩
  · have hcount := hs₁.count_le trivial h
    change (s₁.redis.incrEx (.rate operation dimension hash) _).1 ≤ _
    rw [Redis.incrEx]
    cases hget : s₁.redis.count (.rate operation dimension hash) with
    | none => exact hlimit
    | some n => exact hcount n hget
  · exact (Carries.of_waited hs₁).trans (carries_apply s₁ (.incrementRateLimit _ _ _ _))

theorem assertLoginRateLimit_returns {email clientIp : String}
    (h : ∀ n, s.redis.count (loginCounter config email clientIp) = some n →
      n < LOGIN_RATE_LIMIT) :
    (assertLoginRateLimit config email clientIp).Returns config deadline
      (fun outs _ s₁ => outs = [] ∧
        Carries (fun key => key ≠ .counter (loginCounter config email clientIp)) s s₁) s := by
  refine Throwing.Returns.tryCatch
    ((incrementRateLimit_returns (by decide) h).bind fun outs count s₁ hcount => ?_)
  obtain ⟨rfl, hcount, hs₁⟩ := hcount
  rw [if_neg (Nat.not_lt.2 hcount)]
  exact Throwing.returns_pure ⟨rfl, hs₁⟩

def IsLock (key : RedisKey) : Prop := ∃ userId, key = .loginLock userId

theorem issueLoginChallenge_returns {account : AccountRecord} (hid : account.id ≠ "")
    (hdeadline : deadline ≤ s.redis.now + TTL_ONE_HOUR_SECONDS * 1000) :
    (issueLoginChallenge config account.id).Returns config deadline
      (fun outs challenge s₁ => ∃ issuanceId codeHmac,
        outs = [.enqueue ⟨.login, issuanceId, none, some challenge.challengeId⟩] ∧
        LoginStarted deadline s₁ account challenge.challengeId issuanceId codeHmac
          challenge.expiresAt ∧ Carries IsLock s s₁) s := by
  have hlater : ∀ {s₁ : AuthState}, Carries IsLock s s₁ →
      deadline ≤ s₁.redis.now + TTL_ONE_HOUR_SECONDS * 1000 := fun hs₁ =>
    Nat.le_trans hdeadline (Nat.add_le_add_right hs₁.now _)
  refine generate_returns.bind fun outs challengeId s₁ h₁ => ?_
  obtain ⟨rfl, hchallenge, -, hs₁⟩ := h₁
  refine generate_returns.bind fun outs issuanceId s₂ h₂ => ?_
  obtain ⟨rfl, -, -, hs₂⟩ := h₂
  refine now_returns.bind fun outs now s₃ h₃ => ?_
  obtain ⟨rfl, rfl, -, hs₃⟩ := h₃
  refine generate_returns.bind fun outs placeholderCode s₄ h₄ => ?_
  obtain ⟨rfl, -, -, hs₄⟩ := h₄
  have hs₃ : Waited s s₃ := (hs₁.trans hs₂).trans hs₃
  have hs₄ : Carries IsLock s s₄ := .of_waited (hs₃.trans hs₄)
  have hexpires : deadline ≤ s₃.redis.now + LOGIN_CHALLENGE_TTL_MS :=
    Nat.le_trans hdeadline (Nat.add_le_add_right hs₃.now _)
  refine (createLoginChallenge_returns hid hexpires (hlater hs₄)).bind fun outs _ s₅ h₅ => ?_
  obtain ⟨rfl, hopen, hs₅⟩ := h₅
  have hs₅ : Carries IsLock s s₅ := hs₄.trans (hs₅.mono fun key hkey => by
    obtain ⟨userId, rfl⟩ := hkey
    exact ⟨by simp, fun id => by simp⟩)
  refine (setIssuance_returns (hlater hs₅)).bind fun outs _ s₆ h₆ => ?_
  obtain ⟨rfl, hissuance, hs₆⟩ := h₆
  have hopen := hopen.carried hs₆ (by simp)
  have hs₆ : Carries IsLock s s₆ := hs₅.trans (hs₆.mono fun key hkey => by
    obtain ⟨userId, rfl⟩ := hkey
    simp)
  refine enqueue_returns.bind fun outs _ s₇ h₇ => ?_
  obtain ⟨rfl, hs₇⟩ := h₇
  exact Throwing.returns_pure ⟨issuanceId, _, rfl, ⟨hchallenge, hopen.carried hs₇ trivial,
    hissuance.carried hs₇ trivial⟩, hs₆.trans (.of_waited hs₇)⟩

theorem parseEmail_returns {raw email : String}
    (h : createEmail config.toLowerCase raw = some email) :
    (parseEmail config raw).Returns config deadline
      (fun outs value s₁ => outs = [] ∧ value = email ∧ s₁ = s) s := by
  rw [parseEmail, h]
  exact Throwing.returns_pure ⟨rfl, rfl, rfl⟩

theorem startLogin_returns {input : LoginDto} {clientIp : String} {account : AccountRecord}
    (h : MayLogIn config s input account)
    (hrate : ∀ n, s.redis.count (loginCounter config account.email clientIp) = some n →
      n < LOGIN_RATE_LIMIT)
    (hdeadline : deadline ≤ s.redis.now + TTL_ONE_HOUR_SECONDS * 1000) :
    (startLogin config input clientIp).Returns config deadline
      (fun outs challenge s₁ => ∃ issuanceId codeHmac,
        outs = [.enqueue ⟨.login, issuanceId, none, some challenge.challengeId⟩] ∧
        LoginStarted deadline s₁ account challenge.challengeId issuanceId codeHmac
          challenge.expiresAt ∧ Carries IsLock s s₁) s := by
  refine (parseEmail_returns h.email).bind fun outs email s₁ h₁ => ?_
  obtain ⟨rfl, rfl, rfl⟩ := h₁
  refine (assertLoginRateLimit_returns hrate).bind fun outs _ s₂ h₂ => ?_
  obtain ⟨rfl, hs₂⟩ := h₂
  have hs₂ : Carries IsLock s₁ s₂ := hs₂.mono fun key hkey => by
    obtain ⟨userId, rfl⟩ := hkey
    simp
  refine Throwing.Returns.tryCatch
    (findAccountByEmail_returns.bind fun outs found s₃ h₃ => ?_)
  obtain ⟨rfl, hfound, hs₃⟩ := h₃
  rw [hs₂.db, h.byEmail] at hfound
  subst hfound
  have hs₃ : Carries IsLock s₁ s₃ := hs₂.trans (.of_waited hs₃)
  have hactive : ¬ account.status = .pending := by
    rw [h.active]
    simp
  dsimp only
  rw [if_neg (not_not_intro h.password), if_neg hactive]
  have hunlocked := hs₃.get_eq_none ⟨account.id, rfl⟩ h.unlocked
  refine (isLoginLocked_returns hunlocked).bind fun outs locked s₄ h₄ => ?_
  obtain ⟨rfl, rfl, hs₄⟩ := h₄
  have hs₄ : Carries IsLock s₁ s₄ := hs₃.trans (.of_waited hs₄)
  have hlater : deadline ≤ s₄.redis.now + TTL_ONE_HOUR_SECONDS * 1000 :=
    Nat.le_trans hdeadline (Nat.add_le_add_right hs₄.now _)
  rw [if_neg Bool.false_ne_true]
  refine (issueLoginChallenge_returns h.id hlater).mono fun outs challenge s₅ h₅ => ?_
  obtain ⟨issuanceId, codeHmac, houts, hstarted, hs₅⟩ := h₅
  exact ⟨issuanceId, codeHmac, houts, hstarted, hs₄.trans hs₅⟩

end

section

open EmailProcessor RedisAuthStateService

theorem processLogin_returns {account : AccountRecord} {challengeId issuanceId codeHmac : String}
    {expiresAt : ℕ} (hid : s.db.findAccountById account.id = some account)
    (h : LoginStarted deadline s account challengeId issuanceId codeHmac expiresAt)
    (hdeadline : deadline ≤ s.redis.now + TTL_ONE_HOUR_SECONDS * 1000) :
    (processLogin config ⟨.login, issuanceId, none, some challengeId⟩).Returns config deadline
      (fun outs _ s₁ => ∃ code expiresAt', outs = [.sendMail (loginMail account.email code)] ∧
        LoginStarted deadline s₁ account challengeId issuanceId (config.hmac code) expiresAt' ∧
        Carries IsLock s s₁) s := by
  rw [processLogin]
  dsimp only
  rw [if_neg h.challengeId_ne, processChallenge]
  refine (isCurrentIssuance_returns h.issuance).bind fun outs current s₁ h₁ => ?_
  obtain ⟨rfl, rfl, hs₁⟩ := h₁
  rw [if_neg (not_not_intro rfl)]
  have hchallenge := h.challenge.carried hs₁ trivial
  refine (findLoginChallengeUserId_returns hchallenge).bind fun outs userId s₂ h₂ => ?_
  obtain ⟨rfl, rfl, hs₂⟩ := h₂
  have hs₂ : Waited s s₂ := hs₁.trans hs₂
  refine findAccountById_returns.bind fun outs found s₃ h₃ => ?_
  obtain ⟨rfl, hfound, hs₃⟩ := h₃
  rw [hs₂.db, hid] at hfound
  subst hfound
  refine generate_returns.bind fun outs code s₄ h₄ => ?_
  obtain ⟨rfl, -, -, hs₄⟩ := h₄
  refine now_returns.bind fun outs now s₅ h₅ => ?_
  obtain ⟨rfl, rfl, -, hs₅⟩ := h₅
  have hs₅ : Waited s s₅ := ((hs₂.trans hs₃).trans hs₄).trans hs₅
  have hlater : deadline ≤ s₅.redis.now + TTL_ONE_HOUR_SECONDS * 1000 :=
    Nat.le_trans hdeadline (Nat.add_le_add_right hs₅.now _)
  refine (createLoginChallenge_returns h.challenge.userId hlater hlater).bind
    fun outs _ s₆ h₆ => ?_
  obtain ⟨rfl, hopen, hs₆⟩ := h₆
  have hissuance := (h.issuance.carried hs₅ trivial).carried hs₆ (by simp)
  refine (isCurrentIssuance_returns hissuance).bind fun outs stillCurrent s₇ h₇ => ?_
  obtain ⟨rfl, rfl, hs₇⟩ := h₇
  rw [if_pos rfl]
  refine sendMail_returns.mono fun outs _ s₈ h₈ => ?_
  obtain ⟨rfl, hs₈⟩ := h₈
  have hs₈ : Waited s₆ s₈ := hs₇.trans hs₈
  refine ⟨code, _, rfl, ⟨h.challengeId_ne, hopen.carried hs₈ trivial,
    hissuance.carried hs₈ trivial⟩, ?_⟩
  refine (Carries.of_waited hs₅).trans ((hs₆.mono fun key hkey => ?_).trans (.of_waited hs₈))
  obtain ⟨userId, rfl⟩ := hkey
  exact ⟨by simp, fun id => by simp⟩

end

/-! ### The session -/

/-- A session with a new id and a new token is created for every account. -/
theorem createExclusiveSessionTx_ok {db : AuthDb} {userId : String}
    {sessionData : CreateExclusiveSessionInput} {stamp : Stamp}
    (haccount : (db.findAccountById userId).isSome)
    (hsession : ∀ x ∈ db.sessions, x.id ≠ stamp.sessionId)
    (htoken : ∀ t ∈ db.refreshTokens, t.id ≠ stamp.tokenId)
    (hhash : ∀ t ∈ db.refreshTokens, t.tokenHash ≠ sessionData.refreshTokenHash) :
    ∃ r db', (createExclusiveSessionTx userId sessionData stamp).run db = .ok (r, db') := by
  obtain ⟨account, haccount⟩ := Option.isSome_iff_exists.1 haccount
  simp only [createExclusiveSessionTx, lockAccount, Tx.bind_eq, Tx.acquire_bind, Tx.query_bind,
    Tx.lock_bind, Tx.read_bind, Tx.run_lock, Tx.run_read, haccount, Tx.pure_bind]
  rw [← revokeActiveSessions_run rfl]
  have hrevoked : ∀ x ∈ (db.revokeActive userId stamp.revokedAt .newLogin).sessions,
      x.id ≠ stamp.sessionId := by
    intro x hx
    have hids : (db.revokeActive userId stamp.revokedAt .newLogin).sessions.map (·.id) =
        db.sessions.map (·.id) := Table.map_updateWhere fun _ _ => rfl
    obtain ⟨y, hy, hid⟩ := List.mem_map.1 (hids ▸ List.mem_map_of_mem hx)
    exact hid ▸ hsession y hy
  simp only [Tx.update_bind]
  rw [Tx.run_write_ok (AuthDb.insertSession_eq_ok_iff.2 ⟨hrevoked, rfl⟩),
    Tx.run_write_ok (AuthDb.insertRefreshToken_eq_ok_iff.2 ⟨htoken, hhash, rfl⟩)]
  exact ⟨_, _, rfl⟩

/-- A new login leaves no session of the account active. -/
theorem revokeActive_ended {db : AuthDb} {userId : String} {now : ℕ}
    {reason : SessionRevocationReason} {x : AuthSessionRecord}
    (hx : x ∈ (db.revokeActive userId now reason).sessions) (howner : x.userId = userId) :
    x.revokedAt ≠ none := by
  obtain ⟨session, hsession, rfl⟩ := Table.mem_updateWhere.1 hx
  by_cases hids : decide (session.id ∈ (db.findActiveSessions userId).map (·.id)) = true
  · rw [if_pos hids]
    simp
  · rw [if_neg hids] at howner ⊢
    refine fun hactive => hids (decide_eq_true (List.mem_map_of_mem (List.mem_filter.2
      ⟨hsession, ?_⟩)))
    simp [AuthDb.activeOf, howner, hactive]

/-- The only active session of the account is the one of the tokens, and it is cached. -/
structure LoggedIn (config : AuthConfig) (s : AuthState) (account : AccountRecord)
    (login : CompletedLogin) (session : AuthSessionRecord) : Prop where
  active : session ∈ s.db.sessions ∧ session.userId = account.id ∧ session.revokedAt = none
  only : ∀ x ∈ s.db.sessions, x.userId = account.id → x.revokedAt = none → x = session
  refreshToken : session.refreshTokenHash = config.hashToken login.refreshToken
  csrfToken : session.csrfTokenHash = config.hashToken login.csrfToken
  accessToken : ∃ issuedAt, login.accessToken =
    config.signAccessToken ⟨account.id, account.role.value, session.id⟩ issuedAt
  cached : Holds session.expiresAt s (.session session.id)
    ⟨session.id, account.id, account.role.value, session.expiresAt, true⟩

section

open AuthSessionService RedisAuthStateService

/-- The entries of the sessions are deleted, and the rest is as before. -/
theorem deleteSessionCaches_returns (ids : List String) :
    (deleteSessionCaches ids).Returns config deadline
      (fun outs _ s₁ => outs = [] ∧ Carries (fun key => ∀ id, key ≠ .session id) s s₁) s := by
  induction ids generalizing s with
  | nil => exact Throwing.returns_pure ⟨rfl, .refl s⟩
  | cons id ids ih =>
      have hdelete : (deleteSessionCacheBestEffort id).Returns config deadline
          (fun outs _ s₁ => outs = [] ∧ Carries (fun key => ∀ id, key ≠ .session id) s s₁) s :=
        Throwing.Returns.tryCatch (returns_redis (c := .del (.session id)) fun s₁ hs₁ _ =>
          ⟨rfl, (Carries.of_waited hs₁).trans
            ((carries_apply s₁ (.del (.session id))).mono fun _ hkey => hkey id)⟩)
      refine hdelete.bind fun outs _ s₁ h₁ => ?_
      obtain ⟨rfl, hs₁⟩ := h₁
      exact ih.mono fun outs _ s₂ h₂ => ⟨h₂.1, hs₁.trans h₂.2⟩

theorem setSessionCache_returns {session : SessionCacheRecord} :
    (setSessionCache session).Returns config deadline
      (fun outs _ s₁ => outs = [] ∧
        Holds session.expiresAt s₁ (.session session.sessionId) session ∧
        Carries (fun key => key ≠ .session session.sessionId) s s₁) s := by
  refine now_returns.bind fun outs now s₁ hnow => ?_
  obtain ⟨rfl, rfl, -, hs₁⟩ := hnow
  refine returns_redis (c := cacheWrite session s₁.redis.now) fun s₂ hs₂ _ => ⟨rfl, ?_, ?_⟩
  · refine ⟨_, Store.cell_set_self _ _ _, ?_⟩
    have hnow := hs₂.now
    omega
  · exact (Carries.of_waited (hs₁.trans hs₂)).trans
      (carries_apply s₂ (cacheWrite session s₁.redis.now))

theorem createSessionAfterLogin_returns {account : AccountRecord}
    (haccount : s.db.findAccountById account.id = some account) :
    (createSessionAfterLogin config account.id account.role.value).Returns config deadline
      (fun outs tokens s₁ => outs = [] ∧ ∃ session,
        (∀ x ∈ s.db.sessions, x.id ≠ session.id) ∧
        s.redis.now + SESSION_TTL_MS ≤ session.expiresAt ∧ LoggedIn config s₁ account
          ⟨tokens.accessToken, tokens.expiresIn, tokens.csrfToken, tokens.refreshToken⟩
          session) s := by
  refine generate_returns.bind fun outs refreshToken s₁ h₁ => ?_
  obtain ⟨rfl, -, hfresh, hs₁⟩ := h₁
  refine generate_returns.bind fun outs csrfToken s₂ h₂ => ?_
  obtain ⟨rfl, -, -, hs₂⟩ := h₂
  refine now_returns.bind fun outs now s₃ h₃ => ?_
  obtain ⟨rfl, rfl, -, hs₃⟩ := h₃
  have hcreate : (authRepository (.createExclusiveSession account.id
      ⟨config.hashToken refreshToken, config.hashToken csrfToken,
        s₃.redis.now + SESSION_TTL_MS⟩)).Returns config deadline
      (fun outs (created : CreateExclusiveSessionResult) s₄ => outs = [] ∧
        (∀ x ∈ s.db.sessions, x.id ≠ created.session.id) ∧
        created.session.userId = account.id ∧ created.session.revokedAt = none ∧
        created.session.refreshTokenHash = config.hashToken refreshToken ∧
        created.session.csrfTokenHash = config.hashToken csrfToken ∧
        created.session.expiresAt = s₃.redis.now + SESSION_TTL_MS ∧
        created.session ∈ s₄.db.sessions ∧
        ∀ x ∈ s₄.db.sessions, x.userId = account.id → x.revokedAt = none →
          x = created.session) s₃ := by
    refine returns_authRepository (c := .createExclusiveSession account.id _)
      fun s₄ stamp hs₄ hsession htoken => ?_
    have hdb : s₄.db = s.db := (((hs₁.trans hs₂).trans hs₃).trans hs₄).db
    have hhash : ∀ t ∈ s₄.db.refreshTokens, t.tokenHash ≠ config.hashToken refreshToken := by
      rw [hdb, ← hs₁.db]
      exact hfresh
    have hfound : (s₄.db.findAccountById account.id).isSome := by
      rw [hdb, haccount]
      rfl
    have hok : ∃ created db', (createExclusiveSessionTx account.id ⟨config.hashToken refreshToken,
        config.hashToken csrfToken, s₃.redis.now + SESSION_TTL_MS⟩ stamp).run s₄.db =
          .ok (created, db') := createExclusiveSessionTx_ok hfound hsession htoken hhash
    obtain ⟨created, db', hrun⟩ := hok
    have hcreated := createExclusiveSessionTx_run hrun
    refine ⟨created, db', hrun, rfl, ?_⟩
    rw [hcreated.session, hcreated.result, hcreated.session]
    refine ⟨hdb ▸ hsession, rfl, rfl, rfl, rfl, rfl,
      List.mem_append_right _ (List.mem_singleton_self _), fun x hx howner hactive => ?_⟩
    rcases List.mem_append.1 hx with hx | hx
    · exact absurd hactive (revokeActive_ended hx howner)
    · exact List.mem_singleton.1 hx
  refine hcreate.bind fun outs created s₄ h₄ => ?_
  obtain ⟨rfl, hnew, howner, hactive, hrefresh, hcsrf, hexpires, hmem, honly⟩ := h₄
  refine (deleteSessionCaches_returns created.revokedSessionIds).bind fun outs _ s₅ h₅ => ?_
  obtain ⟨rfl, hs₅⟩ := h₅
  refine setSessionCache_returns.bind fun outs _ s₆ h₆ => ?_
  obtain ⟨rfl, hcached, hs₆⟩ := h₆
  refine now_returns.bind fun outs issuedAt s₇ h₇ => ?_
  obtain ⟨rfl, -, -, hs₇⟩ := h₇
  have hdb : s₇.db = s₄.db := (hs₇.db.trans hs₆.db).trans hs₅.db
  have hnow : s.redis.now ≤ s₃.redis.now := ((hs₁.trans hs₂).trans hs₃).now
  refine Throwing.returns_pure ⟨rfl, created.session, hnew, ?_, ⟨?_, ?_, hrefresh, hcsrf,
    ⟨issuedAt, rfl⟩, hcached.carried hs₇ trivial⟩⟩
  · exact hexpires ▸ Nat.add_le_add_right hnow _
  · exact hdb ▸ ⟨hmem, howner, hactive⟩
  · exact hdb ▸ honly

/-- A session that is cached as active is valid until it expires. -/
theorem validateSession_returns (session : SessionCacheRecord) (hactive : session.active = true)
    (h : Holds session.expiresAt s (.session session.sessionId) session)
    (hdeadline : deadline ≤ session.expiresAt) :
    (validateSession session.sessionId).Returns config deadline
      (fun outs principal s₁ => outs = [] ∧
        principal = some ⟨session.userId, session.role, session.sessionId⟩ ∧ Waited s s₁) s := by
  have hread : (readSessionCache session.sessionId).Returns config deadline
      (fun outs cached s₁ => outs = [] ∧ cached = some session ∧ Waited s s₁) s :=
    Throwing.Returns.tryCatch (returns_redis (c := .get (.session session.sessionId))
      fun s₁ hs₁ htime =>
        ⟨rfl, (h.carried hs₁ trivial).get (Nat.lt_of_lt_of_le htime hdeadline), hs₁⟩)
  refine hread.bind fun outs cached s₁ h₁ => ?_
  obtain ⟨rfl, rfl, hs₁⟩ := h₁
  dsimp only [validateCached]
  rw [if_neg (not_not_intro hactive)]
  refine now_returns.bind fun outs now s₂ h₂ => ?_
  obtain ⟨rfl, -, hnow, hs₂⟩ := h₂
  rw [if_neg (Nat.not_le.2 (Nat.lt_of_lt_of_le hnow hdeadline))]
  exact Throwing.returns_pure ⟨rfl, rfl, hs₁.trans hs₂⟩

end

section

open AuthService RedisAuthStateService

theorem completeLogin_returns {input : LoginDto} {account : AccountRecord}
    {challengeId issuanceId code : String} {expiresAt : ℕ} (h : MayLogIn config s input account)
    (hstarted : LoginStarted deadline s account challengeId issuanceId (config.hmac code)
      expiresAt) :
    (completeLogin config ⟨challengeId, code⟩).Returns config deadline
      (fun outs login s₁ => outs = [] ∧ ∃ session,
        (∀ x ∈ s.db.sessions, x.id ≠ session.id) ∧
        s.redis.now + SESSION_TTL_MS ≤ session.expiresAt ∧
        LoggedIn config s₁ account login session) s := by
  refine Throwing.Returns.tryCatch
    ((findLoginChallengeUserId_returns hstarted.challenge).bind fun outs found s₁ h₁ => ?_)
  obtain ⟨rfl, rfl, hs₁⟩ := h₁
  refine (isLoginLocked_returns (hs₁.get_eq_none trivial h.unlocked)).bind
    fun outs locked s₂ h₂ => ?_
  obtain ⟨rfl, rfl, hs₂⟩ := h₂
  have hs₂ : Waited s s₂ := hs₁.trans hs₂
  rw [if_neg Bool.false_ne_true]
  refine (consumeLoginChallenge_returns (hstarted.challenge.carried hs₂ trivial) rfl).bind
    fun outs consumed s₃ h₃ => ?_
  obtain ⟨rfl, rfl, hs₃⟩ := h₃
  have hs₃ : Carries IsLock s s₃ := (Carries.of_waited hs₂).trans (hs₃.mono fun key hkey => by
    obtain ⟨userId, rfl⟩ := hkey
    simp)
  refine (isLoginLocked_returns (hs₃.get_eq_none ⟨account.id, rfl⟩ h.unlocked)).bind
    fun outs locked s₄ h₄ => ?_
  obtain ⟨rfl, rfl, hs₄⟩ := h₄
  have hs₄ : Carries IsLock s s₄ := hs₃.trans (.of_waited hs₄)
  rw [if_neg Bool.false_ne_true]
  refine findAccountById_returns.bind fun outs found s₅ h₅ => ?_
  obtain ⟨rfl, hfound, hs₅⟩ := h₅
  rw [hs₄.db, h.byId] at hfound
  subst hfound
  have hs₅ : Carries IsLock s s₅ := hs₄.trans (.of_waited hs₅)
  dsimp only
  rw [if_neg (not_not_intro h.active)]
  have haccount : s₅.db.findAccountById account.id = some account := by
    rw [hs₅.db, h.byId]
  refine (createSessionAfterLogin_returns haccount).bind fun outs tokens s₆ h₆ => ?_
  obtain ⟨rfl, session, hnew, hexpires, hlogged⟩ := h₆
  refine audit_returns.bind fun outs _ s₇ h₇ => ?_
  obtain ⟨rfl, hs₇⟩ := h₇
  refine Throwing.returns_pure ⟨rfl, session, hs₅.db ▸ hnew,
    Nat.le_trans (Nat.add_le_add_right hs₅.now _) hexpires, ?_⟩
  refine ⟨hs₇.db ▸ hlogged.active, hs₇.db ▸ hlogged.only, hlogged.refreshToken,
    hlogged.csrfToken, hlogged.accessToken, hlogged.cached.carried hs₇ trivial⟩

/-- A login that is completed within the hour ends with a new session of the account that is
valid until it expires: `startLogin` leaves a job, the worker that takes the job sends a code, and
the code completes the challenge. -/
theorem login_returns {input : LoginDto} {clientIp : String} {account : AccountRecord}
    (h : MayLogIn config s input account)
    (hrate : ∀ n, s.redis.count (loginCounter config account.email clientIp) = some n →
      n < LOGIN_RATE_LIMIT)
    (hdeadline : deadline ≤ s.redis.now + TTL_ONE_HOUR_SECONDS * 1000) :
    (startLogin config input clientIp).Returns config deadline (fun outs challenge s₁ =>
      ∃ job, outs = [.enqueue job] ∧
      (EmailProcessor.processLogin config job).Returns config deadline (fun outs _ s₂ =>
        ∃ code, outs = [.sendMail (EmailProcessor.loginMail account.email code)] ∧
        (completeLogin config ⟨challenge.challengeId, code⟩).Returns config deadline
          (fun outs login s₃ => outs = [] ∧ ∃ session,
            (∀ x ∈ s.db.sessions, x.id ≠ session.id) ∧
            s₂.redis.now + SESSION_TTL_MS ≤ session.expiresAt ∧
            LoggedIn config s₃ account login session ∧
            (AuthSessionService.validateSession session.id).Returns config session.expiresAt
              (fun outs principal _ => outs = [] ∧
                principal = some ⟨account.id, account.role.value, session.id⟩) s₃) s₂) s₁) s := by
  refine (startLogin_returns h hrate hdeadline).mono fun outs challenge s₁ h₁ => ?_
  obtain ⟨issuanceId, codeHmac, houts, hstarted, hs₁⟩ := h₁
  have hmay := h.carried hs₁ ⟨account.id, rfl⟩
  have hlater : deadline ≤ s₁.redis.now + TTL_ONE_HOUR_SECONDS * 1000 :=
    Nat.le_trans hdeadline (Nat.add_le_add_right hs₁.now _)
  refine ⟨_, houts, (processLogin_returns hmay.byId hstarted hlater).mono
    fun outs _ s₂ h₂ => ?_⟩
  obtain ⟨code, expiresAt, houts, hstarted, hs₂⟩ := h₂
  have hmay := hmay.carried hs₂ ⟨account.id, rfl⟩
  refine ⟨code, houts, (completeLogin_returns hmay hstarted).mono fun outs login s₃ h₃ => ?_⟩
  obtain ⟨houts, session, hnew, hexpires, hlogged⟩ := h₃
  have hdb : s₂.db = s.db := hs₂.db.trans hs₁.db
  exact ⟨houts, session, hdb ▸ hnew, hexpires, hlogged, (validateSession_returns
    ⟨session.id, account.id, account.role.value, session.expiresAt, true⟩ rfl hlogged.cached
    (Nat.le_refl _)).mono fun outs principal _ h₄ => ⟨h₄.1, h₄.2.1⟩⟩

def exampleLogin : LoginDto := ⟨" u@example.com", examplePassword⟩

theorem exampleLogin_mayLogIn :
    MayLogIn exampleConfig (AuthState.init [passwordUser]) exampleLogin passwordUser where
  email := by decide +kernel
  byEmail := by decide +kernel
  byId := by decide +kernel
  id := by decide +kernel
  active := rfl
  password := by decide +kernel
  unlocked := rfl

theorem exampleLogin_returns :
    (startLogin exampleConfig exampleLogin "192.0.2.7").Returns exampleConfig 3600000
      (fun outs challenge s₁ => ∃ job, outs = [.enqueue job] ∧
        (EmailProcessor.processLogin exampleConfig job).Returns exampleConfig 3600000
          (fun outs _ s₂ =>
            ∃ code, outs = [.sendMail (EmailProcessor.loginMail "u@example.com" code)] ∧
            (completeLogin exampleConfig ⟨challenge.challengeId, code⟩).Returns exampleConfig
              3600000 (fun outs login s₃ => outs = [] ∧ ∃ session,
                (∀ x ∈ (AuthState.init [passwordUser]).db.sessions, x.id ≠ session.id) ∧
                s₂.redis.now + SESSION_TTL_MS ≤ session.expiresAt ∧
                LoggedIn exampleConfig s₃ passwordUser login session ∧
                (AuthSessionService.validateSession session.id).Returns exampleConfig
                  session.expiresAt (fun outs principal _ => outs = [] ∧
                    principal = some ⟨"u", "USER", session.id⟩) s₃) s₂) s₁)
      (AuthState.init [passwordUser]) :=
  login_returns exampleLogin_mayLogIn (fun _ hcount => by cases hcount) (by decide)

end

end Auth

end Shortlink
