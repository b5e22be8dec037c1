import Shortlink.Account.SignUp

/-!
# A forgotten password is replaced

An active account gets a mail with a link and, with the token of this link, the new password;
its sessions are revoked (`reset_replaces`). Nothing fails, and the token is presented within
the hour.
-/

namespace Shortlink

namespace Account

open Shortlink.Storage Shortlink.Table Shortlink.Transaction Shortlink.Interaction
open Shortlink.Expiring Shortlink.Auth AccountProgram

variable {config : AccountConfig} {deadline : ℕ} {s : AccountState}

/-! ### The tables -/

section

variable {db : AccountDb} {stamp : AccountStamp}

/-- A token with a new id is created for every account. -/
theorem createPasswordResetTokenTx_ok {userId : String} {input : CreatePasswordResetTokenInput}
    (haccount : (db.auth.findAccountById userId).isSome)
    (hid : ∀ t ∈ db.passwordResetTokens, t.id ≠ stamp.id) :
    ∃ r db', (createPasswordResetTokenTx userId input stamp).run db = .ok (r, db') := by
  have hids : ¬ ((db.markUsed userId stamp.usedAt).passwordResetTokens.any
      fun t => t.id == stamp.id) = true := by
    intro hany
    obtain ⟨t, ht, heq⟩ := List.any_eq_true.1 hany
    obtain ⟨t', ht', rfl⟩ := mem_updateWhere.1 ht
    refine hid t' ht' ?_
    split at heq <;> exact beq_iff_eq.1 heq
  rw [createPasswordResetTokenTx, Tx.bind_eq, lockAccount_bind, if_pos haccount, Tx.bind_eq,
    markResetTokensUsed_bind]
  simp only [Tx.bind_eq, Tx.update_bind]
  rw [Tx.run_write_ok (show (db.markUsed userId stamp.usedAt).insertPasswordResetToken _ = .ok _ by
    rw [AccountDb.insertPasswordResetToken, if_neg hids])]
  exact ⟨_, _, rfl⟩

theorem findPasswordResetToken_concat {userId tokenHash : String} {now : ℕ}
    {row : PasswordResetTokenRecord}
    (hhash : ∀ t ∈ db.passwordResetTokens, t.tokenHash ≠ tokenHash)
    (hrow : row.tokenHash = tokenHash) :
    ((db.markUsed userId now).passwordResetTokens ++ [row]).find?
      (fun t => decide (t.tokenHash = tokenHash)) = some row := by
  have hnone : (db.markUsed userId now).passwordResetTokens.find?
      (fun t => decide (t.tokenHash = tokenHash)) = none := by
    refine List.find?_eq_none.2 fun t ht htoken => ?_
    obtain ⟨t', ht', rfl⟩ := mem_updateWhere.1 ht
    refine hhash t' ht' ?_
    split at htoken <;> exact of_decide_eq_true htoken
  rw [List.find?_append, hnone, Option.none_or, List.find?_singleton,
    if_pos (decide_eq_true hrow)]

theorem revokeAllSessionsTx_ok {db : AuthDb} {userId : String}
    {reason : SessionRevocationReason} {stamp : Stamp}
    (haccount : (db.findAccountById userId).isSome) :
    (revokeAllSessionsTx userId reason stamp).run db =
      .ok ((db.findActiveSessions userId).map (·.id),
        db.revokeActive userId stamp.revokedAt reason) := by
  obtain ⟨account, haccount⟩ := Option.isSome_iff_exists.1 haccount
  simp only [revokeAllSessionsTx, Auth.lockAccount, Tx.bind_eq, Tx.acquire_bind, Tx.query_bind,
    Tx.lock_bind, Tx.read_bind, Tx.run_lock, Tx.run_read, haccount, Tx.pure_bind]
  have hrun : ((revokeActiveSessions userId reason stamp).bind Tx.pure).run db =
      .ok ((db.findActiveSessions userId).map (·.id),
        db.revokeActive userId stamp.revokedAt reason) := (revokeActiveSessions_run rfl).symm
  rwa [Tx.bind_pure] at hrun

def rehashedAt (passwordHash : String) (now : ℕ) (account : AccountRecord) : AccountRecord :=
  if account.passwordHash ≠ passwordHash then { account with passwordHash, updatedAt := now }
  else account

theorem rehashedAt_fields (passwordHash : String) (now : ℕ) (account : AccountRecord) :
    (rehashedAt passwordHash now account).id = account.id ∧
      (rehashedAt passwordHash now account).email = account.email ∧
      (rehashedAt passwordHash now account).status = account.status ∧
      (rehashedAt passwordHash now account).passwordHash = passwordHash := by
  by_cases hsame : account.passwordHash = passwordHash
  · rw [rehashedAt, if_neg (not_not_intro hsame)]
    exact ⟨rfl, rfl, rfl, hsame⟩
  · rw [rehashedAt, if_pos hsame]
    exact ⟨rfl, rfl, rfl, rfl⟩

theorem find?_savePasswordHash {account : AccountRecord} {q : AccountRecord → Bool}
    (hq : ∀ (a : AccountRecord) passwordHash updatedAt,
      q { a with passwordHash, updatedAt } = q a)
    (h : db.auth.users.find? q = some account) (passwordHash : String) (now : ℕ) :
    (db.savePasswordHash account.id passwordHash now).auth.users.find? q =
      some (rehashedAt passwordHash now account) := by
  have hfind : (db.savePasswordHash account.id passwordHash now).auth.users.find? q =
      (db.auth.users.find? q).map fun a =>
        if (a.id == account.id && decide (a.passwordHash ≠ passwordHash)) = true then
          { a with passwordHash, updatedAt := now }
        else a :=
    find?_updateWhere fun a _ => hq a passwordHash now
  rw [hfind, h, Option.map_some, rehashedAt]
  simp

end

/-! ### The reset -/

/-- The account is active, it has this e-mail, and it is not locked. -/
structure Recoverable (config : AccountConfig) (s : AccountState) (raw : String)
    (account : AccountRecord) : Prop where
  email : createEmail config.auth.toLowerCase raw = some account.email
  byEmail : s.auth.db.findAccountByEmail account.email = some account
  byId : s.auth.db.findAccountById account.id = some account
  id : account.id ≠ ""
  active : account.status = .active
  unlocked : s.auth.redis.get (.loginLock account.id) = none

theorem Recoverable.carried {keys : RedisKey → Prop} {s₁ : AccountState} {raw : String}
    {account : AccountRecord} (h : Recoverable config s raw account)
    (hcarries : Carries keys s.auth s₁.auth) (hkey : keys (.loginLock account.id)) :
    Recoverable config s₁ raw account where
  email := h.email
  byEmail := by rw [hcarries.db, h.byEmail]
  byId := by rw [hcarries.db, h.byId]
  id := h.id
  active := h.active
  unlocked := hcarries.get_eq_none hkey h.unlocked

/-- The token resets the password of the account until the deadline. -/
def Redeems (config : AccountConfig) (deadline : ℕ) (s : AccountState) (userId token : String) :
    Prop :=
  ∃ row : PasswordResetTokenRecord,
    s.db.findPasswordResetToken (config.auth.hashToken token) = some row ∧
      row.userId = userId ∧ row.usedAt = none ∧ deadline ≤ row.expiresAt

theorem Redeems.untouched {s₁ : AccountState} {userId token : String}
    (h : Redeems config deadline s userId token) (huntouched : Untouched s s₁) :
    Redeems config deadline s₁ userId token := by
  obtain ⟨row, hfind, hrow⟩ := h
  refine ⟨row, ?_, hrow⟩
  rw [AccountDb.findPasswordResetToken, AccountState.db, huntouched.tokens]
  exact hfind

section

open AuthService RedisAuthStateService Auth.RedisAuthStateService

theorem enqueueReset_returns {raw : String} {account : AccountRecord}
    (h : Recoverable config s raw account)
    (hdeadline : deadline ≤ s.auth.redis.now + TTL_ONE_HOUR_SECONDS * 1000) :
    (enqueueReset account.id).Returns config deadline
      (fun outs _ s₁ => ∃ issuanceId, outs = [.enqueuePasswordReset ⟨account.id, issuanceId⟩] ∧
        Recoverable config s₁ raw account ∧
        Holds deadline s₁.auth (.issuance .reset account.id) issuanceId ∧
        s.auth.redis.now ≤ s₁.auth.redis.now) s := by
  refine generate_returns.bind fun outs issuanceId s₁ h₁ => ?_
  obtain ⟨rfl, -, hs₁⟩ := h₁
  have hlater : deadline ≤ s₁.auth.redis.now + TTL_ONE_HOUR_SECONDS * 1000 :=
    Nat.le_trans hdeadline (Nat.add_le_add_right hs₁.auth.now _)
  refine (ofAuth_returns (setIssuance_returns hlater)).bind fun outs _ s₂ h₂ => ?_
  obtain ⟨_, sb, rfl, ⟨rfl, hissuance, hsb⟩, hwait, huntouched⟩ := h₂
  have hissuance := hissuance.carried hwait trivial
  have hs₂ : Keeps IsLock s s₂ := (Keeps.of_waited hs₁).trans
    (.of_auth (hsb.mono fun key hkey => by
      obtain ⟨userId, rfl⟩ := hkey
      simp) hwait huntouched)
  refine enqueuePasswordReset_returns.bind fun outs _ s₃ h₃ => ?_
  obtain ⟨rfl, hs₃⟩ := h₃
  refine (ofAuth_returns AuthProgram.audit_returns).mono fun outs _ s₄ h₄ => ?_
  obtain ⟨_, sd, rfl, ⟨rfl, hsd⟩, hwait, huntouched⟩ := h₄
  have hs₄ := hs₃.trans (.of_auth hsd hwait huntouched)
  exact ⟨issuanceId, rfl, h.carried (hs₂.trans (.of_waited hs₄)).auth ⟨account.id, rfl⟩,
    hissuance.carried hs₄.auth trivial, (hs₂.trans (.of_waited hs₄)).auth.now⟩

theorem requestPasswordReset_returns {input : EmailDto} {clientIp : String}
    {account : AccountRecord} (h : Recoverable config s input.email account)
    (hemail : ∀ n, s.auth.redis.count (.rate FORGOT_PASSWORD_RATE_OPERATION .email
      (config.auth.hashRateLimitValue account.email)) = some n → n < EMAIL_RATE_LIMIT)
    (hip : ∀ n, s.auth.redis.count (.rate FORGOT_PASSWORD_RATE_OPERATION .ip
      (config.auth.hashRateLimitValue (if clientIp = "" then "unknown" else clientIp))) =
        some n → n < IP_RATE_LIMIT)
    (hdeadline : deadline ≤ s.auth.redis.now + TTL_ONE_HOUR_SECONDS * 1000) :
    (requestPasswordReset config input clientIp).Returns config deadline
      (fun outs _ s₁ => ∃ issuanceId, outs = [.enqueuePasswordReset ⟨account.id, issuanceId⟩] ∧
        Recoverable config s₁ input.email account ∧
        Holds deadline s₁.auth (.issuance .reset account.id) issuanceId ∧
        s.auth.redis.now ≤ s₁.auth.redis.now) s := by
  refine (ofAuth_returns (parseEmail_returns h.email)).bind fun outs value s₁ h₁ => ?_
  obtain ⟨_, sa, rfl, ⟨rfl, rfl, rfl⟩, hwait, huntouched⟩ := h₁
  have hs₁ : Keeps (fun _ => True) s s₁ := .of_auth (.refl _) hwait huntouched
  refine (assertWithinRateLimits_returns (hs₁.auth.count_le trivial hemail)
    (hs₁.auth.count_le trivial hip)).bind fun outs _ s₂ h₂ => ?_
  obtain ⟨rfl, hs₂⟩ := h₂
  have hs₂ : Keeps IsLock s s₂ := (Keeps.of_waited hs₁).trans hs₂
  refine Throwing.Returns.tryCatch
    ((ofAuth_returns AuthProgram.findAccountByEmail_returns).bind fun outs found s₃ h₃ => ?_)
  obtain ⟨_, sc, rfl, ⟨rfl, hfound, hsc⟩, hwait, huntouched⟩ := h₃
  have hs₃ : Keeps IsLock s s₃ := hs₂.trans (.of_auth (.of_waited hsc) hwait huntouched)
  rw [hs₂.auth.db, h.byEmail] at hfound
  subst hfound
  dsimp only
  rw [if_neg (not_not_intro h.active)]
  have hlater : deadline ≤ s₃.auth.redis.now + TTL_ONE_HOUR_SECONDS * 1000 :=
    Nat.le_trans hdeadline (Nat.add_le_add_right hs₃.auth.now _)
  refine (enqueueReset_returns (h.carried hs₃.auth ⟨account.id, rfl⟩) hlater).mono
    fun outs _ s₄ h₄ => ?_
  obtain ⟨issuanceId, houts, hrecoverable, hissuance, hnow⟩ := h₄
  exact ⟨issuanceId, houts, hrecoverable, hissuance, Nat.le_trans hs₃.auth.now hnow⟩

end

section

open EmailProcessor RedisAuthStateService Auth.RedisAuthStateService

/-- The worker sends a link with a token of the account. -/
theorem processPasswordReset_returns {raw issuanceId : String} {account : AccountRecord}
    (h : Recoverable config s raw account)
    (hissuance : Holds deadline s.auth (.issuance .reset account.id) issuanceId)
    (hdeadline : deadline ≤ s.auth.redis.now + TTL_ONE_HOUR_SECONDS * 1000) :
    (processPasswordReset config ⟨account.id, issuanceId⟩).Returns config deadline
      (fun outs _ s₁ => ∃ token,
        outs = [.auth (.sendMail (resetMail config account.email token))] ∧
        Recoverable config s₁ raw account ∧ Redeems config deadline s₁ account.id token) s := by
  refine (ofAuth_returns (isCurrentIssuance_returns hissuance)).bind fun outs current s₁ h₁ => ?_
  obtain ⟨_, sa, rfl, ⟨rfl, rfl, hsa⟩, hwait, huntouched⟩ := h₁
  have hs₁ := Keeps.of_auth hsa hwait huntouched
  rw [if_neg (not_not_intro rfl)]
  refine (ofAuth_returns AuthProgram.findAccountById_returns).bind fun outs found s₂ h₂ => ?_
  obtain ⟨_, sb, rfl, ⟨rfl, hfound, hsb⟩, hwait, huntouched⟩ := h₂
  have hs₂ := hs₁.trans (.of_auth hsb hwait huntouched)
  rw [hs₁.auth.db, h.byId] at hfound
  subst hfound
  refine generate_returns.bind fun outs token s₃ h₃ => ?_
  obtain ⟨rfl, hfresh, hs₃⟩ := h₃
  refine (ofAuth_returns AuthProgram.now_returns).bind fun outs now s₄ h₄ => ?_
  obtain ⟨_, sd, rfl, ⟨rfl, rfl, -, hsd⟩, hwait₄, huntouched₄⟩ := h₄
  have hs₄ : Keeps (fun _ => True) s₃ s₄ := .of_auth hsd hwait₄ huntouched₄
  have hexpires : deadline ≤ sd.redis.now + Account.EmailProcessor.ONE_HOUR_MS :=
    Nat.le_trans hdeadline (Nat.add_le_add_right ((hs₂.trans hs₃).auth.trans hsd).now _)
  have hcreate : (accountRepository (.createPasswordResetToken account.id
      ⟨config.auth.hashToken token,
        sd.redis.now + Account.EmailProcessor.ONE_HOUR_MS⟩)).Returns config deadline
      (fun outs _ s₅ => outs = [] ∧ Waited s.auth s₅.auth ∧
        Redeems config deadline s₅ account.id token) s₄ := by
    refine returns_accountRepository (c := .createPasswordResetToken account.id _)
      fun s₅ stamp hs₅ hstamp => ?_
    have hs₅' : Keeps (fun _ => True) s s₅ := ((hs₂.trans hs₃).trans hs₄).trans hs₅
    have haccount : (s₅.db.auth.findAccountById account.id).isSome = true :=
      Option.isSome_iff_exists.2 ⟨account, (h.carried hs₅'.auth trivial).byId⟩
    have hok : ∃ r db', (createPasswordResetTokenTx account.id ⟨config.auth.hashToken token,
        sd.redis.now + Account.EmailProcessor.ONE_HOUR_MS⟩ stamp).run s₅.db = .ok (r, db') :=
      createPasswordResetTokenTx_ok haccount hstamp.tokenId
    obtain ⟨row, db', hrun⟩ := hok
    obtain ⟨hrow, -, hdb⟩ := createPasswordResetTokenTx_run hrun
    subst hdb
    have hhash : ∀ t ∈ s₅.db.passwordResetTokens, t.tokenHash ≠ config.auth.hashToken token := by
      rw [AccountState.db, (hs₄.trans hs₅).tokens]
      exact hfresh
    refine ⟨row, _, hrun, rfl, hs₅'.auth, row, ?_, ?_⟩
    · exact findPasswordResetToken_concat hhash (by rw [hrow])
    · rw [hrow]
      exact ⟨rfl, rfl, hexpires⟩
  refine hcreate.bind fun outs _ s₅ h₅ => ?_
  obtain ⟨rfl, hs₅, hredeems⟩ := h₅
  refine (ofAuth_returns (isCurrentIssuance_returns (hissuance.carried hs₅ trivial))).bind
    fun outs stillCurrent s₆ h₆ => ?_
  obtain ⟨_, sf, rfl, ⟨rfl, rfl, hsf⟩, hwait, huntouched₆⟩ := h₆
  have hs₆ := hs₅.trans (hsf.trans hwait)
  rw [if_pos rfl]
  refine (ofAuth_returns AuthProgram.sendMail_returns).mono fun outs _ s₇ h₇ => ?_
  obtain ⟨_, sg, rfl, ⟨rfl, hsg⟩, hwait, huntouched₇⟩ := h₇
  exact ⟨token, rfl, h.carried (hs₆.trans (hsg.trans hwait)) trivial,
    hredeems.untouched (huntouched₆.trans huntouched₇)⟩

end

section

open AuthService

theorem revokeAll_returns {config : AuthConfig} {s : AuthState} {userId : String}
    {reason : SessionRevocationReason} (haccount : (s.db.findAccountById userId).isSome) :
    (AuthSessionService.revokeAll userId reason).Returns config deadline
      (fun outs _ s₁ => outs = [] ∧ (∃ now, s₁.db = s.db.revokeActive userId now reason) ∧
        ∀ id, s.redis.get (.loginLock id) = none → s₁.redis.get (.loginLock id) = none) s := by
  have hrevoke : (AuthProgram.authRepository (.revokeAllSessions userId reason)).Returns config
      deadline (fun outs _ s₁ => outs = [] ∧
        (∃ now, s₁.db = s.db.revokeActive userId now reason) ∧
        ∀ id, s.redis.get (.loginLock id) = none → s₁.redis.get (.loginLock id) = none) s := by
    refine AuthProgram.returns_authRepository (c := .revokeAllSessions userId reason)
      fun s₁ stamp hs₁ _ _ => ?_
    have haccount' : (s₁.db.findAccountById userId).isSome := by rw [hs₁.db, haccount]
    refine ⟨_, _, revokeAllSessionsTx_ok haccount', rfl, ⟨stamp.revokedAt, ?_⟩, fun id hid =>
      hs₁.get_eq_none trivial hid⟩
    rw [hs₁.db]
  refine hrevoke.bind fun outs ids s₁ h₁ => ?_
  obtain ⟨rfl, ⟨now, hdb⟩, hlocks⟩ := h₁
  refine (deleteSessionCaches_returns ids).mono fun outs _ s₂ h₂ => ?_
  obtain ⟨rfl, hs₂⟩ := h₂
  exact ⟨rfl, ⟨now, hs₂.db.trans hdb⟩, fun id hid =>
    hs₂.get_eq_none (fun _ => by simp) (hlocks id hid)⟩

/-- The token sets the password, and no session of the account is left. -/
theorem resetPassword_returns {raw : String} {account : AccountRecord} {input : ResetPasswordDto}
    (h : Recoverable config s raw account)
    (htoken : Redeems config deadline s account.id input.token)
    (hpassword : meetsPolicy input.password.toList = true)
    (hconfirmation : input.password = input.passwordConfirmation) :
    (resetPassword config input).Returns config deadline
      (fun outs _ s₁ => outs = [] ∧ ∃ account' : AccountRecord, account'.id = account.id ∧
        MayLogIn config.auth s₁.auth ⟨raw, input.password⟩ account' ∧
        ∀ x ∈ s₁.auth.db.sessions, x.userId = account.id → x.revokedAt ≠ none) s := by
  refine (parsePassword_returns hpassword).bind fun outs _ s₁ h₁ => ?_
  obtain ⟨rfl, rfl⟩ := h₁
  refine (assertPasswordConfirmation_returns hconfirmation).bind fun outs _ s₂ h₂ => ?_
  obtain ⟨rfl, rfl⟩ := h₂
  have hconsume : (accountRepository (.consumePasswordResetToken
      (config.auth.hashToken input.token))).Returns config deadline
      (fun outs (consumed : Option PasswordResetTokenRecord) s₃ => outs = [] ∧
        (∃ row : PasswordResetTokenRecord, consumed = some row ∧ row.userId = account.id) ∧
        Waited s₂.auth s₃.auth) s₂ := by
    refine returns_accountRepository (c := .consumePasswordResetToken _)
      fun s₃ stamp hs₃ hstamp => ?_
    obtain ⟨row, hfind, howner, hunused, hexpires⟩ := htoken.untouched hs₃.toUntouched
    have haccount : (s₃.db.auth.findAccountById row.userId).isSome = true :=
      howner ▸ Option.isSome_iff_exists.2 ⟨account, (h.carried hs₃.auth trivial).byId⟩
    have hrun := consumePasswordResetTokenTx_usable hfind
      ⟨hunused, Nat.lt_of_lt_of_le hstamp.checkedAt hexpires⟩
      ⟨hunused, Nat.lt_of_lt_of_le hstamp.lockedAt hexpires⟩ haccount
    exact ⟨_, _, hrun, rfl, ⟨_, rfl, howner⟩, hs₃.auth⟩
  refine hconsume.bind fun outs consumed s₃ h₃ => ?_
  obtain ⟨rfl, ⟨row, rfl, howner⟩, hs₃⟩ := h₃
  dsimp only
  rw [howner]
  have h := h.carried hs₃ trivial
  refine hash_returns.bind fun outs passwordHash s₄ h₄ => ?_
  obtain ⟨rfl, hpattern, hcompare, hs₄⟩ := h₄
  have h := h.carried hs₄.auth trivial
  have hupdate : (accountRepository (.updatePasswordHash account.id passwordHash)).Returns config
      deadline (fun outs _ s₅ => outs = [] ∧ ∃ account' : AccountRecord,
        account'.id = account.id ∧
        MayLogIn config.auth s₅.auth ⟨raw, input.password⟩ account') s₄ := by
    refine returns_accountRepository (c := .updatePasswordHash account.id passwordHash)
      fun s₅ stamp hs₅ _ => ?_
    have h := h.carried hs₅.auth trivial
    have hbyEmail : s₅.db.auth.findAccountByEmail account.email = some account := h.byEmail
    have hbyId : s₅.db.auth.findAccountById account.id = some account := h.byId
    have haccount : (s₅.db.auth.findAccountById account.id).isSome = true := by
      rw [hbyId]
      rfl
    have hrun : (updatePasswordHashTx account.id passwordHash stamp).run s₅.db =
        .ok ((), s₅.db.savePasswordHash account.id passwordHash stamp.createdAt) :=
      updatePasswordHashTx_run.trans (if_pos haccount)
    obtain ⟨hid, hemail, hstatus, hhash⟩ := rehashedAt_fields passwordHash stamp.createdAt account
    refine ⟨_, _, hrun, rfl, rehashedAt passwordHash stamp.createdAt account, hid, ?_⟩
    refine ⟨hemail ▸ h.email, ?_, ?_, hid ▸ h.id, hstatus ▸ h.active, ?_, hid ▸ h.unlocked⟩
    · rw [hemail]
      exact find?_savePasswordHash (fun _ _ _ => rfl) hbyEmail _ _
    · rw [hid]
      exact find?_savePasswordHash (fun _ _ _ => rfl) hbyId _ _
    · rw [hhash, Auth.AuthService.passwordMatchesAccount, hpassword, hpattern, hcompare]
      rfl
  refine hupdate.bind fun outs _ s₅ h₅ => ?_
  obtain ⟨rfl, account', hid, hlogin⟩ := h₅
  have haccount : (s₅.auth.db.findAccountById account.id).isSome := by
    rw [← hid, hlogin.byId]
    rfl
  refine (ofAuth_returns (revokeAll_returns haccount)).bind fun outs _ s₆ h₆ => ?_
  obtain ⟨_, sf, rfl, ⟨rfl, ⟨now, hdb⟩, hlocks⟩, hwait₆, -⟩ := h₆
  refine (ofAuth_returns AuthProgram.audit_returns).mono fun outs _ s₇ h₇ => ?_
  obtain ⟨_, sg, rfl, ⟨rfl, hsg⟩, hwait₇, -⟩ := h₇
  have hs₇ : Waited sf s₇.auth := hwait₆.trans (hsg.trans hwait₇)
  have hdb : s₇.auth.db = s₅.auth.db.revokeActive account.id now .passwordReset :=
    hs₇.db.trans hdb
  refine ⟨rfl, account', hid, ⟨hlogin.email, ?_, ?_, hlogin.id, hlogin.active, hlogin.password,
    hs₇.get_eq_none trivial (hlocks _ hlogin.unlocked)⟩, fun x hx => ?_⟩
  · rw [hdb]
    exact hlogin.byEmail
  · rw [hdb]
    exact hlogin.byId
  · exact revokeActive_ended (hdb ▸ hx)

/-- A reset that is completed within the hour replaces the password: `requestPasswordReset`
leaves a job, the worker that takes the job sends a link with a token, and with this token
`resetPassword` sets a password with which the account can log in, and ends its sessions. -/
theorem reset_replaces {email clientIp password : String} {account : AccountRecord}
    (h : Recoverable config s email account)
    (hemail : ∀ n, s.auth.redis.count (.rate FORGOT_PASSWORD_RATE_OPERATION .email
      (config.auth.hashRateLimitValue account.email)) = some n → n < EMAIL_RATE_LIMIT)
    (hip : ∀ n, s.auth.redis.count (.rate FORGOT_PASSWORD_RATE_OPERATION .ip
      (config.auth.hashRateLimitValue (if clientIp = "" then "unknown" else clientIp))) =
        some n → n < IP_RATE_LIMIT)
    (hpassword : meetsPolicy password.toList = true)
    (hdeadline : deadline ≤ s.auth.redis.now + TTL_ONE_HOUR_SECONDS * 1000) :
    (requestPasswordReset config ⟨email⟩ clientIp).Returns config deadline (fun outs _ s₁ =>
      ∃ job, outs = [.enqueuePasswordReset job] ∧
      (EmailProcessor.processPasswordReset config job).Returns config deadline (fun outs _ s₂ =>
        ∃ token, outs = [.auth (.sendMail (EmailProcessor.resetMail config account.email token))] ∧
        (resetPassword config ⟨token, password, password⟩).Returns config deadline
          (fun outs _ s₃ => outs = [] ∧ ∃ account' : AccountRecord, account'.id = account.id ∧
            MayLogIn config.auth s₃.auth ⟨email, password⟩ account' ∧
            ∀ x ∈ s₃.auth.db.sessions, x.userId = account.id → x.revokedAt ≠ none) s₂) s₁) s := by
  refine (requestPasswordReset_returns h hemail hip hdeadline).mono fun outs _ s₁ h₁ => ?_
  obtain ⟨issuanceId, houts, hrecoverable, hissuance, hnow⟩ := h₁
  have hlater : deadline ≤ s₁.auth.redis.now + TTL_ONE_HOUR_SECONDS * 1000 :=
    Nat.le_trans hdeadline (Nat.add_le_add_right hnow _)
  refine ⟨_, houts, (processPasswordReset_returns hrecoverable hissuance hlater).mono
    fun outs _ s₂ h₂ => ?_⟩
  obtain ⟨token, houts, hrecoverable, hredeems⟩ := h₂
  exact ⟨token, houts, resetPassword_returns hrecoverable hredeems hpassword rfl⟩

theorem passwordUser_recoverable : Recoverable exampleAccounts (AccountState.init [passwordUser])
    " u@example.com" passwordUser where
  email := by decide +kernel
  byEmail := by decide +kernel
  byId := by decide +kernel
  id := by decide +kernel
  active := rfl
  unlocked := rfl

theorem passwordUser_replaces :
    (requestPasswordReset exampleAccounts ⟨" u@example.com"⟩ "192.0.2.7").Returns exampleAccounts
      3600000 (fun outs _ s₁ => ∃ job, outs = [.enqueuePasswordReset job] ∧
        (EmailProcessor.processPasswordReset exampleAccounts job).Returns exampleAccounts 3600000
          (fun outs _ s₂ => ∃ token, outs = [.auth (.sendMail
              (EmailProcessor.resetMail exampleAccounts "u@example.com" token))] ∧
            (resetPassword exampleAccounts ⟨token, "Secret-1", "Secret-1"⟩).Returns
              exampleAccounts 3600000 (fun outs _ s₃ => outs = [] ∧ ∃ account : AccountRecord,
                account.id = "u" ∧
                MayLogIn exampleConfig s₃.auth ⟨" u@example.com", "Secret-1"⟩ account ∧
                ∀ x ∈ s₃.auth.db.sessions, x.userId = "u" → x.revokedAt ≠ none) s₂) s₁)
      (AccountState.init [passwordUser]) :=
  reset_replaces passwordUser_recoverable (fun _ hcount => by cases hcount)
    (fun _ hcount => by cases hcount) (by decide +kernel) (by decide)

end

end Account

end Shortlink
