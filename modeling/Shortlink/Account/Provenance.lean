import Shortlink.Account.Warrants

/-!
# Where the accounts come from

Every account was there from the start or a call has registered it, and since then it has changed
only with a warrant: it is active because its address was verified with a code that the worker
had drawn for it, and its password hash was drawn for a password that was sent with a token of
the account (`accounts_vouched`). A mail goes to the address of the account that its secret
was drawn and stored for (`mails_reach_owner`).
-/

namespace Shortlink

namespace Account

open Shortlink.Storage Shortlink.Table Shortlink.Transaction Shortlink.Interaction
open Shortlink.Expiring Shortlink.Auth AccountProgram

/-! ### What a method does to the accounts -/

/-- What a method makes of an account. -/
inductive Evolves : AccountCommand → AccountRecord → AccountRecord → Prop
  | same (c : AccountCommand) (a : AccountRecord) : Evolves c a a
  | activated (a : AccountRecord) (now : ℕ) :
      Evolves (.activateAccount a.id) a { a with status := .active, updatedAt := now }
  | rehashed (a : AccountRecord) (passwordHash : String) (now : ℕ) :
      Evolves (.updatePasswordHash a.id passwordHash) a
        { a with passwordHash := passwordHash, updatedAt := now }

theorem Evolves.id {c : AccountCommand} {a a' : AccountRecord} (h : Evolves c a a') :
    a'.id = a.id := by
  cases h <;> rfl

theorem Evolves.email {c : AccountCommand} {a a' : AccountRecord} (h : Evolves c a a') :
    a'.email = a.email := by
  cases h <;> rfl

theorem Evolves.createdAt {c : AccountCommand} {a a' : AccountRecord} (h : Evolves c a a') :
    a'.createdAt = a.createdAt := by
  cases h <;> rfl

structure CreatedBy (c : AccountCommand) (a : AccountRecord) : Prop where
  command : c = .createPendingAccount ⟨a.email, a.passwordHash⟩
  status : a.status = .pending

/-- The accounts after a method: the old ones, and at most one that it creates. -/
structure AccountsStep (c : AccountCommand) (users users' : List AccountRecord) : Prop where
  kept : ∀ a ∈ users, ∃ a' ∈ users', Evolves c a a'
  origin : ∀ a' ∈ users', (∃ a ∈ users, Evolves c a a') ∨ CreatedBy c a'
  ids : (users.map (·.id)).Nodup → (users'.map (·.id)).Nodup

namespace AccountsStep

variable {c : AccountCommand} {users : List AccountRecord}

theorem refl (c : AccountCommand) (users : List AccountRecord) : AccountsStep c users users where
  kept a ha := ⟨a, ha, .same c a⟩
  origin a ha := .inl ⟨a, ha, .same c a⟩
  ids h := h

theorem of_updateWhere {p : AccountRecord → Bool} {f : AccountRecord → AccountRecord}
    (hf : ∀ a ∈ users, p a = true → Evolves c a (f a)) :
    AccountsStep c users (updateWhere p f users) where
  kept a ha := by
    cases hp : p a with
    | false => exact ⟨a, mem_updateWhere_of_not ha hp, .same c a⟩
    | true => exact ⟨f a, mem_updateWhere_of ha hp, hf a ha hp⟩
  origin a' ha' := by
    obtain ⟨a, ha, rfl⟩ := mem_updateWhere.1 ha'
    refine .inl ⟨a, ha, ?_⟩
    split
    · exact hf a ha ‹_›
    · exact .same c a
  ids h := by
    have hids : (updateWhere p f users).map (·.id) = users.map (·.id) := by
      refine List.map_map.trans (List.map_congr_left fun a ha => ?_)
      dsimp only [Function.comp]
      split
      · exact (hf a ha ‹_›).id
      · rfl
    rwa [hids]

end AccountsStep

section

variable {db db' : AccountDb} {stamp : AccountStamp}

theorem createPendingAccountTx_record {input : CreatePendingAccountInput} {r : AccountRecord}
    (h : (createPendingAccountTx input stamp).run db = .ok (r, db')) :
    r = ⟨stamp.id, input.email, .pending, .user, input.passwordHash, stamp.createdAt,
      stamp.createdAt⟩ := by
  simp only [createPendingAccountTx, Tx.bind_eq, Tx.update_bind, Tx.run_write_eq_ok_iff] at h
  obtain ⟨db₁, -, hrun⟩ := h
  cases hrun
  rfl

theorem accountsStep_create {input : CreatePendingAccountInput} {r : AccountRecord}
    (h : (createPendingAccountTx input stamp).run db = .ok (r, db')) :
    AccountsStep (.createPendingAccount input) db.auth.users db'.auth.users := by
  obtain ⟨-, -, hfresh⟩ := createPendingAccountTx_fresh h
  obtain rfl := createPendingAccountTx_run h
  have hrecord := createPendingAccountTx_record h
  refine ⟨fun a ha => ⟨a, List.mem_append_left _ ha, .same _ a⟩, fun a ha => ?_, fun hids => ?_⟩
  · rcases List.mem_append.1 ha with ha | ha
    · exact .inl ⟨a, ha, .same _ a⟩
    · obtain rfl := List.mem_singleton.1 ha
      rw [hrecord]
      exact .inr ⟨rfl, rfl⟩
  · rw [List.map_append, List.map_singleton]
    refine List.Nodup.append hids (List.nodup_singleton _) fun id hid hnew => ?_
    obtain ⟨a, ha, rfl⟩ := List.mem_map.1 hid
    exact (hfresh a ha).1 (List.mem_singleton.1 hnew)

theorem AccountCommand.impl_accounts {c : AccountCommand} {r : c.Res}
    (h : (c.impl stamp).run db = .ok (r, db')) :
    AccountsStep c db.auth.users db'.auth.users := by
  cases c with
  | createPendingAccount input => exact accountsStep_create h
  | activateAccount userId =>
      obtain rfl := activateAccountTx_run h
      refine .of_updateWhere fun a _ hp => ?_
      obtain ⟨hid, -⟩ := Bool.and_eq_true_iff.1 hp
      obtain rfl := beq_iff_eq.1 hid
      exact .activated a _
  | updatePasswordHash userId passwordHash =>
      have hrun := updatePasswordHashTx_run.symm.trans h
      split at hrun
      · cases hrun
        refine .of_updateWhere fun a _ hp => ?_
        obtain ⟨hid, -⟩ := Bool.and_eq_true_iff.1 hp
        obtain rfl := beq_iff_eq.1 hid
        exact .rehashed a passwordHash _
      · cases hrun
  | createPasswordResetToken userId input =>
      obtain ⟨-, -, rfl⟩ := createPasswordResetTokenTx_run h
      exact .refl _ _
  | consumePasswordResetToken tokenHash =>
      rcases consumePasswordResetTokenTx_run h with ⟨-, rfl⟩ | ⟨-, -, -, -, -, -, rfl⟩
      · exact .refl _ _
      · exact .refl _ _

/-- A token is as old as its columns, or the method has just created it. -/
theorem AccountCommand.impl_tokens {c : AccountCommand} {r : c.Res}
    (h : (c.impl stamp).run db = .ok (r, db')) {t : PasswordResetTokenRecord}
    (ht : t ∈ db'.passwordResetTokens) :
    (∃ t₀ ∈ db.passwordResetTokens, t₀.userId = t.userId ∧ t₀.tokenHash = t.tokenHash) ∨
      ∃ expiresAt, c = .createPasswordResetToken t.userId ⟨t.tokenHash, expiresAt⟩ := by
  have hused : ∀ ids now, t ∈ (db.saveUsed ids now).passwordResetTokens →
      ∃ t₀ ∈ db.passwordResetTokens, t₀.userId = t.userId ∧ t₀.tokenHash = t.tokenHash := by
    intro ids now ht
    obtain ⟨t₀, ht₀, rfl⟩ := mem_updateWhere.1 ht
    refine ⟨t₀, ht₀, ?_⟩
    split <;> exact ⟨rfl, rfl⟩
  cases c with
  | createPendingAccount input =>
      obtain rfl := createPendingAccountTx_run h
      exact .inl ⟨t, ht, rfl, rfl⟩
  | activateAccount userId =>
      obtain rfl := activateAccountTx_run h
      exact .inl ⟨t, ht, rfl, rfl⟩
  | updatePasswordHash userId passwordHash =>
      have hrun := updatePasswordHashTx_run.symm.trans h
      split at hrun
      · cases hrun
        exact .inl ⟨t, ht, rfl, rfl⟩
      · cases hrun
  | createPasswordResetToken userId input =>
      obtain ⟨hrow, -, rfl⟩ := createPasswordResetTokenTx_run h
      rcases List.mem_append.1 ht with ht | ht
      · exact .inl (hused _ _ ht)
      · rw [List.mem_singleton.1 ht, hrow]
        exact .inr ⟨input.expiresAt, rfl⟩
  | consumePasswordResetToken tokenHash =>
      rcases consumePasswordResetTokenTx_run h with ⟨-, rfl⟩ | ⟨token, -, -, -, -, -, rfl⟩
      · exact .inl ⟨t, ht, rfl, rfl⟩
      · exact .inl (hused _ _ ht)

end

/-! ### What a step does to the secrets -/

theorem codeStored_of_del {entries : Activations} {key : ActivationKey}
    {userId codeHmac : String} {expiresAt : ℕ}
    (h : CodeStored (entries.del key) userId codeHmac expiresAt) :
    CodeStored entries userId codeHmac expiresAt := by
  obtain ⟨payload, hcell, hhmac⟩ := h
  by_cases hkey : ActivationKey.activation userId = key
  · subst hkey
    rw [Store.cell_del_self] at hcell
    cases hcell
  · exact ⟨payload, (Store.cell_del_of_ne entries hkey).symm.trans hcell, hhmac⟩

theorem codeStored_of_modify {entries : Activations} {subjectId userId codeHmac : String}
    {expiresAt : ℕ} {f : ActivationPayload → ActivationPayload}
    (hf : ∀ payload, (f payload).codeHmac = payload.codeHmac)
    (h : CodeStored (entries.modify (.activation subjectId) f) userId codeHmac expiresAt) :
    ∃ e, CodeStored entries userId codeHmac e := by
  obtain ⟨payload, hcell, hhmac⟩ := h
  by_cases hkey : ActivationKey.activation userId = .activation subjectId
  · obtain rfl := ActivationKey.activation.inj hkey
    have hmodified := (Store.cell_modify_self (k := ActivationKey.activation userId) entries
      f).symm.trans hcell
    obtain ⟨⟨payload₀, e⟩, hcell₀, heq⟩ := Option.map_eq_some_iff.1 hmodified
    obtain ⟨rfl, -⟩ := Prod.mk.inj heq
    exact ⟨e, payload₀, hcell₀, (hf payload₀).symm.trans hhmac⟩
  · exact ⟨expiresAt, payload,
      (Store.cell_modify_of_ne (k := ActivationKey.activation subjectId) entries f
        hkey).symm.trans hcell, hhmac⟩

/-- A code that is stored after a command was stored before, or has just been set. -/
theorem codeStored_of_apply {c : ActivationCommand} {entries : Activations}
    {userId codeHmac : String} {expiresAt : ℕ}
    (h : CodeStored (c.apply entries).2 userId codeHmac expiresAt) :
    (∃ e, CodeStored entries userId codeHmac e) ∨ ∃ payload : ActivationPayload,
      ∃ ttlSeconds, c = .set (.activation userId) payload ttlSeconds ∧
        payload.codeHmac = codeHmac := by
  cases c with
  | set key value ttlSeconds =>
      obtain ⟨payload, hcell, hhmac⟩ := h
      by_cases hkey : key = .activation userId
      · subst hkey
        have hset := (Store.cell_set_self entries value (ttlSeconds * 1000)).symm.trans hcell
        obtain ⟨rfl, -⟩ := Prod.mk.inj (Option.some.inj hset)
        exact .inr ⟨_, ttlSeconds, rfl, hhmac⟩
      · refine .inl ⟨expiresAt, payload, ?_, hhmac⟩
        exact (Store.cell_set_of_ne entries value _ (Ne.symm hkey)).symm.trans hcell
  | existsKey key => exact .inl ⟨expiresAt, h⟩
  | consumeActivation subjectId otherHmac =>
      refine .inl ?_
      simp only [ActivationCommand.apply, CONSUME_ACTIVATION_LUA] at h
      split at h
      · exact ⟨expiresAt, h⟩
      split at h
      · exact ⟨expiresAt, codeStored_of_del h⟩
      · exact codeStored_of_modify (f := fun payload =>
          { payload with attempts := payload.attempts + 1 }) (fun _ => rfl) h

theorem codeStored_of_consumed {entries entries' : Activations} {userId codeHmac : String}
    (h : CONSUME_ACTIVATION_LUA userId codeHmac entries = (.consumed, entries')) :
    ∃ e, CodeStored entries userId codeHmac e := by
  simp only [CONSUME_ACTIVATION_LUA] at h
  split at h
  · cases h
  · rename_i payload hpending
    split at h
    · rename_i hmatch
      obtain ⟨e, hcell, -⟩ := visible_eq_some_iff.1 hpending
      exact ⟨e, payload, hcell, hmatch⟩
    · cases h

/-! ### What a step does to the state -/

section

variable {c : AccountStep} {o : AccountOutside} {s s' : AccountState} {r : c.Reply}

theorem exec_redis_cases {c : ActivationCommand} {r : AccountStep.Reply (.redis c)}
    (h : exec (.redis c) o s = some (r, s')) :
    s' = s ∨ s' = { s with entries := (c.apply s.entries).2 } := by
  have hs : (o.auth.fault.apply s (execActivations c s)).2 = s' :=
    congrArg Prod.snd (Option.some.inj h)
  exact (o.auth.fault.apply_state s (execActivations c s)).imp hs.symm.trans hs.symm.trans

theorem exec_enqueuePasswordReset {job : SendPasswordResetJobData}
    {r : AccountStep.Reply (.enqueuePasswordReset job)}
    (h : exec (.enqueuePasswordReset job) o s = some (r, s')) : s' = s := by
  have hs : (o.auth.fault.apply s ((.ok () : Except StorageError Unit), s)).2 = s' :=
    congrArg Prod.snd (Option.some.inj h)
  exact (o.auth.fault.apply_state s ((.ok () : Except StorageError Unit), s)).elim
    hs.symm.trans hs.symm.trans

theorem exec_accounts (hs : Sound s.auth.db) (h : exec c o s = some (r, s')) :
    s'.auth.db.users = s.auth.db.users ∨ ∃ command, c = .repository command ∧
      AccountsStep command s.auth.db.users s'.auth.db.users := by
  cases c with
  | auth c => exact .inl ((exec_acts (exec_auth h).1).since hs).2.users
  | hash password =>
      cases h
      exact .inl rfl
  | repository c =>
      rcases exec_repository_cases h with ⟨rfl, -⟩ | ⟨a, db', -, hrun, rfl, -⟩
      · exact .inl rfl
      · exact .inr ⟨c, rfl, c.impl_accounts hrun⟩
  | redis c =>
      rcases exec_redis_cases h with rfl | rfl
      · exact .inl rfl
      · exact .inl rfl
  | enqueuePasswordReset job =>
      rw [exec_enqueuePasswordReset h]
      exact .inl rfl

theorem exec_tokens (h : exec c o s = some (r, s')) {t : PasswordResetTokenRecord}
    (ht : t ∈ s'.passwordResetTokens) :
    (∃ t₀ ∈ s.passwordResetTokens, t₀.userId = t.userId ∧ t₀.tokenHash = t.tokenHash) ∨
      ∃ expiresAt, c = .repository (.createPasswordResetToken t.userId
        ⟨t.tokenHash, expiresAt⟩) := by
  cases c with
  | auth c => exact .inl ⟨t, (exec_auth h).2 ▸ ht, rfl, rfl⟩
  | hash password =>
      cases h
      exact .inl ⟨t, ht, rfl, rfl⟩
  | repository c =>
      rcases exec_repository_cases h with ⟨rfl, -⟩ | ⟨a, db', -, hrun, rfl, -⟩
      · exact .inl ⟨t, ht, rfl, rfl⟩
      · refine (c.impl_tokens hrun ht).imp_right fun hcreated => ?_
        obtain ⟨expiresAt, rfl⟩ := hcreated
        exact ⟨expiresAt, rfl⟩
  | redis c =>
      rcases exec_redis_cases h with rfl | rfl
      · exact .inl ⟨t, ht, rfl, rfl⟩
      · exact .inl ⟨t, ht, rfl, rfl⟩
  | enqueuePasswordReset job =>
      rw [exec_enqueuePasswordReset h] at ht
      exact .inl ⟨t, ht, rfl, rfl⟩

theorem exec_codes (h : exec c o s = some (r, s')) {userId codeHmac : String} {expiresAt : ℕ}
    (hstored : CodeStored s'.entries userId codeHmac expiresAt) :
    (∃ e, CodeStored s.entries userId codeHmac e) ∨ ∃ payload : ActivationPayload,
      ∃ ttlSeconds, c = .redis (.set (.activation userId) payload ttlSeconds) ∧
        payload.codeHmac = codeHmac := by
  cases c with
  | auth c =>
      obtain ⟨⟨r', auth'⟩, -, heq⟩ := Option.map_eq_some_iff.1 h
      cases heq
      exact .inl ⟨expiresAt, hstored⟩
  | hash password =>
      cases h
      exact .inl ⟨expiresAt, hstored⟩
  | repository c =>
      rcases exec_repository_cases h with ⟨rfl, -⟩ | ⟨a, db', -, hrun, rfl, -⟩
      · exact .inl ⟨expiresAt, hstored⟩
      · exact .inl ⟨expiresAt, hstored⟩
  | redis c =>
      rcases exec_redis_cases h with rfl | rfl
      · exact .inl ⟨expiresAt, hstored⟩
      · refine (codeStored_of_apply hstored).imp_right fun hset => ?_
        obtain ⟨payload, ttlSeconds, rfl, hhmac⟩ := hset
        exact ⟨payload, ttlSeconds, rfl, hhmac⟩
  | enqueuePasswordReset job =>
      rw [exec_enqueuePasswordReset h] at hstored
      exact .inl ⟨expiresAt, hstored⟩

theorem exec_consumePasswordResetToken {tokenHash : String} {row : PasswordResetTokenRecord}
    (h : exec (.repository (.consumePasswordResetToken tokenHash)) o s =
      some ((.ok (some row) : Except StorageError (Option PasswordResetTokenRecord)), s')) :
    ∃ t ∈ s.passwordResetTokens, t.userId = row.userId ∧ t.tokenHash = tokenHash := by
  rcases exec_repository_cases h with ⟨-, ⟨e, he⟩, -⟩ | ⟨a, db', -, hrun, -, ⟨-, heq⟩ | ⟨-, e, he⟩⟩
  · cases he
  · cases heq
    rcases consumePasswordResetTokenTx_run hrun with ⟨hnone, -⟩ | ⟨t, hfind, -, -, -, hsome, -⟩
    · cases hnone
    · obtain rfl := Option.some.inj hsome
      exact ⟨t, List.mem_of_find?_eq_some hfind, rfl, by simpa using List.find?_some hfind⟩
  · cases he

theorem exec_consumeActivation {userId codeHmac : String}
    (h : exec (.redis (.consumeActivation userId codeHmac)) o s =
      some ((.ok .consumed : Except StorageError ConsumeActivationResult), s')) :
    ∃ e, CodeStored s.entries userId codeHmac e := by
  have happly := congrArg Prod.fst (Fault.apply_eq_ok (Option.some.inj h))
  exact codeStored_of_consumed (Prod.ext (Except.ok.inj happly) rfl)

end

/-! ### The history of an account -/

/-- The address was verified with a code that the worker had drawn for the account before. -/
def Activated (config : AccountConfig) (σ : AccountPool) (account : AccountRecord) : Prop :=
  ∃ k input l₂ l₁ j call, σ.call? k = some (.verifyEmail input) ∧
    createEmail config.auth.toLowerCase input.email = some account.email ∧
    σ.history = l₂ ++ ⟨k, .redis (.consumeActivation account.id (config.auth.hmac input.code)),
      (Except.ok .consumed : Except StorageError ConsumeActivationResult)⟩ :: l₁ ∧
    σ.call? j = some call ∧
    DrewCode config call (traceOf l₁ j) account.id (config.auth.hmac input.code)

/-- The hash was drawn for a password that was sent with a token that the worker had drawn for
the account before. -/
def Rehashed (config : AccountConfig) (σ : AccountPool) (account : AccountRecord) : Prop :=
  ∃ k input row l₂ l₁ j call, σ.call? k = some (.resetPassword input) ∧
    meetsPolicy input.password.toList = true ∧
    (⟨k, .hash input.password, account.passwordHash⟩ :
      Entry AccountStep AccountStep.Reply) ∈ σ.history ∧
    PasswordResetTokenRecord.userId row = account.id ∧
    σ.history = l₂ ++ ⟨k, .repository (.consumePasswordResetToken
      (config.auth.hashToken input.token)), (Except.ok (some row) :
        Except StorageError (Option PasswordResetTokenRecord))⟩ :: l₁ ∧
    σ.call? j = some call ∧
    DrewToken config call (traceOf l₁ j) account.id (config.auth.hashToken input.token)

/-- What has happened to the account since it was `first`. -/
structure Descends (config : AccountConfig) (σ : AccountPool)
    (first account : AccountRecord) : Prop where
  id : account.id = first.id
  email : account.email = first.email
  createdAt : account.createdAt = first.createdAt
  status : account.status = first.status ∨
    account.status = .active ∧ Activated config σ account
  passwordHash : account.passwordHash = first.passwordHash ∨ Rehashed config σ account

/-- The account was there from the start, or a call has registered it. -/
def Begun (config : AccountConfig) (users : List AccountRecord) (σ : AccountPool)
    (first : AccountRecord) : Prop :=
  first ∈ users ∨ first.status = .pending ∧ ∃ k call r, σ.call? k = some call ∧
    Registers config call (traceOf σ.history k) ⟨first.email, first.passwordHash⟩ ∧
    (⟨k, .repository (.createPendingAccount ⟨first.email, first.passwordHash⟩), r⟩ :
      Entry AccountStep AccountStep.Reply) ∈ σ.history

/-- The stored secrets were drawn for their accounts. -/
structure SecretsDrawn (config : AccountConfig) (σ : AccountPool) : Prop where
  codes : ∀ userId codeHmac e, CodeStored σ.shared.entries userId codeHmac e →
    ∃ j call, σ.call? j = some call ∧
      DrewCode config call (traceOf σ.history j) userId codeHmac
  tokens : ∀ t ∈ σ.shared.passwordResetTokens, ∃ j call, σ.call? j = some call ∧
    DrewToken config call (traceOf σ.history j) t.userId t.tokenHash

/-- Every account of `σ` is still there in `σ'`, and what has changed has a warrant. -/
def Kept (config : AccountConfig) (σ σ' : AccountPool) : Prop :=
  ∀ account ∈ σ.shared.auth.db.users, ∃ a ∈ σ'.shared.auth.db.users,
    Descends config σ' account a

/-- Every account is an old or a registered one, with a warrant for what it is. -/
def Vouched (config : AccountConfig) (users : List AccountRecord) (σ : AccountPool) : Prop :=
  ∀ a ∈ σ.shared.auth.db.users, ∃ first, Begun config users σ first ∧
    Descends config σ first a

section

variable {config : AccountConfig} {users : List AccountRecord}
  {ok : AccountPool → AccountEvent → Prop} {σ σ' : AccountPool} {call : AccountCall}
  {trace trace' : AccountTrace} {account : AccountRecord}

theorem Registers.mono {new : CreatePendingAccountInput}
    (h : Registers config call trace new) (hsub : trace ⊆ trace') :
    Registers config call trace' new := by
  obtain ⟨input, clientIp, hcall, hemail, hpolicy, hhash⟩ := h
  exact ⟨input, clientIp, hcall, hemail, hpolicy, hsub hhash⟩

theorem DrewCode.mono {userId codeHmac : String}
    (h : DrewCode config call trace userId codeHmac) (hsub : trace ⊆ trace') :
    DrewCode config call trace' userId codeHmac := by
  obtain ⟨data, code, hcall, huser, hdrawn, hhmac⟩ := h
  exact ⟨data, code, hcall, huser, hsub hdrawn, hhmac⟩

theorem DrewToken.mono {userId tokenHash : String}
    (h : DrewToken config call trace userId tokenHash) (hsub : trace ⊆ trace') :
    DrewToken config call trace' userId tokenHash := by
  obtain ⟨data, token, hcall, huser, hdrawn, hhash⟩ := h
  exact ⟨data, token, hcall, huser, hsub hdrawn, hhash⟩

theorem Activated.later (h : Activated config σ account)
    (hrun : (accountService config).Reaches ok σ σ') : Activated config σ' account := by
  obtain ⟨k, input, l₂, l₁, j, call, hk, hemail, hl, hj, hdrew⟩ := h
  obtain ⟨l, hl'⟩ := hrun.history_suffix
  exact ⟨k, input, l ++ l₂, l₁, j, call, hrun.call? hk, hemail,
    by rw [← hl', hl, List.append_assoc], hrun.call? hj, hdrew⟩

theorem Rehashed.later (h : Rehashed config σ account)
    (hrun : (accountService config).Reaches ok σ σ') : Rehashed config σ' account := by
  obtain ⟨k, input, row, l₂, l₁, j, call, hk, hpolicy, hhash, hrow, hl, hj, hdrew⟩ := h
  obtain ⟨l, hl'⟩ := hrun.history_suffix
  exact ⟨k, input, row, l ++ l₂, l₁, j, call, hrun.call? hk, hpolicy,
    hrun.history_suffix.subset hhash, hrow, by rw [← hl', hl, List.append_assoc],
    hrun.call? hj, hdrew⟩

theorem Descends.later {first : AccountRecord} (h : Descends config σ first account)
    (hrun : (accountService config).Reaches ok σ σ') : Descends config σ' first account :=
  ⟨h.id, h.email, h.createdAt,
    h.status.imp_right fun hactive => ⟨hactive.1, hactive.2.later hrun⟩,
    h.passwordHash.imp_right fun hrehashed => hrehashed.later hrun⟩

theorem Begun.later {first : AccountRecord} (h : Begun config users σ first)
    (hrun : (accountService config).Reaches ok σ σ') : Begun config users σ' first := by
  refine h.imp_right fun hregistered => ?_
  obtain ⟨hstatus, k, call, r, hk, hregisters, hcreated⟩ := hregistered
  exact ⟨hstatus, k, call, r, hrun.call? hk, hregisters.mono fun _ hx =>
    mem_traceOf_of_suffix hrun.history_suffix hx, hrun.history_suffix.subset hcreated⟩

/-! ### Runs -/

theorem fires_warrant {s : AccountState} {e : Entry AccountStep AccountStep.Reply}
    (h : (accountService config).Reaches ok (Pool.init s) σ)
    (he : (accountService config).Fires ok e σ σ') :
    ∃ call, σ.call? e.thread = some call ∧
      Warrant config call (traceOf σ.history e.thread) e.command := by
  obtain ⟨call, rest, hk, hwarrant⟩ := he.allowed (Warrant config) _ h
    fun _ call _ => program_warranted config call
  exact ⟨call, by rw [Pool.call?, hk]; rfl, hwarrant⟩

theorem SecretsDrawn.step (h : (accountService config).Reaches ok
      (Pool.init (AccountState.init users)) σ) (hσ : SecretsDrawn config σ)
    (hstep : (accountService config).Steps ok σ σ') : SecretsDrawn config σ' := by
  have hrun : (accountService config).Reaches ok σ σ' := .single hstep
  have hcode : ∀ {userId codeHmac e}, CodeStored σ.shared.entries userId codeHmac e →
      ∃ j call, σ'.call? j = some call ∧
        DrewCode config call (traceOf σ'.history j) userId codeHmac := by
    intro userId codeHmac e hstored
    obtain ⟨j, call, hj, hdrew⟩ := hσ.codes userId codeHmac e hstored
    exact ⟨j, call, hrun.call? hj, hdrew.mono fun _ hx =>
      mem_traceOf_of_suffix hrun.history_suffix hx⟩
  have htoken : ∀ {userId tokenHash}, (∃ t ∈ σ.shared.passwordResetTokens,
      t.userId = userId ∧ t.tokenHash = tokenHash) → ∃ j call, σ'.call? j = some call ∧
        DrewToken config call (traceOf σ'.history j) userId tokenHash := by
    rintro _ _ ⟨t, ht, rfl, rfl⟩
    obtain ⟨j, call, hj, hdrew⟩ := hσ.tokens t ht
    exact ⟨j, call, hrun.call? hj, hdrew.mono fun _ hx =>
      mem_traceOf_of_suffix hrun.history_suffix hx⟩
  cases hstep.moves with
  | spawn call hok hshared hthreads hhistory =>
      exact ⟨fun _ _ _ hstored => hcode (hshared ▸ hstored),
        fun t ht => htoken ⟨t, hshared ▸ ht, rfl, rfl⟩⟩
  | environment x hok hshared hthreads hhistory =>
      refine ⟨fun userId codeHmac e hstored => ?_, fun t ht => htoken ⟨t, ?_, rfl, rfl⟩⟩
      · rw [hshared] at hstored
        cases x with
        | tick n => exact hcode hstored
        | evict key => exact hcode hstored
        | evictActivation key => exact hcode (codeStored_of_del hstored)
      · rw [hshared] at ht
        exact (environment_idled x σ.shared).tokens ▸ ht
  | exec e he =>
      obtain ⟨o, -, hexec⟩ := he.exec
      obtain ⟨call, hk, hwarrant⟩ := fires_warrant h he
      have htrace : traceOf σ.history e.thread ⊆ traceOf σ'.history e.thread := fun _ hx =>
        mem_traceOf_of_suffix hrun.history_suffix hx
      refine ⟨fun userId codeHmac expiresAt hstored => ?_, fun t ht => ?_⟩
      · rcases exec_codes hexec hstored with ⟨e', hbefore⟩ | ⟨payload, ttlSeconds, hset, rfl⟩
        · exact hcode hbefore
        · rw [hset] at hwarrant
          exact ⟨e.thread, call, hrun.call? hk, DrewCode.mono hwarrant htrace⟩
      · rcases exec_tokens hexec ht with hbefore | ⟨expiresAt, hcreate⟩
        · exact htoken hbefore
        · rw [hcreate] at hwarrant
          exact ⟨e.thread, call, hrun.call? hk, DrewToken.mono hwarrant htrace⟩

/-- In every run the stored secrets were drawn for their accounts. -/
theorem SecretsDrawn.reaches (h : (accountService config).Reaches ok
    (Pool.init (AccountState.init users)) σ) : SecretsDrawn config σ := by
  induction h with
  | refl =>
      refine ⟨fun userId codeHmac e hstored => ?_, fun t ht => by cases ht⟩
      obtain ⟨payload, hcell, -⟩ := hstored
      cases hcell
  | tail hrun hstep ih => exact ih.step hrun hstep

theorem steps_accounts (h : (accountService config).Reaches ok
      (Pool.init (AccountState.init users)) σ)
    (hstep : (accountService config).Steps ok σ σ') :
    σ'.shared.auth.db.users = σ.shared.auth.db.users ∨ ∃ e command,
      (accountService config).Fires ok e σ σ' ∧ e.command = .repository command ∧
        AccountsStep command σ.shared.auth.db.users σ'.shared.auth.db.users := by
  cases hstep.moves with
  | spawn call hok hshared hthreads hhistory => exact .inl (by rw [hshared])
  | environment x hok hshared hthreads hhistory =>
      rw [hshared]
      exact .inl (congrArg AuthDb.users (environment_idled x σ.shared).auth.db)
  | exec e he =>
      obtain ⟨o, -, hexec⟩ := he.exec
      refine (exec_accounts (reaches_sound h) hexec).imp_right fun haccounts => ?_
      obtain ⟨command, hcommand, haccounts⟩ := haccounts
      exact ⟨e, command, he, hcommand, haccounts⟩

/-- No account disappears, and none changes its address. -/
theorem account_kept (h : (accountService config).Reaches ok
      (Pool.init (AccountState.init users)) σ)
    (hrun : (accountService config).Reaches ok σ σ')
    (ha : account ∈ σ.shared.auth.db.users) :
    ∃ a ∈ σ'.shared.auth.db.users, a.id = account.id ∧ a.email = account.email := by
  induction hrun with
  | refl => exact ⟨account, ha, rfl, rfl⟩
  | tail hrun hstep ih =>
      obtain ⟨a, ha', hid, hemail⟩ := ih
      rcases steps_accounts (h.trans hrun) hstep with husers | ⟨e, command, -, -, haccounts⟩
      · exact ⟨a, husers ▸ ha', hid, hemail⟩
      · obtain ⟨a', ha'', hevolves⟩ := haccounts.kept a ha'
        exact ⟨a', ha'', hevolves.id.trans hid, hevolves.email.trans hemail⟩

theorem ids_nodup (hids : (users.map (·.id)).Nodup) (h : (accountService config).Reaches ok
    (Pool.init (AccountState.init users)) σ) : (σ.shared.auth.db.users.map (·.id)).Nodup := by
  induction h with
  | refl => exact hids
  | tail hrun hstep ih =>
      rcases steps_accounts hrun hstep with husers | ⟨e, command, -, -, haccounts⟩
      · exact husers ▸ ih
      · exact haccounts.ids ih

/-- An account that a call has found has its id and its address for ever. -/
theorem account_of_found (h : (accountService config).Reaches ok
      (Pool.init (AccountState.init users)) σ) {k : ℕ} {c : AuthCommand} {a : c.Res}
    (hmem : (⟨.auth (.repository c), Except.ok a⟩ : AccountExchange) ∈ traceOf σ.history k)
    {id email : String} (hfound : ∀ stamp db db', (c.impl stamp).run db = .ok (a, db') →
      ∃ a ∈ db.users, a.id = id ∧ a.email = email) :
    ∃ a ∈ σ.shared.auth.db.users, a.id = id ∧ a.email = email := by
  obtain ⟨l₂, l₁, hl⟩ := List.append_of_mem (mem_traceOf.1 hmem)
  obtain ⟨σ₁, σ₂, h₁, he, -, h₂⟩ := h.split hl List.nil_suffix
  obtain ⟨o, -, hexec⟩ := he.exec
  have hexec : exec (.auth (.repository c)) o σ₁.shared = some (.ok a, σ₂.shared) := hexec
  have hrun := (exec_repository_ok (exec_auth hexec).1).1
  obtain ⟨a, ha, rfl, rfl⟩ := hfound _ _ _ hrun
  exact account_kept h₁ ((Relation.ReflTransGen.single he.steps).trans h₂) ha

theorem account_of_findAccountByEmail (h : (accountService config).Reaches ok
      (Pool.init (AccountState.init users)) σ) {k : ℕ} {email : String}
    (hmem : (⟨.auth (.repository (.findAccountByEmail email)), Except.ok (some account)⟩ :
      AccountExchange) ∈ traceOf σ.history k) :
    ∃ a ∈ σ.shared.auth.db.users, a.id = account.id ∧ a.email = email := by
  refine account_of_found h (c := .findAccountByEmail email) (a := some account) hmem
    fun stamp db db' hrun => ?_
  obtain ⟨hfind, -⟩ := Prod.mk.inj (Except.ok.inj hrun)
  exact ⟨account, List.mem_of_find?_eq_some hfind, rfl, by simpa using List.find?_some hfind⟩

theorem account_of_findAccountById (h : (accountService config).Reaches ok
      (Pool.init (AccountState.init users)) σ) {k : ℕ} {id : String}
    (hmem : (⟨.auth (.repository (.findAccountById id)), Except.ok (some account)⟩ :
      AccountExchange) ∈ traceOf σ.history k) :
    ∃ a ∈ σ.shared.auth.db.users, a.id = id ∧ a.email = account.email := by
  refine account_of_found h (c := .findAccountById id) (a := some account) hmem
    fun stamp db db' hrun => ?_
  obtain ⟨hfind, -⟩ := Prod.mk.inj (Except.ok.inj hrun)
  exact ⟨account, List.mem_of_find?_eq_some hfind, by simpa using List.find?_some hfind, rfl⟩

/-- A code that has been consumed was drawn for the account before. -/
theorem drewCode_of_consumed (h : (accountService config).Reaches ok
      (Pool.init (AccountState.init users)) σ) {k : ℕ} {userId codeHmac : String}
    (hmem : (⟨.redis (.consumeActivation userId codeHmac), Except.ok .consumed⟩ :
      AccountExchange) ∈ traceOf σ.history k) :
    ∃ l₂ l₁ j call, σ.history = l₂ ++ ⟨k, .redis (.consumeActivation userId codeHmac),
        (Except.ok .consumed : Except StorageError ConsumeActivationResult)⟩ :: l₁ ∧
      σ.call? j = some call ∧ DrewCode config call (traceOf l₁ j) userId codeHmac := by
  obtain ⟨l₂, l₁, hl⟩ := List.append_of_mem (mem_traceOf.1 hmem)
  obtain ⟨σ₁, σ₂, h₁, he, rfl, h₂⟩ := h.split hl List.nil_suffix
  obtain ⟨o, -, hexec⟩ := he.exec
  obtain ⟨expiresAt, hstored⟩ := exec_consumeActivation hexec
  obtain ⟨j, call, hj, hdrew⟩ := (SecretsDrawn.reaches h₁).codes userId codeHmac _ hstored
  exact ⟨l₂, σ₁.history, j, call, hl,
    Semantics.Reaches.call? ((Relation.ReflTransGen.single he.steps).trans h₂) hj, hdrew⟩

/-- A token that has been consumed was drawn for the account before. -/
theorem drewToken_of_consumed (h : (accountService config).Reaches ok
      (Pool.init (AccountState.init users)) σ) {k : ℕ} {tokenHash : String}
    {row : PasswordResetTokenRecord}
    (hmem : (⟨.repository (.consumePasswordResetToken tokenHash), Except.ok (some row)⟩ :
      AccountExchange) ∈ traceOf σ.history k) :
    ∃ l₂ l₁ j call, σ.history = l₂ ++ ⟨k, .repository (.consumePasswordResetToken tokenHash),
        (Except.ok (some row) : Except StorageError (Option PasswordResetTokenRecord))⟩ :: l₁ ∧
      σ.call? j = some call ∧ DrewToken config call (traceOf l₁ j) row.userId tokenHash := by
  obtain ⟨l₂, l₁, hl⟩ := List.append_of_mem (mem_traceOf.1 hmem)
  obtain ⟨σ₁, σ₂, h₁, he, rfl, h₂⟩ := h.split hl List.nil_suffix
  obtain ⟨o, -, hexec⟩ := he.exec
  obtain ⟨t, ht, huser, hhash⟩ := exec_consumePasswordResetToken hexec
  obtain ⟨j, call, hj, hdrew⟩ := (SecretsDrawn.reaches h₁).tokens t ht
  rw [huser, hhash] at hdrew
  exact ⟨l₂, σ₁.history, j, call, hl,
    Semantics.Reaches.call? ((Relation.ReflTransGen.single he.steps).trans h₂) hj, hdrew⟩

theorem activated_of_verifies (h : (accountService config).Reaches ok
      (Pool.init (AccountState.init users)) σ) (hids : (users.map (·.id)).Nodup) {k : ℕ}
    (hk : σ.call? k = some call) (ha : account ∈ σ.shared.auth.db.users)
    (hverifies : Verifies config call (traceOf σ.history k) account.id) :
    Activated config σ account := by
  obtain ⟨input, email, found, rfl, hemail, hfound, hid, hconsumed⟩ := hverifies
  obtain ⟨l₂, l₁, j, call, hl, hj, hdrew⟩ := drewCode_of_consumed h hconsumed
  obtain ⟨a, ha', hid', rfl⟩ := account_of_findAccountByEmail h hfound
  -- the row that was found is still the only one with this id
  obtain rfl := List.inj_on_of_nodup_map (ids_nodup hids h) ha' ha (hid'.trans hid)
  exact ⟨k, input, l₂, l₁, j, call, hk, hemail, hl, hj, hdrew⟩

theorem rehashed_of_resets (h : (accountService config).Reaches ok
      (Pool.init (AccountState.init users)) σ) {k : ℕ} {userId passwordHash : String}
    (hk : σ.call? k = some call)
    (hresets : Resets config call (traceOf σ.history k) userId passwordHash)
    (hid : account.id = userId) (hhash : account.passwordHash = passwordHash) :
    Rehashed config σ account := by
  obtain ⟨input, row, rfl, hpolicy, hconsumed, hrow, hdrawn⟩ := hresets
  obtain ⟨l₂, l₁, j, call, hl, hj, hdrew⟩ := drewToken_of_consumed h hconsumed
  rw [hrow, ← hid] at hdrew
  exact ⟨k, input, row, l₂, l₁, j, call, hk, hpolicy, hhash ▸ mem_traceOf.1 hdrawn,
    hrow.trans hid.symm, hl, hj, hdrew⟩

theorem Descends.refl (a : AccountRecord) : Descends config σ a a :=
  ⟨rfl, rfl, rfl, .inl rfl, .inl rfl⟩

/-- What a step makes of an account has a warrant. -/
theorem Descends.step (h : (accountService config).Reaches ok
      (Pool.init (AccountState.init users)) σ) (hids : (users.map (·.id)).Nodup)
    {e : Entry AccountStep AccountStep.Reply} {command : AccountCommand}
    (he : (accountService config).Fires ok e σ σ') (hcommand : e.command = .repository command)
    {first a a' : AccountRecord} (ha : a ∈ σ.shared.auth.db.users)
    (hdescends : Descends config σ first a) (hevolves : Evolves command a a') :
    Descends config σ' first a' := by
  have hrun : (accountService config).Reaches ok σ σ' := .single he.steps
  obtain ⟨call, hk, hwarrant⟩ := fires_warrant h he
  rw [hcommand] at hwarrant
  have hlater := hdescends.later hrun
  cases hevolves with
  | same => exact hlater
  | activated _ now =>
      exact ⟨hlater.id, hlater.email, hlater.createdAt,
        .inr ⟨rfl, (activated_of_verifies h hids hk ha hwarrant).later hrun⟩,
        hlater.passwordHash⟩
  | rehashed _ passwordHash now =>
      have hrehashed : Rehashed config σ { a with passwordHash, updatedAt := now } :=
        rehashed_of_resets h hk hwarrant rfl rfl
      exact ⟨hlater.id, hlater.email, hlater.createdAt, hlater.status,
        .inr (hrehashed.later hrun)⟩

/-- Between any two states of a run no account disappears. -/
theorem Kept.reaches (hids : (users.map (·.id)).Nodup) (h : (accountService config).Reaches ok
      (Pool.init (AccountState.init users)) σ) (hrun : (accountService config).Reaches ok σ σ') :
    Kept config σ σ' := by
  intro account ha
  induction hrun with
  | refl => exact ⟨account, ha, .refl account⟩
  | tail hrun hstep ih =>
      obtain ⟨a, ha, hdescends⟩ := ih
      rcases steps_accounts (h.trans hrun) hstep with
        husers | ⟨e, command, he, hcommand, haccounts⟩
      · exact ⟨a, husers ▸ ha, hdescends.later (.single hstep)⟩
      · obtain ⟨a', ha', hevolves⟩ := haccounts.kept a ha
        exact ⟨a', ha', .step (h.trans hrun) hids he hcommand ha hdescends hevolves⟩

/-- An account that a method creates was registered by the call. -/
theorem begun_of_created (h : (accountService config).Reaches ok
      (Pool.init (AccountState.init users)) σ) {e : Entry AccountStep AccountStep.Reply}
    {command : AccountCommand} (he : (accountService config).Fires ok e σ σ')
    (hcommand : e.command = .repository command) (hcreated : CreatedBy command account) :
    Begun config users σ' account := by
  have hrun : (accountService config).Reaches ok σ σ' := .single he.steps
  obtain ⟨call, hk, hwarrant⟩ := fires_warrant h he
  have hmem : e ∈ σ'.history := he.history ▸ List.mem_cons_self
  rw [hcommand, hcreated.command] at hwarrant
  obtain ⟨k, c, r⟩ := e
  obtain rfl : c = .repository (.createPendingAccount ⟨account.email, account.passwordHash⟩) :=
    hcommand.trans (congrArg AccountStep.repository hcreated.command)
  exact .inr ⟨hcreated.status, k, call, r, hrun.call? hk,
    Registers.mono hwarrant fun _ hx => mem_traceOf_of_suffix hrun.history_suffix hx, hmem⟩

theorem Vouched.step (h : (accountService config).Reaches ok
      (Pool.init (AccountState.init users)) σ) (hids : (users.map (·.id)).Nodup)
    (hσ : Vouched config users σ) (hstep : (accountService config).Steps ok σ σ') :
    Vouched config users σ' := by
  have hrun : (accountService config).Reaches ok σ σ' := .single hstep
  intro a' ha'
  rcases steps_accounts h hstep with husers | ⟨e, command, he, hcommand, haccounts⟩
  · obtain ⟨first, hbegun, hdescends⟩ := hσ a' (husers ▸ ha')
    exact ⟨first, hbegun.later hrun, hdescends.later hrun⟩
  · rcases haccounts.origin a' ha' with ⟨a, ha, hevolves⟩ | hcreated
    · obtain ⟨first, hbegun, hdescends⟩ := hσ a ha
      exact ⟨first, hbegun.later hrun, .step h hids he hcommand ha hdescends hevolves⟩
    · exact ⟨a', begun_of_created h he hcommand hcreated, .refl a'⟩

/-- In every run no account disappears, every account that was not there at the start was
registered, and an account is activated or given another password hash only with a secret
that the worker drew for it before. -/
theorem accounts_vouched (hids : (users.map (·.id)).Nodup)
    (h : (accountService config).Reaches ok (Pool.init (AccountState.init users)) σ) :
    Vouched config users σ ∧
      ∀ σ', (accountService config).Reaches ok σ σ' → Kept config σ σ' := by
  refine ⟨?_, fun σ' hrun => .reaches hids h hrun⟩
  induction h with
  | refl => exact fun a ha => ⟨a, .inl ha, .refl a⟩
  | tail hrun hstep ih => exact ih.step hrun hids hstep

/-- Every mail of a run goes to the address of the account that the same call has found under
the id that its secret, which it has drawn, was stored for. -/
theorem mails_reach_owner (h : (accountService config).Reaches ok
      (Pool.init (AccountState.init users)) σ) {k : ℕ} {mail : Mail}
    {r : AccountStep.Reply (.auth (.sendMail mail))}
    (hmem : (⟨k, .auth (.sendMail mail), r⟩ : Entry AccountStep AccountStep.Reply) ∈
      σ.history) :
    ∃ call found, σ.call? k = some call ∧ ∃ account ∈ σ.shared.auth.db.users,
      (⟨.auth (.repository (.findAccountById account.id)), Except.ok (some found)⟩ :
        AccountExchange) ∈ traceOf σ.history k ∧ AccountRecord.email found = account.email ∧
      Mails config call (traceOf σ.history k) account.id account.email mail := by
  obtain ⟨l₂, l₁, hl⟩ := List.append_of_mem hmem
  obtain ⟨σ₁, σ₂, h₁, he, rfl, h₂⟩ := h.split hl List.nil_suffix
  have hrun : (accountService config).Reaches ok σ₁ σ :=
    (Relation.ReflTransGen.single he.steps).trans h₂
  obtain ⟨call, hk, userId, found, hfound, hmails⟩ := fires_warrant h₁ he
  obtain ⟨a, ha, rfl, hemail⟩ := account_of_findAccountById h₁ hfound
  obtain ⟨account, haccount, hid, hsame⟩ := account_kept h₁ hrun ha
  have hsub : traceOf σ₁.history k ⊆ traceOf σ.history k := fun _ hx =>
    mem_traceOf_of_suffix hrun.history_suffix hx
  refine ⟨call, found, hrun.call? hk, account, haccount, ?_⟩
  rw [hid, hsame, hemail]
  exact ⟨hsub hfound, rfl, hmails.mono hsub⟩

end

/-! ### A run -/

/-- An account is registered and activated, and its password is reset. -/
def recovered : AccountPool :=
  (accountService exampleAccounts).after
    (.spawn (.register ⟨"u@example.com", "Secret-1", "Secret-1"⟩ "") :: accountSteps 0 "a" 9 ++
      .spawn (.processVerificationCode ⟨.activation, "a", some "a", none⟩) ::
        accountSteps 1 "c" 7 ++
      .spawn (.verifyEmail ⟨"u@example.com", "c"⟩) :: accountSteps 2 "v" 3 ++
      .spawn (.requestPasswordReset ⟨"u@example.com"⟩ "") :: accountSteps 3 "r" 7 ++
      .spawn (.processPasswordReset ⟨"a", "r"⟩) :: accountSteps 4 "t" 7 ++
      .spawn (.resetPassword ⟨"t", "Secret-2", "Secret-2"⟩) :: accountSteps 5 "h" 5)
    (Pool.init (AccountState.init []))

set_option maxRecDepth 4000 in
theorem recovered_reached : (accountService exampleAccounts).Reaches (fun _ _ => True)
    (Pool.init (AccountState.init [])) recovered :=
  Semantics.reaches_after _ (by decide +kernel)

set_option maxRecDepth 4000 in
theorem recovered_vouched :
    recovered.shared.auth.db.users.map (fun a => (a.id, a.status, a.passwordHash)) =
        [("a", .active, "h")] ∧
      Vouched exampleAccounts [] recovered ∧ ∀ σ', (accountService exampleAccounts).Reaches
        (fun _ _ => True) recovered σ' → Kept exampleAccounts recovered σ' :=
  ⟨by decide +kernel, accounts_vouched List.nodup_nil recovered_reached⟩

/-- The mail that an entry sends, and the call. -/
def sentMail : Entry AccountStep AccountStep.Reply → Option (ℕ × Mail)
  | ⟨k, .auth (.sendMail mail), _⟩ => some (k, mail)
  | _ => none

theorem mem_of_sentMail {history : List (Entry AccountStep AccountStep.Reply)} {k : ℕ}
    {mail : Mail} (h : (k, mail) ∈ history.filterMap sentMail) :
    ∃ r, (⟨k, .auth (.sendMail mail), r⟩ : Entry AccountStep AccountStep.Reply) ∈ history := by
  obtain ⟨e, he, hsent⟩ := List.mem_filterMap.1 h
  rw [sentMail.eq_def] at hsent
  split at hsent
  · obtain ⟨rfl, rfl⟩ := Prod.mk.inj (Option.some.inj hsent)
    exact ⟨_, he⟩
  · cases hsent

set_option maxRecDepth 4000 in
theorem recovered_mails : ∃ call found, recovered.call? 4 = some call ∧
    ∃ account ∈ recovered.shared.auth.db.users,
      (⟨.auth (.repository (.findAccountById account.id)), Except.ok (some found)⟩ :
        AccountExchange) ∈ traceOf recovered.history 4 ∧
      AccountRecord.email found = account.email ∧
      Mails exampleAccounts call (traceOf recovered.history 4) account.id account.email
        (EmailProcessor.resetMail exampleAccounts "u@example.com" "t") := by
  have hsent : (4, EmailProcessor.resetMail exampleAccounts "u@example.com" "t") ∈
      recovered.history.filterMap sentMail := by decide +kernel
  obtain ⟨r, hmem⟩ := mem_of_sentMail hsent
  exact mails_reach_owner recovered_reached hmem

end Account

end Shortlink
